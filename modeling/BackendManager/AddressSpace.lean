import BackendManager.IpAddress
import Mathlib.Algebra.Group.Nat.Defs

/-!
# The Address Space

Networks that follow one another without a gap cover all addresses between the first and the last
of them, and two networks are nested or have no address in common. The blocks of the registries
of the two address spaces follow one another from the first address to the last one, so that an
address in none of the ranges that are set apart is one of global unicast. Nothing here names a
particular program.

That a list of networks has no gap is computed on their first and last addresses (`tiles`), in
one pass over the list; membership of an address is then a matter of comparing numbers.
Inclusion and disjointness are computed on prefixes. All of these checks are run on the lists of
the registries, and the theorems about all addresses follow from them.

## Main results

* `among_of_tiles`: networks without a gap between them cover an interval.
* `among_of_within`, `among_disjoint`: inclusion and disjointness, from the prefixes alone.
* `globalUnicast_iff`: global unicast is what the ranges leave over.
-/

namespace Ipaddress

variable {w : ℕ} {n m : Network w} {nets nets' : List (Network w)} {ip : BitVec w}

/-! ### Prefixes -/

/-- What begins alike begins alike up to any shorter prefix. -/
theorem shiftRight_congr {a b : BitVec w} {i j : ℕ} (hij : i ≤ j) (h : a >>> i = b >>> i) :
    a >>> j = b >>> j := by
  obtain ⟨k, rfl⟩ := Nat.exists_eq_add_of_le hij
  rw [BitVec.shiftRight_add, BitVec.shiftRight_add, h]

/-- An address is in a network if the two agree in their first bits. -/
theorem Network.contains_eq_true :
    n.contains ip = true ↔ ip >>> (w - n.prefixlen) = n.ip >>> (w - n.prefixlen) := by
  rw [Network.contains, decide_eq_true_eq]

/-- A network whose prefix is the whole of an address. -/
theorem Network.contains_host {a : BitVec w} : Network.contains ⟨a, w⟩ ip = decide (ip = a) := by
  simp [Network.contains]

/-- The network is a part of the other one. -/
def Network.within (n m : Network w) : Bool :=
  decide (m.prefixlen ≤ n.prefixlen) && m.contains n.ip

/-- An address of a network is in every network that this one is a part of. -/
theorem Network.contains_of_within (h : n.within m = true) (hip : n.contains ip = true) :
    m.contains ip = true := by
  rw [Network.within, Bool.and_eq_true, decide_eq_true_eq] at h
  obtain ⟨hle, hm⟩ := h
  rw [Network.contains_eq_true] at hip hm ⊢
  rw [← hm]
  exact shiftRight_congr (Nat.sub_le_sub_left hle w) hip

/-- The networks begin differently. -/
def Network.apart (n m : Network w) : Bool :=
  n.ip >>> (w - min n.prefixlen m.prefixlen) != m.ip >>> (w - min n.prefixlen m.prefixlen)

/-- And in none that begins differently. -/
theorem Network.not_contains_of_apart (h : n.apart m = true) (hip : n.contains ip = true) :
    m.contains ip = false := by
  rw [Bool.eq_false_iff]
  intro hm
  rw [Network.contains_eq_true] at hip hm
  have hn := shiftRight_congr (Nat.sub_le_sub_left (Nat.min_le_left _ m.prefixlen) w) hip
  have hm := shiftRight_congr (Nat.sub_le_sub_left (Nat.min_le_right n.prefixlen _) w) hm
  exact bne_iff_ne.mp h (hn.symm.trans hm)

/-- No address is among no networks. -/
@[simp] theorem among_nil : among [] ip = false := rfl

/-- An address is among networks if it is in one of them. -/
theorem among_eq_true : among nets ip = true ↔ ∃ n ∈ nets, n.contains ip = true := by
  rw [among, List.any_eq_true]

/-- **Inclusion**: each network is a part of one of the others. -/
theorem among_of_within (h : (nets.all fun n => nets'.any n.within) = true)
    (hip : among nets ip = true) : among nets' ip = true := by
  obtain ⟨n, hn, hip⟩ := among_eq_true.mp hip
  obtain ⟨m, hm, hwithin⟩ := List.any_eq_true.mp (List.all_eq_true.mp h n hn)
  exact among_eq_true.mpr ⟨m, hm, Network.contains_of_within hwithin hip⟩

/-- **Disjointness**: each network is apart from each of the others. -/
theorem among_disjoint (h : (nets.all fun n => nets'.all n.apart) = true)
    (hip : among nets ip = true) : among nets' ip = false := by
  obtain ⟨n, hn, hip⟩ := among_eq_true.mp hip
  rw [Bool.eq_false_iff]
  intro hip'
  obtain ⟨m, hm, hip'⟩ := among_eq_true.mp hip'
  have hapart := List.all_eq_true.mp (List.all_eq_true.mp h n hn) m hm
  exact Bool.eq_false_iff.mp (Network.not_contains_of_apart hapart hip) hip'

/-! ### Tilings -/

/-- How many addresses the network has. -/
def Network.size (n : Network w) : ℕ := 2 ^ (w - n.prefixlen)

/-- A network without host bits is an interval. -/
theorem Network.contains_of_lt (hstrict : n.size ∣ n.ip.toNat) (hle : n.ip.toNat ≤ ip.toNat)
    (hlt : ip.toNat < n.ip.toNat + n.size) : n.contains ip = true := by
  rw [Network.contains_eq_true]
  apply BitVec.eq_of_toNat_eq
  rw [BitVec.toNat_ushiftRight, BitVec.toNat_ushiftRight, Nat.shiftRight_eq_div_pow,
    Nat.shiftRight_eq_div_pow]
  change ip.toNat / n.size = n.ip.toNat / n.size
  obtain ⟨k, hk⟩ := hstrict
  have hpos : 0 < n.size := Nat.two_pow_pos _
  rw [hk, Nat.mul_div_cancel_left k hpos]
  apply Nat.div_eq_of_lt_le
  · rw [Nat.mul_comm, ← hk]
    exact hle
  · rw [Nat.succ_mul, Nat.mul_comm, ← hk]
    exact hlt

/-- The networks have no host bits, and follow one another from the number `lo` up to `hi`. -/
def tiles : ℕ → List (Network w) → ℕ → Bool
  | lo, [], hi => decide (lo = hi)
  | lo, n :: rest, hi =>
      decide (n.ip.toNat = lo) && decide (n.size ∣ lo) && tiles (lo + n.size) rest hi

/-- **Networks without a gap.** -/
theorem among_of_tiles {lo hi : ℕ} (h : tiles lo nets hi = true) (hle : lo ≤ ip.toNat)
    (hlt : ip.toNat < hi) : among nets ip = true := by
  induction nets generalizing lo with
  | nil =>
      have heq : lo = hi := of_decide_eq_true h
      omega
  | cons n rest ih =>
      rw [tiles, Bool.and_eq_true, Bool.and_eq_true, decide_eq_true_eq, decide_eq_true_eq] at h
      obtain ⟨⟨rfl, hstrict⟩, hrest⟩ := h
      rw [among, List.any_cons, Bool.or_eq_true]
      rcases Nat.lt_or_ge ip.toNat (n.ip.toNat + n.size) with hin | hbehind
      · exact .inl (Network.contains_of_lt hstrict hle hin)
      · exact .inr (ih hrest hbehind)

/-! ### Ranges that are set apart -/

/-- The ranges of special addresses. -/
inductive Range
  | loopback
  /-- What the registries of special-purpose addresses have as not globally reachable. -/
  | privateUse
  | uniqueLocal
  | linkLocal
  /-- Deprecated, but not assigned to another use. -/
  | siteLocal
  /-- For carrier-grade NAT. -/
  | sharedSpace
  | multicast
  | reserved
  | unspecified

namespace Range

/-- The networks of IPv4 in a range. -/
def networks4 : Range → List (Network 32)
  | loopback => [net4 127 0 0 0 8]
  | privateUse => private4
  | uniqueLocal => []
  | linkLocal => [net4 169 254 0 0 16]
  | siteLocal => []
  | sharedSpace => [net4 100 64 0 0 10]
  | multicast => [net4 224 0 0 0 4]
  | reserved => [net4 240 0 0 0 4]
  | unspecified => [net4 0 0 0 0 32]

/-- The networks of IPv6 in a range. -/
def networks6 : Range → List (Network 128)
  | loopback => [net6 [0, 0, 0, 0, 0, 0, 0, 1] 128]
  | privateUse => private6
  | uniqueLocal => [net6 [0xfc00] 7]
  | linkLocal => [net6 [0xfe80] 10]
  | siteLocal => [net6 [0xfec0] 10]
  | sharedSpace => []
  | multicast => [net6 [0xff00] 8]
  | reserved => reserved6
  | unspecified => [net6 [] 128]

/-- The networks of IPv4 that are taken out of a range again. -/
def exceptions4 : Range → List (Network 32)
  | privateUse => privateExceptions4
  | _ => []

/-- The networks of IPv6 that are taken out of a range again. -/
def exceptions6 : Range → List (Network 128)
  | privateUse => privateExceptions6
  | _ => []

/-- The address is in the range. The mapped form of an IPv4 address is where that address is. -/
def contains (range : Range) : Address → Bool :=
  judged (fun ip => among range.networks4 ip && !among range.exceptions4 ip)
    (fun ip => among range.networks6 ip && !among range.exceptions6 ip)

end Range

/-- `is_global`: an address that is neither private nor in the space that carriers share. -/
def Address.is_global (address : Address) : Bool :=
  judged (fun ip => !(net4 100 64 0 0 10).contains ip) (fun _ => true) address &&
    !address.is_private

/-- The IPv4 addresses for single hosts: the classes A, B and C. -/
def unicast4 : List (Network 32) := [net4 0 0 0 0 1, net4 128 0 0 0 2, net4 192 0 0 0 3]

/-- The block of IPv6 that global unicast addresses are assigned from. -/
def unicast6 : List (Network 128) := [net6 [0x2000] 3]

/-- The address is in a block for unicast. -/
def isUnicast : Address → Bool := judged (among unicast4) (among unicast6)

/-- A globally routable unicast address. -/
def globalUnicast (ip : Address) : Bool := isUnicast ip && ip.is_global

/-- An address is judged as an IPv4 address or as an IPv6 address. -/
theorem judged_cases (address : Address) :
    (∃ ip, ∀ p4 p6, judged p4 p6 address = p4 ip) ∨
      ∃ ip, ∀ p4 p6, judged p4 p6 address = p6 ip := by
  cases address with
  | v4 ip => exact .inl ⟨ip, fun _ _ => rfl⟩
  | v6 ip =>
      cases hmapped : ipv4_mapped ip with
      | some mapped => exact .inl ⟨mapped, fun _ _ => by simp only [judged, hmapped]⟩
      | none => exact .inr ⟨ip, fun _ _ => by simp only [judged, hmapped]⟩

namespace Range

variable {range : Range} {address : Address}

/-- The range of private use is what `is_private` says. -/
theorem contains_privateUse : privateUse.contains address = address.is_private := rfl

/-- The ranges that are private as a whole. -/
def narrow : Range → Bool
  | loopback | uniqueLocal | linkLocal | unspecified => true
  | _ => false

/-- The ranges that lie outside of the blocks for unicast. -/
def foreign : Range → Bool
  | siteLocal | multicast | reserved => true
  | _ => false

/-- A range that is private as a whole is covered by the private networks: a check of the tables,
range by range. -/
theorem narrow_within : range.narrow = true →
    (range.networks4.all fun n => private4.any n.within) = true ∧
      (range.networks6.all fun n => private6.any n.within) = true := by
  cases range <;> decide

/-- And it has no part in the exceptions. -/
theorem narrow_apart : range.narrow = true →
    (range.networks4.all fun n => privateExceptions4.all n.apart) = true ∧
      (range.networks6.all fun n => privateExceptions6.all n.apart) = true := by
  cases range <;> decide

/-- A foreign range has no part in the blocks for unicast. -/
theorem foreign_apart : range.foreign = true →
    (range.networks4.all fun n => unicast4.all n.apart) = true ∧
      (range.networks6.all fun n => unicast6.all n.apart) = true := by
  cases range <;> decide

/-- An address of a range that is private as a whole is private. -/
theorem privateUse_of_narrow (hrange : range.narrow = true)
    (h : range.contains address = true) : privateUse.contains address = true := by
  obtain ⟨hwithin4, hwithin6⟩ := narrow_within hrange
  obtain ⟨hapart4, hapart6⟩ := narrow_apart hrange
  rcases judged_cases address with ⟨ip, heq⟩ | ⟨ip, heq⟩
  · rw [contains, heq, Bool.and_eq_true] at h ⊢
    exact ⟨among_of_within hwithin4 h.1, congrArg not (among_disjoint hapart4 h.1)⟩
  · rw [contains, heq, Bool.and_eq_true] at h ⊢
    exact ⟨among_of_within hwithin6 h.1, congrArg not (among_disjoint hapart6 h.1)⟩

/-- An address of a foreign range is not one for unicast. -/
theorem not_isUnicast_of_foreign (hrange : range.foreign = true)
    (h : range.contains address = true) : isUnicast address = false := by
  obtain ⟨hapart4, hapart6⟩ := foreign_apart hrange
  rcases judged_cases address with ⟨ip, heq⟩ | ⟨ip, heq⟩
  · rw [contains, heq, Bool.and_eq_true] at h
    rw [isUnicast, heq]
    exact among_disjoint hapart4 h.1
  · rw [contains, heq, Bool.and_eq_true] at h
    rw [isUnicast, heq]
    exact among_disjoint hapart6 h.1

/-- No other range reaches into the site-local one. -/
theorem eq_siteLocal (hsite : siteLocal.contains address = true)
    (h : range.contains address = true) : range = siteLocal := by
  have hapart : range ≠ siteLocal →
      (siteLocal.networks6.all fun n => range.networks6.all n.apart) = true := by
    cases range with
    | siteLocal => exact fun hne => absurd rfl hne
    | _ => exact fun _ => by decide
  by_contra hne
  rcases judged_cases address with ⟨ip, heq⟩ | ⟨ip, heq⟩
  · rw [contains, heq] at hsite
    cases hsite
  · rw [contains, heq, Bool.and_eq_true] at hsite h
    exact Bool.eq_false_iff.mp (among_disjoint (hapart hne) hsite.1) h.1

end Range

/-- What is global is neither shared nor private. -/
theorem is_global_eq (address : Address) : address.is_global =
    (!Range.sharedSpace.contains address && !Range.privateUse.contains address) := by
  rw [Address.is_global, Range.contains_privateUse, Range.contains]
  rcases judged_cases address with ⟨ip, heq⟩ | ⟨ip, heq⟩
  · rw [heq, heq]
    simp [Range.networks4, Range.exceptions4, among]
  · rw [heq, heq]
    simp [Range.networks6, Range.exceptions6, among]

/-! ### The blocks of the registries -/

/-- The blocks of the IPv4 address space. -/
def space4 : List (Network 32) := unicast4 ++ [net4 224 0 0 0 4, net4 240 0 0 0 4]

/-- The blocks of the IPv6 address space. -/
def space6 : List (Network 128) :=
  [net6 [] 8, net6 [0x100] 8, net6 [0x200] 7, net6 [0x400] 6, net6 [0x800] 5, net6 [0x1000] 4,
    net6 [0x2000] 3, net6 [0x4000] 3, net6 [0x6000] 3, net6 [0x8000] 3, net6 [0xa000] 3,
    net6 [0xc000] 3, net6 [0xe000] 4, net6 [0xf000] 5, net6 [0xf800] 6, net6 [0xfc00] 7,
    net6 [0xfe00] 9, net6 [0xfe80] 10, net6 [0xfec0] 10, net6 [0xff00] 8]

/-- Every IPv4 address is in one of the blocks of its space, which follow one another without a
gap. -/
theorem among_space4 (ip : BitVec 32) : among space4 ip = true :=
  among_of_tiles (show tiles 0 space4 (2 ^ 32) = true by decide) (Nat.zero_le _) ip.isLt

/-- And so is every IPv6 address. -/
theorem among_space6 (ip : BitVec 128) : among space6 ip = true :=
  among_of_tiles (show tiles 0 space6 (2 ^ 128) = true by decide) (Nat.zero_le _) ip.isLt

/-- The ranges that a block outside of unicast belongs to. -/
def blocks : List Range := [.uniqueLocal, .linkLocal, .siteLocal, .multicast, .reserved]

/-- An address among networks and ranges is among the former or in one of the latter. -/
theorem among_append_flatMap {ranges : List Range} {f : Range → List (Network w)}
    (h : among (nets ++ ranges.flatMap f) ip = true) :
    among nets ip = true ∨ ∃ range ∈ ranges, among (f range) ip = true := by
  obtain ⟨n, hn, hip⟩ := among_eq_true.mp h
  rcases List.mem_append.mp hn with hn | hn
  · exact .inl (among_eq_true.mpr ⟨n, hn, hip⟩)
  · obtain ⟨range, hrange, hn⟩ := List.mem_flatMap.mp hn
    exact .inr ⟨range, hrange, among_eq_true.mpr ⟨n, hn, hip⟩⟩

/-- The ranges outside of unicast have no exceptions. -/
theorem exceptions_of_mem_blocks {range : Range} (h : range ∈ blocks) :
    range.exceptions4 = [] ∧ range.exceptions6 = [] := by
  cases range with
  | privateUse => simp [blocks] at h
  | _ => exact ⟨rfl, rfl⟩

/-- **The address spaces have no gaps**: what is outside of the blocks for unicast is in a range. -/
theorem isUnicast_or_contains (address : Address) :
    isUnicast address = true ∨ ∃ range ∈ blocks, range.contains address = true := by
  rcases judged_cases address with ⟨ip, heq⟩ | ⟨ip, heq⟩
  · have hspace : among (unicast4 ++ blocks.flatMap Range.networks4) ip = true :=
      among_of_within (by decide) (among_space4 ip)
    rw [isUnicast, heq]
    refine (among_append_flatMap hspace).imp_right fun ⟨range, hrange, hip⟩ => ⟨range, hrange, ?_⟩
    rw [Range.contains, heq, hip, (exceptions_of_mem_blocks hrange).1]
    rfl
  · have hspace : among (unicast6 ++ blocks.flatMap Range.networks6) ip = true :=
      among_of_within (by decide) (among_space6 ip)
    rw [isUnicast, heq]
    refine (among_append_flatMap hspace).imp_right fun ⟨range, hrange, hip⟩ => ⟨range, hrange, ?_⟩
    rw [Range.contains, heq, hip, (exceptions_of_mem_blocks hrange).2]
    rfl

/-- **Global unicast is what the ranges leave over.** -/
theorem globalUnicast_iff (address : Address) :
    globalUnicast address = true ↔ ∀ range : Range, range.contains address = false := by
  rw [globalUnicast, is_global_eq, Bool.and_eq_true, Bool.and_eq_true, Bool.not_eq_true',
    Bool.not_eq_true']
  constructor
  · rintro ⟨hunicast, hshared, hprivate⟩ range
    rw [Bool.eq_false_iff]
    intro h
    cases range with
    | loopback | uniqueLocal | linkLocal | unspecified =>
        exact Bool.eq_false_iff.mp hprivate (Range.privateUse_of_narrow rfl h)
    | siteLocal | multicast | reserved =>
        exact Bool.eq_false_iff.mp (Range.not_isUnicast_of_foreign rfl h) hunicast
    | privateUse => exact Bool.eq_false_iff.mp hprivate h
    | sharedSpace => exact Bool.eq_false_iff.mp hshared h
  · intro h
    refine ⟨(isUnicast_or_contains address).resolve_right ?_, h .sharedSpace, h .privateUse⟩
    rintro ⟨range, -, hrange⟩
    exact Bool.eq_false_iff.mp (h range) hrange

end Ipaddress
