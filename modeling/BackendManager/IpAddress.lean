import Mathlib.Data.List.TakeWhile

/-!
# IP Addresses as Text and as Numbers

What a service relies on of Python's `ipaddress`, as of version 3.13: the textual forms of IPv4
and IPv6 addresses that `ip_address` accepts, and the properties of an address by the
registries of special-purpose addresses. An IPv6 address that maps an IPv4 address has the
properties of the latter. Nothing here names a particular program.

The registries are the lists of networks in the source of `ipaddress`, and each property of an
address is membership in one of them, less the exceptions that the later versions have added. A
textual form is read strictly: octets without leading zeros, at most one double colon, a zone
behind a percent sign for IPv6 alone. The last two groups may be written as an IPv4 address.

## Main results

* `chars_of_ip_address`: an accepted text, up to a zone, consists of hexadecimal digits, dots
  and colons.
* `colon_mem_iff`: an IPv6 address is one with colons.
-/

namespace Ipaddress

/-- `IPv4Address` or `IPv6Address`, by the number. -/
inductive Address
  | v4 (ip : BitVec 32)
  | v6 (ip : BitVec 128)
deriving DecidableEq

/-! ### The textual forms -/

/-- `_parse_octet`: at most three decimal digits without a leading zero, up to 255. -/
def octet (text : List Char) : Option ℕ :=
  if text ≠ [] ∧ text.all Char.isDigit ∧ text.length ≤ 3 ∧ (text = ['0'] ∨ text.head? ≠ some '0') ∧
      Nat.ofDigitChars 10 text 0 ≤ 255 then
    some (Nat.ofDigitChars 10 text 0)
  else none

/-- `IPv4Address`: four octets between dots. -/
def IPv4Address (text : List Char) : Option (BitVec 32) :=
  ((text.splitOn '.').mapM octet).bind fun octets =>
    if octets.length = 4 then some (BitVec.ofNat 32 (octets.foldl (256 * · + ·) 0)) else none

/-- A hexadecimal digit. -/
def isHexDigit (c : Char) : Bool :=
  c.isDigit || (decide ('a' ≤ c) && decide (c ≤ 'f')) || (decide ('A' ≤ c) && decide (c ≤ 'F'))

/-- The value of a hexadecimal digit. -/
def hexValue (c : Char) : ℕ :=
  if c.isDigit then c.toNat - 48 else if 'a' ≤ c then c.toNat - 87 else c.toNat - 55

/-- `_parse_hextet`: one to four hexadecimal digits. -/
def hextet (text : List Char) : Option ℕ :=
  if text ≠ [] ∧ text.all isHexDigit ∧ text.length ≤ 4 then
    some (text.foldl (fun n c => 16 * n + hexValue c) 0)
  else none

/-- The parts around the first two colons in a row. -/
def breakDouble : List Char → Option (List Char × List Char)
  | [] => none
  | ':' :: ':' :: rest => some ([], rest)
  | c :: rest => (breakDouble rest).map fun r => (c :: r.1, r.2)

/-- Hextets between colons. -/
def hextets (text : List Char) : Option (List ℕ) := (text.splitOn ':').mapM hextet

/-- The hextets at the end of an address, the last two of which may be in the form of an IPv4
address. -/
def lastHextets (text : List Char) : Option (List ℕ) :=
  match (text.splitOn ':').reverse with
  | last :: front =>
      if '.' ∈ last then
        (IPv4Address last).bind fun ip =>
          (front.reverse.mapM hextet).map fun groups =>
            groups ++ [(ip >>> 16).toNat, ip.toNat % 65536]
      else hextets text
  | [] => none

/-- The eight hextets of an address: two colons in a row, of which there is one pair at most,
stand for at least one zero. -/
def groups (text : List Char) : Option (List ℕ) :=
  match breakDouble text with
  | none => (lastHextets text).filter fun all => all.length = 8
  | some (front, back) =>
      (if front = [] then some [] else hextets front).bind fun hi =>
        (if back = [] then some [] else lastHextets back).bind fun lo =>
          if hi.length + lo.length ≤ 7 then
            some (hi ++ (List.replicate (8 - (hi.length + lo.length)) 0 ++ lo))
          else none

/-- `IPv6Address`: an address, and a zone behind a percent sign. -/
def IPv6Address (text : List Char) : Option (BitVec 128) :=
  let zone := text.dropWhile (· ≠ '%')
  if '/' ∈ text ∨ zone = ['%'] ∨ '%' ∈ zone.tail then none
  else
    (groups (text.takeWhile (· ≠ '%'))).map fun all =>
      BitVec.ofNat 128 (all.foldl (65536 * · + ·) 0)

/-- `ip_address`; `none` is a `ValueError`. -/
def ip_address (text : List Char) : Option Address :=
  match IPv4Address text with
  | some ip => some (.v4 ip)
  | none => (IPv6Address text).map .v6

/-! ### The registries -/

/-- A network: the addresses that begin with the same bits. -/
structure Network (w : ℕ) where
  ip : BitVec w
  prefixlen : ℕ

/-- The address is in the network. -/
def Network.contains {w : ℕ} (n : Network w) (ip : BitVec w) : Bool :=
  ip >>> (w - n.prefixlen) = n.ip >>> (w - n.prefixlen)

/-- An IPv4 network. -/
def net4 (a b c d prefixlen : ℕ) : Network 32 :=
  ⟨BitVec.ofNat 32 ([a, b, c, d].foldl (256 * · + ·) 0), prefixlen⟩

/-- An IPv6 network by its first hextets. -/
def net6 (all : List ℕ) (prefixlen : ℕ) : Network 128 :=
  ⟨BitVec.ofNat 128 ((all ++ List.replicate (8 - all.length) 0).foldl (65536 * · + ·) 0), prefixlen⟩

/-- The IPv4 networks that are not globally reachable. -/
def private4 : List (Network 32) :=
  [net4 0 0 0 0 8, net4 10 0 0 0 8, net4 127 0 0 0 8, net4 169 254 0 0 16, net4 172 16 0 0 12,
    net4 192 0 0 0 24, net4 192 0 0 170 31, net4 192 0 2 0 24, net4 192 168 0 0 16,
    net4 198 18 0 0 15, net4 198 51 100 0 24, net4 203 0 113 0 24, net4 240 0 0 0 4,
    net4 255 255 255 255 32]

/-- The exceptions among them. -/
def privateExceptions4 : List (Network 32) := [net4 192 0 0 9 32, net4 192 0 0 10 32]

/-- The IPv6 networks that are not globally reachable. -/
def private6 : List (Network 128) :=
  [net6 [0, 0, 0, 0, 0, 0, 0, 1] 128, net6 [] 128, net6 [0, 0, 0, 0, 0, 0xffff] 96,
    net6 [0x64, 0xff9b, 1] 48, net6 [0x100] 64, net6 [0x2001] 23, net6 [0x2001, 0xdb8] 32,
    net6 [0x2002] 16, net6 [0x3fff] 20, net6 [0xfc00] 7, net6 [0xfe80] 10]

/-- The exceptions among them. -/
def privateExceptions6 : List (Network 128) :=
  [net6 [0x2001, 1, 0, 0, 0, 0, 0, 1] 128, net6 [0x2001, 1, 0, 0, 0, 0, 0, 2] 128,
    net6 [0x2001, 3] 32, net6 [0x2001, 4, 0x112] 48, net6 [0x2001, 0x20] 28,
    net6 [0x2001, 0x30] 28]

/-- The IPv6 networks that are reserved. -/
def reserved6 : List (Network 128) :=
  [net6 [] 8, net6 [0x100] 8, net6 [0x200] 7, net6 [0x400] 6, net6 [0x800] 5, net6 [0x1000] 4,
    net6 [0x4000] 3, net6 [0x6000] 3, net6 [0x8000] 3, net6 [0xa000] 3, net6 [0xc000] 3,
    net6 [0xe000] 4, net6 [0xf000] 5, net6 [0xf800] 6, net6 [0xfe00] 9]

/-- `ipv4_mapped`. -/
def ipv4_mapped (ip : BitVec 128) : Option (BitVec 32) :=
  if ip >>> 32 = 0xffff then some (ip.setWidth 32) else none

/-- A property of an address, which an IPv6 address has from the IPv4 address that it maps. -/
def judged (p4 : BitVec 32 → Bool) (p6 : BitVec 128 → Bool) : Address → Bool
  | .v4 ip => p4 ip
  | .v6 ip =>
      match ipv4_mapped ip with
      | some mapped => p4 mapped
      | none => p6 ip

/-- Being in one of these networks. -/
def among {w : ℕ} (networks : List (Network w)) (ip : BitVec w) : Bool :=
  networks.any (·.contains ip)

namespace Address

/-- `is_private`. -/
def is_private : Address → Bool :=
  judged (fun ip => among private4 ip && !among privateExceptions4 ip)
    (fun ip => among private6 ip && !among privateExceptions6 ip)

/-- `is_loopback`. -/
def is_loopback : Address → Bool := judged (net4 127 0 0 0 8).contains (· = 1)

/-- `is_link_local`. -/
def is_link_local : Address → Bool :=
  judged (net4 169 254 0 0 16).contains (net6 [0xfe80] 10).contains

/-- `is_reserved`. -/
def is_reserved : Address → Bool := judged (net4 240 0 0 0 4).contains (among reserved6)

/-- `is_multicast`. -/
def is_multicast : Address → Bool := judged (net4 224 0 0 0 4).contains (net6 [0xff00] 8).contains

/-- `is_unspecified`. -/
def is_unspecified : Address → Bool := judged (· = 0) (· = 0)

end Address

/-! ### The characters of an address -/

/-- A character that an address may contain. -/
def isAddressChar (c : Char) : Bool := isHexDigit c || c = '.' || c = ':'

/-- A list that is parsed has each of its elements parsed. -/
theorem forall_of_mapM {α β : Type} {f : α → Option β} {xs : List α} {ys : List β}
    (h : xs.mapM f = some ys) : ∀ x ∈ xs, ∃ y, f x = some y := by
  induction xs generalizing ys with
  | nil => exact fun x hx => nomatch hx
  | cons a xs ih =>
      simp only [List.mapM_cons, Option.pure_def, Option.bind_eq_bind] at h
      obtain ⟨y, hy, h⟩ := Option.bind_eq_some_iff.mp h
      obtain ⟨ys', hys', -⟩ := Option.bind_eq_some_iff.mp h
      intro x hx
      rcases List.mem_cons.mp hx with rfl | hx
      · exact ⟨y, hy⟩
      · exact ih hys' x hx

/-- A character of a text is the separator, or in one of the parts. -/
theorem mem_splitOn (sep : Char) {c : Char} {text : List Char} (h : c ∈ text) :
    c = sep ∨ ∃ part ∈ text.splitOn sep, c ∈ part := by
  have hjoin : ∀ parts : List (List Char), c ∈ [sep].intercalate parts →
      c = sep ∨ ∃ part ∈ parts, c ∈ part := by
    intro parts
    induction parts with
    | nil => exact fun h => nomatch h
    | cons part parts ih =>
        intro h
        cases parts with
        | nil =>
            rw [List.intercalate_singleton] at h
            exact .inr ⟨part, List.mem_cons_self, h⟩
        | cons part' parts =>
            rw [List.intercalate_cons_cons, List.mem_append, List.mem_append] at h
            rcases h with (h | h) | h
            · exact .inr ⟨part, List.mem_cons_self, h⟩
            · exact .inl (List.mem_singleton.mp h)
            · rcases ih h with h | ⟨part₀, hpart₀, h⟩
              · exact .inl h
              · exact .inr ⟨part₀, List.mem_cons_of_mem _ hpart₀, h⟩
  exact hjoin _ (by rwa [List.intercalate_splitOn])

/-- A text between separators has the characters of its parts. -/
theorem forall_of_splitOn {P : Char → Prop} (sep : Char) {text : List Char} (hsep : P sep)
    (hparts : ∀ part ∈ text.splitOn sep, ∀ c ∈ part, P c) : ∀ c ∈ text, P c := by
  intro c hc
  rcases mem_splitOn sep hc with rfl | ⟨part, hpart, hc⟩
  · exact hsep
  · exact hparts part hpart c hc

/-- An octet is digits. -/
theorem chars_of_octet {text : List Char} {n : ℕ} (h : octet text = some n) :
    ∀ c ∈ text, c.isDigit = true := by
  rw [octet, Option.ite_none_right_eq_some] at h
  exact List.all_eq_true.mp h.1.2.1

/-- An IPv4 address is digits and points. -/
theorem chars_of_IPv4Address {text : List Char} {ip : BitVec 32}
    (h : IPv4Address text = some ip) : ∀ c ∈ text, c = '.' ∨ c.isDigit = true := by
  obtain ⟨octets, hoctets, -⟩ := Option.bind_eq_some_iff.mp h
  refine forall_of_splitOn '.' (.inl rfl) fun part hpart c hc => ?_
  obtain ⟨n, hn⟩ := forall_of_mapM hoctets part hpart
  exact .inr (chars_of_octet hn c hc)

/-- The characters of the IPv4 form are among those of an address. -/
theorem isAddressChar_of_IPv4Address {text : List Char} {ip : BitVec 32}
    (h : IPv4Address text = some ip) : ∀ c ∈ text, isAddressChar c = true := by
  intro c hc
  rcases chars_of_IPv4Address h c hc with rfl | hdigit
  · decide
  · simp [isAddressChar, isHexDigit, hdigit]

/-- A group of an IPv6 address is hexadecimal digits. -/
theorem chars_of_hextet {text : List Char} {n : ℕ} (h : hextet text = some n) :
    ∀ c ∈ text, isAddressChar c = true := by
  intro c hc
  rw [hextet, Option.ite_none_right_eq_some] at h
  have hdigit : isHexDigit c = true := List.all_eq_true.mp h.1.2.1 c hc
  simp [isAddressChar, hdigit]

/-- And so are several, with colons. -/
theorem chars_of_hextets {text : List Char} {all : List ℕ} (h : hextets text = some all) :
    ∀ c ∈ text, isAddressChar c = true := by
  refine forall_of_splitOn ':' (by decide) fun part hpart => ?_
  obtain ⟨n, hn⟩ := forall_of_mapM h part hpart
  exact chars_of_hextet hn

/-- The last groups may be written as an IPv4 address. -/
theorem chars_of_lastHextets {text : List Char} {all : List ℕ}
    (h : lastHextets text = some all) : ∀ c ∈ text, isAddressChar c = true := by
  rw [lastHextets] at h
  split at h
  · rename_i last front hsplit
    split at h
    · obtain ⟨ip, hip, h⟩ := Option.bind_eq_some_iff.mp h
      obtain ⟨groups, hgroups, -⟩ := Option.map_eq_some_iff.mp h
      refine forall_of_splitOn ':' (by decide) fun part hpart => ?_
      rw [← List.mem_reverse, hsplit] at hpart
      rcases List.mem_cons.mp hpart with rfl | hpart
      · exact isAddressChar_of_IPv4Address hip
      · obtain ⟨n, hn⟩ := forall_of_mapM hgroups part (List.mem_reverse.mpr hpart)
        exact chars_of_hextet hn
    · exact chars_of_hextets h
  · cases h

/-- A text is broken at a double colon. -/
theorem eq_of_breakDouble {text front back : List Char}
    (h : breakDouble text = some (front, back)) : text = front ++ ':' :: ':' :: back := by
  induction text using breakDouble.induct generalizing front with
  | case1 => cases h
  | case2 rest =>
      simp only [breakDouble, Option.some.injEq, Prod.mk.injEq] at h
      obtain ⟨rfl, rfl⟩ := h
      rfl
  | case3 c rest hne ih =>
      rw [breakDouble.eq_3 c rest hne] at h
      obtain ⟨⟨front', back'⟩, hrest, h⟩ := Option.map_eq_some_iff.mp h
      simp only [Prod.mk.injEq] at h
      obtain ⟨rfl, rfl⟩ := h
      rw [List.cons_append, ← ih hrest]

/-- The groups of an IPv6 address have no other characters than an address may have. -/
theorem chars_of_groups {text : List Char} {all : List ℕ} (h : groups text = some all) :
    ∀ c ∈ text, isAddressChar c = true := by
  rw [groups] at h
  split at h
  · exact chars_of_lastHextets (Option.filter_eq_some_iff.mp h).1
  · rename_i front back hbreak
    obtain ⟨hi, hhi, h⟩ := Option.bind_eq_some_iff.mp h
    obtain ⟨lo, hlo, -⟩ := Option.bind_eq_some_iff.mp h
    intro c hc
    rw [eq_of_breakDouble hbreak] at hc
    rcases List.mem_append.mp hc with hc | hc
    · split at hhi
      · simp_all
      · exact chars_of_hextets hhi c hc
    · rcases List.mem_cons.mp hc with rfl | hc
      · decide
      · rcases List.mem_cons.mp hc with rfl | hc
        · decide
        · split at hlo
          · simp_all
          · exact chars_of_lastHextets hlo c hc

/-- An address without a zone is all hextets. -/
theorem groups_of_IPv6Address {text : List Char} {ip : BitVec 128}
    (h : IPv6Address text = some ip) (hzone : '%' ∉ text) : ∃ all, groups text = some all := by
  rw [IPv6Address] at h
  split at h
  · cases h
  · have hself : text.takeWhile (· ≠ '%') = text := by
      rw [List.takeWhile_eq_self_iff]
      intro c hc
      exact decide_eq_true fun heq => hzone (heq ▸ hc)
    obtain ⟨all, hall, -⟩ := Option.map_eq_some_iff.mp h
    rw [hself] at hall
    exact ⟨all, hall⟩

/-- **The characters of an address.** -/
theorem chars_of_ip_address {text : List Char} {address : Address}
    (h : ip_address text = some address) (hzone : '%' ∉ text) :
    ∀ c ∈ text, isAddressChar c = true := by
  rw [ip_address] at h
  split at h
  · rename_i ip hip
    exact isAddressChar_of_IPv4Address hip
  · obtain ⟨ip, hip, -⟩ := Option.map_eq_some_iff.mp h
    obtain ⟨all, hall⟩ := groups_of_IPv6Address hip hzone
    exact chars_of_groups hall

/-! ### The form of an address -/

/-- Eight hextets have colons between them. -/
theorem colon_mem_of_groups {text : List Char} {all : List ℕ} (h : groups text = some all) :
    ':' ∈ text := by
  by_contra hcolon
  rw [groups] at h
  split at h
  · obtain ⟨hlast, hlength⟩ := Option.filter_eq_some_iff.mp h
    have hall : all.length = 8 := of_decide_eq_true hlength
    rw [lastHextets, hextets, List.splitOn_eq_singleton hcolon] at hlast
    simp only [List.reverse_singleton, List.reverse_nil, List.mapM_nil, List.mapM_cons] at hlast
    -- without a colon there are two hextets from an IPv4 form, or one
    split at hlast
    · obtain ⟨ip, -, hlast⟩ := Option.bind_eq_some_iff.mp hlast
      obtain ⟨front, hfront, rfl⟩ := Option.map_eq_some_iff.mp hlast
      obtain rfl := Option.some.inj hfront
      simp at hall
    · obtain ⟨n, -, hlast⟩ := Option.bind_eq_some_iff.mp hlast
      obtain rfl := Option.some.inj hlast
      simp at hall
  · rename_i front back hbreak
    exact hcolon (by simp [eq_of_breakDouble hbreak])

/-- **Colons tell the two forms apart.** -/
theorem colon_mem_iff {text : List Char} {address : Address}
    (h : ip_address text = some address) (hzone : '%' ∉ text) :
    ':' ∈ text ↔ ∃ ip, address = .v6 ip := by
  rw [ip_address] at h
  split at h
  · rename_i ip hip
    obtain rfl := Option.some.inj h
    refine iff_of_false (fun hcolon => ?_) (fun ⟨_, heq⟩ => by cases heq)
    rcases chars_of_IPv4Address hip ':' hcolon with heq | hdigit
    · cases heq
    · cases hdigit
  · obtain ⟨ip, hip, rfl⟩ := Option.map_eq_some_iff.mp h
    obtain ⟨all, hall⟩ := groups_of_IPv6Address hip hzone
    exact iff_of_true (colon_mem_of_groups hall) ⟨ip, rfl⟩

end Ipaddress
