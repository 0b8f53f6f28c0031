import BackendManager.Text
import BackendManager.Uuid
import Mathlib.Tactic.IntervalCases
import Mathlib.Tactic.NormNum

/-!
# The Tenant of an Org-Scoped Path

The model of `app/tenancy/rls.py` and of `_apply_tenant_context` in `app/db/session.py`. The
path of a request to `/orgs/{org_id}/...` is read twice: the router converts the segment
`org_id` to a UUID for the handler, and the middleware matches the path with a regular
expression to find the tenant under which the database shows rows.

The converter of the router is a parameter. `AcceptsUuids` says which spellings it takes: 32
hexadecimal digits in either case, with or without hyphens, and the hyphenated form in
braces or after `urn:uuid:`.

## Main results

* `ORG_PATH_eq_some`, `ORG_PATH_hyphenated`: the regular expression matches the hyphenated
  spelling and no other.
* `tenant_iff_hyphenated`: the handler's queries run under the tenant that the router found
  exactly if the segment is hyphenated.
* `plain_digits_without_tenant`: a path whose segment has no hyphens reaches the handler
  and leaves the database without a tenant.
-/

namespace BackendManager.Tenancy

open Text

/-! ### Spellings of a UUID -/

/-- `[0-9a-fA-F]`. -/
def isHex (c : Char) : Bool :=
  '0' ≤ c ∧ c ≤ '9' ∨ 'a' ≤ c ∧ c ≤ 'f' ∨ 'A' ≤ c ∧ c ≤ 'F'

/-- The value of a hexadecimal digit. -/
def hexValue (c : Char) : ℕ :=
  if c ≤ '9' then c.toNat - 48 else if 'a' ≤ c then c.toNat - 87 else c.toNat - 55

/-- `int(text, 16)` on hexadecimal digits. -/
def int16 (text : List Char) : ℕ := text.foldl (fun n c => 16 * n + hexValue c) 0

/-- 32 hexadecimal digits. -/
structure Digits where
  chars : List Char
  length : chars.length = 32
  hex : chars.all isHex = true

namespace Digits

/-- The UUID that the digits are a text of. -/
def uuid (d : Digits) : Uuid := .ofNat (int16 d.chars)

/-- The digits in groups of 8-4-4-4-12, separated by hyphens. -/
def hyphenated (d : Digits) : List Char :=
  d.chars.take 8 ++ '-' :: ((d.chars.drop 8).take 4 ++ '-' :: ((d.chars.drop 12).take 4 ++
    '-' :: ((d.chars.drop 16).take 4 ++ '-' :: d.chars.drop 20)))

/-- The spellings that a UUID path parameter is accepted in. -/
def spellings (d : Digits) : List (List Char) :=
  [d.chars, d.hyphenated, '{' :: (d.hyphenated ++ ['}']), "urn:uuid:".toList ++ d.hyphenated]

end Digits

/-- Assumed of the router's converter: it accepts the spellings of a UUID and nothing
else. -/
def AcceptsUuids (parse : List Char → Option Uuid) : Prop :=
  ∀ s u, parse s = some u ↔ ∃ d : Digits, s ∈ d.spellings ∧ d.uuid = u

/-! ### `rls.py` -/

/-- A literal of the regular expression: the text after it. -/
def literal (l s : List Char) : Option (List Char) :=
  if l.isPrefixOf s then some (s.drop l.length) else none

/-- `[0-9a-fA-F]{n}`: the digits and the text after them. -/
def hexRun (n : ℕ) (s : List Char) : Option (List Char × List Char) :=
  if (s.take n).length = n ∧ (s.take n).all isHex then some (s.take n, s.drop n) else none

/-- `(?:/|$)`; `$` also matches before a line feed that ends the text. -/
def slashOrEnd (s : List Char) : Bool := s = [] ∨ s = ['\n'] ∨ s.head? = some '/'

/-- `_ORG_PATH.match(path).group(1)`. -/
def ORG_PATH (path : List Char) : Option (List Char) := do
  let s ← literal "/orgs/".toList path
  let (g₁, s) ← hexRun 8 s
  let s ← literal ['-'] s
  let (g₂, s) ← hexRun 4 s
  let s ← literal ['-'] s
  let (g₃, s) ← hexRun 4 s
  let s ← literal ['-'] s
  let (g₄, s) ← hexRun 4 s
  let s ← literal ['-'] s
  let (g₅, s) ← hexRun 12 s
  if slashOrEnd s then some (g₁ ++ '-' :: (g₂ ++ '-' :: (g₃ ++ '-' :: (g₄ ++ '-' :: g₅))))
  else none

/-- `uuid.UUID(hex)` on a text without braces and prefixes: hyphens are dropped, and 32
digits have to be left; `none` is a `ValueError`. -/
def UUID (hex : List Char) : Option Uuid :=
  let hex := hex.filter (· ≠ '-')
  if hex.length = 32 ∧ hex.all isHex then some (.ofNat (int16 hex)) else none

/-- `current_tenant_id` while the application handles a request. -/
def current_tenant_id (type path : String) : Option String :=
  if type ≠ "http" then none
  else (ORG_PATH path.toList).bind fun group => (UUID group).map Uuid.str

/-! ### `session.py` -/

/-- `session.info["rls_mode"]`. -/
inductive RlsMode
  | tenant
  | bypass
deriving DecidableEq

/-- `_apply_tenant_context`: what `app.current_tenant` is set to at the start of a
transaction, if it is set. -/
def apply_tenant_context (dialect : String) (mode : Option RlsMode) (tenant : Option String) :
    Option String :=
  if dialect ≠ "postgresql" then none
  else mode.map fun
    | .bypass => ""
    | .tenant => tenant.getD ""

/-! ### What the regular expression matches -/

/-- A literal is matched where it stands. -/
theorem literal_append (l s : List Char) : literal l (l ++ s) = some s := by
  have hprefix : l.isPrefixOf (l ++ s) = true := List.isPrefixOf_iff_prefix.mpr ⟨s, rfl⟩
  rw [literal, if_pos hprefix, List.drop_left]

/-- And only there. -/
theorem literal_eq_some {l s r : List Char} (h : literal l s = some r) : s = l ++ r := by
  rw [literal] at h
  split at h
  · rename_i hprefix
    obtain ⟨t, rfl⟩ := List.isPrefixOf_iff_prefix.mp hprefix
    rw [List.drop_left] at h
    rw [Option.some.inj h]
  · cases h

/-- A run of hexadecimal digits is matched where one of its length stands. -/
theorem hexRun_append {n : ℕ} {g : List Char} (hlen : g.length = n) (hhex : g.all isHex = true)
    (s : List Char) : hexRun n (g ++ s) = some (g, s) := by
  have htake : (g ++ s).take n = g := by rw [← hlen, List.take_left]
  have hdrop : (g ++ s).drop n = s := by rw [← hlen, List.drop_left]
  rw [hexRun, htake, hdrop, if_pos ⟨hlen, hhex⟩]

/-- And only there: what is matched is a run of that length. -/
theorem hexRun_eq_some {n : ℕ} {s g r : List Char} (h : hexRun n s = some (g, r)) :
    s = g ++ r ∧ g.length = n ∧ g.all isHex = true := by
  rw [hexRun] at h
  split at h
  · rename_i hg
    obtain ⟨rfl, rfl⟩ := Prod.mk.inj (Option.some.inj h)
    exact ⟨(List.take_append_drop n s).symm, hg⟩
  · cases h

/-- Groups of the right lengths are a hyphenated UUID. -/
theorem exists_hyphenated {g₁ g₂ g₃ g₄ g₅ : List Char} (h₁ : g₁.length = 8 ∧ g₁.all isHex = true)
    (h₂ : g₂.length = 4 ∧ g₂.all isHex = true) (h₃ : g₃.length = 4 ∧ g₃.all isHex = true)
    (h₄ : g₄.length = 4 ∧ g₄.all isHex = true) (h₅ : g₅.length = 12 ∧ g₅.all isHex = true) :
    ∃ d : Digits,
      g₁ ++ '-' :: (g₂ ++ '-' :: (g₃ ++ '-' :: (g₄ ++ '-' :: g₅))) = d.hyphenated := by
  refine ⟨⟨g₁ ++ (g₂ ++ (g₃ ++ (g₄ ++ g₅))), ?_, ?_⟩, ?_⟩
  · simp only [List.length_append]
    omega
  · simp only [List.all_append, h₁.2, h₂.2, h₃.2, h₄.2, h₅.2, Bool.and_self]
  · simp [Digits.hyphenated, List.drop_append, h₁.1, h₂.1, h₃.1, h₄.1,
      List.drop_eq_nil_of_le]

/-- **The regular expression matches hyphenated spellings only.** -/
theorem ORG_PATH_eq_some {path g : List Char} (h : ORG_PATH path = some g) :
    (∃ d : Digits, g = d.hyphenated) ∧
      ∃ s, slashOrEnd s = true ∧ path = "/orgs/".toList ++ (g ++ s) := by
  simp only [ORG_PATH, Option.bind_eq_bind, Option.bind_eq_some_iff, Prod.exists] at h
  obtain ⟨s₀, h₀, g₁, s₁, h₁, t₁, e₁, g₂, s₂, h₂, t₂, e₂, g₃, s₃, h₃, t₃, e₃, g₄, s₄, h₄, t₄,
    e₄, g₅, s₅, h₅, h⟩ := h
  obtain ⟨rfl, hg₁⟩ := hexRun_eq_some h₁
  obtain ⟨rfl, hg₂⟩ := hexRun_eq_some h₂
  obtain ⟨rfl, hg₃⟩ := hexRun_eq_some h₃
  obtain ⟨rfl, hg₄⟩ := hexRun_eq_some h₄
  obtain ⟨rfl, hg₅⟩ := hexRun_eq_some h₅
  split at h
  · rename_i hend
    obtain rfl := Option.some.inj h
    obtain ⟨d, hd⟩ := exists_hyphenated hg₁ hg₂ hg₃ hg₄ hg₅
    refine ⟨⟨d, hd⟩, s₅, hend, ?_⟩
    rw [literal_eq_some h₀, literal_eq_some e₁, literal_eq_some e₂, literal_eq_some e₃,
      literal_eq_some e₄]
    simp
  · cases h

/-- Each group of the digits consists of digits. -/
theorem Digits.hex_take (d : Digits) (m n : ℕ) : ((d.chars.drop m).take n).all isHex = true := by
  rw [List.all_eq_true]
  intro c hc
  exact List.all_eq_true.mp d.hex c (List.mem_of_mem_drop (List.mem_of_mem_take hc))

/-- **It matches every hyphenated spelling** that the path or a slash ends. -/
theorem ORG_PATH_hyphenated (d : Digits) {s : List Char} (hs : slashOrEnd s = true) :
    ORG_PATH ("/orgs/".toList ++ (d.hyphenated ++ s)) = some d.hyphenated := by
  have hlen := d.length
  have h₁ := fun s => hexRun_append (n := 8) (by simp [hlen]) (d.hex_take 0 8) s
  have h₂ := fun s => hexRun_append (n := 4) (by simp [hlen]) (d.hex_take 8 4) s
  have h₃ := fun s => hexRun_append (n := 4) (by simp [hlen]) (d.hex_take 12 4) s
  have h₄ := fun s => hexRun_append (n := 4) (by simp [hlen]) (d.hex_take 16 4) s
  have h₅ := fun s => hexRun_append (n := 12) (by simp [hlen]) (d.hex_take 20 12) s
  have htail : (d.chars.drop 20).take 12 = d.chars.drop 20 :=
    List.take_of_length_le (by simp [hlen])
  have hdash : ∀ r : List Char, literal ['-'] ('-' :: r) = some r := literal_append ['-']
  rw [htail] at h₅
  rw [List.drop_zero] at h₁
  simp only [ORG_PATH, Option.bind_eq_bind, literal_append, Option.bind_some, Digits.hyphenated,
    List.append_assoc, List.cons_append, h₁, h₂, h₃, h₄, h₅, hdash, hs, if_true]

/-! ### What the middleware makes of the match -/

/-- No digit is a hyphen. -/
theorem ne_dash_of_isHex {c : Char} (h : isHex c = true) : c ≠ '-' := by
  rintro rfl
  exact absurd h (by decide)

/-- Dropping hyphens drops none of the digits. -/
theorem filter_ne_dash {l : List Char} (h : l.all isHex = true) : l.filter (· ≠ '-') = l := by
  rw [List.filter_eq_self]
  intro c hc
  exact decide_eq_true (ne_dash_of_isHex (List.all_eq_true.mp h c hc))

/-- Without its hyphens a hyphenated UUID is its digits. -/
theorem Digits.filter_hyphenated (d : Digits) : d.hyphenated.filter (· ≠ '-') = d.chars := by
  have htail : (d.chars.drop 20).take 12 = d.chars.drop 20 :=
    List.take_of_length_le (by simp [d.length])
  have h₁ := d.hex_take 0 8
  have h₅ := d.hex_take 20 12
  rw [List.drop_zero] at h₁
  rw [htail] at h₅
  have hjoin : d.chars = d.chars.take 8 ++ ((d.chars.drop 8).take 4 ++ ((d.chars.drop 12).take 4 ++
      ((d.chars.drop 16).take 4 ++ d.chars.drop 20))) := by
    have hnext : ∀ m n : ℕ, (d.chars.drop m).take n ++ d.chars.drop (m + n) = d.chars.drop m := by
      intro m n
      rw [← List.drop_drop]
      exact List.take_append_drop n (d.chars.drop m)
    rw [hnext 16 4, hnext 12 4, hnext 8 4, List.take_append_drop]
  have hdash : ∀ l : List Char, ('-' :: l).filter (· ≠ '-') = l.filter (· ≠ '-') :=
    fun l => List.filter_cons_of_neg (by simp)
  rw [Digits.hyphenated, List.filter_append, hdash, List.filter_append, hdash,
    List.filter_append, hdash, List.filter_append, hdash, filter_ne_dash h₁,
    filter_ne_dash (d.hex_take 8 4), filter_ne_dash (d.hex_take 12 4),
    filter_ne_dash (d.hex_take 16 4), filter_ne_dash h₅]
  exact hjoin.symm

/-- The hyphenated spelling is read as the UUID of its digits. -/
theorem UUID_hyphenated (d : Digits) : UUID d.hyphenated = some d.uuid := by
  rw [UUID, d.filter_hyphenated, if_pos ⟨d.length, d.hex⟩, Digits.uuid]

/-! ### The canonical text -/

/-- The digits that are written are hexadecimal digits. -/
theorem isHex_digitChar {n : ℕ} (h : n < 16) : isHex n.digitChar = true := by
  interval_cases n <;> decide

/-- And they are read as what was written. -/
theorem hexValue_digitChar {n : ℕ} (h : n < 16) : hexValue n.digitChar = n := by
  interval_cases n <;> decide

/-- A number is written in hexadecimal digits only. -/
theorem all_isHex_hexDigits (w n : ℕ) : (Uuid.hexDigits w n).all isHex = true := by
  induction w generalizing n with
  | zero => rfl
  | succ w ih =>
      rw [Uuid.hexDigits, List.all_append, ih, List.all_cons, List.all_nil,
        isHex_digitChar (Nat.mod_lt n (by decide))]
      rfl

/-- The value of the digits of a number. -/
theorem int16_hexDigits (w n : ℕ) : int16 (Uuid.hexDigits w n) = n % 16 ^ w := by
  induction w generalizing n with
  | zero => rw [pow_zero, Nat.mod_one]; rfl
  | succ w ih =>
      have hlast : int16 (Uuid.hexDigits (w + 1) n) =
          16 * int16 (Uuid.hexDigits w (n / 16)) + hexValue (n % 16).digitChar := by
        rw [int16, Uuid.hexDigits, List.foldl_append]
        rfl
      rw [hlast, ih, hexValue_digitChar (Nat.mod_lt n (by decide)), pow_succ', Nat.mod_mul,
        Nat.add_comm]

/-- The 32 digits of a UUID are read as its number. -/
theorem int16_hex (u : Uuid) : int16 u.hex = u.int := by
  have hwidth : 16 ^ 32 = 2 ^ 128 := by norm_num
  rw [Uuid.hex, int16_hexDigits, hwidth, Nat.mod_eq_of_lt u.int.isLt]

/-- The digits of the canonical text of a UUID. -/
def digitsOf (u : Uuid) : Digits := ⟨u.hex, Uuid.length_hexDigits 32 _, all_isHex_hexDigits 32 _⟩

/-- A UUID is that of its own digits. -/
theorem uuid_digitsOf (u : Uuid) : (digitsOf u).uuid = u := by
  have hchars : (digitsOf u).chars = u.hex := rfl
  rw [Digits.uuid, hchars, int16_hex, Uuid.ofNat_int]

/-- `str(uuid)` is the hyphenated spelling of its digits. -/
theorem toList_str (u : Uuid) : u.str.toList = (digitsOf u).hyphenated := String.toList_ofList

/-- **The canonical text is read as the UUID that it was written for.** -/
theorem UUID_str (u : Uuid) : UUID u.str.toList = some u := by
  rw [toList_str, UUID_hyphenated, uuid_digitsOf]

/-- Different UUIDs have different texts. -/
theorem str_injective : Function.Injective Uuid.str := by
  intro u v h
  have hread := UUID_str u
  rw [h, UUID_str] at hread
  exact (Option.some.inj hread).symm

/-- A hyphenated segment sets the tenant. -/
theorem current_tenant_id_hyphenated (d : Digits) (rest : List Char) :
    current_tenant_id "http" (String.ofList ("/orgs/".toList ++ (d.hyphenated ++ '/' :: rest))) =
      some d.uuid.str := by
  have hmatch : ORG_PATH ("/orgs/".toList ++ (d.hyphenated ++ '/' :: rest)) = some d.hyphenated :=
    ORG_PATH_hyphenated d (by simp [slashOrEnd])
  simp only [current_tenant_id, ne_eq, not_true_eq_false, if_false, String.toList_ofList, hmatch,
    Option.bind_some, UUID_hyphenated, Option.map_some]

/-- A spelling is one segment of a path. -/
theorem Digits.slash_notMem_hyphenated (d : Digits) : '/' ∉ d.hyphenated := by
  intro hmem
  have hfilter : '/' ∈ d.hyphenated.filter (· ≠ '-') := List.mem_filter.mpr ⟨hmem, by decide⟩
  rw [d.filter_hyphenated] at hfilter
  exact absurd (List.all_eq_true.mp d.hex _ hfilter) (by decide)

/-- Any other segment leaves the request without one. -/
theorem current_tenant_id_of_not_hyphenated {segment rest : List Char} (hseg : '/' ∉ segment)
    (h : ¬ ∃ d : Digits, segment = d.hyphenated) :
    current_tenant_id "http" (String.ofList ("/orgs/".toList ++ (segment ++ '/' :: rest))) =
      none := by
  have hnone : ORG_PATH ("/orgs/".toList ++ (segment ++ '/' :: rest)) = none := by
    by_contra hsome
    obtain ⟨g, hg⟩ := Option.ne_none_iff_exists'.mp hsome
    obtain ⟨⟨d, rfl⟩, s, hend, hpath⟩ := ORG_PATH_eq_some hg
    have htail : segment ++ '/' :: rest = d.hyphenated ++ s := List.append_cancel_left hpath
    have hslash : '/' ∈ s := by
      have hmem : '/' ∈ d.hyphenated ++ s := htail ▸ by simp
      exact (List.mem_append.mp hmem).resolve_left d.slash_notMem_hyphenated
    cases s with
    | nil => cases hslash
    | cons c s =>
        have hc : c = '/' := by
          by_contra hc
          have hs : c = '\n' ∧ s = [] := by simpa [slashOrEnd, hc] using hend
          rw [hs.1, hs.2] at hslash
          exact absurd hslash (by decide)
        subst hc
        exact h ⟨d, (append_cons_inj hseg d.slash_notMem_hyphenated htail).1⟩
  simp only [current_tenant_id, ne_eq, not_true_eq_false, if_false, String.toList_ofList, hnone,
    Option.bind_none]

/-- **Two readings of one path.** Let the router match a path to `/orgs/{org_id}/...` and
convert its segment to `U`. The tenant of the request is `U`, and so the transactions of the
handler run under `U`, exactly if the segment is hyphenated. -/
theorem tenant_iff_hyphenated {parse : List Char → Option Uuid} (hparse : AcceptsUuids parse)
    {segment rest : List Char} {U : Uuid} (hseg : '/' ∉ segment) (hU : parse segment = some U) :
    (current_tenant_id "http" (String.ofList ("/orgs/".toList ++ (segment ++ '/' :: rest))) =
        some U.str ∧
      apply_tenant_context "postgresql" (some .tenant)
        (current_tenant_id "http"
          (String.ofList ("/orgs/".toList ++ (segment ++ '/' :: rest)))) = some U.str) ↔
      ∃ d : Digits, segment = d.hyphenated := by
  constructor
  · rintro ⟨htenant, -⟩
    by_contra hne
    rw [current_tenant_id_of_not_hyphenated hseg hne] at htenant
    cases htenant
  · rintro ⟨d, rfl⟩
    have hd : parse d.hyphenated = some d.uuid :=
      (hparse _ _).mpr ⟨d, by simp [Digits.spellings], rfl⟩
    obtain rfl : d.uuid = U := Option.some.inj (hd.symm.trans hU)
    rw [current_tenant_id_hyphenated]
    exact ⟨rfl, rfl⟩

/-! ### A converter -/

/-- Read 32 hexadecimal digits. -/
def readDigits (s : List Char) : Option Digits :=
  if h : s.length = 32 ∧ s.all isHex = true then some ⟨s, h.1, h.2⟩ else none

/-- The text without its prefix or its braces. -/
def unwrap (s : List Char) : List Char :=
  match s with
  | 'u' :: _ => s.drop 9
  | '{' :: rest => rest.dropLast
  | _ => s

/-- A converter that accepts the four spellings. -/
def convert (s : List Char) : Option Uuid :=
  (readDigits ((unwrap s).filter (· ≠ '-'))).bind fun d =>
    if s ∈ d.spellings then some d.uuid else none

/-- Digits and hyphenated digits are not wrapped. -/
theorem unwrap_of_hex {s : List Char} (h : (s.head?).all isHex = true) : unwrap s = s := by
  unfold unwrap
  split
  · have hu : isHex 'u' = true := by simpa using h
    exact absurd hu (by decide)
  · have hbrace : isHex '{' = true := by simpa using h
    exact absurd hbrace (by decide)
  · rfl

/-- The plain spelling begins with a digit. -/
theorem Digits.head_chars (d : Digits) : (d.chars.head?).all isHex = true := by
  have hhex := d.hex
  cases hc : d.chars with
  | nil => rfl
  | cons c rest =>
      rw [hc, List.all_cons, Bool.and_eq_true] at hhex
      exact hhex.1

/-- So does the hyphenated one, so that neither is taken for a spelling with a prefix or in braces.
-/
theorem Digits.head_hyphenated (d : Digits) : (d.hyphenated.head?).all isHex = true := by
  have hlen := d.length
  have hhex := d.hex
  cases hc : d.chars with
  | nil => rw [hc] at hlen; cases hlen
  | cons c rest =>
      rw [hc, List.all_cons, Bool.and_eq_true] at hhex
      rw [Digits.hyphenated, hc]
      exact hhex.1

/-- Digits are read back. -/
theorem readDigits_chars (d : Digits) : readDigits d.chars = some d :=
  dif_pos ⟨d.length, d.hex⟩

/-- There is a converter as it is assumed of the router: the assumption can be met. -/
theorem acceptsUuids_convert : AcceptsUuids convert := by
  intro s u
  constructor
  · intro h
    obtain ⟨d, -, hd⟩ := Option.bind_eq_some_iff.mp h
    split at hd
    · rename_i hs
      exact ⟨d, hs, Option.some.inj hd⟩
    · cases hd
  · rintro ⟨d, hs, rfl⟩
    have hread : readDigits ((unwrap s).filter (· ≠ '-')) = some d := by
      rw [← readDigits_chars d]
      congr 1
      simp only [Digits.spellings, List.mem_cons, List.not_mem_nil, or_false] at hs
      rcases hs with rfl | rfl | rfl | rfl
      · rw [unwrap_of_hex d.head_chars, filter_ne_dash d.hex]
      · rw [unwrap_of_hex d.head_hyphenated, d.filter_hyphenated]
      · rw [unwrap, List.dropLast_concat, d.filter_hyphenated]
      · exact d.filter_hyphenated
    rw [convert, hread, Option.bind_some, if_pos hs]

/-- The digits of a UUID. -/
def sampleDigits : Digits where
  chars := "0123456789ABCDEF0123456789abcdef".toList
  length := by decide
  hex := by decide

/-- A request under the hyphenated spelling: the tenant is set, and the next transaction is scoped
to it. -/
theorem tenant_iff_hyphenated_sample :
    current_tenant_id "http"
        (String.ofList ("/orgs/".toList ++ (sampleDigits.hyphenated ++ '/' :: "members".toList))) =
          some sampleDigits.uuid.str ∧
      apply_tenant_context "postgresql" (some .tenant)
        (current_tenant_id "http" (String.ofList
          ("/orgs/".toList ++ (sampleDigits.hyphenated ++ '/' :: "members".toList)))) =
        some sampleDigits.uuid.str := by
  have hU : convert sampleDigits.hyphenated = some sampleDigits.uuid :=
    (acceptsUuids_convert _ _).mpr ⟨sampleDigits, by simp [Digits.spellings], rfl⟩
  exact (tenant_iff_hyphenated acceptsUuids_convert sampleDigits.slash_notMem_hyphenated hU).mpr
    ⟨sampleDigits, rfl⟩

/-- The router takes 32 digits for an organisation, and the middleware does not. -/
theorem plain_digits_without_tenant :
    ∃ (parse : List Char → Option Uuid) (segment rest : List Char) (U : Uuid),
      AcceptsUuids parse ∧ '/' ∉ segment ∧ parse segment = some U ∧
        current_tenant_id "http"
          (String.ofList ("/orgs/".toList ++ (segment ++ '/' :: rest))) = none := by
  refine ⟨convert, sampleDigits.chars, "billing/subscription".toList, sampleDigits.uuid,
    acceptsUuids_convert, by decide, ?_, ?_⟩
  · exact (acceptsUuids_convert _ _).mpr ⟨sampleDigits, by simp [Digits.spellings], rfl⟩
  · refine current_tenant_id_of_not_hyphenated (by decide) ?_
    rintro ⟨d, hd⟩
    have hdash : '-' ∈ sampleDigits.chars := by
      rw [hd, Digits.hyphenated]
      simp
    exact absurd hdash (by decide)

end BackendManager.Tenancy
