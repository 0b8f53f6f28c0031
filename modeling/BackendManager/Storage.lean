import BackendManager.TenantContext
import Mathlib.Data.List.Nodup
import Mathlib.Data.List.TakeWhile

/-!
# Object Storage

The model of `app/storage`: the keys of objects with the tenant's part in front, and the listing
of an organisation's objects. `list_keys` asks the store once, which answers with a page of 1000
keys at most; it does not ask for the pages that follow.

## Conventions

* A bucket is the list of its keys in the order in which the store lists them.

## Main results

* `org_of_stored`: a stored key belongs to one organisation.
* `count_list_objects`: which keys are listed.
* `list_objects_iff`: when the listing is complete.
* `firstPage_iff_not_truncated`: the store says when it is not, in a field that nobody reads.
* `not_list_objects`: one object too many.
-/

namespace BackendManager.Storage

open Tenancy (toList_str str_injective digitsOf)

/-! ### Keys -/

/-- `str.startswith`. -/
def startswith (s start : String) : Bool := start.toList.isPrefixOf s.toList

/-- `str.lstrip("/")`. -/
def lstrip (key : String) : String := .ofList (key.toList.dropWhile (· = '/'))

def build_key (key : String) (org_id : Option String) : String :=
  let cleaned := lstrip key
  match org_id with
  | some org_id => if org_id = "" then cleaned else "orgs/" ++ org_id ++ "/" ++ cleaned
  | none => cleaned

def relative_key (stored_key : String) (org_id : Option String) : String :=
  match org_id with
  | some org_id =>
      if org_id = "" then stored_key
      else
        let start := "orgs/" ++ org_id ++ "/"
        if startswith stored_key start then .ofList (stored_key.toList.drop start.length)
        else stored_key
  | none => stored_key

def tenant_prefix (org_id : Option String) : String :=
  match org_id with
  | some org_id => if org_id = "" then "" else "orgs/" ++ org_id ++ "/"
  | none => ""

/-! ### The store -/

/-- A bucket of S3. -/
structure Bucket where
  keys : List String
  nodup : keys.Nodup

/-- The answer of `list_objects_v2`. -/
structure Page where
  contents : Option (List String)
  isTruncated : Bool
deriving DecidableEq

/-- The number of keys in a page. -/
def MAX_KEYS : ℕ := 1000

namespace Bucket

/-- The keys that start with a text. -/
def under (bucket : Bucket) (start : String) : List String :=
  bucket.keys.filter fun key => startswith key start

/-- `list_objects_v2`, without a continuation token. -/
def list_objects_v2 (bucket : Bucket) (start : String) : Page :=
  let keys := bucket.under start
  { contents := if keys = [] then none else some (keys.take MAX_KEYS)
    isTruncated := MAX_KEYS < keys.length }

end Bucket

def list_keys (bucket : Bucket) (start : String) : List String :=
  ((bucket.list_objects_v2 start).contents).getD []

/-- The route `list_objects`, for a member of the organisation. -/
def list_objects (bucket : Bucket) (org_id : Uuid) : List String :=
  let org := org_id.str
  let stored := list_keys bucket <| tenant_prefix (some org)
  stored.map fun key => relative_key key (some org)

/-! ### Keys of organisations -/

variable {bucket : Bucket} {org org' : Uuid} {key rest rest' s s' start : String}

/-- `startswith`, as an equation between texts. -/
theorem startswith_iff : startswith s start = true ↔ ∃ rest, s = start ++ rest := by
  rw [startswith, List.isPrefixOf_iff_prefix]
  constructor
  · rintro ⟨rest, hrest⟩
    refine ⟨.ofList rest, String.toList_injective ?_⟩
    rw [String.toList_append, String.toList_ofList, hrest]
  · rintro ⟨rest, rfl⟩
    rw [String.toList_append]
    exact List.prefix_append _ _

/-- The text of a UUID is not empty, so that every organisation has a part of its own. -/
theorem str_ne_empty (org : Uuid) : org.str ≠ "" := by
  intro h
  have hlist := congrArg String.toList h
  rw [toList_str, Tenancy.Digits.hyphenated] at hlist
  simp at hlist

/-- The part of a stored key that names the organisation. -/
def tenantPart (org : Uuid) : String := tenant_prefix (some org.str)

/-- The organisation's part of the bucket. -/
theorem tenantPart_eq (org : Uuid) : tenantPart org = "orgs/" ++ org.str ++ "/" := by
  simp only [tenantPart, tenant_prefix, if_neg (str_ne_empty org)]

/-- A key of an organisation is its part, followed by what the client has named without leading
slashes. -/
theorem build_key_str (key : String) (org : Uuid) :
    build_key key (some org.str) = tenantPart org ++ lstrip key := by
  simp only [build_key, if_neg (str_ne_empty org), tenantPart_eq]

/-- Stripping is the inverse of prefixing. -/
theorem relative_key_append (org : Uuid) (rest : String) :
    relative_key (tenantPart org ++ rest) (some org.str) = rest := by
  simp only [relative_key, if_neg (str_ne_empty org), ← tenantPart_eq,
    if_pos (startswith_iff.mpr ⟨rest, rfl⟩)]
  apply String.toList_injective
  rw [String.toList_ofList, String.toList_append, ← String.length_toList, List.drop_left]

/-- **A stored key belongs to one organisation.** -/
theorem org_of_stored (h : tenantPart org ++ rest = tenantPart org' ++ rest') : org = org' := by
  have hlist := congrArg String.toList h
  simp only [tenantPart_eq, String.toList_append, List.append_assoc] at hlist
  have hnames := List.append_cancel_left hlist
  have hslash : ∀ org : Uuid, '/' ∉ org.str.toList := fun org => by
    rw [toList_str]
    exact (digitsOf org).slash_notMem_hyphenated
  have hsame := (Text.append_cons_inj (hslash org) (hslash org') hnames).1
  exact str_injective (String.toList_injective hsame)

/-! ### The listing -/

/-- The keys that start with a text are those that continue it. -/
theorem mem_under_iff : s ∈ bucket.under start ↔ s ∈ bucket.keys ∧ ∃ rest, s = start ++ rest := by
  rw [Bucket.under, List.mem_filter, startswith_iff]

/-- The listing is the beginning of what the store has: one page of it. -/
theorem list_keys_eq (bucket : Bucket) (start : String) :
    list_keys bucket start = (bucket.under start).take MAX_KEYS := by
  rw [list_keys, Bucket.list_objects_v2]
  by_cases hempty : bucket.under start = []
  · simp only [hempty, if_true, List.take_nil, Option.getD_none]
  · simp only [if_neg hempty, Option.getD_some]

/-- Keys of one organisation are told by what is left of them. -/
theorem relative_key_inj (hs : s ∈ bucket.under (tenantPart org))
    (hs' : s' ∈ bucket.under (tenantPart org))
    (h : relative_key s (some org.str) = relative_key s' (some org.str)) : s = s' := by
  obtain ⟨-, rest, rfl⟩ := mem_under_iff.mp hs
  obtain ⟨-, rest', rfl⟩ := mem_under_iff.mp hs'
  rw [relative_key_append, relative_key_append] at h
  rw [h]

/-- The store lists no key twice. -/
theorem nodup_under (bucket : Bucket) (start : String) : (bucket.under start).Nodup :=
  bucket.nodup.filter _

/-- **Which keys are listed**: those of the first page, once. -/
theorem count_list_objects (hs : s ∈ bucket.under (tenantPart org)) :
    (list_objects bucket org).count (relative_key s (some org.str)) =
      if (bucket.under (tenantPart org)).idxOf s < MAX_KEYS then 1 else 0 := by
  have hpage : ∀ {key}, key ∈ (bucket.under (tenantPart org)).take MAX_KEYS →
      key ∈ bucket.under (tenantPart org) := fun hkey => List.mem_of_mem_take hkey
  have hnodup : (list_objects bucket org).Nodup := by
    rw [list_objects, list_keys_eq]
    refine List.Nodup.map_on (fun key hkey key' hkey' h => ?_) (nodup_under bucket _).take
    exact relative_key_inj (hpage hkey) (hpage hkey') h
  have hmem : relative_key s (some org.str) ∈ list_objects bucket org ↔
      (bucket.under (tenantPart org)).idxOf s < MAX_KEYS := by
    rw [list_objects, list_keys_eq, ← List.mem_take_iff_idxOf_lt hs, List.mem_map]
    constructor
    · rintro ⟨key, hkey, h⟩
      rwa [← relative_key_inj (hpage hkey) hs h]
    · exact fun h => ⟨s, h, rfl⟩
  split
  · rename_i hlt
    exact List.count_eq_one_of_mem hnodup (hmem.mpr hlt)
  · rename_i hge
    exact List.count_eq_zero_of_not_mem fun h => hge (hmem.mp h)

/-- The listing has one entry for each key of the organisation, and is made of nothing else. -/
structure Lists (bucket : Bucket) (org : Uuid) : Prop where
  each : ∀ key, build_key key (some org.str) ∈ bucket.keys →
    (list_objects bucket org).count
      (relative_key (build_key key (some org.str)) (some org.str)) = 1
  own : ∃ stored : List String, stored.Sublist bucket.keys ∧
    list_objects bucket org = stored.map (fun s => relative_key s (some org.str)) ∧
    ∀ s ∈ stored, ∀ org' key, build_key key (some org'.str) = s → org' = org

/-- The keys of the organisation are among the first 1000 under its prefix. -/
def FirstPage (bucket : Bucket) (org : Uuid) : Prop :=
  ∀ key, build_key key (some org.str) ∈ bucket.keys →
    (bucket.under (tenantPart org)).idxOf (build_key key (some org.str)) < MAX_KEYS

/-- What is stored for an organisation is among the keys of its part. -/
theorem build_key_mem_under (h : build_key key (some org.str) ∈ bucket.keys) :
    build_key key (some org.str) ∈ bucket.under (tenantPart org) :=
  mem_under_iff.mpr ⟨h, lstrip key, build_key_str key org⟩

/-- The listing is made of keys of the organisation. -/
theorem listed_own (bucket : Bucket) (org : Uuid) :
    ∃ stored : List String, stored.Sublist bucket.keys ∧
      list_objects bucket org = stored.map (fun s => relative_key s (some org.str)) ∧
      ∀ s ∈ stored, ∀ org' key, build_key key (some org'.str) = s → org' = org := by
  refine ⟨(bucket.under (tenantPart org)).take MAX_KEYS, ?_, ?_, ?_⟩
  · exact (List.take_sublist _ _).trans List.filter_sublist
  · rw [list_objects, list_keys_eq]
    rfl
  · rintro s hs org' key rfl
    obtain ⟨-, rest, hrest⟩ := mem_under_iff.mp (List.mem_of_mem_take hs)
    rw [build_key_str] at hrest
    exact org_of_stored hrest

/-- **When the listing is complete**: exactly if all keys of the organisation are in the first
page. -/
theorem list_objects_iff (bucket : Bucket) (org : Uuid) :
    Lists bucket org ↔ FirstPage bucket org := by
  constructor
  · rintro ⟨heach, -⟩ key hkey
    have hone := heach key hkey
    rw [count_list_objects (build_key_mem_under hkey)] at hone
    by_contra hge
    rw [if_neg hge] at hone
    exact absurd hone Nat.zero_ne_one
  · intro hfirst
    refine ⟨fun key hkey => ?_, listed_own bucket org⟩
    rw [count_list_objects (build_key_mem_under hkey), if_pos (hfirst key hkey)]

/-- Where the bucket holds what clients have stored through the routes, that is to say that the
answer of the store is not truncated. -/
theorem firstPage_iff_not_truncated
    (hstored : ∀ s ∈ bucket.under (tenantPart org),
      ∃ key, build_key key (some org.str) = s) :
    FirstPage bucket org ↔
      (bucket.list_objects_v2 (tenantPart org)).isTruncated = false := by
  rw [Bucket.list_objects_v2, decide_eq_false_iff_not, not_lt]
  constructor
  · intro hfirst
    by_contra hmore
    rw [not_le] at hmore
    have hnodup := nodup_under bucket (tenantPart org)
    obtain ⟨key, hkey⟩ := hstored _ (List.getElem_mem hmore)
    have hlt := hfirst key (hkey ▸ (mem_under_iff.mp (List.getElem_mem hmore)).1)
    rw [hkey, hnodup.idxOf_getElem] at hlt
    exact absurd hlt (lt_irrefl _)
  · intro hle key hkey
    exact (List.idxOf_lt_length_of_mem (build_key_mem_under hkey)).trans_le hle

/-! ### One object too many -/

/-- The name of the object of a number: "10000", "10001", and so on, which S3 lists in this
order. -/
def name (n : ℕ) : String := Nat.repr (10000 + n)

/-- The name of a number is its digits. -/
theorem toList_name (n : ℕ) : (name n).toList = Nat.toDigits 10 (10000 + n) := Nat.toList_repr

/-- Digits are no slashes, so that the name is stored as it is. -/
theorem lstrip_name (n : ℕ) : lstrip (name n) = name n := by
  have hall : (name n).toList.dropWhile (· = '/') = (name n).toList := by
    refine List.dropWhile_eq_self_iff.mpr fun hpos hslash => ?_
    have hmem := List.getElem_mem hpos
    rw [of_decide_eq_true hslash, toList_name] at hmem
    exact absurd (Nat.isDigit_of_mem_toDigits (by decide) (by decide) hmem) (by decide)
  rw [lstrip, hall, String.ofList_toList]

/-- Different numbers have different names. -/
theorem name_injective : Function.Injective name := by
  intro m n h
  have hdigits := congrArg String.toList h
  rw [toList_name, toList_name] at hdigits
  have hvalue := congrArg (Nat.ofDigitChars 10 · 0) hdigits
  simp only [Nat.ofDigitChars_ten_toDigits] at hvalue
  exact Nat.add_left_cancel hvalue

/-- Different numbers are different keys. -/
theorem build_key_name_injective (org : Uuid) :
    Function.Injective fun n => build_key (name n) (some org.str) := by
  intro m n h
  simp only [build_key_str, lstrip_name, String.append_right_inj] at h
  exact name_injective h

/-- The first objects of one organisation. -/
def firstObjects (count : ℕ) (org : Uuid) : Bucket where
  keys := (List.range count).map fun n => build_key (name n) (some org.str)
  nodup := List.Nodup.map (build_key_name_injective org) List.nodup_range

/-- All the objects of this bucket are the organisation's. -/
theorem under_firstObjects (count : ℕ) (org : Uuid) :
    (firstObjects count org).under (tenantPart org) =
      (firstObjects count org).keys := by
  refine List.filter_eq_self.mpr fun s hs => startswith_iff.mpr ?_
  obtain ⟨n, -, rfl⟩ := List.mem_map.mp hs
  exact ⟨lstrip (name n), build_key_str _ org⟩

/-- Every object below the count is stored. -/
theorem mem_firstObjects {count n : ℕ} (org : Uuid) (hn : n < count) :
    build_key (name n) (some org.str) ∈ (firstObjects count org).keys :=
  List.mem_map.mpr ⟨n, List.mem_range.mpr hn, rfl⟩

/-- The store lists them in the order of their numbers. -/
theorem idxOf_firstObjects {count n : ℕ} (org : Uuid) (hn : n < count) :
    (firstObjects count org).keys.idxOf (build_key (name n) (some org.str)) = n := by
  have hlt : n < (firstObjects count org).keys.length := by simpa [firstObjects] using hn
  have hget : (firstObjects count org).keys[n] = build_key (name n) (some org.str) := by
    simp [firstObjects]
  rw [← hget, (firstObjects count org).nodup.idxOf_getElem]

/-- Of 1001 objects the last is not listed. -/
theorem not_list_objects :
    build_key (name 1000) (some (Uuid.ofNat 1).str) ∈ (firstObjects 1001 (Uuid.ofNat 1)).keys ∧
      (list_objects (firstObjects 1001 (Uuid.ofNat 1)) (Uuid.ofNat 1)).count
        (relative_key (build_key (name 1000) (some (Uuid.ofNat 1).str))
          (some (Uuid.ofNat 1).str)) = 0 ∧
      ¬ Lists (firstObjects 1001 (Uuid.ofNat 1)) (Uuid.ofNat 1) := by
  have hlt : 1000 < 1001 := by decide
  have hmem := mem_firstObjects (Uuid.ofNat 1) hlt
  have hcount := count_list_objects (build_key_mem_under hmem)
  have hpage : ¬ 1000 < MAX_KEYS := lt_irrefl 1000
  rw [under_firstObjects, idxOf_firstObjects _ hlt, if_neg hpage] at hcount
  refine ⟨hmem, hcount, fun hlists => ?_⟩
  rw [hlists.each _ hmem] at hcount
  exact absurd hcount Nat.one_ne_zero

end BackendManager.Storage
