import Mathlib.Data.List.Pairwise

/-!
# Rows under UNIQUE Constraints

The rows of a table as a list, and what constraints and upserts do to them. Nothing here
names a schema: a column is a function on rows, a nullable one a function to `Option`.

`Unique key rows` is a `UNIQUE` constraint: no two rows share a value of the column, and a
`NULL` is not a value. A lookup by a value therefore finds at most one row, whereas a lookup
of the rows without a value may find any number; `scalarOneOrNone` is the query result that
tells the two apart.

Lists are used because the order in which a table returns its rows is not determined: the lemmas
hold for every order. An upsert on one key leaves the rows of other keys in place; on another
column the value that it writes must be one that no other row has.

## Main results

* `Unique.select_some`: a lookup by value finds no row or one row.
* `find_upsert`, `mem_upsert`: an upsert replaces or adds the row of one key.
* `Unique.upsert`: it keeps the constraint on that key, and `unique_upsert_iff` says when
  it keeps any other.
-/

namespace UniqueRows

variable {α κ ι : Type*} [DecidableEq κ] [DecidableEq ι] {key : α → κ} {col : α → Option ι}
  {rows : List α} {row a b : α} {k : κ} {v : ι}

/-- `UNIQUE` on a nullable column. -/
def Unique (col : α → Option ι) (rows : List α) : Prop :=
  rows.Pairwise fun a b => col a = none ∨ col a ≠ col b

instance (col : α → Option ι) (rows : List α) : Decidable (Unique col rows) :=
  inferInstanceAs (Decidable (rows.Pairwise _))

/-- `SELECT ... WHERE col = value`; the value `none` selects the rows without one. -/
def select (col : α → Option ι) (value : Option ι) (rows : List α) : List α :=
  rows.filter fun r => col r = value

/-- `SELECT ... WHERE key = k` on a key that is never `NULL`. -/
def find (key : α → κ) (k : κ) (rows : List α) : Option α := rows.find? fun r => key r = k

/-- More than one row where at most one was asked for. -/
inductive MultipleResultsFound
  | mk
deriving DecidableEq

/-- The only row of a result, if there is one. -/
def scalarOneOrNone : List α → Except MultipleResultsFound (Option α)
  | [] => .ok none
  | [r] => .ok (some r)
  | _ :: _ :: _ => .error .mk

/-- Replace the row with the key of `row`, or add `row`. -/
def upsert (key : α → κ) (row : α) (rows : List α) : List α :=
  if rows.any fun r => key r = key row then
    rows.map fun r => if key r = key row then row else r
  else rows ++ [row]

/-! ### Lookups -/

omit [DecidableEq ι] in
theorem unique_cons :
    Unique col (a :: rows) ↔ (∀ b ∈ rows, col a = none ∨ col a ≠ col b) ∧ Unique col rows :=
  List.pairwise_cons

omit [DecidableEq ι] in
/-- Rows with the same value are the same row. -/
theorem Unique.eq_of_mem (h : Unique col rows) (ha : a ∈ rows) (hb : b ∈ rows)
    (hva : col a = some v) (hvb : col b = some v) : a = b := by
  induction rows with
  | nil => cases ha
  | cons r rest ih =>
      obtain ⟨hr, hrest⟩ := unique_cons.mp h
      have hne : ∀ b ∈ rest, col r = some v → col b = some v → r = b := by
        intro b hb hvr hvb
        rcases hr b hb with hnone | hne
        · rw [hnone] at hvr
          cases hvr
        · exact absurd (hvr.trans hvb.symm) hne
      rcases List.mem_cons.mp ha with har | ha' <;> rcases List.mem_cons.mp hb with hbr | hb'
      · exact har.trans hbr.symm
      · subst har
        exact hne b hb' hva hvb
      · subst hbr
        exact (hne a ha' hvb hva).symm
      · exact ih hrest ha' hb'

/-- **A lookup by value finds at most one row.** -/
theorem Unique.select_some (h : Unique col rows) (v : ι) :
    select col (some v) rows = [] ∨ ∃ r, select col (some v) rows = [r] := by
  induction rows with
  | nil => exact .inl rfl
  | cons r rest ih =>
      obtain ⟨hr, hrest⟩ := unique_cons.mp h
      by_cases hv : col r = some v
      · have hempty : select col (some v) rest = [] := by
          rw [select, List.filter_eq_nil_iff]
          intro b hb
          rcases hr b hb with hnone | hne
          · rw [hnone] at hv
            cases hv
          · simpa [hv, eq_comm] using hne
        rw [select] at hempty
        exact .inr ⟨r, by rw [select, List.filter_cons_of_pos (by simpa using hv), hempty]⟩
      · have hskip : select col (some v) (r :: rest) = select col (some v) rest := by
          simp [select, hv]
        rw [hskip]
        exact ih hrest

/-- The rows that a lookup finds. -/
theorem mem_select {value : Option ι} : a ∈ select col value rows ↔ a ∈ rows ∧ col a = value := by
  simp [select]

/-- Asking for the row of a value never finds too many. -/
theorem Unique.scalarOneOrNone_select (h : Unique col rows) (v : ι) :
    ∃ r, scalarOneOrNone (select col (some v) rows) = .ok r ∧
      ∀ a, r = some a ↔ a ∈ rows ∧ col a = some v := by
  rcases h.select_some v with hs | ⟨r, hs⟩
  · refine ⟨none, by rw [hs]; rfl, fun a => ?_⟩
    rw [← mem_select, hs]
    simp
  · refine ⟨some r, by rw [hs]; rfl, fun a => ?_⟩
    rw [← mem_select, hs]
    simp [eq_comm]

theorem find_eq_some (h : find key k rows = some a) : a ∈ rows ∧ key a = k := by
  have hk := List.find?_some h
  exact ⟨List.mem_of_find?_eq_some h, of_decide_eq_true hk⟩

theorem find_eq_none_iff : find key k rows = none ↔ ∀ r ∈ rows, key r ≠ k := by
  simp [find]

/-- The row of a key is the one found. -/
theorem Unique.find_eq_some_iff (h : Unique (fun r => some (key r)) rows) :
    find key k rows = some a ↔ a ∈ rows ∧ key a = k := by
  refine ⟨find_eq_some, fun ⟨ha, hk⟩ => ?_⟩
  cases hf : find key k rows with
  | none => exact absurd hk (find_eq_none_iff.mp hf a ha)
  | some b =>
      obtain ⟨hb, hkb⟩ := find_eq_some hf
      rw [h.eq_of_mem ha hb (v := k) (by rw [hk]) (by rw [hkb])]

/-! ### Inserts and updates -/

omit [DecidableEq ι] in
/-- An update of other columns keeps the constraint. -/
theorem Unique.map {f : α → α} (h : Unique col rows) (hf : ∀ r, col (f r) = col r) :
    Unique col (rows.map f) :=
  List.pairwise_map.mpr (h.imp fun hab => by rwa [hf, hf])

/-- An insert keeps the constraint on a key that it does not find. -/
theorem Unique.concat (h : Unique (fun r => some (key r)) rows)
    (hnew : find key (key row) rows = none) : Unique (fun r => some (key r)) (rows ++ [row]) := by
  refine List.pairwise_append.mpr ⟨h, List.pairwise_singleton _ _, fun r hr r' hr' => ?_⟩
  rw [List.mem_singleton.mp hr']
  exact .inr fun heq => find_eq_none_iff.mp hnew r hr (Option.some.inj heq)

/-! ### Upserts -/

/-- An upsert leaves the rows of the other keys, and its own row. -/
theorem mem_upsert : a ∈ upsert key row rows ↔ a = row ∨ (a ∈ rows ∧ key a ≠ key row) := by
  unfold upsert
  split
  · rename_i hany
    obtain ⟨r, hr, hk⟩ := List.any_eq_true.mp hany
    have hk : key r = key row := of_decide_eq_true hk
    constructor
    · intro h
      obtain ⟨b, hb, rfl⟩ := List.mem_map.mp h
      by_cases hkb : key b = key row
      · exact .inl (if_pos hkb)
      · rw [if_neg hkb]
        exact .inr ⟨hb, hkb⟩
    · rintro (rfl | ⟨ha, hka⟩)
      · exact List.mem_map.mpr ⟨r, hr, if_pos hk⟩
      · exact List.mem_map.mpr ⟨a, ha, if_neg hka⟩
  · rename_i hany
    have hnone : ∀ r ∈ rows, key r ≠ key row := by simpa using hany
    rw [List.mem_append, List.mem_singleton, or_comm]
    exact or_congr_right ⟨fun ha => ⟨ha, hnone a ha⟩, And.left⟩

/-- Replacing a row keeps the keys. -/
theorem key_replace (row r : α) : key (if key r = key row then row else r) = key r := by
  split
  · rename_i hk
    exact hk.symm
  · rfl

/-- An upsert changes the row of its key alone. -/
theorem find_upsert (row : α) (rows : List α) (k : κ) :
    find key k (upsert key row rows) = if k = key row then some row else find key k rows := by
  unfold upsert
  split
  · rename_i hany
    have hmap : find key k (rows.map fun r => if key r = key row then row else r) =
        (find key k rows).map fun r => if key r = key row then row else r := by
      rw [find, List.find?_map]
      congr 1
      exact congrArg (List.find? · rows) (funext fun r => by simp [key_replace])
    rw [hmap]
    by_cases hk : k = key row
    · obtain ⟨r, hr, hkr⟩ := List.any_eq_true.mp hany
      cases hf : find key k rows with
      | none => exact absurd ((of_decide_eq_true hkr).trans hk.symm) (find_eq_none_iff.mp hf r hr)
      | some b =>
          obtain ⟨-, hb⟩ := find_eq_some hf
          rw [Option.map_some, if_pos (hb.trans hk), if_pos hk]
    · rw [if_neg hk]
      cases hf : find key k rows with
      | none => rfl
      | some b =>
          obtain ⟨-, hb⟩ := find_eq_some hf
          rw [Option.map_some, if_neg (fun h => hk (hb.symm.trans h))]
  · rename_i hany
    have hnone : ∀ r ∈ rows, key r ≠ key row := by simpa using hany
    rw [find, List.find?_append]
    by_cases hk : k = key row
    · have hf : rows.find? (fun r => key r = k) = none :=
        find_eq_none_iff.mpr fun r hr => hk ▸ hnone r hr
      rw [hf, if_pos hk]
      simp [hk]
    · rw [if_neg hk, List.find?_singleton, if_neg (by simpa [eq_comm] using hk), Option.or_none]
      rfl

/-- An upsert keeps the constraint on its key. -/
theorem Unique.upsert (h : Unique (fun r => some (key r)) rows) (row : α) :
    Unique (fun r => some (key r)) (upsert key row rows) := by
  unfold UniqueRows.upsert
  split
  · exact h.map fun r => congrArg some (key_replace row r)
  · rename_i hany
    have hnone : ∀ r ∈ rows, key r ≠ key row := by simpa using hany
    exact h.concat (find_eq_none_iff.mpr hnone)

omit [DecidableEq ι] in
/-- **An upsert keeps another constraint** exactly when no row of a different key has the
value. -/
theorem unique_upsert_iff (h : Unique (fun r => some (key r)) rows) (hcol : Unique col rows)
    (row : α) :
    Unique col (UniqueRows.upsert key row rows) ↔
      ∀ r ∈ rows, key r ≠ key row → col row = none ∨ col row ≠ col r := by
  constructor
  · intro hu r hr hkr
    by_contra hsame
    rw [not_or, not_not] at hsame
    obtain ⟨v, hv⟩ := Option.ne_none_iff_exists'.mp hsame.1
    have heq : r = row := hu.eq_of_mem (mem_upsert.mpr (.inr ⟨hr, hkr⟩))
      (mem_upsert.mpr (.inl rfl)) (hsame.2.symm.trans hv) hv
    exact hkr (by rw [heq])
  · intro hfree
    unfold UniqueRows.upsert
    split
    · refine List.pairwise_map.mpr ((List.Pairwise.and h hcol).imp_of_mem ?_)
      rintro a b ha hb ⟨hkey, hab⟩
      have hkey : key a ≠ key b := by simpa using hkey
      split <;> split
      · rename_i hka hkb
        exact absurd (hka.trans hkb.symm) hkey
      · rename_i hka hkb
        exact hfree b hb hkb
      · rename_i hka hkb
        rcases hfree a ha hka with hnone | hne
        · by_cases hca : col a = none
          · exact .inl hca
          · exact .inr (by rw [hnone]; exact hca)
        · exact .inr hne.symm
      · exact hab
    · rename_i hany
      have hnone : ∀ r ∈ rows, key r ≠ key row := by simpa using hany
      refine List.pairwise_append.mpr ⟨hcol, List.pairwise_singleton _ _, fun r hr r' hr' => ?_⟩
      rw [List.mem_singleton.mp hr']
      rcases hfree r hr (hnone r hr) with hnull | hne
      · by_cases hcr : col r = none
        · exact .inl hcr
        · exact .inr (by rw [hnull]; exact hcr)
      · exact .inr hne.symm

end UniqueRows
