import Mathlib.Data.List.Basic

/-!
# Row Policies over Three-Valued Logic

Row-level security of a SQL database. A policy has two conditions on rows, each evaluated to
a truth value that may be NULL: existing rows take part in a statement if `USING` is true of
them, and a new row is written if `WITH CHECK` is true of it. NULL counts as false in both
places. Nothing here names a particular schema.

A statement reads a table as a list of rows. Its `Effect` are the rows that it returns,
inserts, replaces and deletes.

The rule used for isolation is that a policy confines a statement row by row, whatever its
condition: what a statement is asked to do does not matter for what it may see. Roles that are
exempt from policies are not modelled: the statements are those of a role that the policies
apply to.

## Main results

* `Truth.eq_eq_true`, `Truth.or_eq_true`: when a comparison and a disjunction are true.
* `execute_existing`, `execute_new`: a statement that succeeds under a policy has returned,
  replaced and deleted rows of which `USING` is true, and has written rows of which
  `WITH CHECK` is true.
-/

namespace RowPolicies

/-! ### Three-valued logic -/

/-- A truth value; `none` is NULL. -/
abbrev Truth := Option Bool

variable {α R : Type}

/-- `a IS NULL`. -/
def isNull (a : Option α) : Truth := some a.isNone

/-- `p OR q`. -/
def Truth.or : Truth → Truth → Truth
  | some true, _ => some true
  | _, some true => some true
  | some false, some false => some false
  | _, _ => none

/-- `a = b`. -/
def Truth.eq [DecidableEq α] (a b : Option α) : Truth :=
  a.bind fun x => b.map fun y => decide (x = y)

/-- `NULLIF(a, b)`. -/
def nullif [DecidableEq α] (a b : Option α) : Option α :=
  if Truth.eq a b = some true then none else a

@[simp] theorem isNull_eq_true {a : Option α} : isNull a = some true ↔ a = none := by
  simp [isNull]

@[simp] theorem Truth.or_eq_true {p q : Truth} :
    p.or q = some true ↔ p = some true ∨ q = some true := by
  rcases p with _ | _ | _ <;> rcases q with _ | _ | _ <;> simp [Truth.or]

/-- A comparison with NULL is not true. -/
@[simp] theorem Truth.eq_eq_true [DecidableEq α] {a b : Option α} :
    Truth.eq a b = some true ↔ ∃ x, a = some x ∧ b = some x := by
  rcases a with _ | x <;> rcases b with _ | y <;> simp [Truth.eq, eq_comm]

theorem nullif_of_ne [DecidableEq α] {x y : α} (h : x ≠ y) :
    nullif (some x) (some y) = some x := by
  have hne : ¬ Truth.eq (some x) (some y) = some true := by
    rw [Truth.eq_eq_true]
    rintro ⟨z, hx, hy⟩
    exact h ((Option.some.inj hx).trans (Option.some.inj hy).symm)
  rw [nullif, if_neg hne]

/-! ### Statements under a policy -/

/-- A policy for all commands. Evaluating a condition may fail. -/
structure Policy (R : Type) where
  /-- `USING`. -/
  existing : R → Except String Truth
  /-- `WITH CHECK`. -/
  new : R → Except String Truth

/-- A statement on one table. -/
inductive Statement (R : Type)
  | select (condition : R → Bool)
  | insert (rows : List R)
  | update (condition : R → Bool) (set : R → R)
  | delete (condition : R → Bool)

/-- The rows that a statement has to do with. -/
structure Effect (R : Type) where
  read : List R := []
  inserted : List R := []
  /-- The rows before and after an `UPDATE`. -/
  updated : List (R × R) := []
  deleted : List R := []

/-- The rows that were there. -/
def Effect.existing (e : Effect R) : List R := e.read ++ e.updated.map Prod.fst ++ e.deleted

/-- The rows that are there now. -/
def Effect.new (e : Effect R) : List R := e.inserted ++ e.updated.map Prod.snd

/-- The rows of which the condition is true. -/
def filterTrue (p : R → Except String Truth) : List R → Except String (List R)
  | [] => .ok []
  | r :: rows => do
      let v ← p r
      let rest ← filterTrue p rows
      return if v = some true then r :: rest else rest

/-- The error of a new row of which the condition is not true. -/
def checkAll (p : R → Except String Truth) : List R → Except String Unit
  | [] => .ok ()
  | r :: rows => do
      let v ← p r
      if v = some true then checkAll p rows
      else throw "new row violates row-level security policy"

/-- The rows of the table that a statement sees. -/
def visible (policy : Option (Policy R)) (rows : List R) : Except String (List R) :=
  match policy with
  | none => .ok rows
  | some policy => filterTrue policy.existing rows

/-- The rows that a statement writes are checked. -/
def withCheck (policy : Option (Policy R)) (rows : List R) : Except String Unit :=
  match policy with
  | none => .ok ()
  | some policy => checkAll policy.new rows

/-- Execute a statement against these rows; the role is subject to `policy`, if there is
one. -/
def execute (policy : Option (Policy R)) (rows : List R) : Statement R → Except String (Effect R)
  | .select condition => do
      let rows ← visible policy rows
      return { read := rows.filter condition }
  | .insert new => do
      withCheck policy new
      return { inserted := new }
  | .update condition set => do
      let rows ← visible policy rows
      let updated := (rows.filter condition).map fun r => (r, set r)
      withCheck policy (updated.map Prod.snd)
      return { updated := updated }
  | .delete condition => do
      let rows ← visible policy rows
      return { deleted := rows.filter condition }

variable {p : R → Except String Truth} {policy : Policy R} {r : R} {rows kept : List R}
  {s : Statement R} {e : Effect R}

/-- A computation succeeds exactly if both of its parts do. -/
theorem bind_eq_ok {β : Type} {x : Except String α} {f : α → Except String β} {b : β} :
    x >>= f = .ok b ↔ ∃ a, x = .ok a ∧ f a = .ok b := by
  cases x with
  | error message => simp [bind, Except.bind]
  | ok a => simp [bind, Except.bind]

/-- The rows that are kept are rows of which the condition is true. -/
theorem filterTrue_eq_ok (h : filterTrue p rows = .ok kept) (hr : r ∈ kept) :
    p r = .ok (some true) := by
  induction rows generalizing kept with
  | nil =>
      obtain rfl : [] = kept := Except.ok.inj h
      cases hr
  | cons r' rows ih =>
      obtain ⟨v, hv, h⟩ := bind_eq_ok.mp h
      obtain ⟨rest, hrest, h⟩ := bind_eq_ok.mp h
      obtain rfl : (if v = some true then r' :: rest else rest) = kept := Except.ok.inj h
      split at hr
      · rename_i htrue
        rcases List.mem_cons.mp hr with rfl | hr
        · rw [hv, htrue]
        · exact ih hrest hr
      · exact ih hrest hr

/-- If no row fails the check, the condition is true of every row. -/
theorem checkAll_eq_ok {u : Unit} (h : checkAll p rows = .ok u) (hr : r ∈ rows) :
    p r = .ok (some true) := by
  induction rows with
  | nil => cases hr
  | cons r' rows ih =>
      obtain ⟨v, hv, h⟩ := bind_eq_ok.mp h
      split at h
      · rename_i htrue
        rcases List.mem_cons.mp hr with rfl | hr
        · rw [hv, htrue]
        · exact ih h hr
      · cases h

/-- **`USING` is true of the rows that were there.** -/
theorem execute_existing (h : execute (some policy) rows s = .ok e) (hr : r ∈ e.existing) :
    policy.existing r = .ok (some true) := by
  cases s with
  | select condition =>
      obtain ⟨seen, hseen, h⟩ := bind_eq_ok.mp h
      obtain rfl : { read := seen.filter condition } = e := Except.ok.inj h
      simp only [Effect.existing, List.map_nil, List.append_nil] at hr
      exact filterTrue_eq_ok hseen (List.mem_of_mem_filter hr)
  | insert new =>
      obtain ⟨-, -, h⟩ := bind_eq_ok.mp h
      obtain rfl : { inserted := new } = e := Except.ok.inj h
      cases hr
  | update condition set =>
      obtain ⟨seen, hseen, h⟩ := bind_eq_ok.mp h
      obtain ⟨-, -, h⟩ := bind_eq_ok.mp h
      obtain rfl : { updated := (seen.filter condition).map fun r => (r, set r) } = e :=
        Except.ok.inj h
      simp only [Effect.existing, List.map_map, List.nil_append, List.append_nil] at hr
      obtain ⟨r', hr', rfl⟩ := List.mem_map.mp hr
      exact filterTrue_eq_ok hseen (List.mem_of_mem_filter hr')
  | delete condition =>
      obtain ⟨seen, hseen, h⟩ := bind_eq_ok.mp h
      obtain rfl : { deleted := seen.filter condition } = e := Except.ok.inj h
      simp only [Effect.existing, List.map_nil, List.nil_append] at hr
      exact filterTrue_eq_ok hseen (List.mem_of_mem_filter hr)

/-- **`WITH CHECK` is true of the rows that are there now.** -/
theorem execute_new (h : execute (some policy) rows s = .ok e) (hr : r ∈ e.new) :
    policy.new r = .ok (some true) := by
  cases s with
  | select condition =>
      obtain ⟨seen, -, h⟩ := bind_eq_ok.mp h
      obtain rfl : { read := seen.filter condition } = e := Except.ok.inj h
      cases hr
  | insert new =>
      obtain ⟨u, hcheck, h⟩ := bind_eq_ok.mp h
      obtain rfl : { inserted := new } = e := Except.ok.inj h
      simp only [Effect.new, List.map_nil, List.append_nil] at hr
      exact checkAll_eq_ok hcheck hr
  | update condition set =>
      obtain ⟨seen, -, h⟩ := bind_eq_ok.mp h
      obtain ⟨u, hcheck, h⟩ := bind_eq_ok.mp h
      obtain rfl : { updated := (seen.filter condition).map fun r => (r, set r) } = e :=
        Except.ok.inj h
      exact checkAll_eq_ok hcheck hr
  | delete condition =>
      obtain ⟨seen, -, h⟩ := bind_eq_ok.mp h
      obtain rfl : { deleted := seen.filter condition } = e := Except.ok.inj h
      cases hr

end RowPolicies
