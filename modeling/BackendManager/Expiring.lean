import Mathlib.Data.Nat.Notation
import Mathlib.Logic.Function.Basic

/-!
# Keys That Expire

A key-value store in which every value has a deadline: from its deadline on a key reads as
absent, whether or not the store has dropped it already. Time is counted in natural numbers,
and nothing here names what is stored.

A server may drop a key some time after its deadline and hide it from then on, so that no
command can tell the two apart. Keeping the stored entry, and reading it as absent, lets a model
state what an entry was after it has expired. The operations are setting a value under a new
deadline, replacing it under the old one, and deleting it; each has one lemma about its own key
and one about the others.

## Main results

* `Store.get_eq_some_iff`: a read in terms of what is stored.
* `Store.set_self`, `Store.keep_self`, `Store.set_of_ne`: what a write leaves behind.
-/

namespace Expiring

/-- A value with its deadline. -/
structure Entry (V : Type*) where
  value : V
  deadline : ℕ
deriving DecidableEq

/-- The entries by key, those past their deadline included. -/
abbrev Store (K V : Type*) := K → Option (Entry V)

variable {K V : Type*} {s : Store K V} {k j : K} {v : V} {now deadline : ℕ}

/-- A store without keys. -/
def Store.empty : Store K V := fun _ => none

/-- The value of a key at time `now`. -/
def Store.get (s : Store K V) (now : ℕ) (k : K) : Option V :=
  ((s k).filter fun e => now < e.deadline).map Entry.value

/-- A value is read if it is stored and its deadline has not come. -/
theorem Store.get_eq_some_iff :
    s.get now k = some v ↔ ∃ deadline, s k = some ⟨v, deadline⟩ ∧ now < deadline := by
  constructor
  · intro h
    obtain ⟨e, he, rfl⟩ := Option.map_eq_some_iff.mp h
    obtain ⟨he, hlive⟩ := Option.filter_eq_some_iff.mp he
    exact ⟨e.deadline, he, of_decide_eq_true hlive⟩
  · rintro ⟨deadline, hk, hlive⟩
    exact Option.map_eq_some_iff.mpr
      ⟨⟨v, deadline⟩, Option.filter_eq_some_iff.mpr ⟨hk, decide_eq_true hlive⟩, rfl⟩

/-- A read looks at its key alone. -/
theorem Store.get_congr {s' : Store K V} (h : s k = s' k) : s.get now k = s'.get now k := by
  rw [Store.get, Store.get, h]

/-! ### Writes -/

variable [DecidableEq K]

/-- Write a value with a deadline. -/
def Store.set (s : Store K V) (k : K) (v : V) (deadline : ℕ) : Store K V :=
  Function.update s k (some ⟨v, deadline⟩)

/-- Write a value under the deadline that the key has. -/
def Store.keep (s : Store K V) (k : K) (v : V) : Store K V :=
  Function.update s k ((s k).map fun e => ⟨v, e.deadline⟩)

/-- Delete a key. -/
def Store.del (s : Store K V) (k : K) : Store K V := Function.update s k none

/-- What is set is stored under its key. -/
@[simp] theorem Store.set_self : s.set k v deadline k = some ⟨v, deadline⟩ :=
  Function.update_self _ _ _

/-- And under no other. -/
theorem Store.set_of_ne (h : j ≠ k) : s.set k v deadline j = s j :=
  Function.update_of_ne h _ _

/-- A value that is replaced keeps its deadline. -/
theorem Store.keep_self (h : s k = some ⟨v, deadline⟩) (w : V) :
    s.keep k w k = some ⟨w, deadline⟩ := by
  rw [Store.keep, Function.update_self, h]
  rfl

/-- Other keys are not concerned. -/
theorem Store.keep_of_ne (h : j ≠ k) (w : V) : s.keep k w j = s j :=
  Function.update_of_ne h _ _

/-- Deleting one key leaves the others. -/
theorem Store.del_of_ne (h : j ≠ k) : s.del k j = s j :=
  Function.update_of_ne h _ _

end Expiring
