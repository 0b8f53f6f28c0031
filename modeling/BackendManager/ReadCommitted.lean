import Mathlib.Algebra.BigOperators.Group.Finset.Basic

/-!
# Tables under READ COMMITTED

A keyed table of a multi-version store as its transactions see it, at the granularity of
single statements. Nothing here names a particular schema; a database is a record of
such tables, committed and rolled back together.

`committed k` is the version of row `k` that every transaction reads, and `dirty k` the
uncommitted version of it, if there is one, together with the transaction that wrote it.
Holding the uncommitted version is holding the row lock: `put` is `none`, the statement
has to wait, while another transaction holds it. There is one slot per row, so the
exclusiveness of row locks is part of the data type and not a theorem about runs.

A table is keyed by the columns of one uniqueness constraint. A second constraint on the
same rows is a second table from the constrained columns to the key, that is, the unique
index itself, written by the same statement.

`keys` is a finite set that covers every row with a version. It is what a scan runs over
and what sums over the table range over; the two proof fields keep it a cover.

## Main results

* `Table.committed_commit`, `Table.written_commit`: a commit publishes exactly the
  versions its transaction wrote and releases exactly its locks.
* `Table.committed_commit_of_written`: a row locked by one transaction is untouched by
  the commit of any other.
* `Table.Private.undisturbed`, `Table.undisturbed_commit`: what one transaction does leaves
  the versions of the others, and the committed ones under them, as they are.
* `Table.Every.put`, `Table.Every.commit`: the rules for a property of all versions.
* `Table.InsertOnly.committed_commit`: where rows are only inserted, a committed row stays.
* `Table.Holds.committed_commit`: what a transaction holds is what its commit publishes.
* `Table.total_commit`: a commit that touches a single row changes the sum over the
  committed rows by the difference that this row makes.
-/

namespace ReadCommitted

/-- A keyed table with committed row versions and at most one uncommitted version per
row, held by the transaction that wrote it. -/
structure Table (T K V : Type*) where
  /-- The committed version of each row. -/
  committed : K → Option V
  /-- The uncommitted version of each row with its writer; `none` inside deletes. -/
  dirty : K → Option (T × Option V)
  /-- A finite cover of the rows with a version. -/
  keys : Finset K
  /-- Committed rows are covered. -/
  mem_keys_of_committed : ∀ {k : K}, committed k ≠ none → k ∈ keys
  /-- Uncommitted rows are covered. -/
  mem_keys_of_dirty : ∀ {k : K}, dirty k ≠ none → k ∈ keys

namespace Table

variable {T K V M : Type*}

/-- The empty table. -/
def empty : Table T K V where
  committed _ := none
  dirty _ := none
  keys := ∅
  mem_keys_of_committed h := absurd rfl h
  mem_keys_of_dirty h := absurd rfl h

/-- Nothing is committed in the empty table. -/
@[simp] theorem committed_empty (k : K) : (empty : Table T K V).committed k = none := rfl

section Reading

variable [DecidableEq T]

/-- The version of row `k` that transaction `t` has written and not yet committed. -/
def written (tb : Table T K V) (t : T) (k : K) : Option (Option V) :=
  (tb.dirty k).bind fun w => if w.1 = t then some w.2 else none

/-- What transaction `t` reads at row `k`: its own uncommitted version, else the
committed one. -/
def view (tb : Table T K V) (t : T) (k : K) : Option V :=
  (tb.written t k).getD (tb.committed k)

/-- Row `k` is not locked against `t`: nobody holds it, or `t` itself does. -/
def free (tb : Table T K V) (t : T) (k : K) : Bool :=
  (tb.dirty k).all fun w => w.1 = t

/-- The rows in which `t` sees a version satisfying `p`: the snapshot of one statement. -/
def scan (tb : Table T K V) (t : T) (p : V → Bool) : Finset K :=
  tb.keys.filter fun k => (tb.view t k).any p

/-- End transaction `t`: release its locks, publishing what it wrote if `publish`. -/
def finish (publish : Bool) (tb : Table T K V) (t : T) : Table T K V where
  committed k := if publish then tb.view t k else tb.committed k
  dirty k := (tb.dirty k).filter fun w => ¬ w.1 = t
  keys := tb.keys
  mem_keys_of_committed {k} h := by
    by_cases hd : tb.dirty k = none
    · refine tb.mem_keys_of_committed (k := k) fun hc => h ?_
      simp [view, written, hd, hc]
    · exact tb.mem_keys_of_dirty hd
  mem_keys_of_dirty {k} h := by
    refine tb.mem_keys_of_dirty (k := k) fun hd => h ?_
    simp [hd]

/-- COMMIT. -/
def commit (tb : Table T K V) (t : T) : Table T K V := finish true tb t

/-- ROLLBACK. -/
def rollback (tb : Table T K V) (t : T) : Table T K V := finish false tb t

/-! ### Reading -/

/-- And nothing is written in it by an open transaction. -/
@[simp] theorem written_empty (t : T) (k : K) : (empty : Table T K V).written t k = none := rfl

/-- `t` has written version `v` of row `k` when it occupies the row's slot. -/
theorem written_eq_some_iff {tb : Table T K V} {t : T} {k : K} {v : Option V} :
    tb.written t k = some v ↔ tb.dirty k = some (t, v) := by
  constructor
  · intro h
    obtain ⟨⟨u, w⟩, hw, h⟩ := Option.bind_eq_some_iff.mp h
    by_cases hu : u = t
    · simp only [hu, if_true, Option.some.injEq] at h
      rw [hw, hu, h]
    · simp [hu] at h
  · intro h
    simp [written, h]

/-- A row has at most one writer. -/
theorem written_inj {tb : Table T K V} {t u : T} {k : K} {v w : Option V}
    (ht : tb.written t k = some v) (hu : tb.written u k = some w) : t = u := by
  rw [written_eq_some_iff] at ht hu
  rw [ht, Option.some.injEq, Prod.mk.injEq] at hu
  exact hu.1

/-- A row written by one transaction is written by no other. -/
theorem written_eq_none_of_ne {tb : Table T K V} {t u : T} {k : K} {v : Option V}
    (ht : tb.written t k = some v) (hne : u ≠ t) : tb.written u k = none := by
  cases hu : tb.written u k with
  | none => rfl
  | some w => exact absurd (written_inj hu ht) hne

/-- A row is free for `t` exactly when no other transaction has written it. -/
theorem free_iff {tb : Table T K V} {t : T} {k : K} :
    tb.free t k = true ↔ ∀ u, u ≠ t → tb.written u k = none := by
  cases hd : tb.dirty k with
  | none => simp [free, written, hd]
  | some w =>
      simp only [free, hd, Option.all_some, decide_eq_true_eq, written, Option.bind_some]
      constructor
      · rintro rfl u hu
        exact if_neg fun h => hu h.symm
      · intro h
        by_contra hne
        have := h w.1 hne
        simp at this

/-- What a transaction has not written it sees as committed. -/
theorem view_of_written_eq_none {tb : Table T K V} {t : T} {k : K}
    (h : tb.written t k = none) : tb.view t k = tb.committed k := by
  rw [view, h, Option.getD_none]

/-- What it has written it sees as its own version. -/
theorem view_of_written {tb : Table T K V} {t : T} {k : K} {v : Option V}
    (h : tb.written t k = some v) : tb.view t k = v := by
  rw [view, h, Option.getD_some]

/-- A scan returns exactly the rows whose visible version satisfies the predicate. -/
theorem mem_scan {tb : Table T K V} {t : T} {p : V → Bool} {k : K} :
    k ∈ tb.scan t p ↔ ∃ v, tb.view t k = some v ∧ p v = true := by
  simp only [scan, Finset.mem_filter, Option.any_eq_true]
  refine ⟨fun h => h.2, fun h => ⟨?_, h⟩⟩
  obtain ⟨v, hv, -⟩ := h
  cases hw : tb.written t k with
  | none =>
      rw [view_of_written_eq_none hw] at hv
      exact tb.mem_keys_of_committed (by simp [hv])
  | some w =>
      refine tb.mem_keys_of_dirty fun hd => ?_
      simp [written, hd] at hw

/-! ### Ending a transaction -/

/-- A commit publishes what its transaction sees. -/
@[simp] theorem committed_commit (tb : Table T K V) (t : T) (k : K) :
    (tb.commit t).committed k = tb.view t k := by
  simp [commit, finish]

/-- A rollback publishes nothing. -/
@[simp] theorem committed_rollback (tb : Table T K V) (t : T) (k : K) :
    (tb.rollback t).committed k = tb.committed k := by
  simp [rollback, finish]

/-- Ending a transaction releases its own locks and no others. -/
theorem written_finish (b : Bool) (tb : Table T K V) (t u : T) (k : K) :
    (finish b tb t).written u k = if u = t then none else tb.written u k := by
  cases hd : tb.dirty k with
  | none => simp [finish, written, hd]
  | some w =>
      by_cases hw : w.1 = t
      · by_cases hu : u = t
        · simp [finish, written, hd, hu]
        · have : t ≠ u := fun h => hu h.symm
          simp [finish, written, hd, hw, hu, this]
      · have hkeep : (some w).filter (fun w => !decide (w.1 = t)) = some w := by
          simp [Option.filter, hw]
        by_cases hu : u = t
        · simp [finish, written, hd, hu]
        · simp [finish, written, hd, hkeep, hu]

/-- A commit ends the writes of its transaction and leaves those of the others. -/
@[simp] theorem written_commit (tb : Table T K V) (t u : T) (k : K) :
    (tb.commit t).written u k = if u = t then none else tb.written u k :=
  written_finish true tb t u k

/-- So does a rollback. -/
@[simp] theorem written_rollback (tb : Table T K V) (t u : T) (k : K) :
    (tb.rollback t).written u k = if u = t then none else tb.written u k :=
  written_finish false tb t u k

/-- A commit leaves the rows that other transactions hold as they were. -/
theorem committed_commit_of_written {tb : Table T K V} {t u : T} {k : K} {v : Option V}
    (hu : tb.written u k = some v) (hne : u ≠ t) :
    (tb.commit t).committed k = tb.committed k := by
  rw [committed_commit, view_of_written_eq_none (written_eq_none_of_ne hu hne.symm)]

/-- A commit leaves the rows that its transaction did not write as they were. -/
theorem committed_commit_of_written_eq_none {tb : Table T K V} {t : T} {k : K}
    (h : tb.written t k = none) : (tb.commit t).committed k = tb.committed k := by
  rw [committed_commit, view_of_written_eq_none h]

/-! ### Writing -/

section Put

variable [DecidableEq K]

/-- The error of an INSERT whose unique key is taken. -/
inductive UniqueViolation
  | mk
deriving DecidableEq

/-- Write version `v` of row `k` (`none` deletes) as transaction `t`, taking the row
lock. `none` when the row is locked by another transaction: the statement waits. -/
def put (tb : Table T K V) (t : T) (k : K) (v : Option V) : Option (Table T K V) :=
  if tb.free t k then
    some
      { committed := tb.committed
        dirty := Function.update tb.dirty k (some (t, v))
        keys := Insert.insert k tb.keys
        mem_keys_of_committed := fun h =>
          Finset.mem_insert_of_mem (tb.mem_keys_of_committed h)
        mem_keys_of_dirty := fun {j} h => by
          by_cases hj : j = k
          · exact hj ▸ Finset.mem_insert_self _ _
          · rw [Function.update_of_ne hj] at h
            exact Finset.mem_insert_of_mem (tb.mem_keys_of_dirty h) }
  else none

variable {tb tb' : Table T K V} {t u : T} {j k : K} {v : Option V}

/-- A statement waits exactly while the row is locked against it. -/
theorem put_eq_none_iff : tb.put t k v = none ↔ tb.free t k = false := by
  simp [put]

/-- A row that is written was free. -/
theorem free_of_put (h : tb.put t k v = some tb') : tb.free t k = true := by
  by_contra hf
  simp [put, hf] at h

/-- Writing publishes nothing. -/
theorem committed_put (h : tb.put t k v = some tb') : tb'.committed = tb.committed := by
  rw [put, if_pos (free_of_put h), Option.some.injEq] at h
  rw [← h]

/-- Writing changes the writer's own version of that row and nothing else. -/
theorem written_put (h : tb.put t k v = some tb') :
    tb'.written u j = if u = t ∧ j = k then some v else tb.written u j := by
  have hfree := free_of_put h
  rw [put, if_pos hfree, Option.some.injEq] at h
  subst h
  by_cases hj : j = k
  · subst hj
    by_cases hu : u = t
    · simp [written, hu]
    · have hne : t ≠ u := fun h => hu h.symm
      have hnone := free_iff.mp hfree u hu
      simp only [written, Function.update_self, Option.bind_some, hne, if_false, hu,
        false_and]
      exact hnone.symm
  · simp [written, hj]

/-- A write is seen by its own transaction. -/
theorem written_put_self (h : tb.put t k v = some tb') : tb'.written t k = some v := by
  simp [written_put h]

/-- It is no write of another transaction. -/
theorem written_put_of_ne (h : tb.put t k v = some tb') (hu : u ≠ t) :
    tb'.written u j = tb.written u j := by
  simp [written_put h, hu]

/-- It is no write of another row. -/
theorem written_put_of_key_ne (h : tb.put t k v = some tb') (hj : j ≠ k) :
    tb'.written u j = tb.written u j := by
  simp [written_put h, hj]

/-- INSERT of row `v` under the unique key `k`. `none`: the key is locked by another
transaction and the statement waits for it to end. An error: the key is taken. -/
def insert (tb : Table T K V) (t : T) (k : K) (v : V) :
    Option (Except UniqueViolation (Table T K V)) :=
  if (tb.view t k).isSome then
    if tb.free t k then some (.error .mk) else none
  else (tb.put t k (some v)).map .ok

/-- A successful INSERT found the key unused and wrote the row. -/
theorem insert_eq_ok_iff {v : V} :
    tb.insert t k v = some (.ok tb') ↔ tb.view t k = none ∧ tb.put t k (some v) = some tb' := by
  rw [insert]
  cases hv : tb.view t k with
  | none => simp
  | some w => cases tb.free t k <;> simp

/-- A unique violation means that `t` sees a row under the key, which no other
transaction holds. -/
theorem insert_eq_error_iff {v : V} {e : UniqueViolation} :
    tb.insert t k v = some (.error e) ↔ (tb.view t k).isSome ∧ tb.free t k = true := by
  rw [insert]
  cases hv : tb.view t k with
  | none => simp
  | some w => cases hf : tb.free t k <;> simp

/-- What goes on from an INSERT has written the row under an unused key, or found it taken. -/
theorem insert_map_cases {β : Type*} {v : V} {f : Except UniqueViolation (Table T K V) → β} {b : β}
    (h : (tb.insert t k v).map f = some b) :
    (∃ tb', tb.view t k = none ∧ tb.put t k (some v) = some tb' ∧ f (.ok tb') = b) ∨
      (tb.view t k).isSome ∧ f (.error .mk) = b := by
  obtain ⟨r, hr, h⟩ := Option.map_eq_some_iff.mp h
  cases r with
  | ok tb' =>
      obtain ⟨hview, hput⟩ := insert_eq_ok_iff.mp hr
      exact .inl ⟨tb', hview, hput, h⟩
  | error e => exact .inr ⟨(insert_eq_error_iff.mp hr).1, h⟩

end Put

/-! ### Transactions that touch at most one row

Most transactions write at most one row of each table. `Untouched` and `Sole` say which,
and turn a COMMIT into a single update of the committed rows. -/

section Footprint

variable [DecidableEq K] {tb tb' : Table T K V} {t u : T} {j k : K} {v w : Option V}

/-- Transaction `t` has written nothing in this table. -/
def Untouched (tb : Table T K V) (t : T) : Prop := ∀ k, tb.written t k = none

/-- Transaction `t` has written version `v` of row `k` and nothing else. -/
def Sole (tb : Table T K V) (t : T) (k : K) (v : Option V) : Prop :=
  tb.written t k = some v ∧ ∀ j, j ≠ k → tb.written t j = none

omit [DecidableEq K] in
/-- In the empty table no transaction has written anything. -/
theorem untouched_empty (t : T) : (empty : Table T K V).Untouched t := fun _ => rfl

omit [DecidableEq K] in
/-- After its commit a transaction begins with no writes. -/
theorem untouched_commit (tb : Table T K V) (t : T) : (tb.commit t).Untouched t :=
  fun k => by simp

omit [DecidableEq K] in
/-- After its rollback too. -/
theorem untouched_rollback (tb : Table T K V) (t : T) : (tb.rollback t).Untouched t :=
  fun k => by simp

omit [DecidableEq K] in
/-- A transaction without writes sees the committed rows. -/
theorem Untouched.view (h : tb.Untouched t) (k : K) : tb.view t k = tb.committed k :=
  view_of_written_eq_none (h k)

omit [DecidableEq K] in
/-- A transaction sees the row that is its only write. -/
theorem Sole.view (h : tb.Sole t k v) : tb.view t k = v := view_of_written h.1

omit [DecidableEq K] in
/-- It is not the writer of any row. -/
theorem Untouched.not_written (h : tb.Untouched t) : tb.written t k ≠ some v := by
  rw [h k]
  exact Option.some_ne_none v |>.symm

omit [DecidableEq K] in
/-- A row that the transaction has written is the one of its footprint. -/
theorem Sole.eq_of_written (h : tb.Sole t k v) (hw : tb.written t j = some w) :
    j = k ∧ w = v := by
  obtain rfl : j = k := by
    by_contra hj
    rw [h.2 j hj] at hw
    cases hw
  exact ⟨rfl, Option.some.inj (hw.symm.trans h.1)⟩

/-- The first write of a transaction. -/
theorem Untouched.put (h : tb.Untouched t) (hp : tb.put t k v = some tb') :
    tb'.Sole t k v :=
  ⟨written_put_self hp, fun j hj => by rw [written_put_of_key_ne hp hj, h j]⟩

/-- A further write to the same row. -/
theorem Sole.put (h : tb.Sole t k v) (hp : tb.put t k w = some tb') : tb'.Sole t k w :=
  ⟨written_put_self hp, fun j hj => by rw [written_put_of_key_ne hp hj, h.2 j hj]⟩

omit [DecidableEq K] in
/-- A footprint depends only on what the transaction has written. -/
theorem Untouched.congr (h : tb.Untouched t) (hw : tb'.written t = tb.written t) :
    tb'.Untouched t := fun k => by rw [hw, h k]

omit [DecidableEq K] in
/-- Being the only write is a matter of the transaction's own writes. -/
theorem Sole.congr (h : tb.Sole t k v) (hw : tb'.written t = tb.written t) :
    tb'.Sole t k v := by
  rw [Sole, hw]
  exact h

/-- Other transactions' writes do not show in `written u`. -/
theorem written_put_ne (hp : tb.put t k v = some tb') (hu : u ≠ t) :
    tb'.written u = tb.written u :=
  funext fun _ => written_put_of_ne hp hu

omit [DecidableEq K] in
/-- The commit of one transaction is nothing to the writes of another. -/
theorem written_commit_ne (tb : Table T K V) (hu : u ≠ t) :
    (tb.commit t).written u = tb.written u := funext fun k => by simp [hu]

omit [DecidableEq K] in
/-- Nor is its rollback. -/
theorem written_rollback_ne (tb : Table T K V) (hu : u ≠ t) :
    (tb.rollback t).written u = tb.written u := funext fun k => by simp [hu]

omit [DecidableEq K] in
/-- A rollback leaves the committed rows as they are, all of them. -/
theorem committed_rollback' (tb : Table T K V) (t : T) :
    (tb.rollback t).committed = tb.committed := funext fun k => by simp

omit [DecidableEq K] in
/-- A transaction that wrote nothing publishes nothing. -/
theorem Untouched.committed_commit (h : tb.Untouched t) :
    (tb.commit t).committed = tb.committed :=
  funext fun k => by rw [Table.committed_commit, h.view]

/-- A transaction that wrote one row publishes that row. -/
theorem Sole.committed_commit (h : tb.Sole t k v) :
    (tb.commit t).committed = Function.update tb.committed k v := by
  funext j
  by_cases hj : j = k
  · subst hj
    rw [Table.committed_commit, h.view, Function.update_self]
  · rw [committed_commit_of_written_eq_none (h.2 j hj), Function.update_of_ne hj]

/-- Transaction `t` has written this version and nothing else. -/
def Holds (tb : Table T K V) (t : T) : Option (K × Option V) → Prop
  | none => tb.Untouched t
  | some (k, v) => tb.Sole t k v

/-- The committed rows after a COMMIT that publishes this version. -/
def publish (rows : K → Option V) : Option (K × Option V) → K → Option V
  | none => rows
  | some (k, v) => Function.update rows k v

/-- A row that publishing changes is the one that is published. -/
theorem eq_some_of_publish_ne {rows : K → Option V} {held : Option (K × Option V)} {k : K}
    (h : publish rows held k ≠ rows k) : held = some (k, publish rows held k) := by
  cases held with
  | none => exact absurd rfl h
  | some r =>
      obtain ⟨k', v⟩ := r
      by_cases hk : k = k'
      · subst hk
        rw [publish, Function.update_self]
      · rw [publish, Function.update_of_ne hk] at h
        exact absurd rfl h

omit [DecidableEq K] in
/-- Holding at most one row is a matter of the transaction's own writes. -/
theorem Holds.congr {held : Option (K × Option V)} (h : tb.Holds t held)
    (hw : tb'.written t = tb.written t) : tb'.Holds t held := by
  cases held with
  | none => exact Untouched.congr h hw
  | some r => exact Sole.congr h hw

/-- **A transaction publishes what it holds.** -/
theorem Holds.committed_commit {held : Option (K × Option V)} (h : tb.Holds t held) :
    (tb.commit t).committed = publish tb.committed held := by
  cases held with
  | none => exact Untouched.committed_commit h
  | some r => exact Sole.committed_commit h

/-- The first write of a transaction replaces what it has seen under the key. -/
theorem Untouched.committed_of_put {seen : Option V} (h : tb.Untouched t)
    (hput : tb.put t k v = some tb') (hview : tb.view t k = seen) :
    ∀ j w, some (k, v) = some (j, w) → tb'.committed j = seen := by
  rintro j w hk
  obtain ⟨rfl, rfl⟩ := Prod.mk.inj (Option.some.inj hk)
  rw [committed_put hput, ← h.view, hview]

/-- From `tb` to `tb'` only the uncommitted rows of `t` have changed: what every statement
but COMMIT does to a table. -/
structure Private (t : T) (tb tb' : Table T K V) : Prop where
  /-- The committed rows are the same. -/
  committed : tb'.committed = tb.committed
  /-- So is what every other transaction has written. -/
  written : ∀ u, u ≠ t → tb'.written u = tb.written u

omit [DecidableEq K] in
/-- Doing nothing is private. -/
theorem Private.refl (t : T) (tb : Table T K V) : Private t tb tb := ⟨rfl, fun _ _ => rfl⟩

omit [DecidableEq K] in
/-- Private steps may be taken one after the other. -/
theorem Private.trans {tb'' : Table T K V} (h : Private t tb tb') (h' : Private t tb' tb'') :
    Private t tb tb'' :=
  ⟨h'.committed.trans h.committed, fun u hu => (h'.written u hu).trans (h.written u hu)⟩

/-- A write is private until it is committed. -/
theorem Private.of_put (h : tb.put t k v = some tb') : Private t tb tb' :=
  ⟨committed_put h, fun _ hu => written_put_ne h hu⟩

omit [DecidableEq K] in
/-- A rollback is private. -/
theorem Private.of_rollback (t : T) (tb : Table T K V) : Private t tb (tb.rollback t) :=
  ⟨committed_rollback' tb t, fun _ hu => written_rollback_ne tb hu⟩

/-- From `tb` to `tb'` transaction `u` is left undisturbed: its own versions and the
committed ones under them are the same. -/
structure Undisturbed (u : T) (tb tb' : Table T K V) : Prop where
  written : tb'.written u = tb.written u
  held : ∀ {k : K} {v : Option V}, tb.written u k = some v → tb'.committed k = tb.committed k

omit [DecidableEq K] in
/-- What one transaction does in private disturbs no other. -/
theorem Private.undisturbed (h : Private t tb tb') (hu : u ≠ t) : Undisturbed u tb tb' :=
  ⟨h.written u hu, fun _ => by rw [h.committed]⟩

omit [DecidableEq K] in
/-- A commit does not disturb the writes of another transaction. -/
theorem undisturbed_commit (tb : Table T K V) (hu : u ≠ t) : Undisturbed u tb (tb.commit t) :=
  ⟨written_commit_ne tb hu, fun hv => committed_commit_of_written hv hu⟩

end Footprint

/-! ### Properties of all versions -/

section Every

variable {tb tb' : Table T K V} {t u : T} {k : K} {v : V} {w : Option V} {P : K → V → Prop}

/-- Every version of every row, committed or not, satisfies `P`. -/
structure Every (P : K → V → Prop) (tb : Table T K V) : Prop where
  /-- The committed versions do. -/
  committed : ∀ {k : K} {v : V}, tb.committed k = some v → P k v
  /-- So do the uncommitted ones. -/
  written : ∀ {u : T} {k : K} {v : V}, tb.written u k = some (some v) → P k v

/-- Every version in the empty table has every property. -/
theorem every_empty : (empty : Table T K V).Every P :=
  ⟨fun h => (nomatch h), fun h => (nomatch h)⟩

/-- What a transaction reads is a version. -/
theorem Every.view (h : tb.Every P) (hv : tb.view t k = some v) : P k v := by
  cases hw : tb.written t k with
  | none =>
      rw [view_of_written_eq_none hw] at hv
      exact h.committed hv
  | some w =>
      rw [view_of_written hw] at hv
      exact h.written (hv ▸ hw)

/-- A statement has to establish `P` for the version that it writes. -/
theorem Every.put [DecidableEq K] (h : tb.Every P) (hp : tb.put t k w = some tb')
    (hv : ∀ v, w = some v → P k v) : tb'.Every P := by
  constructor
  · intro j v hj
    rw [committed_put hp] at hj
    exact h.committed hj
  · intro u j v hj
    rw [written_put hp] at hj
    split at hj
    · rename_i hself
      rw [hself.2]
      exact hv v (Option.some.inj hj)
    · exact h.written hj

/-- A commit makes a written version a committed one, and creates none. -/
theorem Every.commit (h : tb.Every P) (t : T) : (tb.commit t).Every P := by
  constructor
  · intro k v hk
    rw [committed_commit] at hk
    exact h.view hk
  · intro u k v hk
    rw [written_commit] at hk
    split at hk
    · cases hk
    · exact h.written hk

/-- A rollback drops versions, and creates none. -/
theorem Every.rollback (h : tb.Every P) (t : T) : (tb.rollback t).Every P := by
  constructor
  · intro k v hk
    rw [committed_rollback] at hk
    exact h.committed hk
  · intro u k v hk
    rw [written_rollback] at hk
    split at hk
    · cases hk
    · exact h.written hk

end Every

/-! ### Tables without updates -/

section InsertOnly

variable {tb tb' : Table T K V} {t : T} {k : K} {v : V}

/-- The uncommitted versions are those of new rows, as they are where no statement updates or
deletes a row. -/
def InsertOnly (tb : Table T K V) : Prop :=
  ∀ u k w, tb.written u k = some w → tb.committed k = none ∧ w ≠ none

/-- The empty table has been written by inserts only. -/
theorem insertOnly_empty : (empty : Table T K V).InsertOnly := by
  intro u k w hw
  rw [written_empty] at hw
  cases hw

/-- Such a transaction reads what is committed, and its own rows besides. -/
theorem InsertOnly.view (h : tb.InsertOnly) (hk : tb.committed k = some v) :
    tb.view t k = some v := by
  cases hw : tb.written t k with
  | none => rw [view_of_written_eq_none hw, hk]
  | some w =>
      have hnone := (h t k w hw).1
      rw [hk] at hnone
      cases hnone

/-- An insert that is granted its key is the insert of a row that has not been there. -/
theorem InsertOnly.insert [DecidableEq K] (h : tb.InsertOnly)
    (hi : tb.insert t k v = some (.ok tb')) : tb'.InsertOnly := by
  obtain ⟨hview, hput⟩ := insert_eq_ok_iff.mp hi
  have hnone : tb.committed k = none := by
    cases hk : tb.committed k with
    | none => rfl
    | some v' =>
        rw [h.view hk] at hview
        cases hview
  intro u j w hw
  rw [committed_put hput]
  rw [written_put hput] at hw
  split at hw
  · rename_i hself
    obtain rfl := Option.some.inj hw
    exact ⟨hself.2 ▸ hnone, Option.some_ne_none v⟩
  · exact h u j w hw

/-- The commit of inserts removes no row. -/
theorem InsertOnly.commit (h : tb.InsertOnly) (t : T) : (tb.commit t).InsertOnly := by
  intro u k w hw
  rw [written_commit] at hw
  split at hw
  · cases hw
  · rename_i hu
    obtain ⟨hnone, hw'⟩ := h u k w hw
    rw [committed_commit_of_written hw hu]
    exact ⟨hnone, hw'⟩

/-- Nor does a rollback. -/
theorem InsertOnly.rollback (h : tb.InsertOnly) (t : T) : (tb.rollback t).InsertOnly := by
  intro u k w hw
  rw [written_rollback] at hw
  rw [committed_rollback]
  split at hw
  · cases hw
  · exact h u k w hw

/-- A committed row stays. -/
theorem InsertOnly.committed_commit (h : tb.InsertOnly) (hk : tb.committed k = some v) (t : T) :
    (tb.commit t).committed k = some v := by
  rw [Table.committed_commit, h.view hk]

end InsertOnly

end Reading

/-! ### Sums over the committed rows -/

section Total

variable [AddCommGroup M]

/-- The sum of `f` over the committed rows. -/
def total (tb : Table T K V) (f : V → M) : M :=
  ∑ k ∈ tb.keys, (tb.committed k).elim 0 f

/-- The total over the empty table. -/
@[simp] theorem total_empty (f : V → M) : (empty : Table T K V).total f = 0 := rfl

/-- The sum may be taken over any finite cover of the committed rows. -/
theorem total_eq_sum_of_subset [DecidableEq K] {tb : Table T K V} {s : Finset K} (f : V → M)
    (h : tb.keys ⊆ s) : tb.total f = ∑ k ∈ s, (tb.committed k).elim 0 f := by
  refine Finset.sum_subset h fun k _ hk => ?_
  have hnone : tb.committed k = none := by
    by_contra hc
    exact hk (tb.mem_keys_of_committed hc)
  rw [hnone, Option.elim_none]

/-- Tables with the same committed rows have the same sums. -/
theorem total_congr [DecidableEq K] {tb tb' : Table T K V} (f : V → M)
    (h : tb'.committed = tb.committed) : tb'.total f = tb.total f := by
  have hl : tb'.keys ⊆ tb'.keys ∪ tb.keys := Finset.subset_union_left
  have hr : tb.keys ⊆ tb'.keys ∪ tb.keys := Finset.subset_union_right
  rw [total_eq_sum_of_subset f hl, total_eq_sum_of_subset f hr, h]

/-- A sum whose terms all vanish vanishes. -/
theorem total_eq_zero {tb : Table T K V} (f : V → M)
    (h : ∀ k v, tb.committed k = some v → f v = 0) : tb.total f = 0 := by
  refine Finset.sum_eq_zero fun k _ => ?_
  cases hc : tb.committed k with
  | none => rfl
  | some v => exact h k v hc

/-- **Commit of a single row.** If `k` is the only row that `t` wrote, its commit moves
the sum by the difference between the new and the old version of `k`. -/
theorem total_commit [DecidableEq T] [DecidableEq K] {tb : Table T K V} {t : T} {k : K} (f : V → M)
    (h : ∀ j, j ≠ k → tb.written t j = none) :
    (tb.commit t).total f =
      tb.total f + ((tb.view t k).elim 0 f - (tb.committed k).elim 0 f) := by
  have hsub : tb.keys ⊆ Insert.insert k tb.keys := Finset.subset_insert _ _
  have hsub' : (tb.commit t).keys ⊆ Insert.insert k tb.keys := Finset.subset_insert _ _
  rw [total_eq_sum_of_subset f hsub', total_eq_sum_of_subset f hsub, ← sub_eq_iff_eq_add',
    ← Finset.sum_sub_distrib, Finset.sum_eq_single k]
  · rw [committed_commit]
  · intro j _ hj
    rw [committed_commit_of_written_eq_none (h j hj), sub_self]
  · intro hk
    exact absurd (Finset.mem_insert_self _ _) hk

/-- The commit of a newly inserted row adds its contribution to the sum. -/
theorem Sole.total_commit [DecidableEq T] [DecidableEq K]
    {tb : Table T K V} {t : T} {k : K} {v : V} (f : V → M) (h : tb.Sole t k (some v))
    (hk : tb.committed k = none) : (tb.commit t).total f = tb.total f + f v := by
  rw [Table.total_commit f h.2, h.view, hk]
  simp

end Total

end Table

end ReadCommitted
