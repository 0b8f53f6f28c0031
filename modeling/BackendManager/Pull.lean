import Mathlib.Data.List.Basic

/-!
# Pulling from a Source

A consumer asks a source for one element after another. A source is a function of its state,
which yields an element or has to wait; what a consumer observes in `n` requests is `run`. A
queue in front of a source (`prepend`) is emptied first. Nothing here names a particular
program.

The state of a source may be anything: a list that is consumed, a counter, or nothing at all. A
source that has to wait yields `none`, which is not the end: it may yield later, when its state
has changed from outside. The queue of `prepend` is part of the state of the composed source, so
that `run` can be composed, and the laws of the module are equations between runs of any length.

## Main results

* `run_prepend`: the queue, and then the source.
* `run_prepend_uncons`: a queue in front of the rest of a list is the list.
* `run_prepend_constant`: a queue in front of a source of one element.
-/

namespace Pull

variable {α σ : Type*}

/-- A **source**: what one request yields, and the state afterwards. -/
abbrev Source (α σ : Type*) := σ → Option (α × σ)

/-- What `n` requests observe, and the state that they leave; a source that waits ends the
observation. -/
def run (source : Source α σ) : ℕ → σ → List α × σ
  | 0, s => ([], s)
  | n + 1, s =>
      match source s with
      | none => ([], s)
      | some (a, s') => (a :: (run source n s').1, (run source n s').2)

/-- A list, which waits at its end. -/
def uncons : Source α (List α)
  | [] => none
  | a :: l => some (a, l)

/-- One element for ever. -/
def constant (a : α) : Source α σ := fun s => some (a, s)

/-- A queue in front of a source. -/
def prepend (source : Source α σ) : Source α (List α × σ)
  | (a :: queue, s) => some (a, queue, s)
  | ([], s) => (source s).map fun r => (r.1, [], r.2)

theorem run_uncons (n : ℕ) (l : List α) : run uncons n l = (l.take n, l.drop n) := by
  induction n generalizing l with
  | zero => simp [run]
  | succ n ih =>
      cases l with
      | nil => simp [run, uncons]
      | cons a l => simp [run, uncons, ih]

theorem run_constant (n : ℕ) (a : α) (s : σ) :
    run (constant a) n s = (List.replicate n a, s) := by
  induction n with
  | zero => rfl
  | succ n ih => simp [run, constant, List.replicate_succ, ih]

/-- An empty queue is not noticed. -/
theorem run_prepend_nil (source : Source α σ) (n : ℕ) (s : σ) :
    run (prepend source) n ([], s) = ((run source n s).1, [], (run source n s).2) := by
  induction n generalizing s with
  | zero => rfl
  | succ n ih =>
      rw [run, run, prepend]
      cases source s with
      | none => rfl
      | some r => simp [ih]

/-- **The queue, and then the source.** -/
theorem run_prepend (source : Source α σ) (n : ℕ) (queue : List α) (s : σ) :
    run (prepend source) n (queue, s) =
      (queue.take n ++ (run source (n - queue.length) s).1, queue.drop n,
        (run source (n - queue.length) s).2) := by
  induction queue generalizing n with
  | nil => simp [run_prepend_nil]
  | cons a queue ih =>
      cases n with
      | zero => simp [run]
      | succ n => simp [run, prepend, ih]

/-- A queue in front of the rest of a list is the list. -/
theorem run_prepend_uncons (n : ℕ) (queue rest : List α) :
    (run (prepend uncons) n (queue, rest)).1 = (queue ++ rest).take n ∧
      (run (prepend uncons) n (queue, rest)).2.1 ++ (run (prepend uncons) n (queue, rest)).2.2 =
        (queue ++ rest).drop n := by
  rw [run_prepend, run_uncons]
  exact ⟨List.take_append.symm, List.drop_append.symm⟩

/-- A queue in front of one element for ever is the queue, and then that element. -/
theorem run_prepend_constant (n : ℕ) (a : α) (queue : List α) (s : σ) :
    (run (prepend (constant a)) n (queue, s)).1 = (queue ++ List.replicate n a).take n ∧
      (run (prepend (constant a)) n (queue, s)).2.2 = s := by
  rw [run_prepend, run_constant, List.take_append, List.take_replicate]
  have hmin : min (n - queue.length) n = n - queue.length := by omega
  exact ⟨by rw [hmin], rfl⟩

end Pull
