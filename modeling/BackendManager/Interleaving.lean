import Mathlib.Data.List.Induction
import Mathlib.Logic.Function.Basic

/-!
# Interleaved Programs and Their Runs

This module is the concurrency layer of the development and names nothing of any
particular system. A `Program` says what one atomic statement of a thread does to the
shared state and to that thread's own state; a `Config` is the shared state together
with the state of every thread; a run executes statements of arbitrary threads in
arbitrary order.

Runs are taken relative to a side condition `ok` on the steps: `P.Run ok c d` is a run
from `c` to `d` each of whose steps satisfies `ok` in the configuration it is taken
from. `ok := fun _ _ _ => True` gives all interleavings. A conditional safety result
("in every run in which no step does such and such") is a statement about `P.Run ok`.

## Main results

* `Program.Run.invariant`: what holds at the start and survives every admitted step
  holds at the end of every run.
* `Program.Run.proc`: the same for a property of the local state of one thread.
* `Program.Outline.run`: the Owicki–Gries rule. A global invariant together with one
  local assertion per thread holds along every run, provided that each statement
  preserves the invariant, establishes its own thread's assertion, and does not
  interfere with the assertions of the other threads.
* `Program.Trace.around`, `Program.Trace.pairwise`: a run with its list of steps, for
  statements about which steps a run has taken and in which order.
* `Visited`: the configurations that a run has been in.
* `Along`: a condition on every step of a run and the steps before it.
* `Program.Solo`: a run in which one thread moves and the others stand still.
* `Program.exists_run_of_replay`, `Program.trace_of_record`: a schedule that is evaluated to
  its end is a run, so that concrete runs are found by computation.
-/

namespace Interleaving

variable {T G L A : Type*}

/-- A **program** of interleaved threads. `exec t a g l` is the atomic statement that
thread `t` executes in shared state `g` and local state `l` when the scheduler (and the
environment) chooses `a`; `none` means that this statement is not enabled, because the
thread is elsewhere or because the statement has to wait. -/
structure Program (T G L A : Type*) where
  /-- One atomic statement of one thread. -/
  exec : T → A → G → L → Option (G × L)

/-- A **configuration**: the shared state and the local state of every thread. -/
structure Config (T G L : Type*) where
  /-- What all threads see. -/
  shared : G
  /-- What each thread keeps for itself. -/
  proc : T → L

/-- Every element of a list satisfies `Q` together with the elements before it; `earlier` has
come before the list. -/
def Along {M : Type*} (Q : List M → M → Prop) (earlier : List M) : List M → Prop
  | [] => True
  | m :: later => Q earlier m ∧ Along Q (earlier ++ [m]) later

instance decidableAlong {M : Type*} {Q : List M → M → Prop}
    [∀ earlier m, Decidable (Q earlier m)] :
    ∀ earlier later : List M, Decidable (Along Q earlier later)
  | _, [] => instDecidableTrue
  | earlier, m :: later => @instDecidableAnd _ _ _ (decidableAlong (earlier ++ [m]) later)

/-- A property of each step and its past, over two parts of a run: the first part is in the past of
the second. -/
theorem along_append {M : Type*} {Q : List M → M → Prop} {earlier l l' : List M} :
    Along Q earlier (l ++ l') ↔ Along Q earlier l ∧ Along Q (earlier ++ l) l' := by
  induction l generalizing earlier with
  | nil => simp [Along]
  | cons m l ih => simp [Along, ih, and_assoc]

/-- The last element. -/
theorem along_snoc {M : Type*} {Q : List M → M → Prop} {l : List M} {m : M} :
    Along Q [] (l ++ [m]) ↔ Along Q [] l ∧ Q l m := by
  simp [along_append, Along]

namespace Program

variable [DecidableEq T] {P : Program T G L A} {ok : Config T G L → T → A → Prop}
  {c d e : Config T G L} {t : T} {a : A}

/-- Execute one statement of thread `t` under the choice `a`. -/
def step (P : Program T G L A) (c : Config T G L) (t : T) (a : A) : Option (Config T G L) :=
  (P.exec t a c.shared (c.proc t)).map fun r => ⟨r.1, Function.update c.proc t r.2⟩

/-- A step is a statement of the thread, applied to the shared state and to that
thread's entry alone. -/
theorem step_eq_some_iff :
    P.step c t a = some d ↔
      ∃ g l, P.exec t a c.shared (c.proc t) = some (g, l) ∧
        d = ⟨g, Function.update c.proc t l⟩ := by
  simp only [step, Option.map_eq_some_iff, Prod.exists]
  constructor
  · rintro ⟨g, l, h, rfl⟩
    exact ⟨g, l, h, rfl⟩
  · rintro ⟨g, l, h, rfl⟩
    exact ⟨g, l, h, rfl⟩

/-- The other threads stay where they are. -/
theorem proc_of_step_ne {u : T} (h : P.step c t a = some d) (hu : u ≠ t) :
    d.proc u = c.proc u := by
  obtain ⟨g, l, -, rfl⟩ := step_eq_some_iff.mp h
  exact Function.update_of_ne hu _ _

/-- **Runs.** `P.Run ok c d` leads from `c` to `d` by statements of arbitrary threads,
each admitted by `ok` in the configuration in which it is executed. -/
inductive Run (P : Program T G L A) (ok : Config T G L → T → A → Prop) :
    Config T G L → Config T G L → Prop
  | refl (c : Config T G L) : Run P ok c c
  | step {c d e : Config T G L} {t : T} {a : A} :
      Run P ok c d → ok d t a → P.step d t a = some e → Run P ok c e

/-- Runs compose. -/
theorem Run.trans (h₁ : P.Run ok c d) (h₂ : P.Run ok d e) : P.Run ok c e := by
  induction h₂ with
  | refl => exact h₁
  | step _ hok hstep ih => exact Run.step ih hok hstep

/-- Weakening the side condition keeps a run a run. -/
theorem Run.mono {ok' : Config T G L → T → A → Prop} (hle : ∀ c t a, ok c t a → ok' c t a)
    (h : P.Run ok c d) : P.Run ok' c d := by
  induction h with
  | refl => exact Run.refl _
  | step _ hok hstep ih => exact Run.step ih (hle _ _ _ hok) hstep

/-- **Invariance.** A property of configurations that every admitted step preserves is
preserved by every run. -/
theorem Run.invariant {Inv : Config T G L → Prop}
    (hstep : ∀ c d t a, Inv c → ok c t a → P.step c t a = some d → Inv d)
    (h : P.Run ok c d) (hc : Inv c) : Inv d := by
  induction h with
  | refl => exact hc
  | step _ hok hs ih => exact hstep _ _ _ _ ih hok hs

/-- What a thread preserves by its own statements it keeps along every run. -/
theorem Run.proc {Q : L → Prop} {u : T}
    (hstep : ∀ {a g l g' l'}, P.exec u a g l = some (g', l') → Q l → Q l')
    (h : P.Run ok c d) (hQ : Q (c.proc u)) : Q (d.proc u) := by
  induction h with
  | refl => exact hQ
  | @step d e t a _ _ hs ih =>
      obtain ⟨g, l, hexec, rfl⟩ := step_eq_some_iff.mp hs
      by_cases hu : u = t
      · subst hu
        simpa using hstep hexec ih
      · simpa [Function.update_of_ne hu] using ih

/-- A **proof outline** in the sense of Owicki and Gries: a global invariant `I` and an
assertion `Loc u` for every thread. `step` is local correctness: the executed statement
keeps `I` and establishes the next assertion of its own thread. `frame` is interference
freedom: it keeps the assertion of every other thread. -/
structure Outline (P : Program T G L A) (ok : Config T G L → T → A → Prop)
    (I : G → Prop) (Loc : T → G → L → Prop) : Prop where
  /-- The statement keeps the global invariant and its own thread's assertion. -/
  step : ∀ {c : Config T G L} {t : T} {a : A} {g : G} {l : L}, ok c t a → I c.shared →
    (∀ u, Loc u c.shared (c.proc u)) → P.exec t a c.shared (c.proc t) = some (g, l) →
    I g ∧ Loc t g l
  /-- The statement keeps the assertions of the other threads. -/
  frame : ∀ {c : Config T G L} {t u : T} {a : A} {g : G} {l : L}, u ≠ t → ok c t a →
    I c.shared → (∀ v, Loc v c.shared (c.proc v)) →
    P.exec t a c.shared (c.proc t) = some (g, l) → Loc u g (c.proc u)

/-- **The Owicki–Gries rule.** A proof outline that holds at the start of a run holds at
its end. -/
theorem Outline.run {I : G → Prop} {Loc : T → G → L → Prop} (O : P.Outline ok I Loc)
    (h : P.Run ok c d) (hI : I c.shared) (hL : ∀ u, Loc u c.shared (c.proc u)) :
    I d.shared ∧ ∀ u, Loc u d.shared (d.proc u) := by
  have hstep : ∀ c d t a, (I c.shared ∧ ∀ u, Loc u c.shared (c.proc u)) → ok c t a →
      P.step c t a = some d → I d.shared ∧ ∀ u, Loc u d.shared (d.proc u) := ?_
  · exact h.invariant hstep ⟨hI, hL⟩
  rintro c d t a ⟨hI, hL⟩ hok hs
  obtain ⟨g, l, hexec, rfl⟩ := step_eq_some_iff.mp hs
  obtain ⟨hI', hLt⟩ := O.step hok hI hL hexec
  refine ⟨hI', fun u => ?_⟩
  by_cases hu : u = t
  · subst hu
    simpa using hLt
  · simpa [Function.update_of_ne hu] using O.frame hu hok hI hL hexec

/-! ### Runs with their steps -/

/-- One step of a run: where it is taken, the statement, and where it leads. -/
structure Move (T G L A : Type*) where
  before : Config T G L
  thread : T
  action : A
  after : Config T G L

/-- A run from `c` together with its steps, oldest first. -/
inductive Trace (P : Program T G L A) (ok : Config T G L → T → A → Prop) (c : Config T G L) :
    List (Move T G L A) → Config T G L → Prop
  | nil : Trace P ok c [] c
  | snoc {moves : List (Move T G L A)} {d e : Config T G L} {t : T} {a : A} :
      Trace P ok c moves d → ok d t a → P.step d t a = some e →
      Trace P ok c (moves ++ [⟨d, t, a, e⟩]) e

variable {moves : List (Move T G L A)} {m : Move T G L A}

/-- The steps of a run, forgotten. -/
theorem Trace.run (h : P.Trace ok c moves d) : P.Run ok c d := by
  induction h with
  | nil => exact Run.refl c
  | snoc _ hok hstep ih => exact Run.step ih hok hstep

/-- A run under a condition is a run under a weaker one. -/
theorem Trace.mono {ok' : Config T G L → T → A → Prop} (hle : ∀ c t a, ok c t a → ok' c t a)
    (h : P.Trace ok c moves d) : P.Trace ok' c moves d := by
  induction h with
  | nil => exact .nil
  | snoc _ hok hstep ih => exact .snoc ih (hle _ _ _ hok) hstep

/-- Every run has its steps. -/
theorem Run.exists_trace (h : P.Run ok c d) : ∃ moves, P.Trace ok c moves d := by
  induction h with
  | refl => exact ⟨[], .nil⟩
  | step _ hok hstep ih =>
      obtain ⟨moves, hm⟩ := ih
      exact ⟨_, .snoc hm hok hstep⟩

/-- A step of a run is an admitted step, and the run leads to it and on from it. -/
theorem Trace.around (h : P.Trace ok c moves d) (hm : m ∈ moves) :
    P.Run ok c m.before ∧ P.step m.before m.thread m.action = some m.after ∧
      P.Run ok m.after d := by
  induction h with
  | nil => cases hm
  | snoc hrun hok hstep ih =>
      rcases List.mem_append.mp hm with hm | hm
      · obtain ⟨hbefore, hm', hafter⟩ := ih hm
        exact ⟨hbefore, hm', hafter.step hok hstep⟩
      · obtain rfl := List.mem_singleton.mp hm
        exact ⟨hrun.run, hstep, .refl _⟩

/-- The steps before one of them are a run to it. -/
theorem Trace.split {earlier later : List (Move T G L A)} (h : P.Trace ok c moves d)
    (hmoves : moves = earlier ++ m :: later) :
    P.Trace ok c earlier m.before ∧ P.step m.before m.thread m.action = some m.after := by
  induction h generalizing later with
  | nil => simp at hmoves
  | @snoc moves d e t a hrun hok hstep ih =>
      cases later using List.reverseRecOn with
      | nil =>
          obtain ⟨rfl, hlast⟩ := List.append_inj' hmoves rfl
          obtain rfl := (List.cons.inj hlast).1
          exact ⟨hrun, hstep⟩
      | append_singleton later x =>
          rw [← List.cons_append, ← List.append_assoc] at hmoves
          exact ih (List.append_inj' hmoves rfl).1

/-- Before a step of a run lies a run, all of whose steps precede it. -/
theorem Trace.before (h : P.Trace ok c moves d) (hm : m ∈ moves) :
    ∃ earlier, (earlier ++ [m]).Sublist moves ∧ P.Trace ok c earlier m.before := by
  obtain ⟨earlier, later, hmoves⟩ := List.append_of_mem hm
  refine ⟨earlier, ?_, (h.split hmoves).1⟩
  rw [hmoves]
  exact (List.singleton_sublist.mpr List.mem_cons_self).append_left earlier

/-- A relation between an earlier and a later step of a run holds of all its steps if it
holds whenever a run leads from the one to the other. -/
theorem Trace.pairwise {R : Move T G L A → Move T G L A → Prop}
    (hR : ∀ m m', P.Run ok c m.before → P.step m.before m.thread m.action = some m.after →
      P.Run ok m.after m'.before → P.step m'.before m'.thread m'.action = some m'.after → R m m')
    (h : P.Trace ok c moves d) : moves.Pairwise R := by
  induction h with
  | nil => exact .nil
  | snoc hrun hok hstep ih =>
      refine List.pairwise_append.mpr ⟨ih, List.pairwise_singleton _ _, fun m hm m' hm' => ?_⟩
      obtain rfl := List.mem_singleton.mp hm'
      obtain ⟨hbefore, hm, hafter⟩ := hrun.around hm
      exact hR m _ hbefore hm hafter hstep

/-- A run that begins with a given step. -/
theorem Trace.cons (hok : ok c t a) (hstep : P.step c t a = some d)
    (h : P.Trace ok d moves e) : P.Trace ok c (⟨c, t, a, d⟩ :: moves) e := by
  induction h with
  | nil => exact .snoc .nil hok hstep
  | snoc _ hok' hstep' ih => exact .snoc ih hok' hstep'

/-- A configuration that the run has been in. -/
def Visited {T G L A : Type*} (c : Config T G L) (moves : List (Move T G L A))
    (b : Config T G L) : Prop :=
  b = c ∨ ∃ m ∈ moves, b = m.after

/-- What a run has visited it has visited when it is longer. -/
theorem Visited.snoc {T G L A : Type*} {c b : Config T G L} {moves : List (Move T G L A)}
    (h : Visited c moves b) (m : Move T G L A) : Visited c (moves ++ [m]) b := by
  rcases h with h | ⟨m', hm', h⟩
  · exact .inl h
  · exact .inr ⟨m', List.mem_append_left _ hm', h⟩

/-- A run has been where it is. -/
theorem Trace.visited (h : P.Trace ok c moves d) : Visited c moves d := by
  cases h with
  | nil => exact .inl rfl
  | snoc => exact .inr ⟨_, List.mem_append_right _ (List.mem_singleton_self _), rfl⟩

/-! ### Runs of one thread -/

/-- `t` goes from `c` to `d`, and no other thread moves. -/
structure Solo (P : Program T G L A) (ok : Config T G L → T → A → Prop) (t : T)
    (c d : Config T G L) : Prop where
  run : P.Run ok c d
  proc : ∀ u, u ≠ t → d.proc u = c.proc u

/-- No step at all is a run of one thread. -/
theorem Solo.refl (c : Config T G L) : P.Solo ok t c c := ⟨.refl c, fun _ _ => rfl⟩

/-- Two runs of one thread, one after the other, are one. -/
theorem Solo.trans (h : P.Solo ok t c d) (h' : P.Solo ok t d e) : P.Solo ok t c e :=
  ⟨h.run.trans h'.run, fun u hu => (h'.proc u hu).trans (h.proc u hu)⟩

/-- One statement. -/
theorem Solo.of_exec {g : G} {l : L} (hok : ok c t a)
    (h : P.exec t a c.shared (c.proc t) = some (g, l)) :
    P.Solo ok t c ⟨g, Function.update c.proc t l⟩ :=
  ⟨(Run.refl c).step hok (step_eq_some_iff.mpr ⟨g, l, h, rfl⟩),
    fun _ hu => Function.update_of_ne hu _ _⟩

/-! ### Concrete runs -/

/-- Execute a schedule, checking the side condition before every statement. -/
def replay (P : Program T G L A) (ok : Config T G L → T → A → Prop)
    [∀ c t a, Decidable (ok c t a)] : Config T G L → List (T × A) → Option (Config T G L)
  | c, [] => some c
  | c, (t, a) :: rest =>
      if ok c t a then (P.step c t a).bind fun d => replay P ok d rest else none

/-- The first statement of a schedule; only its thread is looked at. -/
theorem replay_cons [∀ c t a, Decidable (ok c t a)] {f : T → L} {g g' : G} {l l' : L}
    {rest : List (T × A)} (hok : ok ⟨g, Function.update f t l⟩ t a)
    (h : P.exec t a g l = some (g', l')) :
    P.replay ok ⟨g, Function.update f t l⟩ ((t, a) :: rest) =
      P.replay ok ⟨g', Function.update f t l'⟩ rest := by
  have hstep : P.step ⟨g, Function.update f t l⟩ t a = some ⟨g', Function.update f t l'⟩ :=
    step_eq_some_iff.mpr ⟨g', l', by simpa using h, by rw [Function.update_idem]⟩
  rw [replay, if_pos hok, hstep, Option.bind_some]

/-- A schedule that executes to the end is a run. -/
theorem run_of_replay [∀ c t a, Decidable (ok c t a)] :
    ∀ {sched : List (T × A)} {c d : Config T G L},
      P.replay ok c sched = some d → P.Run ok c d
  | [], c, d, h => by
      obtain rfl : c = d := by simpa [replay] using h
      exact Run.refl c
  | (t, a) :: rest, c, d, h => by
      simp only [replay] at h
      split at h
      · rename_i hok
        obtain ⟨e, hstep, hrest⟩ := Option.bind_eq_some_iff.mp h
        exact (Run.step (Run.refl c) hok hstep).trans (run_of_replay hrest)
      · cases h

/-- A schedule whose last configuration passes a computable test gives a run to a
configuration with that property. -/
theorem exists_run_of_replay [∀ c t a, Decidable (ok c t a)] {p : Config T G L → Bool}
    {sched : List (T × A)} (h : (P.replay ok c sched).any p = true) :
    ∃ d, P.Run ok c d ∧ p d = true := by
  cases hd : P.replay ok c sched with
  | none => simp [hd] at h
  | some d => exact ⟨d, run_of_replay hd, by simpa [hd] using h⟩

/-- Execute a schedule and keep its steps. -/
def record (P : Program T G L A) (ok : Config T G L → T → A → Prop)
    [∀ c t a, Decidable (ok c t a)] :
    Config T G L → List (T × A) → Option (List (Move T G L A) × Config T G L)
  | c, [] => some ([], c)
  | c, (t, a) :: rest =>
      if ok c t a then
        (P.step c t a).bind fun d =>
          (record P ok d rest).map fun r => (⟨c, t, a, d⟩ :: r.1, r.2)
      else none

/-- It is a run with its steps. -/
theorem trace_of_record [∀ c t a, Decidable (ok c t a)] :
    ∀ {sched : List (T × A)} {c : Config T G L} {r : List (Move T G L A) × Config T G L},
      P.record ok c sched = some r → P.Trace ok c r.1 r.2
  | [], c, r, h => by
      obtain rfl := Option.some.inj h
      exact .nil
  | (t, a) :: rest, c, r, h => by
      rw [record] at h
      split at h
      · rename_i hok
        obtain ⟨d, hstep, hrest⟩ := Option.bind_eq_some_iff.mp h
        obtain ⟨r', hr', rfl⟩ := Option.map_eq_some_iff.mp hrest
        exact (trace_of_record hr').cons hok hstep
      · cases h

end Program

end Interleaving
