import BackendManager.Interleaving

/-!
# Threads That Are Not Interfered With

An unwinding rule for interleaved programs. Some threads are watched; `R` relates the shared
state of a run in which all threads move to that of a run in which the watched threads move
alone. If the statements of watched threads take related states to related states with the
same outcome, and those of all others do not leave the relation, then the watched threads do
in any run what they would have done alone.

The relation has to be chosen so that it is kept from both sides, and so that related states
give a watched thread the same answer; what it leaves out is what the watched threads cannot
see. Whether a thread is watched is a property of its local state, since it may only turn out as
a thread goes on, with the request that it receives, whom it acts for.

## Main results

* `Unwinding.alone`: the steps of the watched threads are a run, with the same outcomes.
* `Unwinding.agree`: two runs in which the watched threads take the same steps give them the
  same outcomes.
-/

namespace Interleaving.Program

variable {T G L A : Type*} [DecidableEq T] {P : Program T G L A}
  {ok : Config T G L → T → A → Prop} {c d c' d' : Config T G L} {w : L → Bool} {l₀ : L}
  {R : G → G → Prop} {moves moves' : List (Move T G L A)}

/-- What was scheduled in a step. -/
def Move.act (m : Move T G L A) : T × A := (m.thread, m.action)

/-- The step is one of a watched thread. -/
def Move.watched (w : L → Bool) (m : Move T G L A) : Bool := w (m.after.proc m.thread)

/-- **Unwinding conditions.** -/
structure Unwinding (P : Program T G L A) (ok : Config T G L → T → A → Prop)
    (w : L → Bool) (l₀ : L) (R : G → G → Prop) : Prop where
  /-- A thread is not watched before it starts. -/
  start : w l₀ = false
  /-- It is watched from its first step on, or never. -/
  stable : ∀ {t : T} {a : A} {g g' : G} {l l' : L}, P.exec t a g l = some (g', l') →
    l ≠ l₀ → w l' = w l
  /-- A statement of a watched thread has one outcome in related states, and leads to related
  states. -/
  consistent : ∀ {c : Config T G L} {t : T} {a : A} {g₀ g : G} {l : L}, ok c t a →
    R c.shared g₀ → P.exec t a c.shared (c.proc t) = some (g, l) → w l = true →
    ∃ g₁, P.exec t a g₀ (c.proc t) = some (g₁, l) ∧ R g g₁
  /-- A statement of another thread does not matter. -/
  respects : ∀ {c : Config T G L} {t : T} {a : A} {g₀ g : G} {l : L}, ok c t a →
    R c.shared g₀ → P.exec t a c.shared (c.proc t) = some (g, l) → w l = false → R g g₀

/-- `d'` is `d` with the watched threads alone. -/
structure Alone (w : L → Bool) (l₀ : L) (R : G → G → Prop) (d d' : Config T G L) :
    Prop where
  shared : R d.shared d'.shared
  same : ∀ t, w (d.proc t) = true → d'.proc t = d.proc t
  idle : ∀ t, w (d.proc t) = false → d'.proc t = l₀

/-- A step of a watched thread is taken alone as well. -/
theorem Alone.step_watched (U : Unwinding P ok w l₀ R)
    (h : Alone w l₀ R c c') {t : T} {a : A} (hok : ok c t a)
    (hstep : P.step c t a = some d) (hw : w (d.proc t) = true) :
    ∃ d', P.step c' t a = some d' ∧ Alone w l₀ R d d' := by
  obtain ⟨g, l, hexec, rfl⟩ := step_eq_some_iff.mp hstep
  replace hw : w l = true := by simpa using hw
  have hproc : c'.proc t = c.proc t := by
    by_cases hstart : c.proc t = l₀
    · rw [h.idle t (hstart ▸ U.start), hstart]
    · exact h.same t ((U.stable hexec hstart).symm.trans hw)
  obtain ⟨g₁, hexec', hR⟩ := U.consistent hok h.shared hexec hw
  refine ⟨⟨g₁, Function.update c'.proc t l⟩,
    step_eq_some_iff.mpr ⟨g₁, l, hproc ▸ hexec', rfl⟩, hR, fun u hu => ?_, fun u hu => ?_⟩
  · by_cases htu : u = t
    · subst htu
      simp
    · simp only [Function.update_of_ne htu] at hu ⊢
      exact h.same u hu
  · by_cases htu : u = t
    · subst htu
      simp [hw] at hu
    · simp only [Function.update_of_ne htu] at hu ⊢
      exact h.idle u hu

/-- A step of another thread is left out. -/
theorem Alone.step_other (U : Unwinding P ok w l₀ R)
    (h : Alone w l₀ R c c') {t : T} {a : A} (hok : ok c t a)
    (hstep : P.step c t a = some d) (hw : w (d.proc t) = false) :
    Alone w l₀ R d c' := by
  obtain ⟨g, l, hexec, rfl⟩ := step_eq_some_iff.mp hstep
  replace hw : w l = false := by simpa using hw
  refine ⟨U.respects hok h.shared hexec hw, fun u hu => ?_, fun u hu => ?_⟩
  · by_cases htu : u = t
    · subst htu
      simp [hw] at hu
    · simp only [Function.update_of_ne htu] at hu ⊢
      exact h.same u hu
  · by_cases htu : u = t
    · subst htu
      by_cases hstart : c.proc u = l₀
      · exact h.idle u (hstart ▸ U.start)
      · exact h.idle u ((U.stable hexec hstart).symm.trans hw)
    · simp only [Function.update_of_ne htu] at hu
      exact h.idle u hu

/-- **The watched threads alone.** -/
theorem Unwinding.alone (U : Unwinding P ok w l₀ R) (h : P.Trace ok c moves d)
    (hR : R c.shared c.shared) (hstart : ∀ t, c.proc t = l₀) :
    ∃ moves' d', P.Trace (fun _ _ _ => True) c moves' d' ∧
      moves'.map Move.act = (moves.filter (Move.watched w)).map Move.act ∧
      Alone w l₀ R d d' := by
  induction h with
  | nil =>
      refine ⟨[], c, .nil, rfl, hR, fun t ht => rfl, fun t ht => hstart t⟩
  | @snoc moves d e t a _ hok hstep ih =>
      obtain ⟨moves', d', htrace, hacts, halone⟩ := ih
      rw [List.filter_append, List.map_append, ← hacts]
      cases hw : w (e.proc t) with
      | true =>
          obtain ⟨e', hstep', halone'⟩ := halone.step_watched U hok hstep hw
          refine ⟨_, e', htrace.snoc trivial hstep', ?_, halone'⟩
          rw [List.filter_cons_of_pos (by exact hw), List.filter_nil, List.map_append]
          rfl
      | false =>
          refine ⟨moves', d', htrace, ?_, halone.step_other U hok hstep hw⟩
          rw [List.filter_cons_of_neg (by simp [Move.watched, hw]), List.filter_nil,
            List.map_nil, List.append_nil]

/-- A schedule has one run. -/
theorem Trace.unique {ok' : Config T G L → T → A → Prop} (h : P.Trace ok c moves d)
    (h' : P.Trace ok' c moves' d') (hacts : moves.map Move.act = moves'.map Move.act) :
    d = d' := by
  induction h generalizing moves' d' with
  | nil =>
      cases h' with
      | nil => rfl
      | snoc => simp at hacts
  | snoc _ _ hstep ih =>
      cases h' with
      | nil => simp at hacts
      | snoc hrun' _ hstep' =>
          rw [List.map_append, List.map_append] at hacts
          obtain ⟨hinit, hlast⟩ := List.append_inj' hacts rfl
          obtain rfl := ih hrun' hinit
          obtain ⟨rfl, rfl⟩ := Prod.mk.inj (List.cons.inj hlast).1
          exact Option.some.inj (hstep.symm.trans hstep')

/-- **Two runs** in which the watched threads take the same steps. -/
theorem Unwinding.agree {w' : L → Bool} {R' : G → G → Prop} (U : Unwinding P ok w l₀ R)
    (U' : Unwinding P ok w' l₀ R') (h : P.Trace ok c moves d) (h' : P.Trace ok c moves' d')
    (hR : R c.shared c.shared) (hR' : R' c.shared c.shared) (hstart : ∀ t, c.proc t = l₀)
    (hacts : (moves'.filter (Move.watched w')).map Move.act =
      (moves.filter (Move.watched w)).map Move.act) {t : T} (hw : w (d.proc t) = true) :
    d'.proc t = d.proc t := by
  obtain ⟨alone, e, htrace, halone, hsame⟩ := U.alone h hR hstart
  obtain ⟨alone', e', htrace', halone', hsame'⟩ := U'.alone h' hR' hstart
  obtain rfl := htrace.unique htrace' (by rw [halone, halone', hacts])
  have he := hsame.same t hw
  cases hw' : w' (d'.proc t) with
  | true => rw [← hsame'.same t hw', he]
  | false =>
      have hidle := hsame'.idle t hw'
      rw [← he, hidle, U.start] at hw
      cases hw

end Interleaving.Program
