import Mathlib.Order.CompletePartialOrder
import Mathlib.Order.Interval.Set.Disjoint
import Mathlib.Logic.Function.Basic

/-!
# Consecutive Half-Open Windows

A log that is cut into consecutive half-open windows `[s, e)`, each of which begins where
the one before it ended, is given here by the partial function `w` that takes the start of
a window to its end. Nothing in this module names what is logged or who closes a window.

`Frontier w m` says that `m` is the greatest end of a window, and `Tiling w m` that the
windows of `w` fit together up to the frontier `m`. A window may be empty; it is then the
last one, since its start is taken and the frontier does not move past it.

If windows are closed at ends that may come before their starts, they still form a
`Chain w m`: each began at the frontier of its time. Such a window is a last one as well.

## Main results

* `Frontier.unique`: the windows determine the frontier.
* `Tiling.extend`: closing the window that begins at the frontier gives a tiling.
* `Tiling.start_unique`: a point lies in at most one window.
* `Chain.extend`: closing the window that begins at the frontier, at whichever end, gives a
  chain.
* `Chain.disjoint`: the windows of a chain are disjoint.
* `Chain.taken_iff`: no window can be closed any more as soon as one ends no later than it
  starts.
-/

namespace Windows

variable {α : Type*} [LinearOrder α] {w : α → Option α} {m s e x : α}

/-- The point `x` lies in the window from `s` to `e`. -/
def Within (s e x : α) : Prop := s ≤ x ∧ x < e

instance (s e x : α) : Decidable (Within s e x) := inferInstanceAs (Decidable (_ ∧ _))

/-- `m` is the greatest end of a window, or the bottom if there is no window. -/
structure Frontier [OrderBot α] (w : α → Option α) (m : α) : Prop where
  le_frontier : ∀ {s e}, w s = some e → e ≤ m
  attained : m = ⊥ ∨ ∃ s, w s = some m

/-- The windows determine the frontier. -/
theorem Frontier.unique [OrderBot α] {m' : α} (h : Frontier w m) (h' : Frontier w m') :
    m = m' := by
  apply le_antisymm
  · rcases h.attained with rfl | ⟨s, hs⟩
    · exact bot_le
    · exact h'.le_frontier hs
  · rcases h'.attained with rfl | ⟨s, hs⟩
    · exact bot_le
    · exact h.le_frontier hs

/-- A window is the one that is closed last, or an older one. -/
theorem window_of_update {e' : α} (h : Function.update w m (some e) s = some e') :
    (s = m ∧ e' = e) ∨ (s ≠ m ∧ w s = some e') := by
  by_cases hsm : s = m
  · subst hsm
    rw [Function.update_self, Option.some.injEq] at h
    exact .inl ⟨rfl, h.symm⟩
  · rw [Function.update_of_ne hsm] at h
    exact .inr ⟨hsm, h⟩

/-- The windows `w` are consecutive and reach from the bottom to the frontier `m`. -/
structure Tiling [OrderBot α] (w : α → Option α) (m : α) : Prop where
  /-- A window ends no earlier than it starts. -/
  le : ∀ {s e}, w s = some e → s ≤ e
  /-- A window ends before the next one starts. -/
  apart : ∀ {s e s' e'}, w s = some e → w s' = some e' → s < s' → e ≤ s'
  /-- No window reaches past the frontier. -/
  le_frontier : ∀ {s e}, w s = some e → e ≤ m
  /-- Every point before the frontier lies in a window. -/
  cover : ∀ {x}, x < m → ∃ s e, w s = some e ∧ Within s e x
  /-- The frontier is the bottom or the end of a window. -/
  attained : m = ⊥ ∨ ∃ s, w s = some m

namespace Tiling

variable [OrderBot α]

/-- Before any window is closed the frontier is the bottom. -/
theorem empty : Tiling (fun _ : α => none) ⊥ where
  le h := by cases h
  apart h := by cases h
  le_frontier h := by cases h
  cover h := absurd h not_lt_bot
  attained := .inl rfl

/-- **A point lies in at most one window.** -/
theorem start_unique (h : Tiling w m) {s' e' : α} (hs : w s = some e) (hs' : w s' = some e')
    (hx : Within s e x) (hx' : Within s' e' x) : s = s' := by
  rcases lt_trichotomy s s' with hlt | heq | hgt
  · have hle : e ≤ s' := h.apart hs hs' hlt
    exact absurd (hx.2.trans_le (hle.trans hx'.1)) (lt_irrefl x)
  · exact heq
  · have hle : e' ≤ s := h.apart hs' hs hgt
    exact absurd (hx'.2.trans_le (hle.trans hx.1)) (lt_irrefl x)

theorem frontier (h : Tiling w m) : Frontier w m := ⟨h.le_frontier, h.attained⟩

/-- **Closing the next window.** It begins at the frontier, where no window begins yet, and
its end is the new frontier. -/
theorem extend (h : Tiling w m) (hm : w m = none) (he : m ≤ e) :
    Tiling (Function.update w m (some e)) e := by
  refine ⟨fun hs => ?_, fun hs hs' hlt => ?_, fun hs => ?_, fun {x} hx => ?_,
    .inr ⟨m, Function.update_self _ _ _⟩⟩
  · rcases window_of_update hs with ⟨rfl, rfl⟩ | ⟨-, hs⟩
    · exact he
    · exact h.le hs
  · rcases window_of_update hs with ⟨rfl, rfl⟩ | ⟨-, hs₁⟩ <;>
      rcases window_of_update hs' with ⟨rfl, rfl⟩ | ⟨-, hs₂⟩
    · exact absurd hlt (lt_irrefl _)
    · have hend := (h.le hs₂).trans (h.le_frontier hs₂)
      exact absurd (hlt.trans_le hend) (lt_irrefl _)
    · exact h.le_frontier hs₁
    · exact h.apart hs₁ hs₂ hlt
  · rcases window_of_update hs with ⟨rfl, rfl⟩ | ⟨-, hs⟩
    · exact le_refl _
    · exact (h.le_frontier hs).trans he
  · rcases lt_or_ge x m with hlt | hge
    · obtain ⟨s, e', hs, hwithin⟩ := h.cover hlt
      have hsm : s ≠ m := by
        rintro rfl
        rw [hm] at hs
        cases hs
      exact ⟨s, e', by rw [Function.update_of_ne hsm, hs], hwithin⟩
    · exact ⟨m, e, Function.update_self _ _ _, hge, hx⟩

end Tiling

/-- Each of the windows `w` began at the frontier of its time, and `m` is the frontier. -/
structure Chain [OrderBot α] (w : α → Option α) (m : α) : Prop extends Frontier w m where
  /-- A window ends before the next one starts. -/
  apart : ∀ {s e s' e'}, w s = some e → w s' = some e' → s < s' → e ≤ s'
  /-- A window that ends no later than it starts is the last one. -/
  last : ∀ {s e}, w s = some e → e ≤ s → s = m

namespace Chain

variable [OrderBot α]

theorem empty : Chain (fun _ : α => none) ⊥ where
  le_frontier h := by cases h
  attained := .inl rfl
  apart h := by cases h
  last h := by cases h

/-- No window starts after the frontier. -/
theorem start_le (h : Chain w m) (hs : w s = some e) : s ≤ m := by
  rcases le_or_gt e s with hle | hlt
  · exact (h.last hs hle).le
  · exact hlt.le.trans (h.le_frontier hs)

/-- **The windows are disjoint.** -/
theorem disjoint (h : Chain w m) {s' e' : α} (hs : w s = some e) (hs' : w s' = some e')
    (hne : s ≠ s') : Disjoint (Set.Ico s e) (Set.Ico s' e') := by
  rcases lt_or_gt_of_ne hne with hlt | hgt
  · exact Set.Ico_disjoint_Ico.mpr
      ((min_le_left _ _).trans ((h.apart hs hs' hlt).trans (le_max_right _ _)))
  · exact Set.Ico_disjoint_Ico.mpr
      ((min_le_right _ _).trans ((h.apart hs' hs hgt).trans (le_max_left _ _)))

/-- **Closing the next window**, at an end before or after its start. -/
theorem extend (h : Chain w m) (hm : w m = none) (e : α) :
    Chain (Function.update w m (some e)) (max m e) := by
  refine ⟨⟨fun hs => ?_, ?_⟩, fun hs hs' hlt => ?_, fun hs hle => ?_⟩
  · rcases window_of_update hs with ⟨rfl, rfl⟩ | ⟨-, hs⟩
    · exact le_max_right _ _
    · exact (h.le_frontier hs).trans (le_max_left _ _)
  · rcases le_or_gt m e with hle | hlt
    · right
      exact ⟨m, by rw [Function.update_self, max_eq_right hle]⟩
    · rcases h.attained with rfl | ⟨s, hs⟩
      · exact absurd hlt not_lt_bot
      · have hsm : s ≠ m := by
          rintro rfl
          rw [hm] at hs
          cases hs
        right
        exact ⟨s, by rw [Function.update_of_ne hsm, hs, max_eq_left hlt.le]⟩
  · rcases window_of_update hs with ⟨rfl, rfl⟩ | ⟨-, hs₁⟩ <;>
      rcases window_of_update hs' with ⟨rfl, rfl⟩ | ⟨-, hs₂⟩
    · exact absurd hlt (lt_irrefl _)
    · exact absurd (hlt.trans_le (h.start_le hs₂)) (lt_irrefl _)
    · exact h.le_frontier hs₁
    · exact h.apart hs₁ hs₂ hlt
  · rcases window_of_update hs with ⟨rfl, rfl⟩ | ⟨hne, hs⟩
    · exact (max_eq_left hle).symm
    · exact absurd (h.last hs hle) hne

/-- **The start of the next window is taken** if and only if some window ends no later than it
starts. -/
theorem taken_iff (h : Chain w m) : w m ≠ none ↔ ∃ s e, w s = some e ∧ e ≤ s := by
  constructor
  · intro hm
    obtain ⟨e, he⟩ := Option.ne_none_iff_exists'.mp hm
    exact ⟨m, e, he, h.le_frontier he⟩
  · rintro ⟨s, e, hs, hle⟩ hm
    obtain rfl := h.last hs hle
    rw [hm] at hs
    cases hs

end Chain

end Windows
