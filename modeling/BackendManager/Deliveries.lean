import Mathlib.Data.List.Basic

/-!
# At-Least-Once Deliveries to a Deduplicating Handler

A handler that remembers the keys of what it has processed, and ignores what it has seen
before, is exposed to deliveries in any order and any number. What it makes of them is what
its step function makes of the first deliveries. Nothing here names a particular handler.

The state of the handler is what it has remembered together with its view of the world. A
delivery whose key is remembered is answered and changes nothing; any other one is applied and
remembered. Hence a redelivery, however late, cannot overwrite what was delivered in between,
and the order of the first deliveries is the order that counts. The invariant of the handler and
the events that it can be sent are parameters of the rule.

## Main results

* `view_foldl`: the state after any deliveries is the fold over the first ones.
* `foldl_of_getLast?`: the last step of such a fold.
-/

namespace Deliveries

variable {E K S V : Type*} [DecidableEq K] {key : E → K} {seen : K → Bool}

/-- The deliveries whose key has not been seen, neither at the start nor earlier in the
list. -/
def firsts (key : E → K) (seen : K → Bool) : List E → List E
  | [] => []
  | e :: rest =>
      if seen (key e) then firsts key seen rest
      else e :: firsts key (fun k => k = key e || seen k) rest

/-- **The state after any deliveries is the fold over the first ones.** The handler has an
invariant; on events that satisfy `P` it does nothing if it has seen the key, and else
remembers the key and takes one step. -/
theorem view_foldl {handle : S → E → S} {mem : S → K → Bool} {view : S → V}
    {step : V → E → V} {I : S → Prop} {P : E → Prop}
    (hold : ∀ s e, I s → P e → mem s (key e) = true → handle s e = s)
    (hnew : ∀ s e, I s → P e → mem s (key e) = false →
      I (handle s e) ∧ (∀ k, mem (handle s e) k = (decide (k = key e) || mem s k)) ∧
        view (handle s e) = step (view s) e)
    {ds : List E} {s : S} (hI : I s) (hP : ∀ e ∈ ds, P e) :
    view (ds.foldl handle s) = (firsts key (mem s) ds).foldl step (view s) := by
  induction ds generalizing s with
  | nil => rfl
  | cons d rest ih =>
      have hrest : ∀ e ∈ rest, P e := fun e he => hP e (List.mem_cons_of_mem d he)
      have hd : P d := hP d List.mem_cons_self
      rw [List.foldl_cons, firsts]
      cases hseen : mem s (key d) with
      | true =>
          rw [hold s d hI hd hseen, if_pos rfl]
          exact ih hI hrest
      | false =>
          obtain ⟨hI', hmem, hview⟩ := hnew s d hI hd hseen
          have hmem' : mem (handle s d) = fun k => decide (k = key d) || mem s k := funext hmem
          rw [if_neg Bool.false_ne_true, List.foldl_cons, ih hI' hrest, hview, hmem']

omit [DecidableEq K] in
/-- A fold over a list with a last element ends in the step of that element. -/
theorem foldl_of_getLast? (step : V → E → V) {l : List E} {e : E} (h : l.getLast? = some e)
    (v : V) : ∃ w, l.foldl step v = step w e := by
  obtain ⟨front, rfl⟩ := List.getLast?_eq_some_iff.mp h
  exact ⟨front.foldl step v, by rw [List.foldl_append, List.foldl_cons, List.foldl_nil]⟩

end Deliveries
