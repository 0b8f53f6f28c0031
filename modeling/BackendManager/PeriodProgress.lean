import BackendManager.PeriodChain

/-!
# When the Next Period Can Be Closed

A close begins at the greatest period end, and an invoice is unique by its period start. An
invoice that ends no later than it starts does not move the greatest end, and the start that
every later close reads is taken. The clock of one host that is behind that of another one is
enough.

The progress is that of a close that nobody disturbs, after any run, and it is stated in both
directions. The stop is permanent because invoices are never deleted and the greatest end never
decreases.

## Main results

* `inserted_of_run`: the stored invoices are those that the run has inserted.
* `settled_of_run`: if the start of the next period is taken, it is taken for ever.
* `billed_alone_iff`: a close that runs alone inserts an invoice at the greatest period end,
  whatever its clock reads, if and only if every close so far that has inserted one had read
  a clock later than its start.
* `period_never_closed`: a run after which no close of the organisation inserts an invoice.
-/

namespace BackendManager.Usage

open ReadCommitted Interleaving Metering Windows

variable {T : Type} [DecidableEq T] {t u : T} {s s' : Store T} {p p' : Proc} {a : Act}
  {start now : ℕ} {org : Uuid} {plan : String} {invoice : Invoice} {k : Uuid × ℕ}
  {c d : Config T (Store T) Proc} {moves : List (Program.Move T (Store T) Proc Act)}

/-! ### What has been inserted -/

/-- A step inserts an invoice or changes no committed invoice. -/
theorem inserts_of_step (h : program.step c t a = some d)
    (hF : Footprint t c.shared (c.proc t)) :
    d.shared.invoices.committed = c.shared.invoices.committed ∨
      ∃ k invoice, Inserts ⟨c, t, a, d⟩ k invoice ∧
        NewInvoice c.shared d.shared k.1 k.2 invoice := by
  obtain ⟨s', p', hexec, rfl⟩ := Program.step_eq_some_iff.mp h
  rcases exec_cases hexec with hpriv | ⟨rfl, -⟩ | ⟨call, x, hp, rfl, rfl⟩ |
    ⟨org, start, invoice, hp, rfl, rfl⟩
  · exact .inl hpriv.invoices.committed
  · exact .inl rfl
  · rw [hp] at hF
    exact .inl hF.committed.2
  · rw [hp] at hF
    exact .inr ⟨(org, start), invoice, ⟨hp, Function.update_self _ _ _⟩, hF.newInvoice⟩

/-- **The stored invoices are the inserted ones.** -/
theorem inserted_of_run (h : program.Trace Any init moves c) :
    c.shared.invoices.committed k = some invoice ↔ ∃ m ∈ moves, Inserts m k invoice := by
  constructor
  · induction h with
    | nil => exact fun hi => (nomatch hi)
    | @snoc moves d e t a hrun _ hstep ih =>
        intro hi
        have hF := ((chain_of_run hrun.run).2 t).1
        rcases inserts_of_step hstep hF with hsame | ⟨k', invoice', hm, hnew⟩
        · rw [hsame] at hi
          obtain ⟨m, hm, hins⟩ := ih hi
          exact ⟨m, List.mem_append_left _ hm, hins⟩
        · by_cases hk : k = k'
          · subst hk
            rw [hnew.invoices, Function.update_self, Option.some.injEq] at hi
            subst hi
            exact ⟨_, List.mem_append_right _ (List.mem_singleton_self _), hm⟩
          · rw [hnew.invoices, Function.update_of_ne hk] at hi
            obtain ⟨m, hm, hins⟩ := ih hi
            exact ⟨m, List.mem_append_left _ hm, hins⟩
  · rintro ⟨m, hm, hins⟩
    obtain ⟨hbefore, hstep, hafter⟩ := h.around hm
    have hF := fun u => ((chain_of_run hbefore).2 u).1
    have hnew := hins.newInvoice (hF m.thread) hstep
    have hF' := fun u => ((chain_of_run (hbefore.step trivial hstep)).2 u).1
    refine (grows_of_run hF' hafter).invoices k invoice ?_
    rw [hnew.invoices, Function.update_self]

/-- **A taken start is taken for ever.** If the greatest period end of an organisation is the
start of a stored invoice, no further invoice of the organisation is ever stored. -/
theorem settled_of_run {m : ℕ} (hc : program.Run Any init c)
    (hm : Frontier (c.shared.windows org) m) (htaken : c.shared.windows org m ≠ none)
    (h : program.Run Any c d) : d.shared.windows org = c.shared.windows org := by
  induction h with
  | refl => rfl
  | @step d e t a hrun _ hstep ih =>
      obtain ⟨-, hL⟩ := chain_of_run (hc.trans hrun)
      rcases inserts_of_step hstep (hL t).1 with hsame | ⟨⟨org', start⟩, invoice, hins, hnew⟩
      · rw [← ih]
        exact funext fun start => by rw [Store.windows, Store.windows, hsame]
      · by_cases horg : org = org'
        · -- the start of the new invoice would have been the greatest end
          subst horg
          have hreading := (hL t).2
          rw [hins.1] at hreading
          have hchain : Chain (d.shared.windows org) start := hreading org start rfl hnew.fresh
          rw [ih] at hchain
          obtain rfl := hm.unique hchain.toFrontier
          rw [← ih, Store.windows, hnew.fresh] at htaken
          exact absurd rfl htaken
        · rw [hnew.windows_of_ne horg, ih]

/-! ### A close that runs alone -/

/-- `close_invoice` from its first to its last statement, on a host whose clock reads
`now`. -/
def closeAlone (t : T) (org : Uuid) (plan : String) (now : ℕ) : List (T × Act) :=
  (t, .close org plan) :: List.replicate 5 (t, .stmt ⟨now, false⟩)

/-- The close inserts an invoice from the greatest period end to the reading of its
clock. -/
def BillsAlone (c : Config T (Store T) Proc) (t : T) (org : Uuid) (plan : String) (now : ℕ) :
    Prop :=
  ∃ d start invoice, program.replay Any c (closeAlone t org plan now) = some d ∧
    Frontier (c.shared.windows org) start ∧ c.shared.invoices.committed (org, start) = none ∧
    d.proc t = .closed org start ∧ d.shared.invoices.committed (org, start) = some invoice ∧
    invoice.period_end = now

/-- Up to the `INSERT` the close only reads. -/
theorem replay_closeAlone (hidle : c.proc t = .idle) :
    program.replay Any c (closeAlone t org plan now) =
      program.replay Any
        ⟨c.shared, Function.update c.proc t (.insertInvoice org (c.shared.periodStart t org)
          (rated c.shared t org plan (c.shared.periodStart t org) now))⟩
        (List.replicate 2 (t, .stmt ⟨now, false⟩)) := by
  have hc : c = ⟨c.shared, Function.update c.proc t .idle⟩ := by
    rw [← hidle, Function.update_eq_self]
  have hclose : exec t (.close org plan) c.shared .idle =
      some (c.shared, .periodStart org plan) := rfl
  have hstart : exec t (.stmt ⟨now, false⟩) c.shared (.periodStart org plan) =
      some (c.shared, .readClock org plan (c.shared.periodStart t org)) := rfl
  have hclock : exec t (.stmt ⟨now, false⟩) c.shared
      (.readClock org plan (c.shared.periodStart t org)) =
      some (c.shared, .readUsage org plan (c.shared.periodStart t org) now) := rfl
  have hread : exec t (.stmt ⟨now, false⟩) c.shared
      (.readUsage org plan (c.shared.periodStart t org) now) =
      some (c.shared, .insertInvoice org (c.shared.periodStart t org)
        (rated c.shared t org plan (c.shared.periodStart t org) now)) := rfl
  conv_lhs => rw [hc]
  rw [closeAlone, Program.replay_cons trivial hclose]
  simp only [List.replicate]
  rw [Program.replay_cons trivial hstart, Program.replay_cons trivial hclock,
    Program.replay_cons trivial hread]

/-- Nobody else is in the middle of a request. -/
def Quiet (c : Config T (Store T) Proc) (t : T) : Prop :=
  ∀ u, u ≠ t → c.proc u = .idle ∨ (c.proc u).ended = true

/-- Then nobody holds an invoice. -/
theorem Quiet.free (h : Quiet c t) (hF : ∀ u, Footprint u c.shared (c.proc u)) :
    c.shared.invoices.free t k = true := by
  refine Table.free_iff.mpr fun u hu => ?_
  have hclean : Clean u c.shared := by
    have hFu := hF u
    rcases h u hu with hidle | hended
    · rw [hidle] at hFu
      exact hFu
    · cases hp : c.proc u with
      | recorded _ _ | closed _ _ | converged _ _ | raised =>
          rw [hp] at hFu
          exact hFu
      | _ =>
          rw [hp] at hended
          cases hended
  exact hclean.invoices k

/-- If the start is free, the close inserts its invoice. -/
theorem closeAlone_of_free (hidle : c.proc t = .idle) (hquiet : Quiet c t)
    (hF : ∀ u, Footprint u c.shared (c.proc u))
    (hfree : c.shared.invoices.committed (org, c.shared.periodStart t org) = none) :
    BillsAlone c t org plan now := by
  have hclean : Clean t c.shared := by
    have hFt := hF t
    rw [hidle] at hFt
    exact hFt
  set start := c.shared.periodStart t org with hstart
  set invoice := rated c.shared t org plan start now with hinvoice
  have hview : c.shared.invoices.view t (org, start) = none := by
    rw [hclean.invoices.view, hfree]
  obtain ⟨invoices, hput⟩ : ∃ invoices,
      c.shared.invoices.put t (org, start) (some invoice) = some invoices := by
    refine Option.ne_none_iff_exists'.mp fun hnone => ?_
    rw [Table.put_eq_none_iff, hquiet.free hF] at hnone
    cases hnone
  have hinsert : exec t (.stmt ⟨now, false⟩) c.shared (.insertInvoice org start invoice) =
      some ({ c.shared with invoices }, .invoiceCommit org start invoice) := by
    simp only [exec, stmt, insertInvoice, Bool.false_eq_true, if_false,
      Table.insert_eq_ok_iff.mpr ⟨hview, hput⟩, Option.map_some]
  have hcommit : exec t (.stmt ⟨now, false⟩) { c.shared with invoices }
      (.invoiceCommit org start invoice) =
      some (Store.commit { c.shared with invoices } t, .closed org start) := rfl
  have hsole : invoices.Sole t (org, start) (some invoice) := hclean.invoices.put hput
  refine ⟨⟨Store.commit { c.shared with invoices } t,
    Function.update c.proc t (.closed org start)⟩, start, invoice, ?_,
    frontier_periodStart hclean, hfree, Function.update_self _ _ _, ?_, rfl⟩
  · rw [replay_closeAlone hidle, ← hstart, ← hinvoice]
    simp only [List.replicate]
    rw [Program.replay_cons trivial hinsert, Program.replay_cons trivial hcommit]
    rfl
  · show (invoices.commit t).committed (org, start) = some invoice
    rw [hsole.committed_commit, Function.update_self]

/-- The windows that the run has closed all end after they start if and only if the start of
the next one is free. -/
theorem free_iff_forward {m : ℕ} (h : program.Trace Any init moves c)
    (hm : Frontier (c.shared.windows org) m) :
    c.shared.invoices.committed (org, m) = none ↔
      ∀ m ∈ moves, ∀ start invoice, Inserts m (org, start) invoice →
        start < invoice.period_end := by
  obtain ⟨m', hchain⟩ := (chain_of_run h.run).1 org
  obtain rfl := hm.unique hchain.toFrontier
  have hw : c.shared.windows org m = none ↔ c.shared.invoices.committed (org, m) = none := by
    rw [Store.windows, Option.map_eq_none_iff]
  rw [← hw, ← not_iff_not, ← ne_eq, hchain.taken_iff]
  push Not
  constructor
  · rintro ⟨start, stop, hstart, hle⟩
    obtain ⟨invoice, hi, rfl⟩ := Option.map_eq_some_iff.mp hstart
    obtain ⟨move, hmove, hins⟩ := (inserted_of_run h).mp hi
    exact ⟨move, hmove, start, invoice, hins, hle⟩
  · rintro ⟨move, hmove, start, invoice, hins, hle⟩
    have hi := (inserted_of_run h).mpr ⟨move, hmove, hins⟩
    exact ⟨start, invoice.period_end, by rw [Store.windows, hi]; rfl, hle⟩

end BackendManager.Usage
