import BackendManager.UsageConservation

/-!
# The Windows of Concurrent Closes Are Disjoint

Any number of closes run at any time, and the reading that a close takes for its period end
may be anything: before the reading of the close before it, and before its own start. What
is left of `BackendManager.UsagePeriods` is that a start that is still free is the frontier
(`Next`), and this is enough for the windows to form a `Windows.Chain`.

The key of the table of invoices is `(organization_id, period_start)`, so the starts of
stored invoices differ. That no two closes insert the same start is a statement about the
steps of a run.

Without the order of the clocks, usage may fall between two windows or into none
(`BackendManager.UsageConservation` is about that); that the windows themselves do not overlap
needs nothing but the unique key and the fact that a close reads the greatest end before it
inserts. A close that has read an end which is no longer the greatest finds its start taken and
converges to the stored invoice. The proof is an outline with these two facts as assertions.

## Main results

* `chain_of_run`: the windows of an organisation form a chain along every run.
* `periods_disjoint`: stored windows are disjoint, no start is inserted twice, and closes
  that have read the same start return the same invoice.
-/

namespace BackendManager.Usage

open ReadCommitted Interleaving Metering Windows

variable {T : Type} [DecidableEq T] {t u : T} {s s' : Store T} {p p' : Proc} {a : Act}
  {start start' : ℕ} {org : Uuid} {invoice : Invoice} {k : Uuid × ℕ}
  {c d : Config T (Store T) Proc} {ok : Config T (Store T) Proc → T → Act → Prop}
  {m : Program.Move T (Store T) Proc Act} {moves : List (Program.Move T (Store T) Proc Act)}

/-! ### The period of a close -/

/-- The period that a close is closing, once it has read the start. -/
def Proc.period : Proc → Option (Uuid × ℕ)
  | .readClock org _ start | .readUsage org _ start _ | .insertInvoice org start _
  | .invoiceCommit org start _ | .findExisting org start | .closed org start
  | .converged org start => some (org, start)
  | _ => none

/-- A close stays with its period until it fails. -/
theorem Step.period (h : Step t s a p s' p') (hk : p.period = some k) :
    p'.period = some k ∨ p' = .raised := by
  cases h with
  | tick | readClock | readUsage | insertInvoice | invoiceViolation | invoiceCommit =>
      exact .inl hk
  | fail => exact .inr rfl
  | existing hnext =>
      rcases hnext with rfl | rfl
      · exact .inl hk
      · exact .inr rfl
  | _ => cases hk

/-- A request that has ended stays where it is. -/
theorem Step.ended (h : Step t s a p s' p') (hp : p.ended = true) : p' = p := by
  cases h with
  | tick => rfl
  | fail hrunning =>
      rw [hrunning] at hp
      cases hp
  | _ => cases hp

/-- A request that has ended does nothing more. -/
theorem ended_of_run (h : program.Run ok c d) (hp : (c.proc u).ended = true) :
    d.proc u = c.proc u := by
  refine h.proc (Q := fun p => p = c.proc u) (fun hexec hA => ?_) rfl
  rw [(step_of_exec hexec).ended (hA ▸ hp), hA]

/-- The period that a close has settled on stays its period, unless it raises. -/
theorem period_of_run (h : program.Run ok c d) (hk : (c.proc u).period = some k) :
    (d.proc u).period = some k ∨ d.proc u = .raised := by
  refine h.proc (Q := fun p => p.period = some k ∨ p = .raised) (fun hexec hA => ?_) (.inl hk)
  rcases hA with hk | rfl
  · exact (step_of_exec hexec).period hk
  · exact .inr ((step_of_exec hexec).ended rfl)

/-! ### The invariant -/

/-- A start that is still free is the frontier of a chain. -/
def Next (s : Store T) (org : Uuid) (start : ℕ) : Prop :=
  s.invoices.committed (org, start) = none → Chain (s.windows org) start

/-- The windows of every organisation form a chain. -/
def Chained (s : Store T) : Prop := ∀ org, ∃ m, Chain (s.windows org) m

/-- The assertion of a close. -/
def Reading (s : Store T) (p : Proc) : Prop := ∀ org start, p.period = some (org, start) →
  Next s org start

omit [DecidableEq T] in
/-- The same invoices are committed. -/
theorem Next.congr (h : Next s org start)
    (hi : s'.invoices.committed = s.invoices.committed) : Next s' org start := by
  intro hfree
  rw [hi] at hfree
  have hw : s'.windows org = s.windows org :=
    funext fun start' => by rw [Store.windows, Store.windows, hi]
  rw [hw]
  exact h hfree

omit [DecidableEq T] in
/-- A new invoice extends the chain of its organisation. -/
theorem NewInvoice.chain (h : NewInvoice s s' org start invoice) (hn : Next s org start) :
    Chain (s'.windows org) (max start invoice.period_end) := by
  rw [h.windows_self]
  exact (hn h.fresh).extend (by rw [Store.windows, h.fresh]; rfl) _

omit [DecidableEq T] in
theorem NewInvoice.chained (h : NewInvoice s s' org start invoice) (hc : Chained s)
    (hn : Next s org start) : Chained s' := by
  intro org'
  by_cases horg : org' = org
  · subst horg
    exact ⟨_, h.chain hn⟩
  · rw [h.windows_of_ne horg]
    exact hc org'

omit [DecidableEq T] in
/-- The start that the new invoice has taken was the frontier, so that no other start of the
organisation is still free. -/
theorem NewInvoice.next {org' : Uuid} (h : NewInvoice s s' org start invoice)
    (hn : Next s org start) (hn' : Next s org' start') : Next s' org' start' := by
  intro hfree
  obtain ⟨hne, hfree⟩ := h.free hfree
  by_cases horg : org' = org
  · subst horg
    obtain rfl : start' = start := (hn' hfree).toFrontier.unique (hn h.fresh).toFrontier
    exact absurd rfl hne
  · rw [h.windows_of_ne horg]
    exact hn' hfree

/-- A close that has no uncommitted rows reads the frontier. -/
theorem next_periodStart (hc : Chained s) (hF : Clean t s) : Next s org (s.periodStart t org) := by
  obtain ⟨m, hm⟩ := hc org
  rw [(frontier_periodStart hF).unique hm.toFrontier]
  exact fun _ => hm

/-- What a close relies on next holds already in the state before its statement. -/
theorem Step.reading (h : Step t s a p s' p') (hc : Chained s) (hF : Footprint t s p)
    (hR : Reading s p) : Reading s p' := by
  intro org start hk
  cases h with
  | periodStart =>
      obtain ⟨rfl, rfl⟩ := Prod.mk.inj (Option.some.inj hk)
      exact next_periodStart hc hF
  | tick | readClock | readUsage | insertInvoice | invoiceViolation | invoiceCommit =>
      exact hR org start hk
  | existing hnext =>
      rcases hnext with rfl | rfl
      · exact hR org start hk
      · cases hk
  | duplicate hnext => rcases hnext with rfl | rfl <;> cases hk
  | _ => cases hk

/-- **One step.** Whatever its clock reads, a request keeps the chains and the assertions of
all requests. -/
theorem chained_of_exec (hc : Chained c.shared) (hF : Footprint t c.shared (c.proc t))
    (hR : ∀ u, Reading c.shared (c.proc u))
    (h : exec t a c.shared (c.proc t) = some (s', p')) :
    Chained s' ∧ Reading s' p' ∧ ∀ u, Reading s' (c.proc u) := by
  have hnext : Reading c.shared p' := (step_of_exec h).reading hc hF (hR t)
  have hsame : s'.invoices.committed = c.shared.invoices.committed →
      Chained s' ∧ Reading s' p' ∧ ∀ u, Reading s' (c.proc u) := by
    intro hi
    refine ⟨fun org => ?_, fun org start hk => (hnext org start hk).congr hi,
      fun u org start hk => (hR u org start hk).congr hi⟩
    have hw : s'.windows org = c.shared.windows org :=
      funext fun start => by rw [Store.windows, Store.windows, hi]
    rw [hw]
    exact hc org
  rcases exec_cases h with hpriv | ⟨rfl, -⟩ | ⟨call, x, hp, rfl, rfl⟩ |
    ⟨org, start, invoice, hp, rfl, rfl⟩
  · exact hsame hpriv.invoices.committed
  · exact hsame rfl
  · rw [hp] at hF
    exact hsame hF.committed.2
  · have hRt := hR t
    rw [hp] at hF hRt
    have hn : Next c.shared org start := hRt org start rfl
    have hnew := hF.newInvoice
    exact ⟨hnew.chained hc hn, fun _ _ hk => hnew.next hn (hnext _ _ hk),
      fun u _ _ hk => hnew.next hn (hR u _ _ hk)⟩

/-- The proof outline. -/
theorem chain_outline : program.Outline (Any (T := T)) Chained
    (fun u s p => Footprint u s p ∧ Reading s p) where
  step _ hc hL h := by
    obtain ⟨hc', hR', -⟩ := chained_of_exec hc (hL _).1 (fun u => (hL u).2) h
    exact ⟨hc', (step_of_exec h).footprint (hL _).1, hR'⟩
  frame hu _ hc hL h := by
    obtain ⟨-, -, hR'⟩ := chained_of_exec hc (hL _).1 (fun u => (hL u).2) h
    exact ⟨(hL _).1.of_undisturbed (undisturbed_of_exec h hu), hR' _⟩

/-- **Along every run the windows of an organisation form a chain.** -/
theorem chain_of_run (h : program.Run Any init c) :
    Chained c.shared ∧ ∀ u, Footprint u c.shared (c.proc u) ∧ Reading c.shared (c.proc u) :=
  chain_outline.run h (fun _ => ⟨0, .empty⟩)
    fun u => ⟨footprint_init u, fun _ _ hk => (nomatch hk)⟩

/-! ### What the steps of a run say -/

/-- With this step a close reads the start of its period. -/
def Reads (m : Program.Move T (Store T) Proc Act) (k : Uuid × ℕ) : Prop :=
  (m.before.proc m.thread).period = none ∧ (m.after.proc m.thread).period = some k

/-- With this step a close commits an invoice of its own. -/
def Inserts (m : Program.Move T (Store T) Proc Act) (k : Uuid × ℕ) (invoice : Invoice) : Prop :=
  m.before.proc m.thread = .invoiceCommit k.1 k.2 invoice ∧
    m.after.proc m.thread = .closed k.1 k.2

/-- With this step `invoice_period` returns the invoice for the period: its own, or the row
that it finds. -/
def Returns (m : Program.Move T (Store T) Proc Act) (k : Uuid × ℕ) (invoice : Invoice) : Prop :=
  Inserts m k invoice ∨
    (m.before.proc m.thread = .findExisting k.1 k.2 ∧
      m.after.proc m.thread = .converged k.1 k.2 ∧
      m.before.shared.invoices.view m.thread k = some invoice)

/-- The statement that a step executes. -/
theorem step_of_move (h : program.step c t a = some d) :
    Step t c.shared a (c.proc t) d.shared (d.proc t) := by
  obtain ⟨s', p', hexec, rfl⟩ := Program.step_eq_some_iff.mp h
  simpa using step_of_exec hexec

/-- An invoice that is committed had a free start. -/
theorem Step.inserted (h : Step t s a (.invoiceCommit org start invoice) s' (.closed org start))
    (hF : Footprint t s (.invoiceCommit org start invoice)) :
    NewInvoice s s' org start invoice := by
  cases h with
  | invoiceCommit => exact hF.newInvoice

/-- An invoice that is found stays. -/
theorem Step.converged (h : Step t s a (.findExisting org start) s' (.converged org start))
    (hF : Clean t s) (hview : s.invoices.view t (org, start) = some invoice) :
    s'.invoices.committed (org, start) = some invoice := by
  rw [hF.invoices.view] at hview
  cases h with
  | existing => rw [(Private.of_rollback _ _).invoices.committed, hview]

/-- An invoice that is inserted is there after the step, and its start was free before it. -/
theorem Inserts.newInvoice (hm : Inserts m k invoice)
    (hF : Footprint m.thread m.before.shared (m.before.proc m.thread))
    (h : program.step m.before m.thread m.action = some m.after) :
    NewInvoice m.before.shared m.after.shared k.1 k.2 invoice := by
  have hs := step_of_move h
  rw [hm.1] at hF hs
  rw [hm.2] at hs
  exact hs.inserted hF

/-- An invoice that is returned is there after the step. -/
theorem Returns.committed (hm : Returns m k invoice)
    (hF : Footprint m.thread m.before.shared (m.before.proc m.thread))
    (h : program.step m.before m.thread m.action = some m.after) :
    m.after.shared.invoices.committed k = some invoice := by
  rcases hm with hm | ⟨hbefore, hafter, hview⟩
  · rw [(hm.newInvoice hF h).invoices, Function.update_self]
  · have hs := step_of_move h
    rw [hbefore] at hF hs
    rw [hafter] at hs
    exact hs.converged hF hview

theorem Returns.proc (hm : Returns m k invoice) :
    m.after.proc m.thread = .closed k.1 k.2 ∨ m.after.proc m.thread = .converged k.1 k.2 := by
  rcases hm with ⟨-, hafter⟩ | ⟨-, hafter, -⟩
  · exact .inl hafter
  · exact .inr hafter

/-- Once a close has returned, it stays with the period of its answer. -/
theorem Returns.final (hm : Returns m k invoice) (h : program.Run ok m.after d) :
    (d.proc m.thread).period = some k ∧ d.proc m.thread ≠ .raised := by
  have hended : (m.after.proc m.thread).ended = true := by
    rcases hm.proc with hp | hp <;> rw [hp] <;> rfl
  rw [ended_of_run h hended]
  rcases hm.proc with hp | hp <;> rw [hp] <;> exact ⟨rfl, nofun⟩

/-- **Concurrent closes.** In every run the stored windows of an organisation are disjoint, no
two closes insert the same start, and a close that has read a start returns the one invoice
that is stored for it. -/
theorem periods_disjoint (h : program.Trace Any init moves d) :
    (∀ org start invoice start' invoice',
      d.shared.invoices.committed (org, start) = some invoice →
      d.shared.invoices.committed (org, start') = some invoice' → start ≠ start' →
      Disjoint (Set.Ico start invoice.period_end) (Set.Ico start' invoice'.period_end)) ∧
    (moves.Pairwise fun m m' => ∀ org start invoice start' invoice',
      Inserts m (org, start) invoice → Inserts m' (org, start') invoice' → start ≠ start') ∧
    ∀ k, ∀ r ∈ moves, Reads r k → ∀ m ∈ moves, m.thread = r.thread → ∀ k' invoice,
      Returns m k' invoice → k' = k ∧ d.shared.invoices.committed k = some invoice := by
  have hF : ∀ {c : Config T (Store T) Proc}, program.Run Any init c →
      ∀ u, Footprint u c.shared (c.proc u) :=
    fun hrun u => ((chain_of_run hrun).2 u).1
  refine ⟨fun org start invoice start' invoice' hi hi' hne => ?_, ?_, ?_⟩
  · obtain ⟨m, hchain⟩ := (chain_of_run h.run).1 org
    have hw : d.shared.windows org start = some invoice.period_end := by
      rw [Store.windows, hi]; rfl
    have hw' : d.shared.windows org start' = some invoice'.period_end := by
      rw [Store.windows, hi']; rfl
    exact hchain.disjoint hw hw' hne
  · refine h.pairwise fun m m' hm hs hrun _ org start invoice start' invoice' hi hi' => ?_
    have hafter : program.Run Any init m.after := hm.step trivial hs
    have hstored : m.after.shared.invoices.committed (org, start) = some invoice := by
      rw [(hi.newInvoice (hF hm _) hs).invoices, Function.update_self]
    have hkept := (grows_of_run (hF hafter) hrun).invoices _ _ hstored
    have hfree := hF (hafter.trans hrun) m'.thread
    rw [hi'.1] at hfree
    rintro rfl
    rw [hfree.fresh] at hkept
    cases hkept
  · intro k r hr hreads m hm hthread k' invoice hreturns
    obtain ⟨-, -, hafter⟩ := h.around hr
    obtain ⟨hbefore', hs', hafter'⟩ := h.around hm
    obtain ⟨hperiod, hreturned⟩ := hreturns.final hafter'
    have hk : k' = k := by
      rcases period_of_run hafter hreads.2 with hperiod' | hraised
      · rw [← hthread, hperiod] at hperiod'
        exact Option.some.inj hperiod'
      · rw [← hthread] at hraised
        exact absurd hraised hreturned
    have hstored := hreturns.committed (hF hbefore' _) hs'
    have hkept := (grows_of_run (hF (hbefore'.step trivial hs')) hafter').invoices _ _ hstored
    exact ⟨hk, hk ▸ hkept⟩

set_option maxRecDepth 10000 in
/-- Two closes have read the epoch as the start of the period. The host of the first reads
`100`, the host of the second `50`, and the invoice of the second is there first: the first
one returns it. A third close has begun at `50`, where it has read the clock of a host that
is behind. -/
theorem periods_disjoint_skewed : ∃ (moves : List (Program.Move (Fin 3) (Store (Fin 3)) Proc Act))
    (d : Config (Fin 3) (Store (Fin 3)) Proc) (invoice invoice' : Invoice),
    program.Trace Any init moves d ∧ d.proc 0 = .converged someOrg 0 ∧
      d.shared.invoices.committed (someOrg, 0) = some invoice ∧
      d.shared.invoices.committed (someOrg, 50) = some invoice' ∧
      Disjoint (Set.Ico 0 invoice.period_end) (Set.Ico 50 invoice'.period_end) := by
  have hreplay : (program.replay Any init
      (closeUpToRead (0 : Fin 3) 100 ++ closeUpToRead 1 50 ++
        [(1, at_ 50), (1, at_ 50), (0, at_ 100), (0, at_ 100)] ++
        closeUpToRead 2 20 ++ [(2, at_ 20), (2, at_ 20)])).any (fun d =>
          decide (d.proc 0 = .converged someOrg 0 ∧
            (d.shared.invoices.committed (someOrg, 0)).isSome ∧
            (d.shared.invoices.committed (someOrg, 50)).isSome)) = true := by
    decide
  obtain ⟨d, hrun, hp⟩ := Program.exists_run_of_replay hreplay
  obtain ⟨hproc, hfirst, hsecond⟩ := of_decide_eq_true hp
  obtain ⟨invoice, hi⟩ := Option.isSome_iff_exists.mp hfirst
  obtain ⟨invoice', hi'⟩ := Option.isSome_iff_exists.mp hsecond
  obtain ⟨moves, htrace⟩ := hrun.exists_trace
  exact ⟨moves, d, invoice, invoice', htrace, hproc, hi, hi',
    (periods_disjoint htrace).1 _ _ _ _ _ hi hi' (by decide)⟩

end BackendManager.Usage
