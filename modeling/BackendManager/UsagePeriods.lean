import BackendManager.UsageSteps

/-!
# The Billing Periods of an Organisation

The windows of an organisation's invoices are consecutive (`Windows.Tiling`), although
nothing in the schema says so: a close whose start is still free begins at the frontier,
since whatever was closed after it had read the frontier would have taken that start. What
an invoice has billed are the events of its window, as long as no event commits behind a
close that has read its window.

The module says what the invariant `Periods` and the assertions `Stage` of the requests
are, and that they survive what `exec_cases` says a statement can do to the committed rows.

An event that is stamped before the end of a window and committed after the window has been read
would break the invariant. The condition on the schedule is about this one statement, and every
other step keeps the invariant by itself.

## Main results

* `Periods.of_newEvent`, `Stage.of_newEvent`: an event that is not too late is left out of
  no window.
* `Periods.of_newInvoice`, `Stage.of_newInvoice`: a new window extends the tiling, and all
  other closes are behind it or ahead of it.
* `Step.stage`: what a statement has read is what the next one relies on.
-/

namespace BackendManager.Usage

open ReadCommitted Interleaving Metering Windows

variable {T : Type} [DecidableEq T] {t u v : T} {s s' : Store T} {p p' : Proc} {a : Act}
  {env : Env} {call : UsageRecord} {created_at start stop : ℕ} {org : Uuid} {plan : String}
  {invoice : Invoice} {k : Uuid × String} {c d e : Config T (Store T) Proc}

/-! ### Windows and what falls into them -/

/-- The windows of the committed invoices of an organisation. -/
def Store.windows (s : Store T) (org : Uuid) (start : ℕ) : Option ℕ :=
  (s.invoices.committed (org, start)).map Invoice.period_end

/-- A committed event of the organisation that belongs to the window. -/
def Store.Falls (s : Store T) (org : Uuid) (start stop : ℕ) (k : Uuid × String) : Prop :=
  k.1 = org ∧ ∃ e, s.usage.committed k = some e ∧ Within start stop e.created_at

/-- The lines of the invoice are those of the quantities of the events it has billed. -/
structure Rated (s : Store T) (invoice : Invoice) : Prop where
  lines : invoice.lines =
    rate DEFAULT_RATE_CARDS invoice.plan (totals s.usage.committed invoice.billed)
  total_cents : invoice.total_cents = Metering.total_cents invoice.lines

/-- The close has read the usage of a window of `org` that contains `x`, and its start is
free, so that it can still commit its invoice. -/
def Missed (s : Store T) (p : Proc) (org : Uuid) (x : ℕ) : Prop :=
  match p with
  | .insertInvoice org' start invoice | .invoiceCommit org' start invoice =>
      org' = org ∧ s.invoices.committed (org', start) = none ∧
        Within start invoice.period_end x
  | _ => False

/-- The window of a committed invoice of `org` contains `x`. -/
def Closed (s : Store T) (org : Uuid) (x : ℕ) : Prop :=
  ∃ start invoice, s.invoices.committed (org, start) = some invoice ∧
    Within start invoice.period_end x

instance (s : Store T) (p : Proc) (org : Uuid) (x : ℕ) : Decidable (Missed s p org x) := by
  unfold Missed
  split <;> infer_instance

instance (s : Store T) (org : Uuid) (x : ℕ) : Decidable (Closed s org x) :=
  decidable_of_iff (∃ k ∈ s.invoices.keys, k.1 = org ∧
    (s.invoices.committed k).any fun invoice => Within k.2 invoice.period_end x) (by
      constructor
      · rintro ⟨⟨org', start⟩, -, rfl, h⟩
        simp only [Option.any_eq_true, decide_eq_true_eq] at h
        obtain ⟨invoice, hi, hwithin⟩ := h
        exact ⟨start, invoice, hi, hwithin⟩
      · rintro ⟨start, invoice, hi, hwithin⟩
        exact ⟨(org, start), s.invoices.mem_keys_of_committed (by simp [hi]), rfl,
          by simp [hi, hwithin]⟩)

/-! ### The invariant -/

/-- A start that is still free is the frontier. -/
def Ahead (s : Store T) (org : Uuid) (start : ℕ) : Prop :=
  s.invoices.committed (org, start) = none → Tiling (s.windows org) start

/-- The invoice of a close that has read the usage. -/
structure Snapshot (s : Store T) (org : Uuid) (start : ℕ) (invoice : Invoice) : Prop where
  le : start ≤ invoice.period_end
  le_clock : invoice.period_end ≤ s.clock
  ahead : Ahead s org start
  rated : Rated s invoice
  falls : ∀ k ∈ invoice.billed, s.Falls org start invoice.period_end k
  complete : s.invoices.committed (org, start) = none →
    ∀ k, s.Falls org start invoice.period_end k → k ∈ invoice.billed

/-- The global invariant. -/
structure Periods (s : Store T) : Prop where
  tiling : ∀ org, ∃ m, m ≤ s.clock ∧ Tiling (s.windows org) m
  stamped : ∀ {k e}, s.usage.committed k = some e → e.created_at ≤ s.clock
  rated : ∀ {org start invoice}, s.invoices.committed (org, start) = some invoice →
    Rated s invoice
  billed : ∀ {org start invoice}, s.invoices.committed (org, start) = some invoice →
    ∀ k, k ∈ invoice.billed ↔ s.Falls org start invoice.period_end k

/-- The assertion of a request about what is committed. -/
def Stage (s : Store T) : Proc → Prop
  | .insertUsage _ created_at | .usageCommit _ created_at => created_at ≤ s.clock
  | .readClock org _ start => start ≤ s.clock ∧ Ahead s org start
  | .readUsage org _ start stop => start ≤ stop ∧ stop ≤ s.clock ∧ Ahead s org start
  | .insertInvoice org start invoice | .invoiceCommit org start invoice =>
      Snapshot s org start invoice
  | _ => True

/-! ### What the committed rows say -/

/-- Assertions about the committed rows and the clock. -/
structure SameRows (s s' : Store T) : Prop where
  usage : s'.usage.committed = s.usage.committed
  invoices : s'.invoices.committed = s.invoices.committed
  clock : s.clock ≤ s'.clock

/-- Before its commit a request changes nothing that is committed. -/
theorem SameRows.of_private (h : Private t s s') : SameRows s s' :=
  ⟨h.usage.committed, h.invoices.committed, h.clock.ge⟩

omit [DecidableEq T] in
/-- The clock is no row. -/
theorem SameRows.of_tick (s : Store T) : SameRows s { s with clock := s.clock + 1 } :=
  ⟨rfl, rfl, Nat.le_succ _⟩

omit [DecidableEq T] in
/-- The windows are those of the committed invoices. -/
theorem SameRows.windows (h : SameRows s s') (org : Uuid) : s'.windows org = s.windows org := by
  funext start
  rw [Store.windows, Store.windows, h.invoices]

omit [DecidableEq T] in
/-- Which window an event belongs to depends on committed rows. -/
theorem SameRows.falls (h : SameRows s s') :
    s'.Falls org start stop k ↔ s.Falls org start stop k := by
  rw [Store.Falls, Store.Falls, h.usage]

omit [DecidableEq T] in
/-- And so does what an invoice has billed. -/
theorem SameRows.rated (h : SameRows s s') (hr : Rated s invoice) : Rated s' invoice :=
  ⟨by rw [h.usage]; exact hr.lines, hr.total_cents⟩

omit [DecidableEq T] in
/-- And which start is the frontier. -/
theorem SameRows.ahead (h : SameRows s s') (ha : Ahead s org start) : Ahead s' org start := by
  intro hfree
  rw [h.invoices] at hfree
  rw [h.windows]
  exact ha hfree

omit [DecidableEq T] in
/-- The global invariant is about the committed rows. -/
theorem Periods.of_sameRows (hP : Periods s) (h : SameRows s s') : Periods s' where
  tiling org := by
    obtain ⟨m, hm, htile⟩ := hP.tiling org
    exact ⟨m, hm.trans h.clock, by rw [h.windows]; exact htile⟩
  stamped hk := by
    rw [h.usage] at hk
    exact (hP.stamped hk).trans h.clock
  rated hi := by
    rw [h.invoices] at hi
    exact h.rated (hP.rated hi)
  billed hi k := by
    rw [h.invoices] at hi
    rw [hP.billed hi, h.falls]

omit [DecidableEq T] in
/-- So are the assertions of the requests. -/
theorem Stage.of_sameRows (hS : Stage s p) (h : SameRows s s') : Stage s' p := by
  cases p with
  | insertUsage _ _ | usageCommit _ _ => exact hS.trans h.clock
  | readClock org _ start => exact ⟨hS.1.trans h.clock, h.ahead hS.2⟩
  | readUsage org _ start stop => exact ⟨hS.1, hS.2.1.trans h.clock, h.ahead hS.2.2⟩
  | insertInvoice org start invoice | invoiceCommit org start invoice =>
      refine ⟨hS.le, hS.le_clock.trans h.clock, h.ahead hS.ahead, h.rated hS.rated,
        fun k hk => h.falls.mpr (hS.falls k hk), fun hfree k hk => ?_⟩
      rw [h.invoices] at hfree
      exact hS.complete hfree k (h.falls.mp hk)
  | _ => trivial

/-! ### Statements that read -/

/-- A transaction without uncommitted rows reads the frontier. -/
theorem frontier_periodStart (hc : Clean t s) :
    Frontier (s.windows org) (s.periodStart t org) := by
  have hmem : ∀ k, k ∈ (s.invoices.scan t fun _ => true).filter (fun k => k.1 = org) ↔
      k.1 = org ∧ ∃ invoice, s.invoices.committed k = some invoice := by
    intro k
    rw [Finset.mem_filter, Table.mem_scan, hc.invoices.view]
    simp [and_comm]
  refine ⟨fun {start stop} hw => ?_, ?_⟩
  · obtain ⟨invoice, hi, rfl⟩ := Option.map_eq_some_iff.mp hw
    have hle := Finset.le_sup (f := fun k =>
      ((s.invoices.view t k).map Invoice.period_end).getD 0) ((hmem (org, start)).mpr
        ⟨rfl, invoice, hi⟩)
    rw [Store.periodStart]
    simpa only [hc.invoices.view, hi, Option.map_some, Option.getD_some] using hle
  · rcases Finset.eq_empty_or_nonempty
      ((s.invoices.scan t fun _ => true).filter fun k => k.1 = org) with hempty | hne
    · left
      rw [Store.periodStart, hempty, Finset.sup_empty]
    · right
      obtain ⟨⟨org', start⟩, hk, hsup⟩ := Finset.exists_mem_eq_sup _ hne fun k =>
        ((s.invoices.view t k).map Invoice.period_end).getD 0
      obtain ⟨rfl, invoice, hi⟩ := (hmem _).mp hk
      refine ⟨start, ?_⟩
      rw [Store.periodStart, hsup, hc.invoices.view, Store.windows, hi]
      rfl

/-- The events that a close reads are those that belong to its window. -/
theorem mem_eventsOf (hc : Clean t s) :
    k ∈ s.eventsOf t org start stop ↔ s.Falls org start stop k := by
  rw [Store.eventsOf, Finset.mem_filter, Table.mem_scan, hc.usage.view, Store.Falls]
  simp only [decide_eq_true_eq]
  exact and_comm

/-- What a close reads is a snapshot of its window. -/
theorem snapshot_rated (hc : Clean t s) (hle : start ≤ stop) (hclock : stop ≤ s.clock)
    (ha : Ahead s org start) : Snapshot s org start (rated s t org plan start stop) where
  le := hle
  le_clock := hclock
  ahead := ha
  rated := by
    have hview : s.usage.view t = s.usage.committed := funext hc.usage.view
    exact ⟨by rw [← hview]; rfl, rfl⟩
  falls _ hk := (mem_eventsOf hc).mp hk
  complete _ _ hk := (mem_eventsOf hc).mpr hk

/-- The assertion of the next statement holds already in the state before this one. -/
theorem Step.stage (h : Step t s a p s' p') (hS : Stage s p) (hP : Periods s)
    (hF : Footprint t s p)
    (hclock : ∀ org plan start env, p = .readClock org plan start → a = .stmt env →
      env.now = s.clock) : Stage s p' := by
  cases h with
  | tick | insertUsage | insertInvoice => exact hS
  | record => exact le_refl _
  | close | fail | usageViolation | usageCommit | invoiceViolation | invoiceCommit => trivial
  | duplicate hnext => rcases hnext with rfl | rfl <;> trivial
  | existing hnext => rcases hnext with rfl | rfl <;> trivial
  | periodStart =>
      obtain ⟨m, hm, htile⟩ := hP.tiling _
      rw [(frontier_periodStart hF).unique htile.frontier]
      exact ⟨hm, fun _ => htile⟩
  | readClock =>
      have hnow := hclock _ _ _ _ rfl rfl
      exact ⟨hS.1.trans hnow.ge, hnow.le, hS.2⟩
  | readUsage => exact snapshot_rated hF hS.1 hS.2.1 hS.2.2

/-! ### A new event -/

/-- The totals depend on the rows of the events alone. -/
theorem totals_congr {rows rows' : Uuid × String → Option UsageEvent}
    {events : Finset (Uuid × String)} (h : ∀ k ∈ events, rows k = rows' k) :
    totals rows events = totals rows' events := by
  funext meter
  have hgroup : (events.filter fun k => (rows k).any fun e => e.meter = meter) =
      events.filter fun k => (rows' k).any fun e => e.meter = meter :=
    Finset.filter_congr fun k hk => by rw [h k hk]
  simp only [totals, hgroup]
  congr 1
  congr 1
  exact Finset.sum_congr rfl fun k hk => by rw [h k (Finset.mem_filter.mp hk).1]

/-- One more event under an unused key. -/
structure NewEvent (s s' : Store T) (call : UsageRecord) (created_at : ℕ) : Prop where
  usage : s'.usage.committed =
    Function.update s.usage.committed call.key (some (call.row created_at))
  fresh : s.usage.committed call.key = none
  invoices : s'.invoices.committed = s.invoices.committed
  clock : s'.clock = s.clock

/-- The commit of a record adds the event that it has inserted. -/
theorem EventPending.newEvent (h : EventPending t s call created_at) :
    NewEvent s (s.commit t) call created_at :=
  ⟨h.committed.1, h.fresh, h.committed.2, rfl⟩

omit [DecidableEq T] in
/-- A new event changes no window. -/
theorem NewEvent.windows (h : NewEvent s s' call created_at) (org : Uuid) :
    s'.windows org = s.windows org := by
  funext start
  rw [Store.windows, Store.windows, h.invoices]

omit [DecidableEq T] in
/-- The new event falls into its window; the others fall where they fell. -/
theorem NewEvent.falls (h : NewEvent s s' call created_at) :
    s'.Falls org start stop k ↔ s.Falls org start stop k ∨
      (k = call.key ∧ call.organization_id = org ∧ Within start stop created_at) := by
  rw [Store.Falls, Store.Falls, h.usage]
  by_cases hk : k = call.key
  · subst hk
    rw [Function.update_self, h.fresh]
    simp [UsageRecord.key, UsageRecord.row]
  · rw [Function.update_of_ne hk]
    simp [hk]

omit [DecidableEq T] in
/-- It has belonged to no window before. -/
theorem NewEvent.not_falls (h : NewEvent s s' call created_at) :
    ¬ s.Falls org start stop call.key := by
  rintro ⟨-, ev, hev, -⟩
  rw [h.fresh] at hev
  cases hev

omit [DecidableEq T] in
/-- Rows that have been billed are committed, so that the new event is not among them. -/
theorem NewEvent.rated (h : NewEvent s s' call created_at) (hr : Rated s invoice)
    (hfalls : ∀ k ∈ invoice.billed, s.Falls org start stop k) : Rated s' invoice := by
  refine ⟨?_, hr.total_cents⟩
  rw [hr.lines]
  refine congrArg _ (totals_congr fun k hk => ?_)
  have hne : k ≠ call.key := by
    rintro rfl
    exact h.not_falls (hfalls _ hk)
  rw [h.usage, Function.update_of_ne hne]

omit [DecidableEq T] in
/-- And it leaves the frontier where it is. -/
theorem NewEvent.ahead (h : NewEvent s s' call created_at) (ha : Ahead s org start) :
    Ahead s' org start := by
  intro hfree
  rw [h.invoices] at hfree
  rw [h.windows]
  exact ha hfree

omit [DecidableEq T] in
/-- An event that is not too late keeps the global invariant. -/
theorem Periods.of_newEvent (hP : Periods s) (h : NewEvent s s' call created_at)
    (hx : created_at ≤ s.clock) (hok : ¬ Closed s call.organization_id created_at) :
    Periods s' where
  tiling org := by
    obtain ⟨m, hm, htile⟩ := hP.tiling org
    exact ⟨m, hm.trans h.clock.ge, by rw [h.windows]; exact htile⟩
  stamped {k ev} hk := by
    rw [h.clock]
    by_cases hkey : k = call.key
    · rw [h.usage, hkey, Function.update_self, Option.some.injEq] at hk
      rw [← hk]
      exact hx
    · rw [h.usage, Function.update_of_ne hkey] at hk
      exact hP.stamped hk
  rated hi := by
    rw [h.invoices] at hi
    exact h.rated (hP.rated hi) fun k hk => (hP.billed hi k).mp hk
  billed {org start invoice} hi k := by
    rw [h.invoices] at hi
    rw [hP.billed hi, h.falls]
    refine ⟨.inl, ?_⟩
    rintro (hold | ⟨-, rfl, hwithin⟩)
    · exact hold
    · exact absurd ⟨start, invoice, hi, hwithin⟩ hok

omit [DecidableEq T] in
/-- The assertion of a close that does not miss the event. -/
theorem Stage.of_newEvent (hS : Stage s p) (h : NewEvent s s' call created_at)
    (hok : ¬ Missed s p call.organization_id created_at) : Stage s' p := by
  cases p with
  | insertUsage _ _ | usageCommit _ _ => exact hS.trans h.clock.ge
  | readClock org _ start => exact ⟨hS.1.trans h.clock.ge, h.ahead hS.2⟩
  | readUsage org _ start stop => exact ⟨hS.1, hS.2.1.trans h.clock.ge, h.ahead hS.2.2⟩
  | insertInvoice org start invoice | invoiceCommit org start invoice =>
      refine ⟨hS.le, hS.le_clock.trans h.clock.ge, h.ahead hS.ahead,
        h.rated hS.rated hS.falls, fun k hk => h.falls.mpr (.inl (hS.falls k hk)),
        fun hfree k hk => ?_⟩
      rw [h.invoices] at hfree
      rcases h.falls.mp hk with hold | ⟨-, rfl, hwithin⟩
      · exact hS.complete hfree k hold
      · exact absurd ⟨rfl, hfree, hwithin⟩ hok
  | _ => trivial

/-! ### A new invoice -/

/-- One more invoice for a start that was free. -/
structure NewInvoice (s s' : Store T) (org : Uuid) (start : ℕ) (invoice : Invoice) :
    Prop where
  invoices : s'.invoices.committed =
    Function.update s.invoices.committed (org, start) (some invoice)
  fresh : s.invoices.committed (org, start) = none
  usage : s'.usage.committed = s.usage.committed
  clock : s'.clock = s.clock

/-- The commit of a close adds the invoice that it has inserted. -/
theorem InvoicePending.newInvoice (h : InvoicePending t s org start invoice) :
    NewInvoice s (s.commit t) org start invoice :=
  ⟨h.committed.1, h.fresh, h.committed.2, rfl⟩

omit [DecidableEq T] in
/-- The windows of the organisation are extended, ... -/
theorem NewInvoice.windows_self (h : NewInvoice s s' org start invoice) :
    s'.windows org =
      Function.update (s.windows org) start (some invoice.period_end) := by
  funext start'
  rw [Store.windows, h.invoices]
  by_cases hstart : start' = start
  · subst hstart
    rw [Function.update_self, Function.update_self]
    rfl
  · rw [Function.update_of_ne hstart, Function.update_of_ne (by simp [hstart])]
    rfl

omit [DecidableEq T] in
/-- ... and those of the others stay. -/
theorem NewInvoice.windows_of_ne {org' : Uuid} (h : NewInvoice s s' org start invoice)
    (horg : org' ≠ org) : s'.windows org' = s.windows org' := by
  funext start'
  rw [Store.windows, h.invoices, Function.update_of_ne (by simp [horg])]
  rfl

omit [DecidableEq T] in
/-- A new invoice changes no event. -/
theorem NewInvoice.falls {org' : Uuid} {start' : ℕ}
    (h : NewInvoice s s' org start invoice) :
    s'.Falls org' start' stop k ↔ s.Falls org' start' stop k := by
  rw [Store.Falls, Store.Falls, h.usage]

omit [DecidableEq T] in
/-- And no line of another invoice. -/
theorem NewInvoice.rated {invoice' : Invoice} (h : NewInvoice s s' org start invoice)
    (hr : Rated s invoice') : Rated s' invoice' :=
  ⟨by rw [h.usage]; exact hr.lines, hr.total_cents⟩

omit [DecidableEq T] in
/-- A start that is still free had been free before. -/
theorem NewInvoice.free {k : Uuid × ℕ} (h : NewInvoice s s' org start invoice)
    (hk : s'.invoices.committed k = none) :
    k ≠ (org, start) ∧ s.invoices.committed k = none := by
  by_cases hkey : k = (org, start)
  · rw [h.invoices, hkey, Function.update_self] at hk
    cases hk
  · rw [h.invoices, Function.update_of_ne hkey] at hk
    exact ⟨hkey, hk⟩

omit [DecidableEq T] in
/-- The new window extends the tiling of its organisation. -/
theorem NewInvoice.tiling (h : NewInvoice s s' org start invoice)
    (hsnap : Snapshot s org start invoice) : Tiling (s'.windows org) invoice.period_end := by
  rw [h.windows_self]
  have hfree : s.windows org start = none := by rw [Store.windows, h.fresh]; rfl
  exact (hsnap.ahead h.fresh).extend hfree hsnap.le

omit [DecidableEq T] in
/-- **The start that the new invoice has taken was the frontier**: any other start of the
organisation that is still free would be the frontier as well. -/
theorem NewInvoice.ahead {org' : Uuid} {start' : ℕ}
    (h : NewInvoice s s' org start invoice) (hsnap : Snapshot s org start invoice)
    (ha : Ahead s org' start') : Ahead s' org' start' := by
  intro hfree
  obtain ⟨hne, hfree⟩ := h.free hfree
  by_cases horg : org' = org
  · subst horg
    obtain rfl : start' = start := (ha hfree).frontier.unique (hsnap.ahead h.fresh).frontier
    exact absurd rfl hne
  · rw [h.windows_of_ne horg]
    exact ha hfree

omit [DecidableEq T] in
/-- The invoice of a complete snapshot keeps the global invariant. -/
theorem Periods.of_newInvoice (hP : Periods s) (h : NewInvoice s s' org start invoice)
    (hsnap : Snapshot s org start invoice) : Periods s' where
  tiling org' := by
    by_cases horg : org' = org
    · subst horg
      exact ⟨_, hsnap.le_clock.trans h.clock.ge, h.tiling hsnap⟩
    · obtain ⟨m, hm, htile⟩ := hP.tiling org'
      exact ⟨m, hm.trans h.clock.ge, by rw [h.windows_of_ne horg]; exact htile⟩
  stamped hk := by
    rw [h.usage] at hk
    exact (hP.stamped hk).trans h.clock.ge
  rated {org' start' invoice'} hi := by
    by_cases hkey : (org', start') = (org, start)
    · rw [h.invoices, hkey, Function.update_self, Option.some.injEq] at hi
      exact h.rated (hi ▸ hsnap.rated)
    · rw [h.invoices, Function.update_of_ne hkey] at hi
      exact h.rated (hP.rated hi)
  billed {org' start' invoice'} hi k := by
    rw [h.falls]
    by_cases hkey : (org', start') = (org, start)
    · rw [h.invoices, hkey, Function.update_self, Option.some.injEq] at hi
      obtain ⟨rfl, rfl⟩ := Prod.mk.inj hkey
      subst hi
      exact ⟨hsnap.falls k, hsnap.complete h.fresh k⟩
    · rw [h.invoices, Function.update_of_ne hkey] at hi
      exact hP.billed hi k

omit [DecidableEq T] in
/-- The other closes do not mind: a start that is still free is ahead of the new window. -/
theorem Stage.of_newInvoice (hS : Stage s p) (h : NewInvoice s s' org start invoice)
    (hsnap : Snapshot s org start invoice) : Stage s' p := by
  cases p with
  | insertUsage _ _ | usageCommit _ _ => exact hS.trans h.clock.ge
  | readClock _ _ _ => exact ⟨hS.1.trans h.clock.ge, h.ahead hsnap hS.2⟩
  | readUsage _ _ _ _ => exact ⟨hS.1, hS.2.1.trans h.clock.ge, h.ahead hsnap hS.2.2⟩
  | insertInvoice _ _ invoice' | invoiceCommit _ _ invoice' =>
      exact ⟨hS.le, hS.le_clock.trans h.clock.ge, h.ahead hsnap hS.ahead,
        h.rated hS.rated, fun k hk => h.falls.mpr (hS.falls k hk),
        fun hfree k hk => hS.complete (h.free hfree).2 k (h.falls.mp hk)⟩
  | _ => trivial

end BackendManager.Usage
