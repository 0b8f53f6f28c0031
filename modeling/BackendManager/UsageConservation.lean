import BackendManager.UsagePeriods
import Mathlib.Data.Fintype.Basic

/-!
# Every Usage Event Is Billed Once, Unless It Commits After Its Window Was Read

An event belongs to the window that its `created_at` falls into, and it is billed if it is
visible when the close of that window reads the usage. The first is decided when its
transaction starts, the second when it commits. An event that starts before a close takes
its period end and commits after that close has read the usage is in the closed window
without being billed, and no later window contains it.

Apart from that, usage is conserved.

## Main results

* `periods_of_exec`, `periods_of_run`: the invariant of `BackendManager.UsagePeriods` along
  orderly runs.
* `billed_once`: in runs in which no event commits behind a close that has read its window,
  every event of a closed window is billed in exactly that window; and a commit that does
  come too late breaks the conservation, at once or with the invoice of the close that has
  missed it.
* `event_lost`: an event that is committed and never billed.
-/

namespace BackendManager.Usage

open ReadCommitted Interleaving Metering Windows

variable {T : Type} [DecidableEq T] {t u v : T} {s s' : Store T} {p p' : Proc} {a : Act}
  {env : Env} {call : UsageRecord} {created_at start stop : ℕ} {org : Uuid} {plan : String}
  {invoice : Invoice} {k : Uuid × String} {c d e : Config T (Store T) Proc}

/-- **Conservation.** What has been committed so far is billed at most once, and nothing is
left behind in a closed window. -/
structure Conserved (s : Store T) : Prop where
  /-- No event is billed by two invoices. -/
  once : ∀ {org start invoice org' start' invoice' k},
    s.invoices.committed (org, start) = some invoice →
    s.invoices.committed (org', start') = some invoice' →
    k ∈ invoice.billed → k ∈ invoice'.billed → org = org' ∧ start = start'
  /-- Every event of a closed window is billed by its invoice. -/
  complete : ∀ {org start invoice k}, s.invoices.committed (org, start) = some invoice →
    s.Falls org start invoice.period_end k → k ∈ invoice.billed
  /-- An invoice charges the quantities of the events that it bills. -/
  rated : ∀ {org start invoice}, s.invoices.committed (org, start) = some invoice →
    Rated s invoice

omit [DecidableEq T] in
/-- The invariant gives conservation. -/
theorem Periods.conserved (h : Periods s) : Conserved s where
  once {org start invoice org' start' invoice' k} hi hi' hk hk' := by
    obtain ⟨horg, ev, hev, hx⟩ := (h.billed hi k).mp hk
    obtain ⟨horg', ev', hev', hx'⟩ := (h.billed hi' k).mp hk'
    obtain rfl : org = org' := horg.symm.trans horg'
    obtain rfl : ev = ev' := Option.some.inj (hev.symm.trans hev')
    obtain ⟨m, -, htile⟩ := h.tiling org
    have hw : s.windows org start = some invoice.period_end := by rw [Store.windows, hi]; rfl
    have hw' : s.windows org start' = some invoice'.period_end := by
      rw [Store.windows, hi']; rfl
    exact ⟨rfl, htile.start_unique hw hw' hx hx'⟩
  complete hi hk := (h.billed hi _).mpr hk
  rated hi := h.rated hi

/-! ### The conditions on a run -/

/-- All clocks agree: `_utcnow()` reads the clock of the database. -/
def SharedClock (c : Config T (Store T) Proc) (t : T) (a : Act) : Prop :=
  match a, c.proc t with
  | .stmt env, .readClock _ _ _ => env.now = c.shared.clock
  | _, _ => True

/-- An event that commits does not come too late: no window that contains its `created_at`
has been closed, and no close that can still succeed has read the usage of one. -/
def Timely (c : Config T (Store T) Proc) (t : T) (a : Act) : Prop :=
  match a, c.proc t with
  | .stmt _, .usageCommit call created_at =>
      (∀ u, ¬ Missed c.shared (c.proc u) call.organization_id created_at) ∧
        ¬ Closed c.shared call.organization_id created_at
  | _, _ => True

/-- The condition on the state before each step. -/
def Orderly (c : Config T (Store T) Proc) (t : T) (a : Act) : Prop :=
  SharedClock c t a ∧ Timely c t a

instance (c : Config T (Store T) Proc) (t : T) (a : Act) : Decidable (SharedClock c t a) := by
  unfold SharedClock
  split <;> infer_instance

instance [Fintype T] (c : Config T (Store T) Proc) (t : T) (a : Act) :
    Decidable (Timely c t a) := by
  unfold Timely
  split <;> infer_instance

instance [Fintype T] (c : Config T (Store T) Proc) (t : T) (a : Act) :
    Decidable (Orderly c t a) :=
  inferInstanceAs (Decidable (_ ∧ _))

/-! ### Every run -/

/-- **One step.** An orderly action keeps the global invariant, establishes the next
assertion of its request, and keeps those of the others. -/
theorem periods_of_exec (hok : Orderly c t a) (hP : Periods c.shared)
    (hF : Footprint t c.shared (c.proc t)) (hS : ∀ u, Stage c.shared (c.proc u))
    (h : exec t a c.shared (c.proc t) = some (s', p')) :
    Periods s' ∧ Stage s' p' ∧ ∀ u, Stage s' (c.proc u) := by
  have hclock : ∀ org plan start env, c.proc t = .readClock org plan start → a = .stmt env →
      env.now = c.shared.clock := by
    rintro org plan start env hp rfl
    simpa only [SharedClock, hp] using hok.1
  have hnext : Stage c.shared p' := (step_of_exec h).stage (hS t) hP hF hclock
  have hsame : SameRows c.shared s' →
      Periods s' ∧ Stage s' p' ∧ ∀ u, Stage s' (c.proc u) := fun hrows =>
    ⟨hP.of_sameRows hrows, hnext.of_sameRows hrows, fun u => (hS u).of_sameRows hrows⟩
  rcases exec_cases h with hpriv | ⟨rfl, -⟩ | ⟨call, x, hp, rfl, rfl⟩ |
    ⟨org, start, invoice, hp, rfl, rfl⟩
  · exact hsame (.of_private hpriv)
  · exact hsame (.of_tick _)
  · have hSt := hS t
    rw [hp] at hF hSt
    have htimely : (∀ u, ¬ Missed c.shared (c.proc u) call.organization_id x) ∧
        ¬ Closed c.shared call.organization_id x := by
      rw [hp] at h
      generalize c.shared.commit t = s' at h
      cases step_of_exec h with
      | usageCommit => simpa only [Timely, hp] using hok.2
    have hnew := hF.newEvent
    exact ⟨hP.of_newEvent hnew hSt htimely.2, trivial,
      fun u => (hS u).of_newEvent hnew (htimely.1 u)⟩
  · have hSt := hS t
    rw [hp] at hF hSt
    have hnew := hF.newInvoice
    exact ⟨hP.of_newInvoice hnew hSt, trivial, fun u => (hS u).of_newInvoice hnew hSt⟩

/-- The proof outline of the billing periods. -/
theorem outline : program.Outline (Orderly (T := T)) Periods
    (fun u s p => Footprint u s p ∧ Stage s p) where
  step hok hP hL h := by
    obtain ⟨hP', hS', -⟩ := periods_of_exec hok hP (hL _).1 (fun u => (hL u).2) h
    exact ⟨hP', (step_of_exec h).footprint (hL _).1, hS'⟩
  frame hu hok hP hL h := by
    obtain ⟨-, -, hS'⟩ := periods_of_exec hok hP (hL _).1 (fun u => (hL u).2) h
    exact ⟨(hL _).1.of_undisturbed (undisturbed_of_exec h hu), hS' _⟩

/-- **The invariant holds along every orderly run.** -/
theorem periods_of_run (h : program.Run Orderly init c) :
    Periods c.shared ∧ ∀ u, Footprint u c.shared (c.proc u) ∧ Stage c.shared (c.proc u) :=
  outline.run h
    ⟨fun _ => ⟨0, le_refl _, .empty⟩, fun hk => (nomatch hk), fun hi => (nomatch hi),
      fun hi => (nomatch hi)⟩
    fun u => ⟨footprint_init u, trivial⟩

/-! ### A later close -/

/-- Committed events and invoices stay as they are, and the clock does not run backwards. -/
structure Grows (s s' : Store T) : Prop where
  usage : ∀ k ev, s.usage.committed k = some ev → s'.usage.committed k = some ev
  invoices : ∀ k invoice, s.invoices.committed k = some invoice →
    s'.invoices.committed k = some invoice
  clock : s.clock ≤ s'.clock

/-- Publishing a row under an unused key. -/
theorem update_of_fresh {K V : Type} [DecidableEq K] {f : K → Option V} {k j : K} {v w : V}
    (hk : f k = none) (hj : f j = some w) : Function.update f k (some v) j = some w := by
  have hne : j ≠ k := by
    rintro rfl
    rw [hk] at hj
    cases hj
  rw [Function.update_of_ne hne, hj]

/-- **One step.** Rows are only added. -/
theorem grows_of_exec (hF : Footprint t s p) (h : exec t a s p = some (s', p')) :
    Grows s s' := by
  rcases exec_cases h with hpriv | ⟨rfl, -⟩ | ⟨call, x, rfl, -, rfl⟩ |
    ⟨org, start, invoice, rfl, -, rfl⟩
  · exact ⟨fun k ev hk => by rw [hpriv.usage.committed, hk],
      fun k i hk => by rw [hpriv.invoices.committed, hk], hpriv.clock.ge⟩
  · exact ⟨fun _ _ h => h, fun _ _ h => h, Nat.le_succ _⟩
  · have hnew := hF.newEvent
    exact ⟨fun k ev hk => by rw [hnew.usage, update_of_fresh hnew.fresh hk],
      fun k i hk => by rw [hnew.invoices, hk], hnew.clock.ge⟩
  · have hnew := hF.newInvoice
    exact ⟨fun k ev hk => by rw [hnew.usage, hk],
      fun k i hk => by rw [hnew.invoices, update_of_fresh hnew.fresh hk], hnew.clock.ge⟩

/-- An assertion of one request, kept by its own actions and by whatever is added, holds
along every run. -/
theorem assertion_of_run {ok : Config T (Store T) Proc → T → Act → Prop} {A : Store T → Proc → Prop}
    (hF : ∀ u, Footprint u c.shared (c.proc u))
    (hstep : ∀ c a s' p', ok c v a → Footprint v c.shared (c.proc v) →
      A c.shared (c.proc v) → exec v a c.shared (c.proc v) = some (s', p') → A s' p')
    (hframe : ∀ s s' p, Grows s s' → A s p → A s' p)
    (h : program.Run ok c d) (hA : A c.shared (c.proc v)) : A d.shared (d.proc v) := by
  induction h with
  | refl => exact hA
  | @step d₀ d₁ u a hrun hok hs ih =>
      obtain ⟨s', p', hexec, rfl⟩ := Program.step_eq_some_iff.mp hs
      have hFd := footprint_of_run hF hrun u
      by_cases hu : v = u
      · subst hu
        simpa using hstep _ _ _ _ hok hFd ih hexec
      · simpa [Function.update_of_ne hu] using hframe _ _ _ (grows_of_exec hFd hexec) ih

/-- Everything only grows along a run. -/
theorem grows_of_run {ok : Config T (Store T) Proc → T → Act → Prop}
    (hF : ∀ u, Footprint u c.shared (c.proc u)) (h : program.Run ok c d) :
    Grows c.shared d.shared := by
  induction h with
  | refl => exact ⟨fun _ _ h => h, fun _ _ h => h, le_refl _⟩
  | @step d₀ d₁ u a hrun hok hstep ih =>
      obtain ⟨s', p', hexec, rfl⟩ := Program.step_eq_some_iff.mp hstep
      have hgrows := grows_of_exec (footprint_of_run hF hrun u) hexec
      exact ⟨fun k ev hk => hgrows.usage k ev (ih.usage k ev hk),
        fun k i hk => hgrows.invoices k i (ih.invoices k i hk), ih.clock.trans hgrows.clock⟩

/-- The close has read the usage, its invoice satisfies `P`, and it has committed that
invoice if it has succeeded. -/
def Carries (P : Uuid → ℕ → Invoice → Prop) (s : Store T) : Proc → Prop
  | .insertInvoice org start invoice | .invoiceCommit org start invoice => P org start invoice
  | .closed org start =>
      ∃ invoice, s.invoices.committed (org, start) = some invoice ∧ P org start invoice
  | .findExisting _ _ | .converged _ _ | .raised => True
  | _ => False

variable {P : Uuid → ℕ → Invoice → Prop}

omit [DecidableEq T] in
/-- A close carries what it has read while rows are added. -/
theorem Carries.grows (hC : Carries P s p) (h : Grows s s') : Carries P s' p := by
  cases p with
  | closed org start =>
      obtain ⟨invoice, hi, hP⟩ := hC
      exact ⟨invoice, h.invoices _ _ hi, hP⟩
  | _ => exact hC

/-- A close keeps the invoice that it has rated. -/
theorem Step.carries (h : Step t s a p s' p') (hC : Carries P s p) (hF : Footprint t s p) :
    Carries P s' p' := by
  cases h with
  | tick => exact hC.grows ⟨fun _ _ h => h, fun _ _ h => h, Nat.le_succ _⟩
  | fail | invoiceViolation => trivial
  | insertInvoice => exact hC
  | invoiceCommit => exact ⟨_, by rw [hF.newInvoice.invoices, Function.update_self], hC⟩
  | existing hnext => rcases hnext with rfl | rfl <;> trivial
  | _ => cases hC

/-- The request has not read the usage yet, and has not taken a period end before `x`. -/
def Early (x : ℕ) : Proc → Prop
  | .readUsage _ _ _ stop => x ≤ stop
  | .idle | .insertUsage _ _ | .usageCommit _ _ | .findDuplicate _ | .recorded _ _
  | .periodStart _ _ | .readClock _ _ _ => True
  | _ => False

/-- From time `x` on, no close takes a period end before `x`. -/
theorem Step.early {x : ℕ} (h : Step t s a p s' p') (hE : Early x p) (hx : x ≤ s.clock)
    (hclock : ∀ org plan start env, p = .readClock org plan start → a = .stmt env →
      env.now = s.clock) :
    Early x p' ∨ Carries (fun _ _ invoice => x ≤ invoice.period_end) s' p' := by
  cases h with
  | tick => exact .inl hE
  | record | close | insertUsage | usageViolation | usageCommit | periodStart =>
      exact .inl trivial
  | fail => exact .inr trivial
  | duplicate hnext =>
      rcases hnext with rfl | rfl
      · exact .inl trivial
      · exact .inr trivial
  | readClock => exact .inl (hx.trans (hclock _ _ _ _ rfl rfl).ge)
  | readUsage => exact .inr hE
  | _ => cases hE

/-- **A close that starts at time `x` or later ends its period no earlier.** -/
theorem period_end_of_run {x : ℕ} (hF : ∀ u, Footprint u c.shared (c.proc u))
    (hx : x ≤ c.shared.clock) (hidle : c.proc t = .idle) (h : program.Run Orderly c d)
    (hd : d.proc t = .closed org start) :
    ∃ invoice, d.shared.invoices.committed (org, start) = some invoice ∧
      x ≤ invoice.period_end := by
  have hlater : x ≤ d.shared.clock ∧ (Early x (d.proc t) ∨
      Carries (fun _ _ invoice => x ≤ invoice.period_end) d.shared (d.proc t)) := by
    refine assertion_of_run (A := fun s p => x ≤ s.clock ∧ (Early x p ∨
      Carries (fun _ _ invoice => x ≤ invoice.period_end) s p)) hF ?_ ?_ h
      ⟨hx, .inl (by rw [hidle]; trivial)⟩
    · rintro c₀ a s' p' hok hF₀ ⟨hx₀, hearly | hcarries⟩ hexec
      · have hclock : ∀ org plan start env, c₀.proc t = .readClock org plan start →
            a = .stmt env → env.now = c₀.shared.clock := by
          rintro org plan start env hp rfl
          simpa only [SharedClock, hp] using hok.1
        exact ⟨hx₀.trans (grows_of_exec hF₀ hexec).clock,
          (step_of_exec hexec).early hearly hx₀ hclock⟩
      · exact ⟨hx₀.trans (grows_of_exec hF₀ hexec).clock,
          .inr ((step_of_exec hexec).carries hcarries hF₀)⟩
    · rintro s₀ s₁ p₀ hgrows ⟨hx₀, hearly | hcarries⟩
      · exact ⟨hx₀.trans hgrows.clock, .inl hearly⟩
      · exact ⟨hx₀.trans hgrows.clock, .inr (hcarries.grows hgrows)⟩
  rcases hlater.2 with hearly | hcarries
  · rw [hd] at hearly
    cases hearly
  · rw [hd] at hcarries
    exact hcarries

omit [DecidableEq T] in
/-- An event before the frontier is billed exactly once. -/
theorem Periods.billed_of_lt {ev : UsageEvent} (hP : Periods s)
    (hk : s.usage.committed k = some ev)
    (hi : s.invoices.committed (k.1, start) = some invoice)
    (hlt : ev.created_at < invoice.period_end) :
    ∃! start', ∃ invoice', s.invoices.committed (k.1, start') = some invoice' ∧
      k ∈ invoice'.billed := by
  obtain ⟨m, -, htile⟩ := hP.tiling k.1
  have hw : s.windows k.1 start = some invoice.period_end := by rw [Store.windows, hi]; rfl
  obtain ⟨start', stop', hw', hx⟩ := htile.cover (hlt.trans_le (htile.le_frontier hw))
  obtain ⟨invoice', hi', rfl⟩ := Option.map_eq_some_iff.mp hw'
  refine ⟨start', ⟨invoice', hi', (hP.billed hi' k).mpr ⟨rfl, ev, hk, hx⟩⟩, ?_⟩
  rintro start'' ⟨invoice'', hi'', hbilled⟩
  exact (hP.conserved.once hi'' hi' hbilled ((hP.billed hi' k).mpr ⟨rfl, ev, hk, hx⟩)).2

/-! ### A commit that comes too late -/

/-- A close that has read the usage without an event of its window breaks the conservation
when it succeeds. -/
theorem not_conserved_of_missed {ev : UsageEvent} (hF : ∀ u, Footprint u c.shared (c.proc u))
    (hk : c.shared.usage.committed k = some ev)
    (hv : Carries (fun org start invoice => k.1 = org ∧ k ∉ invoice.billed ∧
      Within start invoice.period_end ev.created_at) c.shared (c.proc v))
    (h : program.Run Any c d) (hd : d.proc v = .closed org start) : ¬ Conserved d.shared := by
  have hcarries := assertion_of_run (A := Carries _) hF
    (fun _ _ _ _ _ hF₀ hC hexec => (step_of_exec hexec).carries hC hF₀)
    (fun _ _ _ hg hC => hC.grows hg) h hv
  rw [hd] at hcarries
  obtain ⟨invoice, hi, rfl, hunbilled, hx⟩ := hcarries
  intro hcons
  exact hunbilled (hcons.complete hi ⟨rfl, ev, (grows_of_run hF h).usage _ _ hk, hx⟩)

omit [DecidableEq T] in
/-- A commit that is not timely is that of an event, and comes too late. -/
theorem late_of_not_timely (h : ¬ Timely c t a) :
    ∃ env call x, a = .stmt env ∧ c.proc t = .usageCommit call x ∧
      ((∃ v, Missed c.shared (c.proc v) call.organization_id x) ∨
        Closed c.shared call.organization_id x) := by
  unfold Timely at h
  split at h
  · rename_i env call x hp
    refine ⟨env, call, x, rfl, hp, ?_⟩
    by_contra hnone
    rw [not_or] at hnone
    exact h ⟨fun u hu => hnone.1 ⟨u, hu⟩, hnone.2⟩
  · exact absurd trivial h

omit [DecidableEq T] in
/-- A close that has missed the new event carries an invoice without it. -/
theorem Missed.carries {call : UsageRecord} {x : ℕ} (hm : Missed s p call.organization_id x)
    (hS : Stage s p) (hnew : NewEvent s s' call x) :
    Carries (fun org start invoice => call.key.1 = org ∧ call.key ∉ invoice.billed ∧
      Within start invoice.period_end x) s' p := by
  cases p with
  | insertInvoice org start invoice | invoiceCommit org start invoice =>
      exact ⟨hm.1.symm, fun hbilled => hnew.not_falls (hS.falls _ hbilled), hm.2.2⟩
  | _ => cases hm

omit [DecidableEq T] in
/-- A closed window does not bill the new event. -/
theorem NewEvent.not_conserved {call : UsageRecord} {x : ℕ} (hnew : NewEvent s s' call x)
    (hP : Periods s) (hclosed : Closed s call.organization_id x) : ¬ Conserved s' := by
  rintro hcons
  obtain ⟨start, invoice, hi, hx⟩ := hclosed
  have hi' : s'.invoices.committed (call.organization_id, start) = some invoice := by
    rw [hnew.invoices, hi]
  have hk : s'.usage.committed call.key = some (call.row x) := by
    rw [hnew.usage, Function.update_self]
  have hbilled : call.key ∈ invoice.billed := hcons.complete hi' ⟨rfl, _, hk, hx⟩
  exact hnew.not_falls ((hP.billed hi _).mp hbilled)

/-- **The condition is exact.** An event that commits too late is in a closed window without
being billed, or will be when the close that has missed it succeeds. -/
theorem not_conserved_of_late (hP : Periods c.shared)
    (hF : ∀ u, Footprint u c.shared (c.proc u)) (hS : ∀ u, Stage c.shared (c.proc u))
    (hlate : ¬ Timely c t a) (h : program.step c t a = some d) :
    ∃ call x, c.proc t = .usageCommit call x ∧ (¬ Conserved d.shared ∨
      ∃ v, Missed c.shared (c.proc v) call.organization_id x ∧
        ∀ e org start, program.Run Any d e → e.proc v = .closed org start →
          ¬ Conserved e.shared) := by
  obtain ⟨env, call, x, rfl, hp, hlate⟩ := late_of_not_timely hlate
  obtain ⟨s', p', hexec, hd⟩ := Program.step_eq_some_iff.mp h
  have hFt := hF t
  rw [hp] at hFt
  have hexec' : exec t (.stmt env) c.shared (.usageCommit call x) = some (s', p') := by
    rw [← hp]
    exact hexec
  obtain ⟨rfl, rfl⟩ := Prod.mk.inj (Option.some.inj hexec')
  have hnew := hFt.newEvent
  have hkey : d.shared.usage.committed call.key = some (call.row x) := by
    rw [hd, hnew.usage, Function.update_self]
  refine ⟨call, x, hp, ?_⟩
  rcases hlate with ⟨v, hmissed⟩ | hclosed
  · -- a close has read the usage: its snapshot lacks the event
    refine .inr ⟨v, hmissed, fun e org start hrun hclosed => ?_⟩
    have hvt : v ≠ t := by
      rintro rfl
      rw [hp] at hmissed
      exact hmissed
    have hF' := footprint_of_run hF (.step (.refl c) trivial h : program.Run Any c d)
    have hproc : d.proc v = c.proc v := by rw [hd]; exact Function.update_of_ne hvt _ _
    refine not_conserved_of_missed hF' hkey ?_ hrun hclosed
    rw [hproc, hd]
    exact hmissed.carries (hS v) hnew
  · -- the window is closed already
    rw [hd]
    exact .inl (hnew.not_conserved hP hclosed)

/-- **Billed once.** In runs with one clock, in which no event commits after its window has
been read, usage is conserved; and an event is billed by exactly one invoice as soon as a
close that has started after its commit has succeeded, unless that close has taken its
period end in the very microsecond of the event's transaction. The first commit that comes
too late ends the conservation, at once or with the invoice of the close that missed it. -/
theorem billed_once (h : program.Run Orderly init c) :
    Conserved c.shared ∧
      (∀ d t k ev start, program.Run Orderly c d → c.shared.usage.committed k = some ev →
        c.proc t = .idle → d.proc t = .closed k.1 start →
        d.shared.windows k.1 start ≠ some ev.created_at →
        ∃! start', ∃ invoice, d.shared.invoices.committed (k.1, start') = some invoice ∧
          k ∈ invoice.billed) ∧
      ∀ d t a, ¬ Timely c t a → program.step c t a = some d →
        ∃ call x, c.proc t = .usageCommit call x ∧ (¬ Conserved d.shared ∨
          ∃ v, Missed c.shared (c.proc v) call.organization_id x ∧
            ∀ e org start, program.Run Any d e → e.proc v = .closed org start →
              ¬ Conserved e.shared) := by
  obtain ⟨hP, hL⟩ := periods_of_run h
  have hF := fun u => (hL u).1
  refine ⟨hP.conserved, fun d t k ev start hrun hk hidle hclosed hne => ?_,
    fun d t a hlate hstep => not_conserved_of_late hP hF (fun u => (hL u).2) hlate hstep⟩
  obtain ⟨hP', -⟩ := periods_of_run (h.trans hrun)
  obtain ⟨invoice, hi, hle⟩ := period_end_of_run hF (hP.stamped hk) hidle hrun hclosed
  have hk' := (grows_of_run hF hrun).usage k ev hk
  refine hP'.billed_of_lt hk' hi (lt_of_le_of_ne hle fun heq => hne ?_)
  rw [Store.windows, hi, heq]
  rfl

/-! ### Two schedules -/

/-- A statement; `now` is what `_utcnow()` reads in it. -/
def at_ (now : ℕ) : Act := .stmt ⟨now, false⟩

/-- The organisation of the schedules. -/
def someOrg : Uuid := Uuid.ofNat 7

/-- Five units of usage. -/
def someUsage : UsageRecord := ⟨someOrg, "api_calls", 5, "event"⟩

/-- A close at time `now` that is not disturbed, up to the read of the usage. -/
def closeUpToRead (t : T) (now : ℕ) : List (T × Act) :=
  [(t, .close someOrg "free"), (t, at_ now), (t, at_ now), (t, at_ now)]

set_option maxRecDepth 10000 in
/-- Usage is recorded and the period is closed one microsecond later. -/
theorem billed_once_closedPeriod :
    ∃ c d : Config (Fin 2) (Store (Fin 2)) Proc, program.Run Orderly init c ∧
      c.shared.usage.committed someUsage.key = some (someUsage.row 0) ∧ c.proc 1 = .idle ∧
      program.Run Orderly c d ∧ d.proc 1 = .closed someOrg 0 ∧
      d.shared.windows someOrg 0 ≠ some 0 ∧
      ∃! start, ∃ invoice, d.shared.invoices.committed (someOrg, start) = some invoice ∧
        someUsage.key ∈ invoice.billed := by
  have hreplay : (program.replay Orderly init
      [((0 : Fin 2), .record someUsage), (0, at_ 0), (0, at_ 0)]).any (fun c =>
        decide (c.shared.usage.committed someUsage.key = some (someUsage.row 0) ∧
          c.proc 1 = .idle) &&
        (program.replay Orderly c
          ([(1, .tick)] ++ closeUpToRead 1 1 ++ [(1, at_ 1), (1, at_ 1)])).any fun d =>
            decide (d.proc 1 = .closed someOrg 0 ∧
              d.shared.windows someOrg 0 ≠ some 0)) = true := by
    decide
  obtain ⟨c, hrun, hp⟩ := Program.exists_run_of_replay hreplay
  simp only [Bool.and_eq_true, decide_eq_true_eq, Option.any_eq_true] at hp
  obtain ⟨⟨hk, hidle⟩, d, hcd, hclosed, hne⟩ := hp
  have hcd := Program.run_of_replay hcd
  exact ⟨c, d, hrun, hk, hidle, hcd, hclosed, hne,
    (billed_once hrun).2.1 d 1 _ _ 0 hcd hk hidle hclosed hne⟩

set_option maxRecDepth 10000 in
/-- The transaction of the event starts at time `0`, and a close takes the period end `1`
and reads the usage before it commits. A second close, which starts when the event has been
committed, succeeds as well; no invoice has billed the event. -/
theorem event_lost :
    ∃ c d : Config (Fin 3) (Store (Fin 3)) Proc,
      program.Run SharedClock init c ∧ program.Run SharedClock c d ∧
        c.shared.usage.committed someUsage.key = some (someUsage.row 0) ∧
        c.proc 2 = .idle ∧ d.proc 2 = .closed someOrg 1 ∧
        d.shared.windows someOrg 1 = some 2 ∧
        ∀ k invoice, d.shared.invoices.committed k = some invoice →
          someUsage.key ∉ invoice.billed := by
  have hreplay : (program.replay SharedClock init
      ([((0 : Fin 3), .record someUsage), (0, at_ 0), (1, .tick)] ++ closeUpToRead 1 1 ++
        [(0, at_ 1), (1, at_ 1), (1, at_ 1)])).any (fun c =>
        decide (c.shared.usage.committed someUsage.key = some (someUsage.row 0) ∧
          c.proc 2 = .idle) &&
        (program.replay SharedClock c
          ([(2, .tick)] ++ closeUpToRead 2 2 ++ [(2, at_ 2), (2, at_ 2)])).any fun d =>
            decide (d.proc 2 = .closed someOrg 1 ∧ d.shared.windows someOrg 1 = some 2 ∧
              ∀ k ∈ d.shared.invoices.keys, (d.shared.invoices.committed k).all
                fun invoice => someUsage.key ∉ invoice.billed)) = true := by
    decide
  obtain ⟨c, hrun, hp⟩ := Program.exists_run_of_replay hreplay
  simp only [Bool.and_eq_true, decide_eq_true_eq, Option.any_eq_true] at hp
  obtain ⟨⟨hk, hidle⟩, d, hcd, hclosed, hwindow, hnone⟩ := hp
  refine ⟨c, d, hrun, Program.run_of_replay hcd, hk, hidle, hclosed, hwindow,
    fun k invoice hi => ?_⟩
  have hall := hnone k (d.shared.invoices.mem_keys_of_committed (by simp [hi]))
  simpa only [hi, Option.all_some, decide_eq_true_eq] using hall

end BackendManager.Usage
