import BackendManager.UsageWindow

/-!
# What One Statement Does to Usage Events and Invoices

Nothing here depends on the clocks. Each request holds at most one uncommitted row, and
which one it is can be read off the statement it executes next: its `Footprint`. What a
statement does to the committed rows is then one of four things (`exec_cases`): nothing,
the clock advances, one new usage event appears, or one new invoice.

A record inserts one event, and a close one invoice, under keys that are unique; a violation
ends the statement with a rollback and leads the request to the look-up of the row that was
first. Nothing is ever updated or deleted: the committed rows only grow, which the invariants of
`BackendManager.UsageConservation` rest on.

## Main results

* `footprint_of_run`: footprints hold along every run.
* `step_of_exec`: every action is one of the cases of `Step`.
* `exec_cases`: the effect of one action on what is committed.
-/

namespace BackendManager.Usage

open ReadCommitted Interleaving Metering

variable {T : Type} [DecidableEq T] {t u : T} {s s' : Store T} {p p' : Proc} {a : Act}
  {env : Env} {call : UsageRecord} {created_at start : ℕ} {org : Uuid} {invoice : Invoice}
  {c d : Config T (Store T) Proc} {ok : Config T (Store T) Proc → T → Act → Prop}

/-! ### Footprints -/

/-- `t` has no uncommitted rows. -/
structure Clean (t : T) (s : Store T) : Prop where
  usage : s.usage.Untouched t
  invoices : s.invoices.Untouched t

/-- `t` has inserted this event under a key that is not committed. -/
structure EventPending (t : T) (s : Store T) (call : UsageRecord) (created_at : ℕ) : Prop where
  usage : s.usage.Sole t call.key (some (call.row created_at))
  invoices : s.invoices.Untouched t
  fresh : s.usage.committed call.key = none

/-- `t` has inserted this invoice for a start that is not committed. -/
structure InvoicePending (t : T) (s : Store T) (org : Uuid) (start : ℕ) (invoice : Invoice) :
    Prop where
  usage : s.usage.Untouched t
  invoices : s.invoices.Sole t (org, start) (some invoice)
  fresh : s.invoices.committed (org, start) = none

/-- The uncommitted rows of a request. -/
def Footprint (t : T) (s : Store T) : Proc → Prop
  | .usageCommit call created_at => EventPending t s call created_at
  | .invoiceCommit org start invoice => InvoicePending t s org start invoice
  | _ => Clean t s

/-- A transaction has no uncommitted rows after its rollback. -/
theorem clean_rollback (t : T) (s : Store T) : Clean t (s.rollback t) :=
  ⟨Table.untouched_rollback _ _, Table.untouched_rollback _ _⟩

/-- Nor after its commit. -/
theorem clean_commit (t : T) (s : Store T) : Clean t (s.commit t) :=
  ⟨Table.untouched_commit _ _, Table.untouched_commit _ _⟩

/-! ### What one action can do -/

/-- From `s` to `s'` only the uncommitted rows of `t` have changed. -/
structure Private (t : T) (s s' : Store T) : Prop where
  usage : Table.Private t s.usage s'.usage
  invoices : Table.Private t s.invoices s'.invoices
  clock : s'.clock = s.clock

/-- Doing nothing is private. -/
theorem Private.refl (t : T) (s : Store T) : Private t s s := ⟨.refl _ _, .refl _ _, rfl⟩

/-- A rollback is private. -/
theorem Private.of_rollback (t : T) (s : Store T) : Private t s (s.rollback t) :=
  ⟨.of_rollback _ _, .of_rollback _ _, rfl⟩

/-- What one action can do, branch by branch. -/
inductive Step (t : T) (s : Store T) : Act → Proc → Store T → Proc → Prop
  | tick {p : Proc} : Step t s .tick p { s with clock := s.clock + 1 } p
  | record {call : UsageRecord} : Step t s (.record call) .idle s (.insertUsage call s.clock)
  | close {org : Uuid} {plan : String} : Step t s (.close org plan) .idle s (.periodStart org plan)
  | fail {p : Proc} (running : p.ended = false) : Step t s .fail p (s.rollback t) .raised
  | insertUsage {env : Env} {call : UsageRecord} {created_at : ℕ}
      {usage : Table T (Uuid × String) UsageEvent} (absent : s.usage.view t call.key = none)
      (put : s.usage.put t call.key (some (call.row created_at)) = some usage) :
      Step t s (.stmt env) (.insertUsage call created_at) { s with usage }
        (.usageCommit call created_at)
  /-- The `INSERT` of an event that violates a constraint. -/
  | usageViolation {env : Env} {call : UsageRecord} {created_at : ℕ} :
      Step t s (.stmt env) (.insertUsage call created_at) (s.rollback t) (.findDuplicate call)
  | usageCommit {env : Env} {call : UsageRecord} {created_at : ℕ} :
      Step t s (.stmt env) (.usageCommit call created_at) (s.commit t) (.recorded call true)
  | duplicate {env : Env} {call : UsageRecord} {p' : Proc}
      (next : p' = .recorded call false ∨ p' = .raised) :
      Step t s (.stmt env) (.findDuplicate call) (s.rollback t) p'
  | periodStart {env : Env} {org : Uuid} {plan : String} :
      Step t s (.stmt env) (.periodStart org plan) s (.readClock org plan (s.periodStart t org))
  | readClock {env : Env} {org : Uuid} {plan : String} {start : ℕ} :
      Step t s (.stmt env) (.readClock org plan start) s (.readUsage org plan start env.now)
  | readUsage {env : Env} {org : Uuid} {plan : String} {start stop : ℕ} :
      Step t s (.stmt env) (.readUsage org plan start stop) s
        (.insertInvoice org start (rated s t org plan start stop))
  | insertInvoice {env : Env} {org : Uuid} {start : ℕ} {invoice : Invoice}
      {invoices : Table T (Uuid × ℕ) Invoice} (absent : s.invoices.view t (org, start) = none)
      (put : s.invoices.put t (org, start) (some invoice) = some invoices) :
      Step t s (.stmt env) (.insertInvoice org start invoice) { s with invoices }
        (.invoiceCommit org start invoice)
  /-- The `INSERT` of an invoice that violates a constraint. -/
  | invoiceViolation {env : Env} {org : Uuid} {start : ℕ} {invoice : Invoice} :
      Step t s (.stmt env) (.insertInvoice org start invoice) (s.rollback t)
        (.findExisting org start)
  | invoiceCommit {env : Env} {org : Uuid} {start : ℕ} {invoice : Invoice} :
      Step t s (.stmt env) (.invoiceCommit org start invoice) (s.commit t) (.closed org start)
  | existing {env : Env} {org : Uuid} {start : ℕ} {p' : Proc}
      (next : p' = .converged org start ∨ p' = .raised) :
      Step t s (.stmt env) (.findExisting org start) (s.rollback t) p'

/-- The `INSERT` of an event finds its key unused, or is rolled back. -/
theorem step_of_insertUsage (h : insertUsage t env call created_at s = some (s', p')) :
    Step t s (.stmt env) (.insertUsage call created_at) s' p' := by
  rw [insertUsage] at h
  split at h
  · obtain ⟨rfl, rfl⟩ := Prod.mk.inj (Option.some.inj h)
    exact .usageViolation
  · rcases Table.insert_map_cases h with ⟨usage, hview, hput, h⟩ | ⟨-, h⟩
    · obtain ⟨rfl, rfl⟩ := Prod.mk.inj h
      exact .insertUsage hview hput
    · obtain ⟨rfl, rfl⟩ := Prod.mk.inj h
      exact .usageViolation

/-- The `INSERT` of an invoice finds its start unused, or is rolled back. -/
theorem step_of_insertInvoice (h : insertInvoice t env org start invoice s = some (s', p')) :
    Step t s (.stmt env) (.insertInvoice org start invoice) s' p' := by
  rw [insertInvoice] at h
  split at h
  · obtain ⟨rfl, rfl⟩ := Prod.mk.inj (Option.some.inj h)
    exact .invoiceViolation
  · rcases Table.insert_map_cases h with ⟨invoices, hview, hput, h⟩ | ⟨-, h⟩
    · obtain ⟨rfl, rfl⟩ := Prod.mk.inj h
      exact .insertInvoice hview hput
    · obtain ⟨rfl, rfl⟩ := Prod.mk.inj h
      exact .invoiceViolation

/-- **Every statement is a step**: the statements of the source, one by one, against the
constructors of `Step`. -/
theorem step_of_stmt (h : stmt t env s p = some (s', p')) : Step t s (.stmt env) p s' p' := by
  cases p with
  | idle | recorded _ _ | closed _ _ | converged _ _ | raised => cases h
  | insertUsage call created_at => exact step_of_insertUsage h
  | insertInvoice org start invoice => exact step_of_insertInvoice h
  | usageCommit call created_at =>
      obtain ⟨rfl, rfl⟩ := Prod.mk.inj (Option.some.inj h)
      exact .usageCommit
  | invoiceCommit org start invoice =>
      obtain ⟨rfl, rfl⟩ := Prod.mk.inj (Option.some.inj h)
      exact .invoiceCommit
  | findDuplicate call =>
      obtain ⟨rfl, rfl⟩ := Prod.mk.inj (Option.some.inj h)
      exact .duplicate (ite_eq_or_eq _ _ _)
  | findExisting org start =>
      obtain ⟨rfl, rfl⟩ := Prod.mk.inj (Option.some.inj h)
      exact .existing (ite_eq_or_eq _ _ _)
  | periodStart org plan =>
      obtain ⟨rfl, rfl⟩ := Prod.mk.inj (Option.some.inj h)
      exact .periodStart
  | readClock org plan start =>
      obtain ⟨rfl, rfl⟩ := Prod.mk.inj (Option.some.inj h)
      exact .readClock
  | readUsage org plan start stop =>
      obtain ⟨rfl, rfl⟩ := Prod.mk.inj (Option.some.inj h)
      exact .readUsage

/-- **Every action is one of these steps.** -/
theorem step_of_exec (h : exec t a s p = some (s', p')) : Step t s a p s' p' := by
  cases a with
  | tick =>
      obtain ⟨rfl, rfl⟩ := Prod.mk.inj (Option.some.inj h)
      exact .tick
  | record call =>
      cases p <;> simp only [exec, reduceCtorEq] at h
      obtain ⟨rfl, rfl⟩ := Prod.mk.inj (Option.some.inj h)
      exact .record
  | close org plan =>
      cases p <;> simp only [exec, reduceCtorEq] at h
      obtain ⟨rfl, rfl⟩ := Prod.mk.inj (Option.some.inj h)
      exact .close
  | stmt env => exact step_of_stmt h
  | fail =>
      simp only [exec] at h
      split at h
      · cases h
      · rename_i hrunning
        obtain ⟨rfl, rfl⟩ := Prod.mk.inj (Option.some.inj h)
        exact .fail (Bool.eq_false_iff.mpr hrunning)

/-- An action changes the uncommitted rows of its request, or lets the clock advance, or
commits an event, or commits an invoice. -/
theorem exec_cases (h : exec t a s p = some (s', p')) :
    Private t s s' ∨ (s' = { s with clock := s.clock + 1 } ∧ p' = p) ∨
      (∃ call created_at, p = .usageCommit call created_at ∧ p' = .recorded call true ∧
        s' = s.commit t) ∨
      ∃ org start invoice, p = .invoiceCommit org start invoice ∧ p' = .closed org start ∧
        s' = s.commit t := by
  cases step_of_exec h with
  | tick => exact .inr (.inl ⟨rfl, rfl⟩)
  | record | close | periodStart | readClock | readUsage => exact .inl (.refl t _)
  | fail | usageViolation | duplicate | invoiceViolation | existing =>
      exact .inl (.of_rollback t s)
  | insertUsage _ hput => exact .inl ⟨.of_put hput, .refl _ _, rfl⟩
  | insertInvoice _ hput => exact .inl ⟨.refl _ _, .of_put hput, rfl⟩
  | usageCommit => exact .inr (.inr (.inl ⟨_, _, rfl, rfl, rfl⟩))
  | invoiceCommit => exact .inr (.inr (.inr ⟨_, _, _, rfl, rfl, rfl⟩))

/-- The commit of an event adds it to the committed events, and nothing else. -/
theorem EventPending.committed (h : EventPending t s call created_at) :
    (s.commit t).usage.committed =
        Function.update s.usage.committed call.key (some (call.row created_at)) ∧
      (s.commit t).invoices.committed = s.invoices.committed :=
  ⟨h.usage.committed_commit, h.invoices.committed_commit⟩

/-- The commit of an invoice adds it to the committed invoices, and nothing else. -/
theorem InvoicePending.committed (h : InvoicePending t s org start invoice) :
    (s.commit t).invoices.committed =
        Function.update s.invoices.committed (org, start) (some invoice) ∧
      (s.commit t).usage.committed = s.usage.committed :=
  ⟨h.invoices.committed_commit, h.usage.committed_commit⟩

/-! ### Footprints along a run -/

/-- A step leaves its request with the footprint of the next statement. -/
theorem Step.footprint (h : Step t s a p s' p') (hF : Footprint t s p) : Footprint t s' p' := by
  cases h with
  | tick =>
      cases p with
      | usageCommit call created_at => exact ⟨hF.usage, hF.invoices, hF.fresh⟩
      | invoiceCommit org start invoice => exact ⟨hF.usage, hF.invoices, hF.fresh⟩
      | _ => exact ⟨hF.usage, hF.invoices⟩
  | record | close | periodStart | readClock | readUsage => exact hF
  | fail | usageViolation | invoiceViolation => exact clean_rollback t s
  | duplicate hnext => rcases hnext with rfl | rfl <;> exact clean_rollback t s
  | existing hnext => rcases hnext with rfl | rfl <;> exact clean_rollback t s
  | usageCommit | invoiceCommit => exact clean_commit t s
  | @insertUsage _ _ _ usage hview hput =>
      refine ⟨hF.usage.put hput, hF.invoices, ?_⟩
      rw [show usage.committed = _ from Table.committed_put hput, ← hF.usage.view, hview]
  | @insertInvoice _ _ _ _ invoices hview hput =>
      refine ⟨hF.usage, hF.invoices.put hput, ?_⟩
      rw [show invoices.committed = _ from Table.committed_put hput, ← hF.invoices.view, hview]

/-- From `s` to `s'` what `u` has written is the same, and so are the committed rows under
it. -/
structure Undisturbed (u : T) (s s' : Store T) : Prop where
  usage : s'.usage.written u = s.usage.written u
  invoices : s'.invoices.written u = s.invoices.written u
  usage_under : ∀ {k v}, s.usage.written u k = some v →
    s'.usage.committed k = s.usage.committed k
  invoices_under : ∀ {k v}, s.invoices.written u k = some v →
    s'.invoices.committed k = s.invoices.committed k

/-- A request leaves all others undisturbed. -/
theorem undisturbed_of_exec (h : exec t a s p = some (s', p')) (hu : u ≠ t) :
    Undisturbed u s s' := by
  have hcommit : Undisturbed u s (s.commit t) :=
    ⟨Table.written_commit_ne _ hu, Table.written_commit_ne _ hu,
      fun hw => Table.committed_commit_of_written hw hu,
      fun hw => Table.committed_commit_of_written hw hu⟩
  rcases exec_cases h with hpriv | ⟨rfl, -⟩ | ⟨_, _, -, -, rfl⟩ | ⟨_, _, _, -, -, rfl⟩
  · exact ⟨hpriv.usage.written u hu, hpriv.invoices.written u hu,
      fun _ => by rw [hpriv.usage.committed], fun _ => by rw [hpriv.invoices.committed]⟩
  · exact ⟨rfl, rfl, fun _ => rfl, fun _ => rfl⟩
  · exact hcommit
  · exact hcommit

/-- Footprints are not interfered with. -/
theorem Footprint.of_undisturbed (hF : Footprint u s p) (h : Undisturbed u s s') :
    Footprint u s' p := by
  cases p with
  | usageCommit call created_at =>
      exact ⟨hF.usage.congr h.usage, hF.invoices.congr h.invoices,
        by rw [h.usage_under hF.usage.1, hF.fresh]⟩
  | invoiceCommit org start invoice =>
      exact ⟨hF.usage.congr h.usage, hF.invoices.congr h.invoices,
        by rw [h.invoices_under hF.invoices.1, hF.fresh]⟩
  | _ => exact ⟨hF.usage.congr h.usage, hF.invoices.congr h.invoices⟩

/-- The proof outline of the footprints. -/
theorem footprint_outline (ok : Config T (Store T) Proc → T → Act → Prop) :
    program.Outline ok (fun _ => True) (Footprint (T := T)) where
  step _ _ hF h := ⟨trivial, (step_of_exec h).footprint (hF _)⟩
  frame hu _ _ hF h := (hF _).of_undisturbed (undisturbed_of_exec h hu)

/-- **Footprints hold along every run.** -/
theorem footprint_of_run (hF : ∀ u, Footprint u c.shared (c.proc u)) (h : program.Run ok c d)
    (u : T) : Footprint u d.shared (d.proc u) :=
  ((footprint_outline ok).run h trivial hF).2 u

/-- Nothing has been written in the initial state. -/
theorem footprint_init (u : T) : Footprint u (init (T := T)).shared (init.proc u) :=
  ⟨Table.untouched_empty u, Table.untouched_empty u⟩

end BackendManager.Usage
