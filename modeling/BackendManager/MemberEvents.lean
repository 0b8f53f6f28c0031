import BackendManager.OrganizationSteps

/-!
# One Event for Each New Member

`add_member` flushes the membership and the event into one transaction, so they are
committed together or not at all, wherever the request fails. The statements are about the
steps of a run: `Commits` is the step that commits a change.

`add_member` inserts the membership and the outbox row with two flushes of one transaction, and
a unique key that is in use rolls both back. The correspondence is between the steps that commit
a membership by `add_member` and the committed events: each such step publishes exactly one
event, with the organisation, the user and the role of the membership, and each event was
published by exactly one such step. It holds in every interleaving, whatever fails, because a
row is only ever published by the commit of the request that has inserted it.

## Main results

* `Commits.published`: what the commit of a change publishes.
* `event_of_run`: every committed event was published by one commit of a new member.
* `member_events`: with webhooks, memberships that `add_member` has committed and events
  correspond one to one, and a request that is answered `409` has committed nothing.
-/

namespace BackendManager.Organizations

open ReadCommitted Interleaving

variable {T : Type} [DecidableEq T] {F : Features} {t : T} {s s' : Database T} {p p' : Proc}
  {a : Act} {ch : Change} {event : Option String} {eid : String} {row : OutboxEvent}
  {c d : Config T (Database T) Proc} {m : Program.Move T (Database T) Proc Act}
  {moves : List (Program.Move T (Database T) Proc Act)}

/-- With this step a request commits its change, and the event. -/
def Commits (m : Program.Move T (Database T) Proc Act) (ch : Change) (event : Option String) :
    Prop :=
  m.before.proc m.thread = .commit ch event ∧ m.after.proc m.thread = .refresh ch

/-- The membership that a change adds, with its key. -/
def Change.membershipRow : Change → (Uuid × Uuid) × Membership
  | .organization user org id _ => ((org, user), ⟨id, OWNER⟩)
  | .membership _ org_id id payload => ((org_id, payload.user_id), ⟨id, payload.role⟩)

theorem pending_membership (ch : Change) (event : Option String) :
    (Proc.commit ch event).pending.membership =
        some (ch.membershipRow.1, some ch.membershipRow.2) ∧
      (Proc.commit ch event).pending.replaced = none := by
  cases ch with
  | organization user org id payload => exact ⟨rfl, rfl⟩
  | membership caller org_id id payload => exact ⟨rfl, rfl⟩

/-- A request goes on after its commit only if the commit has succeeded. -/
theorem Step.of_commit (h : Step F t s a (.commit ch event) s' (.refresh ch)) :
    s' = s.commit t := by
  cases h with
  | commit => rfl

/-- **The commit of a change** publishes what the request holds. -/
theorem Commits.published (hm : Commits m ch event)
    (hS : Stands F m.thread m.before.shared (m.before.proc m.thread))
    (h : (program F).step m.before m.thread m.action = some m.after) :
    Publishes m.before.shared m.after.shared (Proc.commit ch event).pending := by
  have hs := step_of_move h
  rw [hm.1] at hS hs
  rw [hm.2] at hs
  rw [hs.of_commit]
  exact hS.holds.publishes

/-- The event of a new member is new. -/
theorem Commits.newEvent {caller org_id id : Uuid} {payload : MemberAdd}
    (hm : Commits m (.membership caller org_id id payload) (some eid))
    (hS : Stands F m.thread m.before.shared (m.before.proc m.thread))
    (h : (program F).step m.before m.thread m.action = some m.after) :
    m.before.shared.outbox_events.committed eid = none ∧
      m.after.shared.outbox_events.committed eid = some (memberAdded org_id payload eid) := by
  have hpub := hm.published hS h
  rw [hm.1] at hS
  exact ⟨hS.holds.fresh_event eid _ rfl,
    by rw [hpub.outbox_events]; exact Function.update_self _ _ _⟩

/-- The commit that publishes a membership. -/
theorem Publishing.membership {k : Uuid × Uuid} {member : Membership} (h : Publishing p p')
    (hw : p.pending.membership = some (k, some member)) :
    ∃ ch event, p = .commit ch event ∧ p' = .refresh ch ∧ ch.membershipRow = (k, member) := by
  cases h with
  | entry => cases hw
  | removal caller org_id user_id deleted => cases deleted <;> cases hw
  | change ch event =>
      rw [(pending_membership ch event).1] at hw
      obtain ⟨rfl, hmember⟩ := Prod.mk.inj (Option.some.inj hw)
      exact ⟨ch, event, rfl, rfl, by rw [← Option.some.inj hmember]⟩

/-- The commit that publishes an event. -/
theorem Publishing.newEvent (h : Publishing p p') (hw : p.pending.event = some (eid, some row)) :
    ∃ caller org_id id payload, p = .commit (.membership caller org_id id payload) (some eid) ∧
      p' = .refresh (.membership caller org_id id payload) ∧
      row = memberAdded org_id payload eid := by
  cases h with
  | entry => cases hw
  | removal caller org_id user_id deleted => cases deleted <;> cases hw
  | change ch event =>
      cases ch with
      | organization => cases hw
      | membership caller org_id id payload =>
          cases event with
          | none => cases hw
          | some eid' =>
              obtain ⟨rfl, hrow⟩ := Prod.mk.inj (Option.some.inj hw)
              exact ⟨caller, org_id, id, payload, rfl, rfl, (Option.some.inj hrow).symm⟩

/-- A membership that appears is the one of the change that is committed. -/
theorem commits_of_new {k : Uuid × Uuid} {member : Membership}
    (hS : Stands F t c.shared (c.proc t)) (h : (program F).step c t a = some d)
    (hbefore : c.shared.memberships.committed k ≠ some member)
    (hafter : d.shared.memberships.committed k = some member) :
    ∃ ch event, Commits ⟨c, t, a, d⟩ ch event ∧ ch.membershipRow = (k, member) := by
  have hne : d.shared.memberships.committed k ≠ c.shared.memberships.committed k := by
    rw [hafter]
    exact hbefore.symm
  obtain ⟨hpublishing, hpending⟩ := (step_of_move h).publishing_membership hS hne
  rw [hafter] at hpending
  obtain ⟨ch, event, hp, hp', hrow⟩ := hpublishing.membership hpending
  exact ⟨ch, event, ⟨hp, hp'⟩, hrow⟩

/-- An event that appears is the one of the change that is committed. -/
theorem commits_of_newEvent (hS : Stands F t c.shared (c.proc t))
    (h : (program F).step c t a = some d)
    (hbefore : c.shared.outbox_events.committed eid ≠ some row)
    (hafter : d.shared.outbox_events.committed eid = some row) :
    ∃ caller org_id id payload,
      Commits ⟨c, t, a, d⟩ (.membership caller org_id id payload) (some eid) ∧
        row = memberAdded org_id payload eid := by
  have hne : d.shared.outbox_events.committed eid ≠ c.shared.outbox_events.committed eid := by
    rw [hafter]
    exact hbefore.symm
  obtain ⟨hpublishing, hpending⟩ := (step_of_move h).publishing_event hS hne
  rw [hafter] at hpending
  obtain ⟨caller, org_id, id, payload, hp, hp', hrow⟩ := hpublishing.newEvent hpending
  exact ⟨caller, org_id, id, payload, ⟨hp, hp'⟩, hrow⟩

/-- **Every event is that of a committed member.** -/
theorem event_of_run (h : (program F).Trace Any init moves d)
    (hrow : d.shared.outbox_events.committed eid = some row) :
    ∃ m ∈ moves, ∃ caller org_id id payload,
      Commits m (.membership caller org_id id payload) (some eid) ∧
        row = memberAdded org_id payload eid := by
  induction h with
  | nil => cases hrow
  | @snoc moves c d t a hrun _ hstep ih =>
      by_cases hbefore : c.shared.outbox_events.committed eid = some row
      · obtain ⟨m, hm, hcommits⟩ := ih hbefore
        exact ⟨m, List.mem_append_left _ hm, hcommits⟩
      · exact ⟨_, List.mem_append_right _ (List.mem_singleton_self _),
          commits_of_newEvent (stands_of_run hrun.run t) hstep hbefore hrow⟩

/-! ### Requests that are answered with an error -/

/-- The request has not committed anything yet. -/
def Proc.uncommitted : Proc → Bool
  | .refresh _ | .record _ | .recordCommit _ _ | .created _ | .removed | .raised => false
  | _ => true

/-- What follows a commit stays behind a commit. -/
theorem Step.uncommitted (h : Step F t s a p s' p') (hp : p.uncommitted = false) :
    p'.uncommitted = false := by
  cases h with
  | raised | commit | recordCommit | record | removeCommit => rfl
  | conflict handler =>
      cases p with
      | refresh | record | recordCommit | created | removed | raised => cases handler
      | _ => cases hp
  | refresh => split <;> rfl
  | _ => cases hp

/-- A step that commits something is not one of a request that is answered with an error. -/
theorem published_of_refused {e : HTTPException} (h : (program F).Trace Any init moves d)
    (hm : m ∈ moves) (hrefused : d.proc m.thread = .refused e) :
    Publishes m.before.shared m.after.shared .none := by
  obtain ⟨hbefore, hstep, hafter⟩ := h.around hm
  rcases (step_of_move hstep).committed (stands_of_run hbefore m.thread) with
    hpub | ⟨hpublishing, -⟩
  · exact hpub
  · have hp : (m.after.proc m.thread).uncommitted = false := by
      generalize m.before.proc m.thread = p at hpublishing
      generalize m.after.proc m.thread = p' at hpublishing
      cases hpublishing <;> rfl
    have hd : (d.proc m.thread).uncommitted = false :=
      hafter.proc (Q := fun p => p.uncommitted = false)
        (fun hexec hp => (step_of_exec hexec).uncommitted hp) hp
    rw [hrefused] at hd
    cases hd

/-- **One event for each new member.** With webhooks, the commit of a membership by
`add_member` publishes the membership and one event with its organisation, user and role;
every membership that is ever committed, and every committed event, comes from such a
commit; and two of them have different events. A request that is answered with an error, as a
duplicate is with `409`, holds nothing and has committed nothing. -/
theorem member_events (hF : F.webhooks = true) (h : (program F).Trace Any init moves d) :
    (∀ m ∈ moves, ∀ caller org_id id payload event,
      Commits m (.membership caller org_id id payload) event →
        ∃ eid, event = some eid ∧
          m.before.shared.memberships.committed (org_id, payload.user_id) = none ∧
          m.after.shared.memberships.committed (org_id, payload.user_id) =
            some ⟨id, payload.role⟩ ∧
          m.before.shared.outbox_events.committed eid = none ∧
          m.after.shared.outbox_events.committed eid = some (memberAdded org_id payload eid) ∧
          d.shared.outbox_events.committed eid = some (memberAdded org_id payload eid)) ∧
    (∀ m ∈ moves, ∀ k member, m.before.shared.memberships.committed k ≠ some member →
      m.after.shared.memberships.committed k = some member →
        ∃ ch event, Commits m ch event ∧ ch.membershipRow = (k, member)) ∧
    (∀ eid row, d.shared.outbox_events.committed eid = some row →
      ∃ m ∈ moves, ∃ caller org_id id payload,
        Commits m (.membership caller org_id id payload) (some eid) ∧
          row = memberAdded org_id payload eid) ∧
    (moves.Pairwise fun m m' => ∀ caller org_id id payload caller' org_id' id' payload' eid eid',
      Commits m (.membership caller org_id id payload) (some eid) →
        Commits m' (.membership caller' org_id' id' payload') (some eid') → eid ≠ eid') ∧
    ∀ t e, d.proc t = .refused e → Holds t d.shared .none ∧
      ∀ m ∈ moves, m.thread = t → Publishes m.before.shared m.after.shared .none := by
  refine ⟨?_, ?_, fun eid row hrow => event_of_run h hrow, ?_, ?_⟩
  · intro m hm caller org_id id payload event hcommits
    obtain ⟨hbefore, hstep, hafter⟩ := h.around hm
    have hS := stands_of_run hbefore m.thread
    have hpub := hcommits.published hS hstep
    have hS' := hS
    rw [hcommits.1] at hS'
    obtain ⟨eid, rfl⟩ := Option.ne_none_iff_exists'.mp (hS'.flushing hF)
    obtain ⟨hfree, hstored⟩ := hcommits.newEvent hS hstep
    have hkept := (grows_of_run (hbefore.step trivial hstep) hafter).outbox_events _ _ hstored
    exact ⟨eid, rfl, hS'.holds.replaced _ _ rfl,
      by rw [hpub.memberships]; exact Function.update_self _ _ _, hfree, hstored, hkept⟩
  · intro m hm k member hbefore hafter
    obtain ⟨hrun, hstep, -⟩ := h.around hm
    exact commits_of_new (stands_of_run hrun m.thread) hstep hbefore hafter
  · refine h.pairwise fun m m' hbefore hstep hrun hstep' caller org_id id payload caller'
      org_id' id' payload' eid eid' hcommits hcommits' => ?_
    have hafter := hbefore.step trivial hstep
    obtain ⟨-, hstored⟩ := hcommits.newEvent (stands_of_run hbefore m.thread) hstep
    have hkept := (grows_of_run hafter hrun).outbox_events _ _ hstored
    obtain ⟨hfree, -⟩ := hcommits'.newEvent (stands_of_run (hafter.trans hrun) m'.thread) hstep'
    rintro rfl
    rw [hkept] at hfree
    cases hfree
  · intro t e hrefused
    refine ⟨?_, fun m hm hthread => published_of_refused h hm (hthread ▸ hrefused)⟩
    have hS := stands_of_run h.run t
    rw [hrefused] at hS
    exact hS.holds

/-! ### A schedule -/

/-- A statement that draws the `n`-th id. -/
def draw (n : ℕ) : Act := .stmt ⟨.ofNat n, false, false⟩

/-- The user `1` creates the organisation `10`. -/
def createAcme (t : T) : List (T × Act) :=
  [(t, .arrive (.create_organization (.ofNat 1) ⟨"Acme", "acme", by decide, by decide, by decide⟩)),
    (t, draw 0), (t, draw 10), (t, draw 11), (t, draw 0), (t, draw 0)]

/-- The user `1` adds the user `2`, up to the flush. -/
def addMember (t : T) : List (T × Act) :=
  [(t, .arrive (.add_member (.ofNat 1) (.ofNat 10) ⟨.ofNat 2, "member", by decide⟩)),
    (t, draw 0)]

set_option maxRecDepth 10000 in
/-- Two requests add the same user; the event of the one that is answered `201` is stored, and
the other one is answered `409` and holds nothing. -/
theorem member_events_duplicate :
    ∃ (moves : List (Program.Move (Fin 3) (Database (Fin 3)) Proc Act))
      (d : Config (Fin 3) (Database (Fin 3)) Proc) (row : OutboxEvent),
      (program ⟨true, false, true⟩).Trace Any init moves d ∧
        d.shared.outbox_events.committed (Uuid.ofNat 21).str = some row ∧
        (∃ m ∈ moves, ∃ caller org_id id payload,
          Commits m (.membership caller org_id id payload) (some (Uuid.ofNat 21).str) ∧
            row = memberAdded org_id payload (Uuid.ofNat 21).str) ∧
        d.proc 2 = .refused alreadyMember ∧ Holds 2 d.shared .none := by
  have hreplay : ((program ⟨true, false, true⟩).replay Any init
      (createAcme (0 : Fin 3) ++ addMember 1 ++ addMember 2 ++
        [(1, draw 20), (1, draw 21), (1, draw 0), (2, draw 22), (1, draw 0)])).any (fun d =>
          decide (d.proc 2 = .refused alreadyMember ∧
            (d.shared.outbox_events.committed (Uuid.ofNat 21).str).isSome)) = true := by
    decide
  obtain ⟨d, hrun, hp⟩ := Program.exists_run_of_replay hreplay
  obtain ⟨hrefused, hsome⟩ := of_decide_eq_true hp
  obtain ⟨row, hrow⟩ := Option.isSome_iff_exists.mp hsome
  obtain ⟨moves, htrace⟩ := hrun.exists_trace
  obtain ⟨-, -, hevents, -, hanswers⟩ := member_events rfl htrace
  exact ⟨moves, d, row, htrace, hrow, hevents _ row hrow, hrefused,
    (hanswers 2 _ hrefused).1⟩

end BackendManager.Organizations
