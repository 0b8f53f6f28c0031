import BackendManager.Organizations

/-!
# What One Statement Does to Organisations and Memberships

The uncommitted rows of a request can be read off the statement it executes next: at most
one of each table, `Proc.pending`. A COMMIT publishes them, and every other statement
changes the uncommitted rows of its own request alone.

The assertion of a request (`Stands`) consists of the rows that it holds and of what its flushes
still owe. It is kept by every action of any request: a request's own statements are inverted
once, in `Step`, and the statements of others leave its uncommitted rows alone because the
tables are those of `BackendManager.ReadCommitted`. From this follows what later modules use,
namely that a row is committed by the request that has inserted it, together with all the rows
of the same transaction.

## Main results

* `step_of_exec`: every action is one of the cases of `Step`.
* `stands_of_run`: along every run a request holds the rows of its statement.
* `Step.committed`: what an action does to the committed rows.
-/

namespace BackendManager.Organizations

open ReadCommitted Interleaving

variable {T : Type} [DecidableEq T] {F : Features} {t u : T} {s s' : Database T} {p p' : Proc}
  {a : Act} {env : Env} {r : Request} {ch : Change} {event : Option String}
  {c d : Config T (Database T) Proc} {ok : Config T (Database T) Proc → T → Act → Prop}

/-! ### What a request holds -/

/-- The uncommitted row of each table, with its key, and the committed membership that the
uncommitted one replaces. -/
structure Pending where
  organization : Option (Uuid × Option Organization)
  slug : Option (String × Option Uuid)
  membership : Option ((Uuid × Uuid) × Option Membership)
  replaced : Option Membership
  event : Option (String × Option OutboxEvent)
  entry : Option (Uuid × Option AuditLog)

/-- No uncommitted rows. -/
def Pending.none : Pending := ⟨.none, .none, .none, .none, .none, .none⟩

/-- The rows of an organisation. -/
def Pending.organizationOf (org : Uuid) (payload : OrganizationCreate) : Pending :=
  { Pending.none with
    organization := some (org, some ⟨payload.name, payload.slug⟩)
    slug := some (payload.slug, some org) }

/-- The rows of a new member, as far as they are inserted. -/
def Pending.member (org_id : Uuid) (payload : MemberAdd) (membership : Option Uuid)
    (event : Option String) : Pending :=
  { Pending.none with
    membership := membership.map fun id =>
      ((org_id, payload.user_id), some ⟨id, payload.role⟩)
    event := event.map fun eid => (eid, some (memberAdded org_id payload eid)) }

/-- The uncommitted rows of a request. -/
def Proc.pending : Proc → Pending
  | .insertOwner _ org payload => .organizationOf org payload
  | .flush _ org_id payload membership event => .member org_id payload membership event
  | .commit (.organization user org id payload) _ =>
      { Pending.organizationOf org payload with
        membership := some ((org, user), some ⟨id, OWNER⟩) }
  | .commit (.membership _ org_id id payload) event => .member org_id payload (some id) event
  | .recordCommit ch entry => { Pending.none with entry := some (entry, some ch.audit) }
  | .removeCommit _ org_id user_id (some row) =>
      { Pending.none with
        membership := some ((org_id, user_id), .none)
        replaced := some row }
  | _ => .none

/-- `t` has written these rows and nothing else, and the keys of what it has inserted were
free. -/
structure Holds (t : T) (s : Database T) (w : Pending) : Prop where
  organizations : s.organizations.Holds t w.organization
  slugs : s.slugs.Holds t w.slug
  memberships : s.memberships.Holds t w.membership
  outbox_events : s.outbox_events.Holds t w.event
  audit_logs : s.audit_logs.Holds t w.entry
  replaced : ∀ k v, w.membership = some (k, v) → s.memberships.committed k = w.replaced
  fresh_event : ∀ eid v, w.event = some (eid, v) → s.outbox_events.committed eid = none
  fresh_entry : ∀ id v, w.entry = some (id, v) → s.audit_logs.committed id = none

/-- The flush of a member goes on until both rows are there. -/
def Proc.Flushing (F : Features) : Proc → Prop
  | .flush _ _ _ membership event => membership = none ∨ event = none
  | .commit (.membership _ _ _ _) event => F.webhooks = true → event ≠ none
  | _ => True

/-- The assertion of a request. -/
structure Stands (F : Features) (t : T) (s : Database T) (p : Proc) : Prop where
  holds : Holds t s p.pending
  flushing : p.Flushing F

/-! ### What one action can do -/

/-- From `s` to `s'` only the uncommitted rows of `t` have changed. -/
structure Private (t : T) (s s' : Database T) : Prop where
  organizations : Table.Private t s.organizations s'.organizations
  slugs : Table.Private t s.slugs s'.slugs
  memberships : Table.Private t s.memberships s'.memberships
  outbox_events : Table.Private t s.outbox_events s'.outbox_events
  audit_logs : Table.Private t s.audit_logs s'.audit_logs

/-- Doing nothing is private. -/
theorem Private.refl (t : T) (s : Database T) : Private t s s :=
  ⟨.refl _ _, .refl _ _, .refl _ _, .refl _ _, .refl _ _⟩

/-- A rollback is private. -/
theorem Private.of_rollback (t : T) (s : Database T) : Private t s (s.rollback t) :=
  ⟨.of_rollback _ _, .of_rollback _ _, .of_rollback _ _, .of_rollback _ _, .of_rollback _ _⟩

/-- After a rollback nothing is pending. -/
theorem holds_rollback (t : T) (s : Database T) : Holds t (s.rollback t) .none :=
  ⟨Table.untouched_rollback _ _, Table.untouched_rollback _ _, Table.untouched_rollback _ _,
    Table.untouched_rollback _ _, Table.untouched_rollback _ _, nofun, nofun, nofun⟩

/-- Nor after a commit. -/
theorem holds_commit (t : T) (s : Database T) : Holds t (s.commit t) .none :=
  ⟨Table.untouched_commit _ _, Table.untouched_commit _ _, Table.untouched_commit _ _,
    Table.untouched_commit _ _, Table.untouched_commit _ _, nofun, nofun, nofun⟩

/-- The answer to an `IntegrityError` of the next statement. -/
def Proc.conflict : Proc → Option HTTPException
  | .insertOrganization _ _ | .insertOwner _ _ _ => some slugTaken
  | .flush _ _ _ _ _ => some alreadyMember
  | .commit ch _ => some ch.conflict
  | _ => none

/-- What one action can do, branch by branch. -/
inductive Step (F : Features) (t : T) (s : Database T) :
    Act → Proc → Database T → Proc → Prop
  | arrive {r : Request} : Step F t s (.arrive r) .idle s (.guard r)
  /-- The request fails, or an exception is not handled. -/
  | raised {a : Act} {p : Proc} (running : p.ended = false) :
      Step F t s a p (s.rollback t) .raised
  /-- The handler of an `IntegrityError`. -/
  | conflict {env : Env} {p : Proc} {e : HTTPException} (handler : p.conflict = some e) :
      Step F t s (.stmt env) p (s.rollback t) (.refused e)
  | guard {env : Env} {r : Request} : Step F t s (.stmt env) (.guard r) s (guard F t s r)
  | insertOrganization {env : Env} {user : Uuid} {payload : OrganizationCreate}
      {organizations : Table T Uuid Organization} {slugs : Table T String Uuid}
      (put : s.organizations.put t env.uuid (some ⟨payload.name, payload.slug⟩) =
        some organizations)
      (put_slug : s.slugs.put t payload.slug (some env.uuid) = some slugs) :
      Step F t s (.stmt env) (.insertOrganization user payload) { s with organizations, slugs }
        (.insertOwner user env.uuid payload)
  | insertOwner {env : Env} {user org : Uuid} {payload : OrganizationCreate}
      {memberships : Table T (Uuid × Uuid) Membership}
      (absent : s.memberships.view t (org, user) = none)
      (put : s.memberships.put t (org, user) (some ⟨env.uuid, OWNER⟩) = some memberships) :
      Step F t s (.stmt env) (.insertOwner user org payload) { s with memberships }
        (.commit (.organization user org env.uuid payload) none)
  | flushMembership {env : Env} {caller org_id : Uuid} {payload : MemberAdd}
      {event : Option String} {memberships : Table T (Uuid × Uuid) Membership}
      (absent : s.memberships.view t (org_id, payload.user_id) = none)
      (put : s.memberships.put t (org_id, payload.user_id) (some ⟨env.uuid, payload.role⟩) =
        some memberships) :
      Step F t s (.stmt env) (.flush caller org_id payload none event) { s with memberships }
        (flushed F caller org_id payload (some env.uuid) event)
  | flushEvent {env : Env} {caller org_id : Uuid} {payload : MemberAdd}
      {membership : Option Uuid} {event : Option String}
      {outbox_events : Table T String OutboxEvent}
      (next : membership ≠ none ∨ event = none)
      (absent : s.outbox_events.view t env.uuid.str = none)
      (put : s.outbox_events.put t env.uuid.str
        (some (memberAdded org_id payload env.uuid.str)) = some outbox_events) :
      Step F t s (.stmt env) (.flush caller org_id payload membership event)
        { s with outbox_events }
        (flushed F caller org_id payload membership (some env.uuid.str))
  | commit {env : Env} {ch : Change} {event : Option String} :
      Step F t s (.stmt env) (.commit ch event) (s.commit t) (.refresh ch)
  | refresh {env : Env} {ch : Change} (found : ch.found t s = true) :
      Step F t s (.stmt env) (.refresh ch) s (if F.audit then .record ch else .created ch)
  | record {env : Env} {ch : Change} {audit_logs : Table T Uuid AuditLog}
      (absent : s.audit_logs.view t env.uuid = none)
      (put : s.audit_logs.put t env.uuid (some ch.audit) = some audit_logs) :
      Step F t s (.stmt env) (.record ch) { s with audit_logs } (.recordCommit ch env.uuid)
  | recordCommit {env : Env} {ch : Change} {entry : Uuid} :
      Step F t s (.stmt env) (.recordCommit ch entry) (s.commit t) (.created ch)
  | selectTarget {env : Env} {caller org_id user_id : Uuid} :
      Step F t s (.stmt env) (.selectTarget caller org_id user_id) s
        (selectTarget t caller org_id user_id s)
  | delete {env : Env} {caller org_id user_id : Uuid} {target row : Membership}
      {memberships : Table T (Uuid × Uuid) Membership}
      (present : s.memberships.view t (org_id, user_id) = some row)
      (put : s.memberships.put t (org_id, user_id) none = some memberships) :
      Step F t s (.stmt env) (.deleteTarget caller org_id user_id target) { s with memberships }
        (.removeCommit caller org_id user_id (some row))
  | deleteNone {env : Env} {caller org_id user_id : Uuid} {target : Membership} :
      Step F t s (.stmt env) (.deleteTarget caller org_id user_id target) s
        (.removeCommit caller org_id user_id none)
  | removeCommit {env : Env} {caller org_id user_id : Uuid} {deleted : Option Membership} :
      Step F t s (.stmt env) (.removeCommit caller org_id user_id deleted) (s.commit t) .removed

/-- The `INSERT` of an organisation. -/
theorem step_of_insertOrganization {user : Uuid} {payload : OrganizationCreate}
    (h : insertOrganization t env user payload s = some (s', p')) :
    Step F t s (.stmt env) (.insertOrganization user payload) s' p' := by
  rw [insertOrganization] at h
  split at h
  · obtain ⟨rfl, rfl⟩ := Prod.mk.inj (Option.some.inj h)
    exact .conflict rfl
  · obtain ⟨r, hr, h⟩ := Option.bind_eq_some_iff.mp h
    cases r with
    | error e =>
        obtain ⟨rfl, rfl⟩ := Prod.mk.inj (Option.some.inj h)
        exact .conflict rfl
    | ok organizations =>
        obtain ⟨r, hr', h⟩ := Option.map_eq_some_iff.mp h
        cases r with
        | error e =>
            obtain ⟨rfl, rfl⟩ := Prod.mk.inj h
            exact .conflict rfl
        | ok slugs =>
            obtain ⟨rfl, rfl⟩ := Prod.mk.inj h
            exact .insertOrganization (Table.insert_eq_ok_iff.mp hr).2
              (Table.insert_eq_ok_iff.mp hr').2

/-- An `INSERT` of a membership finds its key unused and goes on, or ends in a conflict. -/
theorem insertMembership_cases {org_id user_id : Uuid} {row : Membership} {e : HTTPException}
    {next : Proc} (h : insertMembership t env org_id user_id row e next s = some (s', p')) :
    (s' = s.rollback t ∧ p' = .refused e) ∨
      ∃ memberships, s.memberships.view t (org_id, user_id) = none ∧
        s.memberships.put t (org_id, user_id) (some row) = some memberships ∧
        s' = { s with memberships } ∧ p' = next := by
  rw [insertMembership] at h
  split at h
  · obtain ⟨rfl, rfl⟩ := Prod.mk.inj (Option.some.inj h)
    exact .inl ⟨rfl, rfl⟩
  · rcases Table.insert_map_cases h with ⟨memberships, hview, hput, h⟩ | ⟨-, h⟩
    · obtain ⟨rfl, rfl⟩ := Prod.mk.inj h
      exact .inr ⟨memberships, hview, hput, rfl, rfl⟩
    · obtain ⟨rfl, rfl⟩ := Prod.mk.inj h
      exact .inl ⟨rfl, rfl⟩

/-- So does the `INSERT` of an event. -/
theorem insertEvent_cases {eid : String} {row : OutboxEvent} {e : HTTPException} {next : Proc}
    (h : insertEvent t env eid row e next s = some (s', p')) :
    (s' = s.rollback t ∧ p' = .refused e) ∨
      ∃ outbox_events, s.outbox_events.view t eid = none ∧
        s.outbox_events.put t eid (some row) = some outbox_events ∧
        s' = { s with outbox_events } ∧ p' = next := by
  rw [insertEvent] at h
  split at h
  · obtain ⟨rfl, rfl⟩ := Prod.mk.inj (Option.some.inj h)
    exact .inl ⟨rfl, rfl⟩
  · rcases Table.insert_map_cases h with ⟨outbox_events, hview, hput, h⟩ | ⟨-, h⟩
    · obtain ⟨rfl, rfl⟩ := Prod.mk.inj h
      exact .inr ⟨outbox_events, hview, hput, rfl, rfl⟩
    · obtain ⟨rfl, rfl⟩ := Prod.mk.inj h
      exact .inl ⟨rfl, rfl⟩

/-- One `INSERT` of the flush of a member. -/
theorem step_of_flush {caller org_id : Uuid} {payload : MemberAdd} {membership : Option Uuid}
    (h : flush F t env caller org_id payload membership event s = some (s', p')) :
    Step F t s (.stmt env) (.flush caller org_id payload membership event) s' p' := by
  rw [flush] at h
  split at h
  · rename_i hnext
    rcases insertEvent_cases h with ⟨rfl, rfl⟩ | ⟨outbox_events, hview, hput, rfl, rfl⟩
    · exact .conflict rfl
    · exact .flushEvent (hnext.imp_right fun h => h.2.1) hview hput
  · rename_i hnext
    obtain rfl : membership = none := by
      by_contra hne
      exact hnext (.inl hne)
    rcases insertMembership_cases h with ⟨rfl, rfl⟩ | ⟨memberships, hview, hput, rfl, rfl⟩
    · exact .conflict rfl
    · exact .flushMembership hview hput

/-- The `INSERT` of an audit row. -/
theorem step_of_record (h : record t env ch s = some (s', p')) :
    Step F t s (.stmt env) (.record ch) s' p' := by
  rw [record] at h
  split at h
  · obtain ⟨rfl, rfl⟩ := Prod.mk.inj (Option.some.inj h)
    exact .raised rfl
  · rcases Table.insert_map_cases h with ⟨audit_logs, hview, hput, h⟩ | ⟨-, h⟩
    · obtain ⟨rfl, rfl⟩ := Prod.mk.inj h
      exact .record hview hput
    · obtain ⟨rfl, rfl⟩ := Prod.mk.inj h
      exact .raised rfl

/-- The `DELETE` of a membership. -/
theorem step_of_deleteTarget {caller org_id user_id : Uuid} {target : Membership}
    (h : deleteTarget t caller org_id user_id target s = some (s', p')) :
    Step F t s (.stmt env) (.deleteTarget caller org_id user_id target) s' p' := by
  rw [deleteTarget] at h
  split at h
  · rename_i row hrow
    obtain ⟨memberships, hput, h⟩ := Option.map_eq_some_iff.mp h
    obtain ⟨rfl, rfl⟩ := Prod.mk.inj h
    exact .delete (Option.filter_eq_some_iff.mp hrow).1 hput
  · obtain ⟨rfl, rfl⟩ := Prod.mk.inj (Option.some.inj h)
    exact .deleteNone

/-- A statement that an `IntegrityError` may end with `raised`. -/
theorem step_of_ite {b : Bool} (hraised : Step F t s a p (s.rollback t) .raised)
    (hstep : Step F t s a p s' p')
    {x : Database T × Proc} (h : (if b then some (s.rollback t, Proc.raised) else some (s', p')) =
      some x) : Step F t s a p x.1 x.2 := by
  split at h
  · obtain rfl := Option.some.inj h
    exact hraised
  · obtain rfl := Option.some.inj h
    exact hstep

/-- **Every statement is a step**: the statements of the source, one by one, against the
constructors of `Step`. -/
theorem step_of_stmt (h : stmt F t env s p = some (s', p')) :
    Step F t s (.stmt env) p s' p' := by
  cases p with
  | idle | created _ | removed | refused _ | raised => cases h
  | insertOrganization user payload => exact step_of_insertOrganization h
  | flush caller org_id payload membership event => exact step_of_flush h
  | record ch => exact step_of_record h
  | deleteTarget caller org_id user_id target => exact step_of_deleteTarget h
  | recordCommit ch entry => exact step_of_ite (.raised rfl) .recordCommit h
  | removeCommit caller org_id user_id deleted => exact step_of_ite (.raised rfl) .removeCommit h
  | guard r =>
      obtain ⟨rfl, rfl⟩ := Prod.mk.inj (Option.some.inj h)
      exact .guard
  | selectTarget caller org_id user_id =>
      obtain ⟨rfl, rfl⟩ := Prod.mk.inj (Option.some.inj h)
      exact .selectTarget
  | insertOwner user org payload =>
      rcases insertMembership_cases h with ⟨rfl, rfl⟩ | ⟨memberships, hview, hput, rfl, rfl⟩
      · exact .conflict rfl
      · exact .insertOwner hview hput
  | commit ch event =>
      rw [stmt] at h
      split at h
      · obtain ⟨rfl, rfl⟩ := Prod.mk.inj (Option.some.inj h)
        exact .conflict rfl
      · obtain ⟨rfl, rfl⟩ := Prod.mk.inj (Option.some.inj h)
        exact .commit
  | refresh ch =>
      rw [stmt] at h
      split at h
      · rename_i hfound
        obtain ⟨rfl, rfl⟩ := Prod.mk.inj (Option.some.inj h)
        exact .refresh hfound
      · obtain ⟨rfl, rfl⟩ := Prod.mk.inj (Option.some.inj h)
        exact .raised rfl

/-- **Every action is one of these steps.** -/
theorem step_of_exec (h : exec F t a s p = some (s', p')) : Step F t s a p s' p' := by
  cases a with
  | arrive r =>
      cases p <;> simp only [exec, reduceCtorEq] at h
      obtain ⟨rfl, rfl⟩ := Prod.mk.inj (Option.some.inj h)
      exact .arrive
  | stmt env => exact step_of_stmt h
  | fail =>
      simp only [exec] at h
      split at h
      · cases h
      · rename_i hrunning
        obtain ⟨rfl, rfl⟩ := Prod.mk.inj (Option.some.inj h)
        exact .raised (Bool.eq_false_iff.mpr hrunning)

/-- And so is every step of the program, whatever the action. -/
theorem step_of_move (h : (program F).step c t a = some d) :
    Step F t c.shared a (c.proc t) d.shared (d.proc t) := by
  obtain ⟨s', p', hexec, rfl⟩ := Program.step_eq_some_iff.mp h
  simpa using step_of_exec hexec

/-! ### What a request holds along a run -/

/-- A request whose next statement finds no uncommitted rows. -/
theorem Holds.stands (h : Holds t s Pending.none) (hp : p.pending = Pending.none)
    (hflush : p.Flushing F) : Stands F t s p :=
  ⟨hp ▸ h, hflush⟩

/-- The guards lead to a statement that finds no uncommitted rows. -/
theorem guard_cases (F : Features) (t : T) (s : Database T) (r : Request) :
    (guard F t s r).pending = Pending.none ∧ (guard F t s r).Flushing F := by
  cases r with
  | create_organization user payload => exact ⟨rfl, trivial⟩
  | add_member user org_id payload =>
      rw [guard]
      split
      · exact ⟨rfl, .inl rfl⟩
      · exact ⟨rfl, trivial⟩
  | remove_member user org_id user_id =>
      rw [guard]
      split
      · exact ⟨rfl, trivial⟩
      · exact ⟨rfl, trivial⟩

/-- The look-up of the membership to be removed writes nothing. -/
theorem selectTarget_cases (F : Features) (t : T) (s : Database T)
    (caller org_id user_id : Uuid) :
    (selectTarget t caller org_id user_id s).pending = Pending.none ∧
      (selectTarget t caller org_id user_id s).Flushing F := by
  rw [selectTarget]
  split
  · exact ⟨rfl, trivial⟩
  · exact ⟨rfl, trivial⟩

/-- The flush of `add_member` leaves the membership pending, with the event if there is one. -/
theorem pending_flushed (F : Features) (caller org_id : Uuid) (payload : MemberAdd)
    (membership : Option Uuid) (event : Option String) :
    (flushed F caller org_id payload membership event).pending =
      .member org_id payload membership event := by
  cases membership with
  | none => rfl
  | some id =>
      rw [flushed]
      split <;> rfl

/-- After it another flush is next only if a row is still missing, and the event is there at the
commit. -/
theorem flushing_flushed (F : Features) (caller org_id : Uuid) (payload : MemberAdd)
    (membership : Option Uuid) (event : Option String) :
    (flushed F caller org_id payload membership event).Flushing F := by
  cases membership with
  | none => exact .inl rfl
  | some id =>
      rw [flushed]
      split
      · rename_i hnext
        exact .inr hnext.2
      · rename_i hdone
        exact fun hw hnone => hdone ⟨hw, hnone⟩

/-- **A request holds the rows of its next statement.** -/
theorem Step.stands (h : Step F t s a p s' p') (hS : Stands F t s p) : Stands F t s' p' := by
  have hH := hS.holds
  cases h with
  | arrive => exact hH.stands rfl trivial
  | raised | conflict => exact (holds_rollback t s).stands rfl trivial
  | commit | recordCommit | removeCommit => exact (holds_commit t s).stands rfl trivial
  | guard =>
      obtain ⟨hp, hflush⟩ := guard_cases F t s _
      exact hH.stands hp hflush
  | selectTarget =>
      obtain ⟨hp, hflush⟩ := selectTarget_cases F t s _ _ _
      exact hH.stands hp hflush
  | deleteNone => exact hH.stands rfl trivial
  | refresh hfound =>
      split
      · exact hH.stands rfl trivial
      · exact hH.stands rfl trivial
  | insertOrganization hput hput' =>
      exact ⟨{ hH with
        organizations := hH.organizations.put hput
        slugs := hH.slugs.put hput' }, trivial⟩
  | insertOwner habsent hput =>
      exact ⟨{ hH with
        memberships := hH.memberships.put hput
        replaced := hH.memberships.committed_of_put hput habsent }, trivial⟩
  | flushMembership habsent hput =>
      refine ⟨?_, flushing_flushed _ _ _ _ _ _⟩
      rw [pending_flushed]
      exact { hH with
        memberships := hH.memberships.put hput
        replaced := hH.memberships.committed_of_put hput habsent }
  | @flushEvent _ _ _ _ membership event _ hnext habsent hput =>
      obtain rfl : event = none := by
        rcases hS.flushing with hm | he
        · exact hnext.resolve_left fun hne => hne hm
        · exact he
      refine ⟨?_, flushing_flushed _ _ _ _ _ _⟩
      rw [pending_flushed]
      exact { hH with
        outbox_events := hH.outbox_events.put hput
        fresh_event := hH.outbox_events.committed_of_put hput habsent }
  | record habsent hput =>
      exact ⟨{ hH with
        audit_logs := hH.audit_logs.put hput
        fresh_entry := hH.audit_logs.committed_of_put hput habsent }, trivial⟩
  | delete hpresent hput =>
      exact ⟨{ hH with
        memberships := hH.memberships.put hput
        replaced := hH.memberships.committed_of_put hput hpresent }, trivial⟩

/-! ### What is committed -/

/-- The committed rows of `s'` are those of `s` and the rows `w`. -/
structure Publishes (s s' : Database T) (w : Pending) : Prop where
  organizations : s'.organizations.committed =
    Table.publish s.organizations.committed w.organization
  memberships : s'.memberships.committed = Table.publish s.memberships.committed w.membership
  outbox_events : s'.outbox_events.committed = Table.publish s.outbox_events.committed w.event
  audit_logs : s'.audit_logs.committed = Table.publish s.audit_logs.committed w.entry

/-- The commit of a request publishes what it holds, and nothing else. -/
theorem Holds.publishes {w : Pending} (h : Holds t s w) : Publishes s (s.commit t) w :=
  ⟨h.organizations.committed_commit, h.memberships.committed_commit,
    h.outbox_events.committed_commit, h.audit_logs.committed_commit⟩

/-- A private step publishes nothing. -/
theorem Private.publishes (h : Private t s s') : Publishes s s' .none :=
  ⟨h.organizations.committed, h.memberships.committed, h.outbox_events.committed,
    h.audit_logs.committed⟩

/-- The statements that publish, with what follows them. -/
inductive Publishing : Proc → Proc → Prop
  | change (ch : Change) (event : Option String) : Publishing (.commit ch event) (.refresh ch)
  | entry (ch : Change) (entry : Uuid) : Publishing (.recordCommit ch entry) (.created ch)
  | removal (caller org_id user_id : Uuid) (deleted : Option Membership) :
      Publishing (.removeCommit caller org_id user_id deleted) .removed

/-- An action changes the uncommitted rows of its request alone, or it is a COMMIT. -/
theorem Step.cases_commit (h : Step F t s a p s' p') :
    Private t s s' ∨ (Publishing p p' ∧ s' = s.commit t) := by
  cases h with
  | arrive | guard | refresh | selectTarget | deleteNone => exact .inl (.refl t _)
  | raised | conflict => exact .inl (.of_rollback t s)
  | commit => exact .inr ⟨.change _ _, rfl⟩
  | recordCommit => exact .inr ⟨.entry _ _, rfl⟩
  | removeCommit => exact .inr ⟨.removal _ _ _ _, rfl⟩
  | insertOrganization hput hput' =>
      exact .inl { Private.refl t s with
        organizations := .of_put hput
        slugs := .of_put hput' }
  | insertOwner _ hput => exact .inl { Private.refl t s with memberships := .of_put hput }
  | flushMembership _ hput => exact .inl { Private.refl t s with memberships := .of_put hput }
  | flushEvent _ _ hput => exact .inl { Private.refl t s with outbox_events := .of_put hput }
  | record _ hput => exact .inl { Private.refl t s with audit_logs := .of_put hput }
  | delete _ hput => exact .inl { Private.refl t s with memberships := .of_put hput }

/-- **What an action commits**: nothing, or what its request holds. -/
theorem Step.committed (h : Step F t s a p s' p') (hS : Stands F t s p) :
    Publishes s s' .none ∨ (Publishing p p' ∧ Publishes s s' p.pending) := by
  rcases h.cases_commit with hpriv | ⟨hp, rfl⟩
  · exact .inl hpriv.publishes
  · exact .inr ⟨hp, hS.holds.publishes⟩

/-- A membership that a step changes is the one that its request holds, and is committed. -/
theorem Step.publishing_membership {k : Uuid × Uuid} (h : Step F t s a p s' p')
    (hS : Stands F t s p) (hne : s'.memberships.committed k ≠ s.memberships.committed k) :
    Publishing p p' ∧ p.pending.membership = some (k, s'.memberships.committed k) := by
  rcases h.committed hS with hpub | ⟨hpublishing, hpub⟩
  · exact absurd (congrFun hpub.memberships k) hne
  · rw [hpub.memberships] at hne ⊢
    exact ⟨hpublishing, Table.eq_some_of_publish_ne hne⟩

/-- The same of an organisation. -/
theorem Step.publishing_organization {org : Uuid} (h : Step F t s a p s' p')
    (hS : Stands F t s p)
    (hne : s'.organizations.committed org ≠ s.organizations.committed org) :
    Publishing p p' ∧ p.pending.organization = some (org, s'.organizations.committed org) := by
  rcases h.committed hS with hpub | ⟨hpublishing, hpub⟩
  · exact absurd (congrFun hpub.organizations org) hne
  · rw [hpub.organizations] at hne ⊢
    exact ⟨hpublishing, Table.eq_some_of_publish_ne hne⟩

/-- The same of an event. -/
theorem Step.publishing_event {eid : String} (h : Step F t s a p s' p') (hS : Stands F t s p)
    (hne : s'.outbox_events.committed eid ≠ s.outbox_events.committed eid) :
    Publishing p p' ∧ p.pending.event = some (eid, s'.outbox_events.committed eid) := by
  rcases h.committed hS with hpub | ⟨hpublishing, hpub⟩
  · exact absurd (congrFun hpub.outbox_events eid) hne
  · rw [hpub.outbox_events] at hne ⊢
    exact ⟨hpublishing, Table.eq_some_of_publish_ne hne⟩

/-- From `s` to `s'` request `u` is left undisturbed. -/
structure Undisturbed (u : T) (s s' : Database T) : Prop where
  organizations : Table.Undisturbed u s.organizations s'.organizations
  slugs : Table.Undisturbed u s.slugs s'.slugs
  memberships : Table.Undisturbed u s.memberships s'.memberships
  outbox_events : Table.Undisturbed u s.outbox_events s'.outbox_events
  audit_logs : Table.Undisturbed u s.audit_logs s'.audit_logs

/-- A request leaves all others undisturbed. -/
theorem Step.undisturbed (h : Step F t s a p s' p') (hu : u ≠ t) : Undisturbed u s s' := by
  rcases h.cases_commit with hpriv | ⟨-, rfl⟩
  · exact ⟨hpriv.organizations.undisturbed hu, hpriv.slugs.undisturbed hu,
      hpriv.memberships.undisturbed hu, hpriv.outbox_events.undisturbed hu,
      hpriv.audit_logs.undisturbed hu⟩
  · exact ⟨Table.undisturbed_commit _ hu, Table.undisturbed_commit _ hu,
      Table.undisturbed_commit _ hu, Table.undisturbed_commit _ hu,
      Table.undisturbed_commit _ hu⟩

/-- What a request holds is not interfered with. -/
theorem Stands.of_undisturbed (hS : Stands F u s p) (h : Undisturbed u s s') :
    Stands F u s' p := by
  have hH := hS.holds
  refine ⟨⟨hH.organizations.congr h.organizations.written, hH.slugs.congr h.slugs.written,
    hH.memberships.congr h.memberships.written,
    hH.outbox_events.congr h.outbox_events.written,
    hH.audit_logs.congr h.audit_logs.written, fun k v hk => ?_, fun eid v hk => ?_,
    fun id v hk => ?_⟩, hS.flushing⟩
  · have hheld := hH.memberships
    rw [hk] at hheld
    rw [h.memberships.held hheld.1, hH.replaced k v hk]
  · have hheld := hH.outbox_events
    rw [hk] at hheld
    rw [h.outbox_events.held hheld.1, hH.fresh_event eid v hk]
  · have hheld := hH.audit_logs
    rw [hk] at hheld
    rw [h.audit_logs.held hheld.1, hH.fresh_entry id v hk]

/-- The proof outline. -/
theorem stands_outline (F : Features) (ok : Config T (Database T) Proc → T → Act → Prop) :
    (program F).Outline ok (fun _ => True) (Stands F) where
  step _ _ hS h := ⟨trivial, (step_of_exec h).stands (hS _)⟩
  frame hu _ _ hS h := (hS _).of_undisturbed ((step_of_exec h).undisturbed hu)

/-- **Along every run a request holds the rows of its next statement.** -/
theorem stands_of_run (h : (program F).Run ok init c) (u : T) :
    Stands F u c.shared (c.proc u) :=
  ((stands_outline F ok).run h trivial fun _ =>
    ⟨⟨Table.untouched_empty _, Table.untouched_empty _, Table.untouched_empty _,
      Table.untouched_empty _, Table.untouched_empty _, nofun, nofun, nofun⟩, trivial⟩).2 u

/-- Events and audit rows stay, and so do organisations. -/
structure Grows (s s' : Database T) : Prop where
  outbox_events : ∀ eid row, s.outbox_events.committed eid = some row →
    s'.outbox_events.committed eid = some row
  audit_logs : ∀ id row, s.audit_logs.committed id = some row →
    s'.audit_logs.committed id = some row

/-- A row that is published under a free key leaves the others. -/
theorem publish_of_fresh {K V : Type} [DecidableEq K] {rows : K → Option V}
    {held : Option (K × Option V)} (hfresh : ∀ k v, held = some (k, v) → rows k = none)
    {j : K} {row : V} (hj : rows j = some row) : Table.publish rows held j = some row := by
  cases held with
  | none => exact hj
  | some r =>
      have hne : j ≠ r.1 := by
        rintro rfl
        rw [hfresh r.1 r.2 rfl] at hj
        cases hj
      rw [Table.publish, Function.update_of_ne hne, hj]

/-- **One step.** Events and audit rows are only added. -/
theorem Step.grows (h : Step F t s a p s' p') (hS : Stands F t s p) : Grows s s' := by
  rcases h.committed hS with hpub | ⟨-, hpub⟩
  · exact ⟨fun eid row hrow => by rw [hpub.outbox_events]; exact hrow,
      fun id row hrow => by rw [hpub.audit_logs]; exact hrow⟩
  · exact ⟨fun eid row hrow => by
        rw [hpub.outbox_events]
        exact publish_of_fresh hS.holds.fresh_event hrow,
      fun id row hrow => by
        rw [hpub.audit_logs]
        exact publish_of_fresh hS.holds.fresh_entry hrow⟩

/-- Along a run they only grow. -/
theorem grows_of_run (hc : (program F).Run Any init c) (h : (program F).Run Any c d) :
    Grows c.shared d.shared := by
  induction h with
  | refl => exact ⟨fun _ _ h => h, fun _ _ h => h⟩
  | step hrun _ hstep ih =>
      have hgrows := (step_of_move hstep).grows (stands_of_run (hc.trans hrun) _)
      exact ⟨fun eid row h => hgrows.outbox_events _ _ (ih.outbox_events _ _ h),
        fun id row h => hgrows.audit_logs _ _ (ih.audit_logs _ _ h)⟩

end BackendManager.Organizations
