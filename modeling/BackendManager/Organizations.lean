import BackendManager.Interleaving
import BackendManager.ReadCommitted
import BackendManager.Uuid

/-!
# Organisations and Their Members

The model of `create_organization`, `add_member` and `remove_member` in `app/tenancy/router.py`
with what they call: `get_current_membership`, `require_role` and `require_scope` of
`app/rbac`, `dispatch` of `app/webhooks` and `record` of `app/audit`. The requests are cut at
every statement that reaches the database.

## Statement convention

* Whether `webhooks`, `audit` and `rbac` are part of the service is an argument, `Features`.
* The environment draws each `uuid.uuid4()`, and decides whether a statement violates a
  constraint other than the unique columns of the model: a foreign key, or a primary key. A
  unique violation of a statement is decided by the tables.
* A flush inserts the membership and the event of `add_member` in either order.
* An `IntegrityError` is followed by the rollback of its handler, or of the session if there
  is no handler, in one step.
* `Act.fail` ends a request at any point before it has answered: a cancellation, a crash or
  the loss of the database. What was committed before stays.

Columns that no statement here reads are left out, as `attempts` of an event is, and so is
the column `source` of an event, which is `webhook`.
-/

namespace BackendManager.Organizations

open ReadCommitted Interleaving

/-! ### Roles -/

def OWNER : String := "owner"
def ADMIN : String := "admin"
def MEMBER : String := "member"

/-- `ROLE_RANK`. -/
def ROLE_RANK : List (String × ℕ) := [(MEMBER, 1), (ADMIN, 2), (OWNER, 3)]

/-- `ROLE_RANK.get(role, 0)`. -/
def rank (role : String) : ℕ := (ROLE_RANK.lookup role).getD 0

/-- `SCOPES_BY_ROLE`. -/
def SCOPES_BY_ROLE : List (String × List String) :=
  [(MEMBER, ["org:read"]), (ADMIN, ["org:read", "members:write"]),
    (OWNER, ["org:read", "members:write", "org:admin"])]

/-- `role_grants_scope`. -/
def role_grants_scope (role scope : String) : Bool :=
  scope ∈ (SCOPES_BY_ROLE.lookup role).getD []

/-! ### Rows and requests -/

/-- A row of `organizations`. -/
structure Organization where
  name : String
  slug : String
deriving DecidableEq

/-- A row of `memberships`; `(organization_id, user_id)` is unique. -/
structure Membership where
  id : Uuid
  role : String
deriving DecidableEq

/-- The payload of an event. -/
structure Payload where
  id : String
  event_type : String
  organization_id : String
  data : List (String × String)
deriving DecidableEq

/-- A row of `outbox_events`; `event_id` is unique. -/
structure OutboxEvent where
  event_type : String
  organization_id : Option Uuid
  payload : Payload
deriving DecidableEq

/-- A row of `audit_logs`. -/
structure AuditLog where
  action : String
  actor : Option String
  target : Option String
  organization_id : Option Uuid
  metadata : Option (List (String × String))
deriving DecidableEq

/-- `OrganizationCreate`. -/
structure OrganizationCreate where
  name : String
  slug : String
  name_length : 1 ≤ name.length ∧ name.length ≤ 255
  slug_length : 1 ≤ slug.length ∧ slug.length ≤ 255
  slug_pattern : slug.toList.all
    (fun c => 'a' ≤ c ∧ c ≤ 'z' ∨ '0' ≤ c ∧ c ≤ '9' ∨ c = '-') = true
deriving DecidableEq

/-- `MemberAdd`. -/
structure MemberAdd where
  user_id : Uuid
  role : String
  role_length : role.length ≤ 50
deriving DecidableEq

/-- The modules that the service is generated with. -/
structure Features where
  webhooks : Bool
  audit : Bool
  rbac : Bool

/-- The tables. The unique column `slug` is an index of its own. -/
structure Database (T : Type) where
  organizations : Table T Uuid Organization
  slugs : Table T String Uuid
  memberships : Table T (Uuid × Uuid) Membership
  outbox_events : Table T String OutboxEvent
  audit_logs : Table T Uuid AuditLog

/-- A request of the user `user`. -/
inductive Request
  | create_organization (user : Uuid) (payload : OrganizationCreate)
  | add_member (user org_id : Uuid) (payload : MemberAdd)
  | remove_member (user org_id user_id : Uuid)
deriving DecidableEq

/-- An error response. -/
structure HTTPException where
  status_code : ℕ
  detail : String
deriving DecidableEq

/-- The change that a request commits: a new organisation with the id `org`, or a new
membership; `id` is the id of the membership of the owner, or of the new member. -/
inductive Change
  | organization (user org id : Uuid) (payload : OrganizationCreate)
  | membership (caller org_id id : Uuid) (payload : MemberAdd)
deriving DecidableEq

/-- Where a request stands: the statement it executes next, with what its Python frame holds
at that point. -/
inductive Proc
  /-- Not started. -/
  | idle
  /-- The `SELECT` of `get_current_membership` is next. -/
  | guard (r : Request)
  /-- `create_organization`: the `INSERT` of the organisation is next. -/
  | insertOrganization (user : Uuid) (payload : OrganizationCreate)
  /-- The `INSERT` of the owner's membership is next. -/
  | insertOwner (user org : Uuid) (payload : OrganizationCreate)
  /-- `add_member`: the flush of the new membership and of its event is next; those that are
  inserted are given with their ids. -/
  | flush (caller org_id : Uuid) (payload : MemberAdd) (membership : Option Uuid)
      (event : Option String)
  /-- The `COMMIT` of the change, and of its event, is next. -/
  | commit (ch : Change) (event : Option String)
  /-- The change is committed: `session.refresh` is next. -/
  | refresh (ch : Change)
  /-- `record` is next. -/
  | record (ch : Change)
  /-- The `COMMIT` of the audit row `entry` is next. -/
  | recordCommit (ch : Change) (entry : Uuid)
  /-- The request has answered `201`. -/
  | created (ch : Change)
  /-- `remove_member`: the `SELECT` of the target is next. -/
  | selectTarget (caller org_id user_id : Uuid)
  /-- The `DELETE` of the target is next. -/
  | deleteTarget (caller org_id user_id : Uuid) (target : Membership)
  /-- The `COMMIT` is next; `deleted` is the row that the `DELETE` has found. -/
  | removeCommit (caller org_id user_id : Uuid) (deleted : Option Membership)
  /-- The request has answered `204`. -/
  | removed
  /-- The request has answered with an error. -/
  | refused (e : HTTPException)
  /-- The request ended with an exception and its transaction was rolled back. -/
  | raised
deriving DecidableEq

/-- What the environment decides for one statement. -/
structure Env where
  /-- The value of `uuid.uuid4()`. -/
  uuid : Uuid
  /-- The statement violates another constraint. -/
  violated : Bool
  /-- A flush inserts the event first. -/
  eventFirst : Bool
deriving DecidableEq

/-- One scheduled action. -/
inductive Act
  /-- A request arrives. -/
  | arrive (r : Request)
  /-- The next statement. -/
  | stmt (env : Env)
  /-- Cancellation, crash or failure of the database. -/
  | fail
deriving DecidableEq

/-! ### What is written -/

/-- The event of a new membership: `dispatch(session, event_type="member.added", ...)`. -/
def memberAdded (org_id : Uuid) (payload : MemberAdd) (eid : String) : OutboxEvent where
  event_type := "member.added"
  organization_id := some org_id
  payload :=
    { id := eid
      event_type := "member.added"
      organization_id := org_id.str
      data := [("user_id", payload.user_id.str), ("role", payload.role)] }

/-- The row that `record` adds for a change. -/
def Change.audit : Change → AuditLog
  | .organization user org _ payload =>
      { action := "organization.created"
        actor := some user.str
        target := some org.str
        organization_id := some org
        metadata := some [("name", payload.name), ("slug", payload.slug)] }
  | .membership caller org_id _ payload =>
      { action := "member.added"
        actor := some caller.str
        target := some payload.user_id.str
        organization_id := some org_id
        metadata := some [("role", payload.role)] }

/-- The answer to an `IntegrityError`. -/
def slugTaken : HTTPException := ⟨409, "Organization slug already taken"⟩

/-- The answer to an `IntegrityError`. -/
def alreadyMember : HTTPException := ⟨409, "User is already a member of this organization"⟩

/-- The handler of the `IntegrityError` of a change. -/
def Change.conflict : Change → HTTPException
  | .organization _ _ _ _ => slugTaken
  | .membership _ _ _ _ => alreadyMember

/-! ### Guards -/

/-- `has_role` of a membership with this role. -/
def has_role (role minimum : String) : Bool := rank minimum ≤ rank role

/-- What `add_member` requires of the caller's role. -/
def require_role (F : Features) (minimum role : String) : Except HTTPException Unit :=
  if F.rbac ∧ !has_role role minimum then
    .error ⟨403, "Requires the '" ++ minimum ++ "' role or higher"⟩
  else .ok ()

/-- What `remove_member` requires of the caller's role. -/
def require_scope (F : Features) (scope role : String) : Except HTTPException Unit :=
  if F.rbac ∧ !role_grants_scope role scope then
    .error ⟨403, "Requires the '" ++ scope ++ "' permission"⟩
  else .ok ()

variable {T : Type} [DecidableEq T]

/-! ### Statements -/

namespace Database

/-- COMMIT. -/
def commit (s : Database T) (t : T) : Database T where
  organizations := s.organizations.commit t
  slugs := s.slugs.commit t
  memberships := s.memberships.commit t
  outbox_events := s.outbox_events.commit t
  audit_logs := s.audit_logs.commit t

/-- ROLLBACK. -/
def rollback (s : Database T) (t : T) : Database T where
  organizations := s.organizations.rollback t
  slugs := s.slugs.rollback t
  memberships := s.memberships.rollback t
  outbox_events := s.outbox_events.rollback t
  audit_logs := s.audit_logs.rollback t

/-- The empty database. -/
def empty : Database T := ⟨.empty, .empty, .empty, .empty, .empty⟩

end Database

/-- `get_current_membership`: the caller's membership in the organisation. -/
def get_current_membership (t : T) (s : Database T) (org_id user : Uuid) :
    Except HTTPException Membership :=
  match s.memberships.view t (org_id, user) with
  | none => .error ⟨404, "Organization not found"⟩
  | some membership => .ok membership

/-- The dependencies of a route, and the statement after them. -/
def guard (F : Features) (t : T) (s : Database T) : Request → Proc
  | .create_organization user payload => .insertOrganization user payload
  | .add_member user org_id payload =>
      match (get_current_membership t s org_id user).bind fun membership =>
          require_role F ADMIN membership.role with
      | .ok _ => .flush user org_id payload none none
      | .error e => .refused e
  | .remove_member user org_id user_id =>
      match (get_current_membership t s org_id user).bind fun membership =>
          require_scope F "members:write" membership.role with
      | .ok _ => .selectTarget user org_id user_id
      | .error e => .refused e

/-- The `INSERT` of the organisation. -/
def insertOrganization (t : T) (env : Env) (user : Uuid) (payload : OrganizationCreate)
    (s : Database T) : Option (Database T × Proc) :=
  if env.violated then some (s.rollback t, .refused slugTaken)
  else
    (s.organizations.insert t env.uuid ⟨payload.name, payload.slug⟩).bind fun
      | .error _ => some (s.rollback t, .refused slugTaken)
      | .ok organizations =>
          (s.slugs.insert t payload.slug env.uuid).map fun
            | .error _ => (s.rollback t, .refused slugTaken)
            | .ok slugs => ({ s with organizations, slugs }, .insertOwner user env.uuid payload)

/-- The `INSERT` of a membership, which leads to `next`. -/
def insertMembership (t : T) (env : Env) (org_id user_id : Uuid) (row : Membership)
    (conflict : HTTPException) (next : Proc) (s : Database T) : Option (Database T × Proc) :=
  if env.violated then some (s.rollback t, .refused conflict)
  else
    (s.memberships.insert t (org_id, user_id) row).map fun
      | .error _ => (s.rollback t, .refused conflict)
      | .ok memberships => ({ s with memberships }, next)

/-- The `INSERT` of an event, which leads to `next`. -/
def insertEvent (t : T) (env : Env) (eid : String) (row : OutboxEvent)
    (conflict : HTTPException) (next : Proc) (s : Database T) : Option (Database T × Proc) :=
  if env.violated then some (s.rollback t, .refused conflict)
  else
    (s.outbox_events.insert t eid row).map fun
      | .error _ => (s.rollback t, .refused conflict)
      | .ok outbox_events => ({ s with outbox_events }, next)

/-- Where `add_member` stands with these rows inserted. -/
def flushed (F : Features) (caller org_id : Uuid) (payload : MemberAdd)
    (membership : Option Uuid) (event : Option String) : Proc :=
  match membership with
  | some id =>
      if F.webhooks ∧ event = none then .flush caller org_id payload membership event
      else .commit (.membership caller org_id id payload) event
  | none => .flush caller org_id payload membership event

/-- The flush of `dispatch`, or of the `COMMIT` if there is no event: one `INSERT`. -/
def flush (F : Features) (t : T) (env : Env) (caller org_id : Uuid) (payload : MemberAdd)
    (membership : Option Uuid) (event : Option String) (s : Database T) :
    Option (Database T × Proc) :=
  if membership ≠ none ∨ (F.webhooks ∧ event = none ∧ env.eventFirst) then
    insertEvent t env env.uuid.str (memberAdded org_id payload env.uuid.str) alreadyMember
      (flushed F caller org_id payload membership (some env.uuid.str)) s
  else
    insertMembership t env org_id payload.user_id ⟨env.uuid, payload.role⟩ alreadyMember
      (flushed F caller org_id payload (some env.uuid) event) s

/-- `session.refresh` finds the row of the change. -/
def Change.found (t : T) (s : Database T) : Change → Bool
  | .organization _ org _ _ => (s.organizations.view t org).isSome
  | .membership _ org_id id payload =>
      (s.memberships.view t (org_id, payload.user_id)).any fun row => row.id = id

/-- The `INSERT` of `record`. -/
def record (t : T) (env : Env) (ch : Change) (s : Database T) : Option (Database T × Proc) :=
  if env.violated then some (s.rollback t, .raised)
  else
    (s.audit_logs.insert t env.uuid ch.audit).map fun
      | .error _ => (s.rollback t, .raised)
      | .ok audit_logs => ({ s with audit_logs }, .recordCommit ch env.uuid)

/-- The `SELECT` of the membership to be removed. -/
def selectTarget (t : T) (caller org_id user_id : Uuid) (s : Database T) : Proc :=
  match s.memberships.view t (org_id, user_id) with
  | none => .refused ⟨404, "Member not found"⟩
  | some target => .deleteTarget caller org_id user_id target

/-- `DELETE FROM memberships WHERE id = :id`. -/
def deleteTarget (t : T) (caller org_id user_id : Uuid) (target : Membership)
    (s : Database T) : Option (Database T × Proc) :=
  match (s.memberships.view t (org_id, user_id)).filter fun row => row.id = target.id with
  | some row =>
      (s.memberships.put t (org_id, user_id) none).map fun memberships =>
        ({ s with memberships }, .removeCommit caller org_id user_id (some row))
  | none => some (s, .removeCommit caller org_id user_id none)

/-- The next statement. -/
def stmt (F : Features) (t : T) (env : Env) (s : Database T) :
    Proc → Option (Database T × Proc)
  | .guard r => some (s, guard F t s r)
  | .insertOrganization user payload => insertOrganization t env user payload s
  | .insertOwner user org payload =>
      insertMembership t env org user ⟨env.uuid, OWNER⟩ slugTaken
        (.commit (.organization user org env.uuid payload) none) s
  | .flush caller org_id payload membership event =>
      flush F t env caller org_id payload membership event s
  | .commit ch _ =>
      if env.violated then some (s.rollback t, .refused ch.conflict)
      else some (s.commit t, .refresh ch)
  | .refresh ch =>
      if ch.found t s then some (s, if F.audit then .record ch else .created ch)
      else some (s.rollback t, .raised)
  | .record ch => record t env ch s
  | .recordCommit ch _ =>
      if env.violated then some (s.rollback t, .raised) else some (s.commit t, .created ch)
  | .selectTarget caller org_id user_id => some (s, selectTarget t caller org_id user_id s)
  | .deleteTarget caller org_id user_id target => deleteTarget t caller org_id user_id target s
  | .removeCommit _ _ _ _ =>
      if env.violated then some (s.rollback t, .raised) else some (s.commit t, .removed)
  | .idle | .created _ | .removed | .refused _ | .raised => none

/-- The request has ended. -/
def Proc.ended : Proc → Bool
  | .created _ | .removed | .refused _ | .raised => true
  | _ => false

/-- One action. -/
def exec (F : Features) (t : T) : Act → Database T → Proc → Option (Database T × Proc)
  | .arrive r, s, .idle => some (s, .guard r)
  | .stmt env, s, p => stmt F t env s p
  | .fail, s, p => if p.ended then none else some (s.rollback t, .raised)
  | _, _, _ => none

/-- The tenancy routes as an interleaved program. -/
def program (F : Features) : Program T (Database T) Proc Act := ⟨exec F⟩

/-- The initial configuration: no rows and no request started. -/
def init : Config T (Database T) Proc := ⟨.empty, fun _ => .idle⟩

/-- All schedules. -/
abbrev Any : Config T (Database T) Proc → T → Act → Prop := fun _ _ _ => True

end BackendManager.Organizations
