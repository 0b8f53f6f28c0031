import BackendManager.Interleaving
import BackendManager.RowPolicies
import BackendManager.TenantContext

/-!
# Transactions Under a Tenant

The model of `_apply_tenant_context` in `app/db/session.py` over a pool of connections, of
`TenantContextMiddleware` around the requests that use them, and of the policies of the
migrations `0008_rls` and `0013_rls_backfill`.

## Statement convention

* A thread is a task of the server. It serves requests one after the other, and its
  `current_tenant_id` is the variable of its own context. Any number of tasks share any
  number of connections: a transaction begins on a connection that is not in a transaction,
  whichever session used it before, and a task may have several transactions at a time.
* `set_config(name, value, true)` sets a value for the rest of the transaction. When the
  transaction ends, by COMMIT or by ROLLBACK, the value of the session is back; PostgreSQL
  makes it the empty text if the setting had not been there before. A new connection does
  not know the setting.
* A statement is executed against rows that the environment chooses, so that it makes no
  difference what other transactions have written. The role of a `bypass` session is not
  subject to policies, which `get_privileged_session` checks; every other role is.

## Main results

* `sound_of_run`: every transaction runs under the setting of its own request and mode.
* `tenant_isolation`: and the statements of a transaction under a tenant have to do with
  rows of that tenant only.
-/

namespace BackendManager.Tenancy

open Interleaving RowPolicies

/-! ### The setting -/

/-- `app.current_tenant` on one connection. -/
structure Setting where
  /-- The value of the session; `none` before the setting is known. -/
  session : Option String
  /-- The value of the transaction, if it has set one. -/
  xact : Option String
deriving DecidableEq

namespace Setting

/-- `current_setting('app.current_tenant', true)`. -/
def current_setting (s : Setting) : Option String := s.xact <|> s.session

/-- `set_config('app.current_tenant', value, true)`. -/
def set_config (s : Setting) (value : String) : Setting := { s with xact := some value }

/-- The transaction ends. -/
def restore (s : Setting) : Setting where
  session := if s.xact.isSome then some (s.session.getD "") else s.session
  xact := none

/-- A new connection. -/
def fresh : Setting := ⟨none, none⟩

end Setting

/-! ### The policies -/

/-- The parts of the template that come with tables of their own. -/
structure Features where
  include_api_keys : Bool
  include_billing : Bool
  include_webhooks : Bool
  include_audit : Bool
  include_metering : Bool

/-- `_TENANT_TABLES` of `0008_rls`. -/
def Features.rls_tables (f : Features) : List String :=
  (if f.include_api_keys then ["api_keys"] else []) ++
  (if f.include_billing then ["subscriptions"] else []) ++
  (if f.include_webhooks then ["webhook_endpoints"] else []) ++
  (if f.include_audit then ["audit_logs"] else [])

/-- `_TENANT_TABLES` of `0013_rls_backfill`. -/
def Features.late_tables (f : Features) : List String :=
  (if f.include_webhooks then ["outbox_events"] else []) ++
  (if f.include_metering then
    ["usage_events", "invoices", "customer_wallets", "wallet_transactions"] else [])

/-- The tables that have a policy. -/
def Features.protected_tables (f : Features) : List String := f.rls_tables ++ f.late_tables

/-- A row of a tenant table; `columns` are its other columns. -/
structure Row (V : Type) where
  /-- Nullable in `audit_logs` and `outbox_events` only. -/
  organization_id : Option Uuid
  columns : V

variable {V : Type}

/-- `_TENANT`: `NULLIF(current_setting('app.current_tenant', true), '')`. -/
def TENANT (setting : Option String) : Option String := nullif setting (some "")

/-- `text::uuid`, where `cast` reads a UUID. -/
def castUuid (cast : String → Option Uuid) : Option String → Except String (Option Uuid)
  | none => .ok none
  | some text =>
      match cast text with
      | some u => .ok (some u)
      | none => .error "invalid input syntax for type uuid"

/-- `_USING`. -/
def USING (cast : String → Option Uuid) (setting : Option String) (row : Row V) :
    Except String Truth := do
  let tenant ← castUuid cast (TENANT setting)
  return Truth.eq row.organization_id tenant

/-- `_CHECK`. -/
def CHECK (cast : String → Option Uuid) (setting : Option String) (row : Row V) :
    Except String Truth := do
  let using_ ← USING cast setting row
  return (isNull (TENANT setting)).or using_

/-- The policy `tenant_isolation` that `upgrade` creates. -/
def tenant_isolation_policy (cast : String → Option Uuid) (setting : Option String) :
    Policy (Row V) where
  existing := USING cast setting
  new := CHECK cast setting

/-- Which rows a statement sees is `_USING`. -/
theorem existing_tenant_isolation_policy (cast : String → Option Uuid) (setting : Option String)
    (row : Row V) :
    (tenant_isolation_policy cast setting).existing row = USING cast setting row := rfl

/-- And which rows it may write is `_CHECK`. -/
theorem new_tenant_isolation_policy (cast : String → Option Uuid) (setting : Option String)
    (row : Row V) : (tenant_isolation_policy cast setting).new row = CHECK cast setting row := rfl

/-! ### Tasks and connections -/

/-- A request as the middleware sees it: `scope["type"]` and `scope["path"]`. -/
structure Request where
  type : String
  path : String
deriving DecidableEq

/-- The tenant of a request. -/
def Request.tenant (r : Request) : Option String := Tenancy.current_tenant_id r.type r.path

/-- A transaction of a session. `request` is the request that its task was serving when it
began. -/
structure Transaction (T : Type) where
  owner : T
  /-- `session.info.get("rls_mode")`. -/
  mode : Option RlsMode
  request : Option Request

/-- A connection of the pool. -/
structure Connection (T : Type) where
  setting : Setting
  transaction : Option (Transaction T)

/-- A task. -/
structure Task where
  /-- The context variable. -/
  current_tenant_id : Option String
  /-- The request being served, with the value that `reset` restores. -/
  serving : Option (Request × Option String)

/-- One action of a task. -/
inductive Act (C V : Type)
  /-- A request reaches the middleware. -/
  | receive (request : Request)
  /-- The application has returned. -/
  | respond
  /-- A session with this mode begins a transaction. -/
  | begin_ (conn : C) (mode : Option RlsMode)
  /-- A statement of the transaction on a table with these rows. -/
  | execute (conn : C) (table : String) (statement : Statement (Row V)) (rows : List (Row V))
  /-- COMMIT or ROLLBACK. -/
  | finish (conn : C)
  /-- The connection is closed and opened again. -/
  | reconnect (conn : C)

variable {T C : Type} [DecidableEq T] [DecidableEq C]

/-- `TenantContextMiddleware.__call__` up to `self.app`. -/
def Task.receive (task : Task) (request : Request) : Task where
  current_tenant_id :=
    if request.type ≠ "http" then task.current_tenant_id else request.tenant
  serving := some (request, task.current_tenant_id)

/-- The `finally` of `TenantContextMiddleware.__call__`. -/
def Task.respond (task : Task) (request : Request) (token : Option String) : Task where
  current_tenant_id := if request.type ≠ "http" then task.current_tenant_id else token
  serving := none

/-- `after_begin` on PostgreSQL. -/
def begun (t : T) (task : Task) (mode : Option RlsMode) (setting : Setting) : Connection T where
  setting :=
    match apply_tenant_context "postgresql" mode task.current_tenant_id with
    | some tenant => setting.set_config tenant
    | none => setting
  transaction := some ⟨t, mode, task.serving.map Prod.fst⟩

/-- One action. -/
def exec (t : T) : Act C V → (C → Connection T) → Task → Option ((C → Connection T) × Task)
  | .receive request, pool, task =>
      if task.serving.isNone then some (pool, task.receive request) else none
  | .respond, pool, task =>
      task.serving.map fun (request, token) => (pool, task.respond request token)
  | .begin_ conn mode, pool, task =>
      if (pool conn).transaction.isNone then
        some (Function.update pool conn (begun t task mode (pool conn).setting), task)
      else none
  | .execute conn _ _ _, pool, task =>
      if (pool conn).transaction.any fun x => x.owner = t then some (pool, task) else none
  | .finish conn, pool, task =>
      if (pool conn).transaction.any fun x => x.owner = t then
        some (Function.update pool conn ⟨(pool conn).setting.restore, none⟩, task)
      else none
  | .reconnect conn, pool, task => some (Function.update pool conn ⟨.fresh, none⟩, task)

/-- The tasks and the pool as an interleaved program. -/
def program : Program T (C → Connection T) Task (Act C V) := ⟨exec⟩

/-- New connections, and no request. -/
def init : Config T (C → Connection T) Task :=
  ⟨fun _ => ⟨.fresh, none⟩, fun _ => ⟨none, none⟩⟩

/-- All schedules. -/
abbrev Any : Config T (C → Connection T) Task → T → Act C V → Prop := fun _ _ _ => True

/-- What a statement of a transaction does on a table with these rows. -/
def Connection.execute (f : Features) (cast : String → Option Uuid) (conn : Connection T)
    (table : String) (statement : Statement (Row V)) (rows : List (Row V)) :
    Except String (Effect (Row V)) :=
  let bypasses := conn.transaction.any fun x => x.mode = some .bypass
  let policy :=
    if bypasses ∨ table ∉ f.protected_tables then none
    else some (tenant_isolation_policy cast conn.setting.current_setting)
  RowPolicies.execute policy rows statement

/-! ### What a transaction runs under -/

/-- The setting that belongs to a transaction: the tenant of its own request, the empty text
for `bypass`, and no tenant if the session is not tagged. -/
def InForce (x : Transaction T) (value : Option String) : Prop :=
  match x.mode with
  | some .tenant => value = some ((x.request.bind Request.tenant).getD "")
  | some .bypass => value = some ""
  | none => value = none ∨ value = some ""

/-- What holds of a connection: no session has set a value, and a transaction is the only
one that has. -/
structure Sound (conn : Connection T) : Prop where
  session : conn.setting.session = none ∨ conn.setting.session = some ""
  idle : conn.transaction = none → conn.setting.xact = none
  inForce : ∀ x, conn.transaction = some x → InForce x conn.setting.current_setting

/-- The context variable of a task: the tenant of the request being served, which the
middleware will take back. -/
def Loc (_ : T) (_ : C → Connection T) (task : Task) : Prop :=
  match task.serving with
  | none => task.current_tenant_id = none
  | some (request, token) => task.current_tenant_id = request.tenant ∧ token = none

variable {t u : T} {task task' : Task} {pool pool' : C → Connection T} {a : Act C V}
  {conn : C} {mode : Option RlsMode} {setting : Setting} {x : Transaction T}
  {c : Config T (C → Connection T) Task} {f : Features} {cast : String → Option Uuid}
  {A : Uuid} {request : Request}

/-- Nothing but an HTTP request has a tenant. -/
theorem Request.tenant_of_ne (h : request.type ≠ "http") : request.tenant = none := by
  rw [Request.tenant, Tenancy.current_tenant_id, if_pos h]

omit [DecidableEq T] in
/-- A fresh connection has no setting that could leak. -/
theorem sound_fresh : Sound (⟨.fresh, none⟩ : Connection T) where
  session := .inl rfl
  idle _ := rfl
  inForce _ hx := by cases hx

omit [DecidableEq T] in
/-- The end of a transaction takes its value away. -/
theorem Sound.restore {old : Connection T} (h : Sound old) :
    Sound (⟨old.setting.restore, none⟩ : Connection T) where
  session := by
    rcases h.session with hs | hs <;> cases hx : old.setting.xact <;>
      simp [Setting.restore, hs, hx]
  idle _ := rfl
  inForce _ hx := by cases hx

omit [DecidableEq T] [DecidableEq C] in
/-- A task reads the tenant of the request that it serves. -/
theorem Loc.current (h : Loc t pool task) :
    task.current_tenant_id = (task.serving.map Prod.fst).bind Request.tenant := by
  unfold Loc at h
  cases hs : task.serving with
  | none =>
      rw [hs] at h
      exact h
  | some s =>
      rw [hs] at h
      exact h.1

omit [DecidableEq T] [DecidableEq C] in
/-- A new transaction runs under the setting of its own request and mode. -/
theorem Sound.begun {old : Connection T} (h : Sound old) (hidle : old.transaction = none)
    (hL : Loc t pool task) : Sound (begun t task mode old.setting) where
  session := by
    rcases mode with _ | _ | _ <;> exact h.session
  idle hx := by cases hx
  inForce x hx := by
    obtain rfl := Option.some.inj hx
    rcases mode with _ | _ | _
    · have hcurrent : old.setting.current_setting = old.setting.session := by
        simp [Setting.current_setting, h.idle hidle]
      exact hcurrent ▸ h.session
    · exact congrArg (fun v : Option String => some (v.getD "")) hL.current
    · rfl

omit [DecidableEq T] [DecidableEq C] in
/-- The middleware sets the variable to the tenant of the request. -/
theorem Loc.receive (h : Loc t pool task) (hidle : task.serving = none) :
    Loc t pool (task.receive request) := by
  have hnone : task.current_tenant_id = none := by
    rw [h.current, hidle]
    rfl
  refine ⟨?_, hnone⟩
  by_cases hhttp : request.type = "http"
  · simp only [Task.receive, hhttp, ne_eq, not_true_eq_false, if_false]
  · simp only [Task.receive, hhttp, ne_eq, not_false_eq_true, if_true, hnone,
      Request.tenant_of_ne hhttp]

omit [DecidableEq T] [DecidableEq C] in
/-- And it takes the tenant back. -/
theorem Loc.respond {token : Option String} (h : Loc t pool task)
    (hserving : task.serving = some (request, token)) :
    Loc t pool (task.respond request token) := by
  unfold Loc at h
  rw [hserving] at h
  obtain ⟨hcurrent, rfl⟩ := h
  by_cases hhttp : request.type = "http"
  · simp only [Loc, Task.respond, hhttp, ne_eq, not_true_eq_false, if_false]
  · simp only [Loc, Task.respond, hhttp, ne_eq, not_false_eq_true, if_true, hcurrent,
      Request.tenant_of_ne hhttp]

omit [DecidableEq T] in
/-- One connection of a sound pool is replaced. -/
theorem sound_update {new : Connection T} (hS : ∀ conn, Sound (pool conn)) (hnew : Sound new)
    (conn conn' : C) : Sound (Function.update pool conn new conn') := by
  by_cases hc : conn' = conn
  · subst hc
    rwa [Function.update_self]
  · rw [Function.update_of_ne hc]
    exact hS conn'

/-- **One action** keeps every connection sound and the variable of its task true. -/
theorem sound_of_exec (hS : ∀ conn, Sound (pool conn)) (hL : Loc t pool task)
    (h : exec t a pool task = some (pool', task')) :
    (∀ conn, Sound (pool' conn)) ∧ Loc t pool' task' := by
  cases a with
  | receive request =>
      obtain ⟨hidle, heq⟩ := Option.ite_none_right_eq_some.mp h
      obtain ⟨rfl, rfl⟩ := Prod.mk.inj (Option.some.inj heq)
      exact ⟨hS, hL.receive (Option.isNone_iff_eq_none.mp hidle)⟩
  | respond =>
      obtain ⟨⟨request, token⟩, hserving, heq⟩ := Option.map_eq_some_iff.mp h
      obtain ⟨rfl, rfl⟩ := Prod.mk.inj heq
      exact ⟨hS, hL.respond hserving⟩
  | begin_ conn mode =>
      obtain ⟨hidle, heq⟩ := Option.ite_none_right_eq_some.mp h
      obtain ⟨rfl, rfl⟩ := Prod.mk.inj (Option.some.inj heq)
      exact ⟨sound_update hS ((hS conn).begun (Option.isNone_iff_eq_none.mp hidle) hL) conn, hL⟩
  | execute conn table statement rows =>
      obtain ⟨-, heq⟩ := Option.ite_none_right_eq_some.mp h
      obtain ⟨rfl, rfl⟩ := Prod.mk.inj (Option.some.inj heq)
      exact ⟨hS, hL⟩
  | finish conn =>
      obtain ⟨-, heq⟩ := Option.ite_none_right_eq_some.mp h
      obtain ⟨rfl, rfl⟩ := Prod.mk.inj (Option.some.inj heq)
      exact ⟨sound_update hS (hS conn).restore conn, hL⟩
  | reconnect conn =>
      obtain ⟨rfl, rfl⟩ := Prod.mk.inj (Option.some.inj h)
      exact ⟨sound_update hS sound_fresh conn, hL⟩

/-- The outline: every connection is sound, and every task reads its own request. -/
theorem outline :
    (program (T := T) (C := C) (V := V)).Outline Any (fun pool => ∀ conn, Sound (pool conn))
      Loc where
  step _ hS hL h := sound_of_exec hS (hL _) h
  frame _ _ _ hL _ := hL _

/-- **Every connection is sound along every run.** -/
theorem sound_of_run (h : (program (V := V)).Run Any init c) (conn : C) : Sound (c.shared conn) :=
  (outline.run h (fun _ => sound_fresh) fun _ => rfl).1 conn

/-! ### Rows -/

/-- A UUID is not the empty text. -/
theorem str_ne_empty (A : Uuid) : A.str ≠ "" := by
  intro h
  have hread := UUID_str A
  rw [h] at hread
  cases hread

/-- The setting of a tenant is its text. -/
theorem TENANT_str (A : Uuid) : TENANT (some A.str) = some A.str :=
  nullif_of_ne (str_ne_empty A)

/-- Under the tenant's setting a row is seen if it is the tenant's, and not if its organisation is
`NULL`. -/
theorem USING_eq (hcast : cast A.str = some A) (row : Row V) :
    USING cast (some A.str) row = .ok (Truth.eq row.organization_id (some A)) := by
  simp only [USING, TENANT_str, castUuid, hcast]
  rfl

/-- Under tenant `A` the rows of `A` take part in statements, and no others. -/
theorem USING_str (hcast : cast A.str = some A) {row : Row V} :
    USING cast (some A.str) row = .ok (some true) ↔ row.organization_id = some A := by
  rw [USING_eq hcast, Except.ok.injEq, Truth.eq_eq_true]
  constructor
  · rintro ⟨u, hrow, hu⟩
    rw [hrow, hu]
  · intro hrow
    exact ⟨A, hrow, rfl⟩

/-- Under tenant `A` rows of `A` can be written, and no others. -/
theorem CHECK_str (hcast : cast A.str = some A) {row : Row V} :
    CHECK cast (some A.str) row = .ok (some true) ↔ row.organization_id = some A := by
  rw [← USING_str hcast, CHECK, TENANT_str, bind_eq_ok]
  constructor
  · rintro ⟨v, hv, hcheck⟩
    rcases Truth.or_eq_true.mp (Except.ok.inj hcheck) with hnull | hv'
    · cases isNull_eq_true.mp hnull
    · rw [hv, hv']
  · intro hv
    exact ⟨some true, hv, congrArg Except.ok (Truth.or_eq_true.mpr (.inr rfl))⟩

omit [DecidableEq T] in
/-- A statement of a transaction under tenant `A` is subject to the policy for `A`. -/
theorem Connection.execute_eq {conn : Connection T} {table : String}
    {statement : Statement (Row V)} {rows : List (Row V)} (hx : conn.transaction = some x)
    (hmode : x.mode = some .tenant) (hvalue : conn.setting.current_setting = some A.str)
    (htable : table ∈ f.protected_tables) :
    conn.execute f cast table statement rows =
      RowPolicies.execute (some (tenant_isolation_policy cast (some A.str))) rows statement := by
  have hbound : ¬ ((conn.transaction.any fun x => x.mode = some .bypass) = true ∨
      table ∉ f.protected_tables) := by
    simp [hx, hmode, htable]
  rw [← hvalue]
  exact congrArg (RowPolicies.execute · rows statement) (if_neg hbound)

omit [DecidableEq T] in
/-- It has to do with rows of `A` only. -/
theorem Connection.execute_tenant {conn : Connection T} {table : String}
    {statement : Statement (Row V)} {rows : List (Row V)} {e : Effect (Row V)} {row : Row V}
    (hcast : cast A.str = some A) (hx : conn.transaction = some x) (hmode : x.mode = some .tenant)
    (hvalue : conn.setting.current_setting = some A.str) (htable : table ∈ f.protected_tables)
    (h : conn.execute f cast table statement rows = .ok e) (hrow : row ∈ e.existing ++ e.new) :
    row.organization_id = some A := by
  rw [Connection.execute_eq hx hmode hvalue htable] at h
  rcases List.mem_append.mp hrow with hold | hnew
  · have htrue := execute_existing h hold
    rw [existing_tenant_isolation_policy] at htrue
    exact (USING_str hcast).mp htrue
  · have htrue := execute_new h hnew
    rw [new_tenant_isolation_policy] at htrue
    exact (CHECK_str hcast).mp htrue

/-- **Isolation of tenants.** However transactions are assigned to connections, each runs
under the setting of its own request and mode, whatever earlier transactions on its
connection have set. And a statement of a transaction whose request is under tenant `A`
returns, inserts, replaces and deletes rows of `A` only, in every table with a policy. -/
theorem tenant_isolation (hcast : ∀ u : Uuid, cast u.str = some u)
    {moves : List (Program.Move T (C → Connection T) Task (Act C V))}
    (h : program.Trace Any init moves c) :
    (∀ conn x, (c.shared conn).transaction = some x →
      InForce x (c.shared conn).setting.current_setting) ∧
    ∀ m ∈ moves, ∀ conn table statement rows, m.action = .execute conn table statement rows →
      ∀ x A f e, (m.before.shared conn).transaction = some x → x.mode = some .tenant →
        x.request.bind Request.tenant = some A.str → table ∈ f.protected_tables →
        (m.before.shared conn).execute f cast table statement rows = .ok e →
        ∀ row ∈ e.existing ++ e.new, row.organization_id = some A := by
  refine ⟨fun conn x hx => (sound_of_run h.run conn).inForce x hx, ?_⟩
  intro m hm conn table statement rows _ x A f e hx hmode htenant htable he row hrow
  have hforce := (sound_of_run (h.around hm).1 conn).inForce x hx
  rw [InForce, hmode, htenant] at hforce
  exact Connection.execute_tenant (hcast A) hx hmode hforce htable he hrow

/-! ### A connection that changes hands -/

/-- A request for the members of an organisation. -/
def membersOf (A : Uuid) : Request :=
  ⟨"http", String.ofList ("/orgs/".toList ++ ((digitsOf A).hyphenated ++ '/' :: "members".toList))⟩

/-- The request of the example has its organisation as tenant. -/
theorem tenant_membersOf (A : Uuid) : (membersOf A).tenant = some A.str := by
  rw [Request.tenant, membersOf, current_tenant_id_hyphenated, uuid_digitsOf]

/-- A connection on which an earlier transaction has run, in a transaction of this request. -/
def handedOver (r : Request) : Connection Bool where
  setting := ⟨some "", some (r.tenant.getD "")⟩
  transaction := some ⟨true, some .tenant, some r⟩

/-- Two tasks serve two requests over one connection. -/
theorem exists_handedOver {q r : Request} (hr : r.type = "http") :
    ∃ d, (program (T := Bool) (C := Unit) (V := Unit)).Run Any init d ∧
      d.shared () = handedOver r := by
  have hrun : (program (T := Bool) (C := Unit) (V := Unit)).Run Any init _ :=
    .step (.step (.step (.step (.step (.refl _)
      (t := false) (a := .receive q) trivial rfl)
      (t := true) (a := .receive r) trivial rfl)
      (t := false) (a := .begin_ () (some .tenant)) trivial rfl)
      (t := false) (a := .finish ()) trivial rfl)
      (t := true) (a := .begin_ () (some .tenant)) trivial rfl
  refine ⟨_, hrun, ?_⟩
  have htask : (Task.receive ⟨none, none⟩ r).current_tenant_id = r.tenant := by
    simp [Task.receive, hr]
  simp only [handedOver, ← htask]
  rfl

/-- Read a UUID as Python does. -/
def readUuid (text : String) : Option Uuid := UUID text.toList

/-- The cast reads what `str` has written. -/
theorem readUuid_str (u : Uuid) : readUuid u.str = some u := UUID_str u

/-- All features. -/
def everything : Features := ⟨true, true, true, true, true⟩

/-- The keys of two organisations. -/
def twoKeys (A B : Uuid) : List (Row Unit) := [⟨some A, ()⟩, ⟨some B, ()⟩]

/-- A `SELECT` without a condition finds the keys of the organisation of the request. -/
theorem select_handedOver {B : Uuid} (hne : A ≠ B) :
    (handedOver (membersOf B)).execute everything readUuid "api_keys"
        (.select fun _ => true) (twoKeys A B) =
      .ok { read := [⟨some B, ()⟩] } := by
  have hvalue : (handedOver (membersOf B)).setting.current_setting = some B.str := by
    simp [handedOver, Setting.current_setting, tenant_membersOf]
  have htable : "api_keys" ∈ everything.protected_tables := by decide
  rw [Connection.execute_eq rfl rfl hvalue htable]
  simp [RowPolicies.execute, visible, filterTrue, twoKeys, existing_tenant_isolation_policy,
    USING_eq (readUuid_str _), Truth.eq, hne, bind, Except.bind, pure, Except.pure]

/-- A connection that has served one tenant serves another one, and shows it its own row only. -/
theorem tenant_isolation_handOver :
    ∃ (A B : Uuid) (e : Effect (Row Unit)), A ≠ B ∧
      (handedOver (membersOf B)).execute everything readUuid "api_keys" (.select fun _ => true)
          (twoKeys A B) = .ok e ∧
        e.existing ≠ [] ∧ ∀ row ∈ e.existing ++ e.new, row.organization_id = some B := by
  obtain ⟨A, B, hne⟩ : ∃ A B : Uuid, A ≠ B := ⟨Uuid.ofNat 1, Uuid.ofNat 2, by decide⟩
  obtain ⟨d, hrun, hd⟩ := exists_handedOver (q := membersOf A) (r := membersOf B) rfl
  obtain ⟨moves, htrace⟩ := hrun.exists_trace
  have hexec : exec true (.execute () "api_keys" (.select fun _ => true) (twoKeys A B)) d.shared
      (d.proc true) = some (d.shared, d.proc true) := by
    simp [exec, hd, handedOver]
  have hstep : program.step d true
      (.execute () "api_keys" (.select fun _ => true) (twoKeys A B)) = some _ :=
    Program.step_eq_some_iff.mpr ⟨_, _, hexec, rfl⟩
  have hx : (d.shared ()).transaction = some ⟨true, some .tenant, some (membersOf B)⟩ := by
    rw [hd]
    rfl
  have htenant : (some (membersOf B)).bind Request.tenant = some B.str := by
    rw [Option.bind_some, tenant_membersOf]
  have hselect : (d.shared ()).execute everything readUuid "api_keys" (.select fun _ => true)
      (twoKeys A B) = .ok { read := [⟨some B, ()⟩] } := by
    rw [hd, select_handedOver hne]
  exact ⟨A, B, _, hne, select_handedOver hne, List.cons_ne_nil _ _,
    (tenant_isolation readUuid_str (htrace.snoc trivial hstep)).2 _
      (List.mem_append_right _ (List.mem_singleton_self _)) () "api_keys" _ _ rfl _ B everything _
      hx rfl htenant (by decide) hselect⟩

end BackendManager.Tenancy
