import BackendManager.SchemaScripts

/-!
# The Migrations of a Generated Service

The model of `migrations/versions`: the revisions that are generated for the answers to the
questions of the template, what they do to the schema and what their downgrades do, and the name of
the revision that each of them follows.

## Conventions

* A table is created together with its indexes, as in every one of the files; the names of indexes
  and constraints are left out.
* `postgresql` is the dialect: on another one the policies are skipped.
* The answers are those that a template accepts: `include_rls` and `include_idempotency` are only
  asked where they can be, and `include_metering` is validated.
* The answers are also such that `alembic.ini` is generated. With nothing but `include_audit` or
  `include_webhooks` the service has migrations and no way to run them.

## Main results

* `follows_down_revision`: every revision follows the last one before it that is generated.
-/

namespace BackendManager.Migrations

open SchemaChanges

/-! ### The answers -/

/-- The answers that the migrations depend on. -/
structure Answers where
  include_db : Bool
  include_users : Bool
  include_tenancy : Bool
  include_rls : Bool
  include_rbac : Bool
  include_api_keys : Bool
  include_billing : Bool
  include_audit : Bool
  include_webhooks : Bool
  include_idempotency : Bool
  include_metering : Bool
  include_admin : Bool

namespace Answers

/-- The service has organisations. -/
def tenancy (a : Answers) : Bool :=
  a.include_tenancy || a.include_rbac || a.include_api_keys || a.include_billing ||
    a.include_webhooks

/-- The service has users. -/
def users (a : Answers) : Bool :=
  a.include_users || a.include_tenancy || a.include_rbac || a.include_api_keys ||
    a.include_billing || a.include_webhooks || a.include_admin

/-- `alembic.ini` is generated, without which no command runs. Its file name leaves out
`include_audit` and `include_webhooks`, for which migrations are generated as well. -/
def alembic_ini (a : Answers) : Bool :=
  a.include_db || a.include_users || a.include_tenancy || a.include_rbac || a.include_api_keys ||
    a.include_billing || a.include_admin

/-- The answers are accepted by the template, and commands run. -/
structure Valid (a : Answers) : Prop where
  alembic_ini : a.alembic_ini = true
  include_rls : a.include_rls = true → a.include_tenancy = true
  include_idempotency : a.include_idempotency = true → a.include_db = true
  include_metering : a.include_metering = true → a.tenancy = true

/-- Organisations need users. -/
theorem users_of_tenancy {a : Answers} (h : a.tenancy = true) : a.users = true := by
  simp only [tenancy, Bool.or_eq_true] at h
  simp only [users, Bool.or_eq_true]
  tauto

end Answers

/-! ### The tables -/

inductive TableName
  | items
  | user
  | organizations
  | memberships
  | api_keys
  | subscriptions
  | processed_events
  | audit_logs
  | webhook_endpoints
  | refresh_tokens
  | outbox_events
  | idempotency_keys
  | usage_events
  | invoices
  | customer_wallets
  | wallet_transactions
deriving DecidableEq

def TableName.all : List TableName :=
  [.items, .user, .organizations, .memberships, .api_keys, .subscriptions, .processed_events,
    .audit_logs, .webhook_endpoints, .refresh_tokens, .outbox_events, .idempotency_keys,
    .usage_events, .invoices, .customer_wallets, .wallet_transactions]

theorem TableName.mem_all (n : TableName) : n ∈ TableName.all := by
  cases n <;> decide

instance : Fintype TableName := Fintype.ofList TableName.all TableName.mem_all

inductive ColumnType
  | Integer
  | BigInteger
  | String (length : Option ℕ)
  | DateTime
  | GUID
  | Uuid
  | Boolean
  | JSON
  | LargeBinary
deriving DecidableEq

section Columns

variable (name : String) (type : ColumnType)

def required : Column ColumnType := ⟨name, type, false, none⟩

def nullable : Column ColumnType := ⟨name, type, true, none⟩

def defaulted (server_default : String) : Column ColumnType :=
  ⟨name, type, false, some server_default⟩

/-- A time that is the one of the insertion. -/
def stamped : Column ColumnType := defaulted name .DateTime "now()"

def cascades (target : TableName) : ForeignKey TableName := ⟨name, target, "id", "CASCADE"⟩

end Columns

def index (column : String) : Index := ⟨column, false⟩

def unique (column : String) : Index := ⟨column, true⟩

section Tables

variable (columns : List (Column ColumnType)) (primary_key : List String)
  (foreign_keys : List (ForeignKey TableName)) (unique_constraints : List (List String))
  (indexes : List Index)

def table : Table TableName ColumnType :=
  ⟨columns, primary_key, foreign_keys, unique_constraints, indexes, false, []⟩

end Tables

/-- A string of at most that length. -/
def text (length : ℕ) : ColumnType := .String (some length)

def items : Table TableName ColumnType :=
  table
    [required "id" .Integer, required "name" (.String none), stamped "created_at"]
    ["id"] [] [] [index "name"]

def user : Table TableName ColumnType :=
  table
    [required "id" .GUID, required "email" (text 320), required "hashed_password" (text 1024),
      required "is_active" .Boolean, required "is_superuser" .Boolean,
      required "is_verified" .Boolean]
    ["id"] [] [] [unique "email"]

def organizations : Table TableName ColumnType :=
  table
    [required "id" .GUID, required "name" (text 255), required "slug" (text 255),
      stamped "created_at"]
    ["id"] [] [] [unique "slug"]

def memberships : Table TableName ColumnType :=
  table
    [required "id" .GUID, required "organization_id" .GUID, required "user_id" .GUID,
      required "role" (text 50), stamped "created_at"]
    ["id"] [cascades "organization_id" .organizations, cascades "user_id" .user]
    [["organization_id", "user_id"]] [index "organization_id", index "user_id"]

def api_keys : Table TableName ColumnType :=
  table
    [required "id" .GUID, required "organization_id" .GUID, required "created_by_user_id" .GUID,
      required "name" (text 255), required "prefix" (text 64), required "hashed_secret" (text 128),
      nullable "scopes" (text 1024), nullable "expires_at" .DateTime,
      nullable "last_used_at" .DateTime, nullable "revoked_at" .DateTime, stamped "created_at"]
    ["id"] [cascades "organization_id" .organizations, cascades "created_by_user_id" .user] []
    [index "organization_id", index "created_by_user_id", unique "prefix"]

def payments_customer_id : Column ColumnType := nullable "payments_customer_id" (text 255)

def subscriptions : Table TableName ColumnType :=
  table
    [required "id" .GUID, required "organization_id" .GUID, required "provider" (text 50),
      required "provider_subscription_id" (text 255), required "status" (text 50),
      required "plan" (text 50), nullable "current_period_end" .DateTime, stamped "created_at"]
    ["id"] [cascades "organization_id" .organizations] []
    [unique "organization_id", unique "provider_subscription_id"]

def processed_events : Table TableName ColumnType :=
  table
    [required "provider" (text 50), required "event_id" (text 255), required "type" (text 100),
      stamped "created_at"]
    ["provider", "event_id"] [] [] []

/-- The log has a column for the organisation if the service has organisations. -/
def audit_logs (a : Answers) : Table TableName ColumnType :=
  table
    ((if a.tenancy then [required "id" .GUID, nullable "organization_id" .GUID]
      else [required "id" .Uuid]) ++
      [nullable "actor" (text 255), required "action" (text 255), nullable "target" (text 255),
        nullable "metadata" .JSON, stamped "created_at"])
    ["id"] (if a.tenancy then [cascades "organization_id" .organizations] else []) []
    ((if a.tenancy then [index "organization_id"] else []) ++
      [index "action", index "created_at"])

def webhook_endpoints : Table TableName ColumnType :=
  table
    [required "id" .GUID, required "organization_id" .GUID, required "url" (text 2048),
      required "secret" (text 255), required "event_types" (text 1024),
      required "active" .Boolean, stamped "created_at"]
    ["id"] [cascades "organization_id" .organizations] [] [index "organization_id"]

def token_version : Column ColumnType := defaulted "token_version" .Integer "0"

def refresh_tokens : Table TableName ColumnType :=
  table
    [required "id" .GUID, required "user_id" .GUID, required "token_hash" (text 128),
      required "family_id" .GUID, required "expires_at" .DateTime, nullable "used_at" .DateTime,
      defaulted "revoked" .Boolean "false", stamped "created_at"]
    ["id"] [cascades "user_id" .user] []
    [index "user_id", unique "token_hash", index "family_id"]

def outbox_events : Table TableName ColumnType :=
  table
    [required "id" .GUID, required "source" (text 64), required "event_id" (text 64),
      required "event_type" (text 255), nullable "organization_id" .GUID, required "payload" .JSON,
      required "attempts" .Integer, nullable "last_error" (text 1024),
      nullable "published_at" .DateTime, nullable "failed_at" .DateTime, stamped "created_at"]
    ["id"] [] [["source", "event_id"]] [index "created_at", index "published_at"]

def idempotency_keys : Table TableName ColumnType :=
  table
    [required "id" .Uuid, required "scope" (text 64), required "key" (text 255),
      required "request_hash" (text 64), required "status" (text 20),
      nullable "response_status" .Integer, nullable "response_headers" .JSON,
      nullable "response_body" .LargeBinary, stamped "created_at", required "expires_at" .DateTime]
    ["id"] [] [["scope", "key"]] [index "expires_at"]

def usage_events : Table TableName ColumnType :=
  table
    [required "id" .GUID, required "organization_id" .GUID, required "meter" (text 64),
      required "quantity" .BigInteger, required "idempotency_key" (text 255), stamped "created_at"]
    ["id"] [cascades "organization_id" .organizations] [["organization_id", "idempotency_key"]]
    [index "organization_id", index "meter", index "created_at"]

def invoices : Table TableName ColumnType :=
  table
    [required "id" .GUID, required "organization_id" .GUID, required "period_start" .DateTime,
      required "period_end" .DateTime, required "status" (text 20), required "currency" (text 3),
      required "total_cents" .BigInteger, required "plan" (text 50), required "lines" .JSON,
      stamped "created_at", nullable "charged_at" .DateTime]
    ["id"] [cascades "organization_id" .organizations] [["organization_id", "period_start"]]
    [index "organization_id", index "status"]

def customer_wallets : Table TableName ColumnType :=
  table
    [required "id" .GUID, required "organization_id" .GUID, required "balance_cents" .BigInteger,
      required "currency" (text 3), stamped "updated_at"]
    ["id"] [cascades "organization_id" .organizations] [] [unique "organization_id"]

def wallet_transactions : Table TableName ColumnType :=
  table
    [required "id" .GUID, required "wallet_id" .GUID, required "delta_cents" .BigInteger,
      required "reason" (text 64), required "idempotency_key" (text 255),
      nullable "invoice_id" .GUID, stamped "created_at"]
    ["id"] [cascades "wallet_id" .customer_wallets] []
    [index "wallet_id", unique "idempotency_key"]

/-! ### The revisions -/

inductive Revision
  | initial_schema
  | tenancy
  | api_keys
  | billing
  | audit
  | webhooks
  | auth_sessions
  | rls
  | outbox
  | idempotency
  | metering
  | wallet_org
  | rls_backfill
deriving DecidableEq

/-- The number that the name of a revision starts with. -/
def Revision.number : Revision → ℕ
  | .initial_schema => 1
  | .tenancy => 2
  | .api_keys => 3
  | .billing => 4
  | .audit => 5
  | .webhooks => 6
  | .auth_sessions => 7
  | .rls => 8
  | .outbox => 9
  | .idempotency => 10
  | .metering => 11
  | .wallet_org => 12
  | .rls_backfill => 13

namespace Answers

/-- The file of the revision is generated. -/
def generated (a : Answers) : Revision → Bool
  | .initial_schema => a.users
  | .tenancy => a.tenancy
  | .api_keys => a.include_api_keys
  | .billing => a.include_billing
  | .audit => a.include_audit
  | .webhooks => a.include_webhooks
  | .auth_sessions => a.users
  | .rls => a.include_rls
  | .outbox => a.include_webhooks
  | .idempotency => a.include_idempotency
  | .metering => a.include_metering
  | .wallet_org => a.include_metering
  | .rls_backfill => a.include_rls

def down_revision (a : Answers) : Revision → Option Revision
  | .initial_schema => none
  | .tenancy => some .initial_schema
  | .api_keys => some .tenancy
  | .billing => if a.include_api_keys then some .api_keys else some .tenancy
  | .audit =>
      if a.include_billing then some .billing
      else if a.include_api_keys then some .api_keys
      else if a.include_tenancy || a.include_rbac || a.include_webhooks then some .tenancy
      else if a.include_users || a.include_admin then some .initial_schema
      else none
  | .webhooks =>
      if a.include_audit then some .audit
      else if a.include_billing then some .billing
      else if a.include_api_keys then some .api_keys
      else some .tenancy
  | .auth_sessions =>
      if a.include_webhooks then some .webhooks
      else if a.include_audit then some .audit
      else if a.include_billing then some .billing
      else if a.include_api_keys then some .api_keys
      else if a.include_tenancy || a.include_rbac then some .tenancy
      else some .initial_schema
  | .rls => some .auth_sessions
  | .outbox => if a.include_rls then some .rls else some .auth_sessions
  | .idempotency =>
      if a.include_webhooks then some .outbox
      else if a.include_rls then some .rls
      else if a.include_users || a.include_tenancy || a.include_rbac || a.include_api_keys ||
          a.include_billing || a.include_admin then some .auth_sessions
      else if a.include_audit then some .audit
      else none
  | .metering =>
      if a.include_idempotency then some .idempotency
      else if a.include_webhooks then some .outbox
      else if a.include_rls then some .rls
      else some .auth_sessions
  | .wallet_org => some .metering
  | .rls_backfill =>
      if a.include_metering then some .wallet_org
      else if a.include_idempotency then some .idempotency
      else if a.include_webhooks then some .outbox
      else some .rls

/-- `r` follows `previous`: no revision that is generated is between them. -/
def Follows (a : Answers) (r : Revision) : Option Revision → Prop
  | some previous => a.generated previous = true ∧ previous.number < r.number ∧
      ∀ q, a.generated q = true → q.number < r.number → q.number ≤ previous.number
  | none => ∀ q, a.generated q = true → r.number ≤ q.number

variable {a : Answers} {p r : Revision}

/-- A revision follows the last one before it that is generated. -/
theorem Follows.of_between (hp : a.generated p = true) (hlt : p.number < r.number)
    (hbetween : ∀ q, p.number < q.number → q.number < r.number → a.generated q = false) :
    a.Follows r (some p) := by
  refine ⟨hp, hlt, fun q hq hqr => ?_⟩
  by_contra hpq
  rw [hbetween q (Nat.lt_of_not_le hpq) hqr] at hq
  cases hq

/-- And if there is none, the base. -/
theorem Follows.of_before (hbefore : ∀ q, q.number < r.number → a.generated q = false) :
    a.Follows r none := by
  intro q hq
  by_contra hqr
  rw [hbefore q (Nat.lt_of_not_le hqr)] at hq
  cases hq

/-- **Every revision follows the last one before it that is generated.** -/
theorem follows_down_revision (hv : a.Valid) (hr : a.generated r = true) :
    a.Follows r (a.down_revision r) := by
  obtain ⟨-, hrls, hidempotency, hmetering⟩ := hv
  -- The answers on the way to a name say which revisions before it there are.
  cases r <;> simp only [down_revision] <;> (try split_ifs) <;>
    simp only [generated, users, tenancy, Bool.or_eq_true] at *
  all_goals
    first
    | refine Follows.of_between ?_ (by decide) fun q hpq hqr => ?_
    | refine Follows.of_before fun q hqr => ?_
  all_goals
    first
    | (cases q <;>
        first
        | exact absurd hpq (by decide)
        | exact absurd hqr (by decide)
        | simp_all [generated, users, tenancy])
    | grind [generated, users, tenancy]

end Answers

/-! ### What the revisions do -/

/-- The expression `_TENANT` of the policies. -/
def TENANT : String := "NULLIF(current_setting('app.current_tenant', true), '')"

def USING : String := "organization_id = " ++ TENANT ++ "::uuid"

def CHECK : String := TENANT ++ " IS NULL OR " ++ USING

def tenant_isolation : Policy := ⟨"tenant_isolation", ["organization_id"], USING, CHECK⟩

namespace Answers

/-- `_TENANT_TABLES` of `0008_rls`. -/
def rls_tables (a : Answers) : List TableName :=
  (if a.include_api_keys then [.api_keys] else []) ++
    (if a.include_billing then [.subscriptions] else []) ++
    (if a.include_webhooks then [.webhook_endpoints] else []) ++
    if a.include_audit then [.audit_logs] else []

/-- `_TENANT_TABLES` of `0013_rls_backfill`. -/
def late_tables (a : Answers) : List TableName :=
  (if a.include_webhooks then [.outbox_events] else []) ++
    if a.include_metering then [.usage_events, .invoices, .customer_wallets, .wallet_transactions]
    else []

def upgrade (a : Answers) (postgresql : Bool) :
    Revision → List (Statement TableName ColumnType)
  | .initial_schema => create .items items ++ create .user user
  | .tenancy => create .organizations organizations ++ create .memberships memberships
  | .api_keys => create .api_keys api_keys
  | .billing =>
      [.add_column .organizations payments_customer_id,
        .create_index .organizations (unique "payments_customer_id")] ++
      create .subscriptions subscriptions ++ create .processed_events processed_events
  | .audit => create .audit_logs (audit_logs a)
  | .webhooks => create .webhook_endpoints webhook_endpoints
  | .auth_sessions => .add_column .user token_version :: create .refresh_tokens refresh_tokens
  | .rls => if postgresql then a.rls_tables.flatMap (protect · tenant_isolation) else []
  | .outbox => create .outbox_events outbox_events
  | .idempotency => create .idempotency_keys idempotency_keys
  | .metering =>
      create .usage_events usage_events ++ create .invoices invoices ++
      create .customer_wallets customer_wallets ++ create .wallet_transactions wallet_transactions
  | .wallet_org =>
      denormalize .wallet_transactions "organization_id" .GUID .customer_wallets "organization_id"
        "id" "wallet_id" (cascades "organization_id" .organizations) (index "organization_id")
  | .rls_backfill => if postgresql then a.late_tables.flatMap (protect · tenant_isolation) else []

def downgrade (a : Answers) (postgresql : Bool) :
    Revision → List (Statement TableName ColumnType)
  | .initial_schema => drop .user user ++ drop .items items
  | .tenancy => drop .memberships memberships ++ drop .organizations organizations
  | .api_keys => drop .api_keys api_keys
  | .billing =>
      drop .processed_events processed_events ++ drop .subscriptions subscriptions ++
      [.drop_index .organizations "payments_customer_id",
        .drop_column .organizations "payments_customer_id"]
  | .audit => drop .audit_logs (audit_logs a)
  | .webhooks => drop .webhook_endpoints webhook_endpoints
  | .auth_sessions =>
      drop .refresh_tokens refresh_tokens ++ [.drop_column .user "token_version"]
  | .rls => if postgresql then a.rls_tables.flatMap (unprotect · tenant_isolation.name) else []
  | .outbox => drop .outbox_events outbox_events
  | .idempotency => drop .idempotency_keys idempotency_keys
  | .metering =>
      drop .wallet_transactions wallet_transactions ++ drop .customer_wallets customer_wallets ++
      drop .invoices invoices ++ drop .usage_events usage_events
  | .wallet_org =>
      [.drop_index .wallet_transactions "organization_id",
        .drop_foreign_key .wallet_transactions "organization_id",
        .drop_column .wallet_transactions "organization_id"]
  | .rls_backfill =>
      if postgresql then a.late_tables.flatMap (unprotect · tenant_isolation.name) else []

/-! ### The schema at a revision -/

/-- The revision is among the ones up to number `k`. -/
def done (a : Answers) (k : ℕ) (r : Revision) : Bool := a.generated r && decide (r.number ≤ k)

end Answers

/-- The table, if it is there. -/
def present (there : Bool) (t : Table TableName ColumnType) : Option (Table TableName ColumnType) :=
  if there then some t else none

/-- The table, with its policy if it has one. -/
def secured (on : Bool) (t : Table TableName ColumnType) : Table TableName ColumnType :=
  if on then { t with row_security := true, policies := t.policies ++ [tenant_isolation] } else t

/-- `organizations`, from `0004_billing` on. -/
def paying_organizations : Table TableName ColumnType :=
  { organizations with
    columns := organizations.columns ++ [payments_customer_id]
    indexes := organizations.indexes ++ [unique "payments_customer_id"] }

/-- `user`, from `0007_auth_sessions` on. -/
def versioned_user : Table TableName ColumnType :=
  { user with columns := user.columns ++ [token_version] }

/-- `wallet_transactions`, from `0012_wallet_org` on. -/
def owned_wallet_transactions : Table TableName ColumnType :=
  wallet_transactions.denormalized "organization_id" .GUID
    (cascades "organization_id" .organizations) (index "organization_id")

/-- The tables after the revisions up to number `k`. -/
def Answers.tables (a : Answers) (postgresql : Bool) (k : ℕ) :
    TableName → Option (Table TableName ColumnType)
  | .items => present (a.done k .initial_schema) items
  | .user =>
      present (a.done k .initial_schema)
        (if a.done k .auth_sessions then versioned_user else user)
  | .organizations =>
      present (a.done k .tenancy)
        (if a.done k .billing then paying_organizations else organizations)
  | .memberships => present (a.done k .tenancy) memberships
  | .api_keys => present (a.done k .api_keys) (secured (postgresql && a.done k .rls) api_keys)
  | .subscriptions =>
      present (a.done k .billing) (secured (postgresql && a.done k .rls) subscriptions)
  | .processed_events => present (a.done k .billing) processed_events
  | .audit_logs =>
      present (a.done k .audit) (secured (postgresql && a.done k .rls) (audit_logs a))
  | .webhook_endpoints =>
      present (a.done k .webhooks) (secured (postgresql && a.done k .rls) webhook_endpoints)
  | .refresh_tokens => present (a.done k .auth_sessions) refresh_tokens
  | .outbox_events =>
      present (a.done k .outbox) (secured (postgresql && a.done k .rls_backfill) outbox_events)
  | .idempotency_keys => present (a.done k .idempotency) idempotency_keys
  | .usage_events =>
      present (a.done k .metering) (secured (postgresql && a.done k .rls_backfill) usage_events)
  | .invoices =>
      present (a.done k .metering) (secured (postgresql && a.done k .rls_backfill) invoices)
  | .customer_wallets =>
      present (a.done k .metering)
        (secured (postgresql && a.done k .rls_backfill) customer_wallets)
  | .wallet_transactions =>
      present (a.done k .metering) (secured (postgresql && a.done k .rls_backfill)
        (if a.done k .wallet_org then owned_wallet_transactions else wallet_transactions))

end BackendManager.Migrations
