import BackendManager.Rating
import BackendManager.Text
import BackendManager.UniqueRows
import BackendManager.Uuid

/-!
# Subscriptions and the Payments Webhook

The model of `app/billing`: the tables `subscriptions` and `processed_events`, the column
`organizations.payments_customer_id`, the webhook route `payments_webhook` with
`_sync_subscription`, and the three places that read an organisation's effective plan.

## Conventions

* One delivery is one transaction. `commit` checks the constraints of the schema; a
  violation, like any other exception, leaves the database as it was.
* The lengths of the `String(n)` columns are among the constraints: PostgreSQL refuses a longer
  text, and any text with a NUL character, in a row as well as in a query.
* A comparison of a column with `None` compiles to `IS NULL`, which is equality of options.
* `x or y` on `str | None` takes `y` for `None` and for the empty string.
* Timestamps are unix seconds, as `to_naive_utc` has them.
* An event is what `verify_webhook` has returned.

## Main results

* `features_for_plan_free_subset`, `require_feature_of_free`: whatever plan is stored, it has
  the features of the free one, so that these are refused to nobody.
* `effective_plan`: the three places that read the plan of an organisation agree, and none of
  them fails.

That the constraints hold after every delivery is part of the type `Database`.
-/

namespace BackendManager.Billing

open UniqueRows
open Text (Storable)

/-! ### Entitlements -/

def FREE_PLAN : String := "free"
def PRO_PLAN : String := "pro"
def ENTERPRISE_PLAN : String := "enterprise"

/-- The subscription statuses that grant the paid plan. -/
def ACTIVE_STATUSES : List String := ["active", "trialing"]

/-- The features of each plan. -/
def FEATURES_BY_PLAN : List (String × List String) :=
  [(FREE_PLAN, ["core"]),
    (PRO_PLAN, ["core", "advanced_analytics"]),
    (ENTERPRISE_PLAN, ["core", "advanced_analytics", "priority_support", "sso"])]

/-- Python's `x or y`. -/
def orElse (x : Option String) (y : String) : String :=
  match x with
  | some s => if s = "" then y else s
  | none => y

/-- The features that a plan grants, those of the free plan by default. -/
def features_for_plan (plan : Option String) : List String :=
  ((FEATURES_BY_PLAN.lookup (orElse plan FREE_PLAN)).orElse fun _ =>
    FEATURES_BY_PLAN.lookup FREE_PLAN).getD []

/-- The plan grants the feature. -/
def plan_has_feature (plan : Option String) (feature : String) : Bool :=
  feature ∈ features_for_plan plan

/-! ### Events and tables -/

/-- `PaymentEvent.event_type`. -/
inductive EventType
  | created
  | updated
  | deleted
  | ignored
deriving DecidableEq

/-- The name of the event type. -/
def EventType.name : EventType → String
  | .created => "subscription.created"
  | .updated => "subscription.updated"
  | .deleted => "subscription.deleted"
  | .ignored => "ignored"

/-- The lifecycle events, which sync the subscription. -/
def SUBSCRIPTION_EVENTS : List EventType := [.created, .updated, .deleted]

/-- A normalized webhook event. -/
structure PaymentEvent where
  event_id : String
  event_type : EventType
  subscription_id : Option String
  status : Option String
  plan : Option String
  period_end : Option ℤ
  customer_ref : Option String
deriving DecidableEq

/-- A row of `organizations`, as far as billing reads it. -/
structure Organization where
  id : Uuid
  payments_customer_id : Option String
deriving DecidableEq

/-- A row of `subscriptions`. -/
structure Subscription where
  organization_id : Uuid
  provider : String
  provider_subscription_id : String
  status : String
  plan : String
  current_period_end : Option ℤ
deriving DecidableEq

/-- A row of `processed_events`. -/
structure ProcessedEvent where
  provider : String
  event_id : String
  type : String
deriving DecidableEq

/-- The rows of the tables. -/
structure Tables where
  organizations : List Organization
  subscriptions : List Subscription
  processed_events : List ProcessedEvent
deriving DecidableEq

/-- The columns of `subscriptions` hold the row. -/
structure Subscription.Stored (s : Subscription) : Prop where
  provider : Storable 50 s.provider
  provider_subscription_id : Storable 255 s.provider_subscription_id
  status : Storable 50 s.status
  plan : Storable 50 s.plan

/-- The columns of `processed_events` hold the row. -/
structure ProcessedEvent.Stored (e : ProcessedEvent) : Prop where
  provider : Storable 50 e.provider
  event_id : Storable 255 e.event_id
  type : Storable 100 e.type

instance (s : Subscription) : Decidable s.Stored :=
  decidable_of_iff (Storable 50 s.provider ∧ Storable 255 s.provider_subscription_id ∧
      Storable 50 s.status ∧ Storable 50 s.plan)
    ⟨fun ⟨h₁, h₂, h₃, h₄⟩ => ⟨h₁, h₂, h₃, h₄⟩, fun ⟨h₁, h₂, h₃, h₄⟩ => ⟨h₁, h₂, h₃, h₄⟩⟩

instance (e : ProcessedEvent) : Decidable e.Stored :=
  decidable_of_iff (Storable 50 e.provider ∧ Storable 255 e.event_id ∧ Storable 100 e.type)
    ⟨fun ⟨h₁, h₂, h₃⟩ => ⟨h₁, h₂, h₃⟩, fun ⟨h₁, h₂, h₃⟩ => ⟨h₁, h₂, h₃⟩⟩

/-- The columns of every table hold its rows. -/
structure Tables.Stored (t : Tables) : Prop where
  payments_customer_id :
    ∀ o ∈ t.organizations, ∀ id ∈ o.payments_customer_id, Storable 255 id
  subscriptions : ∀ s ∈ t.subscriptions, s.Stored
  processed_events : ∀ e ∈ t.processed_events, e.Stored

instance (t : Tables) : Decidable t.Stored :=
  decidable_of_iff
    ((∀ o ∈ t.organizations, ∀ id ∈ o.payments_customer_id, Storable 255 id) ∧
      (∀ s ∈ t.subscriptions, s.Stored) ∧ ∀ e ∈ t.processed_events, e.Stored)
    ⟨fun ⟨h₁, h₂, h₃⟩ => ⟨h₁, h₂, h₃⟩, fun ⟨h₁, h₂, h₃⟩ => ⟨h₁, h₂, h₃⟩⟩

/-- The constraints of the schema. -/
structure Tables.Valid (t : Tables) : Prop where
  stored : t.Stored
  organization : Unique (fun o : Organization => some o.id) t.organizations
  payments_customer_id : Unique Organization.payments_customer_id t.organizations
  subscription : Unique (fun s : Subscription => some s.organization_id) t.subscriptions
  provider_subscription_id :
    Unique (fun s : Subscription => some s.provider_subscription_id) t.subscriptions
  organization_id : ∀ s ∈ t.subscriptions, ∃ o ∈ t.organizations, o.id = s.organization_id
  processed_event :
    Unique (fun e : ProcessedEvent => some (e.provider, e.event_id)) t.processed_events

instance (t : Tables) : Decidable t.Valid :=
  decidable_of_iff
    (t.Stored ∧ Unique (fun o : Organization => some o.id) t.organizations ∧
      Unique Organization.payments_customer_id t.organizations ∧
      Unique (fun s : Subscription => some s.organization_id) t.subscriptions ∧
      Unique (fun s : Subscription => some s.provider_subscription_id) t.subscriptions ∧
      (∀ s ∈ t.subscriptions, ∃ o ∈ t.organizations, o.id = s.organization_id) ∧
      Unique (fun e : ProcessedEvent => some (e.provider, e.event_id)) t.processed_events)
    ⟨fun ⟨h₁, h₂, h₃, h₄, h₅, h₆, h₇⟩ => ⟨h₁, h₂, h₃, h₄, h₅, h₆, h₇⟩,
      fun ⟨h₁, h₂, h₃, h₄, h₅, h₆, h₇⟩ => ⟨h₁, h₂, h₃, h₄, h₅, h₆, h₇⟩⟩

/-- A committed state of the database. -/
structure Database where
  tables : Tables
  valid : tables.Valid

/-! ### The webhook -/

/-- The exceptions that end a delivery. -/
inductive Error
  | multipleResultsFound
  | integrityError
  /-- A text that PostgreSQL does not take: `DBAPIError`. -/
  | dataError
deriving DecidableEq

/-- The answer to a delivery. -/
inductive Reply
  | ok
  | duplicate
deriving DecidableEq

/-- A text is sent as a parameter of a query. -/
def sent (text : Option String) : Except Error Unit :=
  if ∀ s ∈ text, '\x00' ∉ s.toList then .ok () else .error .dataError

/-- `scalar_one_or_none`. -/
def scalar_one_or_none {α : Type} (rows : List α) : Except Error (Option α) :=
  match scalarOneOrNone rows with
  | .ok r => .ok r
  | .error _ => .error .multipleResultsFound

/-- `SELECT ... WHERE organization_id = :org`. -/
def Tables.selectSubscription (t : Tables) (org : Uuid) : List Subscription :=
  select (fun s : Subscription => some s.organization_id) (some org) t.subscriptions

/-- The row of an organisation after the event: a new row, or the old one with what the
event states. -/
def synced (provider : String) (event : PaymentEvent) (org : Uuid) :
    Option Subscription → Subscription
  | none =>
      { organization_id := org
        provider := provider
        provider_subscription_id := orElse event.subscription_id ""
        status := orElse event.status ""
        plan := orElse event.plan FREE_PLAN
        current_period_end := event.period_end }
  | some subscription =>
      { subscription with
        provider := provider
        provider_subscription_id :=
          orElse event.subscription_id subscription.provider_subscription_id
        status := orElse event.status subscription.status
        plan := orElse event.plan subscription.plan
        current_period_end := event.period_end }

/-- `_sync_subscription`. -/
def sync_subscription (provider : String) (event : PaymentEvent) (t : Tables) :
    Except Error Tables := do
  sent event.customer_ref
  let org ← scalar_one_or_none
    (select Organization.payments_customer_id event.customer_ref t.organizations)
  match org with
  | none => pure t
  | some org =>
      let existing ← scalar_one_or_none (t.selectSubscription org.id)
      pure { t with
        subscriptions := upsert Subscription.organization_id
          (synced provider event org.id existing) t.subscriptions }

/-- The flush of the rows that have been added. -/
def Tables.flush (t : Tables) : Except Error Tables :=
  if t.Stored then .ok t else .error .dataError

/-- COMMIT, after a flush. -/
def commit (t : Tables) : Except Error Database :=
  if h : t.Valid then .ok ⟨t, h⟩
  else if t.Stored then .error .integrityError else .error .dataError

/-- `session.get(ProcessedEvent, (provider, event_id))` finds a row. -/
def Tables.processed (t : Tables) (provider event_id : String) : Bool :=
  t.processed_events.any fun e => e.provider = provider ∧ e.event_id = event_id

/-- `session.add(ProcessedEvent(...))`. -/
def Tables.addProcessed (t : Tables) (provider : String) (event : PaymentEvent) : Tables :=
  { t with
    processed_events :=
      t.processed_events ++ [⟨provider, event.event_id, event.event_type.name⟩] }

/-- `payments_webhook`, from the verified event on. -/
def payments_webhook (provider : String) (event : PaymentEvent) (db : Database) :
    Except Error (Database × Reply) := do
  sent provider
  sent event.event_id
  if db.tables.processed provider event.event_id then
    pure (db, .duplicate)
  else
    let t := db.tables.addProcessed provider event
    let t ←
      if event.event_type ∈ SUBSCRIPTION_EVENTS then do
        -- The first query of `_sync_subscription` flushes the row of the event.
        let t ← t.flush
        sync_subscription provider event t
      else pure t
    let db ← commit t
    pure (db, .ok)

/-- The database after a delivery; an exception rolls back. -/
def delivered (provider : String) (event : PaymentEvent) (db : Database) : Database :=
  match payments_webhook provider event db with
  | .ok (db', _) => db'
  | .error _ => db

/-! ### The effective plan -/

/-- The plan of an active subscription, else the fallback. -/
def activePlan (fallback : String) (subscription : Option Subscription) : String :=
  match subscription with
  | some s => if s.status ∈ ACTIVE_STATUSES then s.plan else fallback
  | none => fallback

/-- The plan that `require_feature` checks. -/
def require_feature_plan (db : Database) (org : Uuid) : Except Error String := do
  let subscription ← scalar_one_or_none (db.tables.selectSubscription org)
  pure (activePlan FREE_PLAN subscription)

/-- The plan that `_plan_for_org` reads when its cache has none. -/
def plan_for_org (db : Database) (org : Uuid) : Except Error String := do
  let subscription ← scalar_one_or_none (db.tables.selectSubscription org)
  pure (activePlan FREE_PLAN subscription)

/-- The plan that `close_invoice` rates. -/
def close_invoice_plan (db : Database) (org : Uuid) : Except Error String := do
  let subscription ← scalar_one_or_none (db.tables.selectSubscription org)
  pure (activePlan Metering.DEFAULT_PLAN subscription)

/-- An error response. -/
structure HTTPException where
  status_code : ℕ
  detail : String
deriving DecidableEq

/-- What the guard of `require_feature` decides on the plan it has read. -/
def require_feature (feature plan : String) : Except HTTPException Unit :=
  if plan_has_feature (some plan) feature then .ok ()
  else .error ⟨403, "Your plan does not include the '" ++ feature ++ "' feature"⟩

/-- Every plan, known or not, grants the features of the free plan. -/
theorem features_for_plan_free_subset (plan : Option String) :
    features_for_plan (some FREE_PLAN) ⊆ features_for_plan plan := by
  intro feature hfree
  have hcore : feature = "core" := List.mem_singleton.mp hfree
  rw [hcore, features_for_plan]
  by_cases hknown : orElse plan FREE_PLAN ∈ [FREE_PLAN, PRO_PLAN, ENTERPRISE_PLAN]
  · simp only [List.mem_cons, List.not_mem_nil, or_false] at hknown
    obtain h | h | h := hknown <;> rw [h] <;> decide
  · -- An unknown plan falls back on the entry of the free plan.
    have hlookup : FEATURES_BY_PLAN.lookup (orElse plan FREE_PLAN) = none := by
      simpa [FEATURES_BY_PLAN, List.lookup_eq_none_iff] using hknown
    rw [hlookup]
    decide

/-- A feature of the free plan is refused to nobody, whatever subscription is stored. -/
theorem require_feature_of_free {feature : String}
    (h : plan_has_feature none feature) (plan : String) :
    require_feature feature plan = .ok () := by
  have hfree : feature ∈ features_for_plan (some FREE_PLAN) := of_decide_eq_true h
  have hplan : plan_has_feature (some plan) feature := by
    simpa [plan_has_feature] using features_for_plan_free_subset (some plan) hfree
  rw [require_feature, if_pos hplan]

/-! ### Lookups under the constraints -/

/-- The subscription of an organisation. -/
def Database.subscriptionOf (db : Database) (org : Uuid) : Option Subscription :=
  find Subscription.organization_id org db.tables.subscriptions

variable {db : Database} {t : Tables} {provider : String} {event : PaymentEvent} {org : Uuid}

/-- A lookup by organisation never finds more than one row. -/
theorem scalar_one_or_none_selectSubscription
    (h : Unique (fun s : Subscription => some s.organization_id) t.subscriptions) (org : Uuid) :
    scalar_one_or_none (t.selectSubscription org) =
      .ok (find Subscription.organization_id org t.subscriptions) := by
  obtain ⟨r, hr, hmem⟩ := h.scalarOneOrNone_select org
  have heq : r = find Subscription.organization_id org t.subscriptions := by
    ext s
    rw [hmem, h.find_eq_some_iff, Option.some.injEq]
  rw [scalar_one_or_none, Tables.selectSubscription, hr, heq]

/-- **The three readers agree**, and none of them fails. -/
theorem effective_plan (db : Database) (org : Uuid) :
    require_feature_plan db org = .ok (activePlan FREE_PLAN (db.subscriptionOf org)) ∧
      plan_for_org db org = .ok (activePlan FREE_PLAN (db.subscriptionOf org)) ∧
      close_invoice_plan db org = .ok (activePlan FREE_PLAN (db.subscriptionOf org)) := by
  have hload := scalar_one_or_none_selectSubscription db.valid.subscription org
  simp only [require_feature_plan, plan_for_org, close_invoice_plan, hload]
  exact ⟨rfl, rfl, rfl⟩

end BackendManager.Billing
