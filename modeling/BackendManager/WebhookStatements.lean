import BackendManager.Billing
import BackendManager.Interleaving
import BackendManager.ReadCommitted

/-!
# The Payments Webhook as SQL Statements

`payments_webhook` and `_sync_subscription` of `app/billing/router.py`, cut at every SQL
statement. Deliveries, duplicates and retries among them, interleave under READ COMMITTED.
What an event makes of a row is `Billing.synced`, as for one delivery alone.

## Statement convention

* `session.get` is a `SELECT`. The `ProcessedEvent` that is added next is inserted by the
  autoflush before the `SELECT` of the organisation, or by the commit if there is none.
* The commit flushes the subscription: an `INSERT` for a new row, and for a row that was
  read an `UPDATE` of the columns whose value differs from the one that was read. If no
  column differs there is no statement. The `UPDATE` waits for the row lock and keeps the
  other columns as it finds them.
* The unique index on `provider_subscription_id` is a table of its own, written by the same
  statement. An `INSERT` or `UPDATE` of a taken key waits for its holder and is a violation
  once the key is committed.
* `organizations` is fixed while deliveries run. An event is what `verify_webhook` has
  returned.
-/

namespace BackendManager.Billing.Webhook

open ReadCommitted Interleaving

/-- One delivery: `payments.name` and the verified event. -/
structure Delivery where
  provider : String
  event : PaymentEvent
deriving DecidableEq

/-- The primary key of `processed_events`. -/
def Delivery.key (δ : Delivery) : String × String := (δ.provider, δ.event.event_id)

/-- The tables that deliveries write. -/
structure Tables (T : Type) where
  /-- `processed_events`: the `type`, by primary key. -/
  processed_events : Table T (String × String) String
  /-- `subscriptions`, by the unique `organization_id`. -/
  subscriptions : Table T Uuid Subscription
  /-- The unique index on `provider_subscription_id`. -/
  provider_subscription_ids : Table T String Uuid

/-- What the flush writes: the organisation and the row that was read. -/
structure Target where
  org : Uuid
  read : Option Subscription
deriving DecidableEq

/-- Where a delivery stands: the statement it executes next, with what its Python frame
holds at that point. -/
inductive Proc
  /-- Not started. -/
  | idle
  /-- `session.get` is next. -/
  | received (δ : Delivery)
  /-- The `ProcessedEvent` is added: its `INSERT` is next. -/
  | added (δ : Delivery)
  /-- The `SELECT` of the organisation is next. -/
  | selectOrganization (δ : Delivery)
  /-- The `SELECT` of the subscription is next. -/
  | selectSubscription (δ : Delivery) (org : Uuid)
  /-- The flush of the subscription is next. -/
  | syncing (δ : Delivery) (target : Target)
  /-- `COMMIT` is next; `target` is what was flushed. -/
  | commit (δ : Delivery) (target : Option Target)
  /-- The delivery has answered. -/
  | returned (δ : Delivery) (reply : Reply)
  /-- The delivery ended with an exception and its transaction was rolled back. -/
  | raised (δ : Delivery)
deriving DecidableEq

/-- One scheduled action. -/
inductive Act
  | deliver (δ : Delivery)
  /-- The next statement. -/
  | stmt
  /-- The delivery fails and is rolled back. -/
  | fail
deriving DecidableEq

variable {T : Type} [DecidableEq T]

namespace Tables

/-- COMMIT. -/
def commit (db : Tables T) (t : T) : Tables T :=
  ⟨db.processed_events.commit t, db.subscriptions.commit t,
    db.provider_subscription_ids.commit t⟩

/-- ROLLBACK. -/
def rollback (db : Tables T) (t : T) : Tables T :=
  ⟨db.processed_events.rollback t, db.subscriptions.rollback t,
    db.provider_subscription_ids.rollback t⟩

end Tables

/-! ### Statements -/

/-- The `INSERT` of the `ProcessedEvent`. -/
def insertProcessed (t : T) (db : Tables T) (δ : Delivery) : Option (Tables T × Proc) :=
  (db.processed_events.insert t δ.key δ.event.event_type.name).map fun
    | .ok processed =>
        ({ db with processed_events := processed },
          if δ.event.event_type ∈ SUBSCRIPTION_EVENTS then .selectOrganization δ
          else .commit δ none)
    | .error _ => (db.rollback t, .raised δ)

/-- The `SELECT` of the organisation by `customer_ref`. -/
def selectOrganization (organizations : List Organization) (t : T) (db : Tables T) (δ : Delivery) :
    Tables T × Proc :=
  match scalar_one_or_none
      (UniqueRows.select Organization.payments_customer_id δ.event.customer_ref organizations) with
  | .ok (some org) => (db, .selectSubscription δ org.id)
  | .ok none => (db, .commit δ none)
  | .error _ => (db.rollback t, .raised δ)

/-- The `INSERT` of a new subscription, under both unique keys. -/
def insertSubscription (t : T) (db : Tables T) (org : Uuid) (row : Subscription) :
    Option (Except Table.UniqueViolation (Tables T)) :=
  match db.subscriptions.insert t org row,
      db.provider_subscription_ids.insert t row.provider_subscription_id org with
  | some (.ok subscriptions), some (.ok ids) =>
      some (.ok { db with subscriptions := subscriptions, provider_subscription_ids := ids })
  | some (.error e), _ | _, some (.error e) => some (.error e)
  | _, _ => none

/-- A column after the `UPDATE`: it is assigned if the new value differs from the one that
was read. -/
def column {α : Type} [DecidableEq α] (read new found : α) : α :=
  if new = read then found else new

/-- The row after the `UPDATE`, from the version that it finds. -/
def assign (read new found : Subscription) : Subscription where
  organization_id := found.organization_id
  provider := column read.provider new.provider found.provider
  provider_subscription_id := column read.provider_subscription_id
    new.provider_subscription_id found.provider_subscription_id
  status := column read.status new.status found.status
  plan := column read.plan new.plan found.plan
  current_period_end := column read.current_period_end new.current_period_end
    found.current_period_end

/-- The index entry of an updated row moves with its `provider_subscription_id`. -/
def moveId (t : T) (ids : Table T String Uuid) (org : Uuid) (found row : Subscription) :
    Option (Except Table.UniqueViolation (Table T String Uuid)) :=
  if row.provider_subscription_id = found.provider_subscription_id then some (.ok ids)
  else (ids.put t found.provider_subscription_id none).bind fun ids =>
    ids.insert t row.provider_subscription_id org

/-- The `UPDATE` of a row that was read. `none` as the error: no row matches. -/
def updateSubscription (t : T) (db : Tables T) (org : Uuid) (read new : Subscription) :
    Option (Except (Option Table.UniqueViolation) (Tables T)) :=
  match db.subscriptions.view t org with
  | none => some (.error none)
  | some found =>
      let row := assign read new found
      (db.subscriptions.put t org (some row)).bind fun subscriptions =>
        (moveId t db.provider_subscription_ids org found row).map fun
          | .ok ids =>
              .ok { db with subscriptions := subscriptions, provider_subscription_ids := ids }
          | .error e => .error (some e)

/-- The flush of the subscription. -/
def flush (t : T) (db : Tables T) (δ : Delivery) (target : Target) : Option (Tables T × Proc) :=
  let row := synced δ.provider δ.event target.org target.read
  match target.read with
  | none =>
      (insertSubscription t db target.org row).map fun
        | .ok db' => (db', .commit δ (some target))
        | .error _ => (db.rollback t, .raised δ)
  | some read =>
      if row = read then some (db, .commit δ (some target))
      else (updateSubscription t db target.org read row).map fun
        | .ok db' => (db', .commit δ (some target))
        | .error _ => (db.rollback t, .raised δ)

/-- The next statement of a delivery. -/
def stmt (organizations : List Organization) (t : T) (db : Tables T) :
    Proc → Option (Tables T × Proc)
  | .received δ =>
      match db.processed_events.view t δ.key with
      | some _ => some (db.rollback t, .returned δ .duplicate)
      | none => some (db, .added δ)
  | .added δ => insertProcessed t db δ
  | .selectOrganization δ => some (selectOrganization organizations t db δ)
  | .selectSubscription δ org => some (db, .syncing δ ⟨org, db.subscriptions.view t org⟩)
  | .syncing δ target => flush t db δ target
  | .commit δ _ => some (db.commit t, .returned δ .ok)
  | .idle | .returned _ _ | .raised _ => none

/-- The delivery that is being handled. -/
def Proc.handles : Proc → Option Delivery
  | .received δ | .added δ | .selectOrganization δ | .selectSubscription δ _ | .syncing δ _
  | .commit δ _ => some δ
  | .idle | .returned _ _ | .raised _ => none

/-- One action of one delivery. -/
def exec (organizations : List Organization) (t : T) :
    Act → Tables T → Proc → Option (Tables T × Proc)
  | .deliver δ, db, .idle => some (db, .received δ)
  | .stmt, db, p => stmt organizations t db p
  | .fail, db, p => p.handles.map fun δ => (db.rollback t, .raised δ)
  | _, _, _ => none

/-- The webhook as an interleaved program. -/
def program (organizations : List Organization) : Program T (Tables T) Proc Act :=
  ⟨exec organizations⟩

/-- A start: any tables, nobody holds a row, and no delivery has started. -/
structure Start (c : Config T (Tables T) Proc) : Prop where
  processed_events : ∀ t, c.shared.processed_events.Untouched t
  subscriptions : ∀ t, c.shared.subscriptions.Untouched t
  idle : ∀ t, c.proc t = .idle

/-- All schedules. -/
abbrev Any : Config T (Tables T) Proc → T → Act → Prop := fun _ _ _ => True

end BackendManager.Billing.Webhook
