import BackendManager.Json
import BackendManager.Text
import BackendManager.WebhookFrame

/-!
# Payment Adapters

The model of `app/billing/adapters`: how `StripeAdapter` and `RazorpayAdapter` verify the body of
a webhook and map it to a normalized event, and the route `payments_webhook` from the raw body
on. The SDKs and the parser of JSON are parameters: the one of Stripe verifies bytes and parses
them, and raises `ValueError` or its own error; the one of Razorpay verifies a text.

A field of a body may hold any JSON value. An adapter passes some of them on as they are, so that
an `AdapterEvent` is the `PaymentEvent` of its annotations only if they are texts or missing.

What an adapter reads of a document may raise at every access, since a signature says who has
sent a body and not what is in it. The exceptions are followed to the end: the route answers the
ones that the adapter turns into a `WebhookVerificationError` with `400`, and any other
exception is a `500`. So is a value that the database does not take, at the first statement that
sends it.

## Main results

* `AdapterEvent.annotated_eq_some`: which events are as annotated.
* `Razorpay.reads`: what an event of Razorpay has been read from.
* `webhook_of_verified`: the route on a body that has been verified.
-/

namespace BackendManager.Billing

open Json (Value Scalars PyError)
open Json.Value (bind_eq_ok)
open Text (decodeUtf8)

variable {F : Type}

/-! ### Events -/

/-- The `PaymentEvent` that an adapter returns. -/
structure AdapterEvent (F : Type) where
  event_id : Value F
  event_type : EventType
  subscription_id : Value F
  status : Value F
  plan : String
  period_end : Option ℤ
  customer_ref : Value F

/-- A value of the type `str | None`. -/
def optionalText : Value F → Option (Option String)
  | .null => some none
  | .str s => some (some s)
  | _ => none

/-- The event, if its fields are of the types that are written to the tables; of an ignored event
these are the id and the type. -/
def AdapterEvent.annotated (event : AdapterEvent F) : Option PaymentEvent :=
  match event.event_id with
  | .str event_id =>
      if event.event_type = .ignored then
        some ⟨event_id, .ignored, none, none, none, event.period_end, none⟩
      else
        (optionalText event.subscription_id).bind fun subscription_id =>
          (optionalText event.status).bind fun status =>
            (optionalText event.customer_ref).map fun customer_ref =>
              ⟨event_id, event.event_type, subscription_id, status, some event.plan,
                event.period_end, customer_ref⟩
  | _ => none

/-- `datetime.fromtimestamp(n, tz=UTC)`, from the year 1 to the year 9999. -/
def fromtimestamp (n : ℤ) : Except PyError ℤ :=
  if -62135596800 ≤ n ∧ n ≤ 253402300799 then .ok n else .error .valueError

/-- `to_naive_utc`. -/
def to_naive_utc (S : Scalars F) : Value F → Except PyError (Option ℤ)
  | .null => .ok none
  | unix_ts => (unix_ts.toInt S).bind fun n => (fromtimestamp n).map some

/-- `_EVENT_MAP.get(name, EVENT_IGNORED)`; lists and dicts cannot be looked up. -/
def lookupEvent (event_map : List (String × EventType)) :
    Value F → Except PyError EventType
  | .str name => .ok ((event_map.lookup name).getD .ignored)
  | .list _ | .dict _ => .error .typeError
  | _ => .ok .ignored

/-- The plan with this price or plan id, else the free plan. -/
def planWithId (S : Scalars F) (ids : List (String × String)) (id : Value F) : String :=
  if id.truthy S then
    match id with
    | .str s => ((ids.find? fun plan => plan.2 = s).map Prod.fst).getD FREE_PLAN
    | _ => FREE_PLAN
  else FREE_PLAN

/-- What ends `verify_webhook`: `WebhookVerificationError`, or another exception. -/
inductive Raised
  | verification (message : String)
  | unicodeDecodeError
  | python (error : PyError)
deriving DecidableEq

/-! ### Stripe -/

/-- `_EVENT_MAP` of `stripe.py`. -/
def STRIPE_EVENT_MAP : List (String × EventType) :=
  [("customer.subscription.created", .created),
    ("customer.subscription.updated", .updated),
    ("customer.subscription.deleted", .deleted)]

/-- The errors of `Webhook.construct_event`. -/
inductive StripeError
  | valueError (message : String)
  | signatureVerificationError (message : String)
deriving DecidableEq

/-- `StripeAdapter`: its SDK, and the settings it reads. -/
structure Stripe (F : Type) where
  scalars : Scalars F
  construct_event : List UInt8 → String → String → Except StripeError (Value F)
  stripe_webhook_secret : Option String
  stripe_plan_to_price : List (String × String)

namespace Stripe

def _price_to_plan (stripe : Stripe F) (price_id : Value F) : String :=
  planWithId stripe.scalars stripe.stripe_plan_to_price price_id

/-- `event["data"]["object"]`, or an empty dict. -/
def obj (event : Value F) : Except PyError (Value F) := do
  let data ← event.get "data" (.dict [])
  data.get "object" (.dict [])

/-- `items[0]["price"]["id"] if items else None`. -/
def price_id (S : Scalars F) (obj : Value F) : Except PyError (Value F) := do
  let items ← obj.get "items" (.dict [])
  let items ← items.get "data" (.list [])
  if items.truthy S then
    let item ← items.first
    let price ← item.item "price"
    price.item "id"
  else pure .null

def _to_payment_event (stripe : Stripe F) (event : Value F) :
    Except PyError (AdapterEvent F) := do
  let obj ← obj event
  let price_id ← price_id stripe.scalars obj
  let event_id ← event.item "id"
  let type ← event.item "type"
  let event_type ← lookupEvent STRIPE_EVENT_MAP type
  let subscription_id ← obj.get "id" .null
  let status ← obj.get "status" .null
  let current_period_end ← obj.get "current_period_end" .null
  let period_end ← to_naive_utc stripe.scalars current_period_end
  let customer_ref ← obj.get "customer" .null
  pure ⟨event_id, event_type, subscription_id, status, stripe._price_to_plan price_id, period_end,
    customer_ref⟩

def verify_webhook (stripe : Stripe F) (raw_body : List UInt8) (signature : String) :
    Except Raised (AdapterEvent F) :=
  let secret := orElse stripe.stripe_webhook_secret ""
  match stripe.construct_event raw_body signature secret with
  | .error (.valueError message) => .error (.verification message)
  | .error (.signatureVerificationError message) => .error (.verification message)
  | .ok event => (stripe._to_payment_event event).mapError .python

end Stripe

/-! ### Razorpay -/

/-- `_EVENT_MAP` of `razorpay.py`. -/
def RAZORPAY_EVENT_MAP : List (String × EventType) :=
  [("subscription.activated", .created),
    ("subscription.authenticated", .updated),
    ("subscription.charged", .updated),
    ("subscription.updated", .updated),
    ("subscription.pending", .updated),
    ("subscription.halted", .updated),
    ("subscription.paused", .updated),
    ("subscription.resumed", .updated),
    ("subscription.cancelled", .deleted),
    ("subscription.completed", .deleted),
    ("subscription.expired", .deleted)]

/-- `RazorpayAdapter`: its SDK, `json.loads`, and the settings it reads. A signature that is not
verified raises an error with a message. -/
structure Razorpay (F : Type) where
  scalars : Scalars F
  verify_webhook_signature : String → String → String → Except String Unit
  loads : List UInt8 → Option (Value F)
  razorpay_webhook_secret : Option String
  razorpay_plan_to_plan_id : List (String × String)

namespace Razorpay

/-- `_normalize_status`. -/
def _normalize_status (S : Scalars F) : Value F → Value F
  | .null => .null
  | status =>
      let s := S.lower (status.text S)
      .str (if s = "cancelled" then "canceled" else s)

def _plan_id_to_plan (razorpay : Razorpay F) (plan_id : Value F) : String :=
  planWithId razorpay.scalars razorpay.razorpay_plan_to_plan_id plan_id

/-- `event["payload"]["subscription"]["entity"]`, with empty dicts for what is missing. -/
def entity (event : Value F) : Except PyError (Value F) := do
  let payload ← event.get "payload" (.dict [])
  let subscription ← payload.get "subscription" (.dict [])
  subscription.get "entity" (.dict [])

/-- The synthesized idempotency key. -/
def eventId (S : Scalars F) (name subscription_id created_at : Value F) : String :=
  name.text S ++ ":" ++ subscription_id.text S ++ ":" ++ created_at.text S

def _to_payment_event (razorpay : Razorpay F) (event : Value F) :
    Except PyError (AdapterEvent F) := do
  let name ← event.get "event" (.str "")
  let entity ← entity event
  let subscription_id ← entity.get "id" .null
  let created_at ← event.get "created_at" .null
  let event_type ← lookupEvent RAZORPAY_EVENT_MAP name
  let status ← entity.get "status" .null
  let plan_id ← entity.get "plan_id" .null
  let current_end ← entity.get "current_end" .null
  let period_end ← to_naive_utc razorpay.scalars current_end
  let customer_ref ← entity.get "customer_id" .null
  pure ⟨.str (eventId razorpay.scalars name subscription_id created_at), event_type,
    subscription_id, _normalize_status razorpay.scalars status, razorpay._plan_id_to_plan plan_id,
    period_end, customer_ref⟩

def verify_webhook (razorpay : Razorpay F) (raw_body : List UInt8) (signature : String) :
    Except Raised (AdapterEvent F) :=
  let secret := orElse razorpay.razorpay_webhook_secret ""
  match decodeUtf8 raw_body with
  | none => .error .unicodeDecodeError
  | some body =>
      match razorpay.verify_webhook_signature body signature secret with
      | .error message => .error (.verification message)
      | .ok () =>
          match razorpay.loads raw_body with
          -- a `JSONDecodeError`
          | none => .error (.python .valueError)
          | some event => (razorpay._to_payment_event event).mapError .python

end Razorpay

/-! ### The port -/

/-- An implementation of `PaymentsPort`. -/
inductive Adapter (F : Type)
  | stripe (adapter : Stripe F)
  | razorpay (adapter : Razorpay F)

namespace Adapter

def name : Adapter F → String
  | .stripe _ => "stripe"
  | .razorpay _ => "razorpay"

def scalars : Adapter F → Scalars F
  | .stripe adapter => adapter.scalars
  | .razorpay adapter => adapter.scalars

def _to_payment_event : Adapter F → Value F → Except PyError (AdapterEvent F)
  | .stripe adapter => adapter._to_payment_event
  | .razorpay adapter => adapter._to_payment_event

def verify_webhook : Adapter F → List UInt8 → String → Except Raised (AdapterEvent F)
  | .stripe adapter => adapter.verify_webhook
  | .razorpay adapter => adapter.verify_webhook

end Adapter

/-- What the webhook route answers; `failed` is an exception that the route does not handle. -/
inductive Answer
  | reply (reply : Reply)
  | httpException (error : HTTPException)
  | failed
deriving DecidableEq

/-- `v or x` in a column of texts takes `x` for a value that is false. -/
def orNull (S : Scalars F) (v : Value F) : Value F := if v.truthy S then v else .null

/-- The event as `_sync_subscription` uses it, if what it states can be written. -/
def AdapterEvent.written (S : Scalars F) (event : AdapterEvent F) : Option PaymentEvent :=
  AdapterEvent.annotated
    { event with
      subscription_id := orNull S event.subscription_id
      status := orNull S event.status }

/-- The event as `_sync_subscription` uses it for a customer whom nobody has. -/
def AdapterEvent.unused (event : AdapterEvent F) : Option PaymentEvent :=
  AdapterEvent.annotated { event with subscription_id := .null, status := .null }

/-- The event that the route handles, in this database. An event with a customer that is no text
is refused by the database; so is one with a value that is to be written and is neither a text nor
false. -/
def AdapterEvent.handled (S : Scalars F) (event : AdapterEvent F) (db : Database) :
    Option PaymentEvent :=
  match event.annotated, event.written S with
  | some annotated, _ => some annotated
  | none, some written => some written
  | none, none => event.unused.filter fun unused => db.customers unused = []

/-- `payments_webhook`, from the raw body on. An id that is no text is refused by the database. -/
def webhook (payments : Adapter F) (raw_body : List UInt8) (signature : String) (db : Database) :
    Database × Answer :=
  match payments.verify_webhook raw_body signature with
  | .error (.verification _) => (db, .httpException ⟨400, "Invalid webhook signature"⟩)
  | .error _ => (db, .failed)
  | .ok event =>
      match event.event_id with
      | .str event_id =>
          if db.tables.processed payments.name event_id then (db, .reply .duplicate)
          else
            match (event.handled payments.scalars db).map fun event =>
                payments_webhook payments.name event db with
            | some (.ok (db, reply)) => (db, .reply reply)
            | _ => (db, .failed)
      | _ => (db, .failed)

/-! ### Annotated events -/

variable {event : AdapterEvent F} {normalized : PaymentEvent} {payments : Adapter F}
  {raw_body : List UInt8} {signature : String} {db : Database}

theorem optionalText_eq_some {v : Value F} {text : Option String}
    (h : optionalText v = some text) : v = text.elim .null .str := by
  cases v with
  | null | str =>
      obtain rfl := Option.some.inj h
      rfl
  | _ => cases h

/-- **Which events are as annotated.** -/
theorem AdapterEvent.annotated_eq_some (h : event.annotated = some normalized) :
    event.event_id = .str normalized.event_id ∧ event.event_type = normalized.event_type ∧
      (normalized.event_type ≠ .ignored →
        event.subscription_id = normalized.subscription_id.elim .null .str ∧
          event.status = normalized.status.elim .null .str ∧
          normalized.plan = some event.plan) := by
  rw [AdapterEvent.annotated] at h
  split at h
  · rename_i event_id hid
    split at h
    · rename_i htype
      obtain rfl := Option.some.inj h
      exact ⟨hid, htype, fun hne => absurd rfl hne⟩
    · obtain ⟨subscription_id, hsubscription, h⟩ := Option.bind_eq_some_iff.mp h
      obtain ⟨status, hstatus, h⟩ := Option.bind_eq_some_iff.mp h
      obtain ⟨customer_ref, -, rfl⟩ := Option.map_eq_some_iff.mp h
      exact ⟨hid, rfl, fun _ =>
        ⟨optionalText_eq_some hsubscription, optionalText_eq_some hstatus, rfl⟩⟩
  · cases h

/-- What an event of Razorpay has been read from. -/
structure Razorpay.Reads (razorpay : Razorpay F) (document : Value F) (event : AdapterEvent F)
    (name entity created_at status plan_id : Value F) : Prop where
  get_name : document.get "event" (.str "") = .ok name
  get_entity : Razorpay.entity document = .ok entity
  get_id : entity.get "id" .null = .ok event.subscription_id
  get_created_at : document.get "created_at" .null = .ok created_at
  get_status : entity.get "status" .null = .ok status
  get_plan_id : entity.get "plan_id" .null = .ok plan_id
  event_id : event.event_id = .str (eventId razorpay.scalars name event.subscription_id created_at)
  status : event.status = _normalize_status razorpay.scalars status
  plan : event.plan = razorpay._plan_id_to_plan plan_id

/-- **What the adapter of Razorpay reads.** -/
theorem Razorpay.reads {razorpay : Razorpay F} {document : Value F}
    (h : razorpay._to_payment_event document = .ok event) :
    ∃ name entity created_at status plan_id,
      razorpay.Reads document event name entity created_at status plan_id := by
  rw [Razorpay._to_payment_event] at h
  obtain ⟨name, hname, h⟩ := bind_eq_ok.mp h
  obtain ⟨entity, hentity, h⟩ := bind_eq_ok.mp h
  obtain ⟨subscription_id, hsubscription, h⟩ := bind_eq_ok.mp h
  obtain ⟨created_at, hcreated, h⟩ := bind_eq_ok.mp h
  obtain ⟨event_type, -, h⟩ := bind_eq_ok.mp h
  obtain ⟨status, hstatus, h⟩ := bind_eq_ok.mp h
  obtain ⟨plan_id, hplan, h⟩ := bind_eq_ok.mp h
  obtain ⟨current_end, -, h⟩ := bind_eq_ok.mp h
  obtain ⟨period_end, -, h⟩ := bind_eq_ok.mp h
  obtain ⟨customer_ref, -, h⟩ := bind_eq_ok.mp h
  obtain rfl := Except.ok.inj h
  exact ⟨name, entity, created_at, status, plan_id, hname, hentity, hsubscription, hcreated,
    hstatus, hplan, rfl, rfl, rfl⟩

/-- An event that is as annotated is handled as it is. -/
theorem AdapterEvent.handled_of_annotated (S : Scalars F) (db : Database)
    (h : event.annotated = some normalized) : event.handled S db = some normalized := by
  rw [AdapterEvent.handled, h]

/-- Whatever is handled has the id of the event. -/
theorem AdapterEvent.event_id_of_handled {S : Scalars F}
    (h : event.handled S db = some normalized) :
    event.event_id = .str normalized.event_id := by
  rw [AdapterEvent.handled] at h
  split at h
  · rename_i hannotated
    exact (annotated_eq_some (hannotated.trans h)).1
  · rename_i hwritten
    exact (annotated_eq_some (hwritten.trans h)).1
  · exact (annotated_eq_some (Option.filter_eq_some_iff.mp h).1).1

/-- **The route on a verified body** whose event is as annotated. -/
theorem webhook_of_verified (h : payments.verify_webhook raw_body signature = .ok event)
    (hannotated : event.annotated = some normalized) :
    webhook payments raw_body signature db =
      match payments_webhook payments.name normalized db with
      | .ok (db, reply) => (db, .reply reply)
      | .error _ => (db, .failed) := by
  obtain ⟨hid, -, -⟩ := AdapterEvent.annotated_eq_some hannotated
  simp only [webhook, h, hid, AdapterEvent.handled_of_annotated payments.scalars db hannotated,
    Option.map_some]
  split
  · rename_i hprocessed
    rw [payments_webhook_of_processed hprocessed]
  · cases payments_webhook payments.name normalized db <;> rfl

end BackendManager.Billing
