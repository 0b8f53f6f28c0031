import BackendManager.ForgedWebhooks
import BackendManager.SubscriptionSync

/-!
# Missing Fields of Payment Events

`_sync_subscription` keeps the stored value of a column for which an event has none. The adapters
hand it no status and no subscription id where the provider has sent none. The plan they always
fill in: without a price or plan id it is the free plan, so that the stored plan is never kept.

A field is missing in the provider's object if it is absent, null, or an empty text. `Keeps`
says of a stored row and the row after the event that each column whose field is missing has the
value of before. The status and the subscription id are kept by the `or` of
`_sync_subscription`. The plan is computed from the price or plan id by a look-up with the free
plan as its default, before `_sync_subscription` is reached, so that nothing tells it that the
id was missing.

## Main results

* `to_payment_event_ok`: what an adapter reads of the provider's object.
* `keeps_missing_iff`: which events keep the stored value of each missing field.
-/

namespace BackendManager.Billing

open Json (Value Scalars PyError)
open Json.Value (bind_eq_ok)
open UniqueRows

variable {F : Type} {payments : Adapter F} {S : Scalars F} {document v : Value F}
  {event : AdapterEvent F} {normalized : PaymentEvent} {row row' : Subscription}

/-! ### What an adapter reads -/

/-- The provider's object in the body. -/
def Adapter.providerObject : Adapter F → Value F → Except PyError (Value F)
  | .stripe _ => Stripe.obj
  | .razorpay _ => Razorpay.entity

/-- The price id or the plan id of the object. -/
def Adapter.planId : Adapter F → Value F → Except PyError (Value F)
  | .stripe adapter, object => Stripe.price_id adapter.scalars object
  | .razorpay _, object => object.get "plan_id" .null

/-- The status of the event. -/
def Adapter.statusOf : Adapter F → Value F → Value F
  | .stripe _, status => status
  | .razorpay adapter, status => Razorpay._normalize_status adapter.scalars status

/-- The plan of the event. -/
def Adapter.planOf : Adapter F → Value F → String
  | .stripe adapter, id => adapter._price_to_plan id
  | .razorpay adapter, id => adapter._plan_id_to_plan id

/-- What an event has been read from. -/
structure Adapter.Reads (payments : Adapter F) (document : Value F) (event : AdapterEvent F)
    (object status plan_id : Value F) : Prop where
  get_object : payments.providerObject document = .ok object
  get_id : object.get "id" .null = .ok event.subscription_id
  get_status : object.get "status" .null = .ok status
  get_plan_id : payments.planId object = .ok plan_id
  status_of : event.status = payments.statusOf status
  plan_of : event.plan = payments.planOf plan_id

/-- **What an adapter reads** of the provider's object. -/
theorem to_payment_event_ok (h : payments._to_payment_event document = .ok event) :
    ∃ object status plan_id, payments.Reads document event object status plan_id := by
  cases payments with
  | stripe adapter =>
      rw [Adapter._to_payment_event, Stripe._to_payment_event] at h
      obtain ⟨obj, hobj, h⟩ := bind_eq_ok.mp h
      obtain ⟨price_id, hprice, h⟩ := bind_eq_ok.mp h
      obtain ⟨event_id, -, h⟩ := bind_eq_ok.mp h
      obtain ⟨type, -, h⟩ := bind_eq_ok.mp h
      obtain ⟨event_type, -, h⟩ := bind_eq_ok.mp h
      obtain ⟨subscription_id, hsubscription, h⟩ := bind_eq_ok.mp h
      obtain ⟨status, hstatus, h⟩ := bind_eq_ok.mp h
      obtain ⟨current_period_end, -, h⟩ := bind_eq_ok.mp h
      obtain ⟨period_end, -, h⟩ := bind_eq_ok.mp h
      obtain ⟨customer_ref, -, h⟩ := bind_eq_ok.mp h
      obtain rfl := Except.ok.inj h
      exact ⟨obj, status, price_id, hobj, hsubscription, hstatus, hprice, rfl, rfl⟩
  | razorpay adapter =>
      obtain ⟨name, entity, created_at, status, plan_id, hreads⟩ := Razorpay.reads h
      exact ⟨entity, status, plan_id, hreads.get_entity, hreads.get_id, hreads.get_status,
        hreads.get_plan_id, hreads.status, hreads.plan⟩

/-! ### Missing values -/

/-- A field without a value: it is not there, `null` or empty. -/
def Missing (v : Value F) : Prop := v = .null ∨ v = .str ""

/-- A missing plan is read as the free one. -/
theorem planWithId_of_missing (ids : List (String × String)) (h : Missing v) :
    planWithId S ids v = FREE_PLAN := by
  rcases h with rfl | rfl <;> rfl

/-- In both adapters. -/
theorem planOf_of_missing (payments : Adapter F) (h : Missing v) :
    payments.planOf v = FREE_PLAN := by
  cases payments with
  | stripe adapter => exact planWithId_of_missing _ h
  | razorpay adapter => exact planWithId_of_missing _ h

/-- A missing status stays missing. -/
theorem missing_statusOf (payments : Adapter F) (h : Missing v) :
    Missing (payments.statusOf v) := by
  cases payments with
  | stripe adapter => exact h
  | razorpay adapter =>
      rcases h with rfl | rfl
      · exact .inl rfl
      · refine .inr ?_
        have hlower : adapter.scalars.lower ((Value.str "").text adapter.scalars) = "" :=
          adapter.scalars.lower_empty
        rw [Adapter.statusOf, Razorpay._normalize_status, hlower]
        · rfl
        · exact fun heq => nomatch heq

/-- The stored value is kept where the event has none. -/
theorem orElse_of_missing {x : Option String} (h : Missing (x.elim .null .str : Value F))
    (stored : String) : orElse x stored = stored := by
  cases x with
  | none => rfl
  | some s =>
      rcases h with h | h
      · cases h
      · rw [Value.str.inj h]
        rfl

/-! ### Syncing -/

/-- The stored value of each missing field is kept. -/
structure Adapter.Keeps (payments : Adapter F) (object : Value F) (row row' : Subscription) :
    Prop where
  subscription_id : ∀ v, object.get "id" .null = .ok v → Missing v →
    row'.provider_subscription_id = row.provider_subscription_id
  status : ∀ v, object.get "status" .null = .ok v → Missing v → row'.status = row.status
  plan : ∀ v, payments.planId object = .ok v → Missing v → row'.plan = row.plan

/-- The row that `_sync_subscription` leaves of an existing one. -/
theorem sync_subscription_existing (provider : String) {db : Database} {o : Organization}
    (hcustomer : db.customers normalized = [o]) (hrow : db.subscriptionOf o.id = some row) :
    ∃ t, sync_subscription provider normalized (db.tables.addProcessed provider normalized) =
        .ok t ∧
      find Subscription.organization_id o.id t.subscriptions =
        some (synced provider normalized o.id (some row)) := by
  refine ⟨_, sync_subscription_one hcustomer, ?_⟩
  have horg : (synced provider normalized o.id (some row)).organization_id = o.id :=
    (find_eq_some hrow).2
  rw [Tables.written, Database.syncedRow, hrow, find_upsert, if_pos horg.symm]

/-- **Which events keep the stored value of each missing field**: those with a price or plan id,
and all of them on a row of the free plan. -/
theorem keeps_missing_iff (h : payments._to_payment_event document = .ok event)
    (hannotated : event.annotated = some normalized)
    (hlifecycle : normalized.event_type ∈ SUBSCRIPTION_EVENTS) {db : Database} {o : Organization}
    (hcustomer : db.customers normalized = [o]) (hrow : db.subscriptionOf o.id = some row) :
    ∃ object, payments.providerObject document = .ok object ∧
      ((∃ t row', sync_subscription payments.name normalized
            (db.tables.addProcessed payments.name normalized) = .ok t ∧
          find Subscription.organization_id o.id t.subscriptions = some row' ∧
          payments.Keeps object row row') ↔
        (∃ v, payments.planId object = .ok v ∧ ¬ Missing v) ∨ row.plan = FREE_PLAN) := by
  obtain ⟨object, status, plan_id, hreads⟩ := to_payment_event_ok h
  have hne : normalized.event_type ≠ .ignored := by
    rintro heq
    rw [heq] at hlifecycle
    exact absurd hlifecycle (by decide)
  obtain ⟨hsubscription, hstatus, hplan⟩ := (AdapterEvent.annotated_eq_some hannotated).2.2 hne
  obtain ⟨t, hsync, hfind⟩ := sync_subscription_existing payments.name hcustomer hrow
  have hfree : Missing plan_id →
      (synced payments.name normalized o.id (some row)).plan = FREE_PLAN := by
    intro hmissing
    rw [synced, hplan, hreads.plan_of, planOf_of_missing payments hmissing]
    rfl
  refine ⟨object, hreads.get_object, ?_⟩
  constructor
  · rintro ⟨t', row', hsync', hfind', hkeeps⟩
    obtain rfl := Except.ok.inj (hsync'.symm.trans hsync)
    obtain rfl := Option.some.inj (hfind'.symm.trans hfind)
    by_cases hmissing : Missing plan_id
    · exact .inr ((hkeeps.plan plan_id hreads.get_plan_id hmissing).symm.trans (hfree hmissing))
    · exact .inl ⟨plan_id, hreads.get_plan_id, hmissing⟩
  · intro hcarries
    refine ⟨t, _, hsync, hfind, ?_, ?_, ?_⟩
    · intro v hv hmissing
      obtain rfl := Except.ok.inj (hv.symm.trans hreads.get_id)
      rw [hsubscription] at hmissing
      exact orElse_of_missing hmissing _
    · intro v hv hmissing
      obtain rfl := Except.ok.inj (hv.symm.trans hreads.get_status)
      have hnone := missing_statusOf payments hmissing
      rw [← hreads.status_of, hstatus] at hnone
      exact orElse_of_missing hnone _
    · intro v hv hmissing
      obtain rfl := Except.ok.inj (hv.symm.trans hreads.get_plan_id)
      rcases hcarries with ⟨v', hv', hcarried⟩ | hstored
      · obtain rfl := Except.ok.inj (hv'.symm.trans hreads.get_plan_id)
        exact absurd hmissing hcarried
      · rw [hfree hmissing, hstored]

/-! ### An event of each provider -/

/-- A subscription without items is past due. -/
def pastDueStripe : Value Empty :=
  .dict [("id", .str "evt_2"), ("type", .str "customer.subscription.updated"),
    ("data", .dict [("object", .dict [("id", .str "sub_2"), ("customer", .str "cus_1"),
      ("status", .str "past_due")])])]

/-- A subscription has been charged; the entity states the plan and no status. -/
def chargedRazorpay : Value Empty :=
  .dict [("event", .str "subscription.charged"), ("created_at", .int 1700000000),
    ("payload", .dict [("subscription", .dict [("entity", .dict [("id", .str "sub_2"),
      ("customer_id", .str "cus_1"), ("plan_id", .str "plan_pro")])])])]

/-- The stored row of `proCustomer`. -/
def proRow : Subscription := ⟨Uuid.ofNat 1, "stripe", "sub_2", "active", "pro", some 100⟩

/-- The charge, as the adapter of Razorpay returns it. -/
def charged : AdapterEvent Empty :=
  ⟨.str "subscription.charged:sub_2:1700000000", .updated, .str "sub_2", .null, "pro", none,
    .str "cus_1"⟩

def chargedEvent : PaymentEvent :=
  ⟨"subscription.charged:sub_2:1700000000", .updated, some "sub_2", none, some "pro", none,
    some "cus_1"⟩

/-- The update, as the adapter of Stripe returns it. -/
def pastDue : AdapterEvent Empty :=
  ⟨.str "evt_2", .updated, .str "sub_2", .str "past_due", "free", none, .str "cus_1"⟩

def pastDueEvent : PaymentEvent :=
  ⟨"evt_2", .updated, some "sub_2", some "past_due", some "free", none, some "cus_1"⟩

/-- The row that the customer of the example has. -/
theorem subscriptionOf_proCustomer : proCustomer.subscriptionOf (Uuid.ofNat 1) = some proRow := rfl

/-- A renewal without a status for that customer: the row keeps the one that it has. -/
theorem keeps_missing_charged :
    strictRazorpay._to_payment_event chargedRazorpay = .ok charged ∧
      charged.annotated = some chargedEvent ∧
      proCustomer.customers chargedEvent = [⟨Uuid.ofNat 1, some "cus_1"⟩] ∧
      ∃ t row', sync_subscription "razorpay" chargedEvent
        (proCustomer.tables.addProcessed "razorpay" chargedEvent) = .ok t ∧
      find Subscription.organization_id (Uuid.ofNat 1) t.subscriptions = some row' ∧
      row'.status = "active" := by
  have hevent : strictRazorpay._to_payment_event chargedRazorpay = .ok charged := rfl
  have hannotated : charged.annotated = some chargedEvent := rfl
  have hcustomer : proCustomer.customers chargedEvent = [⟨Uuid.ofNat 1, some "cus_1"⟩] := rfl
  obtain ⟨object, hobject, hiff⟩ := keeps_missing_iff hevent hannotated (by decide) hcustomer
    subscriptionOf_proCustomer
  obtain rfl := Except.ok.inj hobject
  obtain ⟨t, row', ht, hrow', hkeeps⟩ := hiff.mpr (.inl ⟨.str "plan_pro", rfl, by simp [Missing]⟩)
  exact ⟨hevent, hannotated, hcustomer, t, row', ht, hrow', hkeeps.status .null rfl (.inl rfl)⟩

/-- An event without a price moves the organisation to the free plan. -/
theorem not_keeps_missing :
    strictStripe._to_payment_event pastDueStripe = .ok pastDue ∧
      pastDue.annotated = some pastDueEvent ∧
      (∃ object, strictStripe.providerObject pastDueStripe = .ok object ∧
        strictStripe.planId object = .ok .null) ∧
      proCustomer.subscriptionOf (Uuid.ofNat 1) = some proRow ∧ proRow.plan = "pro" ∧
      (delivered "stripe" pastDueEvent proCustomer).subscriptionOf (Uuid.ofNat 1) =
        some ⟨Uuid.ofNat 1, "stripe", "sub_2", "past_due", "free", none⟩ :=
  ⟨rfl, rfl, ⟨_, rfl, rfl⟩, rfl, rfl, by decide⟩

end BackendManager.Billing
