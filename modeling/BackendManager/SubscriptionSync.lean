import BackendManager.Deliveries
import BackendManager.WebhookFrame

/-!
# What a Sequence of Webhook Events Makes of a Subscription

There is one subscription row per organisation, and an event carries no time. Every event
that is not a duplicate is taken as the latest news of the organisation's subscription: it
overwrites what it states, whichever snapshot it was and whichever provider subscription it
is about. The exception are events that the database does not take (`Accepted`): PostgreSQL
refuses a text that is too long for its column, and the delivery is rolled back.

A delivery is one transaction here; the statements of two deliveries interleave in
`BackendManager.WebhookStatements`. The rule of `Deliveries` is applied to the events that the
database accepts, because a delivery that it refuses is rolled back together with the note of
its event, and may be sent again.

## Main results

* `row_of_deliveries`: after any deliveries about one provider subscription the row is the
  fold over the first delivery of each accepted event, so that the last of these decides.
* `late_active_undoes_cancellation`: two events, delivered in both orders.
* `plan_of_other_subscription`: an inactive status of another provider subscription ends the
  paid plan, and when it does not.
* `other_cancellation_ends_plan`: such an event.
-/

namespace BackendManager.Billing

open UniqueRows Deliveries

variable {db db' : Database} {provider ref A : String} {event : PaymentEvent} {org : Uuid}
  {o : Organization} {row sub : Subscription} {ds : List PaymentEvent}

/-! ### Events about one provider subscription -/

/-- A lifecycle event of the customer about the provider subscription `A`. -/
structure About (ref A : String) (event : PaymentEvent) : Prop where
  lifecycle : event.event_type ∈ SUBSCRIPTION_EVENTS
  customer_ref : event.customer_ref = some ref
  subscription_id : event.subscription_id = some A

/-- The organisation has the customer, and no other organisation has the subscription. -/
structure Owns (org : Uuid) (ref A : String) (db : Database) : Prop where
  customer : ∃ o ∈ db.tables.organizations, o.id = org ∧ o.payments_customer_id = some ref
  subscription : ∀ s ∈ db.tables.subscriptions, s.provider_subscription_id = A →
    s.organization_id = org

/-- The owner of a customer is the only organisation found. -/
theorem customers_of_owner (ho : o ∈ db.tables.organizations)
    (hcustomer : o.payments_customer_id = some ref) (href : event.customer_ref = some ref) :
    db.customers event = [o] := by
  have hmem : o ∈ db.customers event := mem_select.mpr ⟨ho, by rw [hcustomer, href]⟩
  rw [Database.customers, href] at hmem ⊢
  rcases db.valid.payments_customer_id.select_some ref with hnone | ⟨o', hone⟩
  · rw [hnone] at hmem
    cases hmem
  · rw [hone] at hmem ⊢
    rw [List.mem_singleton.mp hmem]

/-- The subscription id that the event writes is the organisation's own. -/
theorem Owns.not_taken (h : Owns org ref A db) (he : About ref A event) :
    ¬ db.Taken (db.syncedRow provider event org) := by
  rintro ⟨s, hs, hne, heq⟩
  rw [Database.syncedRow_organization_id] at hne
  cases hold : db.subscriptionOf org with
  | none =>
      have hid : (db.syncedRow provider event org).provider_subscription_id = A := by
        rw [Database.syncedRow, hold]
        by_cases hA : A = "" <;> simp [synced, he.subscription_id, orElse, hA]
      exact hne (h.subscription s hs (heq.trans hid))
  | some old =>
      by_cases hA : A = ""
      · have hid : (db.syncedRow provider event org).provider_subscription_id =
            old.provider_subscription_id := by
          rw [Database.syncedRow, hold]
          simp [synced, he.subscription_id, orElse, hA]
        refine not_taken_of_subscriptionOf hold ⟨s, hs, ?_, heq.trans hid⟩
        rwa [Database.subscriptionOf_organization_id hold]
      · have hid : (db.syncedRow provider event org).provider_subscription_id = A := by
          rw [Database.syncedRow, hold]
          simp [synced, he.subscription_id, orElse, hA]
        exact hne (h.subscription s hs (heq.trans hid))

/-- A duplicate leaves the database as it is. -/
theorem delivered_of_processed (h : db.Processed provider event) :
    delivered provider event db = db :=
  delivered_ok (payments_webhook_of_processed h)

/-- **One delivery** of an accepted event that was not processed: it is remembered, and the row
of the owner is synced. -/
theorem Owns.delivered (h : Owns org ref A db) (he : About ref A event)
    (hnew : ¬ db.Processed provider event) (haccepted : Accepted provider event) :
    (Billing.delivered provider event db).tables =
      db.tables.written provider event (db.syncedRow provider event org) := by
  obtain ⟨o, ho, rfl, hcustomer⟩ := h.customer
  have hc := customers_of_owner ho hcustomer he.customer_ref
  rcases outcome_of_customer he.lifecycle hc with
    ⟨hp, -⟩ | ⟨-, -, -, db', hr, ht⟩ | ⟨-, hrefused, -⟩ | ⟨-, -, htaken, -⟩
  · exact absurd hp hnew
  · rw [delivered_ok hr, ht]
  · exact absurd haccepted hrefused
  · exact absurd htaken (h.not_taken he)

/-- The delivery of an event that the database does not take changes nothing. -/
theorem Owns.refused (h : Owns org ref A db) (he : About ref A event)
    (hrefused : ¬ Accepted provider event) : Billing.delivered provider event db = db := by
  obtain ⟨o, ho, rfl, hcustomer⟩ := h.customer
  have hc := customers_of_owner ho hcustomer he.customer_ref
  rcases outcome_of_customer he.lifecycle hc with
    ⟨hp, -⟩ | ⟨-, haccepted, -⟩ | ⟨-, -, hr⟩ | ⟨-, haccepted, -⟩
  · exact delivered_of_processed hp
  · exact absurd haccepted hrefused
  · exact delivered_error hr
  · exact absurd haccepted hrefused

/-- The owner stays the owner. -/
theorem Owns.step (h : Owns org ref A db)
    (ht : db'.tables = db.tables.written provider event (db.syncedRow provider event org)) :
    Owns org ref A db' where
  customer := by
    rw [ht]
    exact h.customer
  subscription s hs hA := by
    rw [ht] at hs
    rcases mem_upsert.mp hs with rfl | ⟨hs, -⟩
    · exact db.syncedRow_organization_id provider event org
    · exact h.subscription s hs hA

/-- What is remembered after an event has been noted. -/
theorem processed_addProcessed (t : Tables) (provider : String) (event : PaymentEvent)
    (id : String) :
    (t.addProcessed provider event).processed provider id =
      (decide (id = event.event_id) || t.processed provider id) := by
  simp only [Tables.addProcessed, Tables.processed, List.any_append, List.any_cons,
    List.any_nil, Bool.or_comm]
  congr 1
  simp [eq_comm]

/-- Writing the row changes nothing of it. -/
theorem processed_written (t : Tables) (provider : String) (event : PaymentEvent)
    (row : Subscription) (id : String) :
    (t.written provider event row).processed provider id =
      (decide (id = event.event_id) || t.processed provider id) :=
  processed_addProcessed t provider event id

/-! ### Any sequence of deliveries -/

/-- The row of the organisation after one more event. -/
def takeIn (provider : String) (org : Uuid) (row : Option Subscription)
    (event : PaymentEvent) : Option Subscription :=
  some (synced provider event org row)

/-- The database after a sequence of deliveries. -/
def deliver (provider : String) (db : Database) (ds : List PaymentEvent) : Database :=
  ds.foldl (fun db event => delivered provider event db) db

/-- The deliveries of accepted events that were processed neither before nor earlier in the
list. -/
def firstDeliveries (provider : String) (db : Database) (ds : List PaymentEvent) :
    List PaymentEvent :=
  firsts PaymentEvent.event_id (db.tables.processed provider)
    (ds.filter fun event => Accepted provider event)

/-- A first delivery is remembered, and the row takes it in. -/
theorem Owns.first_delivery (h : Owns org ref A db) (he : About ref A event)
    (haccepted : Accepted provider event)
    (hnew : db.tables.processed provider event.event_id = false) :
    Owns org ref A (Billing.delivered provider event db) ∧
      (∀ id, (Billing.delivered provider event db).tables.processed provider id =
        (decide (id = event.event_id) || db.tables.processed provider id)) ∧
      (Billing.delivered provider event db).subscriptionOf org =
        takeIn provider org (db.subscriptionOf org) event := by
  have hnot : ¬ db.Processed provider event := by
    rw [Database.Processed, hnew]
    exact Bool.false_ne_true
  have ht := h.delivered he hnot haccepted
  refine ⟨h.step ht, fun id => by rw [ht, processed_written], ?_⟩
  rw [subscriptionOf_written ht, Database.syncedRow_organization_id, if_pos rfl]
  rfl

/-- Any delivery keeps the owner. -/
theorem Owns.any_delivery (h : Owns org ref A db) (he : About ref A event) :
    Owns org ref A (Billing.delivered provider event db) := by
  by_cases haccepted : Accepted provider event
  swap
  · rw [h.refused he haccepted]
    exact h
  by_cases hp : db.Processed provider event
  · rw [delivered_of_processed hp]
    exact h
  · exact h.step (h.delivered he hp haccepted)

/-- The deliveries that the database refuses can be left out. -/
theorem deliver_filter (h : Owns org ref A db) (hds : ∀ e ∈ ds, About ref A e) :
    deliver provider db (ds.filter fun event => Accepted provider event) =
      deliver provider db ds := by
  induction ds generalizing db with
  | nil => rfl
  | cons e ds ih =>
      have he : About ref A e := hds e List.mem_cons_self
      have hrest : ∀ e ∈ ds, About ref A e := fun e' he' => hds e' (List.mem_cons_of_mem _ he')
      by_cases haccepted : Accepted provider e
      · rw [List.filter_cons_of_pos (by simpa using haccepted)]
        exact ih (h.any_delivery he) hrest
      · rw [List.filter_cons_of_neg (by simpa using haccepted), ih h hrest]
        simp only [deliver, List.foldl_cons, h.refused he haccepted]

/-- The row is the fold over the first deliveries. -/
theorem subscriptionOf_deliver (h : Owns org ref A db) (hds : ∀ e ∈ ds, About ref A e) :
    (deliver provider db ds).subscriptionOf org =
      (firstDeliveries provider db ds).foldl (takeIn provider org) (db.subscriptionOf org) := by
  have haccepted : ∀ e ∈ ds.filter fun event => Accepted provider event,
      About ref A e ∧ Accepted provider e := by
    intro e he
    obtain ⟨he, haccepted⟩ := List.mem_filter.mp he
    exact ⟨hds e he, of_decide_eq_true haccepted⟩
  rw [← deliver_filter h hds]
  exact @view_foldl PaymentEvent String Database (Option Subscription) _ PaymentEvent.event_id
    (fun db e => delivered provider e db) (fun db => db.tables.processed provider)
    (fun db => db.subscriptionOf org) (takeIn provider org) (Owns org ref A)
    (fun e => About ref A e ∧ Accepted provider e)
    (fun _ _ _ _ hold => delivered_of_processed hold)
    (fun _ _ hI hP hnew => hI.first_delivery hP.1 hP.2 hnew) _ db h haccepted

/-- **After any deliveries** about one provider subscription, in any order and with any
duplicates, the row is the fold over the first delivery of each accepted event. The one that
was first delivered last decides: the period end is its, and so are the status and the plan if
it states them. -/
theorem row_of_deliveries (h : Owns org ref A db) (hds : ∀ e ∈ ds, About ref A e) :
    (deliver provider db ds).subscriptionOf org =
        (firstDeliveries provider db ds).foldl (takeIn provider org) (db.subscriptionOf org) ∧
      ∀ last, (firstDeliveries provider db ds).getLast? = some last →
        ∃ row, (deliver provider db ds).subscriptionOf org = some row ∧
          row.current_period_end = last.period_end ∧
          (∀ status, last.status = some status → status ≠ "" → row.status = status) ∧
          ∀ plan, last.plan = some plan → plan ≠ "" → row.plan = plan := by
  have hrow : (deliver provider db ds).subscriptionOf org =
      (firstDeliveries provider db ds).foldl (takeIn provider org) (db.subscriptionOf org) :=
    subscriptionOf_deliver h hds
  refine ⟨hrow, fun last hlast => ?_⟩
  obtain ⟨before, hbefore⟩ := foldl_of_getLast? (takeIn provider org) hlast
    (db.subscriptionOf org)
  refine ⟨synced provider last org before, hrow.trans hbefore, ?_, ?_, ?_⟩
  · cases before <;> rfl
  · intro status hstatus hne
    cases before <;> simp [synced, hstatus, orElse, hne]
  · intro plan hplan hne
    cases before <;> simp [synced, hplan, orElse, hne]

/-! ### Two orders of two events -/

/-- One organisation that has a customer and no subscription. -/
def oneCustomer : Database where
  tables := ⟨[⟨Uuid.ofNat 1, some "cus_1"⟩], [], []⟩
  valid := by decide

/-- The subscription is active on the plan "pro". -/
def activeSnapshot : PaymentEvent where
  event_id := "evt_1"
  event_type := .updated
  subscription_id := some "sub_1"
  status := some "active"
  plan := some "pro"
  period_end := some 100
  customer_ref := some "cus_1"

/-- The subscription is canceled. -/
def canceledSnapshot : PaymentEvent where
  event_id := "evt_2"
  event_type := .deleted
  subscription_id := some "sub_1"
  status := some "canceled"
  plan := some "pro"
  period_end := some 100
  customer_ref := some "cus_1"

theorem owns_oneCustomer : Owns (Uuid.ofNat 1) "cus_1" "sub_1" oneCustomer :=
  ⟨⟨_, List.mem_singleton_self _, rfl, rfl⟩, fun _ hs => (nomatch hs)⟩

/-- The second delivery of the first event changes nothing: the row is that of the event in
between. -/
theorem row_of_deliveries_duplicate :
    (deliver "stripe" oneCustomer [activeSnapshot, canceledSnapshot, activeSnapshot]).subscriptionOf
        (Uuid.ofNat 1) =
      some ⟨Uuid.ofNat 1, "stripe", "sub_1", "canceled", "pro", some 100⟩ := by
  have hds : ∀ e ∈ [activeSnapshot, canceledSnapshot, activeSnapshot],
      About "cus_1" "sub_1" e := by
    intro e he
    rcases List.mem_cons.mp he with rfl | he
    · exact ⟨by decide, rfl, rfl⟩
    rcases List.mem_cons.mp he with rfl | he
    · exact ⟨by decide, rfl, rfl⟩
    · rw [List.mem_singleton.mp he]
      exact ⟨by decide, rfl, rfl⟩
  exact (row_of_deliveries owns_oneCustomer hds).1.trans (by decide)

/-- The cancellation is the newer snapshot. Delivered in the order in which they were taken
the two events leave the subscription canceled; in the other order they leave it active. -/
theorem late_active_undoes_cancellation :
    ((deliver "stripe" oneCustomer [activeSnapshot, canceledSnapshot]).subscriptionOf
        (Uuid.ofNat 1)).map Subscription.status = some "canceled" ∧
      ((deliver "stripe" oneCustomer [canceledSnapshot, activeSnapshot]).subscriptionOf
        (Uuid.ofNat 1)).map Subscription.status = some "active" := by
  decide

/-! ### Events about another provider subscription -/

/-- The three readers find the same plan before and after the event. -/
def PlanUnchanged (provider : String) (event : PaymentEvent) (db : Database) (org : Uuid) :
    Prop :=
  require_feature_plan (delivered provider event db) org = require_feature_plan db org ∧
    plan_for_org (delivered provider event db) org = plan_for_org db org ∧
    close_invoice_plan (delivered provider event db) org = close_invoice_plan db org

/-- The organisation's subscription is active, and the event says of another provider
subscription of the same customer that it is not. -/
structure OtherInactive (event : PaymentEvent) (db : Database) (org : Uuid)
    (sub : Subscription) : Prop where
  stored : db.subscriptionOf org = some sub
  active : sub.status ∈ ACTIVE_STATUSES
  lifecycle : event.event_type ∈ SUBSCRIPTION_EVENTS
  customer : ∃ ref, event.customer_ref = some ref ∧
    ∃ o ∈ db.tables.organizations, o.id = org ∧ o.payments_customer_id = some ref
  other : ∃ A, event.subscription_id = some A ∧ A ≠ sub.provider_subscription_id
  inactive : ∃ status, event.status = some status ∧ status ≠ "" ∧ status ∉ ACTIVE_STATUSES

/-- The readers agree, so that one of them decides. -/
theorem planUnchanged_iff :
    PlanUnchanged provider event db org ↔
      activePlan FREE_PLAN ((delivered provider event db).subscriptionOf org) =
        activePlan FREE_PLAN (db.subscriptionOf org) := by
  obtain ⟨h₁, h₂, h₃⟩ := effective_plan (delivered provider event db) org
  obtain ⟨h₁', h₂', h₃'⟩ := effective_plan db org
  rw [PlanUnchanged, h₁, h₂, h₃, h₁', h₂', h₃']
  simp

/-- A row with an inactive status stands for the free plan. -/
theorem activePlan_of_inactive (h : OtherInactive event db org sub) :
    activePlan FREE_PLAN (some (synced provider event org (some sub))) = FREE_PLAN := by
  obtain ⟨status, hstatus, hne, hinactive⟩ := h.inactive
  have hrow : (synced provider event org (some sub)).status = status := by
    simp [synced, hstatus, orElse, hne]
  rw [activePlan, hrow, if_neg hinactive]

/-- **What such an event does** to the organisation's row: it becomes the stored one, unless
the event was processed before, or the database does not take it, or the subscription id belongs
to another organisation. -/
theorem subscriptionOf_of_other (provider : String) (h : OtherInactive event db org sub) :
    ((db.Processed provider event ∨ ¬ Accepted provider event ∨
          db.Taken (synced provider event org (some sub))) ∧
        (delivered provider event db).subscriptionOf org = some sub) ∨
      (¬ db.Processed provider event ∧ Accepted provider event ∧
        ¬ db.Taken (synced provider event org (some sub)) ∧
        (delivered provider event db).subscriptionOf org =
          some (synced provider event org (some sub))) := by
  obtain ⟨ref, href, o, ho, rfl, hcustomer⟩ := h.customer
  have hc := customers_of_owner ho hcustomer href
  have hrow : db.syncedRow provider event o.id = synced provider event o.id (some sub) := by
    rw [Database.syncedRow, h.stored]
  rcases outcome_of_customer h.lifecycle hc with
    ⟨hp, hr⟩ | ⟨hp, haccepted, hfree, db', hr, ht⟩ | ⟨-, hrefused, hr⟩ | ⟨-, -, htaken, hr⟩
  · exact .inl ⟨.inl hp, by rw [delivered_ok hr, h.stored]⟩
  · refine .inr ⟨hp, haccepted, hrow ▸ hfree, ?_⟩
    rw [delivered_ok hr, subscriptionOf_written ht, Database.syncedRow_organization_id,
      if_pos rfl, hrow]
  · exact .inl ⟨.inr (.inl hrefused), by rw [delivered_error hr, h.stored]⟩
  · exact .inl ⟨.inr (.inr (hrow ▸ htaken)), by rw [delivered_error hr, h.stored]⟩

/-- **The plan after an inactive status of another subscription** is the free plan, for all
three readers, as soon as the event has been processed. The effective plan stays as it was
exactly if the event was processed before, or the database does not take it, or its
subscription id belongs to another organisation, or the stored plan was the free plan. -/
theorem plan_of_other_subscription (h : OtherInactive event db org sub) :
    (¬ db.Processed provider event → Accepted provider event →
      ¬ db.Taken (synced provider event org (some sub)) →
      require_feature_plan (delivered provider event db) org = .ok FREE_PLAN ∧
        plan_for_org (delivered provider event db) org = .ok FREE_PLAN ∧
        close_invoice_plan (delivered provider event db) org = .ok FREE_PLAN) ∧
      (PlanUnchanged provider event db org ↔
        db.Processed provider event ∨ ¬ Accepted provider event ∨
          db.Taken (synced provider event org (some sub)) ∨ sub.plan = FREE_PLAN) := by
  have hbefore : activePlan FREE_PLAN (db.subscriptionOf org) = sub.plan := by
    rw [h.stored, activePlan, if_pos h.active]
  rw [planUnchanged_iff, hbefore]
  obtain ⟨h₁, h₂, h₃⟩ := effective_plan (delivered provider event db) org
  rcases subscriptionOf_of_other provider h with ⟨hskip, hsame⟩ | ⟨hp, haccepted, hfree, hnew⟩
  · have hafter : activePlan FREE_PLAN ((delivered provider event db).subscriptionOf org) =
        sub.plan := by
      rw [hsame, activePlan, if_pos h.active]
    constructor
    · intro hp haccepted hfree
      rcases hskip with hold | hrefused | htaken
      · exact absurd hold hp
      · exact absurd haccepted hrefused
      · exact absurd htaken hfree
    · refine ⟨fun _ => ?_, fun _ => hafter⟩
      rcases hskip with hold | hrefused | htaken
      · exact .inl hold
      · exact .inr (.inl hrefused)
      · exact .inr (.inr (.inl htaken))
  · rw [hnew, activePlan_of_inactive h] at h₁ h₂ h₃ ⊢
    refine ⟨fun _ _ _ => ⟨h₁, h₂, h₃⟩, fun heq => .inr (.inr (.inr heq.symm)), ?_⟩
    rintro (hold | hrefused | htaken | hplan)
    · exact absurd hold hp
    · exact absurd haccepted hrefused
    · exact absurd htaken hfree
    · exact hplan.symm

/-! ### A canceled checkout -/

/-- One organisation with an active subscription on the plan "pro". -/
def proCustomer : Database where
  tables :=
    { organizations := [⟨Uuid.ofNat 1, some "cus_1"⟩]
      subscriptions := [⟨Uuid.ofNat 1, "stripe", "sub_2", "active", "pro", some 100⟩]
      processed_events := [] }
  valid := by decide

theorem otherInactive_proCustomer :
    OtherInactive canceledSnapshot proCustomer (Uuid.ofNat 1)
      ⟨Uuid.ofNat 1, "stripe", "sub_2", "active", "pro", some 100⟩ where
  stored := by decide
  active := by decide
  lifecycle := by decide
  customer := ⟨"cus_1", rfl, _, List.mem_singleton_self _, rfl, rfl⟩
  other := ⟨"sub_1", rfl, by decide⟩
  inactive := ⟨"canceled", rfl, by decide, by decide⟩

/-- The customer's other subscription is active, and the plan is the free one. -/
theorem plan_of_other_subscription_proCustomer :
    require_feature_plan (delivered "stripe" canceledSnapshot proCustomer) (Uuid.ofNat 1) =
      .ok FREE_PLAN := by
  have hnew : ¬ proCustomer.Processed "stripe" canceledSnapshot := Bool.false_ne_true
  have hfree : ¬ proCustomer.Taken (synced "stripe" canceledSnapshot (Uuid.ofNat 1)
      (some ⟨Uuid.ofNat 1, "stripe", "sub_2", "active", "pro", some 100⟩)) := by
    unfold Database.Taken
    decide
  have haccepted : Accepted "stripe" canceledSnapshot := by decide
  exact ((plan_of_other_subscription otherInactive_proCustomer).1 hnew haccepted hfree).1

/-- The organisation is on an active "pro" subscription; another subscription of the same
customer is canceled, and the organisation is on the free plan. -/
theorem other_cancellation_ends_plan :
    (∃ sub, OtherInactive canceledSnapshot proCustomer (Uuid.ofNat 1) sub) ∧
      ¬ PlanUnchanged "stripe" canceledSnapshot proCustomer (Uuid.ofNat 1) := by
  refine ⟨⟨_, otherInactive_proCustomer⟩, fun h => ?_⟩
  have hsame := planUnchanged_iff.mp h
  exact absurd hsame (by decide)

end BackendManager.Billing
