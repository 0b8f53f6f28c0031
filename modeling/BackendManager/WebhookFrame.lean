import BackendManager.Billing

/-!
# Whose Subscription a Webhook Event Changes

A delivery ends in one of eight ways, listed by `Outcome`. From that list follows whose
subscription an event changes: the row found by `payments_customer_id = customer_ref`.

For an event without a `customer_ref` that comparison is `IS NULL`, so that it finds the
organisations that have no customer yet. If there is one, its subscription is written; if
there are several, the delivery fails.

Three of the eight are refusals of the database, which take no part of what the event says: the
event is not `Recordable`, nobody can be searched by its customer, or it is not `Writable`. The
route answers them with an error and rolls back, so that such an event is never processed,
however often the provider repeats it.

## Main results

* `outcome`: the ways in which a delivery ends.
* `outcome_of_customer`: which of them are left for a lifecycle event with one owner.
* `framed_iff`: exactly when an event changes only the subscription of the organisation that
  it names, and is handled without error if it names none.
* `unnamed_event_grants`: an event without a customer gives its plan to an organisation
  without one.
* `payments_webhook_of_unrecordable`: an event whose id does not fit is refused, every time.
-/

namespace BackendManager.Billing

open UniqueRows
open Text (Storable)

variable {db db' : Database} {t : Tables} {provider : String} {event : PaymentEvent}
  {org : Uuid} {o : Organization} {row : Subscription} {n : ℕ} {text : Option String}

/-! ### Which events the database takes -/

/-- The columns of `processed_events` hold the row that notes the event. -/
def Recordable (provider : String) (event : PaymentEvent) : Prop :=
  Storable 50 provider ∧ Storable 255 event.event_id

/-- The columns of `subscriptions` hold what the event states. -/
structure Writable (event : PaymentEvent) : Prop where
  subscription_id : ∀ s ∈ event.subscription_id, Storable 255 s
  status : ∀ s ∈ event.status, Storable 50 s
  plan : ∀ s ∈ event.plan, Storable 50 s

instance (provider : String) (event : PaymentEvent) : Decidable (Recordable provider event) :=
  inferInstanceAs (Decidable (_ ∧ _))

instance (event : PaymentEvent) : Decidable (Writable event) :=
  decidable_of_iff ((∀ s ∈ event.subscription_id, Storable 255 s) ∧
      (∀ s ∈ event.status, Storable 50 s) ∧ ∀ s ∈ event.plan, Storable 50 s)
    ⟨fun ⟨h₁, h₂, h₃⟩ => ⟨h₁, h₂, h₃⟩, fun ⟨h₁, h₂, h₃⟩ => ⟨h₁, h₂, h₃⟩⟩

/-- The customer of the event can be searched for. -/
def Searchable (event : PaymentEvent) : Prop := ∀ ref ∈ event.customer_ref, '\x00' ∉ ref.toList

/-- The empty text fits everywhere. -/
theorem storable_empty (n : ℕ) : Storable n "" :=
  ⟨Nat.zero_le _, List.not_mem_nil⟩

/-- A column with a default that fits holds what is stated, or the default. -/
theorem storable_orElse {y : String} (hy : Storable n y) :
    Storable n (orElse text y) ↔ ∀ s ∈ text, Storable n s := by
  cases text with
  | none => exact iff_of_true hy fun s hs => nomatch hs
  | some s =>
      rw [orElse]
      split
      · rename_i hempty
        refine iff_of_true hy fun s' hs' => ?_
        rw [← Option.some.inj hs', hempty]
        exact storable_empty n
      · exact ⟨fun hs s' hs' => Option.some.inj hs' ▸ hs, fun h => h s rfl⟩

/-! ### What a delivery can do -/

/-- The organisations found by the event's customer. -/
def Database.customers (db : Database) (event : PaymentEvent) : List Organization :=
  select Organization.payments_customer_id event.customer_ref db.tables.organizations

/-- The event was processed before. -/
def Database.Processed (db : Database) (provider : String) (event : PaymentEvent) : Prop :=
  db.tables.processed provider event.event_id = true

/-- The row of another organisation has the provider's subscription id. -/
def Database.Taken (db : Database) (row : Subscription) : Prop :=
  ∃ s ∈ db.tables.subscriptions, s.organization_id ≠ row.organization_id ∧
    s.provider_subscription_id = row.provider_subscription_id

/-- The tables after the event has been noted and the row written. -/
def Tables.written (t : Tables) (provider : String) (event : PaymentEvent)
    (row : Subscription) : Tables :=
  { t.addProcessed provider event with
    subscriptions := upsert Subscription.organization_id row t.subscriptions }

/-- The row that the event makes of the subscription of an organisation. -/
def Database.syncedRow (db : Database) (provider : String) (event : PaymentEvent)
    (org : Uuid) : Subscription :=
  synced provider event org (db.subscriptionOf org)

/-- The ways in which a delivery ends. -/
inductive Outcome (provider : String) (event : PaymentEvent) (db : Database) :
    Except Error (Database × Reply) → Prop
  /-- The event was processed before. -/
  | duplicate : db.Processed provider event → Outcome provider event db (.ok (db, .duplicate))
  /-- The event cannot be noted. -/
  | unrecordable : ¬ db.Processed provider event → ¬ Recordable provider event →
      Outcome provider event db (.error .dataError)
  /-- It is noted; it is no lifecycle event, or nobody has its customer. -/
  | noted {db' : Database} : ¬ db.Processed provider event → Recordable provider event →
      (event.event_type ∉ SUBSCRIPTION_EVENTS ∨ db.customers event = [] ∧ Searchable event) →
      db'.tables = db.tables.addProcessed provider event →
      Outcome provider event db (.ok (db', .ok))
  /-- Its customer cannot be searched for. -/
  | unsearchable : ¬ db.Processed provider event → Recordable provider event →
      event.event_type ∈ SUBSCRIPTION_EVENTS → ¬ Searchable event →
      Outcome provider event db (.error .dataError)
  /-- The subscription of the only organisation found is written. -/
  | synced {db' : Database} (o : Organization) : ¬ db.Processed provider event →
      Recordable provider event → event.event_type ∈ SUBSCRIPTION_EVENTS →
      db.customers event = [o] → Writable event →
      ¬ db.Taken (db.syncedRow provider event o.id) →
      db'.tables = db.tables.written provider event (db.syncedRow provider event o.id) →
      Outcome provider event db (.ok (db', .ok))
  /-- What the event states does not fit. -/
  | unwritable (o : Organization) : ¬ db.Processed provider event →
      Recordable provider event → event.event_type ∈ SUBSCRIPTION_EVENTS →
      db.customers event = [o] → ¬ Writable event →
      Outcome provider event db (.error .dataError)
  /-- The subscription id belongs to another organisation. -/
  | taken (o : Organization) : ¬ db.Processed provider event →
      Recordable provider event → event.event_type ∈ SUBSCRIPTION_EVENTS →
      db.customers event = [o] → Writable event →
      db.Taken (db.syncedRow provider event o.id) →
      Outcome provider event db (.error .integrityError)
  /-- Several organisations are found. -/
  | ambiguous (o o' : Organization) (rest : List Organization) :
      ¬ db.Processed provider event → Recordable provider event →
      event.event_type ∈ SUBSCRIPTION_EVENTS → db.customers event = o :: o' :: rest →
      Outcome provider event db (.error .multipleResultsFound)

/-- The row made of an organisation's row is that organisation's. -/
@[simp] theorem synced_organization_id (old : Option Subscription)
    (h : ∀ s, old = some s → s.organization_id = org) :
    (synced provider event org old).organization_id = org := by
  cases old with
  | none => rfl
  | some s => exact h s rfl

theorem Database.subscriptionOf_organization_id {s : Subscription}
    (h : db.subscriptionOf org = some s) : s.organization_id = org := (find_eq_some h).2

theorem Database.syncedRow_organization_id (db : Database) (provider : String)
    (event : PaymentEvent) (org : Uuid) :
    (db.syncedRow provider event org).organization_id = org :=
  synced_organization_id _ fun _ h => Database.subscriptionOf_organization_id h

/-- The columns hold the synced row exactly if they hold what the event states: what it does not
state is stored already, or is a default that fits. -/
theorem stored_syncedRow_iff (hprovider : Storable 50 provider) :
    (db.syncedRow provider event org).Stored ↔ Writable event := by
  rw [Database.syncedRow]
  cases hold : db.subscriptionOf org with
  | none =>
      have hfree : Storable 50 FREE_PLAN := by decide
      constructor
      · rintro ⟨-, hid, hstatus, hplan⟩
        exact ⟨(storable_orElse (storable_empty _)).mp hid,
          (storable_orElse (storable_empty _)).mp hstatus, (storable_orElse hfree).mp hplan⟩
      · rintro ⟨hid, hstatus, hplan⟩
        exact ⟨hprovider, (storable_orElse (storable_empty _)).mpr hid,
          (storable_orElse (storable_empty _)).mpr hstatus, (storable_orElse hfree).mpr hplan⟩
  | some old =>
      have hstored : old.Stored := db.valid.stored.subscriptions old (find_eq_some hold).1
      constructor
      · rintro ⟨-, hid, hstatus, hplan⟩
        exact ⟨(storable_orElse hstored.provider_subscription_id).mp hid,
          (storable_orElse hstored.status).mp hstatus, (storable_orElse hstored.plan).mp hplan⟩
      · rintro ⟨hid, hstatus, hplan⟩
        exact ⟨hprovider, (storable_orElse hstored.provider_subscription_id).mpr hid,
          (storable_orElse hstored.status).mpr hstatus, (storable_orElse hstored.plan).mpr hplan⟩

/-- An event that was processed can be recorded: it is in the table. -/
theorem recordable_of_processed (h : db.Processed provider event) :
    Recordable provider event := by
  obtain ⟨e, he, heq⟩ := List.any_eq_true.mp h
  obtain ⟨hprovider, hid⟩ := of_decide_eq_true heq
  have hstored := db.valid.stored.processed_events e he
  exact ⟨hprovider ▸ hstored.provider, hid ▸ hstored.event_id⟩

/-- A customer that somebody has can be searched for. -/
theorem searchable_of_customers (h : db.customers event ≠ []) : Searchable event := by
  intro ref href
  obtain ⟨o, ho⟩ := List.exists_mem_of_ne_nil _ h
  obtain ⟨ho, hcustomer⟩ := mem_select.mp ho
  exact (db.valid.stored.payments_customer_id o ho ref (hcustomer.trans href)).2

/-- The names of the event types fit. -/
theorem storable_name (type : EventType) : Storable 100 type.name := by
  cases type <;> decide

/-- The columns hold the rows after an event has been noted exactly if it can be recorded. -/
theorem stored_addProcessed_iff :
    (db.tables.addProcessed provider event).Stored ↔ Recordable provider event := by
  constructor
  · intro h
    have hrow := h.processed_events ⟨provider, event.event_id, event.event_type.name⟩
      (List.mem_append_right _ (List.mem_singleton_self _))
    exact ⟨hrow.provider, hrow.event_id⟩
  · intro h
    refine ⟨db.valid.stored.payments_customer_id, db.valid.stored.subscriptions, fun e he => ?_⟩
    rcases List.mem_append.mp he with he | he
    · exact db.valid.stored.processed_events e he
    · rw [List.mem_singleton.mp he]
      exact ⟨h.1, h.2, storable_name event.event_type⟩

/-- Noting an event that was not processed keeps the constraints if it can be recorded. -/
theorem valid_addProcessed (h : ¬ db.Processed provider event)
    (hrec : Recordable provider event) : (db.tables.addProcessed provider event).Valid := by
  refine ⟨stored_addProcessed_iff.mpr hrec, db.valid.organization, db.valid.payments_customer_id,
    db.valid.subscription, db.valid.provider_subscription_id, db.valid.organization_id, ?_⟩
  refine List.pairwise_append.mpr
    ⟨db.valid.processed_event, List.pairwise_singleton _ _, fun e he e' he' => ?_⟩
  rw [List.mem_singleton.mp he']
  refine .inr fun heq => h ?_
  obtain ⟨hprovider, hid⟩ := Prod.mk.inj (Option.some.inj heq)
  exact List.any_eq_true.mpr ⟨e, he, by simp [hprovider, hid]⟩

/-- The columns hold the rows after a row has been written exactly if they hold that row. -/
theorem stored_written_iff (hrec : Recordable provider event) :
    (db.tables.written provider event row).Stored ↔ row.Stored := by
  constructor
  · intro h
    exact h.subscriptions row (mem_upsert.mpr (.inl rfl))
  · intro h
    refine ⟨db.valid.stored.payments_customer_id, fun s hs => ?_,
      (stored_addProcessed_iff.mpr hrec).processed_events⟩
    rcases mem_upsert.mp hs with rfl | ⟨hs, -⟩
    · exact h
    · exact db.valid.stored.subscriptions s hs

/-- Writing a row that fits for a known organisation keeps the constraints unless the
subscription id is taken. -/
theorem valid_written_iff (h : ¬ db.Processed provider event)
    (hrec : Recordable provider event) (hstored : row.Stored)
    (hknown : ∃ o ∈ db.tables.organizations, o.id = row.organization_id) :
    (db.tables.written provider event row).Valid ↔ ¬ db.Taken row := by
  have hunique := unique_upsert_iff db.valid.subscription db.valid.provider_subscription_id row
  constructor
  · rintro hv ⟨s, hs, hne, heq⟩
    rcases hunique.mp hv.provider_subscription_id s hs hne with hnull | hdiff
    · cases hnull
    · exact hdiff (congrArg some heq.symm)
  · intro hfree
    refine ⟨(stored_written_iff hrec).mpr hstored, db.valid.organization,
      db.valid.payments_customer_id, db.valid.subscription.upsert row,
      hunique.mpr fun s hs hne => .inr fun heq => ?_, fun s hs => ?_,
      (valid_addProcessed h hrec).processed_event⟩
    · exact hfree ⟨s, hs, hne, (Option.some.inj heq).symm⟩
    · rcases mem_upsert.mp hs with rfl | ⟨hs, -⟩
      · exact hknown
      · exact db.valid.organization_id s hs

/-! ### The steps of a delivery -/

/-- `_sync_subscription` cannot search for the customer. -/
theorem sync_subscription_unsearchable (h : ¬ Searchable event) :
    sync_subscription provider event t = .error .dataError := by
  have hsent : sent event.customer_ref = .error .dataError := if_neg h
  rw [sync_subscription, hsent]
  rfl

/-- It finds nobody. -/
theorem sync_subscription_none (hsearch : Searchable event) (h : db.customers event = []) :
    sync_subscription provider event (db.tables.addProcessed provider event) =
      .ok (db.tables.addProcessed provider event) := by
  have hsent : sent event.customer_ref = .ok () := if_pos hsearch
  have hselect : select Organization.payments_customer_id event.customer_ref
      (db.tables.addProcessed provider event).organizations = [] := h
  simp only [sync_subscription, hsent, hselect]
  rfl

/-- It finds one organisation, whose row it writes. -/
theorem sync_subscription_one (h : db.customers event = [o]) :
    sync_subscription provider event (db.tables.addProcessed provider event) =
      .ok (db.tables.written provider event (db.syncedRow provider event o.id)) := by
  have hsearch : Searchable event := searchable_of_customers (by rw [h]; exact List.cons_ne_nil _ _)
  have hsent : sent event.customer_ref = .ok () := if_pos hsearch
  have hselect : select Organization.payments_customer_id event.customer_ref
      (db.tables.addProcessed provider event).organizations = [o] := h
  have hexisting : scalar_one_or_none
      ((db.tables.addProcessed provider event).selectSubscription o.id) =
        .ok (db.subscriptionOf o.id) :=
    scalar_one_or_none_selectSubscription db.valid.subscription o.id
  simp only [sync_subscription, hsent, hselect]
  change (scalar_one_or_none
    ((db.tables.addProcessed provider event).selectSubscription o.id) >>= _) = _
  rw [hexisting]
  rfl

/-- It finds several. -/
theorem sync_subscription_many {o' : Organization} {rest : List Organization}
    (h : db.customers event = o :: o' :: rest) :
    sync_subscription provider event (db.tables.addProcessed provider event) =
      .error .multipleResultsFound := by
  have hsearch : Searchable event := searchable_of_customers (by rw [h]; exact List.cons_ne_nil _ _)
  have hsent : sent event.customer_ref = .ok () := if_pos hsearch
  have hselect : select Organization.payments_customer_id event.customer_ref
      (db.tables.addProcessed provider event).organizations = o :: o' :: rest := h
  simp only [sync_subscription, hsent, hselect]
  rfl

/-- COMMIT of rows that fit. -/
theorem commit_of_stored (h : t.Stored) (hinvalid : ¬ t.Valid) :
    commit t = .error .integrityError := by
  rw [commit, dif_neg hinvalid, if_pos h]

/-- COMMIT of rows one of which does not fit. -/
theorem commit_of_not_stored (h : ¬ t.Stored) : commit t = .error .dataError := by
  rw [commit, dif_neg fun hv => h hv.stored, if_neg h]

/-- The route on an event that was processed. -/
theorem payments_webhook_of_processed (h : db.Processed provider event) :
    payments_webhook provider event db = .ok (db, .duplicate) := by
  obtain ⟨⟨-, hprovider⟩, -, hid⟩ := recordable_of_processed h
  have hsent : sent provider = .ok () := if_pos (by rintro _ ⟨⟩; exact hprovider)
  have hsent' : sent event.event_id = .ok () := if_pos (by rintro _ ⟨⟩; exact hid)
  rw [payments_webhook, hsent, hsent']
  exact if_pos h

/-- The route on a new event that can be recorded. -/
theorem payments_webhook_of_new (h : ¬ db.Processed provider event)
    (hrec : Recordable provider event) :
    payments_webhook provider event db =
      (if event.event_type ∈ SUBSCRIPTION_EVENTS then
          sync_subscription provider event (db.tables.addProcessed provider event)
        else .ok (db.tables.addProcessed provider event)) >>= fun t =>
          commit t >>= fun db' => .ok (db', .ok) := by
  have hsent : sent provider = .ok () := if_pos (by rintro _ ⟨⟩; exact hrec.1.2)
  have hsent' : sent event.event_id = .ok () := if_pos (by rintro _ ⟨⟩; exact hrec.2.2)
  have hflush : (db.tables.addProcessed provider event).flush =
      .ok (db.tables.addProcessed provider event) := if_pos (stored_addProcessed_iff.mpr hrec)
  have hnew : ¬ db.tables.processed provider event.event_id = true := h
  rw [payments_webhook, hsent, hsent']
  change (if db.tables.processed provider event.event_id = true then _ else _) = _
  rw [if_neg hnew, hflush]
  by_cases hsub : event.event_type ∈ SUBSCRIPTION_EVENTS
  · rw [if_pos hsub, if_pos hsub]
    rfl
  · rw [if_neg hsub, if_neg hsub]
    rfl

/-- The route on an event that cannot be recorded. -/
theorem payments_webhook_of_unrecordable (hrec : ¬ Recordable provider event) :
    payments_webhook provider event db = .error .dataError := by
  have hnew : ¬ db.tables.processed provider event.event_id = true := fun h =>
    hrec (recordable_of_processed h)
  have hstored : ¬ (db.tables.addProcessed provider event).Stored := fun h =>
    hrec (stored_addProcessed_iff.mp h)
  have hflush : (db.tables.addProcessed provider event).flush = .error .dataError := if_neg hstored
  have hcommit := commit_of_not_stored hstored
  rw [payments_webhook]
  by_cases hprovider : ∀ s ∈ (some provider), '\x00' ∉ s.toList
  swap
  · have hsent : sent provider = .error .dataError := if_neg hprovider
    rw [hsent]
    rfl
  have hsent : sent provider = .ok () := if_pos hprovider
  rw [hsent]
  by_cases hid : ∀ s ∈ (some event.event_id), '\x00' ∉ s.toList
  swap
  · have hsent' : sent event.event_id = .error .dataError := if_neg hid
    rw [hsent']
    rfl
  have hsent' : sent event.event_id = .ok () := if_pos hid
  rw [hsent']
  change (if db.tables.processed provider event.event_id = true then _ else _) = _
  rw [if_neg hnew, hflush]
  by_cases hsub : event.event_type ∈ SUBSCRIPTION_EVENTS
  · rw [if_pos hsub]
    rfl
  · rw [if_neg hsub]
    change (commit _ >>= _) = _
    rw [hcommit]
    rfl

/-- **The eight outcomes are all there are.** -/
theorem outcome (provider : String) (event : PaymentEvent) (db : Database) :
    Outcome provider event db (payments_webhook provider event db) := by
  by_cases hp : db.Processed provider event
  · rw [payments_webhook_of_processed hp]
    exact .duplicate hp
  by_cases hrec : Recordable provider event
  swap
  · rw [payments_webhook_of_unrecordable hrec]
    exact .unrecordable hp hrec
  have hnoted : commit (db.tables.addProcessed provider event) =
      .ok ⟨_, valid_addProcessed hp hrec⟩ := dif_pos _
  rw [payments_webhook_of_new hp hrec]
  by_cases hsub : event.event_type ∈ SUBSCRIPTION_EVENTS
  swap
  · rw [if_neg hsub]
    change Outcome _ _ _ (commit _ >>= _)
    rw [hnoted]
    exact .noted hp hrec (.inl hsub) rfl
  rw [if_pos hsub]
  by_cases hsearch : Searchable event
  swap
  · rw [sync_subscription_unsearchable hsearch]
    exact .unsearchable hp hrec hsub hsearch
  match hc : db.customers event with
  | [] =>
      rw [sync_subscription_none hsearch hc]
      change Outcome _ _ _ (commit _ >>= _)
      rw [hnoted]
      exact .noted hp hrec (.inr ⟨hc, hsearch⟩) rfl
  | o :: o' :: rest =>
      rw [sync_subscription_many hc]
      exact .ambiguous o o' rest hp hrec hsub hc
  | [o] =>
      rw [sync_subscription_one hc]
      change Outcome _ _ _ (commit _ >>= _)
      have hstored : (db.tables.written provider event (db.syncedRow provider event o.id)).Stored ↔
          Writable event := (stored_written_iff hrec).trans (stored_syncedRow_iff hrec.1)
      by_cases hwritable : Writable event
      swap
      · rw [commit_of_not_stored fun h => hwritable (hstored.mp h)]
        exact .unwritable o hp hrec hsub hc hwritable
      have hknown : ∃ o' ∈ db.tables.organizations,
          o'.id = (db.syncedRow provider event o.id).organization_id := by
        have ho : o ∈ db.customers event := by rw [hc]; exact List.mem_singleton_self o
        exact ⟨o, (mem_select.mp ho).1, (db.syncedRow_organization_id provider event o.id).symm⟩
      have hvalid := valid_written_iff hp hrec ((stored_syncedRow_iff hrec.1).mpr hwritable) hknown
      by_cases htaken : db.Taken (db.syncedRow provider event o.id)
      · rw [commit_of_stored (hstored.mpr hwritable) fun hv => hvalid.mp hv htaken]
        exact .taken o hp hrec hsub hc hwritable htaken
      · rw [commit, dif_pos (hvalid.mpr htaken)]
        exact .synced o hp hrec hsub hc hwritable htaken rfl

theorem delivered_ok {reply : Reply} (h : payments_webhook provider event db = .ok (db', reply)) :
    delivered provider event db = db' := by
  rw [delivered, h]

theorem delivered_error {error : Error} (h : payments_webhook provider event db = .error error) :
    delivered provider event db = db := by
  rw [delivered, h]

/-- The database takes the event: it can be noted, and its columns can be written. -/
def Accepted (provider : String) (event : PaymentEvent) : Prop :=
  Recordable provider event ∧ Writable event

instance (provider : String) (event : PaymentEvent) : Decidable (Accepted provider event) :=
  inferInstanceAs (Decidable (_ ∧ _))

/-- **The outcomes for a lifecycle event with one owner**: it was processed before, or the
owner's subscription is written, or the database does not take it or its subscription id is
taken, and the delivery fails. -/
theorem outcome_of_customer (hsub : event.event_type ∈ SUBSCRIPTION_EVENTS)
    (hc : db.customers event = [o]) :
    (db.Processed provider event ∧
        payments_webhook provider event db = .ok (db, .duplicate)) ∨
      (¬ db.Processed provider event ∧ Accepted provider event ∧
        ¬ db.Taken (db.syncedRow provider event o.id) ∧
        ∃ db', payments_webhook provider event db = .ok (db', .ok) ∧
          db'.tables = db.tables.written provider event (db.syncedRow provider event o.id)) ∨
      (¬ db.Processed provider event ∧ ¬ Accepted provider event ∧
        payments_webhook provider event db = .error .dataError) ∨
      (¬ db.Processed provider event ∧ Accepted provider event ∧
        db.Taken (db.syncedRow provider event o.id) ∧
        payments_webhook provider event db = .error .integrityError) := by
  have hone : ∀ {o'}, db.customers event = [o'] → o' = o := fun hc' =>
    (List.cons.inj (hc'.symm.trans hc)).1
  have hsome : db.customers event ≠ [] := by
    rw [hc]
    exact List.cons_ne_nil _ _
  have hout := outcome provider event db
  generalize payments_webhook provider event db = result at hout ⊢
  cases hout with
  | duplicate hp => exact .inl ⟨hp, rfl⟩
  | unrecordable hp hrec => exact .inr (.inr (.inl ⟨hp, fun h => hrec h.1, rfl⟩))
  | noted hp _ hnone ht =>
      rcases hnone with hno | ⟨hempty, -⟩
      · exact absurd hsub hno
      · exact absurd hempty hsome
  | unsearchable hp _ _ hsearch => exact absurd (searchable_of_customers hsome) hsearch
  | @synced db' o' hp hrec _ hc' hwritable hfree ht =>
      obtain rfl := hone hc'
      exact .inr (.inl ⟨hp, ⟨hrec, hwritable⟩, hfree, db', rfl, ht⟩)
  | unwritable o' hp hrec _ hc' hwritable =>
      exact .inr (.inr (.inl ⟨hp, fun h => hwritable h.2, rfl⟩))
  | taken o' hp hrec _ hc' hwritable htaken =>
      obtain rfl := hone hc'
      exact .inr (.inr (.inr ⟨hp, ⟨hrec, hwritable⟩, htaken, rfl⟩))
  | ambiguous o' o'' rest hp _ _ hc' =>
      rw [hc] at hc'
      cases hc'

/-! ### The frame -/

/-- The event has changed the subscription of the organisation. -/
def Changed (provider : String) (event : PaymentEvent) (db : Database) (org : Uuid) : Prop :=
  (delivered provider event db).subscriptionOf org ≠ db.subscriptionOf org

/-- **The frame condition.** An event changes at most one subscription, that of the
organisation whose customer it names; and one that names no customer changes none and is
handled without error. -/
structure Framed (provider : String) (event : PaymentEvent) (db : Database) : Prop where
  named : ∀ org, Changed provider event db org → ∃ ref, event.customer_ref = some ref ∧
    ∃ o ∈ db.tables.organizations, o.id = org ∧ o.payments_customer_id = some ref
  one : ∀ org org', Changed provider event db org → Changed provider event db org' → org = org'
  unnamed : event.event_type ∈ SUBSCRIPTION_EVENTS → event.customer_ref = none →
    (payments_webhook provider event db).isOk = true ∧ ∀ org, ¬ Changed provider event db org

/-- The event names a customer, or does nothing: it is no lifecycle event, or was processed
before, or it can be recorded, and every organisation has a customer, or the only one without
has a subscription that says already what the event says. -/
def Harmless (provider : String) (event : PaymentEvent) (db : Database) : Prop :=
  event.customer_ref ≠ none ∨ event.event_type ∉ SUBSCRIPTION_EVENTS ∨
    db.Processed provider event ∨ Recordable provider event ∧ (db.customers event = [] ∨
      ∃ o, db.customers event = [o] ∧
        db.subscriptionOf o.id = some (db.syncedRow provider event o.id))

/-- The subscriptions after a row has been written. -/
theorem subscriptionOf_written (ht : db'.tables = db.tables.written provider event row)
    (org : Uuid) :
    db'.subscriptionOf org =
      if org = row.organization_id then some row else db.subscriptionOf org := by
  rw [Database.subscriptionOf, ht]
  exact find_upsert row db.tables.subscriptions org

/-- **What a delivery does to the subscriptions**: nothing, or it writes the row of the only
organisation found. -/
theorem subscriptionOf_delivered (provider : String) (event : PaymentEvent) (db : Database) :
    (∀ org, (delivered provider event db).subscriptionOf org = db.subscriptionOf org) ∨
      ∃ o, ¬ db.Processed provider event ∧ event.event_type ∈ SUBSCRIPTION_EVENTS ∧
        db.customers event = [o] ∧ ¬ db.Taken (db.syncedRow provider event o.id) ∧
        ∀ org, (delivered provider event db).subscriptionOf org =
          if org = o.id then some (db.syncedRow provider event o.id)
          else db.subscriptionOf org := by
  have hout := outcome provider event db
  unfold delivered
  generalize payments_webhook provider event db = result at hout ⊢
  cases hout with
  | @noted db' hp _ hnone ht =>
      refine .inl fun org => ?_
      change db'.subscriptionOf org = db.subscriptionOf org
      rw [Database.subscriptionOf, ht]
      rfl
  | synced o hp _ hsub hc _ hfree ht =>
      refine .inr ⟨o, hp, hsub, hc, hfree, fun org => ?_⟩
      rw [← db.syncedRow_organization_id provider event o.id]
      simpa only [Database.syncedRow_organization_id] using subscriptionOf_written ht org
  | duplicate | unrecordable | unsearchable | unwritable | taken | ambiguous =>
      exact .inl fun _ => rfl

/-- An organisation found by a customer is the one that has it. -/
theorem customer_of_found {ref : String} (hc : db.customers event = [o])
    (href : event.customer_ref = some ref) :
    o ∈ db.tables.organizations ∧ o.payments_customer_id = some ref := by
  have ho : o ∈ db.customers event := by rw [hc]; exact List.mem_singleton_self o
  rw [← href]
  exact mem_select.mp ho

/-- An event that names a customer finds one organisation at most. -/
theorem framed_of_named (h : event.customer_ref ≠ none) : Framed provider event db := by
  obtain ⟨ref, href⟩ := Option.ne_none_iff_exists'.mp h
  rcases subscriptionOf_delivered provider event db with
    hsame | ⟨o, -, -, hc, -, hwritten⟩
  · exact ⟨fun org hch => absurd (hsame org) hch, fun org _ hch => absurd (hsame org) hch,
      fun _ hnone => absurd hnone h⟩
  · have hchanged : ∀ org, Changed provider event db org → org = o.id := by
      intro org hch
      by_contra hne
      exact hch (by rw [hwritten org, if_neg hne])
    obtain ⟨ho, hcustomer⟩ := customer_of_found hc href
    exact ⟨fun org hch => ⟨ref, href, o, ho, (hchanged org hch).symm, hcustomer⟩,
      fun org org' hch hch' => (hchanged org hch).trans (hchanged org' hch').symm,
      fun _ hnone => absurd hnone h⟩

/-- A delivery that changes nothing and does not fail. -/
theorem framed_of_unchanged (hok : (payments_webhook provider event db).isOk = true)
    (h : ∀ org, (delivered provider event db).subscriptionOf org = db.subscriptionOf org) :
    Framed provider event db :=
  ⟨fun org hch => absurd (h org) hch, fun org _ hch => absurd (h org) hch,
    fun _ _ => ⟨hok, fun org hch => hch (h org)⟩⟩

/-- The subscription id of a row in the table belongs to its organisation. -/
theorem not_taken_of_subscriptionOf (h : db.subscriptionOf org = some row) : ¬ db.Taken row := by
  rintro ⟨s, hs, hne, heq⟩
  have hrow : row ∈ db.tables.subscriptions := (find_eq_some h).1
  have hsame := db.valid.provider_subscription_id.eq_of_mem hs hrow (congrArg some heq) rfl
  exact hne (by rw [hsame])

/-- An event without a customer that satisfies the frame condition does nothing. -/
theorem harmless_of_framed (hnamed : event.customer_ref = none)
    (hf : Framed provider event db) : Harmless provider event db := by
  by_cases hsub : event.event_type ∈ SUBSCRIPTION_EVENTS
  swap
  · exact .inr (.inl hsub)
  obtain ⟨hok, hsame⟩ := hf.unnamed hsub hnamed
  have hout := outcome provider event db
  generalize hr : payments_webhook provider event db = result at hout hok
  cases hout with
  | duplicate hp => exact .inr (.inr (.inl hp))
  | noted hp hrec hnone ht =>
      rcases hnone with hno | ⟨hc, -⟩
      · exact absurd hsub hno
      · exact .inr (.inr (.inr ⟨hrec, .inl hc⟩))
  | synced o hp hrec hsub hc hwritable hfree ht =>
      refine .inr (.inr (.inr ⟨hrec, .inr ⟨o, hc, ?_⟩⟩))
      have hrow := subscriptionOf_written ht o.id
      rw [Database.syncedRow_organization_id, if_pos rfl, ← delivered_ok hr] at hrow
      exact (not_not.mp (hsame o.id)).symm.trans hrow
  | unrecordable | unsearchable | unwritable | taken | ambiguous => cases hok

/-- A delivery whose event was processed, or need not be synced, satisfies the condition. -/
theorem framed_of_nobody (h : event.event_type ∉ SUBSCRIPTION_EVENTS ∨
    db.Processed provider event ∨
      Recordable provider event ∧ Searchable event ∧ db.customers event = []) :
    Framed provider event db := by
  have hout := outcome provider event db
  rcases subscriptionOf_delivered provider event db with hsame | ⟨o, hp, hsub, hc, -⟩
  · refine ⟨fun org hch => absurd (hsame org) hch, fun org _ hch => absurd (hsame org) hch,
      fun hsub _ => ⟨?_, fun org hch => hch (hsame org)⟩⟩
    generalize payments_webhook provider event db = result at hout
    cases hout with
    | duplicate | noted | synced => rfl
    | unrecordable hp hrec =>
        rcases h with hno | hold | ⟨hrec', -⟩
        · exact absurd hsub hno
        · exact absurd hold hp
        · exact absurd hrec' hrec
    | unsearchable hp _ _ hsearch =>
        rcases h with hno | hold | ⟨-, hsearch', -⟩
        · exact absurd hsub hno
        · exact absurd hold hp
        · exact absurd hsearch' hsearch
    | unwritable o hp _ _ hc | taken o hp _ _ hc | ambiguous o _ _ hp _ _ hc =>
        rcases h with hno | hold | ⟨-, -, hempty⟩
        · exact absurd hsub hno
        · exact absurd hold hp
        · rw [hc] at hempty
          cases hempty
  · rcases h with hno | hold | ⟨-, -, hempty⟩
    · exact absurd hsub hno
    · exact absurd hold hp
    · rw [hc] at hempty
      cases hempty

/-- A stored row states what the columns hold, and so does an event that would write it again. -/
theorem writable_of_stored (hrec : Recordable provider event)
    (hrow : db.subscriptionOf org = some (db.syncedRow provider event org)) : Writable event :=
  (stored_syncedRow_iff hrec.1).mp (db.valid.stored.subscriptions _ (find_eq_some hrow).1)

/-- A delivery that writes what the owner's subscription says already satisfies it, too. -/
theorem framed_of_same (hrec : Recordable provider event) (hc : db.customers event = [o])
    (hrow : db.subscriptionOf o.id = some (db.syncedRow provider event o.id)) :
    Framed provider event db := by
  by_cases hsub : event.event_type ∈ SUBSCRIPTION_EVENTS
  swap
  · exact framed_of_nobody (.inl hsub)
  rcases outcome_of_customer hsub hc with
    ⟨hp, -⟩ | ⟨-, -, -, db', hr, ht⟩ | ⟨-, hrefused, -⟩ | ⟨-, -, htaken, -⟩
  · exact framed_of_nobody (.inr (.inl hp))
  · refine framed_of_unchanged (by rw [hr]; rfl) fun org => ?_
    rw [delivered_ok hr, subscriptionOf_written ht, Database.syncedRow_organization_id]
    split
    · rename_i horg
      rw [horg, hrow]
    · rfl
  · exact absurd ⟨hrec, writable_of_stored hrec hrow⟩ hrefused
  · exact absurd htaken (not_taken_of_subscriptionOf hrow)

/-- An event that names a customer or does nothing satisfies the frame condition. -/
theorem framed_of_harmless (hh : Harmless provider event db) : Framed provider event db := by
  by_cases hnamed : event.customer_ref = none
  swap
  · exact framed_of_named hnamed
  have hsearch : Searchable event := by
    intro ref href
    rw [hnamed] at href
    cases href
  rcases hh with hne | hno | hold | ⟨hrec, hempty | ⟨o, hc, hrow⟩⟩
  · exact absurd hnamed hne
  · exact framed_of_nobody (.inl hno)
  · exact framed_of_nobody (.inr (.inl hold))
  · exact framed_of_nobody (.inr (.inr ⟨hrec, hsearch, hempty⟩))
  · exact framed_of_same hrec hc hrow

/-- **When the frame condition holds.** For every database and event, exactly if the event
names a customer or does nothing. -/
theorem framed_iff (provider : String) (event : PaymentEvent) (db : Database) :
    Framed provider event db ↔ Harmless provider event db := by
  refine ⟨fun hf => ?_, framed_of_harmless⟩
  by_cases hnamed : event.customer_ref = none
  · exact harmless_of_framed hnamed hf
  · exact .inl hnamed

/-! ### Events without a customer -/

/-- Two organisations, one of them without a customer and without a subscription. -/
def twoOrganizations : Database where
  tables :=
    { organizations := [⟨Uuid.ofNat 1, some "cus_1"⟩, ⟨Uuid.ofNat 2, none⟩]
      subscriptions := []
      processed_events := [] }
  valid := by decide

/-- A new subscription whose provider object carries no customer. -/
def unnamedEvent : PaymentEvent where
  event_id := "evt_1"
  event_type := .created
  subscription_id := some "sub_9"
  status := some "active"
  plan := some "pro"
  period_end := none
  customer_ref := none

/-- The event gives its plan to the organisation that has no customer. -/
theorem unnamed_event_grants :
    ¬ Framed "stripe" unnamedEvent twoOrganizations ∧
      twoOrganizations.subscriptionOf (Uuid.ofNat 2) = none ∧
      (delivered "stripe" unnamedEvent twoOrganizations).subscriptionOf (Uuid.ofNat 2) =
        some ⟨Uuid.ofNat 2, "stripe", "sub_9", "active", "pro", none⟩ := by
  refine ⟨fun hf => ?_, by decide, by decide⟩
  have hsame := (hf.unnamed (by decide) rfl).2 (Uuid.ofNat 2)
  exact hsame (by unfold Changed; decide)

end BackendManager.Billing
