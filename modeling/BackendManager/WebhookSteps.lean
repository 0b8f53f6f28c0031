import BackendManager.WebhookStatements

/-!
# What One Action of a Delivery Can Do

The statements of `BackendManager.WebhookStatements`, inverted once. A delivery that goes on
writes at most one row of each table; every violation ends it with a rollback.

A delivery looks for its event, inserts the row of it, and then, if the event is one of a
subscription's life, looks for the organisation and for its subscription and writes the latter.
From the insert on it holds the row of the event, and it is this row that makes a second
delivery of the same event wait, and then fail.

## Main results

* `step_of_exec`: every action is one of the cases of `Step`.
* `exec_cases`: an action changes the uncommitted rows of its delivery alone, or is the
  commit of a delivery that answers `ok`.
-/

namespace BackendManager.Billing.Webhook

open ReadCommitted Interleaving

variable {T : Type} [DecidableEq T] {organizations : List Organization} {t : T}
  {db db' : Tables T} {a : Act} {p p' : Proc} {δ : Delivery} {org : Uuid}
  {read new found row : Subscription} {target : Target}

/-- From `db` to `db'` only the uncommitted rows of `t` have changed. -/
structure Private (t : T) (db db' : Tables T) : Prop where
  processed_events : Table.Private t db.processed_events db'.processed_events
  subscriptions : Table.Private t db.subscriptions db'.subscriptions
  provider_subscription_ids :
    Table.Private t db.provider_subscription_ids db'.provider_subscription_ids

theorem Private.refl (t : T) (db : Tables T) : Private t db db := ⟨.refl t _, .refl t _, .refl t _⟩

theorem Private.of_rollback (t : T) (db : Tables T) : Private t db (db.rollback t) :=
  ⟨.of_rollback t _, .of_rollback t _, .of_rollback t _⟩

/-! ### The statements that write a subscription -/

/-- A successful `INSERT` of a subscription. -/
theorem insertSubscription_ok (h : insertSubscription t db org row = some (.ok db')) :
    ∃ subscriptions ids, db.subscriptions.view t org = none ∧
      db.subscriptions.put t org (some row) = some subscriptions ∧
      Table.Private t db.provider_subscription_ids ids ∧
      db' = { db with subscriptions := subscriptions, provider_subscription_ids := ids } := by
  rw [insertSubscription] at h
  split at h
  · rename_i subscriptions ids hsubs hids
    obtain rfl := Except.ok.inj (Option.some.inj h)
    obtain ⟨hv, hput⟩ := Table.insert_eq_ok_iff.mp hsubs
    exact ⟨subscriptions, ids, hv, hput, .of_put (Table.insert_eq_ok_iff.mp hids).2, rfl⟩
  · cases h
  · cases h
  · cases h

/-- Moving an index entry writes the index alone. -/
theorem private_of_moveId {ids ids' : Table T String Uuid}
    (h : moveId t ids org found row = some (.ok ids')) : Table.Private t ids ids' := by
  rw [moveId] at h
  split at h
  · obtain rfl := Except.ok.inj (Option.some.inj h)
    exact .refl t ids
  · obtain ⟨ids₁, hput, h⟩ := Option.bind_eq_some_iff.mp h
    exact (Table.Private.of_put hput).trans (.of_put (Table.insert_eq_ok_iff.mp h).2)

/-- A successful `UPDATE` of a subscription. -/
theorem updateSubscription_ok (h : updateSubscription t db org read new = some (.ok db')) :
    ∃ found subscriptions ids, db.subscriptions.view t org = some found ∧
      db.subscriptions.put t org (some (assign read new found)) = some subscriptions ∧
      Table.Private t db.provider_subscription_ids ids ∧
      db' = { db with subscriptions := subscriptions, provider_subscription_ids := ids } := by
  rw [updateSubscription] at h
  split at h
  · cases h
  · rename_i found hfound
    obtain ⟨subscriptions, hput, h⟩ := Option.bind_eq_some_iff.mp h
    obtain ⟨x, hx, h⟩ := Option.map_eq_some_iff.mp h
    cases x with
    | ok ids =>
        obtain rfl := Except.ok.inj h
        exact ⟨found, subscriptions, ids, hfound, hput, private_of_moveId hx, rfl⟩
    | error e => cases h

/-! ### Steps -/

/-- What one action can do, branch by branch. -/
inductive Step (organizations : List Organization) (t : T) (db : Tables T) :
    Act → Proc → Tables T → Proc → Prop
  | deliver {δ : Delivery} : Step organizations t db (.deliver δ) .idle db (.received δ)
  /-- A failure, or a violation. -/
  | rollback {a : Act} {p : Proc} {δ : Delivery} :
      Step organizations t db a p (db.rollback t) (.raised δ)
  | duplicate {δ : Delivery} {type : String}
      (found : db.processed_events.view t δ.key = some type) :
      Step organizations t db .stmt (.received δ) (db.rollback t) (.returned δ .duplicate)
  | unseen {δ : Delivery} : Step organizations t db .stmt (.received δ) db (.added δ)
  | insertProcessed {δ : Delivery} {processed : Table T (String × String) String}
      (absent : db.processed_events.view t δ.key = none)
      (put : db.processed_events.put t δ.key (some δ.event.event_type.name) = some processed) :
      Step organizations t db .stmt (.added δ) { db with processed_events := processed }
        (if δ.event.event_type ∈ SUBSCRIPTION_EVENTS then .selectOrganization δ
          else .commit δ none)
  | organization {δ : Delivery} {org : Organization}
      (found : scalar_one_or_none (UniqueRows.select Organization.payments_customer_id
        δ.event.customer_ref organizations) = .ok (some org)) :
      Step organizations t db .stmt (.selectOrganization δ) db (.selectSubscription δ org.id)
  | nobody {δ : Delivery}
      (absent : scalar_one_or_none (UniqueRows.select Organization.payments_customer_id
        δ.event.customer_ref organizations) = .ok none) :
      Step organizations t db .stmt (.selectOrganization δ) db (.commit δ none)
  | selectSubscription {δ : Delivery} {org : Uuid} :
      Step organizations t db .stmt (.selectSubscription δ org) db
        (.syncing δ ⟨org, db.subscriptions.view t org⟩)
  | insert {δ : Delivery} {org : Uuid} {subscriptions : Table T Uuid Subscription}
      {ids : Table T String Uuid} (absent : db.subscriptions.view t org = none)
      (put : db.subscriptions.put t org (some (synced δ.provider δ.event org none)) =
        some subscriptions) (index : Table.Private t db.provider_subscription_ids ids) :
      Step organizations t db .stmt (.syncing δ ⟨org, none⟩)
        { db with subscriptions := subscriptions, provider_subscription_ids := ids }
        (.commit δ (some ⟨org, none⟩))
  /-- No column differs from the row that was read. -/
  | unchanged {δ : Delivery} {org : Uuid} {read : Subscription}
      (same : synced δ.provider δ.event org (some read) = read) :
      Step organizations t db .stmt (.syncing δ ⟨org, some read⟩) db
        (.commit δ (some ⟨org, some read⟩))
  | update {δ : Delivery} {org : Uuid} {read row : Subscription}
      {subscriptions : Table T Uuid Subscription} {ids : Table T String Uuid}
      (found : db.subscriptions.view t org = some row)
      (put : db.subscriptions.put t org
        (some (assign read (synced δ.provider δ.event org (some read)) row)) =
          some subscriptions) (index : Table.Private t db.provider_subscription_ids ids) :
      Step organizations t db .stmt (.syncing δ ⟨org, some read⟩)
        { db with subscriptions := subscriptions, provider_subscription_ids := ids }
        (.commit δ (some ⟨org, some read⟩))
  | commit {δ : Delivery} {target : Option Target} :
      Step organizations t db .stmt (.commit δ target) (db.commit t) (.returned δ .ok)

/-- The `INSERT` of a `ProcessedEvent` writes its row under an unused key, or ends the
delivery. -/
theorem step_of_insertProcessed (h : insertProcessed t db δ = some (db', p')) :
    Step organizations t db .stmt (.added δ) db' p' := by
  obtain ⟨x, hx, h⟩ := Option.map_eq_some_iff.mp h
  cases x with
  | ok processed =>
      obtain ⟨rfl, rfl⟩ := Prod.mk.inj h
      obtain ⟨hv, hput⟩ := Table.insert_eq_ok_iff.mp hx
      exact .insertProcessed hv hput
  | error e =>
      obtain ⟨rfl, rfl⟩ := Prod.mk.inj h
      exact .rollback

/-- The `SELECT` of the organisation finds it, finds none, or ends the delivery. -/
theorem step_of_selectOrganization (h : selectOrganization organizations t db δ = (db', p')) :
    Step organizations t db .stmt (.selectOrganization δ) db' p' := by
  rw [selectOrganization] at h
  split at h
  · rename_i org horg
    obtain ⟨rfl, rfl⟩ := Prod.mk.inj h
    exact .organization horg
  · rename_i hnone
    obtain ⟨rfl, rfl⟩ := Prod.mk.inj h
    exact .nobody hnone
  · obtain ⟨rfl, rfl⟩ := Prod.mk.inj h
    exact .rollback

/-- The flush inserts the row, leaves it, updates it, or ends the delivery. -/
theorem step_of_flush (h : flush t db δ target = some (db', p')) :
    Step organizations t db .stmt (.syncing δ target) db' p' := by
  obtain ⟨org, read⟩ := target
  cases read with
  | none =>
      obtain ⟨x, hx, h⟩ := Option.map_eq_some_iff.mp h
      cases x with
      | ok db₁ =>
          obtain ⟨rfl, rfl⟩ := Prod.mk.inj h
          obtain ⟨subscriptions, ids, hv, hput, hids, rfl⟩ := insertSubscription_ok hx
          exact .insert hv hput hids
      | error e =>
          obtain ⟨rfl, rfl⟩ := Prod.mk.inj h
          exact .rollback
  | some read =>
      simp only [flush] at h
      split at h
      · rename_i hsame
        obtain ⟨rfl, rfl⟩ := Prod.mk.inj (Option.some.inj h)
        exact .unchanged hsame
      · obtain ⟨x, hx, h⟩ := Option.map_eq_some_iff.mp h
        cases x with
        | ok db₁ =>
            obtain ⟨rfl, rfl⟩ := Prod.mk.inj h
            obtain ⟨found, subscriptions, ids, hfound, hput, hids, rfl⟩ :=
              updateSubscription_ok hx
            exact .update hfound hput hids
        | error e =>
            obtain ⟨rfl, rfl⟩ := Prod.mk.inj h
            exact .rollback

/-- **Every statement is a step**: the statements of the source, one by one, against the
constructors of `Step`. -/
theorem step_of_stmt (h : stmt organizations t db p = some (db', p')) :
    Step organizations t db .stmt p db' p' := by
  cases p with
  | idle | returned _ _ | raised _ => cases h
  | received δ =>
      simp only [stmt] at h
      split at h
      · rename_i type htype
        obtain ⟨rfl, rfl⟩ := Prod.mk.inj (Option.some.inj h)
        exact .duplicate htype
      · obtain ⟨rfl, rfl⟩ := Prod.mk.inj (Option.some.inj h)
        exact .unseen
  | added δ => exact step_of_insertProcessed h
  | selectOrganization δ => exact step_of_selectOrganization (Option.some.inj h)
  | selectSubscription δ org =>
      obtain ⟨rfl, rfl⟩ := Prod.mk.inj (Option.some.inj h)
      exact .selectSubscription
  | syncing δ target => exact step_of_flush h
  | commit δ target =>
      obtain ⟨rfl, rfl⟩ := Prod.mk.inj (Option.some.inj h)
      exact .commit

/-- **Every action is one of these steps.** -/
theorem step_of_exec (h : exec organizations t a db p = some (db', p')) :
    Step organizations t db a p db' p' := by
  cases a with
  | deliver δ =>
      cases p <;> simp only [exec, reduceCtorEq] at h
      obtain ⟨rfl, rfl⟩ := Prod.mk.inj (Option.some.inj h)
      exact .deliver
  | stmt => exact step_of_stmt h
  | fail =>
      obtain ⟨δ, -, h⟩ := Option.map_eq_some_iff.mp h
      obtain ⟨rfl, rfl⟩ := Prod.mk.inj h
      exact .rollback

/-- An action keeps the committed rows and the writes of the other deliveries, or it is the
commit of a delivery. -/
theorem exec_cases (h : exec organizations t a db p = some (db', p')) :
    (Private t db db' ∧ ∀ δ, p' ≠ .returned δ .ok) ∨
      ∃ δ target, a = .stmt ∧ p = .commit δ target ∧ db' = db.commit t ∧
        p' = .returned δ .ok := by
  cases step_of_exec h with
  | deliver | unseen | organization | nobody | selectSubscription | unchanged =>
      exact .inl ⟨.refl t db, by simp⟩
  | rollback | duplicate => exact .inl ⟨.of_rollback t db, by simp⟩
  | insertProcessed _ hput =>
      refine .inl ⟨⟨.of_put hput, .refl t _, .refl t _⟩, fun δ => ?_⟩
      split <;> simp
  | insert _ hput hids => exact .inl ⟨⟨.refl t _, .of_put hput, hids⟩, by simp⟩
  | update _ hput hids => exact .inl ⟨⟨.refl t _, .of_put hput, hids⟩, by simp⟩
  | commit => exact .inr ⟨_, _, rfl, rfl, rfl, rfl⟩

end BackendManager.Billing.Webhook
