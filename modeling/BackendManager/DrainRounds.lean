import Mathlib.Data.Finset.Card
import BackendManager.Outbox

/-!
# One Drain After the Other

`relay_outbox` as the cron runs it: every drain selects the pending events that are oldest,
at most `limit` of them, deals with each, and commits before the next drain starts. Between
drains producers commit events. That `(source, event_id)` is unique is left out: it can only
make a producer fail.

What a drain meets outside the table is in its `Round`, for each event on its own: the
endpoints, the answers of the queue and the clock can change while the drain is under way.

## Main results

* `row_drain`: a drain deals with the events that it selects, and with no other.
* `Outbox.Sound.afterAll`: all rows stay sound.
* `attempts_of_outage`: while the queue rejects everything, an event that is awaited loses
  one attempt at each drain that selects it.
* `published_of_backlog`: while the queue accepts everything, a pending event is published
  as soon as the drains have room for all events that are no younger.
-/

namespace BackendManager.Webhooks

/-- The committed rows of `outbox_events`. -/
structure Outbox where
  ids : Finset Uuid
  /-- The row under each key; the keys outside `ids` have none. -/
  row : Uuid → OutboxEvent

/-- What one drain meets. -/
structure Round where
  /-- The pending rows in the order of the `SELECT`, before its `LIMIT`. -/
  order : List Uuid
  /-- The rows of `webhook_endpoints` at the `SELECT` for an event. -/
  endpoints : Uuid → List WebhookEndpoint
  /-- The answers of `enqueue_fn` to the deliveries of an event. -/
  enqueue_fn : Uuid → Job → Bool
  /-- The reading of `_utcnow()` for an event. -/
  now : Uuid → ℕ

/-- The rows that the `WHERE` clause of a drain admits. -/
def Outbox.pending (o : Outbox) : Finset Uuid := o.ids.filter fun k => (o.row k).pending

/-- The list has the pending rows, in the order of `created_at`. -/
structure Outbox.IsOrder (o : Outbox) (order : List Uuid) : Prop where
  nodup : order.Nodup
  pending : order.toFinset = o.pending
  sorted : order.Pairwise fun j k => (o.row j).created_at ≤ (o.row k).created_at

instance (o : Outbox) (order : List Uuid) : Decidable (o.IsOrder order) :=
  decidable_of_iff (order.Nodup ∧ order.toFinset = o.pending ∧
      order.Pairwise fun j k => (o.row j).created_at ≤ (o.row k).created_at)
    ⟨fun h => ⟨h.1, h.2.1, h.2.2⟩, fun h => ⟨h.nodup, h.pending, h.sorted⟩⟩

/-- The events that the drain selects. -/
def Round.events (S : Settings) (round : Round) : List Uuid := round.order.take S.limit

/-- Write one row. -/
def Outbox.set (o : Outbox) (k : Uuid) (event : OutboxEvent) : Outbox :=
  { o with row := Function.update o.row k event }

/-- The body of the loop of `drain_outbox`: the new row, and what it adds to `published`. -/
def relayEvent (S : Settings) (round : Round) (k : Uuid) (event : OutboxEvent) :
    OutboxEvent × ℕ :=
  match fan_out (round.enqueue_fn k) (round.endpoints k) event with
  | .ok _ => (event.published (round.now k), 1)
  | .error e => (event.rejected S (round.now k) e, 0)

/-- The loop of `drain_outbox`. -/
def drainEvents (S : Settings) (round : Round) : List Uuid → Outbox → ℕ → Outbox × ℕ
  | [], o, published => (o, published)
  | k :: events, o, published =>
      let (event, n) := relayEvent S round k (o.row k)
      drainEvents S round events (o.set k event) (published + n)

/-- `drain_outbox`: the rows that it commits, and the number that it returns. -/
def drain_outbox (S : Settings) (round : Round) (o : Outbox) : Outbox × ℕ :=
  drainEvents S round (round.events S) o 0

/-- What happens to the outbox. -/
inductive Happening
  /-- A producer commits a new event. -/
  | emit (k : Uuid) (event : OutboxEvent)
  /-- The relay runs. -/
  | drain (round : Round)

/-- The outbox after a happening. -/
def Outbox.after (S : Settings) (o : Outbox) : Happening → Outbox
  | .emit k event => { ids := insert k o.ids, row := Function.update o.row k event }
  | .drain round => (drain_outbox S round o).1

/-- A producer has a new key and the column defaults; a drain orders the pending rows. -/
def Outbox.Admits (o : Outbox) : Happening → Prop
  | .emit k event => k ∉ o.ids ∧ event.fresh = true
  | .drain round => o.IsOrder round.order

instance (o : Outbox) : (h : Happening) → Decidable (o.Admits h)
  | .emit k event => inferInstanceAs (Decidable (k ∉ o.ids ∧ event.fresh = true))
  | .drain round => inferInstanceAs (Decidable (o.IsOrder round.order))

/-- The outbox after all these happenings. -/
def Outbox.afterAll (S : Settings) : Outbox → List Happening → Outbox
  | o, [] => o
  | o, h :: happenings => (o.after S h).afterAll S happenings

/-- Each of the happenings is possible when it comes. -/
def Outbox.AdmitsAll (S : Settings) : Outbox → List Happening → Prop
  | _, [] => True
  | o, h :: happenings => o.Admits h ∧ (o.after S h).AdmitsAll S happenings

instance decidableAdmitsAll (S : Settings) : (o : Outbox) → (happenings : List Happening) →
    Decidable (o.AdmitsAll S happenings)
  | _, [] => inferInstanceAs (Decidable True)
  | o, h :: happenings =>
      have := decidableAdmitsAll S (o.after S h) happenings
      inferInstanceAs (Decidable (o.Admits h ∧ (o.after S h).AdmitsAll S happenings))

/-- A drain selects the event. -/
def Happening.selects (S : Settings) (k : Uuid) : Happening → Bool
  | .emit _ _ => false
  | .drain round => k ∈ round.events S

/-- The relay runs. -/
def Happening.isDrain : Happening → Bool
  | .emit _ _ => false
  | .drain _ => true

/-- A producer commits an event that is created at that time or earlier. -/
def Happening.emitsBy (time : ℕ) : Happening → Bool
  | .emit _ event => event.created_at ≤ time
  | .drain _ => false

/-- The queue rejects every delivery. -/
def Round.Rejects (round : Round) : Prop := ∀ k delivery, round.enqueue_fn k delivery = false

/-- The queue accepts every delivery. -/
def Round.Accepts (round : Round) : Prop := ∀ k delivery, round.enqueue_fn k delivery = true

/-- The queue rejects everything, and some endpoint awaits the event at every drain that
selects it. -/
structure Outage (S : Settings) (k : Uuid) (event : OutboxEvent) (happenings : List Happening) :
    Prop where
  rejects : ∀ round, .drain round ∈ happenings → round.Rejects
  awaited : ∀ round, .drain round ∈ happenings → k ∈ round.events S →
    ∃ e ∈ round.endpoints k, Awaits event e

/-- The queue accepts everything. -/
def Recovery (happenings : List Happening) : Prop :=
  ∀ round, .drain round ∈ happenings → round.Accepts

/-- The pending events besides `k` that are no younger than it. -/
def Outbox.ahead (o : Outbox) (k : Uuid) : Finset Uuid :=
  o.pending.filter fun j => j ≠ k ∧ (o.row j).created_at ≤ (o.row k).created_at

/-- All rows are sound. -/
def Outbox.Sound (S : Settings) (o : Outbox) : Prop := ∀ k ∈ o.ids, (o.row k).Sound S

variable {S : Settings} {o : Outbox} {j k : Uuid} {event : OutboxEvent} {round : Round}
  {order events : List Uuid} {published : ℕ} {h : Happening} {happenings rest : List Happening}

/-- An event is pending in the outbox if its row is there and is neither published nor dead. -/
theorem Outbox.mem_pending : k ∈ o.pending ↔ k ∈ o.ids ∧ (o.row k).pending = true :=
  Finset.mem_filter

/-! ### One drain -/

/-- A drain neither adds a row nor removes one. -/
theorem ids_drainEvents : (drainEvents S round events o published).1.ids = o.ids := by
  induction events generalizing o published with
  | nil => rfl
  | cons k events ih => exact ih

/-- The loop writes each of its rows once. -/
theorem row_drainEvents (hnodup : events.Nodup) :
    (drainEvents S round events o published).1.row k =
      if k ∈ events then (relayEvent S round k (o.row k)).1 else o.row k := by
  induction events generalizing o published with
  | nil => rfl
  | cons j events ih =>
      obtain ⟨hj, hnodup⟩ := List.nodup_cons.mp hnodup
      rw [drainEvents, ih hnodup]
      by_cases hk : k = j
      · subst hk
        simp [hj, Outbox.set]
      · simp [hk, Outbox.set]

/-- A drain takes on pending events only. -/
theorem Outbox.IsOrder.mem_pending (ho : o.IsOrder round.order) (hk : k ∈ round.events S) :
    k ∈ o.pending := by
  rw [← ho.pending, List.mem_toFinset]
  exact List.mem_of_mem_take hk

/-- The same for a whole round. -/
@[simp] theorem ids_drain : (o.after S (.drain round)).ids = o.ids := ids_drainEvents

/-- A drain deals with the events that it selects, and with no other. -/
theorem row_drain (ho : o.IsOrder round.order) :
    (o.after S (.drain round)).row k =
      if k ∈ round.events S then (relayEvent S round k (o.row k)).1 else o.row k :=
  row_drainEvents (ho.nodup.sublist (List.take_sublist _ _))

/-- An event that the round takes on is relayed once, on the row that it has at the beginning. -/
theorem row_drain_of_mem (ho : o.IsOrder round.order) (hk : k ∈ round.events S) :
    (o.after S (.drain round)).row k = (relayEvent S round k (o.row k)).1 := by
  rw [row_drain ho, if_pos hk]

/-- The row of any other event stays as it is. -/
theorem row_drain_of_notMem (ho : o.IsOrder round.order) (hk : k ∉ round.events S) :
    (o.after S (.drain round)).row k = o.row k := by
  rw [row_drain ho, if_neg hk]

/-- If a pending event is not selected, the drain is full of events that are ahead of it. -/
theorem Outbox.IsOrder.events_ahead (ho : o.IsOrder round.order) (hk : k ∈ o.pending)
    (hnot : k ∉ round.events S) :
    (round.events S).length = S.limit ∧ ∀ j ∈ round.events S, j ∈ o.ahead k := by
  have hmem : k ∈ round.order := by
    rw [← List.mem_toFinset, ho.pending]
    exact hk
  have hdrop : k ∈ round.order.drop S.limit := by
    rw [← List.take_append_drop S.limit round.order] at hmem
    exact (List.mem_append.mp hmem).resolve_left hnot
  constructor
  · have hlen : 0 < (round.order.drop S.limit).length := List.length_pos_of_mem hdrop
    rw [List.length_drop] at hlen
    rw [Round.events, List.length_take]
    omega
  · intro j hj
    refine Finset.mem_filter.mpr ⟨ho.mem_pending hj, ?_, ?_⟩
    · rintro rfl
      exact hnot hj
    · exact ho.sorted.rel_of_mem_take_of_mem_drop hj hdrop

/-! ### One event -/

/-- The columns that no drain writes are the same. -/
structure OutboxEvent.SameContent (event event' : OutboxEvent) : Prop where
  source : event'.source = event.source
  event_type : event'.event_type = event.event_type
  organization_id : event'.organization_id = event.organization_id
  created_at : event'.created_at = event.created_at

/-- An event has the content of itself. -/
theorem OutboxEvent.SameContent.refl (event : OutboxEvent) : event.SameContent event :=
  ⟨rfl, rfl, rfl, rfl⟩

/-- An attempt ends in one of two ways: the event is published, or its failure is counted. -/
theorem relayEvent_cases (S : Settings) (round : Round) (k : Uuid) (event : OutboxEvent) :
    relayEvent S round k event = (event.published (round.now k), 1) ∨
      ∃ e, relayEvent S round k event = (event.rejected S (round.now k) e, 0) := by
  rw [relayEvent]
  split
  · exact .inl rfl
  · exact .inr ⟨_, rfl⟩

/-- An attempt changes what is known about the delivery, and nothing of the event's content. -/
theorem sameContent_relayEvent : event.SameContent (relayEvent S round k event).1 := by
  rcases relayEvent_cases S round k event with h | ⟨e, h⟩
  · rw [h]
    exact ⟨rfl, rfl, rfl, rfl⟩
  · rw [h]
    exact ⟨rfl, rfl, rfl, rfl⟩

/-- Contents that are the same, one after the other. -/
theorem OutboxEvent.SameContent.trans {event' event'' : OutboxEvent}
    (h : event.SameContent event') (h' : event'.SameContent event'') :
    event.SameContent event'' :=
  ⟨h'.source.trans h.source, h'.event_type.trans h.event_type,
    h'.organization_id.trans h.organization_id, h'.created_at.trans h.created_at⟩

/-- Which endpoints await an event depends on its content only. -/
theorem OutboxEvent.SameContent.awaits {event' : OutboxEvent} {e : WebhookEndpoint}
    (hsame : event.SameContent event') (h : Awaits event e) : Awaits event' e := by
  refine ⟨?_, h.active, ?_⟩
  · rw [hsame.organization_id]
    exact h.organization_id
  · rw [subscribed, hsame.event_type]
    exact h.subscribed

/-- While the queue accepts everything, the event is published. -/
theorem relayEvent_accepted (h : round.Accepts) :
    relayEvent S round k event = (event.published (round.now k), 1) := by
  obtain ⟨jobs, hjobs⟩ :
      ∃ jobs, fan_out (round.enqueue_fn k) (round.endpoints k) event = .ok jobs :=
    fan_out_accepted (h k)
  rw [relayEvent, hjobs]

/-- While it rejects everything, an event that somebody awaits has its failure counted. -/
theorem relayEvent_rejected (h : round.Rejects) (hsource : event.source = WEBHOOK_SOURCE)
    (hawaits : ∃ e ∈ round.endpoints k, Awaits event e) :
    ∃ e, relayEvent S round k event = (event.rejected S (round.now k) e, 0) := by
  obtain ⟨e, he⟩ := fan_out_rejected (h k) hsource hawaits
  refine ⟨e, ?_⟩
  rw [relayEvent, he]

/-! ### One happening -/

/-- No happening removes a row from the outbox. -/
theorem mem_ids_after (hk : k ∈ o.ids) : k ∈ (o.after S h).ids := by
  cases h with
  | emit j event => exact Finset.mem_insert_of_mem hk
  | drain round =>
      rw [ids_drain]
      exact hk

/-- A producer's row is the event that it has committed. -/
theorem row_emit_self : (o.after S (.emit k event)).row k = event :=
  Function.update_self _ _ _

/-- A new event changes no row that is there. -/
theorem row_emit (hadm : o.Admits (.emit j event)) (hk : k ∈ o.ids) :
    (o.after S (.emit j event)).row k = o.row k := by
  have hne : k ≠ j := by
    rintro rfl
    exact hadm.1 hk
  exact Function.update_of_ne hne _ _

/-- No happening changes the content of an event that is there. -/
theorem sameContent_after (hadm : o.Admits h) (hk : k ∈ o.ids) :
    (o.row k).SameContent ((o.after S h).row k) := by
  cases h with
  | emit j event =>
      rw [row_emit hadm hk]
      exact .refl _
  | drain round =>
      rw [row_drain hadm]
      split
      · exact sameContent_relayEvent
      · exact .refl _

/-- An event that is published or dead-lettered stays as it is. -/
theorem row_after_of_done (hadm : o.Admits h) (hk : k ∈ o.ids)
    (hdone : (o.row k).pending = false) : (o.after S h).row k = o.row k := by
  cases h with
  | emit j event => exact row_emit hadm hk
  | drain round =>
      refine row_drain_of_notMem hadm fun hmem => ?_
      have hpending := (Outbox.mem_pending.mp (hadm.mem_pending hmem)).2
      rw [hdone] at hpending
      cases hpending

/-- **One happening** keeps every row sound: a drain by `OutboxEvent.sound_published` and
`OutboxEvent.sound_rejected`, a producer because it inserts a fresh event. -/
theorem Outbox.Sound.after (hmax : 1 ≤ S.max_attempts) (hs : o.Sound S) (hadm : o.Admits h) :
    (o.after S h).Sound S := by
  intro k hk
  cases h with
  | emit j event =>
      by_cases hkj : k = j
      · rw [hkj, row_emit_self]
        exact OutboxEvent.sound_of_fresh hmax hadm.2
      · have hold : k ∈ o.ids := (Finset.mem_insert.mp hk).resolve_left hkj
        rw [row_emit hadm hold]
        exact hs k hold
  | drain round =>
      rw [ids_drain] at hk
      by_cases hmem : k ∈ round.events S
      · have hpending := (Outbox.mem_pending.mp (hadm.mem_pending hmem)).2
        rw [row_drain_of_mem hadm hmem]
        rcases relayEvent_cases S round k (o.row k) with h | ⟨e, h⟩
        · rw [h]
          exact OutboxEvent.sound_published (hs k hk) hpending
        · rw [h]
          exact OutboxEvent.sound_rejected (hs k hk) hpending
      · rw [row_drain_of_notMem hadm hmem]
        exact hs k hk

/-! ### Runs -/

/-- All rows stay sound. -/
theorem Outbox.Sound.afterAll (hmax : 1 ≤ S.max_attempts) (hs : o.Sound S)
    (hadm : o.AdmitsAll S happenings) : (o.afterAll S happenings).Sound S := by
  induction happenings generalizing o with
  | nil => exact hs
  | cons h happenings ih => exact ih (hs.after hmax hadm.1) hadm.2

/-- Along a history no row is removed. -/
theorem mem_ids_afterAll (hk : k ∈ o.ids) : k ∈ (o.afterAll S happenings).ids := by
  induction happenings generalizing o with
  | nil => exact hk
  | cons h happenings ih => exact ih (mem_ids_after hk)

/-- And no content changes. -/
theorem sameContent_afterAll (hadm : o.AdmitsAll S happenings) (hk : k ∈ o.ids) :
    (o.row k).SameContent ((o.afterAll S happenings).row k) := by
  induction happenings generalizing o with
  | nil => exact .refl _
  | cons h happenings ih =>
      exact (sameContent_after hadm.1 hk).trans (ih hadm.2 (mem_ids_after hk))

/-- An event that is not there yet has not been selected. -/
theorem countP_selects_of_notMem (hadm : o.AdmitsAll S happenings)
    (hk : k ∉ (o.afterAll S happenings).ids) :
    happenings.countP (Happening.selects S k) = 0 := by
  induction happenings generalizing o with
  | nil => rfl
  | cons h happenings ih =>
      have hhead : h.selects S k = false := by
        cases h with
        | emit j event => rfl
        | drain round =>
            refine decide_eq_false fun hmem => hk ?_
            exact mem_ids_afterAll (Outbox.mem_pending.mp (hadm.1.mem_pending hmem)).1
      rw [List.countP_cons, ih hadm.2 hk, hhead]
      rfl

/-- An event that is published or dead-lettered stays as it is for good. -/
theorem row_afterAll_of_done (hadm : o.AdmitsAll S happenings) (hk : k ∈ o.ids)
    (hdone : (o.row k).pending = false) : (o.afterAll S happenings).row k = o.row k := by
  induction happenings generalizing o with
  | nil => rfl
  | cons h happenings ih =>
      have hrow := row_after_of_done (S := S) hadm.1 hk hdone
      have hdone' : ((o.after S h).row k).pending = false := by
        rw [hrow]
        exact hdone
      rw [Outbox.afterAll, ih hadm.2 (mem_ids_after hk) hdone', hrow]

/-- A history may be cut in two. -/
theorem afterAll_append :
    o.afterAll S (happenings ++ rest) = (o.afterAll S happenings).afterAll S rest := by
  induction happenings generalizing o with
  | nil => rfl
  | cons h happenings ih => exact ih

/-- So may what it takes for a history to be possible. -/
theorem admitsAll_append :
    o.AdmitsAll S (happenings ++ rest) ↔
      o.AdmitsAll S happenings ∧ (o.afterAll S happenings).AdmitsAll S rest := by
  induction happenings generalizing o with
  | nil => exact (true_and _).symm.to_iff
  | cons h happenings ih =>
      rw [List.cons_append, Outbox.AdmitsAll, Outbox.AdmitsAll, ih, and_assoc]
      rfl

/-! ### The queue is down -/

/-- The rest of an outage is an outage. -/
theorem Outage.tail (ho : Outage S k event (h :: happenings)) : Outage S k event happenings :=
  ⟨fun round hround => ho.rejects round (List.mem_cons_of_mem _ hround),
    fun round hround => ho.awaited round (List.mem_cons_of_mem _ hround)⟩

/-- While the queue is down, a happening costs the event one attempt if it selects it, and
does not publish it. -/
theorem Outage.step (ho : Outage S k event (h :: happenings)) (hadm : o.Admits h)
    (hk : k ∈ o.ids) (hsame : event.SameContent (o.row k))
    (hsource : event.source = WEBHOOK_SOURCE) :
    ((o.after S h).row k).attempts =
        (o.row k).attempts + (if h.selects S k = true then 1 else 0) ∧
      ((o.after S h).row k).published_at = (o.row k).published_at := by
  cases h with
  | emit j event' =>
      rw [row_emit hadm hk]
      exact ⟨rfl, rfl⟩
  | drain round =>
      have hround : .drain round ∈ .drain round :: happenings := List.mem_cons_self
      by_cases hmem : k ∈ round.events S
      · obtain ⟨e, he, hawaits⟩ := ho.awaited round hround hmem
        obtain ⟨e', hrow⟩ := relayEvent_rejected (S := S) (k := k) (ho.rejects round hround)
          (hsame.source.trans hsource) ⟨e, he, hsame.awaits hawaits⟩
        rw [row_drain_of_mem hadm hmem, hrow]
        simp [Happening.selects, hmem, OutboxEvent.rejected]
      · rw [row_drain_of_notMem hadm hmem]
        simp [Happening.selects, hmem]

/-- An outage costs the event one attempt for each drain that selects it, and does not publish
it. -/
theorem attempts_of_outage (ho : Outage S k event happenings)
    (hadm : o.AdmitsAll S happenings) (hk : k ∈ o.ids) (hsame : event.SameContent (o.row k))
    (hsource : event.source = WEBHOOK_SOURCE) :
    ((o.afterAll S happenings).row k).attempts =
        (o.row k).attempts + happenings.countP (Happening.selects S k) ∧
      ((o.afterAll S happenings).row k).published_at = (o.row k).published_at := by
  induction happenings generalizing o with
  | nil => exact ⟨rfl, rfl⟩
  | cons h happenings ih =>
      obtain ⟨hattempts, hpublished⟩ := ho.step hadm.1 hk hsame hsource
      obtain ⟨hattempts', hpublished'⟩ := ih ho.tail hadm.2 (mem_ids_after hk)
        (hsame.trans (sameContent_after hadm.1 hk))
      rw [Outbox.afterAll, List.countP_cons]
      refine ⟨?_, hpublished'.trans hpublished⟩
      omega

/-! ### The queue is back -/

/-- The rest of a recovery is a recovery. -/
theorem Recovery.tail (hr : Recovery (h :: happenings)) : Recovery happenings :=
  fun round hround => hr round (List.mem_cons_of_mem _ hround)

/-- A new event is ahead of `k` at most if it is no younger. -/
theorem card_ahead_emit (hadm : o.Admits (.emit j event)) (hk : k ∈ o.ids) :
    ((o.after S (.emit j event)).ahead k).card ≤
      (o.ahead k).card +
        (if (Happening.emit j event).emitsBy (o.row k).created_at then 1 else 0) := by
  have hrow := row_emit (S := S) hadm hk
  have hsub : (o.after S (.emit j event)).ahead k ⊆
      if (Happening.emit j event).emitsBy (o.row k).created_at then insert j (o.ahead k)
      else o.ahead k := by
    intro i hi
    obtain ⟨hpending, hne, hle⟩ := Finset.mem_filter.mp hi
    obtain ⟨hids, hpending⟩ := Outbox.mem_pending.mp hpending
    rw [hrow] at hle
    by_cases hij : i = j
    · subst hij
      rw [row_emit_self] at hle
      rw [if_pos (by simpa [Happening.emitsBy] using hle)]
      exact Finset.mem_insert_self _ _
    · have hi' : i ∈ o.ids := (Finset.mem_insert.mp hids).resolve_left hij
      rw [row_emit hadm hi'] at hle hpending
      have hahead : i ∈ o.ahead k :=
        Finset.mem_filter.mpr ⟨Outbox.mem_pending.mpr ⟨hi', hpending⟩, hne, hle⟩
      split
      · exact Finset.mem_insert_of_mem hahead
      · exact hahead
  refine (Finset.card_le_card hsub).trans ?_
  split
  · exact Finset.card_insert_le _ _
  · exact le_rfl

/-- A drain that does not select `k` publishes `limit` events that are ahead of it. -/
theorem card_ahead_drain (hadm : o.IsOrder round.order) (haccepts : round.Accepts)
    (hk : k ∈ o.pending) (hnot : k ∉ round.events S) :
    ((o.after S (.drain round)).ahead k).card + S.limit ≤ (o.ahead k).card := by
  obtain ⟨hlen, hahead⟩ := hadm.events_ahead hk hnot
  have hnodup : (round.events S).Nodup := hadm.nodup.sublist (List.take_sublist _ _)
  have hsub : (round.events S).toFinset ⊆ o.ahead k := fun j hj =>
    hahead j (List.mem_toFinset.mp hj)
  have hsub' : (o.after S (.drain round)).ahead k ⊆ o.ahead k \ (round.events S).toFinset := by
    intro i hi
    obtain ⟨hpending, hne, hle⟩ := Finset.mem_filter.mp hi
    obtain ⟨hids, hpending⟩ := Outbox.mem_pending.mp hpending
    rw [ids_drain] at hids
    have hi' : i ∉ round.events S := by
      intro hmem
      rw [row_drain_of_mem hadm hmem, relayEvent_accepted haccepts,
        OutboxEvent.pending_published] at hpending
      cases hpending
    rw [row_drain_of_notMem hadm hi', row_drain_of_notMem hadm hnot] at hle
    rw [row_drain_of_notMem hadm hi'] at hpending
    refine Finset.mem_sdiff.mpr ⟨?_, fun hmem => hi' (List.mem_toFinset.mp hmem)⟩
    exact Finset.mem_filter.mpr ⟨Outbox.mem_pending.mpr ⟨hids, hpending⟩, hne, hle⟩
  have hcard := Finset.card_le_card hsub'
  have hle := Finset.card_le_card hsub
  rw [Finset.card_sdiff_of_subset hsub] at hcard
  rw [List.toFinset_card_of_nodup hnodup, hlen] at hcard hle
  omega

/-- While the queue accepts everything, a pending event is published as soon as the drains
have room for all events that are no younger. -/
theorem published_of_backlog (hr : Recovery happenings) (hadm : o.AdmitsAll S happenings)
    (hk : k ∈ o.pending)
    (hroom : (o.ahead k).card + happenings.countP (Happening.emitsBy (o.row k).created_at) <
      happenings.countP Happening.isDrain * S.limit) :
    ((o.afterAll S happenings).row k).published_at ≠ none := by
  have hids := (Outbox.mem_pending.mp hk).1
  induction happenings generalizing o with
  | nil => simp at hroom
  | cons h happenings ih =>
      rw [List.countP_cons, List.countP_cons] at hroom
      cases h with
      | emit j event =>
          have hrow := row_emit (S := S) hadm.1 hids
          have hcard := card_ahead_emit (S := S) hadm.1 hids
          refine ih hr.tail hadm.2 ?_ ?_ (mem_ids_after hids)
          · refine Outbox.mem_pending.mpr ⟨mem_ids_after hids, ?_⟩
            rw [hrow]
            exact (Outbox.mem_pending.mp hk).2
          · rw [hrow]
            simp only [Happening.isDrain, Bool.false_eq_true, if_false, add_zero] at hroom
            omega
      | drain round =>
          have haccepts := hr round List.mem_cons_self
          by_cases hmem : k ∈ round.events S
          · -- Selected: published by this drain, and for good.
            have hrow : (o.after S (.drain round)).row k = (o.row k).published (round.now k) := by
              rw [row_drain_of_mem hadm.1 hmem, relayEvent_accepted haccepts]
            rw [Outbox.afterAll, row_afterAll_of_done hadm.2 (mem_ids_after hids), hrow]
            · simp [OutboxEvent.published]
            · rw [hrow, OutboxEvent.pending_published]
          · have hrow := row_drain_of_notMem (S := S) hadm.1 hmem
            have hcard := card_ahead_drain hadm.1 haccepts hk hmem
            refine ih hr.tail hadm.2 ?_ ?_ (mem_ids_after hids)
            · refine Outbox.mem_pending.mpr ⟨mem_ids_after hids, ?_⟩
              rw [hrow]
              exact (Outbox.mem_pending.mp hk).2
            · rw [hrow]
              simp only [Happening.isDrain, Happening.emitsBy, Bool.false_eq_true, if_false,
                add_zero, if_true, Nat.add_mul, Nat.one_mul] at hroom
              omega

end BackendManager.Webhooks
