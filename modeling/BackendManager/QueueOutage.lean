import BackendManager.DrainRounds

/-!
# A Queue Outage

While the queue is down, every drain costs each event that it selects one of its
`max_attempts` attempts. An event that has an attempt left when the queue comes back is
published; one that has none is dead-lettered, and no later drain selects it.

In an outage the queue rejects whatever a drain hands it, and some endpoint awaits the event
whenever a drain takes it on, while other events are produced and drained as they may be; in a
recovery everything is accepted. The attempts are counted in the row, so that what matters of an
outage is the number of drains that have taken the event on (`failures`), not their times.

The induction is on the history: before the event is dead each drain that takes it on adds one
to its attempts, and from then on no drain does.

## Main results

* `queue_outage`: what becomes of an event, by the number of drains that failed to publish
  it.
* `outage_dead_letters`: five drains of an outage are enough.
-/

namespace BackendManager.Webhooks

variable {S : Settings} {o : Outbox} {k : Uuid} {event : OutboxEvent} {outage : List Happening}

/-- The event is committed: at the start, or in the course of these happenings. -/
def Committed (o : Outbox) (k : Uuid) (event : OutboxEvent) (happenings : List Happening) : Prop :=
  k ∈ o.ids ∧ o.row k = event ∨ .emit k event ∈ happenings

/-- The failed attempts to publish the event, those before the outage included. -/
def failures (S : Settings) (k : Uuid) (event : OutboxEvent) (outage : List Happening) : ℕ :=
  event.attempts + outage.countP (Happening.selects S k)

/-- The row of an event after an outage that it was committed before. -/
structure Outlasted (S : Settings) (o : Outbox) (k : Uuid) (event : OutboxEvent) (attempts : ℕ) :
    Prop where
  mem_ids : k ∈ o.ids
  sameContent : event.SameContent (o.row k)
  attempts : (o.row k).attempts = attempts
  published_at : (o.row k).published_at = none

/-- An event that is in the outbox when the outage begins has as many failures as rounds have taken
it on, until it is dead. -/
theorem outlasted_of_mem (houtage : Outage S k (o.row k) outage) (hadm : o.AdmitsAll S outage)
    (hk : k ∈ o.ids) (hpending : (o.row k).pending = true)
    (hsource : (o.row k).source = WEBHOOK_SOURCE) :
    Outlasted S (o.afterAll S outage) k (o.row k) (failures S k (o.row k) outage) := by
  obtain ⟨hattempts, hpublished⟩ := attempts_of_outage houtage hadm hk (.refl _) hsource
  refine ⟨mem_ids_afterAll hk, sameContent_afterAll hadm hk, hattempts, ?_⟩
  rw [hpublished]
  exact (OutboxEvent.pending_iff.mp hpending).1

/-- The end of an outage is an outage. -/
theorem Outage.append_right {happenings rest : List Happening}
    (houtage : Outage S k event (happenings ++ rest)) : Outage S k event rest :=
  ⟨fun round hround => houtage.rejects round (List.mem_append_right _ hround),
    fun round hround => houtage.awaited round (List.mem_append_right _ hround)⟩

/-- An outage leaves every event that is committed before its end where it was, but for the
failed attempts. -/
theorem outlasted (houtage : Outage S k event outage) (hadm : o.AdmitsAll S outage)
    (hcommitted : Committed o k event outage) (hpending : event.pending = true)
    (hsource : event.source = WEBHOOK_SOURCE) :
    Outlasted S (o.afterAll S outage) k event (failures S k event outage) := by
  rcases hcommitted with ⟨hk, rfl⟩ | hemit
  · exact outlasted_of_mem houtage hadm hk hpending hsource
  · obtain ⟨before, rest, rfl⟩ := List.append_of_mem hemit
    obtain ⟨hbefore, hfresh, hrest⟩ := admitsAll_append.mp hadm
    -- No drain before the event was committed can have selected it.
    have hnone := countP_selects_of_notMem hbefore hfresh.1
    have hrow : ((o.afterAll S before).after S (.emit k event)).row k = event := row_emit_self
    have houtage' : Outage S k event rest := houtage.append_right.tail
    have hfailures : failures S k event (before ++ .emit k event :: rest) =
        failures S k event rest := by
      rw [failures, failures, List.countP_append, hnone, List.countP_cons]
      simp [Happening.selects]
    rw [hfailures, afterAll_append]
    have h := outlasted_of_mem (o := (o.afterAll S before).after S (.emit k event))
      (by rwa [hrow]) hrest (Finset.mem_insert_self _ _) (by rwa [hrow]) (by rwa [hrow])
    rwa [hrow] at h

/-- An unpublished event is pending exactly if it has an attempt left. -/
theorem Outlasted.pending_iff {attempts : ℕ} (h : Outlasted S o k event attempts)
    (hsound : o.Sound S) : (o.row k).pending = true ↔ attempts < S.max_attempts := by
  have hrow := hsound k h.mem_ids
  constructor
  · intro hpending
    have := hrow.attempts_lt hpending
    rwa [h.attempts] at this
  · intro hlt
    refine OutboxEvent.pending_iff.mpr ⟨h.published_at, ?_⟩
    by_contra hfailed
    have := hrow.failed_iff.mp hfailed
    rw [h.attempts] at this
    omega

/-- **What an outage does to an event.** Take any outage and any webhook event that is
committed before or during it and awaited by an endpoint. If fewer than `max_attempts` drains
in all have failed to publish the event, then it is published by a later drain, as soon as
the drains have room for all events that are no younger. Otherwise it is dead-lettered, and
its row, unpublished, stays as it is whatever comes. -/
theorem queue_outage (hmax : 1 ≤ S.max_attempts) (hsound : o.Sound S)
    (hadm : o.AdmitsAll S outage) (houtage : Outage S k event outage)
    (hcommitted : Committed o k event outage) (hpending : event.pending = true)
    (hsource : event.source = WEBHOOK_SOURCE) :
    (failures S k event outage < S.max_attempts → ∀ recovery,
        (o.afterAll S outage).AdmitsAll S recovery → Recovery recovery →
        ((o.afterAll S outage).ahead k).card +
            recovery.countP (Happening.emitsBy event.created_at) <
          recovery.countP Happening.isDrain * S.limit →
        ((o.afterAll S outage).row k).published_at = none ∧
          (((o.afterAll S outage).afterAll S recovery).row k).published_at ≠ none) ∧
      (S.max_attempts ≤ failures S k event outage →
        ((o.afterAll S outage).row k).published_at = none ∧
          ((o.afterAll S outage).row k).failed_at ≠ none ∧
          ∀ later, (o.afterAll S outage).AdmitsAll S later →
            ((o.afterAll S outage).afterAll S later).row k = (o.afterAll S outage).row k) := by
  have hout := outlasted houtage hadm hcommitted hpending hsource
  have hsound' := hsound.afterAll hmax hadm
  constructor
  · intro hlt recovery hrecovery hup hroom
    have hpending' := (hout.pending_iff hsound').mpr hlt
    refine ⟨hout.published_at, published_of_backlog hup hrecovery ?_ ?_⟩
    · exact Outbox.mem_pending.mpr ⟨hout.mem_ids, hpending'⟩
    · rw [hout.sameContent.created_at]
      exact hroom
  · intro hle
    have hnot : ¬ ((o.afterAll S outage).row k).pending = true := by
      rw [hout.pending_iff hsound']
      omega
    refine ⟨hout.published_at, fun hfailed => hnot ?_, fun later hlater => ?_⟩
    · exact OutboxEvent.pending_iff.mpr ⟨hout.published_at, hfailed⟩
    · exact row_afterAll_of_done hlater hout.mem_ids (Bool.eq_false_iff.mpr hnot)

/-! ### Outages of a single event -/

/-- A new webhook event of organisation 1. -/
def stuckEvent : OutboxEvent where
  source := WEBHOOK_SOURCE
  event_id := "evt"
  event_type := "member.added"
  organization_id := some (Uuid.ofNat 1)
  payload := "{}"
  attempts := 0
  last_error := none
  published_at := none
  failed_at := none
  created_at := 7

/-- An endpoint of the organisation that awaits it. -/
def stuckEndpoint : WebhookEndpoint := ⟨Uuid.ofNat 2, Uuid.ofNat 1, "member.added", true⟩

/-- A drain that meets the event alone. -/
def stuckRound (queued : Bool) : Round where
  order := [Uuid.ofNat 3]
  endpoints _ := [stuckEndpoint]
  enqueue_fn _ _ := queued
  now _ := 9

/-- No events yet. -/
def noEvents : Outbox := ⟨∅, fun _ => stuckEvent⟩

/-- The event is committed, and the relay runs `n` times while the queue is down. -/
def stuckOutage (n : ℕ) : List Happening :=
  .emit (Uuid.ofNat 3) stuckEvent :: List.replicate n (.drain (stuckRound false))

/-- An empty outbox is sound. -/
theorem sound_noEvents : noEvents.Sound relaySettings :=
  fun _ hk => absurd hk (Finset.notMem_empty _)

/-- Somebody awaits the event of the example. -/
theorem awaits_stuckEvent : Awaits stuckEvent stuckEndpoint := by
  refine ⟨rfl, rfl, ?_⟩
  decide

/-- Rounds that all reject are an outage. -/
theorem outage_stuckOutage (n : ℕ) :
    Outage relaySettings (Uuid.ofNat 3) stuckEvent (stuckOutage n) := by
  have hround : ∀ round, .drain round ∈ stuckOutage n → round = stuckRound false := by
    intro round h
    rcases List.mem_cons.mp h with h | h
    · cases h
    · exact Happening.drain.inj (List.eq_of_mem_replicate h)
  refine ⟨fun round h => ?_, fun round h _ => ?_⟩
  · rw [hround round h]
    exact fun _ _ => rfl
  · rw [hround round h]
    exact ⟨stuckEndpoint, List.mem_singleton_self _, awaits_stuckEvent⟩

/-- After one failed drain the event is published; after five it is dead-lettered. -/
theorem queue_outage_stuckEvent :
    (((noEvents.afterAll relaySettings (stuckOutage 1)).afterAll relaySettings
        [.drain (stuckRound true)]).row (Uuid.ofNat 3)).published_at ≠ none ∧
      ((noEvents.afterAll relaySettings (stuckOutage 5)).row (Uuid.ofNat 3)).failed_at ≠ none := by
  have hmax : 1 ≤ relaySettings.max_attempts := by
    decide
  have hcommitted : ∀ n, Committed noEvents (Uuid.ofNat 3) stuckEvent (stuckOutage n) :=
    fun _ => .inr List.mem_cons_self
  have hup : Recovery [.drain (stuckRound true)] := by
    intro round h
    obtain rfl := Happening.drain.inj (List.mem_singleton.mp h)
    exact fun _ _ => rfl
  constructor
  · exact ((queue_outage hmax sound_noEvents (by decide) (outage_stuckOutage 1) (hcommitted 1)
      rfl rfl).1 (by decide) [.drain (stuckRound true)] (by decide) hup (by decide)).2
  · exact ((queue_outage hmax sound_noEvents (by decide) (outage_stuckOutage 5) (hcommitted 5)
      rfl rfl).2 (by decide)).2.1

/-- An outage of five drains: the event is committed, pending and awaited, but no recovery
ever publishes it. -/
theorem outage_dead_letters :
    noEvents.AdmitsAll relaySettings (stuckOutage 5) ∧
      Outage relaySettings (Uuid.ofNat 3) stuckEvent (stuckOutage 5) ∧
      Committed noEvents (Uuid.ofNat 3) stuckEvent (stuckOutage 5) ∧
      stuckEvent.source = WEBHOOK_SOURCE ∧
      ∀ recovery, (noEvents.afterAll relaySettings (stuckOutage 5)).AdmitsAll relaySettings
          recovery → Recovery recovery →
        (((noEvents.afterAll relaySettings (stuckOutage 5)).afterAll relaySettings recovery).row
          (Uuid.ofNat 3)).published_at = none := by
  have hadm : noEvents.AdmitsAll relaySettings (stuckOutage 5) := by
    decide
  have hcommitted : Committed noEvents (Uuid.ofNat 3) stuckEvent (stuckOutage 5) :=
    .inr List.mem_cons_self
  have hout := outlasted (outage_stuckOutage 5) hadm hcommitted rfl rfl
  refine ⟨hadm, outage_stuckOutage 5, hcommitted, rfl, fun recovery hrecovery _ => ?_⟩
  have hdone : ((noEvents.afterAll relaySettings (stuckOutage 5)).row
      (Uuid.ofNat 3)).pending = false := by
    decide
  rw [row_afterAll_of_done hrecovery hout.mem_ids hdone]
  exact hout.published_at

end BackendManager.Webhooks
