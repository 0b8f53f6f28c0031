import BackendManager.Uuid

/-!
# Outbox Events

The data of `app/webhooks`, and what `drain_outbox` does to one event: `_fan_out` enqueues a
delivery for each active endpoint of the event's organisation that is subscribed to its
type, and the row is stamped published, or its failed attempt is counted.

`OutboxEvent.Sound` is the invariant of a row that every drain keeps.

An event is pending until it is stamped published or dead; its attempts count the drains that
have failed to publish it, and the last error is the text of the last failure. An event of
another source than the webhooks has nothing to fan out, and is stamped at once. A delivery that
the queue has rejected ends the fan-out with an error, although jobs for earlier endpoints may
have been enqueued: they are delivered again by a later drain.

## Main results

* `OutboxEvent.sound_published`, `OutboxEvent.sound_rejected`: both outcomes keep it.
* `fan_out_ok_iff`: a webhook event is fanned out exactly if the queue accepts the delivery
  to every endpoint that awaits it.
* `fan_out_error`: the error names an endpoint whose delivery the queue has rejected.
-/

namespace BackendManager.Webhooks

/-! ### Tables -/

/-- A row of `webhook_endpoints`: the columns that the relay reads. -/
structure WebhookEndpoint where
  id : Uuid
  organization_id : Uuid
  event_types : String
  active : Bool
deriving DecidableEq

/-- A row of `outbox_events`; `payload` is the text of the JSON object. -/
structure OutboxEvent where
  source : String
  event_id : String
  event_type : String
  organization_id : Option Uuid
  payload : String
  attempts : ℕ
  last_error : Option String
  published_at : Option ℕ
  failed_at : Option ℕ
  created_at : ℕ
deriving DecidableEq

/-- A call of `enqueue_fn`. -/
structure Job where
  task : String
  endpoint_id : String
  event_type : String
  payload : String
deriving DecidableEq

/-- The settings of a relay: the arguments of `drain_outbox`. -/
structure Settings where
  limit : ℕ
  max_attempts : ℕ

def WEBHOOK_SOURCE : String := "webhook"

def DEFAULT_MAX_ATTEMPTS : ℕ := 5

/-- The settings of `relay_outbox`. -/
def relaySettings : Settings := ⟨100, DEFAULT_MAX_ATTEMPTS⟩

/-! ### One event -/

/-- `str.isspace` of one character. -/
def isspace (c : Char) : Bool :=
  let n := c.toNat
  9 ≤ n ∧ n ≤ 13 ∨ 28 ≤ n ∧ n ≤ 32 ∨
    n ∈ [0x85, 0xa0, 0x1680, 0x2028, 0x2029, 0x202f, 0x205f, 0x3000] ∨
    0x2000 ≤ n ∧ n ≤ 0x200a

/-- `str.split()`: the words between runs of white space. -/
def split (s : String) : List String :=
  ((s.toList.splitOnP isspace).filter (· ≠ [])).map String.ofList

/-- The `WHERE` clause of a drain. -/
def OutboxEvent.pending (event : OutboxEvent) : Bool :=
  event.published_at = none ∧ event.failed_at = none

/-- The column defaults of a new row. -/
def OutboxEvent.fresh (event : OutboxEvent) : Bool :=
  event.attempts = 0 ∧ event.last_error = none ∧ event.pending

/-- The `SELECT` of `_fan_out`: the active endpoints of the organisation. -/
def activeEndpoints (event : OutboxEvent) (endpoints : List WebhookEndpoint) :
    List WebhookEndpoint :=
  endpoints.filter fun e => some e.organization_id = event.organization_id ∧ e.active

/-- The endpoint is subscribed to the type of the event. -/
def subscribed (event : OutboxEvent) (e : WebhookEndpoint) : Bool :=
  event.event_type ∈ split e.event_types

/-- The delivery of the event to an endpoint. -/
def job (event : OutboxEvent) (e : WebhookEndpoint) : Job where
  task := "deliver_webhook"
  endpoint_id := e.id.str
  event_type := event.event_type
  payload := event.payload

/-- The text of an `OutboxPublishError`. -/
def publishError (e : WebhookEndpoint) : String :=
  "queue unavailable (endpoint " ++ e.id.str ++ ")"

/-- The first characters of a text, `text[:n]`. -/
def sliceTo (n : ℕ) (text : String) : String := String.ofList (text.toList.take n)

/-- The row of an event that is published. -/
def OutboxEvent.published (now : ℕ) (event : OutboxEvent) : OutboxEvent :=
  { event with published_at := some now }

/-- The row of an event whose delivery to `e` was rejected. -/
def OutboxEvent.rejected (S : Settings) (now : ℕ) (e : WebhookEndpoint) (event : OutboxEvent) :
    OutboxEvent :=
  { event with
    attempts := event.attempts + 1
    last_error := some (sliceTo 1024 (publishError e))
    failed_at := if S.max_attempts ≤ event.attempts + 1 then some now else event.failed_at }

/-- The loop of `_fan_out`: the jobs that were enqueued, or the endpoint at which the queue
rejected one. -/
def enqueueAll (enqueue_fn : Job → Bool) (event : OutboxEvent) :
    List WebhookEndpoint → Except WebhookEndpoint (List Job)
  | [] => .ok []
  | e :: endpoints =>
      if subscribed event e then
        if enqueue_fn (job event e) then
          (enqueueAll enqueue_fn event endpoints).map fun jobs => job event e :: jobs
        else .error e
      else enqueueAll enqueue_fn event endpoints

/-- `_fan_out`. -/
def fan_out (enqueue_fn : Job → Bool) (endpoints : List WebhookEndpoint) (event : OutboxEvent) :
    Except WebhookEndpoint (List Job) :=
  if event.source ≠ WEBHOOK_SOURCE then .ok []
  else enqueueAll enqueue_fn event (activeEndpoints event endpoints)

/-- The endpoint is one of the event's organisation, active and subscribed to its type. -/
structure Awaits (event : OutboxEvent) (endpoint : WebhookEndpoint) : Prop where
  organization_id : some endpoint.organization_id = event.organization_id
  active : endpoint.active = true
  subscribed : subscribed event endpoint = true

/-! ### The invariant of a row -/

/-- At most `max_attempts` attempts, dead-lettered exactly when they are used up, and never
both published and dead-lettered. -/
structure OutboxEvent.Sound (S : Settings) (event : OutboxEvent) : Prop where
  attempts_le : event.attempts ≤ S.max_attempts
  failed_iff : event.failed_at ≠ none ↔ event.attempts = S.max_attempts
  exclusive : ¬ (event.published_at ≠ none ∧ event.failed_at ≠ none)

variable {S : Settings} {event : OutboxEvent} {e : WebhookEndpoint} {now : ℕ}

theorem OutboxEvent.pending_iff :
    event.pending = true ↔ event.published_at = none ∧ event.failed_at = none := by
  simp [OutboxEvent.pending]

/-- A pending event has an attempt left. -/
theorem OutboxEvent.Sound.attempts_lt (h : event.Sound S) (hp : event.pending = true) :
    event.attempts < S.max_attempts := by
  have hfailed := (OutboxEvent.pending_iff.mp hp).2
  have hne : event.attempts ≠ S.max_attempts := fun heq => h.failed_iff.mpr heq hfailed
  have := h.attempts_le
  omega

/-- A new row is sound. -/
theorem OutboxEvent.sound_of_fresh (hmax : 1 ≤ S.max_attempts) (h : event.fresh = true) :
    event.Sound S := by
  simp only [OutboxEvent.fresh, decide_eq_true_eq] at h
  obtain ⟨hattempts, -, hpending⟩ := h
  obtain ⟨hpublished, hfailed⟩ := OutboxEvent.pending_iff.mp hpending
  refine ⟨by omega, ?_, ?_⟩
  · rw [hfailed, hattempts]
    constructor
    · intro h
      exact absurd rfl h
    · intro h
      omega
  · rintro ⟨h, -⟩
    exact h hpublished

/-- Publishing a pending event keeps its row sound. -/
theorem OutboxEvent.sound_published (h : event.Sound S) (hp : event.pending = true) :
    (event.published now).Sound S := by
  refine ⟨h.attempts_le, h.failed_iff, ?_⟩
  rintro ⟨-, hfailed⟩
  exact hfailed (OutboxEvent.pending_iff.mp hp).2

/-- Counting a failed attempt of a pending event keeps its row sound. -/
theorem OutboxEvent.sound_rejected (h : event.Sound S) (hp : event.pending = true) :
    (event.rejected S now e).Sound S := by
  have hlt := h.attempts_lt hp
  obtain ⟨hpublished, hfailed⟩ := OutboxEvent.pending_iff.mp hp
  refine ⟨?_, ?_, ?_⟩
  · simp only [OutboxEvent.rejected]
    omega
  · simp only [OutboxEvent.rejected]
    split
    · rename_i hle
      simp only [ne_eq, reduceCtorEq, not_false_eq_true, true_iff]
      omega
    · rename_i hle
      rw [hfailed]
      constructor
      · intro h
        exact absurd rfl h
      · intro h
        omega
  · rintro ⟨hpub, -⟩
    exact hpub hpublished

/-- Published events are not pending. -/
@[simp] theorem OutboxEvent.pending_published : (event.published now).pending = false := by
  simp [OutboxEvent.pending, OutboxEvent.published]

/-! ### Fan-out -/

variable {enqueue_fn : Job → Bool} {endpoints : List WebhookEndpoint} {jobs : List Job}

/-- The loop succeeds exactly if the queue accepts every delivery. -/
theorem enqueueAll_ok_iff :
    enqueueAll enqueue_fn event endpoints = .ok jobs ↔
      (∀ e ∈ endpoints, subscribed event e → enqueue_fn (job event e)) ∧
        jobs = (endpoints.filter (subscribed event)).map (job event) := by
  induction endpoints generalizing jobs with
  | nil =>
      rw [enqueueAll, Except.ok.injEq]
      constructor
      · rintro rfl
        simp
      · rintro ⟨-, rfl⟩
        rfl
  | cons e endpoints ih =>
      rw [enqueueAll]
      by_cases hs : subscribed event e = true
      · by_cases hq : enqueue_fn (job event e) = true
        · rw [if_pos hs, if_pos hq]
          cases hr : enqueueAll enqueue_fn event endpoints with
          | ok jobs' =>
              obtain ⟨hall, rfl⟩ := ih.mp hr
              simp only [Except.map, Except.ok.injEq, List.forall_mem_cons, hs, hq, forall_const,
                true_and, List.filter_cons_of_pos, List.map_cons]
              constructor
              · rintro rfl
                exact ⟨hall, rfl⟩
              · rintro ⟨-, rfl⟩
                rfl
          | error e' =>
              simp only [Except.map, reduceCtorEq, false_iff]
              rintro ⟨hall, -⟩
              have := ih.mpr ⟨fun e he => hall e (List.mem_cons_of_mem _ he), rfl⟩
              rw [hr] at this
              cases this
        · simp [hs, hq]
      · simp [hs, ih]

/-- The loop fails at an endpoint whose delivery is rejected. -/
theorem enqueueAll_error (h : enqueueAll enqueue_fn event endpoints = .error e) :
    e ∈ endpoints ∧ subscribed event e = true ∧ enqueue_fn (job event e) = false := by
  induction endpoints with
  | nil => cases h
  | cons e' endpoints ih =>
      rw [enqueueAll] at h
      split at h
      · rename_i hs
        split at h
        · cases hr : enqueueAll enqueue_fn event endpoints with
          | ok jobs' =>
              rw [hr] at h
              cases h
          | error e'' =>
              rw [hr] at h
              obtain rfl := Except.error.inj h
              obtain ⟨hmem, hrest⟩ := ih hr
              exact ⟨List.mem_cons_of_mem _ hmem, hrest⟩
        · rename_i hq
          obtain rfl := Except.error.inj h
          exact ⟨List.mem_cons_self, hs, by simpa using hq⟩
      · obtain ⟨hmem, hrest⟩ := ih h
        exact ⟨List.mem_cons_of_mem _ hmem, hrest⟩

/-- What the `SELECT` of the endpoints finds awaits the event if it is subscribed. -/
theorem mem_activeEndpoints_iff :
    e ∈ activeEndpoints event endpoints ∧ subscribed event e = true ↔
      e ∈ endpoints ∧ Awaits event e := by
  rw [activeEndpoints, List.mem_filter, decide_eq_true_eq]
  constructor
  · rintro ⟨⟨hmem, horg, hactive⟩, hsub⟩
    exact ⟨hmem, horg, hactive, hsub⟩
  · rintro ⟨hmem, horg, hactive, hsub⟩
    exact ⟨⟨hmem, horg, hactive⟩, hsub⟩

/-- A webhook event is fanned out exactly if the queue accepts the delivery to every endpoint
that awaits it. -/
theorem fan_out_ok_iff (hsource : event.source = WEBHOOK_SOURCE) :
    fan_out enqueue_fn endpoints event = .ok jobs ↔
      (∀ e ∈ endpoints, Awaits event e → enqueue_fn (job event e) = true) ∧
        jobs = ((activeEndpoints event endpoints).filter (subscribed event)).map (job event) := by
  have hfan : fan_out enqueue_fn endpoints event =
      enqueueAll enqueue_fn event (activeEndpoints event endpoints) :=
    if_neg fun h => h hsource
  rw [hfan, enqueueAll_ok_iff]
  refine and_congr_left fun _ => ?_
  constructor
  · intro h e he hawaits
    obtain ⟨hmem, hsub⟩ := mem_activeEndpoints_iff.mpr ⟨he, hawaits⟩
    exact h e hmem hsub
  · intro h e hmem hsub
    obtain ⟨he, hawaits⟩ := mem_activeEndpoints_iff.mp ⟨hmem, hsub⟩
    exact h e he hawaits

/-- The error of `_fan_out` names an endpoint that awaits the event and whose delivery the
queue has rejected. -/
theorem fan_out_error (h : fan_out enqueue_fn endpoints event = .error e) :
    e ∈ endpoints ∧ Awaits event e ∧ enqueue_fn (job event e) = false := by
  rw [fan_out] at h
  split at h
  · cases h
  · obtain ⟨hmem, hsub, hrejected⟩ := enqueueAll_error h
    obtain ⟨hmem, hawaits⟩ := mem_activeEndpoints_iff.mp ⟨hmem, hsub⟩
    exact ⟨hmem, hawaits, hrejected⟩

/-- While the queue accepts everything, every event is fanned out. -/
theorem fan_out_accepted (h : ∀ delivery, enqueue_fn delivery = true) :
    ∃ jobs, fan_out enqueue_fn endpoints event = .ok jobs := by
  by_cases hsource : event.source = WEBHOOK_SOURCE
  · exact ⟨_, (fan_out_ok_iff hsource).mpr ⟨fun e _ _ => h (job event e), rfl⟩⟩
  · exact ⟨[], if_pos hsource⟩

/-- While the queue rejects everything, no webhook event is fanned out that an endpoint
awaits. -/
theorem fan_out_rejected (h : ∀ delivery, enqueue_fn delivery = false)
    (hsource : event.source = WEBHOOK_SOURCE) (hawaits : ∃ e ∈ endpoints, Awaits event e) :
    ∃ e, fan_out enqueue_fn endpoints event = .error e := by
  cases hr : fan_out enqueue_fn endpoints event with
  | error e => exact ⟨e, rfl⟩
  | ok jobs =>
      obtain ⟨e, hmem, he⟩ := hawaits
      have haccepted := ((fan_out_ok_iff hsource).mp hr).1 e hmem he
      rw [h] at haccepted
      cases haccepted

end BackendManager.Webhooks
