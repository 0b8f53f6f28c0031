import BackendManager.WebhookWorker

/-!
# Where a Delivery Comes From

Every request that the webhook service sends can be traced back through the delivery, the job, the
relay and the outbox to one `dispatch` call, and to a registration of the endpoint by the same
organisation. The invariant says this of everything that is under way at a moment of a run: of the
versions of the events, of what the frames of requests and workers hold, and of the jobs. What it
says are steps of the run: the `dispatch` call, the `SELECT` of a fan-out and the `session.get` of a
delivery, in the order in which they were taken. A step appended to the run leaves them in place.

That no endpoint id comes twice is the assumption on `uuid.uuid4()`. Without it a job could outlive
its endpoint and find the one of another organisation in its place.

## Main results

* `Origins.step`, `origins_of_trace`: the invariant.
* `delivered_to_owner`: whose events an endpoint gets, by which steps, what is posted and who
  accepts it.
* `audited_to_owner`: whose audit log records a delivery.
-/

namespace BackendManager.Webhooks.Worker

open Interleaving ReadCommitted Json

variable {F T σ : Type}

/-- A step of a run of the service. -/
abbrev Step (F T σ : Type) := Program.Move T (System F T σ) Frame (Act F)

/-! ### The past of a run -/

/-- `dispatch` has been called. -/
def Dispatched (moves : List (Step F T σ)) (m : Emission F) : Prop :=
  ∃ step ∈ moves, ∃ k, step.action = .dispatch k m

/-- The id that a step asks for a new endpoint, and the organisation of the endpoint. -/
def creation (step : Step F T σ) : Option (Uuid × Uuid) :=
  match step.action with
  | .call (.create org_id _ m) => some (m.id, org_id)
  | _ => none

/-- All of these. -/
def created (moves : List (Step F T σ)) : List (Uuid × Uuid) := moves.filterMap creation

/-- `uuid.uuid4()` has never given an endpoint id twice. -/
def FreshIds (moves : List (Step F T σ)) : Prop := ((created moves).map Prod.fst).Nodup

/-- At some moment the table had this row. -/
def Present (moves : List (Step F T σ)) (row : EndpointRow) : Prop :=
  ∃ step ∈ moves, row ∈ step.before.shared.endpoints.rows

/-- What of an event no statement changes. -/
def content (event : OutboxEvent) : String × Option Uuid × String :=
  (event.event_type, event.organization_id, event.payload)

/-- The event with this key comes from a `dispatch` call. -/
def Emitted (floats : Floats F) (moves : List (Step F T σ)) (k : Uuid) (event : OutboxEvent) :
    Prop :=
  ∃ m, ∃ emit ∈ moves, emit.action = .dispatch k m ∧ content event = content (dispatch floats m)

/-- The `SELECT` of `_fan_out` for the event that this `dispatch` call has written finds the row,
which is active and one of the event's organisation. -/
structure FansOut (floats : Floats F) (emit select : Step F T σ) (m : Emission F)
    (row : EndpointRow) : Prop where
  steps : ∃ k event endpoints claimed published, emit.action = .dispatch k m ∧
    content event = content (dispatch floats m) ∧
    select.before.proc select.thread = .relay (.loop ((k, event) :: claimed) published) ∧
    select.after.proc select.thread = .relay (.fanOut k event endpoints claimed published)
  found : row ∈ select.before.shared.endpoints.rows
  organization_id : some row.organization_id = (dispatch floats m).organization_id
  active : row.active = true

/-- The `SELECT` of `_fan_out` has found this endpoint for the event. -/
def Found (floats : Floats F) (moves : List (Step F T σ)) (event : OutboxEvent)
    (e : WebhookEndpoint) : Prop :=
  ∃ m row emit select, [emit, select].Sublist moves ∧ FansOut floats emit select m row ∧
    content event = content (dispatch floats m) ∧ row.toWebhookEndpoint = e

/-- The job delivers the event of this `dispatch` call to the endpoint with this row, which is
subscribed to it. -/
structure Enqueues (floats : Floats F) (emit select : Step F T σ) (m : Emission F)
    (row : EndpointRow) (j : Job) : Prop where
  fansOut : FansOut floats emit select m row
  subscribed : subscribed (dispatch floats m) row.toWebhookEndpoint = true
  job : j = job (dispatch floats m) row.toWebhookEndpoint

/-- The `session.get` of an attempt at the job finds the row of its endpoint, which is active. -/
structure Reads (j : Job) (attempt : ℕ) (row : EndpointRow) (get : Step F T σ) : Prop where
  before : get.before.proc get.thread = .delivery (.get j attempt)
  found : row ∈ get.before.shared.endpoints.rows
  endpoint : row.id.str = j.endpoint_id
  active : row.active = true
  after : get.after.proc get.thread =
    .delivery (.resolve j attempt ⟨row.url, row.secret, row.organization_id⟩)

/-- The job delivers a dispatched event to an endpoint that has awaited it. -/
def JobOrigin (floats : Floats F) (moves : List (Step F T σ)) (j : Job) : Prop :=
  ∃ m row emit select, [emit, select].Sublist moves ∧ Enqueues floats emit select m row j

/-- This has been read by the thread from the endpoint of the job while it was active. -/
def HeldOrigin (floats : Floats F) (moves : List (Step F T σ)) (t : T) (j : Job) (attempt : ℕ)
    (held : Held) : Prop :=
  ∃ m row emit select row' get, [emit, select, get].Sublist moves ∧
    Enqueues floats emit select m row j ∧ Reads j attempt row' get ∧ get.thread = t ∧
    held = ⟨row'.url, row'.secret, row'.organization_id⟩

/-- The request posts the payload of the job to a target of the egress guard. -/
def RequestOrigin (S : Platform F σ) (j : Job) (held : Held) (request : Post) : Prop :=
  ∃ payload resolver resolver' url host sni_hostname,
    loads S.floats j.payload.toList = some payload ∧
    Egress.deliver_webhook S.net held.url.toList resolver =
      (.post url host sni_hostname, resolver') ∧
    request = newPost S j held payload url host sni_hostname

/-- A request that was sent, by a step of the delivery that has read its endpoint. -/
def SentOrigin (S : Platform F σ) (moves : List (Step F T σ)) (sent : Sent) : Prop :=
  ∃ m row emit select row' get post, [emit, select, get, post].Sublist moves ∧
    Enqueues S.floats emit select m row sent.job ∧ Reads sent.job sent.attempt row' get ∧
    post.thread = get.thread ∧
    post.before.proc post.thread = .delivery (.post sent.job sent.attempt
      ⟨row'.url, row'.secret, row'.organization_id⟩ sent.request) ∧
    RequestOrigin S sent.job ⟨row'.url, row'.secret, row'.organization_id⟩ sent.request

/-- An audit row is about a delivery, which has been sent unless the row says that it was
blocked. -/
def EntryOrigin (S : Platform F σ) (moves : List (Step F T σ)) (sents : List Sent)
    (entry : AuditEntry F) : Prop :=
  ∃ t j attempt held, HeldOrigin S.floats moves t j attempt held ∧
    entry.target = j.endpoint_id ∧ entry.organization_id = held.organization_id ∧
    (entry.action ≠ "webhook.delivery_blocked" → ∃ sent ∈ sents, sent.job = j)

/-! ### The invariant -/

/-- What the frame of a relay run or a producer holds. -/
def ProcOrigin (Ev : Uuid → OutboxEvent → Prop) (En : OutboxEvent → WebhookEndpoint → Prop) :
    Proc → Prop
  | .insert k event | .inserted k event => Ev k event
  | .locking _ claimed | .loop claimed _ => ∀ claim ∈ claimed, Ev claim.1 claim.2
  | .fanOut k event endpoints claimed _ =>
      Ev k event ∧ (∀ e ∈ endpoints, En event e) ∧ ∀ claim ∈ claimed, Ev claim.1 claim.2
  | _ => True

/-- What the frame of a delivery holds. -/
def DeliveryOrigin (S : Platform F σ) (moves : List (Step F T σ)) (sents : List Sent) (t : T) :
    Delivery → Prop
  | .get j _ => JobOrigin S.floats moves j
  | .resolve j attempt held => HeldOrigin S.floats moves t j attempt held
  | .blocked j held _ => ∃ attempt, HeldOrigin S.floats moves t j attempt held
  | .post j attempt held request =>
      HeldOrigin S.floats moves t j attempt held ∧ RequestOrigin S j held request
  | .accepted j held _ =>
      (∃ attempt, HeldOrigin S.floats moves t j attempt held) ∧ ∃ sent ∈ sents, sent.job = j
  | .failed j attempt held =>
      HeldOrigin S.floats moves t j attempt held ∧ ∃ sent ∈ sents, sent.job = j
  | .returned | .retry _ | .raised => True

def FrameOrigin (S : Platform F σ) (moves : List (Step F T σ)) (sents : List Sent) (t : T) :
    Frame → Prop
  | .relay p => ProcOrigin (Emitted S.floats moves) (Found S.floats moves) p
  | .routed => True
  | .delivery w => DeliveryOrigin S moves sents t w

/-- **The invariant**, for a run and its last configuration. -/
structure Origins [DecidableEq T] (S : Platform F σ) (moves : List (Step F T σ))
    (d : Config T (System F T σ) Frame) : Prop where
  events : d.shared.events.Every (Emitted S.floats moves)
  present : ∀ row, Present moves row → (row.id, row.organization_id) ∈ created moves
  rows : ∀ row ∈ d.shared.endpoints.rows, (row.id, row.organization_id) ∈ created moves
  queue : ∀ j ∈ d.shared.queue, JobOrigin S.floats moves j
  frames : ∀ t, FrameOrigin S moves d.shared.sent t (d.proc t)
  sent : ∀ sent ∈ d.shared.sent, SentOrigin S moves sent
  entries : ∀ entry ∈ d.shared.audit_logs, EntryOrigin S moves d.shared.sent entry

section Proofs

variable {S : Platform F σ} {c d e : Config T (System F T σ) Frame} {t : T} {a : Act F}
  {s s' : System F T σ} {moves moves' : List (Step F T σ)}
  {sents sents' : List Sent} {event event' : OutboxEvent} {j : Job} {attempt : ℕ} {held : Held}
  {endpoints : Endpoints} {row : EndpointRow}

/-! ### The past grows -/

/-- What was present at a step of a run was present at that step of a longer one. -/
theorem Present.mono (h : Present moves row) (hsub : moves.Sublist moves') :
    Present moves' row := by
  obtain ⟨step, hstep, hrow⟩ := h
  exact ⟨step, hsub.subset hstep, hrow⟩

/-- The past does not change: an event that was dispatched has been dispatched. -/
theorem Emitted.mono {k : Uuid} (h : Emitted S.floats moves k event)
    (hsub : moves.Sublist moves') : Emitted S.floats moves' k event := by
  obtain ⟨m, emit, hemit, hrest⟩ := h
  exact ⟨m, emit, hsub.subset hemit, hrest⟩

/-- Nor does what a fan-out has found, with the order of its two steps. -/
theorem Found.mono {e : WebhookEndpoint} (h : Found S.floats moves event e)
    (hsub : moves.Sublist moves') : Found S.floats moves' event e := by
  obtain ⟨m, row, emit, select, horder, hrest⟩ := h
  exact ⟨m, row, emit, select, horder.trans hsub, hrest⟩

/-- Nor the origin of a job. -/
theorem JobOrigin.mono (h : JobOrigin S.floats moves j) (hsub : moves.Sublist moves') :
    JobOrigin S.floats moves' j := by
  obtain ⟨m, row, emit, select, horder, hrest⟩ := h
  exact ⟨m, row, emit, select, horder.trans hsub, hrest⟩

/-- Nor the origin of what a thread has read of an endpoint. -/
theorem HeldOrigin.mono (h : HeldOrigin S.floats moves t j attempt held)
    (hsub : moves.Sublist moves') : HeldOrigin S.floats moves' t j attempt held := by
  obtain ⟨m, row, emit, select, row', get, horder, hrest⟩ := h
  exact ⟨m, row, emit, select, row', get, horder.trans hsub, hrest⟩

/-- Nor the origin of a request that was sent. -/
theorem SentOrigin.mono {sent : Sent} (h : SentOrigin S moves sent)
    (hsub : moves.Sublist moves') : SentOrigin S moves' sent := by
  obtain ⟨m, row, emit, select, row', get, post, horder, hrest⟩ := h
  exact ⟨m, row, emit, select, row', get, post, horder.trans hsub, hrest⟩

/-- Nor that of an audit row. -/
theorem EntryOrigin.mono {entry : AuditEntry F} (h : EntryOrigin S moves sents entry)
    (hsub : moves.Sublist moves') (hsents : sents ⊆ sents') :
    EntryOrigin S moves' sents' entry := by
  obtain ⟨t, j, attempt, held, hheld, htarget, horg, hsent⟩ := h
  refine ⟨t, j, attempt, held, hheld.mono hsub, htarget, horg, fun haction => ?_⟩
  obtain ⟨sent, hmem, hsent⟩ := hsent haction
  exact ⟨sent, hsents hmem, hsent⟩

/-- What holds of the frames of relay runs and producers is kept by whatever keeps events and
endpoints. -/
theorem ProcOrigin.mono {Ev Ev' : Uuid → OutboxEvent → Prop}
    {En En' : OutboxEvent → WebhookEndpoint → Prop} {p : Proc} (h : ProcOrigin Ev En p)
    (hEv : ∀ k event, Ev k event → Ev' k event) (hEn : ∀ event e, En event e → En' event e) :
    ProcOrigin Ev' En' p := by
  cases p with
  | insert k event | inserted k event => exact hEv _ _ h
  | locking todo claimed | loop claimed published =>
      exact fun claim hmem => hEv _ _ (h claim hmem)
  | fanOut k event endpoints claimed published =>
      exact ⟨hEv _ _ h.1, fun e he => hEn _ _ (h.2.1 e he),
        fun claim hmem => hEv _ _ (h.2.2 claim hmem)⟩
  | idle | select | returned _ | done | raised => exact trivial

/-- The frame of a delivery keeps its origins as the run goes on. -/
theorem DeliveryOrigin.mono {w : Delivery} (h : DeliveryOrigin S moves sents t w)
    (hsub : moves.Sublist moves') (hsents : sents ⊆ sents') :
    DeliveryOrigin S moves' sents' t w := by
  cases w with
  | get j attempt => exact JobOrigin.mono h hsub
  | resolve j attempt held => exact HeldOrigin.mono h hsub
  | blocked j held reason => exact h.imp fun _ hheld => hheld.mono hsub
  | post j attempt held request => exact ⟨h.1.mono hsub, h.2⟩
  | accepted j held status =>
      obtain ⟨hheld, sent, hmem, hsent⟩ := h
      exact ⟨hheld.imp fun _ hheld => hheld.mono hsub, sent, hsents hmem, hsent⟩
  | failed j attempt held =>
      obtain ⟨hheld, sent, hmem, hsent⟩ := h
      exact ⟨hheld.mono hsub, sent, hsents hmem, hsent⟩
  | returned | retry _ | raised => exact trivial

/-- So does every frame. -/
theorem FrameOrigin.mono {f : Frame} (h : FrameOrigin S moves sents t f)
    (hsub : moves.Sublist moves') (hsents : sents ⊆ sents') :
    FrameOrigin S moves' sents' t f := by
  cases f with
  | relay p =>
      exact ProcOrigin.mono h (fun _ _ hev => hev.mono hsub) fun _ _ hen => hen.mono hsub
  | routed => exact trivial
  | delivery w => exact DeliveryOrigin.mono h hsub hsents

/-! ### The relay -/

section Relay

variable [DecidableEq T] {t : T} {db db' : Webhooks.Database T} {p p' : Proc} {env : Env}
  {Ev : Uuid → OutboxEvent → Prop} {En : OutboxEvent → WebhookEndpoint → Prop}

/-- What one step of the relay or a producer does to what is known of events and of endpoints
found for them: both are as they were, if they are kept by stamps and hold for what a producer
starts with and for what a fan-out finds. -/
theorem origin_of_step (h : Webhooks.Step relaySettings t db p db' p')
    (hpublished : ∀ k event now, Ev k event → Ev k (event.published now))
    (hrejected : ∀ k event now e, Ev k event → Ev k (event.rejected relaySettings now e))
    (hstart : ∀ k event, p = .idle → p' = .insert k event → Ev k event)
    (hfound : ∀ k event endpoints claimed published, p = .loop ((k, event) :: claimed) published →
      p' = .fanOut k event endpoints claimed published →
      ∀ e ∈ activeEndpoints event db.endpoints, En event e)
    (hevents : db.events.Every Ev) (hp : ProcOrigin Ev En p) :
    db'.events.Every Ev ∧ ProcOrigin Ev En p' := by
  cases h with
  | start hnext =>
      rcases hnext with rfl | ⟨k, event, -, rfl⟩
      · exact ⟨hevents, trivial⟩
      · exact ⟨hevents, hstart k event rfl rfl⟩
  | endpoints endpoints => exact ⟨hevents, hp⟩
  | rollback => exact ⟨hevents.rollback t, trivial⟩
  | commit _ hnext =>
      refine ⟨hevents.commit t, ?_⟩
      rcases hnext with ⟨published, rfl⟩ | rfl
      · exact trivial
      · exact trivial
  | select _ => exact ⟨hevents, fun claim hmem => absurd hmem List.not_mem_nil⟩
  | lock hview _ hput =>
      have hev := hevents.view hview
      refine ⟨hevents.put hput fun v hv => ?_, fun claim hmem => ?_⟩
      · obtain rfl := Option.some.inj hv
        exact hev
      · rcases List.mem_append.mp hmem with hmem | hmem
        · exact hp claim hmem
        · rw [List.mem_singleton.mp hmem]
          exact hev
  | skip => exact ⟨hevents, hp⟩
  | selected => exact ⟨hevents, hp⟩
  | unknown _ hput =>
      obtain ⟨hev, hclaimed⟩ := List.forall_mem_cons.mp hp
      refine ⟨hevents.put hput fun v hv => ?_, hclaimed⟩
      obtain rfl := Option.some.inj hv
      exact hpublished _ _ _ hev
  | fanOut _ =>
      obtain ⟨hev, hclaimed⟩ := List.forall_mem_cons.mp hp
      exact ⟨hevents, hev, hfound _ _ _ _ _ rfl rfl, hclaimed⟩
  | enqueue => exact ⟨hevents, hp.1, (List.forall_mem_cons.mp hp.2.1).2, hp.2.2⟩
  | pass _ => exact ⟨hevents, hp.1, (List.forall_mem_cons.mp hp.2.1).2, hp.2.2⟩
  | reject hput =>
      refine ⟨hevents.put hput fun v hv => ?_, hp.2.2⟩
      obtain rfl := Option.some.inj hv
      exact hrejected _ _ _ _ hp.1
  | publish hput =>
      refine ⟨hevents.put hput fun v hv => ?_, hp.2.2⟩
      obtain rfl := Option.some.inj hv
      exact hpublished _ _ _ hp.1
  | insert _ hput =>
      refine ⟨hevents.put hput fun v hv => ?_, hp⟩
      obtain rfl := Option.some.inj hv
      exact hp

/-- A job is enqueued for an endpoint of the fan-out that is subscribed. -/
theorem queue_of_exec {a : Webhooks.Act}
    (h : Webhooks.exec relaySettings t a db p = some (db', p')) :
    db'.queue = db.queue ∨ ∃ k event e endpoints claimed published,
      p = .fanOut k event (e :: endpoints) claimed published ∧ subscribed event e = true ∧
        db'.queue = db.queue ++ [job event e] := by
  cases step_of_exec h with
  | @enqueue k event e endpoints claimed published =>
      cases a with
      | stmt env =>
          simp only [Webhooks.exec, stmt, enqueueNext] at h
          split at h
          · rename_i hs
            exact .inr ⟨k, event, e, endpoints, claimed, published, rfl, hs, rfl⟩
          · have hqueue := congrArg (fun r => r.1.queue) (Option.some.inj h)
            exact .inl hqueue.symm
      | fail =>
          have hp := congrArg Prod.snd (Option.some.inj h)
          cases hp
      | drain | emit _ _ => cases h
      | endpoints endpoints =>
          have hqueue := congrArg (fun r => r.1.queue) (Option.some.inj h)
          exact .inl hqueue.symm
  | _ => exact .inl rfl

end Relay

/-! ### The router -/

/-- The rows after a call are those before it, with the same owners, and what a `create` call has
added for its organisation. -/
theorem rows_of_call {call : RouterCall} (h : row ∈ (call.run endpoints).1.rows) :
    (∃ old ∈ endpoints.rows, old.id = row.id ∧ old.organization_id = row.organization_id) ∨
      ∃ org_id payload m, call = .create org_id payload m ∧ row.id = m.id ∧
        row.organization_id = org_id := by
  cases call with
  | create org_id payload m =>
      simp only [RouterCall.run, create_webhook_endpoint] at h
      split at h
      · rename_i endpoints' hinsert
        split at hinsert
        · cases hinsert
        · rw [(Endpoints.rows_insert hinsert).1] at h
          rcases List.mem_append.mp h with h | h
          · exact .inl ⟨row, h, rfl, rfl⟩
          · obtain rfl := List.mem_singleton.mp h
            exact .inr ⟨org_id, payload, m, rfl, rfl, rfl⟩
      · exact .inl ⟨row, h, rfl, rfl⟩
  | update org_id endpoint_id payload refused =>
      simp only [RouterCall.run, update_webhook_endpoint] at h
      split at h
      · exact .inl ⟨row, h, rfl, rfl⟩
      · rename_i endpoint hget
        cases refused with
        | true => exact .inl ⟨row, h, rfl, rfl⟩
        | false =>
            obtain ⟨old, hold, hrow⟩ := List.mem_map.mp h
            refine .inl ⟨old, hold, ?_⟩
            split at hrow
            · obtain rfl := hrow
              exact ⟨rfl, rfl⟩
            · obtain rfl := hrow
              exact ⟨rfl, rfl⟩
  | delete org_id endpoint_id refused =>
      simp only [RouterCall.run, delete_webhook_endpoint] at h
      split at h
      · exact .inl ⟨row, h, rfl, rfl⟩
      · cases refused with
        | true => exact .inl ⟨row, h, rfl, rfl⟩
        | false => exact .inl ⟨row, List.mem_of_mem_filter h, rfl, rfl⟩

/-! ### One step -/

/-- The job that is enqueued for an endpoint of the fan-out that is subscribed. -/
theorem jobOrigin_of_found {floats : Floats F} {e : WebhookEndpoint}
    (he : Found floats moves event e) (hs : subscribed event e = true) :
    JobOrigin floats moves (job event e) := by
  obtain ⟨m, row, emit, select, horder, hfans, hcontent, rfl⟩ := he
  simp only [content, Prod.mk.injEq] at hcontent
  obtain ⟨htype, -, hpayload⟩ := hcontent
  refine ⟨m, row, emit, select, horder, hfans, ?_, ?_⟩
  · rwa [subscribed, ← htype]
  · rw [job, job, htype, hpayload]

/-- The past of a run with one more step. -/
structure Extends (step : Step F T σ) (moves moves' : List (Step F T σ)) : Prop where
  sub : moves.Sublist moves'
  snoc : ∀ {steps : List (Step F T σ)}, steps.Sublist moves →
    (steps ++ [step]).Sublist moves'
  created : created moves ⊆ created moves'
  present : ∀ {row}, Present moves' row →
    Present moves row ∨ row ∈ step.before.shared.endpoints.rows
  create : ∀ {org_id payload m}, step.action = .call (.create org_id payload m) →
    (m.id, org_id) ∈ Worker.created moves'

/-- One more step extends the past, and stands behind all of it. -/
theorem extends_snoc (moves : List (Step F T σ)) (step : Step F T σ) :
    Extends step moves (moves ++ [step]) := by
  have hnew : step ∈ moves ++ [step] := List.mem_append_right _ (List.mem_singleton_self _)
  refine ⟨List.sublist_append_left _ _, fun hsteps => hsteps.append (List.Sublist.refl _),
    fun pair hpair => ?_, ?_, fun {org_id payload m} ha => ?_⟩
  · rw [Worker.created, List.filterMap_append]
    exact List.mem_append_left _ hpair
  · rintro row ⟨step', hstep, hrow⟩
    rcases List.mem_append.mp hstep with hstep | hstep
    · exact .inl ⟨step', hstep, hrow⟩
    · obtain rfl := List.mem_singleton.mp hstep
      exact .inr hrow
  · refine List.mem_filterMap.mpr ⟨_, hnew, ?_⟩
    rw [creation, ha]

/-- The endpoint that a delivery reads is the one of its job. -/
theorem reads_of_get {floats : Floats F} {id : Uuid} {get : Step F T σ}
    (hjob : JobOrigin floats moves j)
    (hid : Tenancy.UUID j.endpoint_id.toList = some id)
    (hbefore : get.before.proc get.thread = .delivery (.get j attempt))
    (hrow : getEndpoint get.before.shared id = some row)
    (hafter : get.after.proc get.thread =
      .delivery (.resolve j attempt ⟨row.url, row.secret, row.organization_id⟩)) :
    Reads j attempt row get := by
  obtain ⟨m, row₀, emit, select, -, -, -, rfl⟩ := hjob
  have hid' : row₀.id = id := by
    have hparse := Tenancy.UUID_str row₀.id
    exact Option.some.inj (hparse.symm.trans hid)
  obtain ⟨hfind, hactive⟩ := Option.filter_eq_some_iff.mp hrow
  have hsame : row.id = id := by
    simpa using List.find?_some hfind
  refine ⟨hbefore, List.mem_of_find?_eq_some hfind, ?_, hactive, hafter⟩
  rw [hsame, ← hid']
  rfl

/-- What a step of a delivery leaves alone, and what is known after it of the delivery, of the
requests that were sent and of the audit rows. -/
structure Worked (S : Platform F σ) (moves' : List (Step F T σ)) (s s' : System F T σ) (t : T)
    (w' : Delivery) : Prop where
  events : s'.events = s.events
  endpoints : s'.endpoints = s.endpoints
  queue : s'.queue = s.queue
  sents : s.sent ⊆ s'.sent
  frame : DeliveryOrigin S moves' s'.sent t w'
  sent : ∀ sent ∈ s'.sent, SentOrigin S moves' sent
  entries : ∀ entry ∈ s'.audit_logs, EntryOrigin S moves' s'.sent entry

/-- A step that sends nothing and records nothing. -/
theorem worked_of_resolver (resolver : σ) {w' : Delivery}
    (hframe : DeliveryOrigin S moves' s.sent t w')
    (hsent : ∀ sent ∈ s.sent, SentOrigin S moves' sent)
    (hentries : ∀ entry ∈ s.audit_logs, EntryOrigin S moves' s.sent entry) :
    Worked S moves' s { s with resolver } t w' :=
  ⟨rfl, rfl, rfl, List.Subset.refl _, hframe, hsent, hentries⟩

/-- A step that ends a delivery with an audit row, about what the delivery holds. -/
theorem worked_of_record {action : String} {metadata : List (String × Value F)} {w' : Delivery}
    (hheld : HeldOrigin S.floats moves' t j attempt held)
    (haction : action ≠ "webhook.delivery_blocked" → ∃ sent ∈ s.sent, sent.job = j)
    (hframe : DeliveryOrigin S moves' s.sent t w')
    (hsent : ∀ sent ∈ s.sent, SentOrigin S moves' sent)
    (hentries : ∀ entry ∈ s.audit_logs, EntryOrigin S moves' s.sent entry) :
    Worked S moves' s (record S s action j held metadata) t w' := by
  rw [record]
  split
  · refine ⟨rfl, rfl, rfl, List.Subset.refl _, hframe, hsent, fun entry hentry => ?_⟩
    rcases List.mem_append.mp hentry with hentry | hentry
    · exact hentries entry hentry
    · obtain rfl := List.mem_singleton.mp hentry
      exact ⟨t, j, attempt, held, hheld, rfl, rfl, haction⟩
  · exact ⟨rfl, rfl, rfl, List.Subset.refl _, hframe, hsent, hentries⟩

/-- A step that sends the request of a delivery. -/
theorem worked_of_post {request : Post} {w' : Delivery}
    (hrequest : SentOrigin S moves' ⟨j, attempt, request⟩)
    (hframe : (∃ sent ∈ s.sent ++ [⟨j, attempt, request⟩], sent.job = j) →
      DeliveryOrigin S moves' (s.sent ++ [⟨j, attempt, request⟩]) t w')
    (hsent : ∀ sent ∈ s.sent, SentOrigin S moves' sent)
    (hentries : ∀ entry ∈ s.audit_logs, EntryOrigin S moves' s.sent entry) :
    Worked S moves' s { s with sent := s.sent ++ [⟨j, attempt, request⟩] } t w' := by
  have hgrow : s.sent ⊆ s.sent ++ [⟨j, attempt, request⟩] := List.subset_append_left _ _
  have hnew : ∃ sent ∈ s.sent ++ [⟨j, attempt, request⟩], sent.job = j :=
    ⟨_, List.mem_append_right _ (List.mem_singleton_self _), rfl⟩
  refine ⟨rfl, rfl, rfl, hgrow, hframe hnew, fun sent hmem => ?_,
    fun entry hentry => (hentries entry hentry).mono (List.Sublist.refl _) hgrow⟩
  rcases List.mem_append.mp hmem with hmem | hmem
  · exact hsent sent hmem
  · obtain rfl := List.mem_singleton.mp hmem
    exact hrequest

/-- The request that a delivery is about to send, by a step of the thread that has read the
endpoint. -/
theorem sentOrigin_of_held {step : Step F T σ} {request : Post}
    (hext : Extends step moves moves') (ht : step.thread = t)
    (hheld : HeldOrigin S.floats moves t j attempt held)
    (hbefore : step.before.proc step.thread = .delivery (.post j attempt held request))
    (hrequest : RequestOrigin S j held request) : SentOrigin S moves' ⟨j, attempt, request⟩ := by
  obtain ⟨m, row, emit, select, row', get, horder, henqueues, hreads, hthread, rfl⟩ := hheld
  exact ⟨m, row, emit, select, row', get, step, hext.snoc horder, henqueues, hreads,
    ht.trans hthread.symm, hbefore, hrequest⟩

/-- What one step of a delivery does. -/
theorem worked_of_work {status : Option ℕ} {w w' : Delivery}
    (h : work S status d.shared w = some (s', w'))
    (hext : Extends ⟨d, t, a, e⟩ moves moves') (hbefore : d.proc t = .delivery w)
    (hafter : e.proc t = .delivery w') (hw : DeliveryOrigin S moves d.shared.sent t w)
    (hsent : ∀ sent ∈ d.shared.sent, SentOrigin S moves' sent)
    (hentries : ∀ entry ∈ d.shared.audit_logs, EntryOrigin S moves' d.shared.sent entry) :
    Worked S moves' d.shared s' t w' := by
  cases w with
  | get j attempt =>
      simp only [work] at h
      split at h
      · obtain ⟨rfl, rfl⟩ := Prod.mk.inj (Option.some.inj h)
        exact worked_of_resolver _ trivial hsent hentries
      · rename_i id hid
        split at h
        · obtain ⟨rfl, rfl⟩ := Prod.mk.inj (Option.some.inj h)
          exact worked_of_resolver _ trivial hsent hentries
        · rename_i row hrow
          obtain ⟨rfl, rfl⟩ := Prod.mk.inj (Option.some.inj h)
          have hreads : Reads j attempt row ⟨d, t, a, e⟩ :=
            reads_of_get hw hid hbefore hrow hafter
          obtain ⟨m, row₀, emit, select, horder, henqueues⟩ := hw
          have hheld : HeldOrigin S.floats moves' t j attempt
              ⟨row.url, row.secret, row.organization_id⟩ :=
            ⟨m, row₀, emit, select, row, _, hext.snoc horder, henqueues, hreads, rfl, rfl⟩
          exact worked_of_resolver _ hheld hsent hentries
  | resolve j attempt held =>
      have hheld : HeldOrigin S.floats moves' t j attempt held := HeldOrigin.mono hw hext.sub
      simp only [work] at h
      split at h
      · obtain ⟨rfl, rfl⟩ := Prod.mk.inj (Option.some.inj h)
        exact worked_of_resolver _ trivial hsent hentries
      · obtain ⟨rfl, rfl⟩ := Prod.mk.inj (Option.some.inj h)
        exact worked_of_resolver _ ⟨attempt, hheld⟩ hsent hentries
      · rename_i url host sni_hostname resolver hdeliver
        split at h
        · obtain ⟨rfl, rfl⟩ := Prod.mk.inj (Option.some.inj h)
          exact worked_of_resolver _ trivial hsent hentries
        · rename_i payload hpayload
          obtain ⟨rfl, rfl⟩ := Prod.mk.inj (Option.some.inj h)
          have hrequest : RequestOrigin S j held
              (newPost S j held payload url host sni_hostname) :=
            ⟨payload, _, _, url, host, sni_hostname, hpayload, hdeliver, rfl⟩
          exact worked_of_resolver _ ⟨hheld, hrequest⟩ hsent hentries
  | blocked j held reason =>
      obtain ⟨attempt, hheld⟩ := hw
      obtain ⟨rfl, rfl⟩ := Prod.mk.inj (Option.some.inj h)
      exact worked_of_record (hheld.mono hext.sub) (fun hne => absurd rfl hne) trivial hsent
        hentries
  | post j attempt held request =>
      obtain ⟨hheld, hrequest⟩ := hw
      have hheld' : HeldOrigin S.floats moves' t j attempt held := hheld.mono hext.sub
      have hnew : SentOrigin S moves' ⟨j, attempt, request⟩ :=
        sentOrigin_of_held hext rfl hheld hbefore hrequest
      simp only [work] at h
      split at h
      · split at h
        · obtain ⟨rfl, rfl⟩ := Prod.mk.inj (Option.some.inj h)
          exact worked_of_post hnew (fun hold => ⟨⟨attempt, hheld'⟩, hold⟩) hsent hentries
        · obtain ⟨rfl, rfl⟩ := Prod.mk.inj (Option.some.inj h)
          exact worked_of_post hnew (fun hold => ⟨hheld', hold⟩) hsent hentries
      · obtain ⟨rfl, rfl⟩ := Prod.mk.inj (Option.some.inj h)
        exact worked_of_post hnew (fun hold => ⟨hheld', hold⟩) hsent hentries
  | accepted j held status =>
      obtain ⟨⟨attempt, hheld⟩, hold⟩ := hw
      obtain ⟨rfl, rfl⟩ := Prod.mk.inj (Option.some.inj h)
      exact worked_of_record (hheld.mono hext.sub) (fun _ => hold) trivial hsent hentries
  | failed j attempt held =>
      obtain ⟨hheld, hold⟩ := hw
      obtain ⟨rfl, rfl⟩ := Prod.mk.inj (Option.some.inj h)
      exact worked_of_record (hheld.mono hext.sub) (fun _ => hold) trivial hsent hentries
  | returned | retry _ | raised => cases h

section Assembly

variable [DecidableEq T] {f : Frame}

/-- The parts of the invariant after a step. -/
theorem Origins.assemble (h : Origins S moves d) (hext : Extends ⟨d, t, a, e⟩ moves moves')
    (he : e = ⟨s', Function.update d.proc t f⟩)
    (hevents : s'.events.Every (Emitted S.floats moves'))
    (hrows : ∀ row ∈ s'.endpoints.rows, (row.id, row.organization_id) ∈ created moves')
    (hqueue : ∀ j ∈ s'.queue, JobOrigin S.floats moves' j)
    (hframe : FrameOrigin S moves' s'.sent t f) (hsents : d.shared.sent ⊆ s'.sent)
    (hsent : ∀ sent ∈ s'.sent, SentOrigin S moves' sent)
    (hentries : ∀ entry ∈ s'.audit_logs, EntryOrigin S moves' s'.sent entry) :
    Origins S moves' e := by
  subst he
  refine ⟨hevents, fun row hrow => ?_, hrows, hqueue, fun u => ?_, hsent, hentries⟩
  · rcases hext.present hrow with hrow | hrow
    · exact hext.created (h.present row hrow)
    · exact hext.created (h.rows row hrow)
  · show FrameOrigin S moves' s'.sent u (Function.update d.proc t f u)
    by_cases hu : u = t
    · subst hu
      rwa [Function.update_self]
    · rw [Function.update_of_ne hu]
      exact (h.frames u).mono hext.sub hsents

/-- The parts of the invariant are kept while the past grows. -/
theorem Origins.kept {step : Step F T σ} (h : Origins S moves d)
    (hext : Extends step moves moves') :
    d.shared.events.Every (Emitted S.floats moves') ∧
      (∀ row ∈ d.shared.endpoints.rows, (row.id, row.organization_id) ∈ created moves') ∧
      (∀ j ∈ d.shared.queue, JobOrigin S.floats moves' j) ∧
      (∀ sent ∈ d.shared.sent, SentOrigin S moves' sent) ∧
      ∀ entry ∈ d.shared.audit_logs, EntryOrigin S moves' d.shared.sent entry :=
  ⟨⟨fun hrow => (h.events.committed hrow).mono hext.sub,
      fun hrow => (h.events.written hrow).mono hext.sub⟩,
    fun row hrow => hext.created (h.rows row hrow),
    fun j hj => (h.queue j hj).mono hext.sub,
    fun sent hsent => (h.sent sent hsent).mono hext.sub,
    fun entry hentry => (h.entries entry hentry).mono hext.sub (List.Subset.refl _)⟩

/-- A step of the relay or a producer. -/
theorem Origins.relay (h : Origins S moves d) (hext : Extends ⟨d, t, a, e⟩ moves moves')
    (he : e = ⟨s', Function.update d.proc t f⟩) {p : Proc} {b : Webhooks.Act}
    (hp : d.proc t = .relay p) (hexec : relay t b d.shared p = some (s', f))
    (hstart : ∀ k event, b = .emit k event → Emitted S.floats moves' k event) :
    Origins S moves' e := by
  obtain ⟨hevents, hrows, hqueue, hsent, hentries⟩ := h.kept hext
  obtain ⟨⟨db', p'⟩, hdb, hresult⟩ := Option.map_eq_some_iff.mp hexec
  obtain ⟨rfl, rfl⟩ := Prod.mk.inj hresult
  have hold := h.frames t
  rw [hp] at hold
  have hproc := hold.mono hext.sub (List.Subset.refl d.shared.sent)
  have hafter : e.proc t = .relay p' := by
    rw [he]
    exact Function.update_self _ _ _
  -- the relay comes to an event, which has been dispatched before
  have hfound : ∀ k event endpoints claimed published,
      p = .loop ((k, event) :: claimed) published →
      p' = .fanOut k event endpoints claimed published →
      ∀ endpoint ∈ activeEndpoints event d.shared.database.endpoints,
        Found S.floats moves' event endpoint := by
    rintro k event endpoints claimed published rfl rfl endpoint hmem
    obtain ⟨m, emit, hemit, hk, hcontent⟩ := hold (k, event) List.mem_cons_self
    obtain ⟨hmem, hselect⟩ := List.mem_filter.mp hmem
    obtain ⟨horg, hactive⟩ := of_decide_eq_true hselect
    obtain ⟨row, hrow, rfl⟩ := List.mem_map.mp hmem
    have horder := hext.snoc (List.singleton_sublist.mpr hemit)
    have horganization : event.organization_id = (dispatch S.floats m).organization_id :=
      congrArg (fun content => content.2.1) hcontent
    exact ⟨m, row, emit, _, horder,
      ⟨⟨k, event, endpoints, claimed, published, hk, hcontent, hp, hafter⟩, hrow,
        horg.trans horganization, hactive⟩, hcontent, rfl⟩
  have hbegin : ∀ k event, p = .idle → p' = .insert k event → Emitted S.floats moves' k event := by
    rintro k event rfl rfl
    cases b with
    | emit k' event' =>
        simp only [Webhooks.exec] at hdb
        split at hdb
        · obtain ⟨-, hnext⟩ := Prod.mk.inj (Option.some.inj hdb)
          obtain ⟨rfl, rfl⟩ := Proc.insert.inj hnext
          exact hstart _ _ rfl
        · cases hdb
    | drain =>
        obtain ⟨-, hnext⟩ := Prod.mk.inj (Option.some.inj hdb)
        cases hnext
    | endpoints endpoints =>
        obtain ⟨-, hnext⟩ := Prod.mk.inj (Option.some.inj hdb)
        cases hnext
    | stmt env | fail => cases hdb
  obtain ⟨hevents', hframe⟩ := origin_of_step (step_of_exec hdb) (fun _ _ _ hev => hev)
    (fun _ _ _ _ hev => hev) hbegin hfound hevents hproc
  refine h.assemble hext he hevents' hrows (fun j hj => ?_) hframe (List.Subset.refl _) hsent
    hentries
  rcases queue_of_exec hdb with hsame | ⟨k, event, endpoint, rest, claimed, published, rfl, hs,
    hgrown⟩
  · rw [hsame] at hj
    exact hqueue j hj
  · rw [hgrown] at hj
    rcases List.mem_append.mp hj with hj | hj
    · exact hqueue j hj
    · rw [List.mem_singleton.mp hj]
      exact jobOrigin_of_found (hproc.2.1 endpoint List.mem_cons_self) hs

/-- A call of the router. -/
theorem Origins.call (h : Origins S moves d) {call : RouterCall}
    (hext : Extends ⟨d, t, .call call, e⟩ moves moves')
    (he : e = ⟨{ d.shared with endpoints := (call.run d.shared.endpoints).1 },
      Function.update d.proc t .routed⟩) :
    Origins S moves' e := by
  obtain ⟨hevents, hrows, hqueue, hsent, hentries⟩ := h.kept hext
  refine h.assemble hext he hevents (fun row hrow => ?_) hqueue trivial (List.Subset.refl _) hsent
    hentries
  rcases rows_of_call hrow with ⟨old, hold, hid, horg⟩ | ⟨org_id, payload, m, rfl, hid, horg⟩
  · rw [← hid, ← horg]
    exact hrows old hold
  · rw [hid, horg]
    exact hext.create rfl

/-- **One step** keeps the invariant. -/
theorem Origins.step (h : Origins S moves d) (hstep : (program S).step d t a = some e) :
    Origins S (moves ++ [⟨d, t, a, e⟩]) e := by
  have hext := extends_snoc moves ⟨d, t, a, e⟩
  generalize moves ++ [⟨d, t, a, e⟩] = moves' at hext ⊢
  obtain ⟨s', f, hexec, he⟩ := Program.step_eq_some_iff.mp hstep
  obtain ⟨hevents, hrows, hqueue, hsent, hentries⟩ := h.kept hext
  have hframe := h.frames t
  simp only [program] at hexec
  generalize hp : d.proc t = p at hexec hframe
  cases p with
  | relay p =>
      cases a with
      | drain => exact h.relay hext he hp hexec fun k event hb => by cases hb
      | stmt env => exact h.relay hext he hp hexec fun k event hb => by cases hb
      | fail => exact h.relay hext he hp hexec fun k event hb => by cases hb
      | dispatch k m =>
          refine h.relay hext he hp hexec fun k' event hb => ?_
          obtain ⟨rfl, rfl⟩ := Webhooks.Act.emit.inj hb
          have hnew := hext.snoc (List.nil_sublist moves)
          exact ⟨m, _, hnew.subset (List.mem_singleton_self _), rfl, rfl⟩
      | call call =>
          cases p <;> simp only [exec, reduceCtorEq] at hexec
          obtain ⟨rfl, rfl⟩ := Prod.mk.inj (Option.some.inj hexec)
          exact h.call hext he
      | deliver j attempt =>
          cases p <;> simp only [exec, reduceCtorEq] at hexec
          split at hexec
          · rename_i hj
            obtain ⟨rfl, rfl⟩ := Prod.mk.inj (Option.some.inj hexec)
            exact h.assemble hext he hevents hrows hqueue (hqueue j hj) (List.Subset.refl _) hsent
              hentries
          · cases hexec
      | work status => simp only [exec, reduceCtorEq] at hexec
  | routed => cases a <;> simp only [exec, reduceCtorEq] at hexec
  | delivery w =>
      cases a with
      | work status =>
          obtain ⟨⟨s'', w'⟩, hwork, hresult⟩ := Option.map_eq_some_iff.mp hexec
          obtain ⟨rfl, rfl⟩ := Prod.mk.inj hresult
          have hafter : e.proc t = .delivery w' := by
            rw [he]
            exact Function.update_self _ _ _
          have hworked := worked_of_work hwork hext hp hafter hframe hsent hentries
          refine h.assemble hext he ?_ ?_ ?_ hworked.frame hworked.sents hworked.sent
            hworked.entries
          · rwa [hworked.events]
          · rwa [hworked.endpoints]
          · rwa [hworked.queue]
      | fail =>
          simp only [exec] at hexec
          split at hexec
          · obtain ⟨rfl, rfl⟩ := Prod.mk.inj (Option.some.inj hexec)
            exact h.assemble hext he hevents hrows hqueue trivial (List.Subset.refl _) hsent
              hentries
          · cases hexec
      | _ => simp only [exec, reduceCtorEq] at hexec

/-- **The invariant holds along every run.** -/
theorem origins_of_trace (hc : Start c) (h : (program S).Trace Any c moves d) :
    Origins S moves d := by
  induction h with
  | nil =>
      refine ⟨?_, ?_, ?_, ?_, fun t => ?_, ?_, ?_⟩
      · rw [hc.events]
        exact Table.every_empty
      · rintro row ⟨step, hstep, -⟩
        cases hstep
      · rw [hc.endpoints]
        exact fun row hrow => nomatch hrow
      · rw [hc.queue]
        exact fun j hj => nomatch hj
      · rw [hc.idle t]
        exact trivial
      · rw [hc.sent]
        exact fun sent hsent => nomatch hsent
      · rw [hc.audit_logs]
        exact fun entry hentry => nomatch hentry
  | snoc _ _ hstep ih => exact ih.step hstep

end Assembly

/-! ### Whose events an endpoint gets -/

section Owner

/-- The steps that have led to a request, in this order: the `dispatch` call; the `SELECT` of the
fan-out of its event, which finds the endpoint active, and subscribed; the `session.get` of the
delivery, which finds it active with this row; and the request, by the same delivery. -/
structure Course (floats : Floats F) (moves : List (Step F T σ)) (sent : Sent) (m : Emission F)
    (row : EndpointRow) (emit select get post : Step F T σ) : Prop where
  order : [emit, select, get, post].Sublist moves
  awaited : ∃ row', FansOut floats emit select m row' ∧ row'.id = row.id ∧
    Awaits (dispatch floats m) row'.toWebhookEndpoint
  reads : Reads sent.job sent.attempt row get
  thread : post.thread = get.thread
  posts : post.before.proc post.thread = .delivery (.post sent.job sent.attempt
    ⟨row.url, row.secret, row.organization_id⟩ sent.request)

/-- A request delivers a dispatched event to the endpoint with this row. -/
structure Delivers (S : Platform F σ) (moves : List (Step F T σ)) (sent : Sent) (m : Emission F)
    (row : EndpointRow) : Prop where
  dispatched : Dispatched moves m
  endpoint : row.id.str = sent.job.endpoint_id
  /-- The endpoint has awaited the event when it was fanned out, and was active when the delivery
  has read it. -/
  course : ∃ emit select get post, Course S.floats moves sent m row emit select get post
  owner : row.organization_id = m.organization_id
  event_type : ("X-Webhook-Event", m.event_type.toList) ∈ sent.request.headers
  /-- The target is one that the egress guard has pinned for the URL of the row. -/
  target : ∃ resolver resolver' host, ("Host", host) ∈ sent.request.headers ∧
    Egress.deliver_webhook S.net row.url.toList resolver =
      (.post sent.request.url host sent.request.sni_hostname, resolver')
  /-- Its address is public. -/
  global : ∃ text ip, Egress.dialled sent.request.url = some (Egress.literal text ip) ∧
    Ipaddress.ip_address text = some ip ∧ Egress.is_public ip = true
  /-- The receiver reads the payload of the event. -/
  payload : ∃ payload, m.payload.Same payload ∧
    (Text.decodeUtf8 sent.request.content).bind (fun text => loads S.floats text.toList) =
      some payload
  /-- It accepts the signature with the secret of the row. -/
  signature : ∃ signature, (SIGNATURE_HEADER, signature.toList) ∈ sent.request.headers ∧
    verify_signature S.hmac row.secret sent.request.content signature = some true

/-- A payload that comes from JSON has no key twice. -/
theorem distinct_payload (m : Emission F) : m.payload.Distinct := by
  have hkeys : ["id", "event_type", "organization_id", "data"].Nodup := by
    decide
  refine .dict hkeys fun item hitem => ?_
  simp only [List.mem_cons, List.not_mem_nil, or_false] at hitem
  rcases hitem with rfl | rfl | rfl | rfl
  · exact .scalar trivial
  · exact .scalar trivial
  · exact .scalar trivial
  · exact m.distinct

/-- The job of an event holds its payload. -/
theorem loads_dispatch (floats : Floats F) (m : Emission F) :
    loads floats (dispatch floats m).payload.toList = some m.payload := by
  rw [dispatch, String.toList_ofList, loads_dumps floats storedStyle (distinct_payload m),
    arranged_of_unsorted rfl]

/-- What a delivery posts is the body made of its payload, wherever it is posted to. -/
theorem newPost_content (S : Platform F σ) (j : Job) (held : Held) (payload : Value F)
    (url host sni_hostname : List Char) :
    (newPost S j held payload url host sni_hostname).content = body S.floats payload := rfl

/-- The headers of a delivery. -/
theorem mem_headers (S : Platform F σ) (j : Job) (held : Held) (payload : Value F)
    (url host sni_hostname : List Char) :
    ("Content-Type", "application/json".toList) ∈
        (newPost S j held payload url host sni_hostname).headers ∧
      ("Host", host) ∈ (newPost S j held payload url host sni_hostname).headers ∧
      (SIGNATURE_HEADER, "sha256=".toList ++
          (sign_payload S.hmac held.secret (body S.floats payload)).toList) ∈
        (newPost S j held payload url host sni_hostname).headers ∧
      ("X-Webhook-Event", j.event_type.toList) ∈
        (newPost S j held payload url host sni_hostname).headers :=
  ⟨List.mem_cons_self, List.mem_cons_of_mem _ List.mem_cons_self,
    List.mem_cons_of_mem _ (List.mem_cons_of_mem _ List.mem_cons_self),
    List.mem_cons_of_mem _ (List.mem_cons_of_mem _ (List.mem_cons_of_mem _ List.mem_cons_self))⟩

variable [DecidableEq T]

/-- An endpoint does not change its owner. -/
theorem Origins.owner_unique (h : Origins S moves d) (hfresh : FreshIds moves) {row' : EndpointRow}
    (hrow : Present moves row) (hrow' : Present moves row') (hid : row.id = row'.id) :
    row.organization_id = row'.organization_id := by
  have hpairs := List.inj_on_of_nodup_map hfresh (h.present row hrow) (h.present row' hrow') hid
  exact (Prod.mk.inj hpairs).2

omit [DecidableEq T] in
/-- The endpoint of a job has awaited its event. -/
theorem Enqueues.awaits {floats : Floats F} {emit select : Step F T σ} {m : Emission F}
    (h : Enqueues floats emit select m row j) :
    Awaits (dispatch floats m) row.toWebhookEndpoint :=
  ⟨h.fansOut.organization_id, h.fansOut.active, h.subscribed⟩

omit [DecidableEq T] in
/-- The event of a job that was enqueued has been dispatched. -/
theorem Enqueues.dispatched {floats : Floats F} {emit select : Step F T σ} {m : Emission F}
    (h : Enqueues floats emit select m row j) (hemit : emit ∈ moves) : Dispatched moves m := by
  obtain ⟨k, _, _, _, _, hk, -⟩ := h.fansOut.steps
  exact ⟨emit, hemit, k, hk⟩

/-- The organisation of a job's event owns the endpoint that the job finds. -/
theorem Origins.owner (h : Origins S moves d) (hfresh : FreshIds moves) {row' : EndpointRow}
    {emit select get : Step F T σ} {m : Emission F}
    (henqueues : Enqueues S.floats emit select m row j) (hreads : Reads j attempt row' get)
    (hselect : select ∈ moves) (hget : get ∈ moves) :
    row'.id = row.id ∧ row'.organization_id = m.organization_id := by
  have hsame : row'.id = row.id := by
    refine Tenancy.str_injective ?_
    rw [hreads.endpoint, henqueues.job]
    rfl
  refine ⟨hsame, ?_⟩
  rw [h.owner_unique hfresh ⟨get, hget, hreads.found⟩ ⟨select, hselect, henqueues.fansOut.found⟩
    hsame]
  exact Option.some.inj henqueues.fansOut.organization_id

/-- A signature that was made with the secret of a receiver. -/
theorem verify_signature_self (hmac : Hmac) (secret : String) (payload : List UInt8) :
    verify_signature hmac secret payload ("sha256=" ++ sign_payload hmac secret payload) =
      some true := by
  rw [verify_signature_of_sign]
  simp

/-- **A request that was sent delivers an event**: under fresh ids the row of the endpoint is the
same at the fan-out and at the delivery. -/
theorem SentOrigin.delivers (h : Origins S moves d) (hfresh : FreshIds moves) {sent : Sent}
    (hsent : SentOrigin S moves sent) : ∃ m row, Delivers S moves sent m row := by
  obtain ⟨m, row, emit, select, row', get, post, horder, henqueues, hreads, hthread, hposts,
    payload, resolver, resolver', url, host, sni_hostname, hloads, htarget, hrequest⟩ := hsent
  have hmem : ∀ step ∈ [emit, select, get, post], step ∈ moves := fun _ hstep =>
    horder.subset hstep
  obtain ⟨hid, howner⟩ := h.owner hfresh henqueues hreads (hmem select (by simp))
    (hmem get (by simp))
  have hj := henqueues.job
  have hpayload : payload = m.payload := by
    rw [hj] at hloads
    exact Option.some.inj (hloads.symm.trans (loads_dispatch S.floats m))
  subst hpayload
  have hevent : sent.job.event_type = m.event_type := by
    rw [hj]
    rfl
  obtain ⟨-, hhost, hsigned, htype⟩ := mem_headers S sent.job
    ⟨row'.url, row'.secret, row'.organization_id⟩ m.payload url host sni_hostname
  rw [← hrequest] at hhost hsigned htype
  rw [hevent] at htype
  have hcontent : sent.request.content = body S.floats m.payload := by
    rw [hrequest, newPost_content]
  refine ⟨m, row', henqueues.dispatched (hmem emit (by simp)), hreads.endpoint,
    ⟨emit, select, get, post, horder, ⟨row, henqueues.fansOut, hid.symm, henqueues.awaits⟩, hreads,
      hthread, hposts⟩,
    howner, htype, ⟨resolver, resolver', host, hhost, ?_⟩, ?_, ?_, ?_⟩
  · rw [hrequest]
    exact htarget
  · obtain ⟨parts, text, ip, -, -, hdialled, hip, hpublic⟩ := Egress.deliver_webhook_post htarget
    rw [hrequest]
    exact ⟨text, ip, hdialled, hip, hpublic⟩
  · rw [hcontent]
    exact loads_body S.floats (distinct_payload m)
  · rw [hcontent]
    refine ⟨_, ?_, verify_signature_self S.hmac row'.secret (body S.floats m.payload)⟩
    rwa [String.toList_append]

omit [DecidableEq T] in
/-- The row with which a request was made was in the table. -/
theorem Delivers.present {sent : Sent} {m : Emission F} (h : Delivers S moves sent m row) :
    Present moves row := by
  obtain ⟨emit, select, get, post, hcourse⟩ := h.course
  exact ⟨get, hcourse.order.subset (by simp), hcourse.reads.found⟩

/-- **Whose events an endpoint gets.** In every run of dispatches, relay runs, calls of the router
and deliveries, however they interleave, retry or crash: each request that is sent delivers the
event of a `dispatch` call to an endpoint of the organisation that it was dispatched for. The
endpoint was active and subscribed at the `SELECT` of the event's fan-out, and active at that of
the delivery (`Course`); the target is one that the egress guard has pinned for its URL; the body
reads as the payload of the event; and the endpoint's secret verifies the signature. -/
theorem delivered_to_owner (hc : Start c) (h : (program S).Trace Any c moves d)
    (hfresh : FreshIds moves) {sent : Sent} (hsent : sent ∈ d.shared.sent) :
    ∃ m row, Delivers S moves sent m row := by
  have horigins := origins_of_trace hc h
  exact (horigins.sent sent hsent).delivers horigins hfresh

/-- **Whose audit log records a delivery.** Each audit row of a delivery is one of the organisation
that owns the endpoint and has dispatched an event that it awaits; and unless it records that the
delivery was blocked, a request was sent to the endpoint, with an event of that organisation. -/
theorem audited_to_owner (hc : Start c) (h : (program S).Trace Any c moves d)
    (hfresh : FreshIds moves) {entry : AuditEntry F} (hentry : entry ∈ d.shared.audit_logs) :
    ∃ m row, Dispatched moves m ∧ Present moves row ∧
      Awaits (dispatch S.floats m) row.toWebhookEndpoint ∧ row.id.str = entry.target ∧
      entry.organization_id = m.organization_id ∧
      (entry.action ≠ "webhook.delivery_blocked" → ∃ sent ∈ d.shared.sent,
        sent.job.endpoint_id = entry.target ∧ ∃ m' row', Delivers S moves sent m' row' ∧
          m'.organization_id = entry.organization_id) := by
  have horigins := origins_of_trace hc h
  obtain ⟨t, j, attempt, held, ⟨m, row, emit, select, row', get, horder, henqueues, hreads, -, rfl⟩,
    htarget, horg, hsent⟩ := horigins.entries entry hentry
  have hmem : ∀ step ∈ [emit, select, get], step ∈ moves := fun _ hstep => horder.subset hstep
  obtain ⟨hid, howner⟩ := horigins.owner hfresh henqueues hreads (hmem select (by simp))
    (hmem get (by simp))
  refine ⟨m, row, henqueues.dispatched (hmem emit (by simp)),
    ⟨select, hmem select (by simp), henqueues.fansOut.found⟩, henqueues.awaits, ?_,
    horg.trans howner, fun haction => ?_⟩
  · rw [htarget, henqueues.job]
    rfl
  · obtain ⟨sent, hsents, hsentjob⟩ := hsent haction
    obtain ⟨m', row'', hdelivers⟩ := (horigins.sent sent hsents).delivers horigins hfresh
    have hid' : row''.id = row'.id := by
      refine Tenancy.str_injective ?_
      rw [hdelivers.endpoint, hsentjob, hreads.endpoint]
    have hsame := horigins.owner_unique hfresh hdelivers.present
      ⟨get, hmem get (by simp), hreads.found⟩ hid'
    refine ⟨sent, hsents, by rw [hsentjob, htarget], m', row'', hdelivers, ?_⟩
    rw [← hdelivers.owner, hsame, horg]

end Owner

end Proofs

/-! ### A delivery from its dispatch to its audit row -/

/-- A platform with a resolver that knows one address. -/
def smallPlatform : Platform Unit Unit where
  floats := nanFloats
  net :=
    { lower := id
      nfkc := id
      repr := id
      getaddrinfo := fun _ _ _ => (.infos ["1.1.1.1".toList], ()) }
  hmac _ message := [UInt8.ofNat message.length]
  include_audit := true

/-- The empty payload has no key twice. -/
theorem distinct_nil : (Value.dict [] : Value Unit).Distinct :=
  .dict List.nodup_nil fun _ hitem => absurd hitem List.not_mem_nil

/-- An event of organisation 1. -/
def smallEmission : Emission Unit :=
  ⟨"a", Uuid.ofNat 1, [], none, Uuid.ofNat 2, 0, distinct_nil⟩

/-- The schema admits the URL of the small run. -/
theorem small_url : "https://h".length ≤ 2048 := by
  decide

/-- And an endpoint without a secret. -/
theorem small_secret : ∀ s : String, none = some s → s.length ≤ 255 := by
  simp

/-- An endpoint that awaits it. -/
def smallCreate : RouterCall :=
  .create (Uuid.ofNat 1) ⟨"https://h", ["a"], none, true, small_url, Nat.le_refl 1, small_secret⟩
    ⟨Uuid.ofNat 3, "k", 0, false⟩

def smallJob : Job :=
  ⟨"deliver_webhook", (Uuid.ofNat 3).str, "a",
    (dispatch smallPlatform.floats smallEmission).payload⟩

def smallStart : Config (Fin 4) (System Unit (Fin 4) Unit) Frame where
  shared := ⟨.empty, .empty, [], (), [], []⟩
  proc _ := .relay .idle

/-- The endpoint is registered, the event dispatched, relayed, delivered and recorded. -/
def smallSchedule : List (Fin 4 × Act Unit) :=
  [(0, .call smallCreate), (1, .dispatch (Uuid.ofNat 4) smallEmission)] ++
    List.replicate 2 (1, .stmt ⟨1, [Uuid.ofNat 4], true⟩) ++
    (2, .drain) :: List.replicate 7 (2, .stmt ⟨1, [Uuid.ofNat 4], true⟩) ++
    (3, .deliver smallJob 1) :: List.replicate 4 (3, .work (some 204))

/-- The small run begins with nothing stored and nothing under way. -/
theorem start_smallStart : Start smallStart := ⟨rfl, rfl, rfl, rfl, rfl, fun _ => rfl⟩

/-- One request is sent, and one audit row recorded. -/
theorem small_run : ∃ r ∈ (program smallPlatform).record Any smallStart smallSchedule,
    FreshIds r.1 ∧ r.2.shared.sent ≠ [] ∧ r.2.shared.audit_logs ≠ [] := by
  obtain ⟨r, hrecord, hfresh, hsent, hentries⟩ :
      ∃ r ∈ (program smallPlatform).record Any smallStart smallSchedule,
        ((created r.1).map Prod.fst).Nodup ∧ r.2.shared.sent.length = 1 ∧
          r.2.shared.audit_logs.length = 1 := by
    decide +kernel
  refine ⟨r, hrecord, hfresh, ?_, ?_⟩
  · exact List.ne_nil_of_length_pos (hsent ▸ Nat.one_pos)
  · exact List.ne_nil_of_length_pos (hentries ▸ Nat.one_pos)

/-- The small run, and what its one request delivers. -/
theorem delivered_to_owner_small : Start smallStart ∧
    ∃ r ∈ (program smallPlatform).record Any smallStart smallSchedule, FreshIds r.1 ∧
      ∃ sent ∈ r.2.shared.sent, ∃ m row, Delivers smallPlatform r.1 sent m row := by
  obtain ⟨r, hrecord, hfresh, hsent, -⟩ := small_run
  obtain ⟨sent, hmem⟩ := List.exists_mem_of_ne_nil _ hsent
  exact ⟨start_smallStart, r, hrecord, hfresh, sent, hmem,
    delivered_to_owner start_smallStart (Program.trace_of_record hrecord) hfresh hmem⟩

/-- The small run, and the organisation of its one audit row. -/
theorem audited_to_owner_small : Start smallStart ∧
    ∃ r ∈ (program smallPlatform).record Any smallStart smallSchedule, FreshIds r.1 ∧
      ∃ entry ∈ r.2.shared.audit_logs, ∃ m row, Dispatched r.1 m ∧ Present r.1 row ∧
        row.id.str = entry.target ∧ entry.organization_id = m.organization_id := by
  obtain ⟨r, hrecord, hfresh, -, hentries⟩ := small_run
  obtain ⟨entry, hmem⟩ := List.exists_mem_of_ne_nil _ hentries
  obtain ⟨m, row, hm, hrow, -, hid, horg, -⟩ := audited_to_owner start_smallStart
    (Program.trace_of_record hrecord) hfresh hmem
  exact ⟨start_smallStart, r, hrecord, hfresh, entry, hmem, m, row, hm, hrow, hid, horg⟩

end BackendManager.Webhooks.Worker
