import BackendManager.Egress
import BackendManager.JsonCanonical
import BackendManager.OutboxRelay
import BackendManager.TenantContext
import BackendManager.Text
import BackendManager.WebhookEndpoints

/-!
# The Whole Webhook Service

From `dispatch` to the POST request: events are written by `dispatch`, fanned out by the relay to
the endpoints that members of organisations register, and posted by `deliver_webhook`, which a
worker runs for each job of the queue. All of these interleave: the relay at every SQL statement,
a delivery at every point where it gives up control, and calls of the endpoint router as a whole.

## Conventions

* The relay and the producers of events are those of `OutboxRelay`; every event comes from
  `dispatch`. Endpoints are written by calls of the router and by nobody else.
* A job of the queue may be run at any time, any number of times and by any number of workers: arq
  runs a job again after `Retry`, and after a crash of its worker. `attempt` is `job_try`.
* The column `payload` and the job hold the text of a JSON object with the separators of
  `json.dumps`; `deliver_webhook` writes that object again, with its keys sorted.
* A request that ends in no answer has the status `none`.

## Main results

* `verify_signature_of_sign`: a receiver with the secret accepts a signature exactly for what has
  the same HMAC.
* `body_canonical`: what the body of a delivery says of its payload.
-/

namespace BackendManager.Webhooks.Worker

open Egress (Net)
open Interleaving ReadCommitted Json

/-! ### Signatures -/

/-- `SIGNATURE_HEADER`. -/
def SIGNATURE_HEADER : String := "X-Webhook-Signature"

/-- HMAC-SHA256, by key and message. -/
abbrev Hmac := List UInt8 → List UInt8 → List UInt8

/-- `hexdigest`. -/
def hexdigest (digest : List UInt8) : String :=
  String.ofList (digest.flatMap fun b => Uuid.hexDigits 2 b.toNat)

/-- `sign_payload`. -/
def sign_payload (hmac : Hmac) (secret : String) (payload : List UInt8) : String :=
  hexdigest (hmac (Text.utf8 secret) payload)

/-- `str.removeprefix`. -/
def removeprefix (s start : String) : String :=
  if start.toList.isPrefixOf s.toList then String.ofList (s.toList.drop start.toList.length) else s

/-- `verify_signature`; `none` is the `TypeError` of `compare_digest` for text beyond ASCII. -/
def verify_signature (hmac : Hmac) (secret : String) (payload : List UInt8) (signature : String) :
    Option Bool :=
  let expected := sign_payload hmac secret payload
  let candidate := removeprefix signature "sha256="
  if candidate.toList.all fun c => c.toNat < 128 then some (expected = candidate) else none

/-! ### Events -/

/-- A space is blank. -/
theorem blank_space : ∀ c ∈ [' '], isBlank c = true :=
  fun _ hc => List.mem_singleton.mp hc ▸ rfl

/-- And so is nothing at all. -/
theorem blank_nil : ∀ c ∈ [], isBlank c = true := fun _ hc => nomatch hc

/-- `json.dumps` of a JSON column. -/
def storedStyle : Style := ⟨[' '], [' '], false, blank_space, blank_space⟩

/-- `separators=(",", ":"), sort_keys=True`. -/
def bodyStyle : Style := ⟨[], [], true, blank_nil, blank_nil⟩

/-- What one `dispatch` call takes: its arguments, and what it gets from outside. -/
structure Emission (F : Type) where
  event_type : String
  organization_id : Uuid
  data : List (String × Value F)
  event_id : Option String
  /-- `uuid.uuid4()`. -/
  uuid : Uuid
  created_at : ℕ
  /-- The keys of a dict differ. -/
  distinct : (Value.dict data).Distinct

/-- `event_id or str(uuid.uuid4())`. -/
def Emission.eid {F : Type} (m : Emission F) : String :=
  (m.event_id.filter (· ≠ "")).getD m.uuid.str

/-- The payload of the event. -/
def Emission.payload {F : Type} (m : Emission F) : Value F :=
  .dict [("id", .str m.eid), ("event_type", .str m.event_type),
    ("organization_id", .str m.organization_id.str), ("data", .dict m.data)]

/-- `dispatch`: the row that it adds to the transaction of its caller. -/
def dispatch {F : Type} (floats : Floats F) (m : Emission F) : OutboxEvent where
  source := WEBHOOK_SOURCE
  event_id := m.eid
  event_type := m.event_type
  organization_id := some m.organization_id
  payload := String.ofList (m.payload.dumps floats storedStyle)
  attempts := 0
  last_error := none
  published_at := none
  failed_at := none
  created_at := m.created_at

/-! ### State -/

/-- What the service runs on, and whether it has an audit log. -/
structure Platform (F σ : Type) where
  floats : Floats F
  net : Net σ
  hmac : Hmac
  include_audit : Bool

/-- The request of `client.post`. -/
structure Post where
  url : List Char
  sni_hostname : List Char
  content : List UInt8
  headers : List (String × List Char)
deriving DecidableEq

/-- A request that was sent, for an attempt of a job. -/
structure Sent where
  job : Job
  attempt : ℕ
  request : Post
deriving DecidableEq

/-- A row that `deliver_webhook` has recorded in `audit_logs`; its actor is `system`. -/
structure AuditEntry (F : Type) where
  action : String
  target : String
  organization_id : Uuid
  metadata : List (String × Value F)

/-- What is shared. -/
structure System (F T σ : Type) where
  /-- `outbox_events`. -/
  events : Table T Uuid OutboxEvent
  /-- `webhook_endpoints`. -/
  endpoints : Endpoints
  /-- The jobs that the queue has accepted, oldest first. -/
  queue : List Job
  resolver : σ
  /-- The requests that were sent, oldest first. -/
  sent : List Sent
  audit_logs : List (AuditEntry F)

/-- What `deliver_webhook` keeps of the row of its endpoint. -/
structure Held where
  url : String
  secret : String
  organization_id : Uuid
deriving DecidableEq

/-- Where a delivery stands: what it does next. -/
inductive Delivery
  | get (job : Job) (attempt : ℕ)
  | resolve (job : Job) (attempt : ℕ) (held : Held)
  /-- The URL is refused; the audit row is next. -/
  | blocked (job : Job) (held : Held) (reason : List Char)
  | post (job : Job) (attempt : ℕ) (held : Held) (request : Post)
  /-- The receiver has accepted; the audit row is next. -/
  | accepted (job : Job) (held : Held) (status : ℕ)
  /-- It has not, or there was no answer; the audit row is next. -/
  | failed (job : Job) (attempt : ℕ) (held : Held)
  | returned
  /-- `Retry(defer)`. -/
  | retry (defer : ℕ)
  | raised

/-- Where a request or a worker stands. -/
inductive Frame
  | relay (p : Proc)
  /-- A call of the endpoint router has been answered. -/
  | routed
  | delivery (w : Delivery)

/-- One scheduled action. -/
inductive Act (F : Type)
  /-- A relay run starts. -/
  | drain
  /-- A producer starts. -/
  | dispatch (k : Uuid) (m : Emission F)
  /-- The next statement of a relay run or a producer. -/
  | stmt (env : Env)
  /-- A call of the endpoint router. -/
  | call (call : RouterCall)
  /-- A worker starts a job. -/
  | deliver (job : Job) (attempt : ℕ)
  /-- The next step of a delivery; `status` is the answer to its request. -/
  | work (status : Option ℕ)
  /-- A failure or a crash. -/
  | fail

section Steps

variable {F T σ : Type} [DecidableEq T]

/-! ### Deliveries -/

/-- `record`, in a session of its own, and its commit. -/
def record (S : Platform F σ) (s : System F T σ) (action : String) (job : Job) (held : Held)
    (metadata : List (String × Value F)) : System F T σ :=
  if S.include_audit then
    { s with
      audit_logs := s.audit_logs ++ [⟨action, job.endpoint_id, held.organization_id,
        ("event_type", .str job.event_type) :: metadata⟩] }
  else s

/-- The body of a delivery. -/
def body (floats : Floats F) (payload : Value F) : List UInt8 :=
  Text.utf8 (String.ofList (payload.dumps floats bodyStyle))

/-- The request of a delivery to a pinned target. -/
def newPost (S : Platform F σ) (job : Job) (held : Held) (payload : Value F)
    (url host sni_hostname : List Char) : Post where
  url := url
  sni_hostname := sni_hostname
  content := body S.floats payload
  headers := [("Content-Type", "application/json".toList), ("Host", host),
    (SIGNATURE_HEADER, "sha256=".toList ++
      (sign_payload S.hmac held.secret (body S.floats payload)).toList),
    ("X-Webhook-Event", job.event_type.toList)]

/-- `session.get(WebhookEndpoint, ...)`, and whether the endpoint is active. -/
def getEndpoint (s : System F T σ) (id : Uuid) : Option EndpointRow :=
  (s.endpoints.rows.find? fun row => row.id = id).filter fun row => row.active

/-- The next step of `deliver_webhook`. -/
def work (S : Platform F σ) (status : Option ℕ) (s : System F T σ) :
    Delivery → Option (System F T σ × Delivery)
  | .get job attempt =>
      match Tenancy.UUID job.endpoint_id.toList with
      | none => some (s, .raised)
      | some id =>
          match getEndpoint s id with
          | none => some (s, .returned)
          | some row => some (s, .resolve job attempt ⟨row.url, row.secret, row.organization_id⟩)
  | .resolve job attempt held =>
      match Egress.deliver_webhook S.net held.url.toList s.resolver with
      | (.raised, resolver) => some ({ s with resolver }, .raised)
      | (.blocked reason, resolver) => some ({ s with resolver }, .blocked job held reason)
      | (.post url host sni_hostname, resolver) =>
          match loads S.floats job.payload.toList with
          | none => some ({ s with resolver }, .raised)
          | some payload =>
              some ({ s with resolver },
                .post job attempt held (newPost S job held payload url host sni_hostname))
  | .blocked job held reason =>
      some (record S s "webhook.delivery_blocked" job held
        [("reason", .str (String.ofList reason))], .returned)
  | .post job attempt held request =>
      let s := { s with sent := s.sent ++ [⟨job, attempt, request⟩] }
      match status with
      | some status =>
          -- `raise_for_status`
          if 200 ≤ status ∧ status ≤ 299 then some (s, .accepted job held status)
          else some (s, .failed job attempt held)
      | none => some (s, .failed job attempt held)
  | .accepted job held status =>
      some (record S s "webhook.delivered" job held [("status", .int status)], .returned)
  | .failed job attempt held =>
      some (record S s "webhook.delivery_failed" job held [("attempt", .int attempt)],
        .retry (attempt * 5))
  | .returned | .retry _ | .raised => none

/-- The delivery is under way. -/
def Delivery.running : Delivery → Bool
  | .returned | .retry _ | .raised => false
  | _ => true

/-! ### The system -/

/-- What the relay and the producers see. -/
def System.database (s : System F T σ) : Database T where
  events := s.events
  endpoints := s.endpoints.rows.map EndpointRow.toWebhookEndpoint
  queue := s.queue

/-- An action of the relay or a producer. -/
def relay (t : T) (a : Webhooks.Act) (s : System F T σ) (p : Proc) :
    Option (System F T σ × Frame) :=
  (Webhooks.exec relaySettings t a s.database p).map fun (db, p) =>
    ({ s with events := db.events, queue := db.queue }, .relay p)

/-- One action. -/
def exec (S : Platform F σ) (t : T) : Act F → System F T σ → Frame → Option (System F T σ × Frame)
  | .drain, s, .relay p => relay t .drain s p
  | .dispatch k m, s, .relay p => relay t (.emit k (dispatch S.floats m)) s p
  | .stmt env, s, .relay p => relay t (.stmt env) s p
  | .fail, s, .relay p => relay t .fail s p
  | .call call, s, .relay .idle =>
      some ({ s with endpoints := (call.run s.endpoints).1 }, .routed)
  | .deliver job attempt, s, .relay .idle =>
      if job ∈ s.queue then some (s, .delivery (.get job attempt)) else none
  | .work status, s, .delivery w => (work S status s w).map fun (s, w) => (s, .delivery w)
  | .fail, s, .delivery w => if w.running then some (s, .delivery .raised) else none
  | _, _, _ => none

/-- The webhook service as an interleaved program. -/
def program (S : Platform F σ) : Program T (System F T σ) Frame (Act F) := ⟨exec S⟩

/-- A start: no events, no endpoints, no jobs, and no request has started. -/
structure Start (c : Config T (System F T σ) Frame) : Prop where
  events : c.shared.events = .empty
  endpoints : c.shared.endpoints.rows = []
  queue : c.shared.queue = []
  sent : c.shared.sent = []
  audit_logs : c.shared.audit_logs = []
  idle : ∀ t, c.proc t = .relay .idle

/-- All schedules. -/
abbrev Any : Config T (System F T σ) Frame → T → Act F → Prop := fun _ _ _ => True

end Steps

/-! ### What a receiver accepts -/

section Receiver

variable {hmac : Hmac} {secret signature : String} {payload : List UInt8}

/-- Removing the scheme of a signature leaves its digits. -/
theorem toList_removeprefix_append (start s : String) : removeprefix (start ++ s) start = s := by
  have hprefix : start.toList.isPrefixOf (start ++ s).toList = true := by
    rw [String.toList_append, List.isPrefixOf_iff_prefix]
    exact List.prefix_append _ _
  rw [ removeprefix, if_pos hprefix, String.toList_append, List.drop_left, String.ofList_toList]

/-- Hexadecimal digits are ASCII. -/
theorem ascii_hexDigits (w n : ℕ) : ∀ c ∈ Uuid.hexDigits w n, c.toNat < 128 := by
  have hdigit : ∀ i : Fin 16, (Nat.digitChar i).toNat < 128 := by
    decide
  induction w generalizing n with
  | zero => exact fun c hc => nomatch hc
  | succ w ih =>
      intro c hc
      rcases List.mem_append.mp hc with hc | hc
      · exact ih _ c hc
      · rw [List.mem_singleton.mp hc]
        exact hdigit ⟨n % 16, Nat.mod_lt n (by decide)⟩

/-- A signature is an ASCII text, and may stand in a header. -/
theorem ascii_sign_payload (hmac : Hmac) (secret : String) (payload : List UInt8) :
    (sign_payload hmac secret payload).toList.all (fun c => c.toNat < 128) = true := by
  rw [sign_payload, hexdigest, String.toList_ofList, List.all_eq_true]
  intro c hc
  obtain ⟨b, -, hc⟩ := List.mem_flatMap.mp hc
  exact decide_eq_true (ascii_hexDigits 2 b.toNat c hc)

/-- **A signature** with its name in front is accepted exactly for what has the same HMAC. -/
theorem verify_signature_of_sign (hmac : Hmac) (secret secret' : String)
    (payload payload' : List UInt8) :
    verify_signature hmac secret payload ("sha256=" ++ sign_payload hmac secret' payload') =
      some (decide (sign_payload hmac secret payload = sign_payload hmac secret' payload')) := by
  simp only [verify_signature, toList_removeprefix_append]
  rw [if_pos (ascii_sign_payload _ _ _)]

end Receiver

/-! ### Bodies -/

section Bodies

variable {F : Type} {floats : Floats F} {payload payload' : Value F}

/-- Payloads have the same body exactly if they are the same, up to the order of keys. -/
theorem body_eq_iff (h : payload.Distinct) (h' : payload'.Distinct) :
    body floats payload = body floats payload' ↔ payload.Same payload' := by
  have hinjective : body floats payload = body floats payload' ↔
      payload.dumps floats bodyStyle = payload'.dumps floats bodyStyle := by
    constructor
    · intro heq
      exact String.ofList_injective (Text.utf8_injective heq)
    · intro heq
      rw [body, body, heq]
  rw [hinjective]
  exact dumps_eq_iff floats rfl h h'

/-- The receiver reads the payload. -/
theorem loads_body (floats : Floats F) (h : payload.Distinct) :
    ∃ read, payload.Same read ∧
      (Text.decodeUtf8 (body floats payload)).bind (fun text => loads floats text.toList) =
        some read := by
  refine ⟨payload.arranged bodyStyle, same_arranged bodyStyle h, ?_⟩
  rw [body, Text.decodeUtf8_eq_some_iff.mpr rfl, Option.bind_some, String.toList_ofList,
    loads_dumps floats bodyStyle h]

/-- A character with one byte. -/
theorem utf8EncodeChar_of_isPrintable {c : Char} (h : isPrintable c = true) :
    String.utf8EncodeChar c = [UInt8.ofNat c.toNat] := by
  simp only [isPrintable, decide_eq_true_eq] at h
  have hc : c.val.toNat = c.toNat := rfl
  rw [String.utf8EncodeChar, hc, if_pos (by omega)]

/-- A body consists of printable ASCII characters. -/
theorem printable_body (floats : Floats F) (payload : Value F) :
    ∀ b ∈ body floats payload, 0x20 ≤ b.toNat ∧ b.toNat ≤ 0x7e := by
  have hblank : Printable [] := fun c hc => nomatch hc
  intro b hb
  rw [body, Text.utf8, String.toList_ofList] at hb
  obtain ⟨c, hc, hb⟩ := List.mem_flatMap.mp hb
  have hprint : isPrintable c = true := printable_dumps floats hblank hblank payload c hc
  rw [utf8EncodeChar_of_isPrintable hprint] at hb
  simp only [isPrintable, decide_eq_true_eq] at hprint
  rw [List.mem_singleton.mp hb, UInt8.toNat_ofNat']
  omega

/-- **The body of a delivery.** Two payloads have one body, and thus one signature, exactly if they
have the same contents, in whatever order their dicts hold them; the body is printable ASCII; and
what a receiver reads has the contents of the payload. -/
theorem body_canonical (floats : Floats F) (h : payload.Distinct) (h' : payload'.Distinct) :
    (body floats payload = body floats payload' ↔ payload.Same payload') ∧
      (∀ b ∈ body floats payload, 0x20 ≤ b.toNat ∧ b.toNat ≤ 0x7e) ∧
      ∃ read, payload.Same read ∧
        (Text.decodeUtf8 (body floats payload)).bind (fun text => loads floats text.toList) =
          some read :=
  ⟨body_eq_iff h h', printable_body floats payload, loads_body floats h⟩

end Bodies

/-- Floats that are all `NaN`. -/
def nanFloats : Floats Unit where
  repr _ := "NaN".toList
  parse _ := ()
  nan := ()
  infinity := ()
  negInfinity := ()
  shape _ := .inl ⟨rfl, rfl⟩

/-- A text beyond ASCII and beyond 16 bits. -/
def wideText : String := String.ofList [Char.ofNat 0xe9, Char.ofNat 0x1f600]

/-- Nested dicts. -/
def nestedPayload : Value Unit :=
  .dict [("data", .dict [("a", .str wideText), ("b", .list [.int (-7), .float ()])]),
    ("type", .null)]

/-- The same, with the items in another order. -/
def swappedPayload : Value Unit :=
  .dict [("type", .null),
    ("data", .dict [("b", .list [.int (-7), .float ()]), ("a", .str wideText)])]

/-- Two values under different keys. -/
theorem distinct_pair {F : Type} {key key' : String} {v v' : Value F} (hkeys : key ≠ key')
    (h : v.Distinct) (h' : v'.Distinct) : (Value.dict [(key, v), (key', v')]).Distinct := by
  refine .dict (by simpa using hkeys) fun item hitem => ?_
  simp only [List.mem_cons, List.not_mem_nil, or_false] at hitem
  rcases hitem with rfl | rfl
  · exact h
  · exact h'

/-- The list of the example has no dict in it. -/
theorem distinct_numbers : (Value.list [.int (-7), .float ()] : Value Unit).Distinct := by
  refine .list fun v hv => ?_
  simp only [List.mem_cons, List.not_mem_nil, or_false] at hv
  rcases hv with rfl | rfl <;> exact .scalar trivial

/-- The first payload of the example has no key twice. -/
theorem distinct_nestedPayload : nestedPayload.Distinct :=
  distinct_pair (by decide) (distinct_pair (by decide) (.scalar trivial) distinct_numbers)
    (.scalar trivial)

/-- Nor has the second one, with its keys the other way round. -/
theorem distinct_swappedPayload : swappedPayload.Distinct :=
  distinct_pair (by decide) (.scalar trivial)
    (distinct_pair (by decide) distinct_numbers (.scalar trivial))

/-- The order of items at two levels does not show in the body. -/
theorem body_canonical_swapped : nestedPayload.Same swappedPayload :=
  (body_canonical nanFloats distinct_nestedPayload distinct_swappedPayload).1.mp
    (by decide +kernel)

end BackendManager.Webhooks.Worker
