import BackendManager.Interleaving
import BackendManager.ReadCommitted
import BackendManager.ResponseCapture
import BackendManager.Text
import BackendManager.Uuid
import Mathlib.Data.Finset.Option
import Mathlib.Data.Finset.Union

/-!
# Idempotent Requests: the Store and the Middleware as SQL Statements

The model of `SqlIdempotencyStore` in `app/idempotency/store.py` and of the owned path of
`IdempotencyMiddleware.__call__`, from the claim to the completion or the release. A
request is known here by its scope, its key and its fingerprint. Every database statement
and every message of the handler is a step of its own; any number of requests interleave
under READ COMMITTED, with one shared clock that advances between them.

## Statement convention

* `SELECT ... FOR UPDATE` looks for the row in its snapshot, waits for the row lock, and
  reads the version it then finds; a row that has been deleted in the meantime is not
  found, even if its key is in use again. What the claim decides on that version, with the
  UPDATE of a reclaim, is part of that step; a claim that does not reclaim ends its
  transaction there.
* The `DELETE` of a purge fixes the rows in its snapshot and then locks and checks them
  one at a time, in any order, with the same proviso.
* `complete` and `release` read the row without a lock. What the session flushes later is
  addressed by the primary key `id` and contains the columns that have changed since the
  read; an UPDATE that finds no such row fails, a DELETE does not mind.
* The column of the key holds 255 characters. The `INSERT` of a longer key is refused with
  a data error, which `claim` does not catch: the call raises, and no row is written. The
  scope is a digest and always fits.
* `Act.fail` is a cancellation or a crash at any point, also of the handler: it rolls the
  open transaction back and neither completes nor releases.

Three components are not in the source and are read by no statement: `claimed_by` and
`produced_for` in a row, which say by whose claim the row is held and for which
fingerprint the cached response was produced, and `granted`, which remembers for every key
the request that became its owner last.
-/

namespace BackendManager.Idempotency

open ReadCommitted Interleaving

/-- `IdempotencyKey.status`. -/
inductive Status
  | in_progress
  | completed
deriving DecidableEq

/-- A row of `idempotency_keys`; the unique pair `(scope, key)` is the key of the table. -/
structure IdempotencyKey (T : Type) where
  id : Uuid
  request_hash : String
  status : Status
  response_status : Option ℕ
  response_headers : Option Headers
  response_body : Option Bytes
  expires_at : ℕ
  /-- Not in the source: the request whose claim this is. -/
  claimed_by : T
  /-- Not in the source: the fingerprint of the request that produced the response. -/
  produced_for : Option String
deriving DecidableEq

/-- What the store sees of a request. -/
structure Request where
  scope : String
  key : String
  request_hash : String
deriving DecidableEq

/-- The unique columns. -/
def Request.slot (r : Request) : String × String := (r.scope, r.key)

/-- The table, the clock, and the last owner of every key. -/
structure Store (T : Type) where
  rows : Table T (String × String) (IdempotencyKey T)
  clock : ℕ
  granted : String × String → Option T

/-- `CachedResponse`, with the fingerprint it was produced for. -/
structure CachedResponse where
  status : ℕ
  headers : Headers
  body : Bytes
  produced_for : Option String
deriving DecidableEq

/-- The outcomes of a claim other than `owned`. -/
inductive ClaimResult
  | replay (cached : CachedResponse)
  | in_progress
  | mismatch
deriving DecidableEq

/-- Where a request stands: the statement it executes next, or what it waits for. -/
inductive Proc (T : Type)
  /-- Not started. -/
  | idle
  /-- `claim` has read the clock: the `INSERT` is next. -/
  | insert (req : Request) (now : ℕ)
  /-- The row is inserted: `COMMIT` is next. -/
  | insertCommit (req : Request) (now : ℕ)
  /-- The `INSERT` lost: the snapshot of `SELECT ... FOR UPDATE` is next. -/
  | inspect (req : Request) (now : ℕ)
  /-- The snapshot has the row `id`: its lock is next. -/
  | inspectLock (req : Request) (now : ℕ) (id : Uuid)
  /-- The expired row is reclaimed and flushed: `COMMIT` is next. -/
  | reclaimCommit (req : Request) (now : ℕ)
  /-- The request owns the key and its handler runs; `sent` are the messages so far. -/
  | running (req : Request) (expires_at : ℕ) (sent : List Message)
  /-- The `SELECT` of `complete` is next. -/
  | complete (req : Request) (response : ResponseCapture)
  /-- The row is loaded: the `UPDATE` is next. -/
  | completeUpdate (req : Request) (response : ResponseCapture) (record : IdempotencyKey T)
  /-- Flushed: `COMMIT` is next. -/
  | completeCommit (req : Request)
  /-- The `SELECT` of `release` is next. -/
  | release (req : Request)
  /-- The unfinished row is loaded: its `DELETE` is next. -/
  | releaseDelete (req : Request) (id : Uuid)
  /-- Flushed: `COMMIT` is next. -/
  | releaseCommit (req : Request)
  /-- The request was answered without running the handler. -/
  | answered (req : Request) (result : ClaimResult)
  /-- The middleware has left the owned path; an exception of the handler is raised on. -/
  | finished
  /-- The request ended with an exception of its own and was rolled back. -/
  | raised
  /-- `purge_expired` has read the clock: its `DELETE` starts. -/
  | purge (now : ℕ)
  /-- The rows `todo` of its snapshot are still to be locked and deleted. -/
  | purging (now : ℕ) (todo : Finset ((String × String) × Uuid))
  /-- Executed: `COMMIT` is next. -/
  | purgeCommit
deriving DecidableEq

/-- The settings of the middleware. -/
structure Settings where
  ttl_seconds : ℕ
  max_body_bytes : ℕ

/-- What the environment decides for one statement. -/
structure Env where
  /-- The value drawn by `uuid.uuid4()`. -/
  uuid4 : Uuid
  /-- The row that a purge locks next. -/
  next : (String × String) × Uuid
deriving DecidableEq

/-- One scheduled action. -/
inductive Act
  /-- The clock advances. -/
  | tick
  /-- A request enters `claim`. -/
  | claim (req : Request)
  /-- `purge_expired` is called. -/
  | purge
  /-- The handler sends a message. -/
  | send (m : Message)
  /-- The handler returns. -/
  | ret
  /-- The handler raises an `Exception`. -/
  | raise
  /-- The next statement. -/
  | stmt (env : Env)
  /-- Cancellation, crash or failure of the database. -/
  | fail
deriving DecidableEq

variable {T : Type} [DecidableEq T]

namespace Store

/-- COMMIT. -/
def commit (s : Store T) (t : T) : Store T := { s with rows := s.rows.commit t }

/-- ROLLBACK. -/
def rollback (s : Store T) (t : T) : Store T := { s with rows := s.rows.rollback t }

/-- COMMIT of a claim, after which `t` owns the key. -/
def grant (s : Store T) (t : T) (req : Request) : Store T :=
  { s.commit t with granted := Function.update s.granted req.slot (some t) }

/-- Write one version of the row of a key. -/
def put (s : Store T) (t : T) (slot : String × String) (row : Option (IdempotencyKey T)) :
    Option (Store T) :=
  (s.rows.put t slot row).map fun rows => { s with rows }

end Store

/-! ### `claim` -/

/-- The row that a claim inserts. -/
def newRow (S : Settings) (t : T) (env : Env) (req : Request) (now : ℕ) :
    IdempotencyKey T where
  id := env.uuid4
  request_hash := req.request_hash
  status := .in_progress
  response_status := none
  response_headers := none
  response_body := none
  expires_at := now + S.ttl_seconds
  claimed_by := t
  produced_for := none

/-- The expired row after its reclaim. -/
def reclaimed (S : Settings) (t : T) (req : Request) (now : ℕ) (record : IdempotencyKey T) :
    IdempotencyKey T where
  id := record.id
  request_hash := req.request_hash
  status := .in_progress
  response_status := none
  response_headers := none
  response_body := none
  expires_at := now + S.ttl_seconds
  claimed_by := t
  produced_for := none

/-- The response cached in a row. -/
def IdempotencyKey.cached (record : IdempotencyKey T) : CachedResponse where
  status := record.response_status.getD 200
  headers := record.response_headers.getD []
  body := record.response_body.getD []
  produced_for := record.produced_for

/-- The `INSERT` of the claim. A key that its column cannot hold is an error of the data, which
the claim raises. -/
def insertRow (S : Settings) (t : T) (env : Env) (req : Request) (now : ℕ) (s : Store T) :
    Option (Store T × Proc T) :=
  if Text.Storable 255 req.key then
    (s.rows.insert t req.slot (newRow S t env req now)).map fun
      | .ok rows => ({ s with rows }, .insertCommit req now)
      | .error _ => (s.rollback t, .inspect req now)
  else some (s.rollback t, .raised)

/-- What the claim answers on a row that has not expired. -/
def inspectResult (req : Request) (record : IdempotencyKey T) : ClaimResult :=
  if record.request_hash ≠ req.request_hash then .mismatch
  else if record.status = .completed then .replay record.cached
  else .in_progress

/-- The rest of `SELECT ... FOR UPDATE` for the row `id` and the decision on the version
found: it is gone, it has expired and is reclaimed, or it stands. -/
def inspectRow (S : Settings) (t : T) (req : Request) (now : ℕ) (id : Uuid) (s : Store T) :
    Option (Store T × Proc T) :=
  if s.rows.free t req.slot then
    match s.rows.view t req.slot with
    | none => some (s.rollback t, .answered req .in_progress)
    | some record =>
        if record.id ≠ id then some (s.rollback t, .answered req .in_progress)
        else if record.expires_at ≤ now then
          (s.put t req.slot (some (reclaimed S t req now record))).map fun s' =>
            (s', .reclaimCommit req now)
        else some (s.rollback t, .answered req (inspectResult req record))
  else none

/-! ### `complete` and `release` -/

/-- Headers that are not cached. -/
def excludedHeaders : List Bytes :=
  ["set-cookie", "connection", "keep-alive", "transfer-encoding", "upgrade", "te",
    "trailers", "proxy-authenticate", "proxy-authorization"].map bytes

/-- `bytes.lower`. -/
def lower (name : Bytes) : Bytes :=
  name.map fun b => if 65 ≤ b ∧ b ≤ 90 then b + 32 else b

/-- The headers that `complete` stores. -/
def stored (headers : Headers) : Headers :=
  headers.filter fun h => lower h.1 ∉ excludedHeaders

/-- The row `current` after the flush of `complete`, which sends the columns that differ
from the `record` it has loaded. -/
def completed (req : Request) (response : ResponseCapture) (record current : IdempotencyKey T) :
    IdempotencyKey T :=
  { current with
    status := if record.status = .completed then current.status else .completed
    response_status :=
      if record.response_status = some response.status then current.response_status
      else some response.status
    response_headers :=
      if record.response_headers = some (stored response.headers) then
        current.response_headers
      else some (stored response.headers)
    response_body :=
      if record.response_body = some response.body then current.response_body
      else some response.body
    produced_for := some req.request_hash }

/-- The `UPDATE` of `complete`; without a changed column there is none, and without the
row it fails. -/
def updateRow (t : T) (req : Request) (response : ResponseCapture)
    (record : IdempotencyKey T) (s : Store T) : Option (Store T × Proc T) :=
  if record.status = .completed ∧ record.response_status = some response.status ∧
      record.response_headers = some (stored response.headers) ∧
      record.response_body = some response.body then
    some (s, .completeCommit req)
  else
    match s.rows.view t req.slot with
    | none => some (s.rollback t, .raised)
    | some current =>
        if current.id = record.id then
          (s.put t req.slot (some (completed req response record current))).map fun s' =>
            (s', .completeCommit req)
        else some (s.rollback t, .raised)

/-- The `DELETE` of `release`. -/
def deleteRow (t : T) (req : Request) (id : Uuid) (s : Store T) :
    Option (Store T × Proc T) :=
  match s.rows.view t req.slot with
  | none => some (s, .releaseCommit req)
  | some current =>
      if current.id = id then
        (s.put t req.slot none).map fun s' => (s', .releaseCommit req)
      else some (s, .releaseCommit req)

/-! ### `purge_expired` -/

/-- The expired rows: the snapshot of a purge. -/
def expiredRows (t : T) (now : ℕ) (s : Store T) : Finset ((String × String) × Uuid) :=
  (s.rows.scan t fun row => row.expires_at ≤ now).biUnion fun slot =>
    ((s.rows.view t slot).map fun row => (slot, row.id)).toFinset

/-- One row of a purge: wait for its lock and delete it if it is still expired. -/
def purgeRow (t : T) (now : ℕ) (slot : String × String) (id : Uuid) (s : Store T) :
    Option (Store T) :=
  if s.rows.free t slot then
    match s.rows.view t slot with
    | none => some s
    | some record =>
        if record.id = id ∧ record.expires_at ≤ now then s.put t slot none else some s
  else none

/-! ### Requests -/

/-- The exit of the handler: a final answer is cached, any other outcome releases. -/
def handlerReturns (S : Settings) (req : Request) (sent : List Message) : Proc T :=
  let captured := capture S.max_body_bytes sent
  if captured.discarded then .release req else .complete req captured

/-- The next statement. -/
def stmt (S : Settings) (t : T) (env : Env) (s : Store T) : Proc T → Option (Store T × Proc T)
  | .insert req now => insertRow S t env req now s
  | .insertCommit req now | .reclaimCommit req now =>
      some (s.grant t req, .running req (now + S.ttl_seconds) [])
  | .inspect req now =>
      some (match s.rows.view t req.slot with
        | none => (s.rollback t, .answered req .in_progress)
        | some record => (s, .inspectLock req now record.id))
  | .inspectLock req now id => inspectRow S t req now id s
  | .complete req response =>
      some (match s.rows.view t req.slot with
        | none => (s.rollback t, .finished)
        | some record => (s, .completeUpdate req response record))
  | .completeUpdate req response record => updateRow t req response record s
  | .release req =>
      some (match s.rows.view t req.slot with
        | none => (s.rollback t, .finished)
        | some record =>
            if record.status = .in_progress then (s, .releaseDelete req record.id)
            else (s.rollback t, .finished))
  | .releaseDelete req id => deleteRow t req id s
  | .completeCommit _ | .releaseCommit _ | .purgeCommit => some (s.commit t, .finished)
  | .purge now => some (s, .purging now (expiredRows t now s))
  | .purging now todo =>
      if todo = ∅ then some (s, .purgeCommit)
      else if env.next ∈ todo then
        (purgeRow t now env.next.1 env.next.2 s).map fun s' =>
          (s', .purging now (todo.erase env.next))
      else none
  | .idle | .running _ _ _ | .answered _ _ | .finished | .raised => none

/-- The request has ended. -/
def Proc.ended : Proc T → Bool
  | .answered _ _ | .finished | .raised => true
  | _ => false

/-- One action. -/
def exec (S : Settings) (t : T) : Act → Store T → Proc T → Option (Store T × Proc T)
  | .tick, s, p => some ({ s with clock := s.clock + 1 }, p)
  | .claim req, s, .idle => some (s, .insert req s.clock)
  | .purge, s, .idle => some (s, .purge s.clock)
  | .send m, s, .running req expires_at sent =>
      some (s, .running req expires_at (sent ++ [m]))
  | .ret, s, .running req _ sent => some (s, handlerReturns S req sent)
  -- the handler blew up: the claim is dropped and the exception raised on
  | .raise, s, .running req _ _ => some (s, .release req)
  | .stmt env, s, p => stmt S t env s p
  | .fail, s, p => if p.ended then none else some (s.rollback t, .raised)
  | _, _, _ => none

/-- The middleware and the store as an interleaved program. -/
def program (S : Settings) : Program T (Store T) (Proc T) Act := ⟨exec S⟩

/-- The initial configuration: no keys and no request started. -/
def init : Config T (Store T) (Proc T) := ⟨⟨Table.empty, 0, fun _ => none⟩, fun _ => .idle⟩

/-- All schedules. -/
abbrev Any : Config T (Store T) (Proc T) → T → Act → Prop := fun _ _ _ => True

end BackendManager.Idempotency
