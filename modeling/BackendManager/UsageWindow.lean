import BackendManager.Rating
import BackendManager.Wallet
import BackendManager.Windows
import Mathlib.Data.Finset.Lattice.Fold
import Mathlib.Order.Lattice.Nat

/-!
# Usage Events and the Periods That Bill Them

The model of the metering side of `app/metering`: `record_usage`, `usage_for_period` and
`invoice_period` of `service.py`, and `_period_start` and `close_invoice` of the router,
cut at every SQL statement. What `close_invoice` does after `invoice_period`, charging the
invoice, is the subject of `BackendManager.Wallet`.

## Statement convention

* Timestamps are whole microseconds, and `0` is `_EPOCH`. `clock` is the clock of the
  database: `now()` is its reading when the transaction starts, and that is what an
  `INSERT` puts into `created_at`. The reading of a host's `_utcnow()` is a choice of the
  environment; that all clocks agree is a condition on a run.
* An `IntegrityError` is followed by the rollback that its handler performs, in one step.
  It is a violation of the unique key or, as the environment decides, of another
  constraint of the row.
* The plan of a close is an argument of the request.
* `Act.fail` rolls a request back at any point before it has finished.

The column `billed` of an invoice is not one of the source: it records which events the
aggregate was taken over.
-/

namespace BackendManager.Usage

open ReadCommitted Interleaving Metering

/-- A row of `usage_events`; `(organization_id, idempotency_key)` is the key of the
table. -/
structure UsageEvent where
  meter : String
  quantity : ℤ
  created_at : ℕ
deriving DecidableEq

/-- A row of `invoices` as `invoice_period` writes it; `(organization_id, period_start)` is
the key of the table. -/
structure Invoice where
  period_end : ℕ
  status : InvoiceStatus
  currency : String
  total_cents : ℤ
  plan : String
  lines : List RatedLine
  /-- Not a column: the events in the aggregate. -/
  billed : Finset (Uuid × String)
deriving DecidableEq

/-- The metering tables and the clock of the database. -/
structure Store (T : Type) where
  usage : Table T (Uuid × String) UsageEvent
  invoices : Table T (Uuid × ℕ) Invoice
  clock : ℕ

/-- The arguments of one `record_usage` call. -/
structure UsageRecord where
  organization_id : Uuid
  meter : String
  quantity : ℤ
  idempotency_key : String
deriving DecidableEq

/-- The key of the row that the call inserts. -/
def UsageRecord.key (call : UsageRecord) : Uuid × String :=
  (call.organization_id, call.idempotency_key)

/-- The row that the call inserts. -/
def UsageRecord.row (call : UsageRecord) (created_at : ℕ) : UsageEvent :=
  ⟨call.meter, call.quantity, created_at⟩

/-- Where a request stands: the SQL statement it executes next, with what its Python
frame holds at that point. -/
inductive Proc
  /-- Not started. -/
  | idle
  /-- `record_usage`, in a transaction started at `created_at`: the `INSERT` is next. -/
  | insertUsage (call : UsageRecord) (created_at : ℕ)
  /-- `COMMIT` is next. -/
  | usageCommit (call : UsageRecord) (created_at : ℕ)
  /-- The `INSERT` was rolled back: is there a row with the key? -/
  | findDuplicate (call : UsageRecord)
  /-- `record_usage` has returned `fresh`. -/
  | recorded (call : UsageRecord) (fresh : Bool)
  /-- `close_invoice`: the `SELECT` of `_period_start` is next. -/
  | periodStart (org : Uuid) (plan : String)
  /-- The period starts at `start`: `_utcnow()` is next. -/
  | readClock (org : Uuid) (plan : String) (start : ℕ)
  /-- The `SELECT` of `usage_for_period` over `[start, stop)` is next. -/
  | readUsage (org : Uuid) (plan : String) (start stop : ℕ)
  /-- The invoice is rated: its `INSERT` is next. -/
  | insertInvoice (org : Uuid) (start : ℕ) (invoice : Invoice)
  /-- `COMMIT` is next. -/
  | invoiceCommit (org : Uuid) (start : ℕ) (invoice : Invoice)
  /-- The `INSERT` was rolled back: the existing invoice is next. -/
  | findExisting (org : Uuid) (start : ℕ)
  /-- `invoice_period` has committed an invoice of its own. -/
  | closed (org : Uuid) (start : ℕ)
  /-- `invoice_period` has returned the invoice of another close. -/
  | converged (org : Uuid) (start : ℕ)
  /-- The request ended with an exception and its transaction was rolled back. -/
  | raised
deriving DecidableEq

/-- What the environment decides for one statement. -/
structure Env where
  /-- The reading of `_utcnow()`. -/
  now : ℕ
  /-- The row to be inserted violates a constraint other than the unique key. -/
  violated : Bool
deriving DecidableEq

/-- One scheduled action. -/
inductive Act
  /-- The clock advances. -/
  | tick
  /-- A request to record usage arrives; its transaction starts. -/
  | record (call : UsageRecord)
  /-- A request to close the period arrives. -/
  | close (org : Uuid) (plan : String)
  /-- The next statement. -/
  | stmt (env : Env)
  /-- Cancellation, crash or failure of the database. -/
  | fail
deriving DecidableEq

variable {T : Type} [DecidableEq T]

namespace Store

/-- COMMIT. -/
def commit (s : Store T) (t : T) : Store T :=
  { s with usage := s.usage.commit t, invoices := s.invoices.commit t }

/-- ROLLBACK. -/
def rollback (s : Store T) (t : T) : Store T :=
  { s with usage := s.usage.rollback t, invoices := s.invoices.rollback t }

/-- `SELECT max(period_end) FROM invoices WHERE organization_id = :org`, or the epoch. -/
def periodStart (s : Store T) (t : T) (org : Uuid) : ℕ :=
  ((s.invoices.scan t fun _ => true).filter fun k => k.1 = org).sup fun k =>
    ((s.invoices.view t k).map Invoice.period_end).getD 0

/-- The events of the organisation in `[start, stop)`. -/
def eventsOf (s : Store T) (t : T) (org : Uuid) (start stop : ℕ) : Finset (Uuid × String) :=
  (s.usage.scan t fun e => Windows.Within start stop e.created_at).filter fun k => k.1 = org

end Store

/-- `SELECT meter, sum(quantity) ... GROUP BY meter` over these rows. -/
def totals (rows : Uuid × String → Option UsageEvent) (events : Finset (Uuid × String)) :
    Metering.Usage := fun meter =>
  let group := events.filter fun k => (rows k).any fun e => e.meter = meter
  if group = ∅ then none
  else some (∑ k ∈ group, ((rows k).map UsageEvent.quantity).getD 0)

/-- `usage_for_period`. -/
def usage_for_period (s : Store T) (t : T) (org : Uuid) (start stop : ℕ) : Metering.Usage :=
  totals (s.usage.view t) (s.eventsOf t org start stop)

/-- The row of `invoice_period`. -/
def rated (s : Store T) (t : T) (org : Uuid) (plan : String) (start stop : ℕ) : Invoice :=
  let lines := rate DEFAULT_RATE_CARDS plan (usage_for_period s t org start stop)
  { period_end := stop
    status := .open_
    currency := DEFAULT_CURRENCY
    total_cents := total_cents lines
    plan := plan
    lines := lines
    billed := s.eventsOf t org start stop }

/-- The `INSERT` of `record_usage`. -/
def insertUsage (t : T) (env : Env) (call : UsageRecord) (created_at : ℕ) (s : Store T) :
    Option (Store T × Proc) :=
  if env.violated then some (s.rollback t, .findDuplicate call)
  else
    (s.usage.insert t call.key (call.row created_at)).map fun
      | .ok usage => ({ s with usage }, .usageCommit call created_at)
      | .error _ => (s.rollback t, .findDuplicate call)

/-- The `INSERT` of `invoice_period`. -/
def insertInvoice (t : T) (env : Env) (org : Uuid) (start : ℕ) (invoice : Invoice)
    (s : Store T) : Option (Store T × Proc) :=
  if env.violated then some (s.rollback t, .findExisting org start)
  else
    (s.invoices.insert t (org, start) invoice).map fun
      | .ok invoices => ({ s with invoices }, .invoiceCommit org start invoice)
      | .error _ => (s.rollback t, .findExisting org start)

/-- The next statement. -/
def stmt (t : T) (env : Env) (s : Store T) : Proc → Option (Store T × Proc)
  | .insertUsage call created_at => insertUsage t env call created_at s
  | .usageCommit call _ => some (s.commit t, .recorded call true)
  | .findDuplicate call =>
      some (s.rollback t,
        if (s.usage.view t call.key).isSome then .recorded call false else .raised)
  | .periodStart org plan => some (s, .readClock org plan (s.periodStart t org))
  | .readClock org plan start => some (s, .readUsage org plan start env.now)
  | .readUsage org plan start stop =>
      some (s, .insertInvoice org start (rated s t org plan start stop))
  | .insertInvoice org start invoice => insertInvoice t env org start invoice s
  | .invoiceCommit org start _ => some (s.commit t, .closed org start)
  | .findExisting org start =>
      some (s.rollback t,
        if (s.invoices.view t (org, start)).isSome then .converged org start else .raised)
  | .idle | .recorded _ _ | .closed _ _ | .converged _ _ | .raised => none

/-- The request has ended. -/
def Proc.ended : Proc → Bool
  | .recorded _ _ | .closed _ _ | .converged _ _ | .raised => true
  | _ => false

/-- One action. -/
def exec (t : T) : Act → Store T → Proc → Option (Store T × Proc)
  | .tick, s, p => some ({ s with clock := s.clock + 1 }, p)
  | .record call, s, .idle => some (s, .insertUsage call s.clock)
  | .close org plan, s, .idle => some (s, .periodStart org plan)
  | .stmt env, s, p => stmt t env s p
  | .fail, s, p => if p.ended then none else some (s.rollback t, .raised)
  | _, _, _ => none

/-- Metering as an interleaved program. -/
def program : Program T (Store T) Proc Act := ⟨exec⟩

/-- The initial configuration: no rows and no request started. -/
def init : Config T (Store T) Proc := ⟨⟨Table.empty, Table.empty, 0⟩, fun _ => .idle⟩

/-- All schedules. -/
abbrev Any : Config T (Store T) Proc → T → Act → Prop := fun _ _ _ => True

end BackendManager.Usage
