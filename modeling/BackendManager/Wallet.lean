import BackendManager.Interleaving
import BackendManager.ReadCommitted
import BackendManager.Uuid

/-!
# The Prepaid Wallet: `charge_invoice` and `top_up` as SQL Statements

This module is the model of the write side of `app/metering/service.py`: the tables
`invoices`, `customer_wallets` and `wallet_transactions` of `app/metering/models.py`, and
the methods `charge_invoice`, `top_up` and `_get_or_create_wallet` cut at every SQL
statement. A `Call` in progress is one request with its own session; any number of them
interleave under READ COMMITTED.

## Statement convention

* `UPDATE ... WHERE balance_cents >= :amount` is two steps: it first looks for the row in
  the statement's snapshot and gives up at once if there is none, and then waits for the
  row lock and checks the predicate again on the version it finds.
* `session.commit()` flushes first. Its statements are separate steps, and where the unit
  of work has two of them (`charge_invoice` with a debit) either may come first.
* An `IntegrityError` is followed by the rollback that its handler performs, in one step.
  The rollback expires every instance of the session. The handler of `charge_invoice` then
  reads `invoice.id` of such an instance, outside of the greenlet that could reload it, and
  raises `MissingGreenlet`; it never reaches the `return` that follows.
* `Act.fail` rolls a request back at any point before it has finished: a lost connection,
  a crash, a deadlock victim, an overflowing column.

An invoice comes into being through `Act.issue`, the commit of `invoice_period`; what the
totals are made of does not matter here beyond their being non-negative.
-/

namespace BackendManager.Metering

open ReadCommitted Interleaving

/-- `Invoice.status`; the trailing underscore only avoids the Lean keyword. -/
inductive InvoiceStatus
  | open_
  | paid
  | uncollectible
deriving DecidableEq

/-- The columns of `invoices` that charging reads or writes; the primary key `id` is the
key of the table. -/
structure Invoice where
  organization_id : Uuid
  status : InvoiceStatus
  total_cents : ℤ
  charged_at : Option ℕ
deriving DecidableEq

/-- A row of `customer_wallets`; the primary key `id` is the key of the table. -/
structure CustomerWallet where
  organization_id : Uuid
  balance_cents : ℤ
  currency : String
deriving DecidableEq

/-- `WalletTransaction.reason`. -/
inductive Reason
  | invoice
  | topup
deriving DecidableEq

/-- A row of `wallet_transactions`; the unique `idempotency_key` is the key of the
table. -/
structure WalletTransaction where
  wallet_id : Uuid
  organization_id : Uuid
  delta_cents : ℤ
  reason : Reason
  invoice_id : Option Uuid
deriving DecidableEq

/-- The wallet tables. `walletOrg` is the unique index of `customer_wallets` on
`organization_id`. -/
structure Db (T : Type) where
  invoices : Table T Uuid Invoice
  wallets : Table T Uuid CustomerWallet
  walletOrg : Table T Uuid Uuid
  ledger : Table T String WalletTransaction

/-- The arguments of one `top_up` call. -/
structure TopUp where
  organization_id : Uuid
  amount_cents : ℤ
  idempotency_key : String
  currency : String
deriving DecidableEq

/-- Where a request stands: the SQL statement it executes next, with what its Python
frame holds at that point. -/
inductive Proc
  /-- Not started. -/
  | idle
  /-- `charge_invoice` entered with the caller's copy of the row. -/
  | charging (id : Uuid) (invoice : Invoice)
  /-- The debit `UPDATE` found `wallet_id` in its snapshot and wants the row lock. -/
  | debit (id : Uuid) (invoice : Invoice) (wallet_id : Uuid)
  /-- `invoice.status` was set without a debit; the flush is next. -/
  | settle (id : Uuid) (invoice : Invoice) (status : InvoiceStatus)
  /-- The wallet is debited. The flush still has to insert the ledger row and to update
  the invoice; the flags say what is done. -/
  | post (id : Uuid) (invoice : Invoice) (wallet_id : Uuid) (inserted updated : Bool)
  /-- Settled and flushed; `COMMIT` is next. -/
  | settled (id : Uuid) (invoice : Invoice) (status : InvoiceStatus)
  /-- `charge_invoice` has returned. -/
  | chargeReturned (id : Uuid)
  /-- `charge_invoice` has raised `MissingGreenlet`, after the rollback of its debit. -/
  | chargeRaised (id : Uuid)
  /-- `top_up` entered: the `SELECT` of `get_wallet` is next. -/
  | topUp (call : TopUp)
  /-- There is no wallet: its `INSERT` is next. -/
  | createWallet (call : TopUp)
  /-- The wallet `INSERT` violated a constraint and was rolled back: `SELECT` again. -/
  | reloadWallet (call : TopUp)
  /-- The `INSERT` of the ledger row is next. -/
  | insertLedger (call : TopUp) (wallet_id : Uuid)
  /-- The balance `UPDATE` is next. -/
  | addBalance (call : TopUp) (wallet_id : Uuid)
  /-- `COMMIT` is next. -/
  | topUpCommit (call : TopUp) (wallet_id : Uuid)
  /-- The ledger `INSERT` violated its constraint and was rolled back; the second
  `_get_or_create_wallet` starts with a `SELECT`. -/
  | recover (call : TopUp)
  /-- The second `_get_or_create_wallet` found no wallet: `INSERT`. -/
  | recreateWallet (call : TopUp)
  /-- That `INSERT` violated a constraint too: `SELECT` again. -/
  | reselectWallet (call : TopUp)
  /-- `top_up` returns the wallet that was just inserted; the session closes next. -/
  | closing (call : TopUp)
  /-- `top_up` has returned normally. -/
  | topUpReturned (call : TopUp)
  /-- The request ended with an exception and its transaction was rolled back. -/
  | raised
deriving DecidableEq

/-- What the environment decides for one statement. -/
structure Env where
  /-- The reading of `_utcnow()`. -/
  now : ℕ
  /-- The value drawn by `uuid.uuid4()`. -/
  uuid4 : Uuid
  /-- The unit of work flushes the invoice before the ledger row. -/
  invoiceFirst : Bool
deriving DecidableEq

/-- One scheduled action of a request. -/
inductive Act
  /-- `invoice_period` commits a new open invoice. -/
  | issue (id : Uuid) (invoice : Invoice)
  /-- `charge_invoice` is called with a copy of the invoice loaded now. -/
  | charge (id : Uuid)
  /-- `top_up` is called. -/
  | topUp (call : TopUp)
  /-- The next statement. -/
  | stmt (env : Env)
  /-- The request fails and is rolled back. -/
  | fail
deriving DecidableEq

variable {T : Type} [DecidableEq T]

namespace Db

/-- The empty database. -/
def empty : Db T := ⟨Table.empty, Table.empty, Table.empty, Table.empty⟩

/-- COMMIT of one transaction, across the tables. -/
def commit (db : Db T) (t : T) : Db T :=
  ⟨db.invoices.commit t, db.wallets.commit t, db.walletOrg.commit t, db.ledger.commit t⟩

/-- ROLLBACK of one transaction, across the tables. -/
def rollback (db : Db T) (t : T) : Db T :=
  ⟨db.invoices.rollback t, db.wallets.rollback t, db.walletOrg.rollback t,
    db.ledger.rollback t⟩

/-- `get_wallet`: the id of the organisation's wallet, through the unique index. -/
def get_wallet (db : Db T) (t : T) (organization_id : Uuid) : Option Uuid :=
  db.walletOrg.view t organization_id

/-- The INSERT of a wallet with balance `0`, which has to enter the primary key and the
unique index. -/
def insertWallet (db : Db T) (t : T) (id : Uuid) (call : TopUp) :
    Option (Except Table.UniqueViolation (Db T)) := do
  match ← db.wallets.insert t id ⟨call.organization_id, 0, call.currency⟩ with
  | .error e => pure (.error e)
  | .ok wallets =>
      match ← db.walletOrg.insert t call.organization_id id with
      | .error e => pure (.error e)
      | .ok walletOrg => pure (.ok { db with wallets, walletOrg })

/-- The INSERT of a ledger row. -/
def insertTransaction (db : Db T) (t : T) (idempotency_key : String)
    (row : WalletTransaction) : Option (Except Table.UniqueViolation (Db T)) := do
  match ← db.ledger.insert t idempotency_key row with
  | .error e => pure (.error e)
  | .ok ledger => pure (.ok { db with ledger })

/-- `UPDATE invoices SET status = ..., charged_at = ... WHERE id = ...`, which writes only
the columns that the session has changed. `charged_at` is set together with `paid`. -/
def updateInvoice (db : Db T) (t : T) (id : Uuid) (status : InvoiceStatus) (now : ℕ) :
    Option (Db T) := do
  let row ← db.invoices.view t id
  let charged_at := if status = .paid then some now else row.charged_at
  let invoices ← db.invoices.put t id (some { row with status, charged_at })
  pure { db with invoices }

/-- The wallet that the debit `UPDATE` finds in its snapshot: the organisation's, if its
balance covers the total. -/
def debitable (db : Db T) (t : T) (invoice : Invoice) : Option Uuid := do
  let id ← db.walletOrg.view t invoice.organization_id
  let row ← db.wallets.view t id
  if row.balance_cents ≥ invoice.total_cents then pure id else none

/-- `UPDATE customer_wallets SET balance_cents = balance_cents + ... WHERE id = ...`. -/
def updateBalance (db : Db T) (t : T) (id : Uuid) (row : CustomerWallet) (delta : ℤ) :
    Option (Db T) := do
  let wallets ← db.wallets.put t id
    (some { row with balance_cents := row.balance_cents + delta })
  pure { db with wallets }

end Db

/-- The ledger key of an invoice debit, `f"invoice:{invoice.id}"`. -/
def debitKey (id : Uuid) : String := "invoice:" ++ id.str

/-- The ledger row of an invoice debit. -/
def debitRow (id : Uuid) (invoice : Invoice) (wallet_id : Uuid) : WalletTransaction where
  wallet_id := wallet_id
  organization_id := invoice.organization_id
  delta_cents := -invoice.total_cents
  reason := .invoice
  invoice_id := some id

/-- The ledger row of a top-up. -/
def topUpRow (call : TopUp) (wallet_id : Uuid) : WalletTransaction where
  wallet_id := wallet_id
  organization_id := call.organization_id
  delta_cents := call.amount_cents
  reason := .topup
  invoice_id := none

/-! ### `charge_invoice` -/

/-- From the entry of `charge_invoice` to its first SQL statement, and that statement's
snapshot: an invoice that is not open is returned as it is, a zero total is settled as
paid, and otherwise the debit `UPDATE` starts. -/
def chargeInvoice (t : T) (id : Uuid) (invoice : Invoice) (db : Db T) : Proc :=
  if invoice.status ≠ .open_ then .chargeReturned id
  else if invoice.total_cents = 0 then .settle id invoice .paid
  else
    match db.debitable t invoice with
    | some wallet_id => .debit id invoice wallet_id
    | none => .settle id invoice .uncollectible

/-- The rest of the debit `UPDATE`: wait for the row lock, check the predicate again on
the version found, and subtract the total. -/
def debitWallet (t : T) (id : Uuid) (invoice : Invoice) (wallet_id : Uuid) (db : Db T) :
    Option (Db T × Proc) :=
  if db.wallets.free t wallet_id then
    match db.wallets.view t wallet_id with
    | some row =>
        if row.organization_id = invoice.organization_id ∧
            row.balance_cents ≥ invoice.total_cents then
          (db.updateBalance t wallet_id row (-invoice.total_cents)).map fun db' =>
            (db', .post id invoice wallet_id false false)
        else some (db, .settle id invoice .uncollectible)
    | none => some (db, .settle id invoice .uncollectible)
  else none

/-- The flush of `invoice.status = ...` without a ledger row. -/
def settleInvoice (t : T) (env : Env) (id : Uuid) (invoice : Invoice)
    (status : InvoiceStatus) (db : Db T) : Option (Db T × Proc) :=
  (db.updateInvoice t id status env.now).map fun db' => (db', .settled id invoice status)

/-- The ledger `INSERT` of the flush. A unique violation means that the key is taken: roll
everything back, and raise at `invoice.id`. -/
def postLedger (t : T) (id : Uuid) (invoice : Invoice) (wallet_id : Uuid) (updated : Bool)
    (db : Db T) : Option (Db T × Proc) :=
  (db.insertTransaction t (debitKey id) (debitRow id invoice wallet_id)).map fun
    | .ok db' => (db', .post id invoice wallet_id true updated)
    | .error _ => (db.rollback t, .chargeRaised id)

/-- The invoice `UPDATE` of the flush. -/
def postInvoice (t : T) (env : Env) (id : Uuid) (invoice : Invoice) (wallet_id : Uuid)
    (inserted : Bool) (db : Db T) : Option (Db T × Proc) :=
  (db.updateInvoice t id .paid env.now).map fun db' =>
    (db', .post id invoice wallet_id inserted true)

/-- `session.commit()` after the debit: the two statements of the flush in either order,
then COMMIT. -/
def postCharge (t : T) (env : Env) (id : Uuid) (invoice : Invoice) (wallet_id : Uuid)
    (inserted updated : Bool) (db : Db T) : Option (Db T × Proc) :=
  match inserted, updated with
  | true, true => some (db.commit t, .chargeReturned id)
  | true, false => postInvoice t env id invoice wallet_id true db
  | false, true => postLedger t id invoice wallet_id true db
  | false, false =>
      if env.invoiceFirst then postInvoice t env id invoice wallet_id false db
      else postLedger t id invoice wallet_id false db

/-! ### `top_up` -/

/-- The `SELECT` of `get_wallet`, continued according to whether there is a wallet. -/
def selectWallet (t : T) (call : TopUp) (found : Uuid → Proc) (missing : Db T × Proc)
    (db : Db T) : Db T × Proc :=
  match db.get_wallet t call.organization_id with
  | some wallet_id => (db, found wallet_id)
  | none => missing

/-- The wallet `INSERT` of `_get_or_create_wallet`; a unique violation is rolled back. -/
def createWallet (t : T) (env : Env) (call : TopUp) (created : Db T → Db T × Proc)
    (violated : Proc) (db : Db T) : Option (Db T × Proc) :=
  (db.insertWallet t env.uuid4 call).map fun
    | .ok db' => created db'
    | .error _ => (db.rollback t, violated)

/-- The ledger `INSERT` of `top_up`. A unique violation is taken for a key already
applied: roll back and look the wallet up again. -/
def creditLedger (t : T) (call : TopUp) (wallet_id : Uuid) (db : Db T) :
    Option (Db T × Proc) :=
  (db.insertTransaction t call.idempotency_key (topUpRow call wallet_id)).map fun
    | .ok db' => (db', .addBalance call wallet_id)
    | .error _ => (db.rollback t, .recover call)

/-- The balance `UPDATE` of `top_up`. -/
def addBalance (t : T) (call : TopUp) (wallet_id : Uuid) (db : Db T) :
    Option (Db T × Proc) := do
  let row ← db.wallets.view t wallet_id
  let db' ← db.updateBalance t wallet_id row call.amount_cents
  pure (db', .topUpCommit call wallet_id)

/-! ### Requests -/

/-- The next statement of a request. The `refresh` and the reloads that follow a COMMIT
or a ROLLBACK only read, and are part of the step that ends the transaction. -/
def stmt (t : T) (env : Env) (db : Db T) : Proc → Option (Db T × Proc)
  | .charging id invoice => some (db, chargeInvoice t id invoice db)
  | .debit id invoice wallet_id => debitWallet t id invoice wallet_id db
  | .settle id invoice status => settleInvoice t env id invoice status db
  | .post id invoice wallet_id inserted updated =>
      postCharge t env id invoice wallet_id inserted updated db
  | .settled id _ _ => some (db.commit t, .chargeReturned id)
  | .topUp call =>
      some (selectWallet t call (.insertLedger call) (db, .createWallet call) db)
  | .createWallet call =>
      createWallet t env call (fun db' => (db', .insertLedger call env.uuid4))
        (.reloadWallet call) db
  | .reloadWallet call =>
      some (selectWallet t call (.insertLedger call) (db.rollback t, .raised) db)
  | .insertLedger call wallet_id => creditLedger t call wallet_id db
  | .addBalance call wallet_id => addBalance t call wallet_id db
  | .topUpCommit call _ => some (db.commit t, .topUpReturned call)
  | .recover call =>
      some (selectWallet t call (fun _ => .topUpReturned call) (db, .recreateWallet call) db)
  | .recreateWallet call =>
      createWallet t env call (fun db' => (db', .closing call)) (.reselectWallet call) db
  | .reselectWallet call =>
      some (selectWallet t call (fun _ => .topUpReturned call) (db.rollback t, .raised) db)
  -- no commit follows the second `_get_or_create_wallet`: its wallet is dropped
  | .closing call => some (db.rollback t, .topUpReturned call)
  | .idle | .chargeReturned _ | .chargeRaised _ | .topUpReturned _ | .raised => none

/-- The request has ended. -/
def Proc.ended : Proc → Bool
  | .chargeReturned _ | .chargeRaised _ | .topUpReturned _ | .raised => true
  | _ => false

/-- The commit of `invoice_period`: a new open invoice with a non-negative total. -/
def issue (t : T) (id : Uuid) (invoice : Invoice) (db : Db T) : Option (Db T × Proc) :=
  if invoice.status = .open_ ∧ 0 ≤ invoice.total_cents ∧ db.invoices.view t id = none then
    (db.invoices.put t id (some invoice)).map fun invoices =>
      ({ db with invoices := invoices.commit t }, .idle)
  else none

/-- One action of one request. A top-up enters with a positive amount, as `WalletTopUp`
requires. -/
def exec (t : T) : Act → Db T → Proc → Option (Db T × Proc)
  | .issue id invoice, db, .idle => issue t id invoice db
  | .charge id, db, .idle => (db.invoices.view t id).map fun row => (db, .charging id row)
  | .topUp call, db, .idle => if 0 < call.amount_cents then some (db, .topUp call) else none
  | .stmt env, db, p => stmt t env db p
  | .fail, db, p => if p.ended then none else some (db.rollback t, .raised)
  | _, _, _ => none

/-- The wallet endpoints as an interleaved program. -/
def program : Program T (Db T) Proc Act := ⟨exec⟩

/-- The initial configuration: an empty database and no request started. -/
def init : Config T (Db T) Proc := ⟨Db.empty, fun _ => .idle⟩

/-- All schedules. -/
abbrev Any : Config T (Db T) Proc → T → Act → Prop := fun _ _ _ => True

end BackendManager.Metering
