import BackendManager.Wallet

/-!
# What One Statement of the Wallet Endpoints Can Do

Every proof about the wallet endpoints goes through this module. It inverts the SQL
statements of `BackendManager.Wallet` once, so that no later proof unfolds them, and
classifies the steps of a request by their effect on what the other requests can see.

The statements of a charge are its debit, the ledger row and the status of the invoice, in the
order that `BackendManager.Wallet` gives; a top-up inserts its ledger row and then raises the
balance. Each of them may have to wait for a row that another request holds, in which case it is
no step of the run. The order of locks differs between the two, so that no later proof may rely
on one.

## Main results

* `step_of_exec`: every action is one of the cases of `Step`.
* `exec_cases`: an action of a request either changes that request's uncommitted rows
  alone, or is the COMMIT of a request that has reached it, or commits a new invoice.
* `Undisturbed`: what a request may rely on while others run: its own uncommitted rows,
  the committed versions of the rows it holds, and the fields that nobody rewrites.
* `undisturbed_of_private`, `undisturbed_of_commit`, `undisturbed_of_issue`: every kind of
  step leaves the other requests undisturbed.
-/

namespace BackendManager.Metering

open ReadCommitted Interleaving

variable {T : Type} [DecidableEq T] {t u : T} {db db' : Db T}

namespace Db

/-- From `db` to `db'` only the uncommitted rows of `t` have changed. -/
structure Private (t : T) (db db' : Db T) : Prop where
  invoices : Table.Private t db.invoices db'.invoices
  wallets : Table.Private t db.wallets db'.wallets
  walletOrg : Table.Private t db.walletOrg db'.walletOrg
  ledger : Table.Private t db.ledger db'.ledger

/-- Doing nothing is private. -/
theorem Private.refl (t : T) (db : Db T) : Private t db db :=
  ⟨.refl _ _, .refl _ _, .refl _ _, .refl _ _⟩

/-- A rollback is private. -/
theorem Private.of_rollback (t : T) (db : Db T) : Private t db (db.rollback t) :=
  ⟨.of_rollback _ _, .of_rollback _ _, .of_rollback _ _, .of_rollback _ _⟩

/-- Transaction `t` has no uncommitted row anywhere. -/
structure Clean (db : Db T) (t : T) : Prop where
  invoices : db.invoices.Untouched t
  wallets : db.wallets.Untouched t
  walletOrg : db.walletOrg.Untouched t
  ledger : db.ledger.Untouched t

/-- A transaction has no uncommitted rows after its commit. -/
theorem clean_commit (db : Db T) (t : T) : (db.commit t).Clean t :=
  ⟨Table.untouched_commit _ _, Table.untouched_commit _ _, Table.untouched_commit _ _,
    Table.untouched_commit _ _⟩

/-- Nor after its rollback. -/
theorem clean_rollback (db : Db T) (t : T) : (db.rollback t).Clean t :=
  ⟨Table.untouched_rollback _ _, Table.untouched_rollback _ _,
    Table.untouched_rollback _ _, Table.untouched_rollback _ _⟩

/-! ### Inversion of the SQL statements -/

/-- A successful wallet INSERT found both unique keys unused and wrote both. -/
theorem insertWallet_ok {id : Uuid} {call : TopUp}
    (h : db.insertWallet t id call = some (.ok db')) :
    ∃ wallets walletOrg, db.wallets.view t id = none ∧
      db.wallets.put t id (some ⟨call.organization_id, 0, call.currency⟩) = some wallets ∧
      db.walletOrg.view t call.organization_id = none ∧
      db.walletOrg.put t call.organization_id (some id) = some walletOrg ∧
      db' = { db with wallets, walletOrg } := by
  simp only [insertWallet, Option.bind_eq_bind, Option.bind_eq_some_iff, Option.pure_def] at h
  obtain ⟨r, hr, h⟩ := h
  cases r with
  | error e => simp at h
  | ok wallets =>
      obtain ⟨r', hr', h⟩ := Option.bind_eq_some_iff.mp h
      cases r' with
      | error e => simp at h
      | ok walletOrg =>
          obtain ⟨hv, hput⟩ := Table.insert_eq_ok_iff.mp hr
          obtain ⟨hv', hput'⟩ := Table.insert_eq_ok_iff.mp hr'
          simp only [Option.some.injEq, Except.ok.injEq] at h
          exact ⟨wallets, walletOrg, hv, hput, hv', hput', h.symm⟩

/-- A successful ledger INSERT found its key unused and wrote the row. -/
theorem insertTransaction_ok {key : String} {row : WalletTransaction}
    (h : db.insertTransaction t key row = some (.ok db')) :
    ∃ ledger, db.ledger.view t key = none ∧ db.ledger.put t key (some row) = some ledger ∧
      db' = { db with ledger } := by
  obtain ⟨r, hr, h⟩ := Option.bind_eq_some_iff.mp h
  cases r with
  | error e => simp at h
  | ok ledger =>
      obtain ⟨hv, hput⟩ := Table.insert_eq_ok_iff.mp hr
      simp only [Option.pure_def, Option.some.injEq, Except.ok.injEq] at h
      exact ⟨ledger, hv, hput, h.symm⟩

/-- A ledger INSERT that violates its constraint found a row under the key. -/
theorem insertTransaction_error {key : String} {row : WalletTransaction}
    {e : Table.UniqueViolation} (h : db.insertTransaction t key row = some (.error e)) :
    (db.ledger.view t key).isSome := by
  obtain ⟨r, hr, h⟩ := Option.bind_eq_some_iff.mp h
  cases r with
  | error e => exact (Table.insert_eq_error_iff.mp hr).1
  | ok ledger => simp at h

/-- The invoice UPDATE rewrites the status of the version it finds. -/
theorem updateInvoice_some {id : Uuid} {status : InvoiceStatus} {now : ℕ}
    (h : db.updateInvoice t id status now = some db') :
    ∃ row charged_at invoices, db.invoices.view t id = some row ∧
      db.invoices.put t id (some { row with status, charged_at }) = some invoices ∧
      db' = { db with invoices } := by
  simp only [updateInvoice, Option.bind_eq_bind, Option.bind_eq_some_iff, Option.pure_def,
    Option.some.injEq] at h
  obtain ⟨row, hrow, invoices, hput, rfl⟩ := h
  exact ⟨row, _, invoices, hrow, hput, rfl⟩

/-- The balance UPDATE writes the wallet row and nothing else. -/
theorem updateBalance_some {id : Uuid} {row : CustomerWallet} {delta : ℤ}
    (h : db.updateBalance t id row delta = some db') :
    ∃ wallets, db.wallets.put t id
        (some { row with balance_cents := row.balance_cents + delta }) = some wallets ∧
      db' = { db with wallets } := by
  simp only [updateBalance, Option.bind_eq_bind, Option.bind_eq_some_iff, Option.pure_def,
    Option.some.injEq] at h
  obtain ⟨wallets, hput, rfl⟩ := h
  exact ⟨wallets, hput, rfl⟩

/-! ### The statements are private -/

/-- The insert of a wallet is private until it is committed. -/
theorem private_of_insertWallet {id : Uuid} {call : TopUp}
    (h : db.insertWallet t id call = some (.ok db')) : Private t db db' := by
  obtain ⟨wallets, walletOrg, -, hput, -, hput', rfl⟩ := insertWallet_ok h
  exact ⟨.refl _ _, .of_put hput, .of_put hput', .refl _ _⟩

/-- And so is that of a ledger row. -/
theorem private_of_insertTransaction {key : String} {row : WalletTransaction}
    (h : db.insertTransaction t key row = some (.ok db')) : Private t db db' := by
  obtain ⟨ledger, -, hput, rfl⟩ := insertTransaction_ok h
  exact ⟨.refl _ _, .refl _ _, .refl _ _, .of_put hput⟩

/-- And the settlement of an invoice. -/
theorem private_of_updateInvoice {id : Uuid} {status : InvoiceStatus} {now : ℕ}
    (h : db.updateInvoice t id status now = some db') : Private t db db' := by
  obtain ⟨row, at', invoices, -, hput, rfl⟩ := updateInvoice_some h
  exact ⟨.of_put hput, .refl _ _, .refl _ _, .refl _ _⟩

/-- And the change of a balance. -/
theorem private_of_updateBalance {id : Uuid} {row : CustomerWallet} {delta : ℤ}
    (h : db.updateBalance t id row delta = some db') : Private t db db' := by
  obtain ⟨wallets, hput, rfl⟩ := updateBalance_some h
  exact ⟨.refl _ _, .of_put hput, .refl _ _, .refl _ _⟩

end Db

/-! ### What one action can do -/

/-- The statement that a request executes next is its COMMIT. -/
def Proc.committing : Proc → Bool
  | .post _ _ _ true true | .settled _ _ _ | .topUpCommit _ _ => true
  | _ => false

/-- The three places from which a request commits. -/
theorem Proc.committing_cases {p : Proc} (hp : p.committing = true) :
    (∃ id invoice status, p = .settled id invoice status) ∨
      (∃ id invoice w, p = .post id invoice w true true) ∨
      ∃ call w, p = .topUpCommit call w := by
  cases p with
  | settled id invoice status => exact .inl ⟨id, invoice, status, rfl⟩
  | topUpCommit call w => exact .inr (.inr ⟨call, w, rfl⟩)
  | post id invoice w inserted updated =>
      cases inserted <;> cases updated <;> simp only [committing, reduceCtorEq] at hp
      exact .inr (.inl ⟨id, invoice, w, rfl⟩)
  | _ => cases hp

/-- What one action can do, branch by branch. -/
inductive Step (t : T) (db : Db T) : Act → Proc → Db T → Proc → Prop
  | issue {id : Uuid} {invoice : Invoice} {db' : Db T}
      (issued : issue t id invoice db = some (db', .idle)) :
      Step t db (.issue id invoice) .idle db' .idle
  | charge {id : Uuid} {row : Invoice} (found : db.invoices.view t id = some row) :
      Step t db (.charge id) .idle db (.charging id row)
  | topUp {call : TopUp} (pos : 0 < call.amount_cents) :
      Step t db (.topUp call) .idle db (.topUp call)
  /-- The request fails, or finds no wallet after a unique violation. -/
  | abort {a : Act} {p : Proc} : Step t db a p (db.rollback t) .raised
  /-- The invoice is not open. -/
  | notOpen {a : Act} {id : Uuid} {invoice : Invoice} :
      Step t db a (.charging id invoice) db (.chargeReturned id)
  /-- There is nothing to pay. -/
  | free {a : Act} {id : Uuid} {invoice : Invoice} (zero : invoice.total_cents = 0) :
      Step t db a (.charging id invoice) db (.settle id invoice .paid)
  /-- No wallet covers the total. -/
  | uncovered {a : Act} {id : Uuid} {invoice : Invoice} (cost : invoice.total_cents ≠ 0) :
      Step t db a (.charging id invoice) db (.settle id invoice .uncollectible)
  | covered {a : Act} {id w : Uuid} {invoice : Invoice} (cost : invoice.total_cents ≠ 0) :
      Step t db a (.charging id invoice) db (.debit id invoice w)
  | debit {a : Act} {id w : Uuid} {invoice : Invoice} {row : CustomerWallet} {db' : Db T}
      (found : db.wallets.view t w = some row)
      (owner : row.organization_id = invoice.organization_id)
      (covers : invoice.total_cents ≤ row.balance_cents)
      (update : db.updateBalance t w row (-invoice.total_cents) = some db') :
      Step t db a (.debit id invoice w) db' (.post id invoice w false false)
  /-- The wallet has changed since the snapshot. -/
  | short {a : Act} {id w : Uuid} {invoice : Invoice} :
      Step t db a (.debit id invoice w) db (.settle id invoice .uncollectible)
  | settle {env : Env} {id : Uuid} {invoice : Invoice} {status : InvoiceStatus} {db' : Db T}
      (update : db.updateInvoice t id status env.now = some db') :
      Step t db (.stmt env) (.settle id invoice status) db' (.settled id invoice status)
  | settled {env : Env} {id : Uuid} {invoice : Invoice} {status : InvoiceStatus} :
      Step t db (.stmt env) (.settled id invoice status) (db.commit t) (.chargeReturned id)
  | postLedger {a : Act} {id w : Uuid} {invoice : Invoice} {updated : Bool} {db' : Db T}
      (insert : db.insertTransaction t (debitKey id) (debitRow id invoice w) = some (.ok db')) :
      Step t db a (.post id invoice w false updated) db' (.post id invoice w true updated)
  /-- The key of the debit is taken. -/
  | collided {a : Act} {id w : Uuid} {invoice : Invoice} {updated : Bool}
      (taken : (db.ledger.view t (debitKey id)).isSome) :
      Step t db a (.post id invoice w false updated) (db.rollback t) (.chargeRaised id)
  | postInvoice {env : Env} {id w : Uuid} {invoice : Invoice} {inserted : Bool} {db' : Db T}
      (update : db.updateInvoice t id .paid env.now = some db') :
      Step t db (.stmt env) (.post id invoice w inserted false) db'
        (.post id invoice w inserted true)
  | posted {env : Env} {id w : Uuid} {invoice : Invoice} :
      Step t db (.stmt env) (.post id invoice w true true) (db.commit t) (.chargeReturned id)
  | found {a : Act} {call : TopUp} {w : Uuid} {p : Proc}
      (hp : p = .topUp call ∨ p = .reloadWallet call)
      (wallet : db.get_wallet t call.organization_id = some w) :
      Step t db a p db (.insertLedger call w)
  | missing {a : Act} {call : TopUp} : Step t db a (.topUp call) db (.createWallet call)
  | create {env : Env} {call : TopUp} {db' : Db T}
      (insert : db.insertWallet t env.uuid4 call = some (.ok db')) :
      Step t db (.stmt env) (.createWallet call) db' (.insertLedger call env.uuid4)
  /-- Another request has created the wallet. -/
  | overtaken {a : Act} {call : TopUp} :
      Step t db a (.createWallet call) (db.rollback t) (.reloadWallet call)
  | credit {a : Act} {call : TopUp} {w : Uuid} {db' : Db T}
      (insert : db.insertTransaction t call.idempotency_key (topUpRow call w) = some (.ok db')) :
      Step t db a (.insertLedger call w) db' (.addBalance call w)
  /-- The key is taken. -/
  | refused {env : Env} {call : TopUp} {w : Uuid}
      (taken : (db.ledger.view t call.idempotency_key).isSome) :
      Step t db (.stmt env) (.insertLedger call w) (db.rollback t) (.recover call)
  | addBalance {a : Act} {call : TopUp} {w : Uuid} {row : CustomerWallet} {db' : Db T}
      (found : db.wallets.view t w = some row)
      (update : db.updateBalance t w row call.amount_cents = some db') :
      Step t db a (.addBalance call w) db' (.topUpCommit call w)
  | credited {env : Env} {call : TopUp} {w : Uuid} :
      Step t db (.stmt env) (.topUpCommit call w) (db.commit t) (.topUpReturned call)
  | recovered {a : Act} {call : TopUp} {p : Proc}
      (hp : p = .recover call ∨ p = .reselectWallet call) :
      Step t db a p db (.topUpReturned call)
  | lost {a : Act} {call : TopUp} : Step t db a (.recover call) db (.recreateWallet call)
  | recreate {env : Env} {call : TopUp} {db' : Db T}
      (insert : db.insertWallet t env.uuid4 call = some (.ok db')) :
      Step t db (.stmt env) (.recreateWallet call) db' (.closing call)
  | reselect {a : Act} {call : TopUp} :
      Step t db a (.recreateWallet call) (db.rollback t) (.reselectWallet call)
  | close {a : Act} {call : TopUp} :
      Step t db a (.closing call) (db.rollback t) (.topUpReturned call)

/-! ### Inversion of the parts of a request -/

section Inversion

variable {a : Act} {env : Env} {id w : Uuid} {invoice : Invoice} {call : TopUp} {p p' : Proc}

/-- The first statement of a charge, one constructor of `Step` for each status of the invoice. -/
theorem step_of_chargeInvoice :
    Step t db a (.charging id invoice) db (chargeInvoice t id invoice db) := by
  rw [chargeInvoice]
  split
  · exact .notOpen
  · split
    · rename_i hzero
      exact .free hzero
    · rename_i hcost
      split
      · exact .covered hcost
      · exact .uncovered hcost

/-- The debit either waits no longer and subtracts the total from the version it finds,
or finds that the predicate fails. -/
theorem step_of_debitWallet (h : debitWallet t id invoice w db = some (db', p')) :
    Step t db a (.debit id invoice w) db' p' := by
  rw [debitWallet] at h
  split at h
  · split at h
    · rename_i row hrow
      split at h
      · rename_i hcond
        obtain ⟨db₁, hdb₁, h⟩ := Option.map_eq_some_iff.mp h
        obtain ⟨rfl, rfl⟩ := Prod.mk.inj h
        exact .debit hrow hcond.1 hcond.2 hdb₁
      · obtain ⟨rfl, rfl⟩ := Prod.mk.inj (Option.some.inj h)
        exact .short
    · obtain ⟨rfl, rfl⟩ := Prod.mk.inj (Option.some.inj h)
      exact .short
  · cases h

/-- The ledger row of a charge is inserted, collides, or waits. -/
theorem step_of_postLedger {updated : Bool}
    (h : postLedger t id invoice w updated db = some (db', p')) :
    Step t db a (.post id invoice w false updated) db' p' := by
  obtain ⟨r, hr, h⟩ := Option.map_eq_some_iff.mp h
  cases r with
  | ok db₁ =>
      obtain ⟨rfl, rfl⟩ := Prod.mk.inj h
      exact .postLedger hr
  | error e =>
      obtain ⟨rfl, rfl⟩ := Prod.mk.inj h
      exact .collided (Db.insertTransaction_error hr)

/-- After the ledger row comes the invoice. -/
theorem step_of_postInvoice {inserted : Bool}
    (h : postInvoice t env id invoice w inserted db = some (db', p')) :
    Step t db (.stmt env) (.post id invoice w inserted false) db' p' := by
  obtain ⟨db₁, hdb₁, h⟩ := Option.map_eq_some_iff.mp h
  obtain ⟨rfl, rfl⟩ := Prod.mk.inj h
  exact .postInvoice hdb₁

/-- The flush and the COMMIT of a charge: a ledger INSERT, a rollback, an invoice UPDATE,
or, when both statements are done, the COMMIT. -/
theorem step_of_postCharge {inserted updated : Bool}
    (h : postCharge t env id invoice w inserted updated db = some (db', p')) :
    Step t db (.stmt env) (.post id invoice w inserted updated) db' p' := by
  cases inserted <;> cases updated <;> simp only [postCharge] at h
  · split at h
    · exact step_of_postInvoice h
    · exact step_of_postLedger h
  · exact step_of_postLedger h
  · exact step_of_postInvoice h
  · obtain ⟨rfl, rfl⟩ := Prod.mk.inj (Option.some.inj h)
    exact .posted

/-- The insert of a wallet is granted, or another call was first and the transaction is rolled
back. -/
theorem createWallet_cases {created : Db T → Db T × Proc} {violated : Proc}
    (h : createWallet t env call created violated db = some (db', p')) :
    (∃ db₁, db.insertWallet t env.uuid4 call = some (.ok db₁) ∧ created db₁ = (db', p')) ∨
      db' = db.rollback t ∧ p' = violated := by
  obtain ⟨r, hr, h⟩ := Option.map_eq_some_iff.mp h
  cases r with
  | ok db₁ => exact .inl ⟨db₁, hr, h⟩
  | error e =>
      obtain ⟨rfl, rfl⟩ := Prod.mk.inj h
      exact .inr ⟨rfl, rfl⟩

/-- The ledger row of a top-up is inserted, collides, or waits. -/
theorem step_of_creditLedger (h : creditLedger t call w db = some (db', p')) :
    Step t db (.stmt env) (.insertLedger call w) db' p' := by
  obtain ⟨r, hr, h⟩ := Option.map_eq_some_iff.mp h
  cases r with
  | ok db₁ =>
      obtain ⟨rfl, rfl⟩ := Prod.mk.inj h
      exact .credit hr
  | error e =>
      obtain ⟨rfl, rfl⟩ := Prod.mk.inj h
      exact .refused (Db.insertTransaction_error hr)

/-- The balance is raised if its row is not locked. -/
theorem step_of_addBalance (h : addBalance t call w db = some (db', p')) :
    Step t db a (.addBalance call w) db' p' := by
  simp only [addBalance, Option.bind_eq_bind, Option.bind_eq_some_iff, Option.pure_def,
    Option.some.injEq, Prod.mk.injEq] at h
  obtain ⟨row, hrow, db₁, hdb₁, rfl, rfl⟩ := h
  exact .addBalance hrow hdb₁

/-- `get_wallet` decides between two continuations without changing the database, unless
the second one does. -/
theorem selectWallet_cases {found : Uuid → Proc} {missing : Db T × Proc}
    (h : some (selectWallet t call found missing db) = some (db', p')) :
    (∃ w, db.get_wallet t call.organization_id = some w ∧ db' = db ∧ p' = found w) ∨
      missing.1 = db' ∧ missing.2 = p' := by
  rw [Option.some.injEq, selectWallet] at h
  cases hw : db.get_wallet t call.organization_id with
  | none =>
      rw [hw] at h
      exact .inr (Prod.mk.inj h)
  | some w =>
      rw [hw] at h
      obtain ⟨rfl, rfl⟩ := Prod.mk.inj h
      exact .inl ⟨w, rfl, rfl, rfl⟩

/-- The commit of a new invoice adds that invoice and nothing else. -/
theorem issue_some (h : issue t id invoice db = some (db', p')) :
    invoice.status = .open_ ∧ 0 ≤ invoice.total_cents ∧ db.invoices.view t id = none ∧
      p' = .idle ∧ ∃ invoices, db.invoices.put t id (some invoice) = some invoices ∧
        db' = { db with invoices := invoices.commit t } := by
  rw [issue] at h
  split at h
  · rename_i hcond
    obtain ⟨hopen, htot, hv⟩ := hcond
    obtain ⟨invoices, hput, h⟩ := Option.map_eq_some_iff.mp h
    obtain ⟨rfl, rfl⟩ := Prod.mk.inj h
    exact ⟨hopen, htot, hv, rfl, invoices, hput, rfl⟩
  · cases h

/-- **Every statement is a step**: the statements of the source, one by one, against the
constructors of `Step`. -/
theorem step_of_stmt (h : stmt t env db p = some (db', p')) : Step t db (.stmt env) p db' p' := by
  cases p with
  | idle | chargeReturned _ | chargeRaised _ | topUpReturned _ | raised => cases h
  | charging id invoice =>
      obtain ⟨rfl, rfl⟩ := Prod.mk.inj (Option.some.inj h)
      exact step_of_chargeInvoice
  | debit id invoice w => exact step_of_debitWallet h
  | settle id invoice status =>
      obtain ⟨db₁, hdb₁, h⟩ := Option.map_eq_some_iff.mp h
      obtain ⟨rfl, rfl⟩ := Prod.mk.inj h
      exact .settle hdb₁
  | post id invoice w inserted updated => exact step_of_postCharge h
  | settled id invoice status =>
      obtain ⟨rfl, rfl⟩ := Prod.mk.inj (Option.some.inj h)
      exact .settled
  | topUp call =>
      rcases selectWallet_cases h with ⟨w, hw, rfl, rfl⟩ | ⟨rfl, rfl⟩
      · exact .found (.inl rfl) hw
      · exact .missing
  | createWallet call =>
      rcases createWallet_cases h with ⟨db₁, hins, h⟩ | ⟨rfl, rfl⟩
      · obtain ⟨rfl, rfl⟩ := Prod.mk.inj h
        exact .create hins
      · exact .overtaken
  | reloadWallet call =>
      rcases selectWallet_cases h with ⟨w, hw, rfl, rfl⟩ | ⟨rfl, rfl⟩
      · exact .found (.inr rfl) hw
      · exact .abort
  | insertLedger call w => exact step_of_creditLedger h
  | addBalance call w => exact step_of_addBalance h
  | topUpCommit call w =>
      obtain ⟨rfl, rfl⟩ := Prod.mk.inj (Option.some.inj h)
      exact .credited
  | recover call =>
      rcases selectWallet_cases h with ⟨w, -, rfl, rfl⟩ | ⟨rfl, rfl⟩
      · exact .recovered (.inl rfl)
      · exact .lost
  | recreateWallet call =>
      rcases createWallet_cases h with ⟨db₁, hins, h⟩ | ⟨rfl, rfl⟩
      · obtain ⟨rfl, rfl⟩ := Prod.mk.inj h
        exact .recreate hins
      · exact .reselect
  | reselectWallet call =>
      rcases selectWallet_cases h with ⟨w, -, rfl, rfl⟩ | ⟨rfl, rfl⟩
      · exact .recovered (.inr rfl)
      · exact .abort
  | closing call =>
      obtain ⟨rfl, rfl⟩ := Prod.mk.inj (Option.some.inj h)
      exact .close

/-- **Every action is one of these steps.** -/
theorem step_of_exec (h : exec t a db p = some (db', p')) : Step t db a p db' p' := by
  cases a with
  | issue id invoice =>
      cases p <;> simp only [exec, reduceCtorEq] at h
      obtain ⟨-, -, -, rfl, -⟩ := issue_some h
      exact .issue h
  | charge id =>
      cases p <;> simp only [exec, reduceCtorEq] at h
      obtain ⟨row, hrow, h⟩ := Option.map_eq_some_iff.mp h
      obtain ⟨rfl, rfl⟩ := Prod.mk.inj h
      exact .charge hrow
  | topUp call =>
      cases p <;> simp only [exec, reduceCtorEq] at h
      split at h
      · rename_i hpos
        obtain ⟨rfl, rfl⟩ := Prod.mk.inj (Option.some.inj h)
        exact .topUp hpos
      · cases h
  | stmt env => exact step_of_stmt h
  | fail =>
      simp only [exec] at h
      split at h
      · cases h
      · obtain ⟨rfl, rfl⟩ := Prod.mk.inj (Option.some.inj h)
        exact .abort

/-- An action is a private statement, the COMMIT of a request that has reached it, or the
commit of a new invoice by a request that has not started. -/
theorem exec_cases (h : exec t a db p = some (db', p')) :
    Db.Private t db db' ∨
      (∃ env, a = .stmt env) ∧ p.committing = true ∧ db' = db.commit t ∨
      ∃ id invoice, a = .issue id invoice ∧ p = .idle ∧ p' = .idle ∧
        issue t id invoice db = some (db', .idle) := by
  cases step_of_exec h with
  | issue hi => exact .inr (.inr ⟨_, _, rfl, rfl, rfl, hi⟩)
  | settled | posted | credited => exact .inr (.inl ⟨⟨_, rfl⟩, rfl, rfl⟩)
  | charge | topUp | notOpen | free | uncovered | covered | short | found | missing | recovered
  | lost => exact .inl (.refl _ _)
  | abort | collided | overtaken | refused | reselect | close => exact .inl (.of_rollback _ _)
  | debit _ _ _ hu | addBalance _ hu => exact .inl (Db.private_of_updateBalance hu)
  | settle hu | postInvoice hu => exact .inl (Db.private_of_updateInvoice hu)
  | postLedger hi | credit hi => exact .inl (Db.private_of_insertTransaction hi)
  | create hi | recreate hi => exact .inl (Db.private_of_insertWallet hi)

end Inversion

/-! ### What a request may rely on -/

/-- From `db` to `db'` request `u` is left **undisturbed**: its own uncommitted rows and
the committed versions under them are the same, and elsewhere committed rows keep the
fields that no request rewrites. -/
structure Undisturbed (u : T) (db db' : Db T) : Prop where
  invoices_written : db'.invoices.written u = db.invoices.written u
  wallets_written : db'.wallets.written u = db.wallets.written u
  walletOrg_written : db'.walletOrg.written u = db.walletOrg.written u
  ledger_written : db'.ledger.written u = db.ledger.written u
  /-- Invoices keep their organisation and their total. -/
  invoice : ∀ {id row}, db.invoices.committed id = some row →
    ∃ row', db'.invoices.committed id = some row' ∧
      row'.organization_id = row.organization_id ∧ row'.total_cents = row.total_cents
  /-- Wallets keep their organisation. -/
  wallet : ∀ {w row}, db.wallets.committed w = some row →
    ∃ row', db'.wallets.committed w = some row' ∧
      row'.organization_id = row.organization_id
  /-- The index of wallets only grows. -/
  walletOrg : ∀ {o w}, db.walletOrg.committed o = some w → db'.walletOrg.committed o = some w
  /-- The ledger only grows. -/
  ledger : ∀ {k r}, db.ledger.committed k = some r → db'.ledger.committed k = some r
  wallet_held : ∀ {w v}, db.wallets.written u w = some v →
    db'.wallets.committed w = db.wallets.committed w
  walletOrg_held : ∀ {o v}, db.walletOrg.written u o = some v →
    db'.walletOrg.committed o = db.walletOrg.committed o
  ledger_held : ∀ {k v}, db.ledger.written u k = some v →
    db'.ledger.committed k = db.ledger.committed k

/-- Statements that are not commits leave the other requests undisturbed. -/
theorem undisturbed_of_private (h : Db.Private t db db') (hu : u ≠ t) :
    Undisturbed u db db' where
  invoices_written := h.invoices.written u hu
  wallets_written := h.wallets.written u hu
  walletOrg_written := h.walletOrg.written u hu
  ledger_written := h.ledger.written u hu
  invoice {id row} hr := ⟨row, by rw [h.invoices.committed, hr], rfl, rfl⟩
  wallet {w row} hr := ⟨row, by rw [h.wallets.committed, hr], rfl⟩
  walletOrg hr := by rw [h.walletOrg.committed, hr]
  ledger hr := by rw [h.ledger.committed, hr]
  wallet_held _ := by rw [h.wallets.committed]
  walletOrg_held _ := by rw [h.walletOrg.committed]
  ledger_held _ := by rw [h.ledger.committed]

/-- What `t` has written rewrites no organisation and no total, and replaces no ledger
row and no index entry. -/
structure Appending (t : T) (db : Db T) : Prop where
  invoice : ∀ {id v}, db.invoices.written t id = some v → ∃ row old, v = some row ∧
    db.invoices.committed id = some old ∧
    row.organization_id = old.organization_id ∧ row.total_cents = old.total_cents
  wallet : ∀ {w v}, db.wallets.written t w = some v → ∃ row, v = some row ∧
    ∀ old, db.wallets.committed w = some old → row.organization_id = old.organization_id
  walletOrg : ∀ {o v}, db.walletOrg.written t o = some v → db.walletOrg.committed o = none
  ledger : ∀ {k v}, db.ledger.written t k = some v → db.ledger.committed k = none

/-- The commit of such a request leaves the others undisturbed. -/
theorem undisturbed_of_commit (h : Appending t db) (hu : u ≠ t) :
    Undisturbed u db (db.commit t) where
  invoices_written := Table.written_commit_ne _ hu
  wallets_written := Table.written_commit_ne _ hu
  walletOrg_written := Table.written_commit_ne _ hu
  ledger_written := Table.written_commit_ne _ hu
  invoice {id row} hr := by
    simp only [Db.commit, Table.committed_commit]
    cases hw : db.invoices.written t id with
    | none => exact ⟨row, by rw [Table.view_of_written_eq_none hw, hr], rfl, rfl⟩
    | some v =>
        obtain ⟨row', old, rfl, hold, hrow'⟩ := h.invoice hw
        obtain rfl : old = row := Option.some.inj (hold.symm.trans hr)
        exact ⟨row', Table.view_of_written hw, hrow'⟩
  wallet {w row} hr := by
    simp only [Db.commit, Table.committed_commit]
    cases hw : db.wallets.written t w with
    | none => exact ⟨row, by rw [Table.view_of_written_eq_none hw, hr], rfl⟩
    | some v =>
        obtain ⟨row', rfl, hrow'⟩ := h.wallet hw
        exact ⟨row', Table.view_of_written hw, hrow' row hr⟩
  walletOrg {o w} hr := by
    simp only [Db.commit, Table.committed_commit]
    cases hw : db.walletOrg.written t o with
    | none => rw [Table.view_of_written_eq_none hw, hr]
    | some v => simp [h.walletOrg hw] at hr
  ledger {k r} hr := by
    simp only [Db.commit, Table.committed_commit]
    cases hw : db.ledger.written t k with
    | none => rw [Table.view_of_written_eq_none hw, hr]
    | some v => simp [h.ledger hw] at hr
  wallet_held hv := Table.committed_commit_of_written hv hu
  walletOrg_held hv := Table.committed_commit_of_written hv hu
  ledger_held hv := Table.committed_commit_of_written hv hu

/-- The committed invoices after `issue`, by a request with no uncommitted invoice. -/
theorem issue_committed {id : Uuid} {invoice : Invoice} {p : Proc}
    (hc : db.invoices.Untouched t) (h : issue t id invoice db = some (db', p)) :
    db.invoices.committed id = none ∧
      db'.invoices.committed = Function.update db.invoices.committed id (some invoice) := by
  obtain ⟨-, -, hv, -, invoices, hput, rfl⟩ := issue_some h
  refine ⟨by rw [← hc.view, hv], ?_⟩
  rw [(hc.put hput).committed_commit, Table.committed_put hput]

/-- A new invoice leaves every request undisturbed. -/
theorem undisturbed_of_issue {id : Uuid} {invoice : Invoice} {p : Proc}
    (hc : db.invoices.Untouched t) (h : issue t id invoice db = some (db', p)) (hu : u ≠ t) :
    Undisturbed u db db' := by
  obtain ⟨hnone, hcom⟩ := issue_committed hc h
  obtain ⟨-, -, -, -, invoices, hput, rfl⟩ := issue_some h
  refine ⟨?_, rfl, rfl, rfl, ?_, fun {w row} hr => ⟨row, hr, rfl⟩, fun hr => hr,
    fun hr => hr, fun _ => rfl, fun _ => rfl, fun _ => rfl⟩
  · exact (Table.written_commit_ne _ hu).trans (Table.written_put_ne hput hu)
  · intro j row hr
    refine ⟨row, ?_, rfl, rfl⟩
    have hj : j ≠ id := by
      rintro rfl
      rw [hnone] at hr
      cases hr
    rw [hcom, Function.update_of_ne hj, hr]

end BackendManager.Metering
