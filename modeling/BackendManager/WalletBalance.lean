import BackendManager.WalletBooks

/-!
# The Wallet's Books Balance

`charge_invoice` moves the balance first and writes the ledger row afterwards; `top_up`
does it the other way round; both can fail, be rolled back or be overtaken at any
statement. This module proves that the books agree in every reachable state all the same.

The proof is an Owicki–Gries outline over `BackendManager.WalletSteps`, with the invariant
and the assertions of `BackendManager.WalletBooks`.

The assertions are stated for the statement that is next, so that a step of a request has to
establish one assertion from another, and a step of any other request has to leave it as it is
(`Undisturbed`). The three commits are where the global invariant is at stake: at each of them
the uncommitted rows are a ledger row and the balance that goes with it, or a status alone. The
outline has no condition on the schedule, so that crashes and cancellations at any point are
covered.

## Main results

* `Step.loc`: every step establishes the next assertion of its request.
* `walletInv_of_run`: the invariant and the assertions of all requests along every run.
* `books_of_run`: in every reachable state every organisation has at most one wallet, a
  balance is the sum of its ledger rows and never negative, and every ledger row carries
  the organisation of its wallet.
-/

namespace BackendManager.Metering

open ReadCommitted Interleaving

variable {T : Type} [DecidableEq T] {t u : T} {db db' : Db T}

/-! ### Interference freedom -/

section Frame

variable {id w : Uuid} {invoice : Invoice} {status : InvoiceStatus} {call : TopUp} {b : ℤ}
  {k : String} {r : WalletTransaction}

/-- An undisturbed request without uncommitted rows stays without. -/
theorem Undisturbed.clean (h : Undisturbed u db db') (hc : db.Clean u) : db'.Clean u :=
  ⟨hc.invoices.congr h.invoices_written, hc.wallets.congr h.wallets_written,
    hc.walletOrg.congr h.walletOrg_written, hc.ledger.congr h.ledger_written⟩

/-- Its copy of an invoice is still one of the committed row's. -/
theorem Undisturbed.copy (h : Undisturbed u db db') (hc : Copy db id invoice) :
    Copy db' id invoice := by
  obtain ⟨row, hrow, horg, htot⟩ := hc
  obtain ⟨row', hrow', horg', htot'⟩ := h.invoice hrow
  exact ⟨row', hrow', horg'.trans horg, htot'.trans htot⟩

/-- The status that it has set is still set. -/
theorem Undisturbed.statusSet (h : Undisturbed u db db')
    (hs : StatusSet u db id invoice status) : StatusSet u db' id invoice status := by
  obtain ⟨row, hrow, hrest⟩ := hs
  exact ⟨row, hrow.congr h.invoices_written, hrest⟩

/-- The ledger row of its charge is still pending. -/
theorem Undisturbed.debited (h : Undisturbed u db db') (hd : Debited u db invoice w) :
    Debited u db' invoice w := by
  obtain ⟨row, hrow, horg, hle, hsole, hun⟩ := hd
  refine ⟨row, ?_, horg, hle, hsole.congr h.wallets_written,
    hun.congr h.walletOrg_written⟩
  rw [h.wallet_held hsole.1, hrow]

/-- The wallet that it has found is still there. -/
theorem Undisturbed.existing (h : Undisturbed u db db') (he : Existing db call w) :
    Existing db' call w := by
  obtain ⟨row, hrow, horg⟩ := he
  obtain ⟨row', hrow', horg'⟩ := h.wallet hrow
  exact ⟨row', hrow', horg'.trans horg⟩

/-- The wallet that it has inserted is still pending. -/
theorem Undisturbed.created (h : Undisturbed u db db') (hc : Created u db call w b) :
    Created u db' call w b := by
  obtain ⟨hsole, hnone, hidx, hfree⟩ := hc
  refine ⟨hsole.congr h.wallets_written, ?_, hidx.congr h.walletOrg_written, ?_⟩
  · rw [h.wallet_held hsole.1, hnone]
  · rw [h.walletOrg_held hidx.1, hfree]

/-- The ledger row of its top-up is still pending. -/
theorem Undisturbed.credited (h : Undisturbed u db db') (hc : Credited u db call w) :
    Credited u db' call w := by
  obtain ⟨row, hrow, horg, hsole, hun⟩ := hc
  refine ⟨row, ?_, horg, hsole.congr h.wallets_written, hun.congr h.walletOrg_written⟩
  rw [h.wallet_held hsole.1, hrow]

/-- And so is any ledger row that it has inserted. -/
theorem Undisturbed.inserted (h : Undisturbed u db db') (hi : Inserted u db k r) :
    Inserted u db' k r := by
  obtain ⟨hsole, hnone⟩ := hi
  refine ⟨hsole.congr h.ledger_written, ?_⟩
  rw [h.ledger_held hsole.1, hnone]

/-- **Interference freedom.** The assertion of a request survives every step that leaves
it undisturbed. -/
theorem Undisturbed.loc (h : Undisturbed u db db') {p : Proc} (hL : Loc u db p) :
    Loc u db' p := by
  cases p with
  | idle | chargeReturned _ | chargeRaised _ | topUpReturned _ | raised => exact h.clean hL
  | charging id invoice => exact ⟨h.clean hL.1, h.copy hL.2⟩
  | debit id invoice w => exact ⟨h.clean hL.1, h.copy hL.2.1, hL.2.2⟩
  | settle id invoice status =>
      obtain ⟨hc, hcopy, hrest⟩ := hL
      exact ⟨h.clean hc, h.copy hcopy, hrest⟩
  | settled id invoice status =>
      obtain ⟨hs, hcopy, hw, ho, hl, hrest⟩ := hL
      exact ⟨h.statusSet hs, h.copy hcopy, hw.congr h.wallets_written,
        ho.congr h.walletOrg_written, hl.congr h.ledger_written, hrest⟩
  | post id invoice w inserted updated =>
      obtain ⟨hd, hcopy, hl, hi⟩ := hL
      refine ⟨h.debited hd, h.copy hcopy, ?_, ?_⟩
      · cases inserted with
        | true => exact h.inserted hl
        | false => exact Table.Untouched.congr hl h.ledger_written
      · cases updated with
        | true => exact h.statusSet hi
        | false => exact Table.Untouched.congr hi h.invoices_written
  | topUp call | createWallet call | reloadWallet call | recover call
  | recreateWallet call | reselectWallet call => exact ⟨h.clean hL.1, hL.2⟩
  | insertLedger call w =>
      obtain ⟨hwallet, hpos⟩ := hL
      refine ⟨?_, hpos⟩
      rcases hwallet with ⟨hc, he⟩ | ⟨hc, hl, hi⟩
      · exact .inl ⟨h.clean hc, h.existing he⟩
      · exact .inr ⟨h.created hc, hl.congr h.ledger_written, hi.congr h.invoices_written⟩
  | addBalance call w =>
      obtain ⟨hwallet, hins, hinv, hpos⟩ := hL
      refine ⟨?_, h.inserted hins, hinv.congr h.invoices_written, hpos⟩
      rcases hwallet with ⟨hw, ho, he⟩ | hc
      · exact .inl ⟨hw.congr h.wallets_written, ho.congr h.walletOrg_written, h.existing he⟩
      · exact .inr (h.created hc)
  | topUpCommit call w =>
      obtain ⟨hwallet, hins, hinv, hpos⟩ := hL
      refine ⟨?_, h.inserted hins, hinv.congr h.invoices_written, hpos⟩
      rcases hwallet with hc | hc
      · exact .inl (h.credited hc)
      · exact .inr (h.created hc)
  | closing call => trivial

end Frame

/-! ### Local correctness -/

section Local

variable {id w : Uuid} {invoice : Invoice} {status : InvoiceStatus} {call : TopUp}

/-- The invoice UPDATE establishes `StatusSet`. -/
theorem Copy.statusSet {now : ℕ} (hc : Copy db id invoice) (hun : db.invoices.Untouched t)
    (h : db.updateInvoice t id status now = some db') : StatusSet t db' id invoice status := by
  obtain ⟨row, charged_at, invoices, hrow, hput, rfl⟩ := Db.updateInvoice_some h
  obtain ⟨row₀, hrow₀, horg, htot⟩ := hc
  rw [hun.view, hrow₀, Option.some.injEq] at hrow
  subst hrow
  exact ⟨_, hun.put hput, horg, htot, rfl⟩

/-- The invoice UPDATE leaves the committed invoices and the other tables alone. -/
theorem updateInvoice_frame {now : ℕ} (h : db.updateInvoice t id status now = some db') :
    db'.invoices.committed = db.invoices.committed ∧ db'.wallets = db.wallets ∧
      db'.walletOrg = db.walletOrg ∧ db'.ledger = db.ledger := by
  obtain ⟨row, charged_at, invoices, -, hput, rfl⟩ := Db.updateInvoice_some h
  exact ⟨Table.committed_put hput, rfl, rfl, rfl⟩

/-- The ledger INSERT by a transaction without ledger rows establishes `Inserted`. -/
theorem inserted_of_insertTransaction {k : String} {r : WalletTransaction}
    (hun : db.ledger.Untouched t) (h : db.insertTransaction t k r = some (.ok db')) :
    Inserted t db' k r ∧ db'.invoices = db.invoices ∧ db'.wallets = db.wallets ∧
      db'.walletOrg = db.walletOrg := by
  obtain ⟨ledger, hv, hput, rfl⟩ := Db.insertTransaction_ok h
  refine ⟨⟨hun.put hput, ?_⟩, rfl, rfl, rfl⟩
  rw [Table.committed_put hput, ← hun.view, hv]

/-- The wallet INSERT by a clean transaction establishes `Created`. -/
theorem created_of_insertWallet (hc : db.Clean t)
    (h : db.insertWallet t w call = some (.ok db')) :
    Created t db' call w 0 ∧ db'.ledger.Untouched t ∧ db'.invoices.Untouched t := by
  obtain ⟨wallets, walletOrg, hv, hput, hv', hput', rfl⟩ := Db.insertWallet_ok h
  refine ⟨⟨hc.wallets.put hput, ?_, hc.walletOrg.put hput', ?_⟩, hc.ledger, hc.invoices⟩
  · rw [Table.committed_put hput, ← hc.wallets.view, hv]
  · rw [Table.committed_put hput', ← hc.walletOrg.view, hv']

/-- What `get_wallet` finds for a clean transaction is a committed wallet of that
organisation. -/
theorem WalletInv.existing_of_get_wallet (hI : WalletInv db) (hc : db.Clean t)
    (h : db.get_wallet t call.organization_id = some w) : Existing db call w := by
  rw [Db.get_wallet, hc.walletOrg.view] at h
  exact hI.index.mp h

/-- The debit of a clean transaction establishes `Debited`. -/
theorem debited_of_updateBalance {row : CustomerWallet} (hc : db.Clean t)
    (hrow : db.wallets.view t w = some row)
    (horg : row.organization_id = invoice.organization_id)
    (hle : invoice.total_cents ≤ row.balance_cents)
    (h : db.updateBalance t w row (-invoice.total_cents) = some db') :
    Debited t db' invoice w ∧ db'.invoices = db.invoices ∧ db'.ledger = db.ledger := by
  obtain ⟨wallets, hput, rfl⟩ := Db.updateBalance_some h
  refine ⟨⟨row, ?_, horg, hle, hc.wallets.put hput, hc.walletOrg⟩, rfl, rfl⟩
  rw [Table.committed_put hput, ← hc.wallets.view, hrow]

/-- The balance UPDATE of a top-up establishes `Credited`, or completes `Created`. -/
theorem credited_of_updateBalance {row : CustomerWallet}
    (hw : db.wallets.Untouched t ∧ db.walletOrg.Untouched t ∧ Existing db call w ∨
      Created t db call w 0)
    (hrow : db.wallets.view t w = some row)
    (h : db.updateBalance t w row call.amount_cents = some db') :
    (Credited t db' call w ∨ Created t db' call w call.amount_cents) ∧
      db'.invoices = db.invoices ∧ db'.ledger = db.ledger := by
  obtain ⟨wallets, hput, rfl⟩ := Db.updateBalance_some h
  refine ⟨?_, rfl, rfl⟩
  rcases hw with ⟨hun, hidx, row₀, hrow₀, horg⟩ | ⟨hsole, hnone, hidx, hfree⟩
  · rw [hun.view, hrow₀, Option.some.injEq] at hrow
    subst hrow
    refine .inl ⟨row₀, ?_, horg, hun.put hput, hidx⟩
    rw [Table.committed_put hput, hrow₀]
  · rw [hsole.view, Option.some.injEq] at hrow
    subst hrow
    refine .inr ⟨?_, ?_, hidx, hfree⟩
    · simpa using hsole.put hput
    · rw [Table.committed_put hput, hnone]

/-- The debit `UPDATE`. -/
theorem loc_of_debit {row : CustomerWallet} (hL : Loc t db (.debit id invoice w))
    (hrow : db.wallets.view t w = some row)
    (horg : row.organization_id = invoice.organization_id)
    (hle : invoice.total_cents ≤ row.balance_cents)
    (hu : db.updateBalance t w row (-invoice.total_cents) = some db') :
    Loc t db' (.post id invoice w false false) := by
  obtain ⟨hc, hcopy, -⟩ := hL
  obtain ⟨hd, hinv, hled⟩ := debited_of_updateBalance hc hrow horg hle hu
  refine ⟨hd, ?_, ?_, ?_⟩
  · rwa [Copy, hinv]
  · rw [hled]
    exact hc.ledger
  · rw [hinv]
    exact hc.invoices

/-- The flush of a charge without a debit. -/
theorem loc_of_settle {now : ℕ} (hL : Loc t db (.settle id invoice status))
    (hu : db.updateInvoice t id status now = some db') :
    Loc t db' (.settled id invoice status) := by
  obtain ⟨hc, hcopy, hrest⟩ := hL
  obtain ⟨hcom, hw, ho, hl⟩ := updateInvoice_frame hu
  refine ⟨hcopy.statusSet hc.invoices hu, ?_, ?_, ?_, ?_, hrest⟩
  · rwa [Copy, hcom]
  · exact hw ▸ hc.wallets
  · exact ho ▸ hc.walletOrg
  · exact hl ▸ hc.ledger

/-- The ledger `INSERT` of the flush of a charge with a debit. -/
theorem loc_of_postLedger {updated : Bool} (hL : Loc t db (.post id invoice w false updated))
    (hins : db.insertTransaction t (debitKey id) (debitRow id invoice w) = some (.ok db')) :
    Loc t db' (.post id invoice w true updated) := by
  obtain ⟨hd, hcopy, hl, hi⟩ := hL
  obtain ⟨hins', hinv, hw, ho⟩ := inserted_of_insertTransaction hl hins
  refine ⟨?_, ?_, hins', ?_⟩
  · rwa [Debited, hw, ho]
  · rwa [Copy, hinv]
  · rwa [StatusSet, hinv]

/-- Its invoice `UPDATE`. -/
theorem loc_of_postInvoice {inserted : Bool} {now : ℕ}
    (hL : Loc t db (.post id invoice w inserted false))
    (hu : db.updateInvoice t id .paid now = some db') :
    Loc t db' (.post id invoice w inserted true) := by
  obtain ⟨hd, hcopy, hl, hi⟩ := hL
  obtain ⟨hcom, hw, ho, hled⟩ := updateInvoice_frame hu
  refine ⟨?_, ?_, ?_, hcopy.statusSet hi hu⟩
  · rwa [Debited, hw, ho]
  · rwa [Copy, hcom]
  · rwa [Inserted, hled]

/-- Before its ledger `INSERT` a top-up has written no ledger row and no invoice. -/
theorem Loc.untouched_of_insertLedger (hL : Loc t db (.insertLedger call w)) :
    db.ledger.Untouched t ∧ db.invoices.Untouched t := by
  rcases hL.1 with ⟨hc, -⟩ | ⟨-, hl, hi⟩
  · exact ⟨hc.ledger, hc.invoices⟩
  · exact ⟨hl, hi⟩

/-- The `INSERT` of the ledger row of a top-up. -/
theorem loc_of_credit (hL : Loc t db (.insertLedger call w))
    (hins : db.insertTransaction t call.idempotency_key (topUpRow call w) = some (.ok db')) :
    Loc t db' (.addBalance call w) := by
  obtain ⟨hl, hi⟩ := hL.untouched_of_insertLedger
  obtain ⟨hwallet, hpos⟩ := hL
  obtain ⟨hins', hinv, hw, ho⟩ := inserted_of_insertTransaction hl hins
  refine ⟨?_, hins', hinv ▸ hi, hpos⟩
  rcases hwallet with ⟨hc, he⟩ | ⟨hc, -, -⟩
  · exact .inl ⟨hw ▸ hc.wallets, ho ▸ hc.walletOrg, by rwa [Existing, hw]⟩
  · exact .inr (by rwa [Created, hw, ho])

/-- The balance `UPDATE` of a top-up. -/
theorem loc_of_addBalance {row : CustomerWallet} (hL : Loc t db (.addBalance call w))
    (hrow : db.wallets.view t w = some row)
    (hu : db.updateBalance t w row call.amount_cents = some db') :
    Loc t db' (.topUpCommit call w) := by
  obtain ⟨hwallet, hins, hinv, hpos⟩ := hL
  obtain ⟨hcred, hinv', hled⟩ := credited_of_updateBalance hwallet hrow hu
  exact ⟨hcred, by rwa [Inserted, hled], hinv' ▸ hinv, hpos⟩

/-- **Local correctness.** Every step establishes the next assertion of its request. -/
theorem Step.loc {a : Act} {p p' : Proc} (h : Step t db a p db' p') (hI : WalletInv db)
    (hL : Loc t db p) : Loc t db' p' := by
  cases h with
  | issue hi =>
      have hc : db.Clean t := hL
      obtain ⟨-, -, -, -, invoices, -, rfl⟩ := issue_some hi
      exact ⟨Table.untouched_commit _ _, hc.wallets, hc.walletOrg, hc.ledger⟩
  | charge hrow =>
      have hc : db.Clean t := hL
      rw [hc.invoices.view] at hrow
      exact ⟨hc, _, hrow, rfl, rfl⟩
  | topUp hpos => exact ⟨hL, hpos⟩
  | abort | collided | close => exact Db.clean_rollback db t
  | settled | posted | credited => exact Db.clean_commit db t
  | notOpen => exact hL.1
  | free hzero => exact ⟨hL.1, hL.2, .inl ⟨rfl, hzero⟩⟩
  | uncovered hcost => exact ⟨hL.1, hL.2, .inr ⟨rfl, hcost⟩⟩
  | covered hcost => exact ⟨hL.1, hL.2, hcost⟩
  | debit hrow horg hle hu => exact loc_of_debit hL hrow horg hle hu
  | short =>
      obtain ⟨hc, hcopy, hcost⟩ := hL
      exact ⟨hc, hcopy, .inr ⟨rfl, hcost⟩⟩
  | settle hu => exact loc_of_settle hL hu
  | postLedger hins => exact loc_of_postLedger hL hins
  | postInvoice hu => exact loc_of_postInvoice hL hu
  | found hp hw =>
      rcases hp with rfl | rfl <;>
      · obtain ⟨hc, hpos⟩ := hL
        exact ⟨.inl ⟨hc, hI.existing_of_get_wallet hc hw⟩, hpos⟩
  | missing | lost => exact hL
  | create hins =>
      obtain ⟨hc, hpos⟩ := hL
      exact ⟨.inr (created_of_insertWallet hc hins), hpos⟩
  | overtaken | refused | reselect => exact ⟨Db.clean_rollback db t, hL.2⟩
  | credit hins => exact loc_of_credit hL hins
  | addBalance hrow hu => exact loc_of_addBalance hL hrow hu
  | recovered hp => rcases hp with rfl | rfl <;> exact hL.1
  | recreate => trivial

end Local

/-! ### The commits -/

section Commits

variable {id w : Uuid} {invoice : Invoice} {status : InvoiceStatus} {call : TopUp}

/-- A charge that has flushed both statements has a complete posting. -/
theorem Debited.posting (hd : Debited t db invoice w)
    (hl : Inserted t db (debitKey id) (debitRow id invoice w)) :
    ∃ row, Posting t db (debitKey id) (debitRow id invoice w) row := by
  obtain ⟨row, hrow, horg, hle, hsole, hidx⟩ := hd
  refine ⟨_, hl, hsole, horg, ?_, .inl ⟨row, hrow, rfl, rfl, hidx⟩⟩
  show 0 ≤ row.balance_cents + -invoice.total_cents
  omega

/-- A top-up that has updated the balance has a complete posting. -/
theorem WalletInv.posting (hI : WalletInv db) (hpos : 0 < call.amount_cents)
    (hc : Credited t db call w ∨ Created t db call w call.amount_cents)
    (hl : Inserted t db call.idempotency_key (topUpRow call w)) :
    ∃ row, Posting t db call.idempotency_key (topUpRow call w) row := by
  rcases hc with ⟨row, hrow, horg, hsole, hidx⟩ | ⟨hsole, hnone, hidx, hfree⟩
  · refine ⟨_, hl, hsole, horg, ?_, .inl ⟨row, hrow, rfl, rfl, hidx⟩⟩
    have := hI.balance_nonneg hrow
    show 0 ≤ row.balance_cents + call.amount_cents
    omega
  · exact ⟨_, hl, hsole, rfl, hpos.le, .inr ⟨hnone, rfl, hidx, hfree⟩⟩

/-- The invoice part of a request at its COMMIT: no invoice written, or the status of one
invoice rewritten. -/
def InvoiceWrite (t : T) (db : Db T) : Prop :=
  db.invoices.Untouched t ∨
    ∃ id invoice status, StatusSet t db id invoice status ∧ Copy db id invoice

/-- A commit keeps the totals of the invoices. -/
theorem InvoiceWrite.total_nonneg (hI : WalletInv db) (h : InvoiceWrite t db) {inv : Invoice}
    (hrow : (db.commit t).invoices.committed id = some inv) : 0 ≤ inv.total_cents := by
  rcases h with hun | ⟨id', invoice, status, ⟨row, hsole, -, htot, -⟩, row₀, hrow₀, -, htot₀⟩
  · have hcom : (db.commit t).invoices.committed = db.invoices.committed :=
      hun.committed_commit
    exact hI.total_nonneg (hcom ▸ hrow)
  · have hcom : (db.commit t).invoices.committed =
        Function.update db.invoices.committed id' (some row) := hsole.committed_commit
    rw [hcom] at hrow
    by_cases hid : id = id'
    · subst hid
      rw [Function.update_self, Option.some.injEq] at hrow
      subst hrow
      have := hI.total_nonneg hrow₀
      omega
    · rw [Function.update_of_ne hid] at hrow
      exact hI.total_nonneg hrow

/-- What a COMMIT publishes: an invoice status alone, or a posting with perhaps an invoice
status. -/
theorem Loc.publishes (hI : WalletInv db) {p : Proc} (hL : Loc t db p)
    (hp : p.committing = true) :
    InvoiceWrite t db ∧
      ((db.wallets.Untouched t ∧ db.walletOrg.Untouched t ∧ db.ledger.Untouched t) ∨
        ∃ k r row, Posting t db k r row) := by
  rcases Proc.committing_cases hp with ⟨id, invoice, status, rfl⟩ | ⟨id, invoice, w, rfl⟩ |
    ⟨call, w, rfl⟩
  · obtain ⟨hs, hcopy, hw, ho, hl, -⟩ := hL
    exact ⟨.inr ⟨id, invoice, status, hs, hcopy⟩, .inl ⟨hw, ho, hl⟩⟩
  · obtain ⟨hd, hcopy, hl, hi⟩ := hL
    obtain ⟨row, hpost⟩ := hd.posting hl
    exact ⟨.inr ⟨id, invoice, .paid, hi, hcopy⟩, .inr ⟨_, _, row, hpost⟩⟩
  · obtain ⟨hc, hl, hi, hpos⟩ := hL
    obtain ⟨row, hpost⟩ := hI.posting hpos hc hl
    exact ⟨.inl hi, .inr ⟨_, _, row, hpost⟩⟩

/-- **The commits keep the invariant.** -/
theorem Loc.commit (hI : WalletInv db) {p : Proc} (hL : Loc t db p)
    (hp : p.committing = true) : WalletInv (db.commit t) := by
  obtain ⟨hinv, ⟨hw, ho, hl⟩ | ⟨k, r, row, hpost⟩⟩ := hL.publishes hI hp
  · exact hI.commit_of_untouched hw ho hl fun h => hinv.total_nonneg hI h
  · exact hpost.commit hI fun h => hinv.total_nonneg hI h

/-- An invoice write keeps the organisation and the total. -/
theorem InvoiceWrite.written (h : InvoiceWrite t db) {v : Option Invoice}
    (hv : db.invoices.written t id = some v) :
    ∃ row old, v = some row ∧ db.invoices.committed id = some old ∧
      row.organization_id = old.organization_id ∧ row.total_cents = old.total_cents := by
  rcases h with hun | ⟨id', invoice, status, ⟨row, hsole, horg, htot, -⟩, hcopy⟩
  · exact absurd hv hun.not_written
  · obtain ⟨rfl, rfl⟩ := hsole.eq_of_written hv
    obtain ⟨old, hold, horg₀, htot₀⟩ := hcopy
    exact ⟨row, old, rfl, hold, horg.trans horg₀.symm, htot.trans htot₀.symm⟩

/-- A posting keeps the organisation of its wallet. -/
theorem Posting.wallet_written {k : String} {r : WalletTransaction} {row : CustomerWallet}
    (h : Posting t db k r row) {v : Option CustomerWallet}
    (hv : db.wallets.written t w = some v) :
    ∃ row, v = some row ∧ ∀ old, db.wallets.committed w = some old →
      row.organization_id = old.organization_id := by
  obtain ⟨rfl, rfl⟩ := h.wallet.eq_of_written hv
  refine ⟨row, rfl, fun old hold => ?_⟩
  rcases h.prior with ⟨old', hold', horg, -⟩ | ⟨hnone, -⟩
  · rw [hold', Option.some.injEq] at hold
    rw [← hold, horg]
  · rw [hnone] at hold
    cases hold

/-- A posting writes no index entry but that of a new wallet. -/
theorem Posting.walletOrg_written {k : String} {r : WalletTransaction} {row : CustomerWallet}
    (h : Posting t db k r row) {o : Uuid} {v : Option Uuid}
    (hv : db.walletOrg.written t o = some v) : db.walletOrg.committed o = none := by
  rcases h.prior with ⟨old', -, -, -, hun⟩ | ⟨-, -, hsole, hfree⟩
  · exact absurd hv hun.not_written
  · obtain ⟨rfl, -⟩ := hsole.eq_of_written hv
    exact hfree

/-- A posting writes no ledger row but its own. -/
theorem Posting.ledger_written {k k' : String} {r : WalletTransaction} {row : CustomerWallet}
    (h : Posting t db k r row) {v : Option WalletTransaction}
    (hv : db.ledger.written t k' = some v) : db.ledger.committed k' = none := by
  obtain ⟨rfl, -⟩ := h.ledger.1.eq_of_written hv
  exact h.ledger.2

/-- What a request has written when it commits rewrites no organisation, no total, no
ledger row and no index entry. -/
theorem Loc.appending (hI : WalletInv db) {p : Proc} (hL : Loc t db p)
    (hp : p.committing = true) : Appending t db := by
  obtain ⟨hinv, ⟨hw, ho, hl⟩ | ⟨k, r, row, hpost⟩⟩ := hL.publishes hI hp
  · refine ⟨hinv.written, fun {w v} hv => ?_, fun {o v} hv => ?_, fun {k v} hv => ?_⟩
    · exact absurd hv hw.not_written
    · exact absurd hv ho.not_written
    · exact absurd hv hl.not_written
  · exact ⟨hinv.written, hpost.wallet_written, hpost.walletOrg_written, hpost.ledger_written⟩

end Commits

/-! ### Every run -/

/-- Statements that are not commits keep the committed rows, hence the invariant. -/
theorem WalletInv.of_private (hI : WalletInv db) (h : Db.Private t db db') :
    WalletInv db' := by
  have htot : ∀ w, db'.ledger.total (postedTo w) = db.ledger.total (postedTo w) :=
    fun w => Table.total_congr _ h.ledger.committed
  refine ⟨⟨?_, ?_, ?_, ?_⟩, ?_, ?_⟩
  · rw [h.wallets.committed]
    exact hI.one_wallet
  · intro w row hrow
    rw [htot, hI.balance (h.wallets.committed ▸ hrow)]
  · rw [h.wallets.committed]
    exact hI.balance_nonneg
  · rw [h.ledger.committed, h.wallets.committed]
    exact hI.owner
  · rw [h.walletOrg.committed, h.wallets.committed]
    exact hI.index
  · rw [h.invoices.committed]
    exact hI.total_nonneg

/-- A new invoice with a total that is not negative keeps the invariant. -/
theorem WalletInv.of_issue {id : Uuid} {invoice : Invoice} {p : Proc} (hI : WalletInv db)
    (hc : db.invoices.Untouched t) (h : issue t id invoice db = some (db', p)) :
    WalletInv db' := by
  obtain ⟨-, hcom⟩ := issue_committed hc h
  obtain ⟨-, htot, -, -, invoices, hput, rfl⟩ := issue_some h
  refine ⟨⟨hI.one_wallet, hI.balance, hI.balance_nonneg, hI.owner⟩, hI.index, ?_⟩
  intro id' row hrow
  rw [hcom] at hrow
  by_cases hid : id' = id
  · subst hid
    rw [Function.update_self, Option.some.injEq] at hrow
    exact hrow ▸ htot
  · rw [Function.update_of_ne hid] at hrow
    exact hI.total_nonneg hrow

/-- **Every action keeps the invariant.** -/
theorem WalletInv.of_exec {a : Act} {p p' : Proc} (hI : WalletInv db) (hL : Loc t db p)
    (h : exec t a db p = some (db', p')) : WalletInv db' := by
  rcases exec_cases h with hpriv | ⟨-, hp, rfl⟩ | ⟨id, invoice, -, rfl, -, hi⟩
  · exact hI.of_private hpriv
  · exact hL.commit hI hp
  · exact hI.of_issue (Db.Clean.invoices hL) hi

/-- Every action of a request leaves the others undisturbed. -/
theorem undisturbed_of_exec {a : Act} {p p' : Proc} (hI : WalletInv db) (hL : Loc t db p)
    (h : exec t a db p = some (db', p')) (hu : u ≠ t) : Undisturbed u db db' := by
  rcases exec_cases h with hpriv | ⟨-, hp, rfl⟩ | ⟨id, invoice, rfl, rfl, rfl, hi⟩
  · exact undisturbed_of_private hpriv hu
  · exact undisturbed_of_commit (hL.appending hI hp) hu
  · exact undisturbed_of_issue (Db.Clean.invoices hL) hi hu

/-- The proof outline of the wallet endpoints, for any condition on the schedules. -/
theorem outline (ok : Config T (Db T) Proc → T → Act → Prop) :
    program.Outline ok WalletInv Loc where
  step _ hI hL h := ⟨hI.of_exec (hL _) h, (step_of_exec h).loc hI (hL _)⟩
  frame hu _ hI hL h := (undisturbed_of_exec hI (hL _) h hu).loc (hL _)

omit [DecidableEq T] in
/-- The empty database satisfies the invariant. -/
theorem walletInv_empty : WalletInv (Db.empty : Db T) := by
  refine ⟨⟨?_, ?_, ?_, ?_⟩, ?_, ?_⟩ <;> simp [Db.empty]

/-- **The invariant and the assertions of all requests hold along every run.** -/
theorem walletInv_of_run {ok : Config T (Db T) Proc → T → Act → Prop}
    {c : Config T (Db T) Proc} (h : program.Run ok init c) :
    WalletInv c.shared ∧ ∀ u, Loc u c.shared (c.proc u) :=
  (outline ok).run h walletInv_empty fun u =>
    ⟨Table.untouched_empty u, Table.untouched_empty u, Table.untouched_empty u,
      Table.untouched_empty u⟩

/-- **The books balance in every reachable state.** -/
theorem books_of_run {c : Config T (Db T) Proc} (h : program.Run Any init c) :
    Books c.shared :=
  (walletInv_of_run h).1.toBooks

/-- A top-up of 80 by one request, interleaved with the charge of an invoice over 50 by
another and followed by a request that fails. -/
def interleavedCharge : List (Fin 3 × Act) :=
  let org := Uuid.ofNat 100
  let id := Uuid.ofNat 200
  let env : Env := ⟨7, Uuid.ofNat 300, true⟩
  [(0, .issue id ⟨org, .open_, 50, none⟩), (0, .topUp ⟨org, 80, "first", "usd"⟩)] ++
    List.replicate 5 (0, .stmt env) ++ [(1, .charge id), (2, .topUp ⟨org, 5, "second", "usd"⟩)] ++
    [(1, .stmt env), (2, .stmt env), (1, .stmt env), (2, .stmt env), (1, .stmt env)] ++
    [(1, .stmt env), (2, .fail), (1, .stmt env)]

set_option maxRecDepth 10000 in
/-- A charge between the two statements of a top-up: both are on the balance in the end. -/
theorem books_of_run_interleavedCharge :
    ∃ c : Config (Fin 3) (Db (Fin 3)) Proc, program.Run Any init c ∧
      (∃ row, c.shared.wallets.committed (Uuid.ofNat 300) = some row ∧
        row.balance_cents = 30) ∧ Books c.shared := by
  have hreplay : (program.replay Any init interleavedCharge).any (fun c =>
      (c.shared.wallets.committed (Uuid.ofNat 300)).any fun row => row.balance_cents = 30) =
        true := by
    decide
  obtain ⟨c, hrun, hp⟩ := Program.exists_run_of_replay hreplay
  obtain ⟨row, hrow, hb⟩ := (Option.any_eq_true _ _).mp hp
  exact ⟨c, hrun, ⟨row, hrow, of_decide_eq_true hb⟩, books_of_run hrun⟩

end BackendManager.Metering
