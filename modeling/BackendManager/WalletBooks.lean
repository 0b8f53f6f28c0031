import BackendManager.WalletSteps

/-!
# The Wallet's Books

What holds of the committed rows of the wallet endpoints (`WalletInv`), and what a request
holds uncommitted at every point at which it can stand (`Loc`). At the three points before a
COMMIT the assertion amounts to a complete `Posting`: a ledger row together with the
matching balance.

The invariant has a part for each of the facts that later modules use: the balance of a wallet
is the sum of its ledger rows, a ledger row belongs to the wallet of its organisation, and the
index of wallets by organisation agrees with the wallets. Invoices are related to the ledger by
their debit key only. A COMMIT is the one action that can break any of these, and each of the
three committing points comes with the assertion that makes it keep them; all other statements
are `Private` to their request.

## Main results

* `Posting.commit`: committing a posting keeps the books.
* `WalletInv.commit_of_untouched`: so does a commit that writes invoices alone.
-/

namespace BackendManager.Metering

open ReadCommitted Interleaving

variable {T : Type} [DecidableEq T] {t u : T} {db db' : Db T}

/-- What the row contributes to the balance of wallet `w`. -/
def postedTo (w : Uuid) (r : WalletTransaction) : ℤ :=
  if r.wallet_id = w then r.delta_cents else 0

/-- The books as a reader of the committed rows sees them. -/
structure Books (db : Db T) : Prop where
  /-- Every organisation has at most one wallet. -/
  one_wallet : ∀ {w w' row row'}, db.wallets.committed w = some row →
    db.wallets.committed w' = some row' →
    row.organization_id = row'.organization_id → w = w'
  /-- The balance is the sum over the committed ledger. -/
  balance : ∀ {w row}, db.wallets.committed w = some row →
    row.balance_cents = db.ledger.total (postedTo w)
  /-- The balance is never negative. -/
  balance_nonneg : ∀ {w row}, db.wallets.committed w = some row → 0 ≤ row.balance_cents
  /-- A ledger row belongs to a wallet, and to that wallet's organisation. -/
  owner : ∀ {k r}, db.ledger.committed k = some r →
    ∃ row, db.wallets.committed r.wallet_id = some row ∧
      row.organization_id = r.organization_id

/-- The global invariant: the books, the unique index on organisations, and totals that
are not negative. -/
structure WalletInv (db : Db T) : Prop extends Books db where
  /-- The unique index lists exactly the wallets. -/
  index : ∀ {o w}, db.walletOrg.committed o = some w ↔
    ∃ row, db.wallets.committed w = some row ∧ row.organization_id = o
  /-- Totals are not negative. -/
  total_nonneg : ∀ {id row}, db.invoices.committed id = some row → 0 ≤ row.total_cents

/-- The caller's copy agrees with the stored invoice on the fields nobody rewrites. -/
def Copy (db : Db T) (id : Uuid) (invoice : Invoice) : Prop :=
  ∃ row, db.invoices.committed id = some row ∧
    row.organization_id = invoice.organization_id ∧ row.total_cents = invoice.total_cents

/-- `t` has rewritten the status of invoice `id`, and nothing else in `invoices`. -/
def StatusSet (t : T) (db : Db T) (id : Uuid) (invoice : Invoice) (status : InvoiceStatus) :
    Prop :=
  ∃ row, db.invoices.Sole t id (some row) ∧ row.organization_id = invoice.organization_id ∧
    row.total_cents = invoice.total_cents ∧ row.status = status

/-- `t` has subtracted the total from wallet `w`, and written nothing else in the two
wallet tables. -/
def Debited (t : T) (db : Db T) (invoice : Invoice) (w : Uuid) : Prop :=
  ∃ row, db.wallets.committed w = some row ∧
    row.organization_id = invoice.organization_id ∧
    invoice.total_cents ≤ row.balance_cents ∧
    db.wallets.Sole t w
      (some { row with balance_cents := row.balance_cents + -invoice.total_cents }) ∧
    db.walletOrg.Untouched t

/-- `t` has created wallet `w` for the organisation of `call`, with balance `b`. -/
def Created (t : T) (db : Db T) (call : TopUp) (w : Uuid) (b : ℤ) : Prop :=
  db.wallets.Sole t w (some ⟨call.organization_id, b, call.currency⟩) ∧
    db.wallets.committed w = none ∧ db.walletOrg.Sole t call.organization_id (some w) ∧
    db.walletOrg.committed call.organization_id = none

/-- Wallet `w` of the organisation of `call` is committed. -/
def Existing (db : Db T) (call : TopUp) (w : Uuid) : Prop :=
  ∃ row, db.wallets.committed w = some row ∧ row.organization_id = call.organization_id

/-- `t` has added the amount of `call` to the committed wallet `w`. -/
def Credited (t : T) (db : Db T) (call : TopUp) (w : Uuid) : Prop :=
  ∃ row, db.wallets.committed w = some row ∧
    row.organization_id = call.organization_id ∧
    db.wallets.Sole t w
      (some { row with balance_cents := row.balance_cents + call.amount_cents }) ∧
    db.walletOrg.Untouched t

/-- `t` has inserted one ledger row under an unused key, and nothing else there. -/
def Inserted (t : T) (db : Db T) (k : String) (r : WalletTransaction) : Prop :=
  db.ledger.Sole t k (some r) ∧ db.ledger.committed k = none

/-- The status that a charge decides on without a debit: paid if there is nothing to pay,
else uncollectible. -/
def Outcome (invoice : Invoice) (status : InvoiceStatus) : Prop :=
  status = .paid ∧ invoice.total_cents = 0 ∨
    status = .uncollectible ∧ invoice.total_cents ≠ 0

/-- The assertion of a request: what it holds uncommitted where it stands. -/
def Loc (t : T) (db : Db T) : Proc → Prop
  | .idle | .chargeReturned _ | .chargeRaised _ | .topUpReturned _ | .raised => db.Clean t
  | .charging id invoice => db.Clean t ∧ Copy db id invoice
  | .debit id invoice _ => db.Clean t ∧ Copy db id invoice ∧ invoice.total_cents ≠ 0
  | .settle id invoice status =>
      db.Clean t ∧ Copy db id invoice ∧ Outcome invoice status
  | .settled id invoice status =>
      StatusSet t db id invoice status ∧ Copy db id invoice ∧ db.wallets.Untouched t ∧
        db.walletOrg.Untouched t ∧ db.ledger.Untouched t ∧ Outcome invoice status
  | .post id invoice w inserted updated =>
      Debited t db invoice w ∧ Copy db id invoice ∧
        (if inserted then Inserted t db (debitKey id) (debitRow id invoice w)
          else db.ledger.Untouched t) ∧
        (if updated then StatusSet t db id invoice .paid else db.invoices.Untouched t)
  | .topUp call | .createWallet call | .reloadWallet call | .recover call
  | .recreateWallet call | .reselectWallet call => db.Clean t ∧ 0 < call.amount_cents
  | .insertLedger call w =>
      (db.Clean t ∧ Existing db call w ∨
          Created t db call w 0 ∧ db.ledger.Untouched t ∧ db.invoices.Untouched t) ∧
        0 < call.amount_cents
  | .addBalance call w =>
      (db.wallets.Untouched t ∧ db.walletOrg.Untouched t ∧ Existing db call w ∨
          Created t db call w 0) ∧
        Inserted t db call.idempotency_key (topUpRow call w) ∧ db.invoices.Untouched t ∧
        0 < call.amount_cents
  | .topUpCommit call w =>
      (Credited t db call w ∨ Created t db call w call.amount_cents) ∧
        Inserted t db call.idempotency_key (topUpRow call w) ∧ db.invoices.Untouched t ∧
        0 < call.amount_cents
  | .closing _ => True

/-! ### Committing a posting -/

/-- A complete **posting** by `t`: one new ledger row together with the balance that it
leads to, in a committed wallet or in a wallet created by the same transaction. -/
structure Posting (t : T) (db : Db T) (k : String) (r : WalletTransaction)
    (row : CustomerWallet) : Prop where
  ledger : Inserted t db k r
  wallet : db.wallets.Sole t r.wallet_id (some row)
  owner : row.organization_id = r.organization_id
  nonneg : 0 ≤ row.balance_cents
  prior : (∃ old, db.wallets.committed r.wallet_id = some old ∧
        old.organization_id = row.organization_id ∧
        row.balance_cents = old.balance_cents + r.delta_cents ∧ db.walletOrg.Untouched t) ∨
      db.wallets.committed r.wallet_id = none ∧ row.balance_cents = r.delta_cents ∧
        db.walletOrg.Sole t r.organization_id (some r.wallet_id) ∧
        db.walletOrg.committed r.organization_id = none

section Commit

variable {k k' : String} {r r' : WalletTransaction} {row : CustomerWallet}

/-- The ledger after the commit of an inserted row: ... -/
theorem Inserted.ledger_commit (h : Inserted t db k r) :
    (db.commit t).ledger.committed = Function.update db.ledger.committed k (some r) :=
  h.1.committed_commit

/-- ... that row, ... -/
theorem Inserted.self_commit (h : Inserted t db k r) :
    (db.commit t).ledger.committed k = some r := by
  rw [h.ledger_commit, Function.update_self]

/-- ... the old rows, ... -/
theorem Inserted.old_commit (h : Inserted t db k r) (hr : db.ledger.committed k' = some r') :
    (db.commit t).ledger.committed k' = some r' := by
  have hne : k' ≠ k := by
    rintro rfl
    rw [h.2] at hr
    cases hr
  rw [h.ledger_commit, Function.update_of_ne hne, hr]

/-- ... and no others. -/
theorem Inserted.commit_cases (h : Inserted t db k r)
    (hr : (db.commit t).ledger.committed k' = some r') :
    k' = k ∧ r' = r ∨ db.ledger.committed k' = some r' := by
  rw [h.ledger_commit] at hr
  by_cases hk : k' = k
  · rw [hk, Function.update_self, Option.some.injEq] at hr
    exact .inl ⟨hk, hr.symm⟩
  · rw [Function.update_of_ne hk] at hr
    exact .inr hr

/-- The wallets after the commit of a posting. -/
theorem Posting.wallets_commit (h : Posting t db k r row) :
    (db.commit t).wallets.committed =
      Function.update db.wallets.committed r.wallet_id (some row) :=
  h.wallet.committed_commit

/-- The ledger after the commit of a posting. -/
theorem Posting.ledger_commit (h : Posting t db k r row) :
    (db.commit t).ledger.committed = Function.update db.ledger.committed k (some r) :=
  h.ledger.ledger_commit

/-- The sum for every wallet after the commit of a posting. -/
theorem Posting.total_commit (h : Posting t db k r row) (w : Uuid) :
    (db.commit t).ledger.total (postedTo w) = db.ledger.total (postedTo w) + postedTo w r :=
  h.ledger.1.total_commit (postedTo w) h.ledger.2

omit [DecidableEq T] in
/-- A wallet that does not exist has no ledger rows. -/
theorem WalletInv.total_eq_zero (hI : WalletInv db) {w : Uuid}
    (hw : db.wallets.committed w = none) : db.ledger.total (postedTo w) = 0 := by
  refine Table.total_eq_zero _ fun k r hr => ?_
  obtain ⟨row, hrow, -⟩ := hI.owner hr
  have hne : r.wallet_id ≠ w := by
    rintro rfl
    rw [hw] at hrow
    cases hrow
  rw [postedTo, if_neg hne]

/-- The posted wallet after the commit. -/
theorem Posting.wallet_commit (h : Posting t db k r row) :
    (db.commit t).wallets.committed r.wallet_id = some row := by
  rw [h.wallets_commit, Function.update_self]

/-- Every other wallet after the commit. -/
theorem Posting.wallet_commit_of_ne (h : Posting t db k r row) {w : Uuid}
    (hne : w ≠ r.wallet_id) :
    (db.commit t).wallets.committed w = db.wallets.committed w := by
  rw [h.wallets_commit, Function.update_of_ne hne]

/-- After the commit the unique index lists exactly the wallets. -/
theorem Posting.index_commit (hI : WalletInv db) (h : Posting t db k r row) {o w : Uuid} :
    (db.commit t).walletOrg.committed o = some w ↔
      ∃ row', (db.commit t).wallets.committed w = some row' ∧ row'.organization_id = o := by
  have hself := h.wallet_commit
  rcases h.prior with ⟨old, hold, horg, -, hun⟩ | ⟨hnone, -, hsole, hfree⟩
  · -- an existing wallet keeps its organisation
    have hidx : (db.commit t).walletOrg.committed o = db.walletOrg.committed o :=
      congrFun hun.committed_commit o
    rw [hidx, hI.index]
    by_cases hne : w = r.wallet_id
    · subst hne
      simp [hold, hself, horg]
    · rw [h.wallet_commit_of_ne hne]
  · have hidx : (db.commit t).walletOrg.committed =
        Function.update db.walletOrg.committed r.organization_id (some r.wallet_id) :=
      hsole.committed_commit
    by_cases ho : o = r.organization_id
    · subst ho
      rw [hidx, Function.update_self, Option.some.injEq]
      constructor
      · rintro rfl
        exact ⟨row, hself, h.owner⟩
      · rintro ⟨row', hrow', horg'⟩
        by_contra hne
        rw [h.wallet_commit_of_ne fun he => hne he.symm] at hrow'
        have hlisted := hI.index.mpr ⟨row', hrow', horg'⟩
        rw [hfree] at hlisted
        cases hlisted
    · rw [hidx, Function.update_of_ne ho, hI.index]
      by_cases hne : w = r.wallet_id
      · subst hne
        have horg : row.organization_id ≠ o := fun he => ho (he.symm.trans h.owner)
        simp [hnone, hself, horg]
      · rw [h.wallet_commit_of_ne hne]

/-- After the commit every balance is the sum of its ledger rows. -/
theorem Posting.balance_commit (hI : WalletInv db) (h : Posting t db k r row) {w : Uuid}
    {row' : CustomerWallet} (hrow' : (db.commit t).wallets.committed w = some row') :
    row'.balance_cents = (db.commit t).ledger.total (postedTo w) := by
  rw [h.total_commit]
  by_cases hne : w = r.wallet_id
  · subst hne
    obtain rfl : row = row' := Option.some.inj (h.wallet_commit.symm.trans hrow')
    rw [postedTo, if_pos rfl]
    rcases h.prior with ⟨old, hold, -, hb, -⟩ | ⟨hnone, hb, -, -⟩
    · rw [hb, hI.balance hold]
    · rw [hb, hI.total_eq_zero hnone, zero_add]
  · rw [h.wallet_commit_of_ne hne] at hrow'
    rw [postedTo, if_neg (Ne.symm hne), add_zero]
    exact hI.balance hrow'

/-- After the commit no balance is negative. -/
theorem Posting.balance_nonneg_commit (hI : WalletInv db) (h : Posting t db k r row) {w : Uuid}
    {row' : CustomerWallet} (hrow' : (db.commit t).wallets.committed w = some row') :
    0 ≤ row'.balance_cents := by
  by_cases hne : w = r.wallet_id
  · subst hne
    obtain rfl : row = row' := Option.some.inj (h.wallet_commit.symm.trans hrow')
    exact h.nonneg
  · rw [h.wallet_commit_of_ne hne] at hrow'
    exact hI.balance_nonneg hrow'

/-- A wallet keeps its organisation across the commit. -/
theorem Posting.organization_commit (h : Posting t db k r row) {w : Uuid}
    {old : CustomerWallet} (hold : db.wallets.committed w = some old) :
    ∃ row', (db.commit t).wallets.committed w = some row' ∧
      row'.organization_id = old.organization_id := by
  by_cases hne : w = r.wallet_id
  · subst hne
    rcases h.prior with ⟨old', hold', horg, -, -⟩ | ⟨hnone, -, -, -⟩
    · obtain rfl : old' = old := Option.some.inj (hold'.symm.trans hold)
      exact ⟨row, h.wallet_commit, horg.symm⟩
    · rw [hnone] at hold
      cases hold
  · exact ⟨old, by rw [h.wallet_commit_of_ne hne, hold], rfl⟩

/-- After the commit every ledger row carries the organisation of its wallet. -/
theorem Posting.owner_commit (hI : WalletInv db) (h : Posting t db k r row) {k' : String}
    {r' : WalletTransaction} (hr' : (db.commit t).ledger.committed k' = some r') :
    ∃ row', (db.commit t).wallets.committed r'.wallet_id = some row' ∧
      row'.organization_id = r'.organization_id := by
  rw [h.ledger_commit] at hr'
  by_cases hk : k' = k
  · rw [hk, Function.update_self, Option.some.injEq] at hr'
    subst hr'
    exact ⟨row, h.wallet_commit, h.owner⟩
  · rw [Function.update_of_ne hk] at hr'
    obtain ⟨old, hold, horg⟩ := hI.owner hr'
    obtain ⟨row', hrow', horg'⟩ := h.organization_commit hold
    exact ⟨row', hrow', horg'.trans horg⟩

/-- **Committing a posting keeps the books.** -/
theorem Posting.commit (hI : WalletInv db) (h : Posting t db k r row)
    (htotal : ∀ {id inv}, (db.commit t).invoices.committed id = some inv →
      0 ≤ inv.total_cents) : WalletInv (db.commit t) := by
  refine ⟨⟨?_, fun hrow' => h.balance_commit hI hrow',
    fun hrow' => h.balance_nonneg_commit hI hrow', fun hr' => h.owner_commit hI hr'⟩,
    h.index_commit hI, htotal⟩
  intro w w' row₁ row₂ h₁ h₂ horg
  have hi₁ := (h.index_commit hI).mpr ⟨row₁, h₁, horg⟩
  have hi₂ := (h.index_commit hI).mpr ⟨row₂, h₂, rfl⟩
  exact Option.some.inj (hi₁.symm.trans hi₂)

/-- A commit that writes invoices alone keeps the books. -/
theorem WalletInv.commit_of_untouched (hI : WalletInv db) (hw : db.wallets.Untouched t)
    (ho : db.walletOrg.Untouched t) (hl : db.ledger.Untouched t)
    (htotal : ∀ {id inv}, (db.commit t).invoices.committed id = some inv →
      0 ≤ inv.total_cents) : WalletInv (db.commit t) := by
  have hwc : (db.commit t).wallets.committed = db.wallets.committed := hw.committed_commit
  have hoc : (db.commit t).walletOrg.committed = db.walletOrg.committed := ho.committed_commit
  have hlc : (db.commit t).ledger.committed = db.ledger.committed := hl.committed_commit
  have htot : ∀ w, (db.commit t).ledger.total (postedTo w) = db.ledger.total (postedTo w) :=
    fun w => Table.total_congr _ hlc
  refine ⟨⟨?_, ?_, ?_, ?_⟩, ?_, htotal⟩
  · rw [hwc]
    exact hI.one_wallet
  · intro w row hrow
    rw [htot, hI.balance (hwc ▸ hrow)]
  · rw [hwc]
    exact hI.balance_nonneg
  · rw [hlc, hwc]
    exact hI.owner
  · rw [hwc, hoc]
    exact hI.index

end Commit

end BackendManager.Metering
