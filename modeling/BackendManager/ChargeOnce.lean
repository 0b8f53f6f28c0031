import BackendManager.WalletBalance

/-!
# Charging an Invoice Once

`charge_invoice` promises to debit an invoice once and to record the outcome in its
status. The debit is guarded by the ledger key `invoice:<id>`; the status is written
unconditionally, from a copy of the row that another charge may have overtaken. This
module separates what the guard achieves from what the unconditional write spoils.

A charge that finds the balance too small writes `uncollectible`. If another charge has
debited the invoice in the meantime, `paid` is overwritten, and the ledger and the status
disagree from then on. That is the only way: as long as no such write is committed, paid
invoices and debits correspond exactly.

## Main results

* `chargedOnce_iff`: in a run without such a commit an invoice has at most one debit, of
  exactly its total, and is paid exactly when it has been debited; and the next step
  keeps this so exactly when it is not such a commit.
* `debited_and_uncollectible`: a schedule of two charges and one top-up that ends with a
  debited invoice recorded as uncollectible.
-/

namespace BackendManager.Metering

open ReadCommitted Interleaving

variable {T : Type} [DecidableEq T] {t u : T} {db db' : Db T}

/-- Debits and invoice states agree, as a reader of the committed rows sees them. -/
structure ChargedOnce (db : Db T) : Prop where
  /-- An invoice has at most one debit. -/
  one_debit : ∀ {id k k' r r'}, db.ledger.committed k = some r →
    db.ledger.committed k' = some r' → r.invoice_id = some id → r'.invoice_id = some id →
    k = k'
  /-- A debit is the total of its invoice. -/
  debit_total : ∀ {id k r}, db.ledger.committed k = some r → r.invoice_id = some id →
    ∃ row, db.invoices.committed id = some row ∧ r.delta_cents = -row.total_cents
  /-- An invoice that costs something is paid exactly when it has been debited. -/
  paid_iff : ∀ {id row}, db.invoices.committed id = some row → 0 < row.total_cents →
    (row.status = .paid ↔ ∃ k r, db.ledger.committed k = some r ∧ r.invoice_id = some id)

/-- The committed ledger holds the debit of invoice `id`. -/
def Db.debited (db : Db T) (id : Uuid) : Bool :=
  (db.ledger.committed (debitKey id)).any fun r => r.invoice_id = some id

/-- No charge commits `uncollectible` for an invoice that has been debited: the condition
on the state before each step. -/
def NoLateWriteOff (c : Config T (Db T) Proc) (t : T) (a : Act) : Prop :=
  match a, c.proc t with
  | .stmt _, .settled id _ .uncollectible => c.shared.debited id = false
  | _, _ => True

instance (c : Config T (Db T) Proc) (t : T) (a : Act) : Decidable (NoLateWriteOff c t a) := by
  unfold NoLateWriteOff
  split <;> infer_instance

/-- The inductive invariant: debits sit under their key and belong to paid invoices, and
paid invoices that cost something have a debit. -/
structure ChargeInv (db : Db T) : Prop where
  /-- The key guards against a second debit. -/
  at_key : ∀ {id k r}, db.ledger.committed k = some r → r.invoice_id = some id →
    k = debitKey id
  /-- A debited invoice is paid. -/
  paid_of_debit : ∀ {id k r}, db.ledger.committed k = some r → r.invoice_id = some id →
    ∃ row, db.invoices.committed id = some row ∧ row.status = .paid ∧
      r.delta_cents = -row.total_cents
  /-- A paid invoice is debited. -/
  debit_of_paid : ∀ {id row}, db.invoices.committed id = some row → row.status = .paid →
    0 < row.total_cents → ∃ k r, db.ledger.committed k = some r ∧ r.invoice_id = some id

omit [DecidableEq T] in
/-- The invariant says that the charges are in order. -/
theorem ChargeInv.chargedOnce (h : ChargeInv db) : ChargedOnce db where
  one_debit hr hr' hid hid' := (h.at_key hr hid).trans (h.at_key hr' hid').symm
  debit_total hr hid := by
    obtain ⟨row, hrow, -, hdelta⟩ := h.paid_of_debit hr hid
    exact ⟨row, hrow, hdelta⟩
  paid_iff {id row} hrow hpos := by
    refine ⟨fun hpaid => h.debit_of_paid hrow hpaid hpos, ?_⟩
    rintro ⟨k, r, hr, hid⟩
    obtain ⟨row', hrow', hpaid, -⟩ := h.paid_of_debit hr hid
    obtain rfl : row' = row := Option.some.inj (hrow'.symm.trans hrow)
    exact hpaid

omit [DecidableEq T] in
/-- Under the invariant the test at the key decides whether there is a debit. -/
theorem ChargeInv.debited_iff (h : ChargeInv db) {id : Uuid} :
    db.debited id = true ↔ ∃ k r, db.ledger.committed k = some r ∧ r.invoice_id = some id := by
  simp only [Db.debited, Option.any_eq_true, decide_eq_true_eq]
  constructor
  · rintro ⟨r, hr, hid⟩
    exact ⟨_, r, hr, hid⟩
  · rintro ⟨k, r, hr, hid⟩
    exact ⟨r, h.at_key hr hid ▸ hr, hid⟩

/-! ### The commits -/

section Commits

variable {id w : Uuid} {invoice : Invoice} {status : InvoiceStatus}

/-- The invoices after a commit that rewrites the status of `id`: the new row of `id`, and
the old row of any other invoice. -/
theorem StatusSet.committed_commit (hs : StatusSet t db id invoice status) :
    ∃ row, (db.commit t).invoices.committed =
        Function.update db.invoices.committed id (some row) ∧
      row.total_cents = invoice.total_cents ∧ row.status = status := by
  obtain ⟨row, hsole, -, htot, hstatus⟩ := hs
  exact ⟨row, hsole.committed_commit, htot, hstatus⟩

/-- A commit of a status without a debit keeps the invariant, unless it writes off an
invoice that has been debited. -/
theorem ChargeInv.commit_settled (hC : ChargeInv db) (hs : StatusSet t db id invoice status)
    (hcopy : Copy db id invoice) (hl : db.ledger.Untouched t) (ho : Outcome invoice status)
    (hok : status = .uncollectible → db.debited id = false) : ChargeInv (db.commit t) := by
  obtain ⟨row, hcom, htot, hstatus⟩ := hs.committed_commit
  have hlc : (db.commit t).ledger.committed = db.ledger.committed := hl.committed_commit
  obtain ⟨old, hold, -, htot_old⟩ := hcopy
  refine ⟨?_, ?_, ?_⟩
  · rw [hlc]
    exact hC.at_key
  · intro id' k r hr hid
    rw [hlc] at hr
    obtain ⟨row', hrow', hpaid, hdelta⟩ := hC.paid_of_debit hr hid
    by_cases hne : id' = id
    · subst hne
      obtain rfl : old = row' := Option.some.inj (hold.symm.trans hrow')
      refine ⟨row, by rw [hcom, Function.update_self], ?_, by omega⟩
      rcases ho with ⟨hpaid', -⟩ | ⟨hun, -⟩
      · rw [hstatus, hpaid']
      · -- the excluded write
        have hdeb : db.debited id' = true := hC.debited_iff.mpr ⟨k, r, hr, hid⟩
        rw [hok hun] at hdeb
        cases hdeb
    · exact ⟨row', by rw [hcom, Function.update_of_ne hne, hrow'], hpaid, hdelta⟩
  · intro id' row' hrow' hpaid hpos
    rw [hlc]
    rw [hcom] at hrow'
    by_cases hne : id' = id
    · subst hne
      rw [Function.update_self, Option.some.injEq] at hrow'
      subst hrow'
      rcases ho with ⟨-, hzero⟩ | ⟨hun, -⟩
      · omega
      · rw [hstatus, hun] at hpaid
        cases hpaid
    · rw [Function.update_of_ne hne] at hrow'
      exact hC.debit_of_paid hrow' hpaid hpos

/-- A commit of a debit keeps the invariant: the ledger row and `paid` appear together. -/
theorem ChargeInv.commit_post (hC : ChargeInv db) (hs : StatusSet t db id invoice .paid)
    (hl : Inserted t db (debitKey id) (debitRow id invoice w)) :
    ChargeInv (db.commit t) := by
  obtain ⟨row, hcom, htot, hstatus⟩ := hs.committed_commit
  refine ⟨?_, ?_, ?_⟩
  · intro id' k r hr hid
    rcases hl.commit_cases hr with ⟨rfl, rfl⟩ | hold
    · have hid' : id = id' := Option.some.inj hid
      rw [hid']
    · exact hC.at_key hold hid
  · intro id' k r hr hid
    rcases hl.commit_cases hr with ⟨rfl, rfl⟩ | hold
    · obtain rfl : id = id' := Option.some.inj hid
      refine ⟨row, by rw [hcom, Function.update_self], hstatus, ?_⟩
      rw [htot]
      rfl
    · have hne : id' ≠ id := by
        rintro rfl
        rw [hC.at_key hold hid, hl.2] at hold
        cases hold
      obtain ⟨row', hrow', hpaid, hdelta⟩ := hC.paid_of_debit hold hid
      exact ⟨row', by rw [hcom, Function.update_of_ne hne, hrow'], hpaid, hdelta⟩
  · intro id' row' hrow' hpaid hpos
    by_cases hne : id' = id
    · subst hne
      exact ⟨debitKey id', debitRow id' invoice w, hl.self_commit, rfl⟩
    · rw [hcom, Function.update_of_ne hne] at hrow'
      obtain ⟨k, r, hr, hid⟩ := hC.debit_of_paid hrow' hpaid hpos
      exact ⟨k, r, hl.old_commit hr, hid⟩

/-- A commit of a top-up keeps the invariant: its ledger row is no debit. -/
theorem ChargeInv.commit_topUp {call : TopUp} (hC : ChargeInv db)
    (hi : db.invoices.Untouched t)
    (hl : Inserted t db call.idempotency_key (topUpRow call w)) :
    ChargeInv (db.commit t) := by
  have hic : (db.commit t).invoices.committed = db.invoices.committed := hi.committed_commit
  have hold : ∀ {k r id}, (db.commit t).ledger.committed k = some r →
      r.invoice_id = some id → db.ledger.committed k = some r := by
    intro k r id hr hid
    rcases hl.commit_cases hr with ⟨-, rfl⟩ | hold
    · cases hid
    · exact hold
  refine ⟨fun hr hid => hC.at_key (hold hr hid) hid, ?_, ?_⟩
  · intro id k r hr hid
    rw [hic]
    exact hC.paid_of_debit (hold hr hid) hid
  · intro id row hrow hpaid hpos
    rw [hic] at hrow
    obtain ⟨k, r, hr, hid⟩ := hC.debit_of_paid hrow hpaid hpos
    exact ⟨k, r, hl.old_commit hr, hid⟩

/-- A commit that writes off a debited invoice breaks the agreement. -/
theorem ChargeInv.not_chargedOnce (hC : ChargeInv db) (hI : WalletInv db)
    (hs : StatusSet t db id invoice .uncollectible) (hcopy : Copy db id invoice)
    (hl : db.ledger.Untouched t) (ho : Outcome invoice .uncollectible)
    (hdeb : db.debited id = true) : ¬ ChargedOnce (db.commit t) := by
  intro h
  obtain ⟨row, hcom, htot, hstatus⟩ := hs.committed_commit
  have hlc : (db.commit t).ledger.committed = db.ledger.committed := hl.committed_commit
  obtain ⟨old, hold, -, htot_old⟩ := hcopy
  obtain ⟨k, r, hr, hid⟩ := hC.debited_iff.mp hdeb
  have hpos : 0 < row.total_cents := by
    have hnonneg := hI.total_nonneg hold
    rcases ho with ⟨hpaid, -⟩ | ⟨-, hne⟩
    · cases hpaid
    · omega
  have hrow : (db.commit t).invoices.committed id = some row := by
    rw [hcom, Function.update_self]
  have hpaid := (h.paid_iff hrow hpos).mpr ⟨k, r, by rw [hlc, hr], hid⟩
  rw [hstatus] at hpaid
  cases hpaid

end Commits

/-! ### Every run -/

omit [DecidableEq T] in
/-- The invariant holds of the empty tables. -/
theorem chargeInv_empty : ChargeInv (Db.empty : Db T) := by
  refine ⟨?_, ?_, ?_⟩ <;> simp [Db.empty]

/-- Statements that are not commits keep the committed rows, hence the invariant. -/
theorem ChargeInv.of_private (hC : ChargeInv db) (h : Db.Private t db db') :
    ChargeInv db' := by
  refine ⟨?_, ?_, ?_⟩
  · rw [h.ledger.committed]
    exact hC.at_key
  · rw [h.ledger.committed, h.invoices.committed]
    exact hC.paid_of_debit
  · rw [h.ledger.committed, h.invoices.committed]
    exact hC.debit_of_paid

/-- A new invoice is open and has not been debited. -/
theorem ChargeInv.of_issue (hC : ChargeInv db) {id : Uuid} {invoice : Invoice} {p : Proc}
    (hc : db.invoices.Untouched t) (h : issue t id invoice db = some (db', p)) :
    ChargeInv db' := by
  obtain ⟨hnone, hcom⟩ := issue_committed hc h
  obtain ⟨hopen, -, -, -, invoices, hput, rfl⟩ := issue_some h
  refine ⟨hC.at_key, ?_, ?_⟩
  · intro id' k r hr hid
    obtain ⟨row, hrow, hrest⟩ := hC.paid_of_debit hr hid
    have hne : id' ≠ id := by
      rintro rfl
      rw [hnone] at hrow
      cases hrow
    exact ⟨row, by rw [hcom, Function.update_of_ne hne, hrow], hrest⟩
  · intro id' row hrow hpaid hpos
    rw [hcom] at hrow
    by_cases hne : id' = id
    · rw [hne, Function.update_self, Option.some.injEq] at hrow
      rw [← hrow, hopen] at hpaid
      cases hpaid
    · rw [Function.update_of_ne hne] at hrow
      exact hC.debit_of_paid hrow hpaid hpos

/-- **One step.** Every admitted action keeps the invariant. -/
theorem ChargeInv.exec {c : Config T (Db T) Proc} {a : Act} {p' : Proc}
    (hC : ChargeInv c.shared) (hL : Loc t c.shared (c.proc t)) (hok : NoLateWriteOff c t a)
    (h : exec t a c.shared (c.proc t) = some (db', p')) : ChargeInv db' := by
  rcases exec_cases h with hpriv | ⟨⟨env, rfl⟩, hp, rfl⟩ | ⟨id, invoice, rfl, hp, rfl, hi⟩
  · exact hC.of_private hpriv
  · rcases Proc.committing_cases hp with ⟨id, invoice, status, hproc⟩ |
      ⟨id, invoice, w, hproc⟩ | ⟨call, w, hproc⟩ <;> rw [hproc] at hL
    · obtain ⟨hs, hcopy, -, -, hl, ho⟩ := hL
      refine hC.commit_settled hs hcopy hl ho fun hun => ?_
      subst hun
      simpa only [NoLateWriteOff, hproc] using hok
    · obtain ⟨-, -, hl, hs⟩ := hL
      exact hC.commit_post hs hl
    · obtain ⟨-, hl, hi, -⟩ := hL
      exact hC.commit_topUp hi hl
  · rw [hp] at hL
    exact hC.of_issue (Db.Clean.invoices hL) hi

/-- The invariant holds along every run without a late write-off. -/
theorem chargeInv_of_run {c : Config T (Db T) Proc} (h : program.Run NoLateWriteOff init c) :
    ChargeInv c.shared := by
  induction h with
  | refl => exact chargeInv_empty
  | step hrun hok hstep ih =>
      obtain ⟨g, l, hexec, rfl⟩ := Program.step_eq_some_iff.mp hstep
      exact ih.exec ((walletInv_of_run hrun).2 _) hok hexec

/-- **Charging once.** In every run without a late write-off an invoice has at most one
debit, of exactly its total, and one that costs something is paid exactly when it has been
debited. The next step of such a run keeps this if and only if it is no late write-off. -/
theorem chargedOnce_iff {c : Config T (Db T) Proc} (h : program.Run NoLateWriteOff init c) :
    ChargedOnce c.shared ∧ ∀ t a d, program.step c t a = some d →
      (ChargedOnce d.shared ↔ NoLateWriteOff c t a) := by
  have hC := chargeInv_of_run h
  obtain ⟨hI, hL⟩ := walletInv_of_run h
  refine ⟨hC.chargedOnce, fun t a d hstep => ⟨fun hd => ?_, fun hok => ?_⟩⟩
  · unfold NoLateWriteOff
    split
    · rename_i env id invoice hproc
      have hLt := hL t
      rw [hproc] at hLt
      obtain ⟨hs, hcopy, -, -, hl, ho⟩ := hLt
      obtain ⟨g, l, hexec, rfl⟩ := Program.step_eq_some_iff.mp hstep
      rw [hproc] at hexec
      obtain ⟨rfl, -⟩ := Prod.mk.inj (Option.some.inj hexec)
      by_contra hdeb
      exact hC.not_chargedOnce hI hs hcopy hl ho (by simpa using hdeb) hd
    · trivial
  · exact (chargeInv_of_run (h.step hok hstep)).chargedOnce

/-- The beginning of a race: an invoice over 50, a wallet with 50, and two charges that
have both loaded the open invoice; the first one debits the wallet. -/
def raceForDebit (t u v : T) : List (T × Act) :=
  let org := Uuid.ofNat 100
  let id := Uuid.ofNat 200
  let env : Env := ⟨7, Uuid.ofNat 300, true⟩
  [(t, .issue id ⟨org, .open_, 50, none⟩), (t, .topUp ⟨org, 50, "first", "usd"⟩)] ++
    List.replicate 5 (t, .stmt env) ++ [(u, .charge id), (v, .charge id)] ++
    List.replicate 5 (u, .stmt env)

/-- A debited invoice that is recorded as uncollectible. -/
def Db.writtenOff (db : Db T) (id : Uuid) : Bool :=
  db.debited id && (db.invoices.committed id).any fun row =>
    row.status = .uncollectible ∧ 0 < row.total_cents

set_option maxRecDepth 10000 in
/-- Two charges of one invoice race for its ledger key: it is debited once. -/
theorem chargedOnce_iff_raceForDebit :
    ∃ c : Config (Fin 3) (Db (Fin 3)) Proc, program.Run NoLateWriteOff init c ∧
      c.shared.debited (Uuid.ofNat 200) = true ∧ ChargedOnce c.shared := by
  have hreplay : (program.replay NoLateWriteOff init (raceForDebit (0 : Fin 3) 1 2)).any
      (fun c => c.shared.debited (Uuid.ofNat 200)) = true := by
    decide
  obtain ⟨c, hrun, hp⟩ := Program.exists_run_of_replay hreplay
  exact ⟨c, hrun, hp, (chargedOnce_iff hrun).1⟩

set_option maxRecDepth 10000 in
/-- The second charge finds the wallet empty and overwrites `paid`. -/
theorem debited_and_uncollectible :
    ∃ c : Config (Fin 3) (Db (Fin 3)) Proc,
      program.Run Any init c ∧ ¬ ChargedOnce c.shared := by
  have hreplay : (program.replay Any init (raceForDebit (0 : Fin 3) 1 2 ++
      List.replicate 3 (2, .stmt ⟨8, Uuid.ofNat 301, true⟩))).any
      (fun c => c.shared.writtenOff (Uuid.ofNat 200)) = true := by
    decide
  obtain ⟨c, hrun, hp⟩ := Program.exists_run_of_replay hreplay
  refine ⟨c, hrun, fun h => ?_⟩
  simp only [Db.writtenOff, Db.debited, Bool.and_eq_true, Option.any_eq_true,
    decide_eq_true_eq] at hp
  obtain ⟨⟨r, hr, hid⟩, row, hrow, hstatus, hpos⟩ := hp
  have hpaid := (h.paid_iff hrow hpos).mpr ⟨_, r, hr, hid⟩
  rw [hstatus] at hpaid
  cases hpaid

end BackendManager.Metering
