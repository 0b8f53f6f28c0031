import BackendManager.ChargeOnce

/-!
# Charging an Invoice Settles It

`charge_invoice` takes a collision at the ledger key `invoice:<id>` for a concurrent charge of
the same invoice: its handler rolls the debit back and means to return the invoice as it is
stored, but raises on the way. The keys of top-ups are in the same table, and they are chosen by
the client. A top-up under such a key makes every charge of the invoice collide: each of them
raises, and the invoice stays open.

Where no charge meets such a row, a collision does mean that the invoice has been debited. A
charge that has been carried out, whether it has returned or has raised after a collision,
leaves its invoice paid and debited, or uncollectible and not debited, as long as no late
write-off mixes the two (`NoLateWriteOff`). A charge that a failure has ended (`Act.fail`) has
been rolled back and says nothing.

## Main results

* `closed_of_exec`: an invoice that is not open never is again.
* `settled_iff`: in every run in which neither happens, every invoice whose charge has been
  carried out is settled; and the next step keeps this exactly when it is neither.
* `charged_and_open`: a schedule that ends with an open invoice whose charge has raised.
-/

namespace BackendManager.Metering

open ReadCommitted Interleaving

variable {T : Type} [DecidableEq T] {t u : T} {db db' : Db T} {id w : Uuid} {p p' : Proc}
  {a : Act} {c d : Config T (Db T) Proc}

/-- The invoice is paid and debited with its total, if that is not zero, or it is uncollectible
and not debited. -/
def Db.settles (db : Db T) (id : Uuid) : Prop :=
  ∃ row, db.invoices.committed id = some row ∧
    (row.status = .paid ∧ (0 < row.total_cents → ∃ k r, db.ledger.committed k = some r ∧
        r.invoice_id = some id ∧ r.delta_cents = -row.total_cents) ∨
      row.status = .uncollectible ∧
        ∀ k r, db.ledger.committed k = some r → r.invoice_id ≠ some id)

/-- The charge of the invoice has been carried out: it has returned, or it has raised after a
collision. -/
def Proc.charged : Proc → Option Uuid
  | .chargeReturned id | .chargeRaised id => some id
  | _ => none

/-- Every invoice whose charge has been carried out is settled. -/
def Settled (c : Config T (Db T) Proc) : Prop :=
  ∀ t id, (c.proc t).charged = some id → c.shared.settles id

/-- The invoice whose debit the next statement inserts into the ledger. -/
def Proc.inserting (env : Env) : Proc → Option Uuid
  | .post id _ _ false true => some id
  | .post id _ _ false false => if env.invoiceFirst then none else some id
  | _ => none

/-- The key of the debit belongs to another row, and the invoice is open. -/
def Db.keyTaken (db : Db T) (id : Uuid) : Bool :=
  ((db.ledger.committed (debitKey id)).any fun r => r.invoice_id ≠ some id) &&
    (db.invoices.committed id).any fun row => row.status = .open_

/-- No charge of an open invoice inserts its debit under a key that belongs to another row. -/
def KeyFree (c : Config T (Db T) Proc) (t : T) (a : Act) : Prop :=
  match a with
  | .stmt env => ((c.proc t).inserting env).all (fun id => !c.shared.keyTaken id) = true
  | _ => True

/-- The condition on the state before each step. -/
def Undisputed (c : Config T (Db T) Proc) (t : T) (a : Act) : Prop :=
  NoLateWriteOff c t a ∧ KeyFree c t a

instance (c : Config T (Db T) Proc) (t : T) (a : Act) : Decidable (KeyFree c t a) :=
  decidable_of_bool
    (match a with
      | .stmt env => ((c.proc t).inserting env).all fun id => !c.shared.keyTaken id
      | _ => true)
    (by unfold KeyFree; split <;> simp)

instance (c : Config T (Db T) Proc) (t : T) (a : Act) : Decidable (Undisputed c t a) :=
  inferInstanceAs (Decidable (_ ∧ _))

omit [DecidableEq T] in
/-- The ledger key of an open invoice is taken by another row. -/
theorem keyTaken_iff : db.keyTaken id = true ↔
    (∃ r, db.ledger.committed (debitKey id) = some r ∧ r.invoice_id ≠ some id) ∧
      ∃ row, db.invoices.committed id = some row ∧ row.status = .open_ := by
  simp [Db.keyTaken, Option.any_eq_true]

/-! ### Invoices that are not open -/

/-- The invoice is stored and not open. -/
def Db.closed (db : Db T) (id : Uuid) : Prop :=
  ∃ row, db.invoices.committed id = some row ∧ row.status ≠ .open_

omit [DecidableEq T] in
theorem Db.closed.congr (h : db.closed id)
    (hsame : db'.invoices.committed = db.invoices.committed) : db'.closed id := by
  obtain ⟨row, hrow, hstatus⟩ := h
  exact ⟨row, by rw [hsame, hrow], hstatus⟩

/-- A commit of a status closes its invoice, and leaves the others as they are. -/
theorem closed_commit {id' : Uuid} {invoice : Invoice} {status : InvoiceStatus}
    (hs : StatusSet t db id' invoice status) (hstatus : status ≠ .open_)
    (h : id = id' ∨ db.closed id) : (db.commit t).closed id := by
  obtain ⟨row, hcom, -, hrow⟩ := hs.committed_commit
  by_cases hne : id = id'
  · subst hne
    exact ⟨row, by rw [hcom, Function.update_self], hrow ▸ hstatus⟩
  · obtain ⟨old, hold, hopen⟩ := h.resolve_left hne
    exact ⟨old, by rw [hcom, Function.update_of_ne hne, hold], hopen⟩

omit [DecidableEq T] in
theorem Outcome.ne_open {invoice : Invoice} {status : InvoiceStatus} (h : Outcome invoice status) :
    status ≠ .open_ := by
  rcases h with ⟨rfl, -⟩ | ⟨rfl, -⟩ <;> simp

/-- **An invoice that is not open never is again.** -/
theorem closed_of_exec (hL : Loc t db p) (h : exec t a db p = some (db', p'))
    (hclosed : db.closed id) : db'.closed id := by
  rcases exec_cases h with hpriv | ⟨-, hp, rfl⟩ | ⟨id', invoice, -, rfl, -, hi⟩
  · exact hclosed.congr hpriv.invoices.committed
  · rcases Proc.committing_cases hp with ⟨id', invoice, status, rfl⟩ | ⟨id', invoice, w, rfl⟩ |
      ⟨call, w, rfl⟩
    · obtain ⟨hs, -, -, -, -, ho⟩ := hL
      exact closed_commit hs ho.ne_open (.inr hclosed)
    · obtain ⟨-, -, -, hs⟩ := hL
      exact closed_commit hs (by simp) (.inr hclosed)
    · obtain ⟨-, -, hinvoices, -⟩ := hL
      exact hclosed.congr hinvoices.committed_commit
  · obtain ⟨hnone, hcom⟩ := issue_committed (Db.Clean.invoices hL) hi
    obtain ⟨row, hrow, hstatus⟩ := hclosed
    have hne : id ≠ id' := by
      rintro rfl
      rw [hnone] at hrow
      cases hrow
    exact ⟨row, by rw [hcom, Function.update_of_ne hne, hrow], hstatus⟩

/-- What a charge has found out about its invoice. -/
def Standing (db : Db T) : Proc → Prop
  | .charging id invoice => invoice.status ≠ .open_ → db.closed id
  | .chargeReturned id | .chargeRaised id => db.closed id
  | _ => True

/-- A charge that returns at once has a copy that is not open. -/
theorem notOpen_of_exec {invoice : Invoice}
    (h : exec t a db (.charging id invoice) = some (db', .chargeReturned id)) :
    invoice.status ≠ .open_ := by
  cases a with
  | stmt env =>
      have hproc := (Prod.mk.inj (Option.some.inj h)).2
      intro hopen
      rw [chargeInvoice, if_neg (not_not.mpr hopen)] at hproc
      split at hproc
      · cases hproc
      · split at hproc <;> cases hproc
  | fail => cases (Prod.mk.inj (Option.some.inj h)).2
  | issue _ _ | charge _ | topUp _ => cases h

/-- A charge that raises at the insertion of its debit has found the key taken. -/
theorem taken_of_exec {invoice : Invoice} {updated : Bool}
    (hL : Loc t db (.post id invoice w false updated))
    (h : exec t a db (.post id invoice w false updated) = some (db', .chargeRaised id)) :
    ∃ env, a = .stmt env ∧ (Proc.post id invoice w false updated).inserting env = some id ∧
      ∃ r, db.ledger.committed (debitKey id) = some r := by
  obtain ⟨-, -, huntouched, -⟩ := hL
  have hledger : postLedger t id invoice w updated db = some (db', .chargeRaised id) →
      ∃ r, db.ledger.committed (debitKey id) = some r := by
    intro hpost
    cases step_of_postLedger (a := a) hpost with
    | collided htaken =>
        rw [Table.Untouched.view huntouched] at htaken
        exact Option.isSome_iff_exists.mp htaken
  cases a with
  | stmt env =>
      have hstmt : postCharge t env id invoice w false updated db =
          some (db', .chargeRaised id) := h
      refine ⟨env, rfl, ?_⟩
      cases updated with
      | true => exact ⟨rfl, hledger hstmt⟩
      | false =>
          rw [postCharge] at hstmt
          split at hstmt
          · obtain ⟨db₁, -, heq⟩ := Option.map_eq_some_iff.mp hstmt
            cases (Prod.mk.inj heq).2
          · rename_i hfirst
            exact ⟨if_neg hfirst, hledger hstmt⟩
  | fail => cases (Prod.mk.inj (Option.some.inj h)).2
  | issue _ _ | charge _ | topUp _ => cases h

/-- **One step.** What a charge has found out stays true; one that is carried out has closed its
invoice, or found it closed, if its key was not taken by another row. -/
theorem standing_of_exec (hC : ChargeInv c.shared) (hL : Loc t c.shared (c.proc t))
    (hS : Standing c.shared (c.proc t)) (hok : KeyFree c t a)
    (h : exec t a c.shared (c.proc t) = some (db', p')) : Standing db' p' := by
  have hkeyFree : ∀ env, a = .stmt env →
      ((c.proc t).inserting env).all (fun id => !c.shared.keyTaken id) = true := by
    rintro env rfl
    exact hok
  generalize c.shared = db at hC hL hS h hkeyFree
  generalize c.proc t = p at hL hS h hkeyFree
  cases step_of_exec h with
  | issue | topUp | abort | free | uncovered | covered | debit | short | settle | postLedger
  | postInvoice | found | missing | create | overtaken | credit | refused | addBalance
  | credited | recovered | lost | recreate | reselect | close => trivial
  | charge hfound =>
      intro hstatus
      rw [Table.Untouched.view (Db.Clean.invoices hL)] at hfound
      exact ⟨_, hfound, hstatus⟩
  | notOpen => exact hS (notOpen_of_exec h)
  | settled =>
      obtain ⟨hs, -, -, -, -, ho⟩ := hL
      exact closed_commit hs ho.ne_open (.inl rfl)
  | posted =>
      obtain ⟨-, -, -, hs⟩ := hL
      exact closed_commit hs (by simp) (.inl rfl)
  | @collided _ id w invoice updated _ =>
      obtain ⟨env, rfl, hinserting, r, hr⟩ := taken_of_exec hL h
      obtain ⟨-, ⟨row, hrow, -⟩, -⟩ := hL
      have hfree := hkeyFree env rfl
      rw [hinserting, Option.all_some, Bool.not_eq_true', ← Bool.not_eq_true, keyTaken_iff,
        not_and] at hfree
      refine Db.closed.congr ⟨row, hrow, fun hopen => ?_⟩
        (Db.Private.of_rollback t db).invoices.committed
      by_cases hdebit : r.invoice_id = some id
      · -- the debit of the invoice: it has been paid
        obtain ⟨row', hrow', hpaid, -⟩ := hC.paid_of_debit hr hdebit
        obtain rfl : row = row' := Option.some.inj (hrow.symm.trans hrow')
        rw [hpaid] at hopen
        cases hopen
      · exact hfree ⟨r, hr, hdebit⟩ ⟨row, hrow, hopen⟩

/-- What the other requests have found out stays true. -/
theorem Standing.of_exec {q : Proc} (hS : Standing db q) (hL : Loc t db p)
    (h : exec t a db p = some (db', p')) : Standing db' q := by
  cases q with
  | charging id invoice => exact fun hstatus => closed_of_exec hL h (hS hstatus)
  | chargeReturned id | chargeRaised id => exact closed_of_exec hL h hS
  | _ => trivial

/-! ### Every run -/

omit [DecidableEq T] in
/-- A closed invoice is settled. -/
theorem ChargeInv.settles (hC : ChargeInv db) (h : db.closed id) : db.settles id := by
  obtain ⟨row, hrow, hstatus⟩ := h
  refine ⟨row, hrow, ?_⟩
  cases hs : row.status with
  | open_ => exact absurd hs hstatus
  | paid =>
      refine .inl ⟨rfl, fun hpos => ?_⟩
      obtain ⟨k, r, hr, hid⟩ := hC.debit_of_paid hrow hs hpos
      obtain ⟨row', hrow', -, hdelta⟩ := hC.paid_of_debit hr hid
      obtain rfl : row' = row := Option.some.inj (hrow'.symm.trans hrow)
      exact ⟨k, r, hr, hid, hdelta⟩
  | uncollectible =>
      refine .inr ⟨rfl, fun k r hr hid => ?_⟩
      obtain ⟨row', hrow', hpaid, -⟩ := hC.paid_of_debit hr hid
      obtain rfl : row' = row := Option.some.inj (hrow'.symm.trans hrow)
      rw [hs] at hpaid
      cases hpaid

/-- What charges have found out holds along every run. -/
theorem standing_of_run (h : program.Run Undisputed init c) (u : T) :
    Standing c.shared (c.proc u) := by
  induction h generalizing u with
  | refl => trivial
  | @step d e t a hrun hok hstep ih =>
      obtain ⟨db', p', hexec, rfl⟩ := Program.step_eq_some_iff.mp hstep
      have hC := chargeInv_of_run (hrun.mono fun _ _ _ h => h.1)
      have hL := (walletInv_of_run hrun).2 t
      by_cases hu : u = t
      · subst hu
        simpa using standing_of_exec hC hL (ih u) hok.2 hexec
      · simpa [Function.update_of_ne hu] using (ih u).of_exec hL hexec

/-- **Every charge that has returned has settled its invoice**, in every run whose steps meet the
condition. -/
theorem settled_of_run (h : program.Run Undisputed init c) : Settled c := by
  intro t id hcharged
  have hC := chargeInv_of_run (h.mono fun _ _ _ h => h.1)
  have hS := standing_of_run h t
  generalize c.proc t = p at hcharged hS
  cases p with
  | chargeReturned id' | chargeRaised id' =>
      obtain rfl := Option.some.inj hcharged
      exact hC.settles hS
  | _ => cases hcharged

/-- A late write-off leaves a debited invoice uncollectible. -/
theorem not_settled_of_late (hL : ∀ u, Loc u c.shared (c.proc u)) (hlate : ¬ NoLateWriteOff c t a)
    (h : program.step c t a = some d) : ¬ Settled d := by
  unfold NoLateWriteOff at hlate
  split at hlate
  · rename_i env id invoice hproc
    have hLt := hL t
    rw [hproc] at hLt
    obtain ⟨hs, -, -, -, hl, -⟩ := hLt
    obtain ⟨g, l, hexec, rfl⟩ := Program.step_eq_some_iff.mp h
    rw [hproc] at hexec
    obtain ⟨rfl, rfl⟩ := Prod.mk.inj (Option.some.inj hexec)
    obtain ⟨row, hcom, -, hstatus⟩ := hs.committed_commit
    intro hsettled
    have hcharged : ((Function.update c.proc t (.chargeReturned id)) t).charged = some id := by
      rw [Function.update_self]
      rfl
    obtain ⟨row', hrow', houtcome⟩ := hsettled t id hcharged
    obtain rfl : row = row' := by
      have hself := congrFun hcom id
      rw [Function.update_self] at hself
      exact Option.some.inj (hself.symm.trans hrow')
    rw [Db.debited, Bool.not_eq_false, Option.any_eq_true] at hlate
    obtain ⟨r, hr, hid⟩ := hlate
    rcases houtcome with ⟨hpaid, -⟩ | ⟨-, hnone⟩
    · rw [hstatus] at hpaid
      cases hpaid
    · exact hnone _ r (by rw [← hr]; exact congrFun hl.committed_commit _) (of_decide_eq_true hid)
  · exact absurd trivial hlate

/-- The insertion of a debit. -/
theorem stmt_of_inserting {env : Env} (t : T) (db : Db T) (h : p.inserting env = some id) :
    ∃ invoice w updated, p = .post id invoice w false updated ∧
      stmt t env db p = postLedger t id invoice w updated db := by
  rw [Proc.inserting.eq_def] at h
  split at h
  · obtain rfl := Option.some.inj h
    exact ⟨_, _, true, rfl, rfl⟩
  · split at h
    · cases h
    · rename_i hfirst
      obtain rfl := Option.some.inj h
      exact ⟨_, _, false, rfl, if_neg hfirst⟩
  · cases h

/-- A charge that meets another row under its key raises, and leaves the invoice open. -/
theorem not_settled_of_taken (hL : ∀ u, Loc u c.shared (c.proc u)) (htaken : ¬ KeyFree c t a)
    (h : program.step c t a = some d) : ¬ Settled d := by
  unfold KeyFree at htaken
  split at htaken
  · rename_i env
    obtain ⟨id, hinserting, htaken⟩ : ∃ id, (c.proc t).inserting env = some id ∧
        c.shared.keyTaken id = true := by
      cases hproc : (c.proc t).inserting env with
      | none => rw [hproc] at htaken; exact absurd rfl htaken
      | some id => exact ⟨id, rfl, by simpa [hproc] using htaken⟩
    obtain ⟨⟨r, hr, -⟩, row, hrow, hopen⟩ := keyTaken_iff.mp htaken
    obtain ⟨db', p', hexec, rfl⟩ := Program.step_eq_some_iff.mp h
    have hend : db' = c.shared.rollback t ∧ p' = .chargeRaised id := by
      obtain ⟨invoice, w, updated, hp, hpost⟩ := stmt_of_inserting t c.shared hinserting
      have hLt := hL t
      rw [hp] at hLt
      obtain ⟨-, -, huntouched, -⟩ := hLt
      obtain ⟨result, hresult, heq⟩ := Option.map_eq_some_iff.mp (hpost.symm.trans hexec)
      cases result with
      | error e =>
          obtain ⟨rfl, rfl⟩ := Prod.mk.inj heq
          exact ⟨rfl, rfl⟩
      | ok db₁ =>
          obtain ⟨ledger, hview, -, -⟩ := Db.insertTransaction_ok hresult
          rw [Table.Untouched.view huntouched, hr] at hview
          cases hview
    obtain ⟨rfl, rfl⟩ := hend
    intro hsettled
    have hcharged : ((Function.update c.proc t (.chargeRaised id)) t).charged = some id := by
      rw [Function.update_self]
      rfl
    obtain ⟨row', hrow', houtcome⟩ := hsettled t id hcharged
    have hsame := congrFun (Db.Private.of_rollback t c.shared).invoices.committed id
    obtain rfl : row = row' := Option.some.inj (hrow.symm.trans (hsame.symm.trans hrow'))
    rcases houtcome with ⟨hpaid, -⟩ | ⟨hunpaid, -⟩
    · rw [hopen] at hpaid
      cases hpaid
    · rw [hopen] at hunpaid
      cases hunpaid
  · exact absurd trivial htaken

/-- **Every charge that is carried out has settled its invoice**, and the wallets are what the
ledger says, in every run without a late write-off in which no charge of an open invoice meets
another row under its key. The next step of such a run keeps this if and only if it is neither. -/
theorem settled_iff (h : program.Run Undisputed init c) :
    Settled c ∧ Books c.shared ∧ ∀ t a d, program.step c t a = some d →
      (Settled d ↔ Undisputed c t a) := by
  obtain ⟨hI, hL⟩ := walletInv_of_run h
  refine ⟨settled_of_run h, hI.toBooks, fun t a d hstep => ⟨fun hd => ⟨?_, ?_⟩, fun hok => ?_⟩⟩
  · by_contra hlate
    exact not_settled_of_late hL hlate hstep hd
  · by_contra htaken
    exact not_settled_of_taken hL htaken hstep hd
  · exact settled_of_run (h.step hok hstep)

/-- An invoice over 50 and a top-up of the wallet under the given key, by `t`, and then the
charge of the invoice by `u`. -/
def topUpThenCharge (t u : T) (key : String) : List (T × Act) :=
  let org := Uuid.ofNat 100
  let id := Uuid.ofNat 200
  let env : Env := ⟨7, Uuid.ofNat 300, true⟩
  [(t, .issue id ⟨org, .open_, 50, none⟩), (t, .topUp ⟨org, 80, key, "usd"⟩)] ++
    List.replicate 5 (t, .stmt env) ++ [(u, .charge id)] ++ List.replicate 4 (u, .stmt env)

set_option maxRecDepth 10000 in
/-- A top-up under a key of its own: the charge settles the invoice. -/
theorem settled_iff_topUpThenCharge :
    ∃ c : Config (Fin 2) (Db (Fin 2)) Proc, program.Run Undisputed init c ∧ Settled c ∧
      c.proc 1 = .chargeReturned (Uuid.ofNat 200) := by
  have hreplay : (program.replay Undisputed init
      (topUpThenCharge (0 : Fin 2) 1 "first" ++ [(1, .stmt ⟨7, Uuid.ofNat 300, true⟩)])).any
      (fun c => decide (c.proc 1 = .chargeReturned (Uuid.ofNat 200))) = true := by
    decide
  obtain ⟨c, hrun, hp⟩ := Program.exists_run_of_replay hreplay
  exact ⟨c, hrun, (settled_iff hrun).1, of_decide_eq_true hp⟩

set_option maxRecDepth 10000 in
/-- A top-up under the key of the debit: the charge raises, nothing else is under way, and the
invoice is open. -/
theorem charged_and_open :
    ∃ c : Config (Fin 2) (Db (Fin 2)) Proc, program.Run Any init c ∧
      (∀ t, (c.proc t).ended = true) ∧ c.proc 1 = .chargeRaised (Uuid.ofNat 200) ∧
      ∃ row, c.shared.invoices.committed (Uuid.ofNat 200) = some row ∧ row.status = .open_ := by
  have hreplay : (program.replay Any init
      (topUpThenCharge (0 : Fin 2) 1 (debitKey (Uuid.ofNat 200)))).any
      (fun c => decide ((c.proc 0).ended = true ∧
        c.proc 1 = .chargeRaised (Uuid.ofNat 200)) &&
        (c.shared.invoices.committed (Uuid.ofNat 200)).any fun row => row.status = .open_) =
        true := by
    decide
  obtain ⟨c, hrun, hp⟩ := Program.exists_run_of_replay hreplay
  simp only [Bool.and_eq_true, decide_eq_true_eq, Option.any_eq_true] at hp
  obtain ⟨⟨hended, hreturned⟩, row, hrow, hopen⟩ := hp
  refine ⟨c, hrun, fun t => ?_, hreturned, row, hrow, hopen⟩
  cases t using Fin.cases with
  | zero => exact hended
  | succ t =>
      obtain rfl : t = 0 := Subsingleton.elim _ _
      exact congrArg Proc.ended hreturned

end BackendManager.Metering
