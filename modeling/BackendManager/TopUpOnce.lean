import BackendManager.WalletBalance

/-!
# Crediting a Top-up Once

`top_up` is idempotent per client-supplied key: it inserts the ledger row first and takes
a unique violation to mean that this top-up has already been applied. The unique index
covers the whole table, though, while the key is chosen per organisation, and invoice
debits share it. A key that belongs to somebody else makes `top_up` return as if it had
credited the wallet, without having done so.

The ledger key of a top-up is the caller's idempotency key, for the whole table and not for one
wallet. A top-up that finds its key in use returns the wallet as it is, which is right if the
row under the key is its own earlier attempt, and wrong if it is that of another top-up. The
condition looks at that row, at the statement that collides, and is exact: a top-up that is
swallowed in this way returns without a row of its own.

## Main results

* `honoured_iff`: in a run in which no top-up meets a foreign row under its key, every
  top-up that returns has its ledger row, the first one for an organisation and key
  raises the balance by exactly its amount and later ones leave it alone; and a top-up
  that does meet a foreign row has no ledger row in any run in which it returns.
* `topUp_swallowed`: two organisations choose the same key and the second top-up is lost.
-/

namespace BackendManager.Metering

open ReadCommitted Interleaving

variable {T : Type} [DecidableEq T] {t u : T} {db db' : Db T} {c d e : Config T (Db T) Proc}
  {a : Act} {call : TopUp} {p p' : Proc}

/-- The committed balance of an organisation, zero without a wallet. -/
def Db.balanceOf (db : Db T) (organization_id : Uuid) : ℤ :=
  ((db.walletOrg.committed organization_id).bind db.wallets.committed).elim 0
    (·.balance_cents)

/-- The ledger row is a top-up of this organisation. -/
def WalletTransaction.ofTopUp (call : TopUp) (r : WalletTransaction) : Bool :=
  r.organization_id = call.organization_id ∧ r.reason = .topup

/-- The committed ledger has a top-up row of that organisation with that key. -/
def HasTopUp (db : Db T) (call : TopUp) : Prop :=
  ∃ r, db.ledger.committed call.idempotency_key = some r ∧ r.ofTopUp call = true

/-- No call for the same organisation and key has returned yet. -/
def FirstCall (c : Config T (Db T) Proc) (call : TopUp) : Prop :=
  ∀ u call', c.proc u = .topUpReturned call' →
    call'.idempotency_key = call.idempotency_key →
    call'.organization_id ≠ call.organization_id

/-- What the step from `c` to `d`, in which `call` returns, owes its caller. -/
structure Honoured (c d : Config T (Db T) Proc) (call : TopUp) : Prop where
  /-- The top-up is in the ledger. -/
  row : HasTopUp d.shared call
  /-- The first call raises the balance by exactly the amount. -/
  first : FirstCall c call → d.shared.balanceOf call.organization_id =
    c.shared.balanceOf call.organization_id + call.amount_cents
  /-- A repeated call leaves it alone. -/
  repeated : ¬ FirstCall c call → d.shared.balanceOf call.organization_id =
    c.shared.balanceOf call.organization_id

/-- Whenever a top-up inserts its ledger row, a row that is already there under its key is
a top-up of the same organisation: the condition on the state before each step. -/
def KeysUnshared (c : Config T (Db T) Proc) (t : T) (a : Act) : Prop :=
  match a, c.proc t with
  | .stmt _, .insertLedger call _ =>
      (c.shared.ledger.committed call.idempotency_key).all (·.ofTopUp call) = true
  | _, _ => True

instance (c : Config T (Db T) Proc) (t : T) (a : Act) : Decidable (KeysUnshared c t a) :=
  decidable_of_bool
    (match a, c.proc t with
      | .stmt _, .insertLedger call _ =>
          (c.shared.ledger.committed call.idempotency_key).all (·.ofTopUp call)
      | _, _ => true)
    (by unfold KeysUnshared; split <;> simp)

/-! ### The recovery path -/

/-- The top-up whose ledger `INSERT` was refused, or which has returned. -/
def Proc.past : Proc → Option TopUp
  | .recover call | .recreateWallet call | .reselectWallet call | .closing call
  | .topUpReturned call => some call
  | _ => none

/-- A request is past its ledger `INSERT` because it was before, because the key is taken,
or because it commits. -/
theorem exec_past (h : exec t a db p = some (db', p')) (hp' : p'.past = some call) :
    p.past = some call ∧ Db.Private t db db' ∨
      (∃ env w, a = .stmt env ∧ p = .insertLedger call w ∧ p' = .recover call ∧
        db' = db.rollback t ∧ (db.ledger.view t call.idempotency_key).isSome) ∨
      ∃ w, p = .topUpCommit call w ∧ p' = .topUpReturned call ∧ db' = db.commit t := by
  cases step_of_exec h with
  | refused htaken =>
      obtain rfl := Option.some.inj hp'
      exact .inr (.inl ⟨_, _, rfl, rfl, rfl, rfl, htaken⟩)
  | credited =>
      obtain rfl := Option.some.inj hp'
      exact .inr (.inr ⟨_, rfl, rfl, rfl⟩)
  | recovered hp => rcases hp with rfl | rfl <;> exact .inl ⟨hp', .refl _ _⟩
  | lost => exact .inl ⟨hp', .refl _ _⟩
  | recreate hins => exact .inl ⟨hp', Db.private_of_insertWallet hins⟩
  | reselect | close => exact .inl ⟨hp', .of_rollback _ _⟩
  | _ => cases hp'

/-- A request on the recovery path stays on it until it ends. -/
theorem Proc.past_of_exec (h : exec t a db p = some (db', p')) (hp : p.past = some call) :
    p'.past = some call ∨ p' = .raised := by
  cases step_of_exec h with
  | abort => exact .inr rfl
  | recovered hp' => rcases hp' with rfl | rfl <;> exact .inl hp
  | found hp' => rcases hp' with rfl | rfl <;> cases hp
  | lost | recreate | reselect | close => exact .inl hp
  | _ => cases hp

/-! ### Ledger and balance across one step -/

/-- A ledger row that is committed after an action was committed before it, or is the
debit or the top-up that the action commits. -/
theorem ledger_of_exec (hL : Loc t db p)
    (h : exec t a db p = some (db', p')) {k : String} {r : WalletTransaction}
    (hr : db'.ledger.committed k = some r) :
    db.ledger.committed k = some r ∨ r.reason = .invoice ∨
      ∃ call w, p' = .topUpReturned call ∧ k = call.idempotency_key ∧ r = topUpRow call w := by
  rcases exec_cases h with hpriv | ⟨⟨env, rfl⟩, hp, rfl⟩ | ⟨id, invoice, rfl, rfl, rfl, hi⟩
  · rw [hpriv.ledger.committed] at hr
    exact .inl hr
  · rcases Proc.committing_cases hp with ⟨id, invoice, status, rfl⟩ | ⟨id, invoice, w, rfl⟩ |
      ⟨call, w, rfl⟩
    · obtain ⟨-, -, -, -, hl, -⟩ := hL
      have hlc : (db.commit t).ledger.committed = db.ledger.committed := hl.committed_commit
      rw [hlc] at hr
      exact .inl hr
    · obtain ⟨-, -, hl, -⟩ := hL
      rcases hl.commit_cases hr with ⟨-, rfl⟩ | hold
      · exact .inr (.inl rfl)
      · exact .inl hold
    · obtain ⟨-, hl, -⟩ := hL
      obtain ⟨-, rfl⟩ := Prod.mk.inj (Option.some.inj h)
      rcases hl.commit_cases hr with ⟨hk, rfl⟩ | hold
      · exact .inr (.inr ⟨call, w, rfl, hk, rfl⟩)
      · exact .inl hold
  · obtain ⟨-, -, -, -, invoices, -, rfl⟩ := issue_some hi
    exact .inl hr

/-- The ledger is append-only. -/
theorem ledger_grows (hI : WalletInv db) (hL : Loc t db p)
    (h : exec t a db p = some (db', p')) {k : String} {r : WalletTransaction}
    (hr : db.ledger.committed k = some r) : db'.ledger.committed k = some r := by
  rcases exec_cases h with hpriv | ⟨-, hp, rfl⟩ | ⟨id, invoice, rfl, rfl, rfl, hi⟩
  · rw [hpriv.ledger.committed, hr]
  · cases hw : db.ledger.written t k with
    | none => exact (Table.committed_commit_of_written_eq_none hw).trans hr
    | some v =>
        rw [(hL.appending hI hp).ledger hw] at hr
        cases hr
  · obtain ⟨-, -, -, -, invoices, -, rfl⟩ := issue_some hi
    exact hr

/-- The ledger row of a top-up stays where it is. -/
theorem HasTopUp.of_exec (hh : HasTopUp db call) (hI : WalletInv db) (hL : Loc t db p)
    (h : exec t a db p = some (db', p')) : HasTopUp db' call := by
  obtain ⟨r, hr, hmine⟩ := hh
  exact ⟨r, ledger_grows hI hL h hr, hmine⟩

omit [DecidableEq T] in
/-- The balance of the organisation that owns a wallet is that of the wallet. -/
theorem WalletInv.balanceOf (hI : WalletInv db) {w : Uuid} {row : CustomerWallet}
    (hrow : db.wallets.committed w = some row) :
    db.balanceOf row.organization_id = row.balance_cents := by
  rw [Db.balanceOf, hI.index.mpr ⟨row, hrow, rfl⟩, Option.bind_some, hrow, Option.elim_some]

/-- **Committing a posting moves the balance of its organisation by the posted amount.** -/
theorem Posting.balanceOf_commit {k : String} {r : WalletTransaction} {row : CustomerWallet}
    (hI : WalletInv db) (hI' : WalletInv (db.commit t)) (h : Posting t db k r row) :
    (db.commit t).balanceOf r.organization_id =
      db.balanceOf r.organization_id + r.delta_cents := by
  have hafter : (db.commit t).balanceOf r.organization_id = row.balance_cents := by
    rw [← h.owner]
    exact hI'.balanceOf h.wallet_commit
  rw [hafter]
  rcases h.prior with ⟨old, hold, horg, hb, -⟩ | ⟨-, hb, -, hfree⟩
  · have hbefore := hI.balanceOf hold
    rw [horg, h.owner] at hbefore
    rw [hb, hbefore]
  · have hbefore : db.balanceOf r.organization_id = 0 := by
      rw [Db.balanceOf, hfree, Option.bind_none, Option.elim_none]
    rw [hb, hbefore, zero_add]

/-- Statements that are not commits move no balance. -/
theorem balanceOf_of_private (h : Db.Private t db db') (organization_id : Uuid) :
    db'.balanceOf organization_id = db.balanceOf organization_id := by
  rw [Db.balanceOf, Db.balanceOf, h.walletOrg.committed, h.wallets.committed]

/-! ### Every run -/

/-- A request that has ended takes no further step. -/
theorem exec_of_returned (t : T) (a : Act) (db : Db T) (call : TopUp) :
    exec t a db (.topUpReturned call) = none := by
  cases a <;> rfl

/-- The inductive invariant: a refused or returned top-up is in the ledger, and a top-up
in the ledger belongs to a call that has returned. -/
structure TopUpInv (c : Config T (Db T) Proc) : Prop where
  row_of_past : ∀ {t call}, (c.proc t).past = some call → HasTopUp c.shared call
  returned_of_row : ∀ {k r}, c.shared.ledger.committed k = some r → r.reason = .topup →
    ∃ u call, c.proc u = .topUpReturned call ∧ call.idempotency_key = k ∧
      call.organization_id = r.organization_id

/-- **One step.** Every admitted action keeps the invariant. -/
theorem TopUpInv.step (hT : TopUpInv c) (hI : WalletInv c.shared)
    (hL : ∀ u, Loc u c.shared (c.proc u)) (hok : KeysUnshared c t a)
    (h : program.step c t a = some d) : TopUpInv d := by
  obtain ⟨db', p', hexec, rfl⟩ := Program.step_eq_some_iff.mp h
  have hexec : exec t a c.shared (c.proc t) = some (db', p') := hexec
  refine ⟨fun {u call} hu => ?_, fun {k r} hr htopup => ?_⟩
  · by_cases hut : u = t
    · subst hut
      simp only [Function.update_self] at hu
      rcases exec_past hexec hu with ⟨hp, -⟩ | ⟨env, w, rfl, hp, rfl, rfl, hview⟩ |
        ⟨w, hp, rfl, rfl⟩
      · exact (hT.row_of_past hp).of_exec hI (hL u) hexec
      · -- the key was taken, and what took it is a top-up of this organisation
        have hLu := hL u
        rw [hp] at hLu
        rw [hLu.untouched_of_insertLedger.1.view] at hview
        obtain ⟨r, hr⟩ := Option.isSome_iff_exists.mp hview
        simp only [KeysUnshared, hp, hr, Option.all_some] at hok
        exact ⟨r, ledger_grows hI (hL u) hexec hr, hok⟩
      · have hLu := hL u
        rw [hp] at hLu
        obtain ⟨-, hl, -⟩ := hLu
        exact ⟨topUpRow call w, by simp [Db.commit, hl.1.view],
          by simp [WalletTransaction.ofTopUp, topUpRow]⟩
    · simp only [Function.update_of_ne hut] at hu
      exact (hT.row_of_past hu).of_exec hI (hL t) hexec
  · rcases ledger_of_exec (hL t) hexec hr with hold | hinv | ⟨call, w, rfl, rfl, rfl⟩
    · obtain ⟨u, call, hu, hk, horg⟩ := hT.returned_of_row hold htopup
      have hut : u ≠ t := by
        rintro rfl
        rw [hu, exec_of_returned] at hexec
        cases hexec
      exact ⟨u, call, by simpa [Function.update_of_ne hut] using hu, hk, horg⟩
    · rw [hinv] at htopup
      cases htopup
    · exact ⟨t, call, by simp, rfl, rfl⟩

/-- The invariant holds along every run in which no key is shared. -/
theorem topUpInv_of_run (h : program.Run KeysUnshared init c) : TopUpInv c := by
  induction h with
  | refl => exact ⟨fun hp => (nomatch hp), fun hr => (nomatch hr)⟩
  | step hrun hok hstep ih =>
      obtain ⟨hI, hL⟩ := walletInv_of_run hrun
      exact ih.step hI hL hok hstep

omit [DecidableEq T] in
/-- Under the invariant the first call is the one that finds no top-up in the ledger. -/
theorem TopUpInv.firstCall_iff (hT : TopUpInv c) :
    FirstCall c call ↔ ¬ HasTopUp c.shared call := by
  constructor
  · rintro hfirst ⟨r, hr, hmine⟩
    simp only [WalletTransaction.ofTopUp, decide_eq_true_eq] at hmine
    obtain ⟨u, call', hu, hk, horg⟩ := hT.returned_of_row hr hmine.2
    exact hfirst u call' hu hk (horg.trans hmine.1)
  · intro hnone u call' hu hk horg
    have hpast : (c.proc u).past = some call' := by rw [hu]; rfl
    obtain ⟨r, hr, hmine⟩ := hT.row_of_past hpast
    refine hnone ⟨r, hk ▸ hr, ?_⟩
    simpa only [WalletTransaction.ofTopUp, horg] using hmine

/-- A call that returns after such a run is honoured. -/
theorem TopUpInv.honoured (hT : TopUpInv c) (hI : WalletInv c.shared)
    (hL : ∀ u, Loc u c.shared (c.proc u)) (hd : TopUpInv d) (hI' : WalletInv d.shared)
    (h : program.step c t a = some d) (hret : d.proc t = .topUpReturned call) :
    Honoured c d call := by
  refine ⟨hd.row_of_past (t := t) (by rw [hret]; rfl), ?_, ?_⟩ <;> rw [hT.firstCall_iff]
  all_goals
    obtain ⟨db', p', hexec, rfl⟩ := Program.step_eq_some_iff.mp h
    have hexec : exec t a c.shared (c.proc t) = some (db', p') := hexec
    obtain rfl : p' = .topUpReturned call := by simpa using hret
    have hreturned : (Proc.topUpReturned call).past = some call := rfl
    have hpast := exec_past hexec hreturned
  · intro hfirst
    rcases hpast with ⟨hp, -⟩ | ⟨env, w, -, -, hp', -⟩ | ⟨w, hp, -, rfl⟩
    · exact absurd (hT.row_of_past hp) hfirst
    · cases hp'
    · have hLt := hL t
      rw [hp] at hLt
      obtain ⟨hc, hl, -, hpos⟩ := hLt
      obtain ⟨row, hpost⟩ := hI.posting hpos hc hl
      exact hpost.balanceOf_commit hI hI'
  · intro hrepeat
    rcases hpast with ⟨-, hpriv⟩ | ⟨env, w, -, -, hp', -⟩ | ⟨w, hp, -, rfl⟩
    · exact balanceOf_of_private hpriv _
    · cases hp'
    · -- this call has just committed its row, so it was not there before
      have hLt := hL t
      rw [hp] at hLt
      obtain ⟨r, hr, -⟩ := not_not.mp hrepeat
      rw [hLt.2.1.2] at hr
      cases hr

/-! ### A key that belongs to somebody else -/

/-- A call on the recovery path with a foreign row under its key. -/
def Swallowed (t : T) (call : TopUp) (c : Config T (Db T) Proc) : Prop :=
  (∃ r, c.shared.ledger.committed call.idempotency_key = some r ∧ r.ofTopUp call = false) ∧
    ((c.proc t).past = some call ∨ c.proc t = .raised)

/-- Nothing that happens afterwards helps such a call. -/
theorem Swallowed.step (hI : WalletInv c.shared) (hL : ∀ u, Loc u c.shared (c.proc u))
    (hs : Swallowed t call c) (h : program.step c u a = some d) : Swallowed t call d := by
  obtain ⟨⟨r, hr, hforeign⟩, hp⟩ := hs
  obtain ⟨db', p', hexec, rfl⟩ := Program.step_eq_some_iff.mp h
  refine ⟨⟨r, ledger_grows hI (hL u) hexec hr, hforeign⟩, ?_⟩
  by_cases htu : t = u
  · subst htu
    simp only [Function.update_self]
    rcases hp with hp | hp
    · exact Proc.past_of_exec hexec hp
    · rw [hp] at hexec
      cases a <;> cases hexec
  · simpa only [Function.update_of_ne htu] using hp

/-- A top-up whose key was taken stays without a row of its own. -/
theorem Swallowed.run (hrun : program.Run Any init c) (hs : Swallowed t call c)
    (h : program.Run Any c e) : Swallowed t call e := by
  induction h with
  | refl => exact hs
  | step hce _ hstep ih =>
      obtain ⟨hI, hL⟩ := walletInv_of_run (hrun.trans hce)
      exact ih.step hI hL hstep

/-- A top-up that meets a foreign row is swallowed. -/
theorem swallowed_of_step (hL : Loc t c.shared (c.proc t)) (hbad : ¬ KeysUnshared c t a)
    (h : program.step c t a = some d) : ∃ call, Swallowed t call d := by
  unfold KeysUnshared at hbad
  split at hbad
  · rename_i env call w hproc
    obtain ⟨db', p', hexec, rfl⟩ := Program.step_eq_some_iff.mp h
    have hexec : exec t (.stmt env) c.shared (c.proc t) = some (db', p') := hexec
    rw [hproc] at hexec hL
    have hclean := hL.untouched_of_insertLedger.1
    obtain ⟨r, hr, hforeign⟩ :
        ∃ r, c.shared.ledger.committed call.idempotency_key = some r ∧
          r.ofTopUp call = false := by
      cases hr : c.shared.ledger.committed call.idempotency_key with
      | none => simp [hr] at hbad
      | some r => exact ⟨r, rfl, by simpa [hr] using hbad⟩
    cases step_of_exec hexec with
    | abort =>
        exact ⟨call, ⟨r, by simpa [Db.rollback] using hr, hforeign⟩, .inr (by simp)⟩
    | found hp => rcases hp with hp | hp <;> cases hp
    | recovered hp => rcases hp with hp | hp <;> cases hp
    | credit hins =>
        obtain ⟨ledger, hv, -⟩ := Db.insertTransaction_ok hins
        rw [hclean.view, hr] at hv
        cases hv
    | refused =>
        exact ⟨call, ⟨r, by simpa [Db.rollback] using hr, hforeign⟩, .inl (by simp [Proc.past])⟩
  · exact absurd trivial hbad

/-- **Crediting once.** In every run in which no top-up meets a foreign row under its key,
a call that returns is honoured. A call that does meet one has no ledger row whenever, in
any continuation, it returns. -/
theorem honoured_iff (h : program.Run KeysUnshared init c)
    (hstep : program.step c t a = some d) :
    (KeysUnshared c t a → ∀ call, d.proc t = .topUpReturned call → Honoured c d call) ∧
      (¬ KeysUnshared c t a → ∀ e, program.Run Any d e → ∀ call,
        e.proc t = .topUpReturned call → ¬ HasTopUp e.shared call) := by
  obtain ⟨hI, hL⟩ := walletInv_of_run h
  have hT := topUpInv_of_run h
  refine ⟨fun hok call hret => ?_, fun hbad e hde call hret => ?_⟩
  · have hd := h.step hok hstep
    exact hT.honoured hI hL (topUpInv_of_run hd) (walletInv_of_run hd).1 hstep hret
  · obtain ⟨call', hs⟩ := swallowed_of_step (hL t) hbad hstep
    have hany : program.Run Any init d := (h.mono fun _ _ _ _ => trivial).step trivial hstep
    obtain ⟨⟨r, hr, hforeign⟩, hp⟩ := hs.run hany hde
    have hcall : call = call' := by
      rcases hp with hp | hp <;> rw [hret] at hp
      · exact Option.some.inj hp
      · cases hp
    subst hcall
    rintro ⟨r', hr', hmine⟩
    rw [hr, Option.some.injEq] at hr'
    rw [← hr', hforeign] at hmine
    cases hmine

/-- One request tops up, `n` statements long, drawing `uuid4` for its wallet. -/
def oneTopUp (t : T) (call : TopUp) (uuid4 : Uuid) (n : ℕ) : List (T × Act) :=
  (t, .topUp call) :: List.replicate n (t, .stmt ⟨7, uuid4, true⟩)

set_option maxRecDepth 10000 in
/-- One top-up alone is honoured. -/
theorem honoured_iff_oneTopUp :
    ∃ c d : Config (Fin 2) (Db (Fin 2)) Proc, program.Run KeysUnshared init c ∧
      KeysUnshared c 0 (.stmt ⟨7, Uuid.ofNat 300, true⟩) ∧
      program.step c 0 (.stmt ⟨7, Uuid.ofNat 300, true⟩) = some d ∧
      d.proc 0 = .topUpReturned ⟨Uuid.ofNat 100, 80, "order-1", "usd"⟩ ∧
      Honoured c d ⟨Uuid.ofNat 100, 80, "order-1", "usd"⟩ := by
  obtain ⟨c, hreplay, hok, d, hstep, hret⟩ :
      ∃ c ∈ program.replay KeysUnshared init
        (oneTopUp (0 : Fin 2) ⟨Uuid.ofNat 100, 80, "order-1", "usd"⟩ (Uuid.ofNat 300) 4),
        KeysUnshared c 0 (.stmt ⟨7, Uuid.ofNat 300, true⟩) ∧
          ∃ d ∈ program.step c 0 (.stmt ⟨7, Uuid.ofNat 300, true⟩),
            d.proc 0 = .topUpReturned ⟨Uuid.ofNat 100, 80, "order-1", "usd"⟩ := by
    decide
  have hrun := Program.run_of_replay hreplay
  exact ⟨c, d, hrun, hok, hstep, hret, (honoured_iff hrun hstep).1 hok _ hret⟩

set_option maxRecDepth 10000 in
/-- Two organisations choose the same key, one after the other; the second top-up returns
without a ledger row. -/
theorem topUp_swallowed :
    ∃ (c : Config (Fin 2) (Db (Fin 2)) Proc) (t : Fin 2) (call : TopUp),
      program.Run Any init c ∧ c.proc t = .topUpReturned call ∧ ¬ HasTopUp c.shared call := by
  have hreplay : (program.replay Any init
      (oneTopUp (0 : Fin 2) ⟨Uuid.ofNat 100, 80, "order-1", "usd"⟩ (Uuid.ofNat 300) 5 ++
        oneTopUp 1 ⟨Uuid.ofNat 101, 25, "order-1", "usd"⟩ (Uuid.ofNat 301) 6)).any (fun c =>
        decide (c.proc 1 = .topUpReturned ⟨Uuid.ofNat 101, 25, "order-1", "usd"⟩) &&
        (c.shared.ledger.committed "order-1").all fun r =>
          r.organization_id = Uuid.ofNat 100) = true := by
    decide
  obtain ⟨c, hrun, hp⟩ := Program.exists_run_of_replay hreplay
  rw [Bool.and_eq_true, decide_eq_true_eq] at hp
  refine ⟨c, 1, _, hrun, hp.1, ?_⟩
  rintro ⟨r, hr, hmine⟩
  have hother : r.organization_id = Uuid.ofNat 100 := by
    simpa [hr] using hp.2
  simp only [WalletTransaction.ofTopUp, decide_eq_true_eq] at hmine
  rw [hother] at hmine
  exact absurd hmine.1 (by decide)

end BackendManager.Metering
