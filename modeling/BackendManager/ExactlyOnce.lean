import BackendManager.ClaimOwnership

/-!
# Exactly Once, Unless the Handler Fails After Its Response

Whether a response is cached or the claim is released is decided when the handler has
ended, although the response may have been delivered long before. A handler that sends a
complete answer and then raises, in a background task for instance, releases its claim,
and the retry of a request that has been answered runs the handler again.

Apart from that, and from the foreign writes of `BackendManager.ClaimOwnership`, an
answered request is safe: its key is `Sealed` from the moment its response is complete
until the claim expires. A claim that has read the clock before that may still be on its
way to its `INSERT` when the row has expired and is purged; it is the one that then runs
the handler again (`InTime` excludes it). Every other claim that was made in time is
answered, however late its statements are executed, because whatever row takes the place
of the sealed one expires later than its reading of the clock (`Renewed`).

## Main results

* `Sealed.run`: a sealed key stays sealed until its claim expires.
* `Renewed.run`: after that, rows and claims of the key are never older than its expiry.
* `answered_once`: in runs without an afterthought, without foreign writes and without a
  late `INSERT`, every request with the scope and the key of a complete response whose
  claim is made before the claim of that response expires is answered, and never runs the
  handler.
* `rerun_after_background_failure`: a handler answers, raises, and is run again.
* `rerun_after_purge`: a claim is made in time and inserts late, and the handler is run
  again.
-/

namespace BackendManager.Idempotency

open ReadCommitted Interleaving

variable {T : Type} [DecidableEq T] {S : Settings} {t u : T} {s s' : Store T}
  {c d e : Config T (Store T) (Proc T)} {a : Act} {p p' : Proc T} {req req' : Request}
  {now x : ℕ} {slot : String × String} {sent : List Message} {hash : String} {env : Env}

/-- Once it has sent a complete response that may be cached, the handler does not raise,
and sends nothing that would make the middleware discard what it has captured. -/
def NoAfterthought (S : Settings) (c : Config T (Store T) (Proc T)) (t : T) (a : Act) : Prop :=
  match a, c.proc t with
  | .raise, .running _ _ sent => Answered S.max_body_bytes sent = false
  | .send m, .running _ _ sent =>
      Answered S.max_body_bytes sent = true →
        (capture S.max_body_bytes (sent ++ [m])).discarded = false
  | _, _ => True

instance (S : Settings) (c : Config T (Store T) (Proc T)) (t : T) (a : Act) :
    Decidable (NoAfterthought S c t a) :=
  decidable_of_bool
    (match a, c.proc t with
      | .raise, .running _ _ sent => !Answered S.max_body_bytes sent
      | .send m, .running _ _ sent =>
          !Answered S.max_body_bytes sent ||
            !(capture S.max_body_bytes (sent ++ [m])).discarded
      | _, _ => true)
    (by unfold NoAfterthought; split <;> simp [Classical.or_iff_not_imp_left])

/-- The condition on the state before each step. -/
def Orderly (S : Settings) (c : Config T (Store T) (Proc T)) (t : T) (a : Act) : Prop :=
  OwnKey c t a ∧ NoAfterthought S c t a

instance (S : Settings) (c : Config T (Store T) (Proc T)) (t : T) (a : Act) :
    Decidable (Orderly S c t a) :=
  inferInstanceAs (Decidable (_ ∧ _))

/-- The `INSERT` of a claim on this key that has read the clock before `x` is executed before
`x`, or else finds that the key has a row. -/
def InTime (slot : String × String) (x : ℕ) (c : Config T (Store T) (Proc T)) (t : T)
    (a : Act) : Prop :=
  match a, c.proc t with
  | .stmt _, .insert req now =>
      req.slot = slot → now < x → c.shared.clock < x ∨ (c.shared.rows.committed slot).isSome
  | _, _ => True

instance (slot : String × String) (x : ℕ) (c : Config T (Store T) (Proc T)) (t : T) (a : Act) :
    Decidable (InTime slot x c t a) :=
  decidable_of_bool
    (match a, c.proc t with
      | .stmt _, .insert req now =>
          !decide (req.slot = slot ∧ now < x) || decide (c.shared.clock < x) ||
            (c.shared.rows.committed slot).isSome
      | _, _ => true)
    (by unfold InTime; split <;> simp [Classical.or_iff_not_imp_left])

/-- The condition on the steps after a response for this key whose claim expires at `x`. -/
def OrderlyFor (S : Settings) (slot : String × String) (x : ℕ)
    (c : Config T (Store T) (Proc T)) (t : T) (a : Act) : Prop :=
  Orderly S c t a ∧ InTime slot x c t a

instance (S : Settings) (slot : String × String) (x : ℕ) (c : Config T (Store T) (Proc T))
    (t : T) (a : Act) : Decidable (OrderlyFor S slot x c t a) :=
  inferInstanceAs (Decidable (_ ∧ _))

/-! ### Sealed keys -/

/-- The request can no longer release its claim: its response is complete, and captured. -/
def Proc.settling (S : Settings) : Proc T → Bool
  | .running _ _ sent =>
      Answered S.max_body_bytes sent && !(capture S.max_body_bytes sent).discarded
  | .complete _ _ | .completeUpdate _ _ _ | .completeCommit _ | .finished | .raised => true
  | _ => false

/-- The row of `t`, for a request with fingerprint `hash`, is in place until time `x`, and `t`
will not release it. -/
structure Sealed (S : Settings) (t : T) (slot : String × String) (hash : String) (x : ℕ)
    (c : Config T (Store T) (Proc T)) : Prop where
  granted : c.shared.granted slot = some t
  row : ∃ row, c.shared.rows.committed slot = some row ∧ row.expires_at = x ∧
    row.request_hash = hash
  settling : (c.proc t).settling S = true

/-- The clock does not run backwards. -/
theorem clock_mono (h : exec S t a s p = some (s', p')) : s.clock ≤ s'.clock := by
  rcases exec_cases h with hpriv | ⟨rfl, -⟩ | ⟨-, rfl, -⟩ | ⟨req, now, -, rfl, -⟩
  · exact hpriv.clock.ge
  · exact Nat.le_succ _
  · exact le_refl _
  · exact le_refl _

/-- A settling request remains settling: its statements neither raise the handler's
exception nor release, and no other action is an afterthought. -/
theorem Step.settling (h : Step S t c.shared a p s' p') (hproc : c.proc t = p)
    (hok : NoAfterthought S c t a) (hp : p.settling S = true) : p'.settling S = true := by
  cases h with
  | tick => exact hp
  | fail | overlong _ | load _ | update _ _ _ | unchanged | stale | leave _ | commit _ => rfl
  | send =>
      simp only [NoAfterthought, hproc] at hok
      obtain ⟨hanswered, -⟩ := Bool.and_eq_true_iff.mp hp
      simp [Proc.settling, answered_append hanswered, hok hanswered]
  | raise =>
      simp only [NoAfterthought, hproc] at hok
      simp only [Proc.settling, hok, Bool.false_and, Bool.false_eq_true] at hp
  | ret =>
      obtain ⟨-, hkept⟩ := Bool.and_eq_true_iff.mp hp
      rw [Bool.not_eq_eq_eq_not, Bool.not_true] at hkept
      rw [handlerReturns, hkept]
      rfl
  | grant hclaim =>
      cases p with
      | insertCommit _ _ | reclaimCommit _ _ => cases hp
      | _ => cases hclaim
  | vanish hinspect => rcases hinspect with rfl | ⟨id, rfl⟩ <;> cases hp
  | _ => cases hp

/-- The commit of a completion keeps the row of its key, when it expires, and for which
fingerprint it is. -/
theorem Loc.commit_complete {row : IdempotencyKey T} (hL : Loc S t s (.completeCommit req))
    (hrow : s.rows.committed slot = some row) :
    ∃ row', (s.commit t).rows.committed slot = some row' ∧
      row'.expires_at = row.expires_at ∧ row'.request_hash = row.request_hash := by
  rcases hL with hun | ⟨-, row₀, row', hrow₀, hsole, -, hexpires, -, hhash⟩
  · have hsame : (s.commit t).rows.committed = s.rows.committed := hun.committed_commit
    exact ⟨row, by rw [hsame, hrow], rfl, rfl⟩
  · have hcom : (s.commit t).rows.committed =
        Function.update s.rows.committed req.slot (some row') := hsole.committed_commit
    by_cases hslot : slot = req.slot
    · subst hslot
      obtain rfl : row₀ = row := Option.some.inj (hrow₀.symm.trans hrow)
      exact ⟨row', by rw [hcom, Function.update_self], hexpires, hhash⟩
    · exact ⟨row, by rw [hcom, Function.update_of_ne hslot, hrow], rfl, rfl⟩

/-- What a settling request does itself leaves its row in place. -/
theorem row_of_settling {row : IdempotencyKey T} (hL : Loc S t s p)
    (hp : p.settling S = true) (hg : s.granted slot = some t)
    (hrow : s.rows.committed slot = some row) (h : exec S t a s p = some (s', p')) :
    s'.granted slot = some t ∧
      ∃ row', s'.rows.committed slot = some row' ∧ row'.expires_at = row.expires_at ∧
        row'.request_hash = row.request_hash := by
  rcases exec_cases h with hpriv | ⟨rfl, -⟩ | ⟨hcommit, rfl, -⟩ | ⟨req, now, hclaim, -⟩
  · exact ⟨by rw [hpriv.granted, hg], row, by rw [hpriv.rows.committed, hrow], rfl, rfl⟩
  · exact ⟨hg, row, hrow, rfl, rfl⟩
  · refine ⟨hg, ?_⟩
    cases p with
    | completeCommit req => exact hL.commit_complete hrow
    | releaseCommit req | purgeCommit => cases hp
    | _ => cases hcommit
  · cases p with
    | insertCommit _ _ | reclaimCommit _ _ => cases hp
    | _ => cases hclaim

/-- **One step.** A sealed key stays sealed as long as its claim lasts. -/
theorem Sealed.step (hs : Sealed S t slot hash x c) (hL : ∀ v, Loc S v c.shared (c.proc v))
    (hok : NoAfterthought S c u a) (h : (program S).step c u a = some d)
    (hx : d.shared.clock < x) : Sealed S t slot hash x d := by
  obtain ⟨g, l, hexec, rfl⟩ := Program.step_eq_some_iff.mp h
  obtain ⟨row, hrow, rfl, rfl⟩ := hs.row
  by_cases hu : t = u
  · subst hu
    obtain ⟨hg, hrow'⟩ := row_of_settling (hL t) hs.settling hs.granted hrow hexec
    exact ⟨hg, hrow', by simpa using (step_of_exec hexec).settling rfl hok hs.settling⟩
  · obtain ⟨hg, hrow'⟩ := (undisturbed_of_exec (hL u) hexec hu).live hs.granted hrow hx
    exact ⟨hg, ⟨row, hrow', rfl, rfl⟩, by simpa [Function.update_of_ne hu] using hs.settling⟩

/-- **A run.** The same along every orderly run that ends before the claim expires. -/
theorem Sealed.run (hrun : (program S).Run (Orderly S) init c) (hs : Sealed S t slot hash x c)
    (h : (program S).Run (Orderly S) c d) (hx : d.shared.clock < x) :
    Sealed S t slot hash x d := by
  induction h with
  | refl => exact hs
  | step hce hok hstep ih =>
      obtain ⟨g, l, hexec, rfl⟩ := Program.step_eq_some_iff.mp hstep
      have hrun' := (hrun.trans hce).mono fun _ _ _ h => h.1
      exact (ih ((clock_mono hexec).trans_lt hx)).step (claims_of_run hrun').2 hok.2 hstep hx

/-- The key of a running handler whose response is complete is sealed. -/
theorem sealed_of_delivered (hL : Loc S t c.shared (c.proc t))
    (hp : c.proc t = .running req x sent) (hd : Delivered S.max_body_bytes sent = true)
    (hx : c.shared.clock < x) : Sealed S t req.slot req.request_hash x c := by
  rw [hp] at hL
  obtain ⟨-, hown, hlive⟩ := hL
  obtain ⟨hg, row, hrow, hexpires⟩ := hlive hx
  refine ⟨hg, ⟨row, hrow, hexpires, (hown hg row hrow).1⟩, ?_⟩
  simp [hp, Proc.settling, answered_of_delivered hd, not_discarded_of_delivered hd]

/-! ### Rows and claims after the expiry -/

/-- No row of the key expires before `x`, and no claim that is about to commit has read the
clock before `x`. -/
structure Renewed (slot : String × String) (x : ℕ) (c : Config T (Store T) (Proc T)) : Prop where
  row : ∀ row, c.shared.rows.committed slot = some row → x ≤ row.expires_at
  claim : ∀ u req now, (c.proc u).claiming = some (req, now) → req.slot = slot → x ≤ now

/-- A sealed key has its own row, and no claim is about to replace it. -/
theorem Sealed.renewed (hs : Sealed S t slot hash x c)
    (hL : ∀ v, Loc S v c.shared (c.proc v)) : Renewed slot x c := by
  obtain ⟨row, hrow, hexpires, -⟩ := hs.row
  constructor
  · intro row' hrow'
    obtain rfl : row = row' := Option.some.inj (hrow.symm.trans hrow')
    exact hexpires.ge
  · rintro u req now hclaim rfl
    obtain ⟨-, hold, -⟩ := (hL u).claim hclaim
    exact hexpires ▸ hold row hrow

/-- A request that is about to commit its claim after this step has read the clock at `x` or
later: it found the key without a row, or with one that it saw expired. -/
theorem Step.renewed_claim (h : Step S t c.shared a p s' p') (hproc : c.proc t = p)
    (hun : ∀ now, p = .insert req now ∨ (∃ id, p = .inspectLock req now id) →
      c.shared.rows.Untouched t)
    (hr : Renewed slot x c) (hslot : req.slot = slot)
    (hsealed : c.shared.clock < x → (c.shared.rows.committed slot).isSome)
    (hok : InTime slot x c t a) (hclaim : p'.claiming = some (req, now)) : x ≤ now := by
  cases h with
  | tick => exact hr.claim t req now (by rw [hproc, hclaim]) hslot
  | @insert env req₀ now₀ s' hfree hput =>
      obtain ⟨rfl, rfl⟩ := Prod.mk.inj (Option.some.inj hclaim)
      rw [(hun now₀ (.inl rfl)).view, hslot] at hfree
      by_contra hlt
      have hrow : (c.shared.rows.committed slot).isSome := by
        simp only [InTime, hproc] at hok
        exact (hok hslot (Nat.lt_of_not_le hlt)).elim hsealed id
      rw [hfree] at hrow
      cases hrow
  | @reclaim env req₀ now₀ id record s' hrow hexpired hput =>
      obtain ⟨rfl, rfl⟩ := Prod.mk.inj (Option.some.inj hclaim)
      rw [(hun now₀ (.inr ⟨id, rfl⟩)).view, hslot] at hrow
      exact (hr.row record hrow).trans hexpired
  | ret =>
      rw [handlerReturns] at hclaim
      split at hclaim <;> cases hclaim
  | _ => cases hclaim

/-- What a step commits to the key expires at `x` or later. -/
theorem Renewed.row_of_exec (hr : Renewed slot x c) (hL : Loc S t c.shared (c.proc t))
    (h : exec S t a c.shared (c.proc t) = some (s', p')) (row : IdempotencyKey T)
    (hrow : s'.rows.committed slot = some row) : x ≤ row.expires_at := by
  rcases exec_cases h with hpriv | ⟨rfl, -⟩ | ⟨hp, rfl, -⟩ | ⟨req, now, hp, rfl, -⟩
  · exact hr.row row (by rw [← hpriv.rows.committed, hrow])
  · exact hr.row row hrow
  · rcases hL.commit_cases hp slot with hsame | ⟨-, row₀, hrow₀, hnew⟩ | ⟨-, hnone, -⟩
    · exact hr.row row (hsame ▸ hrow)
    · rw [(hnew row hrow).2.1]
      exact hr.row row₀ hrow₀
    · rw [hnone] at hrow
      cases hrow
  · obtain ⟨-, -, row', hsole, hfresh⟩ := hL.claim hp
    rw [grant_committed hsole] at hrow
    by_cases hslot : slot = req.slot
    · rw [hslot, Function.update_self, Option.some.injEq] at hrow
      rw [← hrow, hfresh.expires_at]
      exact (hr.claim t req now hp hslot.symm).trans (Nat.le_add_right _ _)
    · rw [Function.update_of_ne hslot] at hrow
      exact hr.row row hrow

/-- A claim that has not written anything. -/
theorem Loc.untouched_claim (hL : Loc S t s p)
    (hp : p = .insert req now ∨ ∃ id, p = .inspectLock req now id) : s.rows.Untouched t := by
  rcases hp with rfl | ⟨id, rfl⟩ <;> exact hL.1

/-- **One step.** Rows and claims of the key stay renewed. -/
theorem Renewed.step (hr : Renewed slot x c) (hL : ∀ v, Loc S v c.shared (c.proc v))
    (hsealed : c.shared.clock < x → (c.shared.rows.committed slot).isSome)
    (hok : InTime slot x c t a) (h : (program S).step c t a = some d) : Renewed slot x d := by
  obtain ⟨g, l, hexec, rfl⟩ := Program.step_eq_some_iff.mp h
  refine ⟨hr.row_of_exec (hL t) hexec, fun u req now hclaim hslot => ?_⟩
  by_cases hu : u = t
  · subst hu
    simp only [Function.update_self] at hclaim
    exact (step_of_exec hexec).renewed_claim rfl (fun _ hp => (hL u).untouched_claim hp) hr hslot
      hsealed hok hclaim
  · simp only [Function.update_of_ne hu] at hclaim
    exact hr.claim u req now hclaim hslot

/-- The key of a complete response, along any continuation: sealed as long as its claim lasts,
and renewed at all times. -/
theorem Renewed.run (hrun : (program S).Run (Orderly S) init c) (hs : Sealed S t slot hash x c)
    (h : (program S).Run (OrderlyFor S slot x) c d) : Renewed slot x d := by
  induction h with
  | refl => exact hs.renewed (claims_of_run (hrun.mono fun _ _ _ h => h.1)).2
  | @step d e t' a hcd hok hstep ih =>
      have hcd' : (program S).Run (Orderly S) c d := hcd.mono fun _ _ _ h => h.1
      have hL := (claims_of_run ((hrun.trans hcd').mono fun _ _ _ h => h.1)).2
      refine ih.step hL (fun hx => ?_) hok.2 hstep
      obtain ⟨row, hrow, -⟩ := (hs.run hrun hcd' hx).row
      rw [hrow]
      rfl

/-! ### The answer -/

/-- How many statements of its claim a request has before its answer, at most. -/
def Proc.pending : Proc T → ℕ
  | .insert _ _ => 3
  | .inspect _ _ => 2
  | .inspectLock _ _ _ => 1
  | _ => 0

omit [DecidableEq T] in
/-- A request that is asking has a statement before it. -/
theorem Proc.pending_pos (hp : p.asking = some (req, now)) : 0 < p.pending := by
  cases p with
  | insert _ _ | inspect _ _ | inspectLock _ _ _ => exact Nat.succ_pos _
  | _ => cases hp

/-- A claim that is past its `INSERT` has a key that its column holds. -/
def Proc.Fits : Proc T → Prop
  | .insertCommit req _ | .inspect req _ | .inspectLock req _ _ | .reclaimCommit req _
  | .running req _ _ => Text.Storable 255 req.key
  | _ => True

/-- **One step** keeps it: a claim with a longer key is refused at its `INSERT`. -/
theorem fits_of_exec (h : exec S t a s p = some (s', p')) (hp : p.Fits) : p'.Fits := by
  by_cases hinsert : ∃ req now, p = .insert req now
  · obtain ⟨req, now, rfl⟩ := hinsert
    cases a with
    | tick =>
        rw [← (Prod.mk.inj (Option.some.inj h)).2]
        exact trivial
    | fail =>
        rw [← (Prod.mk.inj (Option.some.inj h)).2]
        exact trivial
    | stmt env =>
        have hinsert : insertRow S t env req now s = some (s', p') := h
        by_cases hkey : Text.Storable 255 req.key
        · rcases insertRow_cases hinsert with ⟨rows, -, -, -, rfl⟩ | ⟨-, -, rfl⟩ | ⟨-, -, rfl⟩
          · exact hkey
          · exact hkey
          · exact trivial
        · rw [insertRow, if_neg hkey] at hinsert
          rw [← (Prod.mk.inj (Option.some.inj hinsert)).2]
          exact trivial
    | _ => cases h
  · cases step_of_exec h with
    | insert _ _ | collide | overlong _ => exact absurd ⟨_, _, rfl⟩ hinsert
    | tick | send | inspect | reclaim _ _ _ => exact hp
    | grant hgrant =>
        cases p with
        | insertCommit _ _ | reclaimCommit _ _ =>
            obtain ⟨rfl, rfl⟩ := Prod.mk.inj (Option.some.inj hgrant)
            exact hp
        | _ => cases hgrant
    | ret =>
        rw [handlerReturns]
        split <;> exact trivial
    | _ => exact trivial

/-- What becomes of a claim: it stands still while the clock advances, fails, comes closer to its
answer, is about to be committed, or is answered: 409, or what the row of its key says. -/
theorem Step.of_asking (h : Step S t s a p s' p') (hp : p.asking = some (req, now)) :
    (a = .tick ∧ p' = p) ∨ ((a = .fail ∨ ¬ Text.Storable 255 req.key) ∧ p' = .raised) ∨
      (p'.asking = some (req, now) ∧ p'.pending < p.pending) ∨
      p'.claiming = some (req, now) ∨ p' = .answered req .in_progress ∨
      ∃ id record, p = .inspectLock req now id ∧ s.rows.view t req.slot = some record ∧
        p' = .answered req (inspectResult req record) := by
  cases h with
  | tick => exact .inl ⟨rfl, rfl⟩
  | fail => exact .inr (.inl ⟨.inl rfl, rfl⟩)
  | overlong hlong =>
      obtain ⟨rfl, rfl⟩ := Prod.mk.inj (Option.some.inj hp)
      exact .inr (.inl ⟨.inr hlong, rfl⟩)
  | insert _ _ | reclaim _ _ _ => exact .inr (.inr (.inr (.inl hp)))
  | collide | inspect =>
      obtain ⟨rfl, rfl⟩ := Prod.mk.inj (Option.some.inj hp)
      exact .inr (.inr (.inl ⟨rfl, Nat.lt_succ_self _⟩))
  | vanish hinspect =>
      rcases hinspect with rfl | ⟨id, rfl⟩ <;>
        obtain ⟨rfl, rfl⟩ := Prod.mk.inj (Option.some.inj hp) <;>
        exact .inr (.inr (.inr (.inr (.inl rfl))))
  | answer hrow =>
      obtain ⟨rfl, rfl⟩ := Prod.mk.inj (Option.some.inj hp)
      exact .inr (.inr (.inr (.inr (.inr ⟨_, _, rfl, hrow, rfl⟩))))
  | grant hgrant =>
      cases p with
      | insert _ _ | inspect _ _ | inspectLock _ _ _ => cases hgrant
      | _ => cases hp
  | commit hcommit =>
      cases p with
      | insert _ _ | inspect _ _ | inspectLock _ _ _ => cases hcommit
      | _ => cases hp
  | leave hleave => rcases hleave with rfl | ⟨response, rfl⟩ <;> cases hp
  | _ => cases hp

/-- A request that has ended does nothing more. -/
theorem exec_of_ended (hp : p.ended = true) (h : exec S t a s p = some (s', p')) : p' = p := by
  cases a with
  | tick => exact (Prod.mk.inj (Option.some.inj h)).2.symm
  | fail => simp [exec, hp] at h
  | claim _ | purge | send _ | ret | raise | stmt _ =>
      cases p with
      | answered _ _ | finished | raised => cases h
      | _ => cases hp

/-- The answer to a request with the content of the sealed response: that response, or 409 as
long as it is not stored. -/
def Repeats (req : Request) (result : ClaimResult) : Prop :=
  result = .in_progress ∨
    ∃ cached, result = .replay cached ∧ cached.produced_for = some req.request_hash

/-- The request has claimed at time `now`, and has not been granted the key: it is on its way to
its answer, or has it, or has failed itself. An answer before `x` to a request with fingerprint
`hash` repeats the response. -/
def Asked (req : Request) (hash : String) (now x : ℕ) (s : Store T) (p : Proc T) : Prop :=
  p.asking = some (req, now) ∨ p = .raised ∨ ∃ result, p = .answered req result ∧
    (s.clock < x → req.request_hash = hash → Repeats req result)

omit [DecidableEq T] in
/-- What a request has been answered does not change as time goes on. -/
theorem Asked.mono (h : Asked req hash now x s p) (hclock : s.clock ≤ s'.clock) :
    Asked req hash now x s' p := by
  rcases h with h | h | ⟨result, h, hresult⟩
  · exact .inl h
  · exact .inr (.inl h)
  · exact .inr (.inr ⟨result, h, fun hx => hresult (hclock.trans_lt hx)⟩)

/-- What a claim on a sealed key is answered. -/
theorem repeats_of_inspectResult (hL : Loc S t s (.answered req (inspectResult req record)))
    (hhash : record.request_hash = req.request_hash) :
    Repeats req (inspectResult req record) := by
  have hsame : ¬ record.request_hash ≠ req.request_hash := not_not.mpr hhash
  by_cases hstatus : record.status = .completed
  · rw [inspectResult, if_neg hsame, if_pos hstatus] at hL ⊢
    exact .inr ⟨record.cached, rfl, hL.2⟩
  · rw [inspectResult, if_neg hsame, if_neg hstatus]
    exact .inl rfl

/-- **One step** of any request leaves a claim that was made in time without the key. -/
theorem Asked.step (h : Asked req hash now x c.shared (c.proc u)) (hslot : req.slot = slot)
    (hL : ∀ v, Loc S v c.shared (c.proc v)) (hL' : ∀ v, Loc S v d.shared (d.proc v))
    (hr : Renewed slot x d) (hnow : now < x)
    (hsealed : c.shared.clock < x → ∃ row, c.shared.rows.committed slot = some row ∧
      row.request_hash = hash)
    (hstep : (program S).step c t a = some d) : Asked req hash now x d.shared (d.proc u) := by
  obtain ⟨s', p', hexec, rfl⟩ := Program.step_eq_some_iff.mp hstep
  have hclock : c.shared.clock ≤ s'.clock := clock_mono hexec
  by_cases hu : u = t
  swap
  · simpa only [Function.update_of_ne hu] using h.mono hclock
  subst hu
  have hLu := hL' u
  have hclaim := hr.claim u req now
  simp only [Function.update_self] at hLu hclaim ⊢
  rcases h with h | h | ⟨result, h, hresult⟩
  · rcases (step_of_exec hexec).of_asking h with ⟨-, rfl⟩ | ⟨-, rfl⟩ | ⟨h', -⟩ | h' |
      rfl | ⟨id, record, hp, hrow, rfl⟩
    · exact .inl h
    · exact .inr (.inl rfl)
    · exact .inl h'
    · exact absurd (hclaim h' hslot) (Nat.not_le_of_lt hnow)
    · exact .inr (.inr ⟨_, rfl, fun _ _ => .inl rfl⟩)
    · refine .inr (.inr ⟨_, rfl, fun hx hhash => repeats_of_inspectResult hLu ?_⟩)
      obtain ⟨row, hrow', hrowhash⟩ := hsealed (hclock.trans_lt hx)
      have hun : c.shared.rows.Untouched u := by
        have hLc := hL u
        rw [hp] at hLc
        exact hLc.1
      rw [hun.view, hslot] at hrow
      obtain rfl : row = record := Option.some.inj (hrow'.symm.trans hrow)
      rw [hrowhash, hhash]
  · rw [h] at hexec
    exact .inr (.inl (exec_of_ended rfl hexec))
  · rw [h] at hexec
    obtain rfl := exec_of_ended rfl hexec
    exact .inr (.inr ⟨result, rfl, fun hx => hresult (hclock.trans_lt hx)⟩)

/-- **The next statement** of a claim that was made in time brings it closer to its answer: the key
fits its column, and the claim is not about to be committed. -/
theorem pending_lt_of_stmt (hasking : p.asking = some (req, now))
    (hkey : Text.Storable 255 req.key) (hclaim : p'.claiming = some (req, now) → x ≤ now)
    (hnow : now < x) (hexec : exec S t (.stmt env) s p = some (s', p')) :
    p'.pending < p.pending ∧ p' ≠ .raised := by
  have hpos := Proc.pending_pos hasking
  have hcases : Step S t s (.stmt env) p s' p' := step_of_exec hexec
  rcases hcases.of_asking hasking with ⟨htick, -⟩ | ⟨hfail | hlong, -⟩ | ⟨hask', hlt⟩ | h' |
    rfl | ⟨id, record, -, -, rfl⟩
  · cases htick
  · cases hfail
  · exact absurd hkey hlong
  · refine ⟨hlt, ?_⟩
    rintro rfl
    cases hask'
  · exact absurd (hclaim h') (Nat.not_le_of_lt hnow)
  · exact ⟨hpos, fun hraised => by cases hraised⟩
  · exact ⟨hpos, fun hraised => by cases hraised⟩

/-- **Answered once.** Take an orderly run to a configuration in which an owned handler has
sent a complete response that may be cached, before its claim expires at `x`. Take any other
request with the same scope and key whose claim has read the clock before `x`, in any orderly
continuation in which no such claim inserts late. Then at every later time the request has its
answer (before `x`, and if it has the same content, the cached response or 409), or has failed
itself, or is at most three statements before its answer, each of which it can execute unless
another request has locked the row, and none of which fails by itself. In particular its handler
is never run. -/
theorem answered_once (h : (program S).Run (Orderly S) init c)
    (hp : c.proc t = .running req x sent) (hd : Delivered S.max_body_bytes sent = true)
    (hx : c.shared.clock < x) (hcd : (program S).Run (OrderlyFor S req.slot x) c d)
    (hask : (d.proc u).asking = some (req', now)) (hnow : now < x) (hslot : req'.slot = req.slot)
    (hde : (program S).Run (OrderlyFor S req.slot x) d e) :
    (∃ result, e.proc u = .answered req' result ∧
      (e.shared.clock < x → req'.request_hash = req.request_hash → Repeats req' result)) ∨
    e.proc u = .raised ∨
    (0 < (e.proc u).pending ∧
      (e.shared.rows.free u req.slot = true →
        ∀ env, ((program S).step e u (.stmt env)).isSome) ∧
      ∀ env f, OrderlyFor S req.slot x e u (.stmt env) →
        (program S).step e u (.stmt env) = some f →
          (f.proc u).pending < (e.proc u).pending ∧ f.proc u ≠ .raised) := by
  have hmono : ∀ {c d : Config T (Store T) (Proc T)},
      (program S).Run (OrderlyFor S req.slot x) c d → (program S).Run (Orderly S) c d :=
    fun hrun => hrun.mono fun _ _ _ h => h.1
  have hloc : ∀ {d : Config T (Store T) (Proc T)}, (program S).Run (OrderlyFor S req.slot x) c d →
      ∀ v, Loc S v d.shared (d.proc v) :=
    fun hrun => (claims_of_run ((h.trans (hmono hrun)).mono fun _ _ _ h => h.1)).2
  have hsealed := sealed_of_delivered (hloc (.refl c) t) hp hd hx
  -- the key has been inserted once, so that its column holds it
  have hfits : Text.Storable 255 req.key := by
    have hfits : (c.proc t).Fits := h.proc fits_of_exec trivial
    rwa [hp] at hfits
  have hkey : req.key = req'.key := (congrArg Prod.snd hslot).symm
  have hrow : ∀ {d : Config T (Store T) (Proc T)},
      (program S).Run (OrderlyFor S req.slot x) c d → d.shared.clock < x →
      ∃ row, d.shared.rows.committed req.slot = some row ∧ row.request_hash = req.request_hash := by
    intro d hrun hd
    obtain ⟨row, hrow, -, hhash⟩ := (hsealed.run h (hmono hrun) hd).row
    exact ⟨row, hrow, hhash⟩
  have hasked : Asked req' req.request_hash now x e.shared (e.proc u) := by
    induction hde with
    | refl => exact .inl hask
    | step hrun hok hstep ih =>
        have hrun' := hcd.trans hrun
        have hnext := hrun'.step hok hstep
        exact ih.step hslot (hloc hrun') (hloc hnext) (Renewed.run h hsealed hnext) hnow
          (hrow hrun') hstep
  rcases hasked with hasking | hraised | hanswer
  · refine .inr (.inr ⟨Proc.pending_pos hasking, fun hfree env => ?_, fun env f hok hstep => ?_⟩)
    · rw [Program.step, Option.isSome_map]
      exact isSome_of_asking hasking (by rw [hslot, hfree])
    · have hrenewed := Renewed.run h hsealed ((hcd.trans hde).step hok hstep)
      obtain ⟨s', p', hexec, rfl⟩ := Program.step_eq_some_iff.mp hstep
      have hclaim := hrenewed.claim u req' now
      simp only [Function.update_self] at hclaim ⊢
      exact pending_lt_of_stmt hasking (hkey ▸ hfits) (fun h' => hclaim h' hslot) hnow hexec
  · exact .inr (.inl hraised)
  · exact .inl hanswer

/-! ### Three schedules -/

/-- A response is sent, and its key is claimed by a retry. -/
def answeredThenClaimed : List (Fin 2 × Act) :=
  firstRequest 0 "h" ++ [(0, .send (.start 200 [])), (0, .send (.body [120] false))]

set_option maxRecDepth 10000 in
/-- A request is answered and its response is stored; its retry is answered with it. -/
theorem answered_once_retry :
    ∃ c d e : Config (Fin 2) (Store (Fin 2)) (Proc (Fin 2)),
      (program shortLease).Run (Orderly shortLease) init c ∧
        c.proc 0 = .running ⟨"scope", "key", "h"⟩ 2 [.start 200 [], .body [120] false] ∧
        (program shortLease).Run (OrderlyFor shortLease ("scope", "key") 2) c d ∧
        d.proc 1 = .insert ⟨"scope", "key", "h"⟩ 0 ∧
        (program shortLease).Run (OrderlyFor shortLease ("scope", "key") 2) d e ∧
        ∃ cached, e.proc 1 = .answered ⟨"scope", "key", "h"⟩ (.replay cached) ∧
          cached.produced_for = some "h" := by
  have hreplay : ((program shortLease).replay (Orderly shortLease) init answeredThenClaimed).any
      (fun c =>
        decide (c.proc 0 = .running ⟨"scope", "key", "h"⟩ 2 [.start 200 [], .body [120] false]) &&
        decide (c.shared.clock < 2) &&
        ((program shortLease).replay (OrderlyFor shortLease ("scope", "key") 2) c
          [(0, .ret), (0, next 1), (0, next 1), (0, next 1), (1, .claim ⟨"scope", "key", "h"⟩)]).any
          fun d => decide (d.proc 1 = .insert ⟨"scope", "key", "h"⟩ 0) &&
            ((program shortLease).replay (OrderlyFor shortLease ("scope", "key") 2) d
              [(1, next 2), (1, next 2), (1, next 2)]).any fun e =>
                decide (e.shared.clock < 2) && decide (e.proc 1 = .answered
                  ⟨"scope", "key", "h"⟩ (.replay ⟨200, [], [120], some "h"⟩))) = true := by
    decide
  obtain ⟨c, hrun, hp⟩ := Program.exists_run_of_replay hreplay
  simp only [Bool.and_eq_true, decide_eq_true_eq, Option.any_eq_true] at hp
  obtain ⟨⟨hproc, hclock⟩, d, hcd, hinsert, e, hde, hlate, hanswer⟩ := hp
  have hcd := Program.run_of_replay hcd
  have hde := Program.run_of_replay hde
  refine ⟨c, d, e, hrun, hproc, hcd, hinsert, hde, ?_⟩
  have hasking : (d.proc 1).asking = some (⟨"scope", "key", "h"⟩, 0) := by rw [hinsert]; rfl
  rcases answered_once hrun hproc (by decide) hclock hcd hasking (by decide) rfl hde with
    ⟨result, hresult, hrepeats⟩ | hraised | ⟨hpending, -⟩
  · rw [hanswer] at hresult
    obtain ⟨-, rfl⟩ := Proc.answered.inj hresult
    rcases hrepeats hlate rfl with hfalse | ⟨cached, hcached, hfor⟩
    · cases hfalse
    · exact ⟨cached, by rw [hanswer, hcached], hfor⟩
  · rw [hanswer] at hraised
    cases hraised
  · rw [hanswer] at hpending
    cases hpending

set_option maxRecDepth 10000 in
/-- Without the condition on late inserts: a claim reads the clock before the expiry, the expired
row is purged, and the claim inserts and runs the handler of an answered request again. -/
theorem rerun_after_purge :
    ∃ (c d : Config (Fin 3) (Store (Fin 3)) (Proc (Fin 3))) (sent : List Message),
      (program shortLease).Run (Orderly shortLease) init c ∧ c.shared.clock < 2 ∧
        c.proc 0 = .running ⟨"scope", "key", "h"⟩ 2 sent ∧
        Delivered shortLease.max_body_bytes sent = true ∧
        c.proc 1 = .insert ⟨"scope", "key", "h"⟩ 0 ∧
        (program shortLease).Run (Orderly shortLease) c d ∧
        d.proc 1 = .running ⟨"scope", "key", "h"⟩ 2 [] := by
  have hreplay : ((program shortLease).replay (Orderly shortLease) init
      (firstRequest (0 : Fin 3) "h" ++ [(0, .send (.start 200 [])), (0, .send (.body [120] false)),
        (1, .claim ⟨"scope", "key", "h"⟩)])).any (fun c =>
          decide (c.shared.clock < 2) &&
          decide (c.proc 0 = .running ⟨"scope", "key", "h"⟩ 2
            [.start 200 [], .body [120] false]) &&
          decide (c.proc 1 = .insert ⟨"scope", "key", "h"⟩ 0) &&
          ((program shortLease).replay (Orderly shortLease) c
            [(0, .ret), (0, next 1), (0, next 1), (0, next 1), (0, .tick), (0, .tick), (2, .purge),
              (2, next 1), (2, .stmt ⟨Uuid.ofNat 1, ("scope", "key"), Uuid.ofNat 1⟩), (2, next 1),
              (2, next 1), (1, next 2), (1, next 2)]).any fun d =>
              decide (d.proc 1 = .running ⟨"scope", "key", "h"⟩ 2 [])) = true := by
    decide
  obtain ⟨c, hrun, hp⟩ := Program.exists_run_of_replay hreplay
  simp only [Bool.and_eq_true, decide_eq_true_eq, Option.any_eq_true] at hp
  obtain ⟨⟨⟨hclock, hproc⟩, hinsert⟩, d, hcd, hd⟩ := hp
  exact ⟨c, d, _, hrun, hclock, hproc, by decide, hinsert, Program.run_of_replay hcd, hd⟩

set_option maxRecDepth 10000 in
/-- The handler has answered and then raises in a background task: its claim is released,
and the retry of the same request, long before the claim would have expired, is granted
the key and runs the handler again. -/
theorem rerun_after_background_failure :
    ∃ (c d e : Config (Fin 2) (Store (Fin 2)) (Proc (Fin 2))) (sent : List Message),
      (program shortLease).Run Any init c ∧
        c.proc 0 = .running ⟨"scope", "key", "h"⟩ 2 sent ∧
        Delivered shortLease.max_body_bytes sent = true ∧
        (program shortLease).Run Any c d ∧ d.shared.clock < 2 ∧
        (program shortLease).step d 1 (next 2) = some e ∧
        (∀ y sent', d.proc 1 ≠ .running ⟨"scope", "key", "h"⟩ y sent') ∧
        e.proc 1 = .running ⟨"scope", "key", "h"⟩ 2 [] := by
  have hreplay : ((program shortLease).replay Any init
      (firstRequest (0 : Fin 2) "h" ++ [(0, .send (.start 200 [])),
        (0, .send (.body [120] false))])).any (fun c =>
          decide (c.proc 0 = .running ⟨"scope", "key", "h"⟩ 2
            [.start 200 [], .body [120] false]) &&
          ((program shortLease).replay Any c
            [(0, .raise), (0, next 1), (0, next 1), (0, next 1),
              (1, .claim ⟨"scope", "key", "h"⟩), (1, next 2)]).any fun d =>
              decide (d.shared.clock < 2 ∧
                d.proc 1 = .insertCommit ⟨"scope", "key", "h"⟩ 0) &&
              ((program shortLease).step d 1 (next 2)).any fun e =>
                e.proc 1 = .running ⟨"scope", "key", "h"⟩ 2 []) = true := by
    decide
  obtain ⟨c, hrun, hp⟩ := Program.exists_run_of_replay hreplay
  simp only [Bool.and_eq_true, decide_eq_true_eq, Option.any_eq_true] at hp
  obtain ⟨hproc, d, hcd, ⟨hclock, hinsert⟩, e, hstep, he⟩ := hp
  refine ⟨c, d, e, _, hrun, hproc, by decide, Program.run_of_replay hcd, hclock, hstep,
    fun y sent h => ?_, he⟩
  rw [hinsert] at h
  cases h

end BackendManager.Idempotency
