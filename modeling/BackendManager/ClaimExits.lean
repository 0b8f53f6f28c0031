import BackendManager.ClaimOwnership

/-!
# Every Exit of an Owner

A request that owns a key leaves the middleware in one of many ways: the handler returns
and its response is stored, or is not final and the claim is released; the handler raises
an `Exception` and the claim is released; the task is cancelled, which no `except
Exception` sees; or `complete` or `release` themselves are cut short. This module says what
is left in the table after each of them.

As long as its key is its own, nobody but the request itself touches its row
(`Undisturbed.own`), so that a row it has loaded is still the row it writes. What each
statement of `complete` and `release` has done is recorded in `Exit`, from the end of the
handler on.

## Main results

* `own_of_run`: the row of an owner that has not left is its unfinished claim.
* `claim_settled_iff`: in every run in which no owner is cut short while its row is there, the
  row of every request that has left is gone, or completed with the response of its run;
  and a next step in which a request leaves has this effect exactly if it is no such cut.
* `wedged_by_cancellation`: a cancelled handler leaves its row, and its retry is answered
  with a conflict.
-/

namespace BackendManager.Idempotency

open ReadCommitted Interleaving

variable {T : Type} [DecidableEq T] {S : Settings} {t u : T} {s s' : Store T}
  {c d : Config T (Store T) (Proc T)} {a : Act} {p p' : Proc T} {req req' : Request} {now x : ℕ}
  {row record : IdempotencyKey T} {response : ResponseCapture} {id : Uuid} {env : Env}
  {moves more : List (Program.Move T (Store T) (Proc T) Act)}

/-- The claim with which a request is on the owned path of the middleware. -/
def Proc.owner : Proc T → Option Request
  | .running req _ _ | .complete req _ | .completeUpdate req _ _ | .completeCommit req
  | .release req | .releaseDelete req _ | .releaseCommit req => some req
  | _ => none

/-- A cancellation of an owner, or a failure of its `complete` or `release`, comes when its
row is no longer there: the condition on the state before each step. -/
def SparesClaim (c : Config T (Store T) (Proc T)) (t : T) (a : Act) : Prop :=
  match a, (c.proc t).owner with
  | .fail, some req =>
      c.shared.granted req.slot = some t → c.shared.rows.committed req.slot = none
  | _, _ => True

instance (c : Config T (Store T) (Proc T)) (t : T) (a : Act) :
    Decidable (SparesClaim c t a) :=
  decidable_of_bool
    (match a, (c.proc t).owner with
      | .fail, some req =>
          c.shared.granted req.slot ≠ some t || (c.shared.rows.committed req.slot).isNone
      | _, _ => true)
    (by unfold SparesClaim; split <;> simp [or_iff_not_imp_left])

/-- The two conditions together. -/
def Settling (c : Config T (Store T) (Proc T)) (t : T) (a : Act) : Prop :=
  OwnKey c t a ∧ SparesClaim c t a

instance (c : Config T (Store T) (Proc T)) (t : T) (a : Act) : Decidable (Settling c t a) :=
  inferInstanceAs (Decidable (_ ∧ _))

/-- The handler of `t` has run for `req`. -/
def Owned (moves : List (Program.Move T (Store T) (Proc T) Act)) (t : T) (req : Request) : Prop :=
  ∃ m ∈ moves, m.thread = t ∧ ∃ x sent, m.before.proc t = .running req x sent

/-- The handler of `t` has run for `req` and has returned with this response. -/
def RunResponse (S : Settings) (moves : List (Program.Move T (Store T) (Proc T) Act)) (t : T)
    (req : Request) (response : ResponseCapture) : Prop :=
  ∃ m ∈ moves, m.thread = t ∧ m.action = .ret ∧ ∃ x sent,
    m.before.proc t = .running req x sent ∧ response = capture S.max_body_bytes sent

/-- The row is completed with a response. -/
structure IdempotencyKey.Holds (row : IdempotencyKey T) (response : ResponseCapture) :
    Prop where
  status : row.status = .completed
  response_status : row.response_status = some response.status
  response_headers : row.response_headers = some (stored response.headers)
  response_body : row.response_body = some response.body

/-- The row of the claim of `t` is gone, or it is completed with the response of its run. -/
def Settled (S : Settings) (moves : List (Program.Move T (Store T) (Proc T) Act)) (s : Store T)
    (t : T) (req : Request) : Prop :=
  ∀ row, s.rows.committed req.slot = some row → row.claimed_by = t →
    ∃ response, RunResponse S moves t req response ∧ row.Holds response

/-! ### The statements of `complete` and `release` -/

/-- The SELECT of `complete` loads the row, or there is none. -/
theorem stmt_complete_cases
    (h : stmt S t env s (.complete req response) = some (s', p')) :
    (s.rows.view t req.slot = none ∧ s' = s.rollback t ∧ p' = .finished) ∨
      ∃ record, s.rows.view t req.slot = some record ∧ s' = s ∧
        p' = .completeUpdate req response record := by
  simp only [stmt, Option.some.injEq] at h
  split at h <;> obtain ⟨rfl, rfl⟩ := Prod.mk.inj h
  · rename_i hnone
    exact .inl ⟨hnone, rfl, rfl⟩
  · rename_i record hrow
    exact .inr ⟨record, hrow, rfl, rfl⟩

/-- The SELECT of `release` loads an unfinished row, or there is none. -/
theorem stmt_release_cases (h : stmt S t env s (.release req) = some (s', p')) :
    ((∀ record, s.rows.view t req.slot = some record → record.status ≠ .in_progress) ∧
        s' = s.rollback t ∧ p' = .finished) ∨
      ∃ record, s.rows.view t req.slot = some record ∧ s' = s ∧
        p' = .releaseDelete req record.id := by
  simp only [stmt, Option.some.injEq] at h
  split at h
  · rename_i hnone
    obtain ⟨rfl, rfl⟩ := Prod.mk.inj h
    refine .inl ⟨fun record hrow => ?_, rfl, rfl⟩
    rw [hnone] at hrow
    cases hrow
  · rename_i record hrow
    split at h <;> obtain ⟨rfl, rfl⟩ := Prod.mk.inj h
    · exact .inr ⟨record, hrow, rfl, rfl⟩
    · rename_i hstatus
      refine .inl ⟨fun record' hrow' => ?_, rfl, rfl⟩
      obtain rfl := Option.some.inj (hrow.symm.trans hrow')
      exact hstatus

/-- The row that `complete` has loaded, if it is still there, holds the response after the
flush, and is a row of the same request; the flush fails only if it is not there. -/
theorem holds_of_updateRow (hloaded : s.rows.view t req.slot = some record)
    (h : updateRow t req response record s = some (s', p')) :
    p' = .completeCommit req ∧
      ∃ row, s'.rows.view t req.slot = some row ∧ row.Holds response ∧
        row.request_hash = record.request_hash := by
  rw [updateRow] at h
  split at h
  · rename_i hsame
    obtain ⟨rfl, rfl⟩ := Prod.mk.inj (Option.some.inj h)
    exact ⟨rfl, record, hloaded, ⟨hsame.1, hsame.2.1, hsame.2.2.1, hsame.2.2.2⟩, rfl⟩
  · rw [hloaded] at h
    simp only [if_true] at h
    obtain ⟨s₁, hput, h⟩ := Option.map_eq_some_iff.mp h
    obtain ⟨rfl, rfl⟩ := Prod.mk.inj h
    obtain ⟨rows, hrows, rfl⟩ := Store.put_some hput
    refine ⟨rfl, _, Table.view_of_written (Table.written_put_self hrows), ⟨?_, ?_, ?_, ?_⟩, rfl⟩ <;>
      simp only [completed] <;> split <;> first | assumption | rfl

/-- The row that `release` has loaded is gone after the flush. -/
theorem gone_of_deleteRow
    (hloaded : ∀ row, s.rows.view t req.slot = some row → row.id = id)
    (h : deleteRow t req id s = some (s', p')) :
    p' = .releaseCommit req ∧ s'.rows.view t req.slot = none := by
  rw [deleteRow] at h
  split at h
  · rename_i hnone
    obtain ⟨rfl, rfl⟩ := Prod.mk.inj (Option.some.inj h)
    exact ⟨rfl, hnone⟩
  · rename_i current hcurrent
    rw [if_pos (hloaded current hcurrent)] at h
    obtain ⟨s₁, hput, h⟩ := Option.map_eq_some_iff.mp h
    obtain ⟨rfl, rfl⟩ := Prod.mk.inj h
    obtain ⟨rows, hrows, rfl⟩ := Store.put_some hput
    exact ⟨rfl, Table.view_of_written (Table.written_put_self hrows)⟩

/-! ### The row of an owner -/

/-- An owner that goes on has been the owner before, or has just committed its claim. -/
theorem Step.owner (h : Step S t s a p s' p') (hp : p'.owner = some req) :
    (p.owner = some req ∧ s'.rows.committed = s.rows.committed ∧ s'.granted = s.granted) ∨
      ∃ now, p.claiming = some (req, now) ∧ s' = s.grant t req ∧
        p' = .running req (now + S.ttl_seconds) [] := by
  cases h with
  | @grant env p req₀ now hclaim =>
      obtain rfl : req₀ = req := Option.some.inj hp
      exact .inr ⟨now, hclaim, rfl, rfl⟩
  | tick => exact .inl ⟨hp, rfl, rfl⟩
  | ret =>
      rw [handlerReturns] at hp
      split at hp <;> exact .inl ⟨hp, rfl, rfl⟩
  | send | raise | load _ | unchanged | release | deleted => exact .inl ⟨hp, rfl, rfl⟩
  | update _ _ hput | delete _ _ hput =>
      exact .inl ⟨hp, (Private.of_put hput).rows.committed, (Private.of_put hput).granted⟩
  | _ => cases hp

/-- **The row of an owner is its unfinished claim**, until it leaves. -/
theorem own_of_run (h : (program S).Run OwnKey init c) :
    ∀ {t req}, (c.proc t).owner = some req → Own t c.shared req := by
  induction h with
  | refl => exact fun hp => nomatch hp
  | @step c d u a hrun hok hstep ih =>
      intro t req hp
      obtain ⟨-, hL⟩ := claims_of_run hrun
      obtain ⟨g, l, hexec, rfl⟩ := Program.step_eq_some_iff.mp hstep
      by_cases hu : t = u
      · subst hu
        simp only [Function.update_self] at hp
        rcases (step_of_exec hexec).owner hp with
          ⟨hp₀, hrows, hgranted⟩ | ⟨now, hclaim, rfl, -⟩
        · intro hg row hrow
          simp only [hgranted, hrows] at hg hrow
          exact ih hp₀ hg row hrow
        · exact (loc_of_grant (hL t) hclaim).2.1
      · simp only [Function.update_of_ne hu] at hp
        exact (undisturbed_of_exec (hL u) hexec hu).keepsOwn (ih hp)

/-- What a request sees of its key, as long as the key is its own, it has seen before. -/
theorem Undisturbed.view (h : Undisturbed u s s') (hg : s'.granted req.slot = some u)
    (hrow : s'.rows.view u req.slot = some row) : s.rows.view u req.slot = some row := by
  obtain ⟨-, hcom⟩ := h.own hg
  cases hw : s.rows.written u req.slot with
  | some v =>
      have hw' : s'.rows.written u req.slot = some v := by rw [h.written, hw]
      rwa [Table.view_of_written hw, ← Table.view_of_written hw']
  | none =>
      have hw' : s'.rows.written u req.slot = none := by rw [h.written, hw]
      rw [Table.view_of_written_eq_none hw'] at hrow
      rw [Table.view_of_written_eq_none hw]
      rcases hcom with hcom | hcom <;> rw [hcom] at hrow
      · exact hrow
      · cases hrow

/-! ### From the end of the handler to the exit -/

/-- As long as the key is its own, all that `t` sees there is a row of its request with its
response. -/
def Outcome (S : Settings) (moves : List (Program.Move T (Store T) (Proc T) Act)) (t : T)
    (req : Request) (s : Store T) : Prop :=
  s.granted req.slot = some t → ∀ row, s.rows.view t req.slot = some row →
    ∃ response, RunResponse S moves t req response ∧ row.Holds response ∧
      row.request_hash = req.request_hash

/-- What the statements of `complete` and `release` have done so far. -/
def Exit (S : Settings) (moves : List (Program.Move T (Store T) (Proc T) Act)) (t : T)
    (req : Request) (s : Store T) : Proc T → Prop
  | .complete _ response => RunResponse S moves t req response
  | .completeUpdate _ response record =>
      RunResponse S moves t req response ∧
        (s.granted req.slot = some t → ∀ row, s.rows.view t req.slot = some row → row = record)
  | .releaseDelete _ id =>
      s.granted req.slot = some t → ∀ row, s.rows.view t req.slot = some row → row.id = id
  | .completeCommit _ | .releaseCommit _ | .finished | .raised => Outcome S moves t req s
  | _ => True

/-- The request has left the owned path. -/
def Proc.left : Proc T → Bool
  | .finished | .raised => true
  | _ => false

omit [DecidableEq T] in
/-- The past does not change: what a run has responded it has responded. -/
theorem RunResponse.mono (h : RunResponse S moves t req response) (hle : moves ⊆ more) :
    RunResponse S more t req response := by
  obtain ⟨m, hm, h⟩ := h
  exact ⟨m, hle hm, h⟩

/-- Nor does the outcome of a claim. -/
theorem Outcome.mono (h : Outcome S moves t req s) (hle : moves ⊆ more) :
    Outcome S more t req s := by
  intro hg row hrow
  obtain ⟨response, hrun, hholds⟩ := h hg row hrow
  exact ⟨response, hrun.mono hle, hholds⟩

/-- Nor the way in which it has ended. -/
theorem Exit.mono (h : Exit S moves t req s p) (hle : moves ⊆ more) :
    Exit S more t req s p := by
  cases p with
  | complete _ _ => exact RunResponse.mono h hle
  | completeUpdate _ _ _ => exact ⟨h.1.mono hle, h.2⟩
  | completeCommit _ | releaseCommit _ | finished | raised => exact Outcome.mono h hle
  | _ => exact h

/-- The outcome of a claim is not undone by the steps of other requests, as long as they do not
touch its row. -/
theorem Undisturbed.outcome (h : Undisturbed u s s') (ho : Outcome S moves u req s) :
    Outcome S moves u req s' := by
  intro hg row hrow
  exact ho (h.own hg).1 row (h.view hg hrow)

/-- **Interference freedom.** Others do not touch what a request has done on its way out. -/
theorem Undisturbed.exit (h : Undisturbed u s s') (hE : Exit S moves u req s p) :
    Exit S moves u req s' p := by
  cases p with
  | completeUpdate _ _ _ =>
      exact ⟨hE.1, fun hg row hrow => hE.2 (h.own hg).1 row (h.view hg hrow)⟩
  | releaseDelete _ _ => exact fun hg row hrow => hE (h.own hg).1 row (h.view hg hrow)
  | completeCommit _ | releaseCommit _ | finished | raised => exact h.outcome hE
  | _ => exact hE

/-- A request that is rolled back leaves the row that it has found. -/
theorem Outcome.of_rollback
    (h : s.granted req.slot = some t → s.rows.committed req.slot = none) :
    Outcome S moves t req (s.rollback t) := by
  intro hg row hrow
  rw [Store.rollback, (Table.untouched_rollback _ _).view, Table.committed_rollback, h hg] at hrow
  cases hrow

/-- A COMMIT publishes what the request has seen. -/
theorem Outcome.commit (h : Outcome S moves t req s) : Outcome S moves t req (s.commit t) := by
  intro hg row hrow
  rw [Store.commit, (Table.untouched_commit _ _).view, Table.committed_commit] at hrow
  exact h hg row hrow

/-- The flush of a completion. -/
theorem exit_of_updateRow (hun : s.rows.Untouched t) (hown : Own t s req)
    (hE : Exit S moves t req s (.completeUpdate req response record))
    (h : updateRow t req response record s = some (s', p')) : Exit S moves t req s' p' := by
  obtain ⟨hrun, hloaded⟩ := hE
  -- the row that is there is the one that was loaded, so the response gets into it
  have hflush : s.granted req.slot = some t → ∀ row, s.rows.view t req.slot = some row →
      p' = .completeCommit req ∧ ∀ row', s'.rows.view t req.slot = some row' →
        ∃ response, RunResponse S moves t req response ∧ row'.Holds response ∧
          row'.request_hash = req.request_hash := by
    intro hg row hrow
    obtain rfl := hloaded hg row hrow
    obtain ⟨hp', row₁, hrow₁, hholds, hhash⟩ := holds_of_updateRow hrow h
    refine ⟨hp', fun row' hrow' => ?_⟩
    obtain rfl := Option.some.inj (hrow'.symm.trans hrow₁)
    rw [hun.view] at hrow
    exact ⟨response, hrun, hholds, hhash.trans (hown hg row hrow).1⟩
  rcases updateRow_cases h with ⟨current, hrow, -, hput, rfl⟩ | ⟨rfl, rfl⟩ | ⟨rfl, rfl⟩
  · intro hg
    rw [(Private.of_put hput).granted] at hg
    exact (hflush hg current hrow).2
  · exact fun hg row hrow => (hflush hg row hrow).2 row hrow
  · refine Outcome.of_rollback fun hg => ?_
    cases hcom : s.rows.committed req.slot with
    | none => rfl
    | some row =>
        obtain ⟨hp', -⟩ := hflush hg row (by rw [hun.view, hcom])
        cases hp'

/-- The flush of a release. -/
theorem exit_of_deleteRow (hE : Exit S moves t req s (.releaseDelete req id))
    (h : deleteRow t req id s = some (s', p')) : Exit S moves t req s' p' := by
  obtain ⟨rfl, hcases⟩ := deleteRow_cases h
  have hgranted : s'.granted = s.granted := by
    rcases hcases with ⟨current, -, -, hput⟩ | rfl
    · exact (Private.of_put hput).granted
    · rfl
  intro hg row hrow
  rw [hgranted] at hg
  obtain ⟨-, hnone⟩ := gone_of_deleteRow (hE hg) h
  rw [hnone] at hrow
  cases hrow

/-- **Local correctness.** Every statement on the way out does its part. -/
theorem Exit.stmt (hE : Exit S moves t req s p) (hp : p.owner = some req) (hL : Loc S t s p)
    (hown : Own t s req) (h : stmt S t env s p = some (s', p')) :
    Exit S moves t req s' p' := by
  cases p with
  | running _ _ _ => cases h
  | complete req₀ response =>
      obtain rfl : req₀ = req := Option.some.inj hp
      rcases stmt_complete_cases h with ⟨hnone, rfl, rfl⟩ | ⟨record, hrow, rfl, rfl⟩
      · refine Outcome.of_rollback fun _ => ?_
        rw [← hnone, hL.1.view]
      · exact ⟨hE, fun _ row hrow' => Option.some.inj (hrow'.symm.trans hrow)⟩
  | completeUpdate req₀ response record =>
      obtain rfl : req₀ = req := Option.some.inj hp
      exact exit_of_updateRow hL.1 hown hE h
  | release req₀ =>
      obtain rfl : req₀ = req := Option.some.inj hp
      have hun : s.rows.Untouched t := hL
      rcases stmt_release_cases h with ⟨hdone, rfl, rfl⟩ | ⟨record, hrow, rfl, rfl⟩
      · refine Outcome.of_rollback fun hg => ?_
        cases hcom : s.rows.committed req₀.slot with
        | none => rfl
        | some row =>
            exact absurd (hown hg row hcom).2 (hdone row (by rw [hun.view, hcom]))
      · intro _ row hrow'
        rw [Option.some.inj (hrow'.symm.trans hrow)]
  | releaseDelete req₀ id =>
      obtain rfl : req₀ = req := Option.some.inj hp
      exact exit_of_deleteRow hE h
  | completeCommit _ | releaseCommit _ =>
      obtain ⟨rfl, rfl⟩ := Prod.mk.inj (Option.some.inj h)
      exact Outcome.commit hE
  | _ => cases hp

/-- An owner goes on as the owner for the same request, or it leaves. -/
theorem Step.owner_or_left (h : Step S t s a p s' p')
    (hp : p.owner = some req ∨ p.left = true) : p'.owner = some req ∨ p'.left = true := by
  cases h with
  | tick => exact hp
  | fail | overlong _ | stale | leave _ | commit _ => exact .inr rfl
  | ret =>
      rw [handlerReturns]
      split <;> exact hp
  | send | raise | load _ | update _ _ _ | unchanged | release | delete _ _ _ | deleted => exact hp
  | grant hclaim =>
      cases p with
      | insertCommit _ _ | reclaimCommit _ _ => rcases hp with hp | hp <;> cases hp
      | _ => cases hclaim
  | vanish hinspect =>
      rcases hinspect with rfl | ⟨id, rfl⟩ <;> rcases hp with hp | hp <;> cases hp
  | _ => rcases hp with hp | hp <;> cases hp

/-- There is no statement after the exit. -/
theorem stmt_of_left (hp : p.left = true) : stmt S t env s p = none := by
  cases p <;> first | rfl | cases hp

/-- Every action of an owner does its part, unless it is cut short. -/
theorem exit_of_exec (hE : Exit S moves t req c.shared p) (hproc : c.proc t = p)
    (hp : p.owner = some req ∨ p.left = true) (hL : Loc S t c.shared p)
    (hown : p.owner = some req → Own t c.shared req) (hok : a = .fail → SparesClaim c t a)
    (h : exec S t a c.shared p = some (s', p')) :
    Exit S (moves ++ [⟨c, t, a, d⟩]) t req s' p' := by
  have hle : moves ⊆ moves ++ [⟨c, t, a, d⟩] := List.subset_append_left _ _
  cases a with
  | tick =>
      obtain ⟨rfl, rfl⟩ := Prod.mk.inj (Option.some.inj h)
      exact ((undisturbed_of_tick t c.shared).exit hE).mono hle
  | stmt env =>
      rcases hp with hp | hp
      · exact (hE.stmt hp hL (hown hp) h).mono hle
      · cases (stmt_of_left hp).symm.trans h
  | ret =>
      cases p <;> simp only [exec, reduceCtorEq] at h
      case running req₀ x sent =>
        obtain ⟨rfl, rfl⟩ := Prod.mk.inj (Option.some.inj h)
        obtain rfl : req₀ = req := Option.some.inj (hp.resolve_right (by simp [Proc.left]))
        rw [handlerReturns]
        split
        · trivial
        · exact ⟨_, List.mem_append_right _ (List.mem_singleton_self _), rfl, rfl, x, sent,
            hproc, rfl⟩
  | claim req₀ | purge | send m | raise =>
      cases p <;> simp only [exec, reduceCtorEq] at h
      obtain ⟨rfl, rfl⟩ := Prod.mk.inj (Option.some.inj h)
      trivial
  | fail =>
      simp only [exec] at h
      split at h
      · cases h
      · rename_i hended
        obtain ⟨rfl, rfl⟩ := Prod.mk.inj (Option.some.inj h)
        rcases hp with hp | hp
        · refine Outcome.of_rollback ?_
          simpa only [SparesClaim, hproc, hp] using hok rfl
        · cases p <;> first | exact absurd rfl hended | cases hp

/-! ### Every run -/

/-- What is known of every request whose handler has run. -/
structure Leaving (S : Settings) (moves : List (Program.Move T (Store T) (Proc T) Act)) (t : T)
    (req : Request) (c : Config T (Store T) (Proc T)) : Prop where
  owner : (c.proc t).owner = some req ∨ (c.proc t).left = true
  exit : Exit S moves t req c.shared (c.proc t)

/-- A request whose handler runs has not left it yet. -/
theorem leaving_of_running {sent : List Message} (h : c.proc t = .running req x sent) :
    Leaving S moves t req c := ⟨.inl (by rw [h]; rfl), by rw [h]; trivial⟩

/-- **One step.** -/
theorem Leaving.step (hrun : (program S).Run OwnKey init c) (hok : SparesClaim c u a)
    (hstep : (program S).step c u a = some d) (h : Leaving S moves t req c) :
    Leaving S (moves ++ [⟨c, u, a, d⟩]) t req d := by
  obtain ⟨-, hL⟩ := claims_of_run hrun
  obtain ⟨g, l, hexec, rfl⟩ := Program.step_eq_some_iff.mp hstep
  by_cases hu : t = u
  · subst hu
    refine ⟨?_, ?_⟩ <;> simp only [Function.update_self]
    · exact (step_of_exec hexec).owner_or_left h.owner
    · exact exit_of_exec h.exit rfl h.owner (hL t) (fun hp => own_of_run hrun hp) (fun _ => hok)
        hexec
  · refine ⟨?_, ?_⟩ <;> simp only [Function.update_of_ne hu]
    · exact h.owner
    · exact ((undisturbed_of_exec (hL u) hexec hu).exit h.exit).mono (List.subset_append_left _ _)

/-- **A run.** What is known of a request is known from the moment it becomes an owner. -/
theorem leaving_of_trace (h : (program S).Trace Settling init moves c) :
    ∀ {t req}, (c.proc t).owner = some req ∨ Owned moves t req → Leaving S moves t req c := by
  induction h with
  | nil => rintro t req (hp | ⟨m, hm, -⟩) <;> [cases hp; cases hm]
  | @snoc moves c d u a htrace hok hstep ih =>
      have hrun := (htrace.mono fun _ _ _ h => h.1).run
      rintro t req (hp | ⟨m, hm, hthread, x, sent, hproc⟩)
      · by_cases hu : t = u
        · subst hu
          obtain ⟨g, l, hexec, rfl⟩ := Program.step_eq_some_iff.mp hstep
          simp only [Function.update_self] at hp
          rcases (step_of_exec hexec).owner hp with ⟨hp₀, -⟩ | ⟨now, -, -, rfl⟩
          · exact (ih (.inl hp₀)).step hrun hok.2 hstep
          · exact leaving_of_running (Function.update_self _ _ _)
        · rw [Program.proc_of_step_ne hstep hu] at hp
          exact (ih (.inl hp)).step hrun hok.2 hstep
      · refine Leaving.step hrun hok.2 hstep ?_
        rcases List.mem_append.mp hm with hm | hm
        · exact ih (.inr ⟨m, hm, hthread, x, sent, hproc⟩)
        · obtain rfl := List.mem_singleton.mp hm
          exact leaving_of_running hproc

/-- The row of a claim is the row that its request still owns. -/
theorem Outcome.settled (hI : KeyInv s) (hun : s.rows.Untouched t)
    (h : Outcome S moves t req s) : Settled S moves s t req := by
  intro row hrow hclaimed
  have hg := hI.claimed hrow
  rw [hclaimed] at hg
  obtain ⟨response, hrun, hholds, -⟩ := h hg row (by rw [hun.view, hrow])
  exact ⟨response, hrun, hholds⟩

/-- A request that has left is settled. -/
theorem Leaving.settled (hrun : (program S).Run OwnKey init c) (h : Leaving S moves t req c)
    (hended : (c.proc t).ended = true) : Settled S moves c.shared t req := by
  obtain ⟨hI, hL⟩ := claims_of_run hrun
  obtain ⟨howner, hE⟩ := h
  have hLt := hL t
  generalize c.proc t = p at howner hE hended hLt
  cases p with
  | finished | raised => exact Outcome.settled hI hLt hE
  | answered _ _ => rcases howner with h | h <;> cases h
  | _ => cases hended

/-- An owner that is cut short while its row is there leaves it unfinished. -/
theorem spares_of_settled (hrun : (program S).Run OwnKey init c)
    (hstep : (program S).step c t a = some d) (hp : (c.proc t).owner = some req)
    (h : Settled S moves d.shared t req) : SparesClaim c t a := by
  obtain ⟨hI, -⟩ := claims_of_run hrun
  obtain ⟨g, l, hexec, rfl⟩ := Program.step_eq_some_iff.mp hstep
  unfold SparesClaim
  split
  · rename_i req₀ hfail hp₀
    obtain rfl := Option.some.inj (hp.symm.trans hp₀)
    intro hg
    cases hcom : c.shared.rows.committed req.slot with
    | none => rfl
    | some row =>
        have hclaimed := hI.claimed hcom
        obtain rfl := Option.some.inj (hg.symm.trans hclaimed)
        have hshared : g = c.shared.rollback row.claimed_by := by
          simp only [program, exec] at hexec
          split at hexec
          · cases hexec
          · exact (Prod.mk.inj (Option.some.inj hexec)).1.symm
        have hrow : g.rows.committed req.slot = some row := by
          rw [hshared, Store.rollback, Table.committed_rollback, hcom]
        obtain ⟨response, -, hholds⟩ := h row hrow rfl
        have hstatus := (own_of_run hrun hp hg row hcom).2
        rw [hholds.status] at hstatus
        cases hstatus
  · trivial

/-- **A claim is settled by every exit but one that cuts it short.** In every run whose
completions and releases hit own keys and in which no owner is cancelled, and neither
`complete` nor `release` fails, while its row is there, the row of every request whose
handler has run and that has ended is gone, or completed with the response of its run. After
such a run, a step with which an owner ends settles its claim if and only if it is no such
cancellation or failure. -/
theorem claim_settled_iff (h : (program S).Trace Settling init moves c) :
    (∀ t req, Owned moves t req → (c.proc t).ended = true →
        Settled S moves c.shared t req) ∧
      ∀ t a d req, (program S).step c t a = some d → OwnKey c t a →
        (c.proc t).owner = some req → (d.proc t).ended = true →
        (Settled S (moves ++ [⟨c, t, a, d⟩]) d.shared t req ↔ SparesClaim c t a) := by
  have hrun := (h.mono fun _ _ _ h => h.1).run
  refine ⟨fun t req howned hended => ?_, fun t a d req hstep hown hp hended => ⟨?_, ?_⟩⟩
  · exact (leaving_of_trace h (.inr howned)).settled hrun hended
  · exact spares_of_settled hrun hstep hp
  · intro hspares
    have hleaving := (leaving_of_trace h (.inl hp)).step hrun hspares hstep
    exact hleaving.settled (hrun.step hown hstep) hended

/-! ### Two schedules -/

set_option maxRecDepth 10000 in
/-- A handler returns and its response is stored. -/
theorem claim_settled_iff_completed :
    ∃ (moves : List (Program.Move (Fin 1) (Store (Fin 1)) (Proc (Fin 1)) Act))
      (c : Config (Fin 1) (Store (Fin 1)) (Proc (Fin 1))),
      (program shortLease).Trace Settling init moves c ∧
        Owned moves 0 ⟨"scope", "key", "h"⟩ ∧ (c.proc 0).ended = true ∧
        Settled shortLease moves c.shared 0 ⟨"scope", "key", "h"⟩ ∧
        (c.shared.rows.committed ("scope", "key")).any (fun row =>
          row.claimed_by = 0 ∧ row.response_body = some [120]) = true := by
  obtain ⟨⟨moves, c⟩, hrecord, howned, hended, hrow⟩ :
      ∃ r ∈ (program shortLease).record Settling init
        (firstRequest (0 : Fin 1) "h" ++ respond 0 ++ [(0, next 1), (0, next 1), (0, next 1)]),
        (r.1.any fun m => m.thread = 0 ∧
          m.before.proc 0 = .running ⟨"scope", "key", "h"⟩ 2 []) = true ∧
        (r.2.proc 0).ended = true ∧
        (r.2.shared.rows.committed ("scope", "key")).any (fun row =>
          row.claimed_by = 0 ∧ row.response_body = some [120]) = true := by
    decide
  obtain ⟨m, hm, hproc⟩ := List.any_eq_true.mp howned
  obtain ⟨hthread, hproc⟩ := of_decide_eq_true hproc
  have htrace := Program.trace_of_record hrecord
  have howned : Owned moves 0 ⟨"scope", "key", "h"⟩ := ⟨m, hm, hthread, 2, [], hproc⟩
  exact ⟨moves, c, htrace, howned, hended, (claim_settled_iff htrace).1 _ _ howned hended, hrow⟩

set_option maxRecDepth 10000 in
/-- The task of the first request is cancelled while its handler runs. The row stays in
progress, and a retry is answered with a conflict although nobody works on the request. -/
theorem wedged_by_cancellation :
    ∃ (moves : List (Program.Move (Fin 2) (Store (Fin 2)) (Proc (Fin 2)) Act))
      (c : Config (Fin 2) (Store (Fin 2)) (Proc (Fin 2))),
      (program shortLease).Trace Any init moves c ∧
        Owned moves 0 ⟨"scope", "key", "h"⟩ ∧ (c.proc 0).ended = true ∧
        ¬ Settled shortLease moves c.shared 0 ⟨"scope", "key", "h"⟩ ∧
        c.proc 1 = .answered ⟨"scope", "key", "h"⟩ .in_progress := by
  obtain ⟨⟨moves, c⟩, hrecord, howned, hended, hrow, hretry⟩ :
      ∃ r ∈ (program shortLease).record Any init
        (firstRequest (0 : Fin 2) "h" ++ [(0, .fail)] ++ laterRequest 1 "h"),
        (r.1.any fun m => m.thread = 0 ∧
          m.before.proc 0 = .running ⟨"scope", "key", "h"⟩ 2 []) = true ∧
        (r.2.proc 0).ended = true ∧
        (r.2.shared.rows.committed ("scope", "key")).any (fun row =>
          row.claimed_by = 0 ∧ row.status = .in_progress) = true ∧
        r.2.proc 1 = .answered ⟨"scope", "key", "h"⟩ .in_progress := by
    decide
  obtain ⟨m, hm, hproc⟩ := List.any_eq_true.mp howned
  obtain ⟨hthread, hproc⟩ := of_decide_eq_true hproc
  refine ⟨moves, c, Program.trace_of_record hrecord, ⟨m, hm, hthread, 2, [], hproc⟩, hended,
    fun hsettled => ?_, hretry⟩
  obtain ⟨row, hcom, hrow⟩ := Option.any_eq_true _ _ |>.mp hrow
  obtain ⟨hclaimed, hstatus⟩ := of_decide_eq_true hrow
  obtain ⟨response, -, hholds⟩ := hsettled row hcom hclaimed
  rw [hholds.status] at hstatus
  cases hstatus

end BackendManager.Idempotency
