import Mathlib.Data.Fintype.Basic
import BackendManager.SessionOutline

/-!
# Revocation Is Final Unless a Rotation Is in Flight

A revocation is one `UPDATE` over the rows in its snapshot; a rotation inserts the next
row of the family in a transaction of its own. The row lock on the presented token makes
the revocation wait for the rotation, but the successor is not in the revocation's
snapshot and is never rewritten. This module proves that such a commit, of a new row under
a running revocation, is the only thing that can go wrong.

While a revocation runs, each committed row in its scope is still to be locked or already
locked and rewritten (`Covered`); a rotation that has claimed a token holds the lock on it.
Together they leave no room for a live token of the family when the revocation commits, and
from then on the family is `Dead` whatever happens.

## Main results

* `covering_of_run`: revocations miss no row in runs without a late token.
* `Dead.run`: a dead family stays dead under all schedules.
* `revoked_for_good`: after the commit of a revocation no token of a family it covers is
  accepted.
* `successor_survives_logout`: a schedule in which the successor of a rotation in flight
  survives the logout and is accepted.
-/

namespace BackendManager.Users

open ReadCommitted Interleaving

variable {T : Type} [DecidableEq T] {S : Settings} {t u v : T} {tokens tokens' : Tokens T}
  {c d e f : Config T (Tokens T) Proc} {a b : Act} {p p' : Proc} {j k : String}
  {r r₀ r₁ row : RefreshToken} {scope : Scope} {response : Response}

/-! ### Revocations that miss no row -/

/-- Each committed row in the scope is in `todo`, or `t` has written it. -/
def Covered (t : T) (tokens : Tokens T) (scope : Scope) (todo : Finset String) : Prop :=
  ∀ k r, tokens.committed k = some r → scope.covers r = true →
    k ∈ todo ∨ ∃ v, tokens.written t k = some v

/-- The second assertion of a request, which depends on the condition below: a revocation
misses no row. -/
def Covering (t : T) (tokens : Tokens T) : Proc → Prop
  | .revoking scope _ todo => Covered t tokens scope todo
  | .revoked scope _ => Covered t tokens scope ∅
  | _ => True

/-- The scope of a revocation that has started and has not ended. -/
def Proc.revokes : Proc → Option Scope
  | .revoking scope _ _ | .revoked scope _ => some scope
  | _ => none

/-- No new token is committed into the scope of a revocation that has started and has not
ended: the condition on the state before each step. -/
def NoLateToken (c : Config T (Tokens T) Proc) (t : T) (a : Act) : Prop :=
  match a, c.proc t with
  | .stmt _, .issued row _ _ =>
      ∀ u, ∀ scope ∈ (c.proc u).revokes, scope.covers row = false
  | _, _ => True

instance [Fintype T] (c : Config T (Tokens T) Proc) (t : T) (a : Act) :
    Decidable (NoLateToken c t a) := by
  unfold NoLateToken
  split <;> infer_instance

/-- Under the condition, rows enter the scope of a running revocation in no step. -/
theorem scope_of_exec (hL : Loc S t c.shared (c.proc t)) (hok : NoLateToken c t a)
    (h : exec S t a c.shared (c.proc t) = some (tokens', p'))
    (hscope : (c.proc u).revokes = some scope) (hr : tokens'.committed k = some r)
    (hcov : scope.covers r = true) :
    ∃ r', c.shared.committed k = some r' ∧ scope.covers r' = true := by
  rcases exec_cases h with rfl | rfl | ⟨⟨env, rfl⟩, -, rfl⟩ | ⟨j, r', hput, -⟩
  · exact ⟨r, hr, hcov⟩
  · exact ⟨r, by simpa using hr, hcov⟩
  · rcases hL.origin hr with ⟨r₀, hr₀, hkin⟩ | ⟨-, -, token, rotated, hp⟩
    · exact ⟨r₀, hr₀, by rw [← hcov, Scope.covers_of_kin hkin]⟩
    · simp only [NoLateToken, hp] at hok
      rw [hok u scope hscope] at hcov
      cases hcov
  · exact ⟨r, by rwa [Table.committed_put hput] at hr, hcov⟩

/-- At the start of a revocation its snapshot has every row of its scope. -/
theorem covered_of_scan (hun : tokens.Untouched t) :
    Covered t tokens scope (tokens.scan t scope.covers) := by
  intro k r hr hcov
  exact .inl (Table.mem_scan.mpr ⟨r, by rw [hun.view, hr], hcov⟩)

/-- Rewriting a row of the list leaves none uncovered. -/
theorem covered_of_put {todo : Finset String} {w : Option RefreshToken}
    (hc : Covered t tokens scope todo) (hput : tokens.put t k w = some tokens') :
    Covered t tokens' scope (todo.erase k) := by
  intro j r hr hcov
  rw [Table.committed_put hput] at hr
  by_cases hne : j = k
  · exact .inr ⟨_, by rw [hne, Table.written_put_self hput]⟩
  · rw [Table.written_put_of_key_ne hput hne]
    rcases hc j r hr hcov with hmem | hw
    · exact .inl (Finset.mem_erase.mpr ⟨hne, hmem⟩)
    · exact .inr hw

/-- A row of the list that is not there was covered by nothing. -/
theorem covered_of_gone {todo : Finset String} (hL : RevokesOnly t tokens)
    (hc : Covered t tokens scope todo) (hnone : tokens.view t k = none) :
    Covered t tokens scope (todo.erase k) := by
  intro j r hr hcov
  rcases hc j r hr hcov with hmem | hw
  · refine .inl (Finset.mem_erase.mpr ⟨?_, hmem⟩)
    rintro rfl
    -- a committed row that `t` does not see would have been deleted by `t`
    cases hw : tokens.written t j with
    | none =>
        rw [Table.view_of_written_eq_none hw, hr] at hnone
        cases hnone
    | some w =>
        obtain ⟨r₁, rfl, -⟩ := hL _ w hw
        rw [Table.view_of_written hw] at hnone
        cases hnone
  · exact .inr hw

/-- A request that writes nothing covers nothing. -/
theorem covering_of_bare (hp : p.bare = true) : Covering t tokens p := by
  cases p with
  | revoking _ _ _ | revoked _ _ => cases hp
  | _ => trivial

/-- A revocation that misses no row goes on missing none. -/
theorem Step.covering (h : Step S t tokens a p tokens' p') (hL : Loc S t tokens p)
    (hc : Covering t tokens p) : Covering t tokens' p' := by
  cases h with
  | pass hreading hbare => exact covering_of_bare hbare
  | rollback | commit | login | select | snapshot | claim | mint => trivial
  | scan => exact covered_of_scan hL
  | revoke hk hr hput => exact covered_of_put hc hput
  | gone hk hnone => exact covered_of_gone hL hc hnone
  | revoked => exact hc

/-- Under the condition the others do not disturb it. -/
theorem covering_of_other (hu : u ≠ t) (hok : NoLateToken c t a)
    (hL : Loc S t c.shared (c.proc t)) (hc : Covering u c.shared (c.proc u))
    (h : exec S t a c.shared (c.proc t) = some (tokens', p')) :
    Covering u tokens' (c.proc u) := by
  have hcovered : ∀ {scope todo}, (c.proc u).revokes = some scope →
      Covered u c.shared scope todo → Covered u tokens' scope todo := by
    intro scope todo hp hc k r hr hcov
    obtain ⟨r', hr', hcov'⟩ := scope_of_exec hL hok h hp hr hcov
    rw [(undisturbed_of_exec hL h hu).written]
    exact hc k r' hr' hcov'
  cases hp : c.proc u <;> rw [hp] at hc hcovered <;> try trivial
  case revoking => exact hcovered rfl hc
  case revoked => exact hcovered rfl hc

/-- The outline of both assertions. -/
theorem covering_outline (S : Settings) :
    (program S).Outline (NoLateToken (T := T)) OwnedFamilies
      fun u tokens p => Loc S u tokens p ∧ Covering u tokens p where
  step _ ho hL h :=
    ⟨ho.of_exec (hL _).1 h, (step_of_exec h).loc (hL _).1,
      (step_of_exec h).covering (hL _).1 (hL _).2⟩
  frame hu hok ho hL h :=
    ⟨(outline S _).frame hu hok ho (fun v => (hL v).1) h,
      covering_of_other hu hok (hL _).1 (hL _).2 h⟩

/-- **Revocations miss no row** in runs without a late token. -/
theorem covering_of_run (h : (program S).Run NoLateToken init c) (u : T) :
    Covering u c.shared (c.proc u) := by
  have hinit : (program S).Run (NoLateToken (T := T)) init init := .refl _
  obtain ⟨ho, hL⟩ := sessions_of_run hinit
  exact (((covering_outline S).run h ho fun v => ⟨hL v, trivial⟩).2 u).2

/-! ### Dead families -/

/-- No live token of the family is left, committed or uncommitted. -/
structure Dead (family_id : Uuid) (tokens : Tokens T) : Prop where
  /-- The family exists. -/
  exists_row : ∃ k r, tokens.committed k = some r ∧ r.family_id = family_id
  /-- Its committed rows are revoked. -/
  committed : ∀ {k r}, tokens.committed k = some r → r.family_id = family_id →
    r.revoked = true
  /-- So are its uncommitted ones. -/
  written : ∀ {u k r}, tokens.written u k = some (some r) → r.family_id = family_id →
    r.revoked = true

/-- A row of a dead family is seen as revoked, whoever looks. -/
theorem Dead.view {family_id : Uuid} (h : Dead family_id tokens)
    (hr : tokens.view t k = some r) (hf : r.family_id = family_id) : r.revoked = true := by
  cases hw : tokens.written t k with
  | none =>
      rw [Table.view_of_written_eq_none hw] at hr
      exact h.committed hr hf
  | some w =>
      rw [Table.view_of_written hw] at hr
      subst hr
      exact h.written hw hf

/-- **A dead family stays dead**: no action writes a live token of it. -/
theorem Dead.of_exec {family_id : Uuid} (hd : Dead family_id tokens) (hL : Loc S t tokens p)
    (h : exec S t a tokens p = some (tokens', p')) : Dead family_id tokens' := by
  rcases exec_cases h with rfl | rfl | ⟨-, -, rfl⟩ | ⟨j, r, hput, hjust⟩
  · exact hd
  · refine ⟨by simpa using hd.exists_row, fun hr => hd.committed (by simpa using hr),
      fun {u k r} hr => ?_⟩
    rw [Table.written_rollback] at hr
    split at hr
    · cases hr
    · exact hd.written hr
  · refine ⟨?_, fun hr => hd.view (t := t) (by simpa using hr), fun {u k r} hr => ?_⟩
    · obtain ⟨k, r, hr, hf⟩ := hd.exists_row
      obtain ⟨r', hr', hkin⟩ := hL.kin_commit hr
      exact ⟨k, r', hr', hkin.2 ▸ hf⟩
    · rw [Table.written_commit] at hr
      split at hr
      · cases hr
      · exact hd.written hr
  · have hrev : r.family_id = family_id → r.revoked = true := by
      intro hf
      rcases hjust with ⟨r₀, hr₀, hlive, hkin⟩ | ⟨row, rfl, hkin⟩ | hfresh | ⟨hrev, -⟩
      · have := hd.view hr₀ (hkin.2.trans hf)
        rw [hlive] at this
        cases this
      · -- a successor needs a live predecessor
        obtain ⟨i, ⟨r₁, ⟨hr₁, -⟩, hlive, hkin₁⟩, -⟩ := hL
        have := hd.written hr₁ (hkin₁.2.trans (hkin.2.trans hf))
        rw [hlive] at this
        cases this
      · obtain ⟨i, r₁, hr₁, hf₁⟩ := hd.exists_row
        exact absurd (hf₁.trans hf.symm) (hfresh.committed hr₁)
      · exact hrev
    refine ⟨?_, fun hr => ?_, fun {u k r'} hr' hf => ?_⟩
    · rw [Table.committed_put hput]
      exact hd.exists_row
    · rw [Table.committed_put hput] at hr
      exact hd.committed hr
    · rw [Table.written_put hput] at hr'
      split at hr'
      · obtain rfl : r = r' := Option.some.inj (Option.some.inj hr')
        exact hrev hf
      · exact hd.written hr' hf

/-- The same along every run, whatever the schedule. -/
theorem Dead.run {family_id : Uuid} (hrun : (program S).Run Any init c)
    (hd : Dead family_id c.shared) (h : (program S).Run Any c e) :
    Dead family_id e.shared := by
  induction h with
  | refl => exact hd
  | step hce _ hstep ih =>
      obtain ⟨g, l, hexec, rfl⟩ := Program.step_eq_some_iff.mp hstep
      exact ih.of_exec ((sessions_of_run (hrun.trans hce)).2 _) hexec

/-- `t` has written every committed row of the family. -/
def Locked (t : T) (tokens : Tokens T) (family_id : Uuid) : Prop :=
  ∀ {k r}, tokens.committed k = some r → r.family_id = family_id →
    ∃ w, tokens.written t k = some w

/-- A revocation that has missed no row has locked every family it covers. -/
theorem locked_of_covered (ho : OwnedFamilies tokens) (hc : Covered t tokens scope ∅)
    (hr₁ : tokens.committed k = some r₁) (hcov : scope.covers r₁ = true) :
    Locked t tokens r₁.family_id := by
  intro j r hr hf
  obtain ⟨owner, howner⟩ := ho
  have hkin : r₁.Kin r := ⟨by rw [howner hr₁, howner hr, hf], hf.symm⟩
  have hrcov : scope.covers r = true := by
    rw [Scope.covers_of_kin hkin, hcov]
  rcases hc j r hr hrcov with hmem | hw
  · cases hmem
  · exact hw

/-- Nobody else holds a row of a locked family: a claimed token is one of its rows, and a
first token is of a new family. -/
theorem Locked.other (hlocked : Locked t tokens r₁.family_id)
    (hr₁ : tokens.committed k = some r₁) (hL : Loc S u tokens p) (hu : u ≠ t)
    (hr : tokens.written u j = some (some r)) : r.family_id ≠ r₁.family_id := by
  intro hf
  have hfree : ∀ {i r'}, tokens.committed i = some r' → r'.family_id = r₁.family_id →
      ∀ {w}, tokens.written u i ≠ some w := by
    intro i r' hr' hf' w hw
    obtain ⟨w', hw'⟩ := hlocked hr' hf'
    exact hu (Table.written_inj hw hw')
  obtain ⟨r', hr', ⟨r₂, hr₂, hkin₂⟩ | ⟨-, token, rotated, rfl⟩⟩ := hL.written hr
  · obtain rfl := Option.some.inj hr'
    exact hfree hr₂ (hkin₂.2.trans hf) hr
  · obtain rfl := Option.some.inj hr'
    cases rotated with
    | true =>
        -- the claimed predecessor is locked by `u`
        obtain ⟨i, i', ⟨r₂, ⟨hr₂, r₃, hr₃, hkin₃⟩, -, hkin₂⟩, -⟩ := hL
        exact hfree hr₃ (hkin₃.2.trans (hkin₂.2.trans hf)) hr₂
    | false =>
        obtain ⟨i, -, hnew, -⟩ := hL
        exact hnew.1 hr₁ hf.symm

/-- What a revocation publishes of a family it has locked is revoked. -/
theorem Locked.revoked {family_id : Uuid} (hlocked : Locked t tokens family_id)
    (hL : RevokesOnly t tokens) (hr : (tokens.commit t).committed k = some r)
    (hf : r.family_id = family_id) : r.revoked = true := by
  rw [Table.committed_commit] at hr
  cases hw : tokens.written t k with
  | none =>
      rw [Table.view_of_written_eq_none hw] at hr
      obtain ⟨w, hw'⟩ := hlocked hr hf
      rw [hw] at hw'
      cases hw'
  | some w =>
      obtain ⟨r', rfl, hrev, -⟩ := hL k w hw
      rw [Table.view_of_written hw] at hr
      obtain rfl := Option.some.inj hr
      exact hrev

/-- **The commit of a revocation kills the families it covers.** -/
theorem dead_of_commit (ho : OwnedFamilies c.shared)
    (hL : ∀ u, Loc S u c.shared (c.proc u)) (hc : Covering t c.shared (c.proc t))
    (hp : c.proc t = .revoked scope response)
    (hr₀ : (c.shared.commit t).committed k = some r₀) (hcov : scope.covers r₀ = true) :
    Dead r₀.family_id (c.shared.commit t) := by
  have hLt := hL t
  rw [hp] at hLt hc
  obtain ⟨r₁, hr₁, hkin⟩ : Known c.shared k r₀ := by
    rcases hLt.origin hr₀ with hk | ⟨-, -, token, rotated, hp'⟩
    · exact hk
    · cases hp'
  have hlocked : Locked t c.shared r₁.family_id :=
    locked_of_covered ho hc hr₁ (by rw [← hcov, Scope.covers_of_kin hkin])
  rw [← hkin.2]
  refine ⟨⟨k, r₀, hr₀, hkin.2.symm⟩, fun hr hf => hlocked.revoked hLt hr hf,
    fun {u j r} hr hf => ?_⟩
  rw [Table.written_commit] at hr
  split at hr
  · cases hr
  · rename_i hu
    exact absurd hf (hlocked.other hr₁ (hL u) hu hr)

/-- The step from `c` to `d` accepts `token` for request `u`: the claim of
`rotate_refresh_token` takes its row, `r`. -/
structure Accepts (S : Settings) (c d : Config T (Tokens T) Proc) (u : T) (token : String)
    (r : RefreshToken) : Prop where
  found : c.shared.view u (S.hash token) = some r
  claims : ∃ row, c.proc u = .claimLock token row ∧ d.proc u = .mint row

/-- Tokens that are neither used nor revoked alone are accepted. -/
theorem Accepts.claimable {token : String} (h : Accepts S c d u token r)
    (hstep : (program S).step c u a = some d) : r.claimable = true := by
  obtain ⟨row, hc, hd⟩ := h.claims
  obtain ⟨g, l, hexec, rfl⟩ := Program.step_eq_some_iff.mp hstep
  obtain rfl : l = .mint row := by simpa using hd
  rw [hc] at hexec
  cases step_of_exec hexec with
  | pass _ hbare => cases hbare
  | claim hr hclaim _ =>
      obtain rfl := Option.some.inj (hr.symm.trans h.found)
      exact hclaim

/-- **Revocation is final.** Take a run in which no new token is committed into the scope of
a revocation in progress, and the commit of a revocation at its end. A token that is
accepted after any continuation is not of a family that the revocation covers and that
existed at its commit. -/
theorem revoked_for_good {env : Env} {token : String}
    (h : (program S).Run NoLateToken init c) (hp : c.proc t = .revoked scope response)
    (hcommit : (program S).step c t (.stmt env) = some d)
    (hr₀ : d.shared.committed k = some r₀) (hcov : scope.covers r₀ = true)
    (hrun : (program S).Run Any d e) (hstep : (program S).step e u b = some f)
    (hacc : Accepts S e f u token r) : r.family_id ≠ r₀.family_id := by
  intro hf
  obtain ⟨ho, hL⟩ := sessions_of_run h
  have hd : (program S).Run Any init d :=
    (h.mono fun _ _ _ _ => trivial).step trivial hcommit
  have hdead : Dead r₀.family_id d.shared := by
    obtain ⟨g, l, hexec, rfl⟩ := Program.step_eq_some_iff.mp hcommit
    rw [hp] at hexec
    obtain ⟨rfl, rfl⟩ := Prod.mk.inj (Option.some.inj hexec)
    exact dead_of_commit ho hL (covering_of_run h t) hp hr₀ hcov
  have hrev := (hdead.run hd hrun).view hacc.found hf
  rw [(RefreshToken.claimable_iff.mp (hacc.claimable hstep)).2] at hrev
  cases hrev

/-! ### Two schedules -/

/-- Settings under which schedules are evaluated: tokens stand for their hashes. -/
def plainSettings : Settings := ⟨id, 100⟩

/-- A statement at time 5; `uuid4` and `token` are drawn, `next` is locked next. -/
def at5 (token : String) (uuid4 : ℕ) (next : String) : Act :=
  .stmt ⟨5, token, Uuid.ofNat uuid4, next, some true⟩

/-- User 1 logs in; `first` is the token, of family `family`. -/
def loginSchedule (t : T) (first : String) (family : ℕ) : List (T × Act) :=
  [(t, .login (Uuid.ofNat 1)), (t, at5 first family ""), (t, at5 "" 0 "")]

/-- The row of such a login, before it is used. -/
def loginRow (family : ℕ) : RefreshToken :=
  ⟨Uuid.ofNat 1, Uuid.ofNat family, 105, none, false⟩

set_option maxRecDepth 10000 in
/-- Two sessions of one user: the first one ends, and the second one goes on. -/
theorem revoked_for_good_otherSession :
    ∃ (c d e f : Config (Fin 4) (Tokens (Fin 4)) Proc) (r r₀ : RefreshToken),
      (program plainSettings).Run NoLateToken init c ∧
        c.proc 2 = .revoked (.family (Uuid.ofNat 9)) .noContent ∧
        (program plainSettings).step c 2 (at5 "" 0 "") = some d ∧
        d.shared.committed "a" = some r₀ ∧ r₀.revoked = true ∧
        (program plainSettings).Run Any d e ∧
        (program plainSettings).step e 3 (at5 "" 0 "") = some f ∧
        Accepts plainSettings e f 3 "z" r ∧ r.family_id ≠ r₀.family_id := by
  have hreplay : ((program plainSettings).replay NoLateToken init
      (loginSchedule (0 : Fin 4) "a" 9 ++ loginSchedule 1 "z" 10 ++
        [(2, .logout "a"), (2, at5 "" 0 ""), (2, at5 "" 0 ""), (2, at5 "" 0 "a"),
          (2, at5 "" 0 "")])).any (fun c =>
        decide (c.proc 2 = .revoked (.family (Uuid.ofNat 9)) .noContent) &&
        ((program plainSettings).step c 2 (at5 "" 0 "")).any fun d =>
          decide (d.shared.committed "a" = some { loginRow 9 with revoked := true }) &&
          ((program plainSettings).replay Any d
            [(3, .refresh "z"), (3, at5 "" 0 ""), (3, at5 "" 0 "")]).any fun e =>
              decide (e.shared.view 3 "z" = some (loginRow 10) ∧
                e.proc 3 = .claimLock "z" (loginRow 10)) &&
              ((program plainSettings).step e 3 (at5 "" 0 "")).any fun f =>
                f.proc 3 = .mint (loginRow 10)) = true := by
    decide
  obtain ⟨c, hrun, hp⟩ := Program.exists_run_of_replay hreplay
  simp only [Bool.and_eq_true, decide_eq_true_eq, Option.any_eq_true] at hp
  obtain ⟨hproc, d, hcommit, hr₀, e, hde, ⟨hview, hlock⟩, f, hstep, hmint⟩ := hp
  have hde := Program.run_of_replay hde
  have haccepts : Accepts plainSettings e f 3 "z" (loginRow 10) := ⟨hview, _, hlock, hmint⟩
  exact ⟨c, d, e, f, loginRow 10, _, hrun, hproc, hcommit, hr₀, rfl, hde, hstep, haccepts,
    revoked_for_good hrun hproc hcommit hr₀ (by decide) hde hstep haccepts⟩

set_option maxRecDepth 10000 in
/-- A logout that starts while a rotation is in flight waits for it, revokes the token that
was presented and misses its successor, which is then accepted. -/
theorem successor_survives_logout :
    ∃ (c d e f : Config (Fin 4) (Tokens (Fin 4)) Proc) (b : Act) (env : Env) (k token : String)
      (scope : Scope) (r r₀ : RefreshToken),
      (program plainSettings).Run Any init c ∧ c.proc 2 = .revoked scope .noContent ∧
        (program plainSettings).step c 2 (.stmt env) = some d ∧
        d.shared.committed k = some r₀ ∧ scope.covers r₀ = true ∧
        (program plainSettings).Run Any d e ∧ (program plainSettings).step e 3 b = some f ∧
        Accepts plainSettings e f 3 token r ∧ r.family_id = r₀.family_id := by
  have hreplay : ((program plainSettings).replay Any init
      (loginSchedule (0 : Fin 4) "a" 9 ++
        [(1, .refresh "a"), (1, at5 "" 0 ""), (1, at5 "" 0 ""), (1, at5 "" 0 ""),
          (1, at5 "b" 0 ""), (2, .logout "a"), (2, at5 "" 0 ""), (2, at5 "" 0 ""),
          (1, at5 "" 0 ""), (2, at5 "" 0 "a"), (2, at5 "" 0 "")])).any (fun c =>
        decide (c.proc 2 = .revoked (.family (Uuid.ofNat 9)) .noContent) &&
        ((program plainSettings).step c 2 (at5 "" 0 "")).any fun d =>
          decide (d.shared.committed "a" =
            some { loginRow 9 with used_at := some 5, revoked := true }) &&
          ((program plainSettings).replay Any d
            [(3, .refresh "b"), (3, at5 "" 0 ""), (3, at5 "" 0 "")]).any fun e =>
              decide (e.shared.view 3 "b" = some (loginRow 9) ∧
                e.proc 3 = .claimLock "b" (loginRow 9)) &&
              ((program plainSettings).step e 3 (at5 "" 0 "")).any fun f =>
                f.proc 3 = .mint (loginRow 9)) = true := by
    decide
  obtain ⟨c, hrun, hp⟩ := Program.exists_run_of_replay hreplay
  simp only [Bool.and_eq_true, decide_eq_true_eq, Option.any_eq_true] at hp
  obtain ⟨hproc, d, hcommit, hr₀, e, hde, ⟨hview, hlock⟩, f, hstep, hmint⟩ := hp
  exact ⟨c, d, e, f, _, _, _, _, _, _, _, hrun, hproc, hcommit, hr₀, by decide,
    Program.run_of_replay hde, hstep, ⟨hview, _, hlock, hmint⟩, rfl⟩

end BackendManager.Users
