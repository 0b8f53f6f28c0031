import BackendManager.RefreshSession

/-!
# What the Session Endpoints Hold Where They Stand

The Owicki–Gries outline of the session endpoints, for any condition on the schedules.
`Loc` says which uncommitted rows a request holds at each of its statements: a rotation
holds the row that it has claimed, and the successor that it has minted; a login holds the
first row of a family that nobody else has; a revocation holds rows that it has revoked.

An assertion is kept by the actions of its own request because each of them is one of the cases
of `Step`, and by those of other requests because they leave it undisturbed (`Undisturbed`).
What the latter needs is that no statement rewrites the user or the family of a row, and that a
row under an uncommitted version is locked for everybody else. Together with the global
invariant that families belong to users, the outline is the basis of the theorems on rotation,
on revocation and on the family of a chain.

## Main results

* `step_of_exec`: every action is one of the cases of `Step`.
* `exec_cases`: an action writes one row for a reason (`Justified`), commits, rolls back, or
  changes nothing.
* `Loc.written`, `Loc.origin`: where the rows that a request writes and commits come from.
* `sessions_of_run`: the outline along every run.
-/

namespace BackendManager.Users

open ReadCommitted Interleaving

variable {T : Type} [DecidableEq T] {S : Settings} {t u v : T} {tokens tokens' : Tokens T}
  {c d e f : Config T (Tokens T) Proc} {a b : Act} {p p' : Proc} {k : String}
  {r r₀ row : RefreshToken} {scope : Scope} {response : Response} {env : Env}

/-! ### Rows -/

/-- The same user and family: what no statement rewrites. -/
def RefreshToken.Kin (r r' : RefreshToken) : Prop :=
  r.user_id = r'.user_id ∧ r.family_id = r'.family_id

/-- A row is its own kin. -/
theorem RefreshToken.Kin.refl (r : RefreshToken) : r.Kin r := ⟨rfl, rfl⟩

/-- Kin of kin is kin. -/
theorem RefreshToken.Kin.trans {r r' r'' : RefreshToken} (h : r.Kin r') (h' : r'.Kin r'') :
    r.Kin r'' := ⟨h.1.trans h'.1, h.2.trans h'.2⟩

/-- Kinship goes both ways. -/
theorem RefreshToken.Kin.symm {r r' : RefreshToken} (h : r.Kin r') : r'.Kin r :=
  ⟨h.1.symm, h.2.symm⟩

/-- Scopes do not tell kin apart. -/
theorem Scope.covers_of_kin {r r' : RefreshToken} (h : r.Kin r') :
    scope.covers r' = scope.covers r := by
  cases scope <;> simp [covers, h.1, h.2]

omit [DecidableEq T] in
/-- No committed row has a fresh family. -/
theorem FreshFamily.committed {family_id : Uuid} (h : FreshFamily tokens family_id)
    (hr : tokens.committed k = some r) : r.family_id ≠ family_id := by
  have hk := (h k (tokens.mem_keys_of_committed (by simp [hr]))).1
  simpa [hr] using hk

/-- Nor has any row that has been written and not committed. -/
theorem FreshFamily.written {family_id : Uuid} (h : FreshFamily tokens family_id)
    (hr : tokens.written u k = some (some r)) : r.family_id ≠ family_id := by
  have hd := Table.written_eq_some_iff.mp hr
  have hk := (h k (tokens.mem_keys_of_dirty (by simp [hd]))).2
  simpa [hd] using hk

/-! ### What one action can do -/

/-- Why a request may write version `r` of row `k`: it claims the row, it mints the
successor of the token it has claimed, it starts a new family, or it revokes the row. -/
def Justified (t : T) (tokens : Tokens T) (p : Proc) (k : String) (r : RefreshToken) : Prop :=
  (∃ r₀, tokens.view t k = some r₀ ∧ r₀.revoked = false ∧ r₀.Kin r) ∨
    (∃ row, p = .mint row ∧ row.Kin r) ∨ FreshFamily tokens r.family_id ∨
    r.revoked = true ∧ ∃ r₀, tokens.view t k = some r₀ ∧ r₀.Kin r

/-- The statement that a request executes next is its COMMIT. -/
def Proc.committing : Proc → Bool
  | .issued _ _ _ | .revoked _ _ | .finish _ => true
  | _ => false

/-- A row can be claimed if it has been neither used nor revoked. -/
theorem RefreshToken.claimable_iff : r.claimable = true ↔ r.used_at = none ∧ r.revoked = false := by
  simp [RefreshToken.claimable]

/-- The next statement may find that there is nothing to write. -/
def Proc.reading : Proc → Bool
  | .idle | .refresh _ | .claim _ _ | .claimLock _ _ | .logout _ => true
  | _ => false

/-- A request that has found nothing yet, or has nothing to write. -/
def Proc.bare : Proc → Bool
  | .login _ | .refresh _ | .logout _ | .revoke _ _ | .finish _ => true
  | _ => false

/-- What one action can do, branch by branch. -/
inductive Step (S : Settings) (t : T) (tokens : Tokens T) : Act → Proc → Tokens T → Proc → Prop
  /-- A request starts, or a statement finds nothing to write. -/
  | pass {a : Act} {p p' : Proc} (reading : p.reading = true) (bare : p'.bare = true) :
      Step S t tokens a p tokens p'
  | rollback {a : Act} {p : Proc} : Step S t tokens a p (tokens.rollback t) .raised
  | commit {env : Env} {p : Proc} {response : Response} (committing : p.committing = true) :
      Step S t tokens (.stmt env) p (tokens.commit t) (.returned response)
  | login {env : Env} {user_id : Uuid} {tokens' : Tokens T} (fresh : FreshFamily tokens env.uuid4)
      (absent : tokens.view t (S.hash env.token) = none)
      (put : tokens.put t (S.hash env.token) (some (newToken S env user_id none)) = some tokens') :
      Step S t tokens (.stmt env) (.login user_id) tokens'
        (.issued (newToken S env user_id none) env.token false)
  | select {a : Act} {token : String} {row : RefreshToken}
      (found : tokens.view t (S.hash token) = some row) :
      Step S t tokens a (.refresh token) tokens (.claim token row)
  | snapshot {a : Act} {token : String} {row : RefreshToken} :
      Step S t tokens a (.claim token row) tokens (.claimLock token row)
  | claim {env : Env} {token : String} {row r : RefreshToken} {tokens' : Tokens T}
      (found : tokens.view t (S.hash token) = some r) (claimable : r.claimable = true)
      (put : tokens.put t (S.hash token) (some { r with used_at := some env.now }) =
        some tokens') :
      Step S t tokens (.stmt env) (.claimLock token row) tokens' (.mint row)
  | mint {env : Env} {row : RefreshToken} {tokens' : Tokens T}
      (absent : tokens.view t (S.hash env.token) = none)
      (put : tokens.put t (S.hash env.token)
        (some (newToken S env row.user_id (some row.family_id))) = some tokens') :
      Step S t tokens (.stmt env) (.mint row) tokens'
        (.issued (newToken S env row.user_id (some row.family_id)) env.token true)
  | scan {a : Act} {scope : Scope} {response : Response} :
      Step S t tokens a (.revoke scope response) tokens
        (.revoking scope response (tokens.scan t scope.covers))
  | revoke {a : Act} {scope : Scope} {response : Response} {todo : Finset String} {k : String}
      {r : RefreshToken} {tokens' : Tokens T} (mem : k ∈ todo) (found : tokens.view t k = some r)
      (put : tokens.put t k (some { r with revoked := true }) = some tokens') :
      Step S t tokens a (.revoking scope response todo) tokens'
        (.revoking scope response (todo.erase k))
  /-- A row of the snapshot that is not there any more. -/
  | gone {a : Act} {scope : Scope} {response : Response} {todo : Finset String} {k : String}
      (mem : k ∈ todo) (absent : tokens.view t k = none) :
      Step S t tokens a (.revoking scope response todo) tokens
        (.revoking scope response (todo.erase k))
  | revoked {a : Act} {scope : Scope} {response : Response} :
      Step S t tokens a (.revoking scope response ∅) tokens (.revoked scope response)

/-- The `INSERT` of a new token writes its row under an unused hash, or ends the request. -/
theorem issue_refresh_token_cases {user_id : Uuid} {family_id : Option Uuid}
    (h : issue_refresh_token S t env user_id family_id tokens = some (tokens', p')) :
    (tokens.view t (S.hash env.token) = none ∧
        tokens.put t (S.hash env.token) (some (newToken S env user_id family_id)) =
          some tokens' ∧
        p' = .issued (newToken S env user_id family_id) env.token family_id.isSome) ∨
      tokens' = tokens.rollback t ∧ p' = .raised := by
  obtain ⟨x, hx, h⟩ := Option.map_eq_some_iff.mp h
  cases x with
  | ok tokens₁ =>
      obtain ⟨rfl, rfl⟩ := Prod.mk.inj h
      obtain ⟨hv, hput⟩ := Table.insert_eq_ok_iff.mp hx
      exact .inl ⟨hv, hput, rfl⟩
  | error e =>
      obtain ⟨rfl, rfl⟩ := Prod.mk.inj h
      exact .inr ⟨rfl, rfl⟩

/-- The `SELECT` of a rotation. -/
theorem step_of_selectToken {token : String} :
    Step S t tokens a (.refresh token) tokens (selectToken S t env token tokens) := by
  rw [selectToken]
  split
  · exact .pass rfl rfl
  · rename_i row hrow
    split
    · exact .pass rfl rfl
    · exact .select hrow

/-- The claim sets `used_at` in a row that is neither used nor revoked, or turns into the
revocation of the family. -/
theorem step_of_claimToken {token : String}
    (h : claimToken S t env token row tokens = some (tokens', p')) :
    Step S t tokens (.stmt env) (.claimLock token row) tokens' p' := by
  rw [claimToken] at h
  split at h
  · split at h
    · rename_i r hr
      split at h
      · rename_i hclaim
        obtain ⟨tokens₁, hput, h⟩ := Option.map_eq_some_iff.mp h
        obtain ⟨rfl, rfl⟩ := Prod.mk.inj h
        exact .claim hr hclaim hput
      · obtain ⟨rfl, rfl⟩ := Prod.mk.inj (Option.some.inj h)
        exact .pass rfl rfl
    · obtain ⟨rfl, rfl⟩ := Prod.mk.inj (Option.some.inj h)
      exact .pass rfl rfl
  · cases h

/-- One row of a revocation is rewritten, or is not there. -/
theorem step_of_revokeRow {todo : Finset String} (hk : k ∈ todo)
    (h : revokeRow t k tokens = some tokens') :
    Step S t tokens a (.revoking scope response todo) tokens'
      (.revoking scope response (todo.erase k)) := by
  rw [revokeRow] at h
  split at h
  · rename_i r hr
    exact .revoke hk hr h
  · rename_i hnone
    obtain rfl := Option.some.inj h
    exact .gone hk hnone

/-- **Every statement is a step**: the statements of the source, one by one, against the
constructors of `Step`. -/
theorem step_of_stmt (h : stmt S t env tokens p = some (tokens', p')) :
    Step S t tokens (.stmt env) p tokens' p' := by
  cases p with
  | idle | returned _ | raised => cases h
  | login user_id =>
      simp only [stmt] at h
      split at h
      · rename_i hfresh
        rcases issue_refresh_token_cases h with ⟨hv, hput, rfl⟩ | ⟨rfl, rfl⟩
        · exact .login hfresh hv hput
        · exact .rollback
      · cases h
  | refresh token =>
      obtain ⟨rfl, rfl⟩ := Prod.mk.inj (Option.some.inj h)
      exact step_of_selectToken
  | claim token row =>
      obtain ⟨rfl, rfl⟩ := Prod.mk.inj (Option.some.inj h)
      rw [claimSnapshot]
      split
      · exact .snapshot
      · exact .pass rfl rfl
  | claimLock token row => exact step_of_claimToken h
  | mint row =>
      rcases issue_refresh_token_cases h with ⟨hv, hput, rfl⟩ | ⟨rfl, rfl⟩
      · exact .mint hv hput
      · exact .rollback
  | logout token =>
      obtain ⟨rfl, rfl⟩ := Prod.mk.inj (Option.some.inj h)
      rw [revoke_family_of]
      split <;> exact .pass rfl rfl
  | revoke scope response =>
      obtain ⟨rfl, rfl⟩ := Prod.mk.inj (Option.some.inj h)
      exact .scan
  | revoking scope response todo =>
      simp only [stmt] at h
      split at h
      · rename_i hempty
        obtain ⟨rfl, rfl⟩ := Prod.mk.inj (Option.some.inj h)
        exact hempty ▸ .revoked
      · split at h
        · rename_i hmem
          obtain ⟨tokens₁, hrow, h⟩ := Option.map_eq_some_iff.mp h
          obtain ⟨rfl, rfl⟩ := Prod.mk.inj h
          exact step_of_revokeRow hmem hrow
        · cases h
  | issued _ _ _ | revoked _ _ | finish _ =>
      obtain ⟨rfl, rfl⟩ := Prod.mk.inj (Option.some.inj h)
      exact .commit rfl

/-- **Every action is one of these steps.** -/
theorem step_of_exec (h : exec S t a tokens p = some (tokens', p')) :
    Step S t tokens a p tokens' p' := by
  cases a with
  | login user_id | refresh token | logout token | revokeAll user_id =>
      cases p <;> simp only [exec, reduceCtorEq] at h
      obtain ⟨rfl, rfl⟩ := Prod.mk.inj (Option.some.inj h)
      exact .pass rfl rfl
  | stmt env => exact step_of_stmt h
  | fail =>
      simp only [exec] at h
      split at h
      · cases h
      · obtain ⟨rfl, rfl⟩ := Prod.mk.inj (Option.some.inj h)
        exact .rollback

/-- An action writes one row for a reason, commits, rolls back, or changes nothing. -/
theorem exec_cases (h : exec S t a tokens p = some (tokens', p')) :
    tokens' = tokens ∨ tokens' = tokens.rollback t ∨
      ((∃ env, a = .stmt env) ∧ p.committing = true ∧ tokens' = tokens.commit t) ∨
      ∃ k r, tokens.put t k (some r) = some tokens' ∧ Justified t tokens p k r := by
  cases step_of_exec h with
  | pass | select | snapshot | scan | gone | revoked => exact .inl rfl
  | rollback => exact .inr (.inl rfl)
  | commit hp => exact .inr (.inr (.inl ⟨⟨_, rfl⟩, hp, rfl⟩))
  | login hfresh hv hput => exact .inr (.inr (.inr ⟨_, _, hput, .inr (.inr (.inl hfresh))⟩))
  | claim hr hclaim hput =>
      have hrev := (RefreshToken.claimable_iff.mp hclaim).2
      exact .inr (.inr (.inr ⟨_, _, hput, .inl ⟨_, hr, hrev, rfl, rfl⟩⟩))
  | mint hv hput => exact .inr (.inr (.inr ⟨_, _, hput, .inr (.inl ⟨_, rfl, rfl, rfl⟩)⟩))
  | revoke hk hr hput =>
      exact .inr (.inr (.inr ⟨_, _, hput, .inr (.inr (.inr ⟨rfl, _, hr, rfl, rfl⟩))⟩))

/-! ### Assertions -/

/-- Row `k` is committed, as a row of the same user and family as `row`. -/
def Known (tokens : Tokens T) (k : String) (row : RefreshToken) : Prop :=
  ∃ r₀, tokens.committed k = some r₀ ∧ r₀.Kin row

/-- `t` has rewritten the committed row `k`, and the version it wrote is `r`. -/
def Rewrote (t : T) (tokens : Tokens T) (k : String) (r : RefreshToken) : Prop :=
  tokens.written t k = some (some r) ∧ Known tokens k r

/-- `t` has claimed a token of the user and family of `row`, as row `k`. -/
def Claimed (t : T) (tokens : Tokens T) (k : String) (row : RefreshToken) : Prop :=
  ∃ r, Rewrote t tokens k r ∧ r.revoked = false ∧ r.Kin row

/-- `t` has inserted `row` under an unused hash. -/
def Minted (t : T) (tokens : Tokens T) (k : String) (row : RefreshToken) : Prop :=
  tokens.written t k = some (some row) ∧ tokens.committed k = none

/-- No other row, committed or uncommitted, has the family of the row that `t` inserted. -/
def NewFamily (t : T) (tokens : Tokens T) (row : RefreshToken) : Prop :=
  (∀ {k r}, tokens.committed k = some r → r.family_id ≠ row.family_id) ∧
    ∀ {u k r}, u ≠ t → tokens.written u k = some (some r) → r.family_id ≠ row.family_id

/-- Whatever `t` has written revokes a committed row. -/
def RevokesOnly (t : T) (tokens : Tokens T) : Prop :=
  ∀ k v, tokens.written t k = some v →
    ∃ r, v = some r ∧ r.revoked = true ∧ Known tokens k r

/-- The assertion of a request: what it holds uncommitted where it stands. -/
def Loc (S : Settings) (t : T) (tokens : Tokens T) : Proc → Prop
  | .claim token row | .claimLock token row =>
      tokens.Untouched t ∧ Known tokens (S.hash token) row
  | .mint row =>
      ∃ k, Claimed t tokens k row ∧ ∀ j, j ≠ k → tokens.written t j = none
  | .issued row _ true =>
      ∃ k k', Claimed t tokens k row ∧ Minted t tokens k' row ∧
        ∀ j, j ≠ k → j ≠ k' → tokens.written t j = none
  | .issued row _ false =>
      ∃ k, Minted t tokens k row ∧ NewFamily t tokens row ∧
        ∀ j, j ≠ k → tokens.written t j = none
  | .revoking _ _ _ | .revoked _ _ => RevokesOnly t tokens
  | _ => tokens.Untouched t

/-- Families belong to users. -/
def OwnedFamilies (tokens : Tokens T) : Prop :=
  ∃ owner : Uuid → Uuid, ∀ {k r}, tokens.committed k = some r →
    r.user_id = owner r.family_id

/-- An uncommitted row rewrites a committed one or is the token that its writer is about
to commit. -/
theorem Loc.written (hL : Loc S t tokens p) {w : Option RefreshToken}
    (hw : tokens.written t k = some w) :
    ∃ r, w = some r ∧ (Known tokens k r ∨
      tokens.committed k = none ∧ ∃ token rotated, p = .issued r token rotated) := by
  have hclean : ¬ tokens.Untouched t := fun h => h.not_written hw
  cases p with
  | idle | login _ | refresh _ | logout _ | revoke _ _ | finish _ | returned _ | raised =>
      exact absurd hL hclean
  | claim _ _ | claimLock _ _ => exact absurd hL.1 hclean
  | mint row =>
      obtain ⟨j, ⟨r, ⟨hr, hknown⟩, -, -⟩, hsole⟩ := hL
      by_cases hk : k = j
      · subst hk
        exact ⟨r, Option.some.inj (hw.symm.trans hr), .inl hknown⟩
      · exact absurd hw (by simp [hsole k hk])
  | issued row token rotated =>
      cases rotated with
      | true =>
          obtain ⟨j, j', ⟨r, ⟨hr, hknown⟩, -, -⟩, ⟨hrow, hnone⟩, hsole⟩ := hL
          by_cases hk : k = j
          · subst hk
            exact ⟨r, Option.some.inj (hw.symm.trans hr), .inl hknown⟩
          · by_cases hk' : k = j'
            · subst hk'
              exact ⟨row, Option.some.inj (hw.symm.trans hrow),
                .inr ⟨hnone, token, true, rfl⟩⟩
            · exact absurd hw (by simp [hsole k hk hk'])
      | false =>
          obtain ⟨j, ⟨hrow, hnone⟩, -, hsole⟩ := hL
          by_cases hk : k = j
          · subst hk
            exact ⟨row, Option.some.inj (hw.symm.trans hrow),
              .inr ⟨hnone, token, false, rfl⟩⟩
          · exact absurd hw (by simp [hsole k hk])
  | revoking scope response todo | revoked scope response =>
      obtain ⟨r, hr, -, hknown⟩ := hL k w hw
      exact ⟨r, hr, .inl hknown⟩

/-! ### Interference freedom -/

/-- From `tokens` to `tokens'` request `u` is left **undisturbed**: its own uncommitted
rows and the committed versions under them are the same, and committed rows keep their
user and family. -/
structure Undisturbed (u : T) (tokens tokens' : Tokens T) : Prop where
  written : tokens'.written u = tokens.written u
  held : ∀ {k v}, tokens.written u k = some v → tokens'.committed k = tokens.committed k
  kin : ∀ {k r}, tokens.committed k = some r →
    ∃ r', tokens'.committed k = some r' ∧ r.Kin r'

/-- What a request does before its commit disturbs no other. -/
theorem undisturbed_of_private (h : Table.Private t tokens tokens') (hu : u ≠ t) :
    Undisturbed u tokens tokens' :=
  ⟨h.written u hu, fun _ => by rw [h.committed],
    fun {k r} hr => ⟨r, by rw [h.committed, hr], .refl r⟩⟩

/-- A commit keeps the user and the family of every committed row. -/
theorem Loc.kin_commit (hL : Loc S t tokens p) (hr : tokens.committed k = some r) :
    ∃ r', (tokens.commit t).committed k = some r' ∧ r.Kin r' := by
  cases hw : tokens.written t k with
  | none => exact ⟨r, (Table.committed_commit_of_written_eq_none hw).trans hr, .refl r⟩
  | some w =>
      obtain ⟨r', rfl, ⟨r₀, hr₀, hkin⟩ | ⟨hnone, -⟩⟩ := hL.written hw
      · obtain rfl : r₀ = r := Option.some.inj (hr₀.symm.trans hr)
        exact ⟨r', by rw [Table.committed_commit, Table.view_of_written hw], hkin⟩
      · rw [hr] at hnone
        cases hnone

/-- A row that is committed after a commit was a row of the same user and family before,
or is the token that the request issues. -/
theorem Loc.origin (hL : Loc S t tokens p) (hr : (tokens.commit t).committed k = some r) :
    Known tokens k r ∨ tokens.committed k = none ∧ tokens.written t k = some (some r) ∧
      ∃ token rotated, p = .issued r token rotated := by
  rw [Table.committed_commit] at hr
  cases hw : tokens.written t k with
  | none =>
      rw [Table.view_of_written_eq_none hw] at hr
      exact .inl ⟨r, hr, .refl r⟩
  | some w =>
      rw [Table.view_of_written hw] at hr
      subst hr
      obtain ⟨r', hr', h | ⟨hnone, h⟩⟩ := hL.written hw
      · exact .inl (Option.some.inj hr' ▸ h)
      · exact .inr ⟨hnone, rfl, Option.some.inj hr' ▸ h⟩

/-- Nor does its commit, since it rewrites rows as their kin only: that is its assertion `Loc`. -/
theorem undisturbed_of_commit (hL : Loc S t tokens p) (hu : u ≠ t) :
    Undisturbed u tokens (tokens.commit t) where
  written := Table.written_commit_ne _ hu
  held hv := Table.committed_commit_of_written hv hu
  kin hr := hL.kin_commit hr

/-- An undisturbed request goes on knowing the rows that it has read, as their kin. -/
theorem Undisturbed.known (h : Undisturbed u tokens tokens') (hk : Known tokens k row) :
    Known tokens' k row := by
  obtain ⟨r₀, hr₀, hkin⟩ := hk
  obtain ⟨r', hr', hkin'⟩ := h.kin hr₀
  exact ⟨r', hr', hkin'.symm.trans hkin⟩

/-- It keeps the token that it has claimed. -/
theorem Undisturbed.claimed (h : Undisturbed u tokens tokens') (hc : Claimed u tokens k row) :
    Claimed u tokens' k row := by
  obtain ⟨r, ⟨hr, hknown⟩, hrest⟩ := hc
  exact ⟨r, ⟨by rw [h.written, hr], h.known hknown⟩, hrest⟩

/-- And the row that it has inserted. -/
theorem Undisturbed.minted (h : Undisturbed u tokens tokens') (hm : Minted u tokens k row) :
    Minted u tokens' k row :=
  ⟨by rw [h.written, hm.1], by rw [h.held hm.1, hm.2]⟩

/-- And whatever it has written goes on revoking committed rows. -/
theorem Undisturbed.revokesOnly (h : Undisturbed u tokens tokens')
    (hr : RevokesOnly u tokens) : RevokesOnly u tokens' := by
  intro k v hv
  rw [h.written] at hv
  obtain ⟨r, hv, hrev, hknown⟩ := hr k v hv
  exact ⟨r, hv, hrev, h.known hknown⟩

/-- **Interference freedom.** The assertion of a request survives every step that leaves it
undisturbed and keeps the family that it starts new. -/
theorem Undisturbed.loc (h : Undisturbed u tokens tokens')
    (hfamily : ∀ {row}, NewFamily u tokens row → (∃ k, tokens.written u k = some (some row)) →
      NewFamily u tokens' row)
    (hL : Loc S u tokens p) : Loc S u tokens' p := by
  have hsole : ∀ {j}, tokens.written u j = none → tokens'.written u j = none := by
    intro j hj
    rw [h.written, hj]
  cases p with
  | idle | login _ | refresh _ | logout _ | revoke _ _ | finish _ | returned _ | raised =>
      exact Table.Untouched.congr hL h.written
  | claim token row | claimLock token row => exact ⟨hL.1.congr h.written, h.known hL.2⟩
  | mint row =>
      obtain ⟨k, hc, hrest⟩ := hL
      exact ⟨k, h.claimed hc, fun j hj => hsole (hrest j hj)⟩
  | issued row token rotated =>
      cases rotated with
      | true =>
          obtain ⟨k, k', hc, hm, hrest⟩ := hL
          exact ⟨k, k', h.claimed hc, h.minted hm, fun j hj hj' => hsole (hrest j hj hj')⟩
      | false =>
          obtain ⟨k, hm, hf, hrest⟩ := hL
          exact ⟨k, h.minted hm, hfamily hf ⟨k, hm.1⟩, fun j hj => hsole (hrest j hj)⟩
  | revoking scope response todo | revoked scope response => exact h.revokesOnly hL

/-- **No action of one request disturbs another**, whatever the action is. -/
theorem undisturbed_of_exec (hL : Loc S t tokens p)
    (h : exec S t a tokens p = some (tokens', p')) (hu : u ≠ t) :
    Undisturbed u tokens tokens' := by
  rcases exec_cases h with rfl | rfl | ⟨-, -, rfl⟩ | ⟨k, r, hput, -⟩
  · exact undisturbed_of_private (.refl t _) hu
  · exact undisturbed_of_private (.of_rollback t _) hu
  · exact undisturbed_of_commit hL hu
  · exact undisturbed_of_private (.of_put hput) hu

/-- What another transaction sees is of another family. -/
theorem NewFamily.view (hf : NewFamily u tokens row) (hu : t ≠ u)
    (hr : tokens.view t k = some r) : r.family_id ≠ row.family_id := by
  cases hw : tokens.written t k with
  | none =>
      rw [Table.view_of_written_eq_none hw] at hr
      exact hf.1 hr
  | some w =>
      rw [Table.view_of_written hw] at hr
      subst hr
      exact hf.2 hu hw

/-- A new family stays new until its first token is committed. -/
theorem NewFamily.of_exec (hf : NewFamily u tokens row) (hw : tokens.written u k = some (some row))
    (hL : Loc S t tokens p) (h : exec S t a tokens p = some (tokens', p')) (hu : u ≠ t) :
    NewFamily u tokens' row := by
  rcases exec_cases h with rfl | rfl | ⟨-, -, rfl⟩ | ⟨j, r, hput, hjust⟩
  · exact hf
  · refine ⟨fun hr => hf.1 (by simpa using hr), fun {v j r} hv hr => ?_⟩
    rw [Table.written_rollback] at hr
    split at hr
    · cases hr
    · exact hf.2 hv hr
  · refine ⟨fun hr => hf.view hu.symm (by simpa using hr), fun {v j r} hv hr => ?_⟩
    rw [Table.written_commit] at hr
    split at hr
    · cases hr
    · exact hf.2 hv hr
  · have hr : r.family_id ≠ row.family_id := by
      rcases hjust with ⟨r₀, hr₀, -, hkin⟩ | ⟨row', rfl, hkin⟩ | hfresh | ⟨-, r₀, hr₀, hkin⟩
      · exact hkin.2 ▸ hf.view hu.symm hr₀
      · obtain ⟨i, ⟨r₁, ⟨-, r₂, hr₂, hkin₂⟩, -, hkin₁⟩, -⟩ := hL
        have hne := hf.1 hr₂
        rwa [hkin₂.2, hkin₁.2, hkin.2] at hne
      · exact (hfresh.written hw).symm
      · exact hkin.2 ▸ hf.view hu.symm hr₀
    refine ⟨fun hr' => hf.1 (by rwa [Table.committed_put hput] at hr'), fun {v i r'} hv hr' => ?_⟩
    rw [Table.written_put hput] at hr'
    split at hr'
    · obtain rfl : r = r' := Option.some.inj (Option.some.inj hr')
      exact hr
    · exact hf.2 hv hr'

/-! ### Local correctness -/

/-- The claim of a clean request. -/
theorem claimed_of_put {now : ℕ} {tokens' : Tokens T} (hun : tokens.Untouched t)
    (hk : Known tokens k row) (hr : tokens.view t k = some r) (hrev : r.revoked = false)
    (hput : tokens.put t k (some { r with used_at := some now }) = some tokens') :
    Claimed t tokens' k row := by
  obtain ⟨r₀, hr₀, hkin⟩ := hk
  rw [hun.view, hr₀, Option.some.injEq] at hr
  subst hr
  refine ⟨_, ⟨Table.written_put_self hput, r₀, ?_, rfl, rfl⟩, hrev, hkin.1, hkin.2⟩
  rw [Table.committed_put hput, hr₀]

/-- One row of a revocation that is rewritten. -/
theorem revokesOnly_of_put {tokens' : Tokens T} (h : RevokesOnly t tokens)
    (hr : tokens.view t k = some r)
    (hput : tokens.put t k (some { r with revoked := true }) = some tokens') :
    RevokesOnly t tokens' := by
  intro j v hv
  rw [Table.written_put hput] at hv
  split at hv
  · rename_i hj
    obtain rfl := Option.some.inj hv
    refine ⟨_, rfl, rfl, ?_⟩
    obtain ⟨-, rfl⟩ := hj
    cases hw : tokens.written t j with
    | none =>
        rw [Table.view_of_written_eq_none hw] at hr
        exact ⟨r, by rw [Table.committed_put hput, hr], rfl, rfl⟩
    | some w =>
        rw [Table.view_of_written hw] at hr
        subst hr
        obtain ⟨r₁, hr₁, -, r₀, hr₀, hkin⟩ := h j _ hw
        obtain rfl := Option.some.inj hr₁
        exact ⟨r₀, by rw [Table.committed_put hput, hr₀], hkin.1, hkin.2⟩
  · obtain ⟨r', hr', hrev, r₀, hr₀, hkin⟩ := h j v hv
    exact ⟨r', hr', hrev, r₀, by rw [Table.committed_put hput, hr₀], hkin⟩

/-- A request that reads has written nothing. -/
theorem Loc.untouched_of_reading (hL : Loc S t tokens p) (hp : p.reading = true) :
    tokens.Untouched t := by
  cases p with
  | idle | refresh _ | logout _ => exact hL
  | claim _ _ | claimLock _ _ => exact hL.1
  | _ => cases hp

/-- The assertion of a request that has found nothing yet. -/
theorem loc_of_bare (hun : tokens.Untouched t) (hp : p.bare = true) : Loc S t tokens p := by
  cases p with
  | login _ | refresh _ | logout _ | revoke _ _ | finish _ => exact hun
  | _ => cases hp

/-- The `INSERT` of a login. -/
theorem loc_of_login {user_id : Uuid} (hun : tokens.Untouched t)
    (hfresh : FreshFamily tokens env.uuid4) (hv : tokens.view t (S.hash env.token) = none)
    (hput : tokens.put t (S.hash env.token) (some (newToken S env user_id none)) = some tokens') :
    Loc S t tokens' (.issued (newToken S env user_id none) env.token false) := by
  have hnone : tokens.committed (S.hash env.token) = none := by
    rw [← hun.view, hv]
  refine ⟨_, ⟨Table.written_put_self hput, ?_⟩, ⟨fun hr => ?_, fun {v j r} hv' hr => ?_⟩,
    fun j hj => ?_⟩
  · rw [Table.committed_put hput, hnone]
  · rw [Table.committed_put hput] at hr
    exact hfresh.committed hr
  · rw [Table.written_put_of_ne hput hv'] at hr
    exact hfresh.written hr
  · rw [Table.written_put_of_key_ne hput hj, hun j]

/-- The `INSERT` of a successor. -/
theorem loc_of_mint (hL : Loc S t tokens (.mint row))
    (hv : tokens.view t (S.hash env.token) = none)
    (hput : tokens.put t (S.hash env.token)
      (some (newToken S env row.user_id (some row.family_id))) = some tokens') :
    Loc S t tokens'
      (.issued (newToken S env row.user_id (some row.family_id)) env.token true) := by
  obtain ⟨k, ⟨r, ⟨hr, r₀, hr₀, hkin₀⟩, hrev, hkin⟩, hsole⟩ := hL
  -- the successor goes under another hash: its own row is visible to `t`
  have hne : S.hash env.token ≠ k := by
    intro he
    rw [he, Table.view_of_written hr] at hv
    cases hv
  have hnone : tokens.committed (S.hash env.token) = none := by
    rw [← Table.view_of_written_eq_none (hsole _ hne), hv]
  refine ⟨k, _, ⟨r, ⟨?_, r₀, ?_, hkin₀⟩, hrev, hkin⟩, ⟨Table.written_put_self hput, ?_⟩,
    fun j hj hj' => ?_⟩
  · rw [Table.written_put_of_key_ne hput hne.symm, hr]
  · rw [Table.committed_put hput, hr₀]
  · rw [Table.committed_put hput, hnone]
  · rw [Table.written_put_of_key_ne hput hj', hsole j hj]

/-- **Local correctness.** Every step establishes the next assertion of its request. -/
theorem Step.loc (h : Step S t tokens a p tokens' p') (hL : Loc S t tokens p) :
    Loc S t tokens' p' := by
  cases h with
  | pass hreading hbare => exact loc_of_bare (hL.untouched_of_reading hreading) hbare
  | rollback => exact Table.untouched_rollback _ _
  | commit hp => exact Table.untouched_commit _ _
  | login hfresh hv hput => exact loc_of_login hL hfresh hv hput
  | select hrow =>
      have hun : tokens.Untouched t := hL
      rw [hun.view] at hrow
      exact ⟨hun, _, hrow, .refl _⟩
  | snapshot => exact hL
  | claim hr hclaim hput =>
      obtain ⟨hun, hk⟩ := hL
      have hrev := (RefreshToken.claimable_iff.mp hclaim).2
      refine ⟨_, claimed_of_put hun hk hr hrev hput, fun j hj => ?_⟩
      rw [Table.written_put_of_key_ne hput hj, hun j]
  | mint hv hput => exact loc_of_mint hL hv hput
  | scan =>
      have hun : tokens.Untouched t := hL
      exact fun k v hv => absurd hv hun.not_written
  | revoke hk hr hput => exact revokesOnly_of_put hL hr hput
  | gone | revoked => exact hL

/-- **Families belong to users**, and no commit changes that. -/
theorem OwnedFamilies.of_exec (ho : OwnedFamilies tokens) (hL : Loc S t tokens p)
    (h : exec S t a tokens p = some (tokens', p')) : OwnedFamilies tokens' := by
  obtain ⟨owner, howner⟩ := ho
  rcases exec_cases h with rfl | rfl | ⟨-, -, rfl⟩ | ⟨k, r, hput, -⟩
  · exact ⟨owner, howner⟩
  · exact ⟨owner, fun hr => howner (by simpa using hr)⟩
  · by_cases hnew : ∃ row token, p = .issued row token false
    · -- a login commits the first token of a family that nobody owns yet
      obtain ⟨row, token, rfl⟩ := hnew
      obtain ⟨k₀, -, hf, -⟩ := id hL
      refine ⟨Function.update owner row.family_id row.user_id, fun {k r} hr => ?_⟩
      rcases hL.origin hr with ⟨r₀, hr₀, hkin⟩ | ⟨-, -, _, _, hp⟩
      · have hne : r.family_id ≠ row.family_id := hkin.2 ▸ hf.1 hr₀
        rw [Function.update_of_ne hne, ← hkin.1, howner hr₀, hkin.2]
      · obtain rfl : row = r := (Proc.issued.inj hp).1
        rw [Function.update_self]
    · refine ⟨owner, fun {k r} hr => ?_⟩
      have hknown : ∃ j, Known tokens j r := by
        rcases hL.origin hr with hk | ⟨-, -, token, rotated, rfl⟩
        · exact ⟨k, hk⟩
        · cases rotated with
          | true =>
              obtain ⟨j, j', ⟨r₁, ⟨-, r₀, hr₀, hkin₀⟩, -, hkin⟩, -⟩ := hL
              exact ⟨j, r₀, hr₀, hkin₀.trans hkin⟩
          | false => exact absurd ⟨r, token, rfl⟩ hnew
      obtain ⟨j, r₀, hr₀, hkin⟩ := hknown
      rw [← hkin.1, howner hr₀, hkin.2]
  · exact ⟨owner, fun hr => howner (by rwa [Table.committed_put hput] at hr)⟩

/-- The outline of the assertions, for any condition on the schedules. -/
theorem outline (S : Settings) (ok : Config T (Tokens T) Proc → T → Act → Prop) :
    (program S).Outline ok OwnedFamilies (Loc S) where
  step _ ho hL h := ⟨ho.of_exec (hL _) h, (step_of_exec h).loc (hL _)⟩
  frame hu _ _ hL h :=
    (undisturbed_of_exec (hL _) h hu).loc (fun hf ⟨_, hw⟩ => hf.of_exec hw (hL _) h hu) (hL _)

/-- **The assertions hold along every run.** -/
theorem sessions_of_run {ok : Config T (Tokens T) Proc → T → Act → Prop}
    (h : (program S).Run ok init c) :
    OwnedFamilies c.shared ∧ ∀ u, Loc S u c.shared (c.proc u) :=
  (outline S ok).run h ⟨fun _ => Uuid.ofNat 0, fun hr => by cases hr⟩ fun u =>
    Table.untouched_empty u

end BackendManager.Users
