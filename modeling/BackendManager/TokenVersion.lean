import BackendManager.Interleaving
import BackendManager.ReadCommitted
import BackendManager.Uuid

/-!
# Access Tokens and the Column `token_version`

The model of `VersionedJWTStrategy` in `app/users/auth.py` and of the requests that mint
access tokens or bump the version: login and refresh, logout-all, and a password reset with
`on_after_reset_password`. Each request is cut at every statement on the table `user`, and
any number of them interleave under READ COMMITTED.

## Statement convention

* `user.token_version += 1` computes the new version from the row as this request has
  loaded it. The flush is an `UPDATE` that assigns this number and no other column, waits
  for the row lock, and does not look at the version it overwrites.
* A password reset is two transactions: `user_db.update` writes the new hash and commits,
  and `on_after_reset_password` bumps the version. The session keeps the loaded row across
  the first commit (`expire_on_commit=False`), unless `user_db.update` refreshes it.
* A request names its user by the key of the row. The statements on `refresh_tokens`
  touch no row of this table and are left out.
* Signatures are left out: a request may present an access token with any claims, which
  allows strictly more interleavings.

## Main results

* `versions_of_run`: as long as every bump is computed from the stored version, versions
  held by requests are at most the stored one, which no commit lowers.
* `rejected_after_bump`: then a token of a row that was read before the commit of a bump
  is rejected ever after.
* `accepted_after_bump`: two overlapping bumps that have loaded the same version, and a
  login between their commits whose token outlives the second one.
-/

namespace BackendManager.Users.Access

open ReadCommitted Interleaving

/-- A row of `user`: the columns that the requests read or write. -/
structure User where
  hashed_password : String
  is_active : Bool
  token_version : ℕ
deriving DecidableEq

/-- The table `user`, keyed by `id`. -/
abbrev UserTable (T : Type) := Table T Uuid User

/-- The claims of an access token. -/
structure AccessToken where
  sub : Uuid
  tv : ℕ
  jti : String
  exp : ℕ
deriving DecidableEq

/-- What the module takes from its environment for good. -/
structure Settings where
  /-- `password_helper.hash`. -/
  hash : String → String
  /-- `password_helper.verify_and_update`: the plain text belongs to the hash. -/
  verify : String → String → Bool
  users_jwt_lifetime_seconds : ℕ

/-- Where a request stands: the statement it executes next, with what its Python frame
holds at that point. -/
inductive Proc
  /-- Not started. -/
  | idle
  /-- The `SELECT` of `authenticate` is next. -/
  | login (id : Uuid) (password : String)
  /-- The refresh token is rotated: the `SELECT` of `user_manager.get` is next. -/
  | refresh (id : Uuid)
  /-- The row is read: the token is minted, and `COMMIT` is next. -/
  | authenticated (id : Uuid) (user : User)
  /-- The `SELECT` of `read_token` is next. -/
  | logout_all (token : AccessToken)
  /-- The `SELECT` of `reset_password` is next. -/
  | reset_password (id : Uuid) (fingerprint password : String)
  /-- The `UPDATE` of `user_db.update` is next. -/
  | password (id : Uuid) (user : User) (password : String)
  /-- The new hash is written; `COMMIT` is next. -/
  | passwordCommit (id : Uuid) (user : User)
  /-- `user_db.update` returns. -/
  | reload (id : Uuid) (user : User)
  /-- `token_version` is incremented in memory: the `UPDATE` is next. -/
  | bump (id : Uuid) (user : User)
  /-- The new version is written; `COMMIT` is next. -/
  | bumpCommit (id : Uuid)
  /-- The request has committed; `token` is what it hands out. -/
  | returned (token : Option AccessToken)
  /-- The request is refused or has failed, and its transaction was rolled back. -/
  | raised
deriving DecidableEq

/-- What the environment decides for one statement. -/
structure Env where
  /-- The reading of the clock. -/
  now : ℕ
  /-- The value drawn by `uuid.uuid4().hex`. -/
  jti : String
  /-- `is_jti_denied` of the token at hand. -/
  denied : Bool
  /-- `user_db.update` refreshes the row after its commit. -/
  refreshes : Bool
deriving DecidableEq

/-- One scheduled action of a request. -/
inductive Act
  | login (id : Uuid) (password : String)
  | refresh (id : Uuid)
  | logout_all (token : AccessToken)
  | reset_password (id : Uuid) (fingerprint password : String)
  /-- The next statement. -/
  | stmt (env : Env)
  /-- The request fails and is rolled back. -/
  | fail
deriving DecidableEq

variable {T : Type} [DecidableEq T]

/-! ### `auth.py` -/

/-- `write_token`. -/
def write_token (S : Settings) (env : Env) (id : Uuid) (user : User) : AccessToken where
  sub := id
  tv := user.token_version
  jti := env.jti
  exp := env.now + S.users_jwt_lifetime_seconds

/-- `read_token` of a token with a valid signature. -/
def read_token (env : Env) (t : T) (users : UserTable T) (token : AccessToken) : Option User :=
  if token.exp ≤ env.now ∨ env.denied then none
  else (users.view t token.sub).filter fun user => token.tv = user.token_version

/-! ### Requests -/

/-- The row that a login or a refresh goes on with. -/
def authenticate (t : T) (users : UserTable T) (id : Uuid) (accept : User → Bool) : Proc :=
  match (users.view t id).filter fun user => accept user && user.is_active with
  | some user => .authenticated id user
  | none => .raised

/-- `current_active_user` of `logout_all`. -/
def current_active_user (env : Env) (t : T) (users : UserTable T) (token : AccessToken) : Proc :=
  match (read_token env t users token).filter (·.is_active) with
  | some user => .bump token.sub user
  | none => .raised

/-- The `SELECT` and the checks of `reset_password`. -/
def checkReset (S : Settings) (t : T) (users : UserTable T) (id : Uuid)
    (fingerprint password : String) : Proc :=
  match (users.view t id).filter fun user =>
      S.verify user.hashed_password fingerprint && user.is_active with
  | some user => .password id user password
  | none => .raised

/-- The `UPDATE` of one column, on the version that is found once the row lock is held. No
row is an error. -/
def update (t : T) (users : UserTable T) (id : Uuid) (f : User → User) (next : Proc) :
    Option (UserTable T × Proc) :=
  match users.view t id with
  | some user => (users.put t id (some (f user))).map fun users' => (users', next)
  | none => some (users.rollback t, .raised)

/-- The row after `user_db.update`: refreshed, or as it was loaded. -/
def reload (env : Env) (t : T) (users : UserTable T) (id : Uuid) (user : User) : Proc :=
  if env.refreshes then
    match users.view t id with
    | some user => .bump id user
    | none => .raised
  else .bump id user

/-- The next statement of a request. -/
def stmt (S : Settings) (t : T) (env : Env) (users : UserTable T) :
    Proc → Option (UserTable T × Proc)
  | .login id password =>
      some (users, authenticate t users id fun user => S.verify password user.hashed_password)
  | .refresh id => some (users, authenticate t users id fun _ => true)
  | .authenticated id user =>
      some (users.commit t, .returned (some (write_token S env id user)))
  | .logout_all token => some (users, current_active_user env t users token)
  | .reset_password id fingerprint password =>
      some (users, checkReset S t users id fingerprint password)
  | .password id user password =>
      update t users id ({ · with hashed_password := S.hash password })
        (.passwordCommit id { user with hashed_password := S.hash password })
  | .passwordCommit id user => some (users.commit t, .reload id user)
  | .reload id user => some (users, reload env t users id user)
  | .bump id user =>
      update t users id ({ · with token_version := user.token_version + 1 }) (.bumpCommit id)
  | .bumpCommit _ => some (users.commit t, .returned none)
  | .idle | .returned _ | .raised => none

/-- The request has ended. -/
def Proc.ended : Proc → Bool
  | .returned _ | .raised => true
  | _ => false

/-- One action of one request. -/
def exec (S : Settings) (t : T) : Act → UserTable T → Proc → Option (UserTable T × Proc)
  | .login id password, users, .idle => some (users, .login id password)
  | .refresh id, users, .idle => some (users, .refresh id)
  | .logout_all token, users, .idle => some (users, .logout_all token)
  | .reset_password id fingerprint password, users, .idle =>
      some (users, .reset_password id fingerprint password)
  | .stmt env, users, p => stmt S t env users p
  | .fail, users, p => if p.ended then none else some (users.rollback t, .raised)
  | _, _, _ => none

/-- The requests as an interleaved program. -/
def program (S : Settings) : Program T (UserTable T) Proc Act := ⟨exec S⟩

/-- A start: any users, nobody holds a row, and no request has started. -/
structure Start (c : Config T (UserTable T) Proc) : Prop where
  untouched : ∀ t, c.shared.Untouched t
  idle : ∀ t, c.proc t = .idle

/-- All schedules. -/
abbrev Any : Config T (UserTable T) Proc → T → Act → Prop := fun _ _ _ => True

/-- A bump is computed from the stored version: the condition on the state before each
step. -/
def Current (c : Config T (UserTable T) Proc) (t : T) (a : Act) : Prop :=
  match a, c.proc t with
  | .stmt _, .bump id user =>
      (c.shared.view t id).all fun stored => stored.token_version = user.token_version
  | _, _ => True

instance (c : Config T (UserTable T) Proc) (t : T) (a : Act) : Decidable (Current c t a) := by
  unfold Current
  split <;> infer_instance

section Proofs

variable {S : Settings} {t u v : T} {users users' : UserTable T} {env : Env}
  {c d e : Config T (UserTable T) Proc} {a : Act} {p p' : Proc} {i id : Uuid} {user r : User}
  {m n : ℕ}

/-! ### What a request holds -/

/-- The row that a request has read and still works with. -/
def Proc.row : Proc → Option (Uuid × User)
  | .authenticated id user | .password id user _ | .passwordCommit id user
  | .reload id user | .bump id user => some (id, user)
  | _ => none

/-- How far the version that a request has written is above the stored one, if it has
written a row. -/
def Proc.writes : Proc → Option (Uuid × ℕ)
  | .passwordCommit id _ => some (id, 0)
  | .bumpCommit id => some (id, 1)
  | _ => none

/-- The committed row of the user has at least this version. -/
def AtLeast (users : UserTable T) (id : Uuid) (n : ℕ) : Prop :=
  ∃ r, users.committed id = some r ∧ n ≤ r.token_version

/-- `t` has written the row of the user and nothing else, with a version that is `n` above
the committed one. -/
def Raises (t : T) (users : UserTable T) (id : Uuid) (n : ℕ) : Prop :=
  ∃ r r', users.committed id = some r ∧ users.Sole t id (some r') ∧
    r'.token_version = r.token_version + n

/-- What a request has written. -/
def Footprint (t : T) (users : UserTable T) (p : Proc) : Prop :=
  match p.writes with
  | some (id, n) => Raises t users id n
  | none => users.Untouched t

/-- The assertion of a request: what it has written, and that the version it holds is at
most the stored one. -/
structure Loc (t : T) (users : UserTable T) (p : Proc) : Prop where
  footprint : Footprint t users p
  row : ∀ {id user}, p.row = some (id, user) → AtLeast users id user.token_version

/-- What a transaction without writes reads is committed. -/
theorem atLeast_of_view (hun : users.Untouched t) (h : users.view t id = some r) :
    AtLeast users id r.token_version := by
  rw [hun.view] at h
  exact ⟨r, h, le_refl _⟩

/-- A written row is the row of the footprint. -/
theorem Footprint.written {w : Option User} (h : Footprint t users p)
    (hw : users.written t i = some w) :
    ∃ n r r', p.writes = some (i, n) ∧ users.committed i = some r ∧ w = some r' ∧
      r'.token_version = r.token_version + n := by
  unfold Footprint at h
  split at h
  · rename_i id n hp
    obtain ⟨r, r', hr, hsole, hn⟩ := h
    obtain ⟨rfl, rfl⟩ := hsole.eq_of_written hw
    exact ⟨n, r, r', hp, hr, rfl, hn⟩
  · exact absurd hw h.not_written

/-- A commit lowers no version. -/
theorem AtLeast.commit (hat : AtLeast users i n) (h : Footprint t users p) :
    AtLeast (users.commit t) i n := by
  obtain ⟨r, hr, hn⟩ := hat
  cases hw : users.written t i with
  | none => exact ⟨r, by rw [Table.committed_commit_of_written_eq_none hw, hr], hn⟩
  | some w =>
      obtain ⟨k, r₀, r', -, hr₀, rfl, hk⟩ := h.written hw
      obtain rfl : r = r₀ := Option.some.inj (hr.symm.trans hr₀)
      refine ⟨r', by rw [Table.committed_commit, Table.view_of_written hw], ?_⟩
      omega

/-- The commit of a bump raises the version. -/
theorem Raises.commit (hat : AtLeast users id m) (h : Raises t users id n) :
    AtLeast (users.commit t) id (m + n) := by
  obtain ⟨r, hr, hm⟩ := hat
  obtain ⟨r₀, r', hr₀, hsole, hn⟩ := h
  obtain rfl : r = r₀ := Option.some.inj (hr.symm.trans hr₀)
  refine ⟨r', by rw [Table.committed_commit, hsole.view], ?_⟩
  omega

/-- What any transaction reads has at least the version of the committed row. -/
theorem AtLeast.view (hat : AtLeast users id n) (h : Footprint t users p)
    (hr : users.view t id = some r) : n ≤ r.token_version := by
  obtain ⟨r₀, hr₀, hn⟩ := hat
  cases hw : users.written t id with
  | none =>
      rw [Table.view_of_written_eq_none hw, hr₀, Option.some.injEq] at hr
      exact hr ▸ hn
  | some w =>
      obtain ⟨k, r₁, r', -, hr₁, rfl, hk⟩ := h.written hw
      rw [Table.view_of_written hw, Option.some.injEq] at hr
      obtain rfl : r₀ = r₁ := Option.some.inj (hr₀.symm.trans hr₁)
      subst hr
      omega

/-! ### One action -/

/-- The request has not executed a statement yet. -/
def Proc.starting : Proc → Bool
  | .login _ _ | .refresh _ | .logout_all _ | .reset_password _ _ _ => true
  | _ => false

/-- What one action can do, branch by branch. -/
inductive Step (S : Settings) (t : T) (users : UserTable T) :
    Act → Proc → UserTable T → Proc → Prop
  | start {a : Act} {p' : Proc} (starting : p'.starting = true) : Step S t users a .idle users p'
  /-- A failure, or an `UPDATE` that finds no row. -/
  | rollback {a : Act} {p : Proc} : Step S t users a p (users.rollback t) .raised
  /-- A `SELECT` that finds no row, or one that the request does not accept. -/
  | refuse {a : Act} {p : Proc} (clean : p.writes = none) : Step S t users a p users .raised
  /-- A `SELECT` that finds a row that the request accepts. -/
  | select {a : Act} {p p' : Proc} {id : Uuid} {user : User} (clean : p.writes = none)
      (clean' : p'.writes = none) (row : p'.row = some (id, user))
      (found : users.view t id = some user) : Step S t users a p users p'
  /-- `user_db.update` returns the row as it was loaded. -/
  | stale {a : Act} {id : Uuid} {user : User} :
      Step S t users a (.reload id user) users (.bump id user)
  | password {a : Act} {id : Uuid} {user r : User} {password : String} {users' : UserTable T}
      (found : users.view t id = some r)
      (put : users.put t id (some { r with hashed_password := S.hash password }) = some users') :
      Step S t users a (.password id user password) users'
        (.passwordCommit id { user with hashed_password := S.hash password })
  | passwordCommit {a : Act} {id : Uuid} {user : User} :
      Step S t users a (.passwordCommit id user) (users.commit t) (.reload id user)
  | bump {env : Env} {id : Uuid} {user r : User} {users' : UserTable T}
      (found : users.view t id = some r)
      (put : users.put t id (some { r with token_version := user.token_version + 1 }) =
        some users') :
      Step S t users (.stmt env) (.bump id user) users' (.bumpCommit id)
  /-- The `COMMIT` of a login, a refresh or a bump. -/
  | commit {a : Act} {p : Proc} {token : Option AccessToken} :
      Step S t users a p (users.commit t) (.returned token)

/-- The `SELECT` of a login or a refresh. -/
theorem step_of_authenticate {accept : User → Bool} (hp : p.writes = none) :
    Step S t users a p users (authenticate t users id accept) := by
  rw [authenticate]
  split
  · rename_i user huser
    exact .select hp rfl rfl (Option.filter_eq_some_iff.mp huser).1
  · exact .refuse hp

/-- The `SELECT` of `read_token`. -/
theorem step_of_current_active_user {token : AccessToken} :
    Step S t users a (.logout_all token) users (current_active_user env t users token) := by
  rw [current_active_user]
  split
  · rename_i user huser
    obtain ⟨hread, -⟩ := Option.filter_eq_some_iff.mp huser
    rw [read_token] at hread
    split at hread
    · cases hread
    · exact .select rfl rfl rfl (Option.filter_eq_some_iff.mp hread).1
  · exact .refuse rfl

/-- The `SELECT` of a password reset. -/
theorem step_of_checkReset {fingerprint password : String} :
    Step S t users a (.reset_password id fingerprint password) users
      (checkReset S t users id fingerprint password) := by
  rw [checkReset]
  split
  · rename_i user huser
    exact .select rfl rfl rfl (Option.filter_eq_some_iff.mp huser).1
  · exact .refuse rfl

/-- The row after `user_db.update`. -/
theorem step_of_reload :
    Step S t users a (.reload id user) users (reload env t users id user) := by
  rw [reload]
  split
  · split
    · rename_i r hr
      exact .select rfl rfl rfl hr
    · exact .refuse rfl
  · exact .stale

/-- An `UPDATE` writes the row that it finds, or ends the request. -/
theorem update_cases {f : User → User} {next : Proc}
    (h : update t users id f next = some (users', p')) :
    (∃ r, users.view t id = some r ∧ users.put t id (some (f r)) = some users' ∧ p' = next) ∨
      users' = users.rollback t ∧ p' = .raised := by
  rw [update] at h
  split at h
  · rename_i r hr
    obtain ⟨users₁, hput, h⟩ := Option.map_eq_some_iff.mp h
    obtain ⟨rfl, rfl⟩ := Prod.mk.inj h
    exact .inl ⟨r, hr, hput, rfl⟩
  · obtain ⟨rfl, rfl⟩ := Prod.mk.inj (Option.some.inj h)
    exact .inr ⟨rfl, rfl⟩

/-- **Every statement is a step**: the statements of the source, one by one, against the
constructors of `Step`. -/
theorem step_of_stmt (h : stmt S t env users p = some (users', p')) :
    Step S t users (.stmt env) p users' p' := by
  cases p with
  | idle | returned _ | raised => cases h
  | login id password | refresh id =>
      obtain ⟨rfl, rfl⟩ := Prod.mk.inj (Option.some.inj h)
      exact step_of_authenticate rfl
  | logout_all token =>
      obtain ⟨rfl, rfl⟩ := Prod.mk.inj (Option.some.inj h)
      exact step_of_current_active_user
  | reset_password id fingerprint password =>
      obtain ⟨rfl, rfl⟩ := Prod.mk.inj (Option.some.inj h)
      exact step_of_checkReset
  | reload id user =>
      obtain ⟨rfl, rfl⟩ := Prod.mk.inj (Option.some.inj h)
      exact step_of_reload
  | password id user password =>
      rcases update_cases h with ⟨r, hr, hput, rfl⟩ | ⟨rfl, rfl⟩
      · exact .password hr hput
      · exact .rollback
  | bump id user =>
      rcases update_cases h with ⟨r, hr, hput, rfl⟩ | ⟨rfl, rfl⟩
      · exact .bump hr hput
      · exact .rollback
  | authenticated id user | bumpCommit id =>
      obtain ⟨rfl, rfl⟩ := Prod.mk.inj (Option.some.inj h)
      exact .commit
  | passwordCommit id user =>
      obtain ⟨rfl, rfl⟩ := Prod.mk.inj (Option.some.inj h)
      exact .passwordCommit

/-- **Every action is one of these steps.** -/
theorem step_of_exec (h : exec S t a users p = some (users', p')) :
    Step S t users a p users' p' := by
  cases a with
  | login id password | refresh id | logout_all token | reset_password id fingerprint password =>
      cases p <;> simp only [exec, reduceCtorEq] at h
      obtain ⟨rfl, rfl⟩ := Prod.mk.inj (Option.some.inj h)
      exact .start rfl
  | stmt env => exact step_of_stmt h
  | fail =>
      simp only [exec] at h
      split at h
      · cases h
      · obtain ⟨rfl, rfl⟩ := Prod.mk.inj (Option.some.inj h)
        exact .rollback

/-- An action keeps the committed rows and the writes of the other requests, or it is a
commit. -/
theorem exec_cases (h : exec S t a users p = some (users', p')) :
    Table.Private t users users' ∨ users' = users.commit t := by
  cases step_of_exec h with
  | start | refuse | select | stale => exact .inl (.refl t users)
  | rollback => exact .inl (.of_rollback t users)
  | password _ hput => exact .inl (.of_put hput)
  | bump _ hput => exact .inl (.of_put hput)
  | passwordCommit | commit => exact .inr rfl

/-- The version of a committed row never goes down. -/
theorem AtLeast.of_exec (hat : AtLeast users i n) (hL : Loc t users p)
    (h : exec S t a users p = some (users', p')) : AtLeast users' i n := by
  rcases exec_cases h with hpriv | rfl
  · rw [AtLeast, hpriv.committed]
    exact hat
  · exact hat.commit hL.footprint

/-- **Interference freedom.** What another request has written stays as it is, relative to
the committed rows. -/
theorem Footprint.of_other (hF : Footprint u users p) {q : Proc} {b : Act}
    (h : exec S t b users q = some (users', p')) (hu : u ≠ t) : Footprint u users' p := by
  have hwritten : users'.written u = users.written u := by
    rcases exec_cases h with hpriv | rfl
    · exact hpriv.written u hu
    · exact Table.written_commit_ne users hu
  have hcommitted : ∀ {id v}, users.written u id = some v →
      users'.committed id = users.committed id := by
    intro id v hv
    rcases exec_cases h with hpriv | rfl
    · rw [hpriv.committed]
    · exact Table.committed_commit_of_written hv hu
  unfold Footprint at hF ⊢
  split
  · rename_i id n hp
    rw [hp] at hF
    obtain ⟨r, r', hr, hsole, hn⟩ := hF
    exact ⟨r, r', by rw [hcommitted hsole.1, hr], hsole.congr hwritten, hn⟩
  · rename_i hp
    rw [hp] at hF
    exact hF.congr hwritten

/-- **No action of one request disturbs another**: versions only go up. -/
theorem Loc.of_other (hL : Loc u users p) {q : Proc} {b : Act} (hq : Loc t users q)
    (h : exec S t b users q = some (users', p')) (hu : u ≠ t) : Loc u users' p :=
  ⟨hL.footprint.of_other h hu, fun hrow => (hL.row hrow).of_exec hq h⟩

/-! ### Local correctness -/

/-- A request that has written nothing and holds no row. -/
theorem Loc.clean (hun : users.Untouched t) (hw : p.writes = none) (hr : p.row = none) :
    Loc t users p := by
  refine ⟨?_, fun h => ?_⟩
  · rw [Footprint, hw]
    exact hun
  · rw [hr] at h
    cases h

/-- A request that has written nothing and holds a row that it has read. -/
theorem Loc.reading (hun : users.Untouched t) (hw : p.writes = none)
    (hr : p.row = some (id, user)) (hat : AtLeast users id user.token_version) :
    Loc t users p := by
  refine ⟨?_, fun h => ?_⟩
  · rw [Footprint, hw]
    exact hun
  · rw [hr] at h
    obtain ⟨rfl, rfl⟩ := Prod.mk.inj (Option.some.inj h)
    exact hat

/-- Without a pending write a request has written nothing. -/
theorem Loc.untouched (hL : Loc t users p) (hw : p.writes = none) : users.Untouched t := by
  have h := hL.footprint
  rwa [Footprint, hw] at h

/-- The first write of a request puts the row a certain number of versions up. -/
theorem raises_of_put {r' : User} (hun : users.Untouched t) (hr : users.view t id = some r)
    (hput : users.put t id (some r') = some users')
    (hn : r'.token_version = r.token_version + n) : Raises t users' id n := by
  rw [hun.view] at hr
  exact ⟨r, r', by rw [Table.committed_put hput, hr], hun.put hput, hn⟩

/-- **Local correctness.** Every step establishes the next assertion of its request, a bump
only if it is computed from the stored version. -/
theorem Step.loc (h : Step S t users a p users' p') (hL : Loc t users p)
    (hok : ∀ env id user, a = .stmt env → p = .bump id user →
      (users.view t id).all fun stored => stored.token_version = user.token_version) :
    Loc t users' p' := by
  cases h with
  | start hstart =>
      have hun : users.Untouched t := hL.untouched rfl
      cases p' with
      | login _ _ | refresh _ | logout_all _ | reset_password _ _ _ => exact .clean hun rfl rfl
      | _ => cases hstart
  | rollback => exact .clean (Table.untouched_rollback _ _) rfl rfl
  | refuse hclean => exact .clean (hL.untouched hclean) rfl rfl
  | select hclean hclean' hrow hfound =>
      have hun : users.Untouched t := hL.untouched hclean
      exact .reading hun hclean' hrow (atLeast_of_view hun hfound)
  | stale => exact .reading (hL.untouched rfl) rfl rfl (hL.row rfl)
  | @password _ id user _ _ _ hr hput =>
      have hun : users.Untouched t := hL.untouched rfl
      have hat : AtLeast users id user.token_version := hL.row rfl
      refine ⟨raises_of_put hun hr hput rfl, fun hrow => ?_⟩
      obtain ⟨rfl, rfl⟩ := Prod.mk.inj (Option.some.inj hrow)
      rwa [AtLeast, Table.committed_put hput]
  | passwordCommit =>
      exact .reading (Table.untouched_commit _ _) rfl rfl ((hL.row rfl).commit hL.footprint)
  | bump hr hput =>
      have hun : users.Untouched t := hL.untouched rfl
      have hstored := hok _ _ _ rfl rfl
      rw [hr, Option.all_some, decide_eq_true_eq] at hstored
      refine ⟨raises_of_put hun hr hput ?_, fun hrow => ?_⟩
      · rw [hstored]
      · cases hrow
  | commit => exact .clean (Table.untouched_commit _ _) rfl rfl

/-- The same for an action that meets the condition. -/
theorem loc_of_exec (hL : Loc t c.shared (c.proc t)) (hok : Current c t a)
    (h : exec S t a c.shared (c.proc t) = some (users', p')) : Loc t users' p' := by
  refine (step_of_exec h).loc hL ?_
  rintro env id user rfl hp
  simpa only [Current, hp] using hok

/-- The outline of the assertions. -/
theorem outline (S : Settings) :
    (program S).Outline (Current (T := T)) (fun _ => True) Loc where
  step hok _ hL h := ⟨trivial, loc_of_exec (hL _) hok h⟩
  frame hu _ _ hL h := (hL _).of_other (hL _) h hu

/-! ### Runs -/

/-- **Held versions are at most the stored ones** along every run in which bumps are
computed from the stored version. -/
theorem versions_of_run (hc : Start c) (h : (program S).Run Current c d) (u : T) :
    Loc u d.shared (d.proc u) :=
  ((outline S).run h trivial fun v =>
    .clean (hc.untouched v) (by rw [hc.idle v]; rfl) (by rw [hc.idle v]; rfl)).2 u

/-- **Stored versions never go down** along such a run. -/
theorem AtLeast.run (hat : AtLeast d.shared id n) (hc : Start c)
    (h : (program S).Run Current c d) (hde : (program S).Run Current d e) :
    AtLeast e.shared id n := by
  induction hde with
  | refl => exact hat
  | step hrun hok hstep ih =>
      obtain ⟨g, l, hexec, rfl⟩ := Program.step_eq_some_iff.mp hstep
      exact ih.of_exec (versions_of_run hc (h.trans hrun) _) hexec

/-- A token of an older version than the stored one is rejected. -/
theorem read_token_of_older {token : AccessToken} (hL : Loc u users p)
    (hat : AtLeast users token.sub n) (hlt : token.tv < n) :
    read_token env u users token = none := by
  rw [read_token]
  split
  · rfl
  · rw [Option.filter_eq_none_iff]
    intro r hr
    have := hat.view hL.footprint hr
    simp only [decide_eq_true_eq]
    omega

/-- **Tokens do not survive a bump.** Take a run in which every bump is computed from the
stored version. A token minted from a row of the user that was read before the commit of a
bump is rejected at every time after that commit. -/
theorem rejected_after_bump {b : Config T (UserTable T) Proc} {mint now : Env} {w : T}
    (hc : Start c) (hread : (program S).Run Current c b)
    (hrow : (b.proc u).row = some (id, user)) (hbd : (program S).Run Current b d)
    (hp : d.proc t = .bumpCommit id) (hcommit : (program S).step d t (.stmt env) = some e)
    {f : Config T (UserTable T) Proc} (hef : (program S).Run Current e f) :
    read_token now w f.shared (write_token S mint id user) = none := by
  have hd : (program S).Run Current c d := hread.trans hbd
  have hstored : AtLeast d.shared id user.token_version :=
    ((versions_of_run hc hread u).row hrow).run hc hread hbd
  have hraises : Raises t d.shared id 1 := by
    have hL := (versions_of_run hc hd t).footprint
    rwa [hp] at hL
  have hbumped : AtLeast e.shared id (user.token_version + 1) := by
    obtain ⟨g, l, hexec, rfl⟩ := Program.step_eq_some_iff.mp hcommit
    rw [hp] at hexec
    obtain ⟨rfl, -⟩ := Prod.mk.inj (Option.some.inj hexec)
    exact hraises.commit hstored
  have hok : Current d t (.stmt env) := by
    simp [Current, hp]
  have he : (program S).Run Current c e := hd.step hok hcommit
  exact read_token_of_older (versions_of_run hc (he.trans hef) w)
    (hbumped.run hc he hef) (Nat.lt_succ_self _)

end Proofs

/-! ### Two schedules -/

/-- Settings under which schedules are evaluated: passwords stand for their hashes. -/
def plainSettings : Settings := ⟨id, fun plain hashed => plain = hashed, 100⟩

/-- One active user, with version 0, and no request. -/
def oneUser : Config (Fin 3) (UserTable (Fin 3)) Proc where
  shared :=
    { committed := fun k => if k = Uuid.ofNat 1 then some ⟨"pw", true, 0⟩ else none
      dirty := fun _ => none
      keys := {Uuid.ofNat 1}
      mem_keys_of_committed := fun {k} h => by
        by_contra hk
        exact h (if_neg (by simpa using hk))
      mem_keys_of_dirty := fun h => absurd rfl h }
  proc := fun _ => .idle

theorem start_oneUser : Start oneUser := ⟨fun _ _ => rfl, fun _ => rfl⟩

/-- A statement at time 5. -/
def at5 : Act := .stmt ⟨5, "j", false, false⟩

/-- A token of version 0. -/
def oldToken : AccessToken := ⟨Uuid.ofNat 1, 0, "i", 50⟩

/-- A login that has read the row before a logout-all commits gets a token that nobody
accepts. -/
theorem rejected_after_bump_login :
    ∃ e : Config (Fin 3) (UserTable (Fin 3)) Proc, (program plainSettings).Run Any oneUser e ∧
      read_token ⟨6, "", false, false⟩ 2 e.shared
        (write_token plainSettings ⟨5, "j", false, false⟩ (Uuid.ofNat 1) ⟨"pw", true, 0⟩) =
          none := by
  have hreplay : ((program plainSettings).replay Current oneUser
      [(0, .login (Uuid.ofNat 1) "pw"), (0, at5)]).any (fun b =>
        decide ((b.proc 0).row = some (Uuid.ofNat 1, ⟨"pw", true, 0⟩)) &&
        ((program plainSettings).replay Current b
          [(1, .logout_all oldToken), (1, at5), (1, at5)]).any fun d =>
            decide (d.proc 1 = .bumpCommit (Uuid.ofNat 1)) &&
            ((program plainSettings).step d 1 at5).isSome) = true := by
    decide
  obtain ⟨b, hread, hb⟩ := Program.exists_run_of_replay hreplay
  simp only [Bool.and_eq_true, decide_eq_true_eq, Option.any_eq_true, Option.isSome_iff_exists]
    at hb
  obtain ⟨hrow, d, hbd, hp, e, hcommit⟩ := hb
  have hbd := Program.run_of_replay hbd
  refine ⟨e, ?_, rejected_after_bump start_oneUser hread hrow hbd hp hcommit (.refl e)⟩
  exact ((hread.trans hbd).mono fun _ _ _ _ => trivial).step trivial hcommit

/-- Two logout-alls load version 0. The first one commits version 1, a login reads it, and
the second one commits version 1 again: the token of the login is still accepted. -/
theorem accepted_after_bump :
    ∃ (b d e : Config (Fin 3) (UserTable (Fin 3)) Proc) (id : Uuid) (user : User)
      (env mint now : Env),
      (program plainSettings).Run Any oneUser b ∧ (b.proc 2).row = some (id, user) ∧
        (program plainSettings).Run Any b d ∧ d.proc 1 = .bumpCommit id ∧
        (program plainSettings).step d 1 (.stmt env) = some e ∧
        read_token now 2 e.shared (write_token plainSettings mint id user) = some user := by
  have hreplay : ((program plainSettings).replay Any oneUser
      [(0, .logout_all oldToken), (1, .logout_all oldToken), (0, at5), (1, at5), (0, at5),
        (0, at5), (2, .login (Uuid.ofNat 1) "pw"), (2, at5)]).any (fun b =>
        decide ((b.proc 2).row = some (Uuid.ofNat 1, ⟨"pw", true, 1⟩)) &&
        ((program plainSettings).replay Any b [(2, at5), (1, at5)]).any fun d =>
          decide (d.proc 1 = .bumpCommit (Uuid.ofNat 1)) &&
          ((program plainSettings).step d 1 at5).any fun e =>
            read_token ⟨6, "", false, false⟩ 2 e.shared
              (write_token plainSettings ⟨5, "j", false, false⟩ (Uuid.ofNat 1)
                ⟨"pw", true, 1⟩) = some ⟨"pw", true, 1⟩) = true := by
    decide
  obtain ⟨b, hread, hb⟩ := Program.exists_run_of_replay hreplay
  simp only [Bool.and_eq_true, decide_eq_true_eq, Option.any_eq_true] at hb
  obtain ⟨hrow, d, hbd, hp, e, hcommit, haccepted⟩ := hb
  exact ⟨b, d, e, _, _, _, _, _, hread, hrow, Program.run_of_replay hbd, hp, hcommit, haccepted⟩

end BackendManager.Users.Access
