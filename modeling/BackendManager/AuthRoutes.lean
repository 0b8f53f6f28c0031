import BackendManager.Interleaving
import BackendManager.RefreshSession
import BackendManager.TokenVersion

/-!
# The Mounted Auth and Users Routes, One Request After the Other

The model of the routes that `create_app` mounts under `/auth` and `/users`: login, refresh,
logout and logout-all of `app/users/router.py`, and register, reset-password and the users
routes of fastapi-users with the hooks of `UserManager`. A request is one step here, and the
system is a sequence of requests; the interleavings of single statements are the subject of
`BackendManager.TokenVersion` and `BackendManager.RefreshSession`.

## Request convention

* A request names its user by the key of the row, which the email determines. The columns
  that no route looks at for a session are left out, and so are requests that write none of
  the others (`other`).
* fastapi-users is taken at its documentation: `authenticate` stores the updated hash of
  `verify_and_update` at once; `PATCH` stores the hash of a password that it is sent, `/me`
  ignores the columns that only a superuser may set, and both call `on_after_update` alone,
  which `UserManager` does not override; `reset_password` stores the hash, commits, and calls
  `on_after_reset_password`.
* Signatures are left out: a request may present an access token with any claims.
* `uuid.uuid4()` and `secrets.token_urlsafe(48)` draw values that have not been handed out
  before (`Fresh`).

`issued` is not in the source: it remembers the token pairs that have been handed out, each
with its user.

## Main results

* `write_token_eq`, `read_token_eq`: on committed rows, access tokens are minted and accepted
  as in the model of `BackendManager.TokenVersion`, so that what is proved there about single
  statements is about the tokens of these routes.
-/

namespace BackendManager.Users.Credentials

open Access (AccessToken)

/-- A row of `user`: the columns that decide about sessions. -/
structure User where
  hashed_password : String
  is_active : Bool
  is_superuser : Bool
  token_version : ℕ
deriving DecidableEq

/-- `UserUpdate`: the fields that are set. -/
structure UserUpdate where
  password : Option String
  is_active : Option Bool
  is_superuser : Option Bool
deriving DecidableEq

/-- `TokenPair`. -/
structure TokenPair where
  access_token : AccessToken
  refresh_token : String
deriving DecidableEq

/-- The tables `user` and `refresh_tokens`, the latter by its unique column `token_hash`, and
the token pairs that have been handed out. -/
structure State where
  users : Uuid → Option User
  refresh_tokens : String → Option RefreshToken
  issued : List (Uuid × TokenPair)

/-- What the routes take from their environment for good. -/
structure Settings where
  users_jwt_lifetime_seconds : ℕ
  users_refresh_lifetime_seconds : ℕ
  /-- `_hash` of a refresh token. -/
  sha256 : String → String
  /-- `password_helper.hash`, with the salt that it draws. -/
  hash : ℕ → String → String
  /-- `password_helper.verify_and_update` of a plain text and a hash, with the salt of the
  new hash. -/
  verify_and_update : ℕ → String → String → Bool × Option String

/-- What the environment decides for one request. -/
structure Env where
  /-- The reading of the clock. -/
  now : ℕ
  /-- The salt that `password_helper` draws. -/
  salt : ℕ
  /-- The value drawn by `uuid.uuid4().hex` for an access token. -/
  jti : String
  /-- The value drawn by `secrets.token_urlsafe(48)`. -/
  token : String
  /-- The value drawn by `uuid.uuid4()`, for a user or for a family. -/
  uuid4 : Uuid
  /-- `is_jti_denied` of the token at hand. -/
  denied : Bool
  /-- The request is refused before it writes: a throttle, an invalid body or password, an
  email that is taken. -/
  refused : Bool
  /-- `on_after_reset_password` fails before its `COMMIT`. -/
  hook_fails : Bool
deriving DecidableEq

/-- A request to one of the routes. -/
inductive Request
  /-- `POST /auth/register`. -/
  | register (password : String)
  /-- `POST /auth/jwt/login`. -/
  | login (id : Uuid) (password : String)
  /-- `POST /auth/jwt/refresh`. -/
  | refresh (refresh_token : String)
  /-- `POST /auth/jwt/logout`. -/
  | logout (access : AccessToken) (refresh_token : String)
  /-- `POST /auth/jwt/logout-all`. -/
  | logout_all (access : AccessToken)
  /-- `POST /auth/reset-password`, with the claims of its token. -/
  | reset_password (id : Uuid) (fingerprint password : String)
  /-- `PATCH /users/me`. -/
  | patch_me (access : AccessToken) (update : UserUpdate)
  /-- `PATCH /users/{id}`. -/
  | patch_user (access : AccessToken) (id : Uuid) (update : UserUpdate)
  /-- `DELETE /users/{id}`. -/
  | delete_user (access : AccessToken) (id : Uuid)
  /-- `POST /auth/forgot-password`, `/request-verify-token` and `/verify`, and
  `GET /users/...`: no session column is written. -/
  | other
deriving DecidableEq

/-- What a request answers. -/
inductive Response
  | tokenPair (pair : TokenPair)
  /-- Another success. -/
  | ok
  /-- A client error. -/
  | refused
  /-- An exception. -/
  | failed
deriving DecidableEq

namespace State

/-- Write the row of a user. -/
def setUser (s : State) (id : Uuid) (user : User) : State :=
  { s with users := Function.update s.users id (some user) }

/-- Write the row of a token. -/
def setToken (s : State) (token_hash : String) (row : RefreshToken) : State :=
  { s with refresh_tokens := Function.update s.refresh_tokens token_hash (some row) }

/-- `_revoke_family` and `revoke_all_for_user`. -/
def revoke (s : State) (scope : Scope) : State :=
  { s with
    refresh_tokens := fun k => (s.refresh_tokens k).map fun row =>
      if scope.covers row then { row with revoked := true } else row }

/-- The `DELETE` of a user, which cascades to its tokens. -/
def deleteUser (s : State) (id : Uuid) : State :=
  { s with
    users := Function.update s.users id none
    refresh_tokens := fun k => (s.refresh_tokens k).filter (·.user_id ≠ id) }

/-- A token pair is handed out. -/
def handOut (s : State) (id : Uuid) (pair : TokenPair) : State :=
  { s with issued := (id, pair) :: s.issued }

end State

/-! ### `auth.py` and `sessions.py` -/

/-- `write_token`. -/
def write_token (S : Settings) (env : Env) (id : Uuid) (user : User) : AccessToken where
  sub := id
  tv := user.token_version
  jti := env.jti
  exp := env.now + S.users_jwt_lifetime_seconds

/-- `read_token` of a token with a valid signature. -/
def read_token (env : Env) (s : State) (token : AccessToken) : Option User :=
  if token.exp ≤ env.now ∨ env.denied then none
  else (s.users token.sub).filter fun user => token.tv = user.token_version

/-- `current_active_user`. -/
def current_active_user (env : Env) (s : State) (token : AccessToken) : Option User :=
  (read_token env s token).filter (·.is_active)

/-- `current_user(active=True, superuser=True)`. -/
def current_superuser (env : Env) (s : State) (token : AccessToken) : Option User :=
  (current_active_user env s token).filter (·.is_superuser)

/-- `issue_refresh_token`, in this family. -/
def issue_refresh_token (S : Settings) (env : Env) (user_id family_id : Uuid) (s : State) :
    State :=
  s.setToken (S.sha256 env.token)
    ⟨user_id, family_id, env.now + S.users_refresh_lifetime_seconds, none, false⟩

/-- `rotate_refresh_token`: the user of the token, unless it raises. A replay revokes the
family. -/
def rotate_refresh_token (S : Settings) (env : Env) (s : State) (token : String) :
    State × Option Uuid :=
  match s.refresh_tokens (S.sha256 token) with
  | none => (s, none)
  | some row =>
      if row.expires_at ≤ env.now then (s, none)
      else if row.claimable then
        (issue_refresh_token S env row.user_id row.family_id
          (s.setToken (S.sha256 token) { row with used_at := some env.now }), some row.user_id)
      else (s.revoke (.family row.family_id), none)

/-- `revoke_family_of`. -/
def revoke_family_of (S : Settings) (s : State) (token : String) : State :=
  match s.refresh_tokens (S.sha256 token) with
  | some row => s.revoke (.family row.family_id)
  | none => s

/-! ### The user manager -/

/-- `authenticate`: the user, with an updated hash if `verify_and_update` has one. -/
def authenticate (S : Settings) (env : Env) (s : State) (id : Uuid) (password : String) :
    Option User :=
  (s.users id).bind fun user =>
    match S.verify_and_update env.salt password user.hashed_password with
    | (true, some updated) => some { user with hashed_password := updated }
    | (true, none) => some user
    | (false, _) => none

/-- `create_update_dict`: what users may set themselves. -/
def UserUpdate.safe (update : UserUpdate) : UserUpdate :=
  { update with is_active := none, is_superuser := none }

/-- `UserManager.update`; the hook `on_after_update` does nothing. -/
def updateUser (S : Settings) (env : Env) (update : UserUpdate) (user : User) : User :=
  { user with
    hashed_password := (update.password.map (S.hash env.salt)).getD user.hashed_password
    is_active := update.is_active.getD user.is_active
    is_superuser := update.is_superuser.getD user.is_superuser }

/-- `on_after_reset_password`. -/
def on_after_reset_password (s : State) (id : Uuid) (user : User) : State :=
  (s.setUser id { user with token_version := user.token_version + 1 }).revoke (.user id)

/-! ### The routes -/

/-- Mint the access token of a new pair and hand it out. -/
def answerPair (S : Settings) (env : Env) (s : State) (id : Uuid) (user : User) :
    State × Response :=
  let pair := ⟨write_token S env id user, env.token⟩
  (s.handOut id pair, .tokenPair pair)

/-- `POST /login`. -/
def login (S : Settings) (env : Env) (s : State) (id : Uuid) (password : String) :
    State × Response :=
  match authenticate S env s id password with
  | none => (s, .refused)
  | some user =>
      if user.is_active then
        answerPair S env (issue_refresh_token S env id env.uuid4 (s.setUser id user)) id user
      else (s.setUser id user, .refused)

/-- `POST /refresh`. -/
def refresh (S : Settings) (env : Env) (s : State) (token : String) : State × Response :=
  match rotate_refresh_token S env s token with
  | (s', none) => (s', .refused)
  | (s', some id) =>
      match (s'.users id).filter (·.is_active) with
      | some user => answerPair S env s' id user
      | none => (s', .refused)

/-- `POST /reset-password`: the fingerprint has to be that of the stored hash. -/
def reset_password (S : Settings) (env : Env) (s : State) (id : Uuid)
    (fingerprint password : String) : State × Response :=
  match (s.users id).filter fun user =>
      (S.verify_and_update env.salt user.hashed_password fingerprint).1 && user.is_active with
  | none => (s, .refused)
  | some user =>
      let user := { user with hashed_password := S.hash env.salt password }
      if env.hook_fails then (s.setUser id user, .failed)
      else (on_after_reset_password (s.setUser id user) id user, .ok)

/-- `PATCH` of the row of a user. -/
def patch (S : Settings) (env : Env) (s : State) (id : Uuid) (update : UserUpdate) :
    State × Response :=
  match s.users id with
  | some user => (s.setUser id (updateUser S env update user), .ok)
  | none => (s, .refused)

/-- One request. -/
def handle (S : Settings) (env : Env) (s : State) (request : Request) : State × Response :=
  if env.refused then (s, .refused)
  else
    match request with
    | .register password =>
        (s.setUser env.uuid4 ⟨S.hash env.salt password, true, false, 0⟩, .ok)
    | .login id password => login S env s id password
    | .refresh token => refresh S env s token
    | .logout access token =>
        match current_active_user env s access with
        | some _ => (revoke_family_of S s token, .ok)
        | none => (s, .refused)
    | .logout_all access =>
        match current_active_user env s access with
        | some user =>
            ((s.setUser access.sub { user with token_version := user.token_version + 1 }).revoke
              (.user access.sub), .ok)
        | none => (s, .refused)
    | .reset_password id fingerprint password => reset_password S env s id fingerprint password
    | .patch_me access update =>
        match current_active_user env s access with
        | some _ => patch S env s access.sub update.safe
        | none => (s, .refused)
    | .patch_user access id update =>
        match current_superuser env s access with
        | some _ => patch S env s id update
        | none => (s, .refused)
    | .delete_user access id =>
        match current_superuser env s access with
        | some _ => (s.deleteUser id, .ok)
        | none => (s, .refused)
    | .other => (s, .ok)

/-- The values drawn for a request have not been handed out before. -/
def Fresh (S : Settings) (env : Env) (s : State) : Bool :=
  (s.users env.uuid4).isNone && (s.refresh_tokens (S.sha256 env.token)).isNone &&
    s.issued.all fun issue =>
      issue.1 ≠ env.uuid4 && S.sha256 issue.2.refresh_token ≠ S.sha256 env.token

/-- The routes as a program with one thread, whose local state is the last response. -/
def program (S : Settings) : Interleaving.Program Unit State Response (Request × Env) where
  exec _ a s _ := if Fresh S a.2 s then some (handle S a.2 s a.1) else none

/-- No users, no tokens, and no request. -/
def init : Interleaving.Config Unit State Response :=
  ⟨⟨fun _ => none, fun _ => none, []⟩, fun _ => .ok⟩

/-- All sequences of requests. -/
abbrev Any : Interleaving.Config Unit State Response → Unit → Request × Env → Prop :=
  fun _ _ _ => True

/-! ### The routes and the statements -/

/-- The columns of a user that the statements of `BackendManager.TokenVersion` are about. -/
def User.access (user : User) : Access.User :=
  ⟨user.hashed_password, user.is_active, user.token_version⟩

/-- Both models of `write_token` mint the same token. -/
theorem write_token_eq (S : Settings) (env : Env) (id : Uuid) (user : User)
    (verify : String → String → Bool) :
    write_token S env id user =
      Access.write_token ⟨S.hash env.salt, verify, S.users_jwt_lifetime_seconds⟩
        ⟨env.now, env.jti, env.denied, false⟩ id user.access := rfl

/-- Both models of `read_token` accept the same tokens on the same committed rows. -/
theorem read_token_eq {T : Type} [DecidableEq T] {t : T} {table : Access.UserTable T}
    (env : Env) (s : State) (token : AccessToken) (hun : table.Untouched t)
    (hrows : ∀ id, table.committed id = (s.users id).map User.access) :
    (read_token env s token).map User.access =
      Access.read_token ⟨env.now, env.jti, env.denied, false⟩ t table token := by
  rw [read_token, Access.read_token, hun.view, hrows]
  split
  · rfl
  · cases s.users token.sub with
    | none => rfl
    | some user =>
        simp only [Option.filter_some, Option.map_some, User.access, decide_eq_true_eq]
        split <;> rfl

end BackendManager.Users.Credentials
