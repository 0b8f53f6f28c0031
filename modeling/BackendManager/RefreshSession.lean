import BackendManager.Interleaving
import BackendManager.ReadCommitted
import BackendManager.Uuid

/-!
# Refresh-Token Sessions: `sessions.py` as SQL Statements

The model of `app/users/sessions.py` and of the routes of `app/users/router.py` that use
it: login, refresh, logout and logout-all, together with `on_after_reset_password`. Each
request is cut at every SQL statement, and any number of them interleave under READ
COMMITTED.

## Statement convention

* The claim, `UPDATE ... WHERE token_hash = ... AND used_at IS NULL AND NOT revoked`, is
  two steps: the snapshot either has a matching row or the statement returns nothing; a
  matching row is then locked, and the predicate is checked again on the version found.
* A revocation, `UPDATE ... SET revoked = true WHERE family_id = ...` (or `user_id`), first
  fixes the set of matching rows in its snapshot and then locks and rewrites them one at a
  time, in any order. The columns it compares are never rewritten, so its second check
  always succeeds.
* The lookup of the user after a rotation only reads; whatever it finds, COMMIT is next.

`_hash` is a parameter, and `uuid.uuid4()` draws an identifier that no row carries. The
column `token_version`, which logout-all and a password reset also bump, is not read by
any statement here; leaving it out allows strictly more interleavings.
-/

namespace BackendManager.Users

open ReadCommitted Interleaving

/-- A row of `refresh_tokens`; the unique `token_hash` is the key of the table. -/
structure RefreshToken where
  user_id : Uuid
  family_id : Uuid
  expires_at : ℕ
  used_at : Option ℕ
  revoked : Bool
deriving DecidableEq

/-- The table `refresh_tokens`. -/
abbrev Tokens (T : Type) := Table T String RefreshToken

/-- What the module takes from its environment for good. -/
structure Settings where
  /-- `_hash`. -/
  hash : String → String
  users_refresh_lifetime_seconds : ℕ

/-- The `WHERE` clause of a revocation. -/
inductive Scope
  /-- `_revoke_family`. -/
  | family (family_id : Uuid)
  /-- `revoke_all_for_user`. -/
  | user (user_id : Uuid)
deriving DecidableEq

/-- The row matches the `WHERE` clause. -/
def Scope.covers : Scope → RefreshToken → Bool
  | .family family_id, row => row.family_id = family_id
  | .user user_id, row => row.user_id = user_id

/-- What a request answers. -/
inductive Response
  | tokenPair (user_id : Uuid) (refresh_token : String)
  | badRefresh
  | noContent
deriving DecidableEq

/-- Where a request stands: the SQL statement it executes next, with what its Python
frame holds at that point. -/
inductive Proc
  /-- Not started. -/
  | idle
  /-- The credentials are checked: the `INSERT` of the first token is next. -/
  | login (user_id : Uuid)
  /-- The `SELECT` of `rotate_refresh_token` is next. -/
  | refresh (token : String)
  /-- The row is known and has not expired: the claim starts. -/
  | claim (token : String) (row : RefreshToken)
  /-- The claim found its row in its snapshot and wants the row lock. -/
  | claimLock (token : String) (row : RefreshToken)
  /-- The token is claimed: the `INSERT` of its successor is next. -/
  | mint (row : RefreshToken)
  /-- `token` is issued and flushed as `row`, by a rotation or by a login; `COMMIT` is
  next. -/
  | issued (row : RefreshToken) (token : String) (rotated : Bool)
  /-- The `SELECT` of `revoke_family_of` is next. -/
  | logout (token : String)
  /-- A revocation starts; the answer that follows its commit is known. -/
  | revoke (scope : Scope) (response : Response)
  /-- The revocation still has to lock and rewrite the rows `todo` of its snapshot. -/
  | revoking (scope : Scope) (response : Response) (todo : Finset String)
  /-- The revocation is executed; `COMMIT` is next. -/
  | revoked (scope : Scope) (response : Response)
  /-- Nothing to write; `COMMIT` is next. -/
  | finish (response : Response)
  /-- The request has committed and answered. -/
  | returned (response : Response)
  /-- The request ended with an exception and its transaction was rolled back. -/
  | raised
deriving DecidableEq

/-- What the environment decides for one statement. -/
structure Env where
  /-- The reading of `_utcnow()`. -/
  now : ℕ
  /-- The value drawn by `secrets.token_urlsafe(48)`. -/
  token : String
  /-- The value drawn by `uuid.uuid4()`. -/
  uuid4 : Uuid
  /-- The row that a revocation locks next. -/
  next : String
  /-- What `user_manager.get` finds: no user, or one that is active or not. -/
  is_active : Option Bool
deriving DecidableEq

/-- One scheduled action of a request. -/
inductive Act
  | login (user_id : Uuid)
  | refresh (token : String)
  | logout (token : String)
  /-- `logout_all` of this user, or `on_after_reset_password`. -/
  | revokeAll (user_id : Uuid)
  /-- The next statement. -/
  | stmt (env : Env)
  /-- The request fails and is rolled back. -/
  | fail
deriving DecidableEq

variable {T : Type} [DecidableEq T]

/-- No row, committed or not, belongs to this family. -/
def FreshFamily (tokens : Tokens T) (family_id : Uuid) : Prop :=
  ∀ k ∈ tokens.keys, (tokens.committed k).all (·.family_id ≠ family_id) ∧
    (tokens.dirty k).all fun w => w.2.all (·.family_id ≠ family_id)

omit [DecidableEq T] in
instance (tokens : Tokens T) (family_id : Uuid) : Decidable (FreshFamily tokens family_id) := by
  unfold FreshFamily
  infer_instance

/-! ### `sessions.py` -/

/-- The row that `issue_refresh_token` mints: the next link of `family_id`, or the first
one of a new family. -/
def newToken (S : Settings) (env : Env) (user_id : Uuid) (family_id : Option Uuid) :
    RefreshToken where
  user_id := user_id
  family_id := family_id.getD env.uuid4
  expires_at := env.now + S.users_refresh_lifetime_seconds
  used_at := none
  revoked := false

/-- `issue_refresh_token`: the `INSERT`, under the unique hash. A unique violation ends
the request. -/
def issue_refresh_token (S : Settings) (t : T) (env : Env) (user_id : Uuid)
    (family_id : Option Uuid) (tokens : Tokens T) : Option (Tokens T × Proc) :=
  let row := newToken S env user_id family_id
  (tokens.insert t (S.hash env.token) row).map fun
    | .ok tokens' => (tokens', .issued row env.token family_id.isSome)
    | .error _ => (tokens.rollback t, .raised)

/-- The `SELECT` of `rotate_refresh_token` and the check of `expires_at`. -/
def selectToken (S : Settings) (t : T) (env : Env) (token : String) (tokens : Tokens T) :
    Proc :=
  match tokens.view t (S.hash token) with
  | none => .finish .badRefresh
  | some row => if row.expires_at ≤ env.now then .finish .badRefresh else .claim token row

/-- The predicate of the claim. -/
def RefreshToken.claimable (row : RefreshToken) : Bool := row.used_at = none ∧ ¬ row.revoked

/-- The snapshot of the claim. Without a match the whole family is revoked. -/
def claimSnapshot (S : Settings) (t : T) (token : String) (row : RefreshToken)
    (tokens : Tokens T) : Proc :=
  if (tokens.view t (S.hash token)).any RefreshToken.claimable then .claimLock token row
  else .revoke (.family row.family_id) .badRefresh

/-- The rest of the claim: wait for the row lock, check the predicate again on the version
found, and set `used_at`. -/
def claimToken (S : Settings) (t : T) (env : Env) (token : String) (row : RefreshToken)
    (tokens : Tokens T) : Option (Tokens T × Proc) :=
  if tokens.free t (S.hash token) then
    match tokens.view t (S.hash token) with
    | some found =>
        if found.claimable then
          (tokens.put t (S.hash token) (some { found with used_at := some env.now })).map
            fun tokens' => (tokens', .mint row)
        else some (tokens, .revoke (.family row.family_id) .badRefresh)
    | none => some (tokens, .revoke (.family row.family_id) .badRefresh)
  else none

/-- The `SELECT` of `revoke_family_of`; an unknown token revokes nothing. -/
def revoke_family_of (S : Settings) (t : T) (token : String) (tokens : Tokens T) : Proc :=
  match tokens.view t (S.hash token) with
  | some row => .revoke (.family row.family_id) .noContent
  | none => .finish .noContent

/-- One row of a revocation: wait for its lock and set `revoked`. -/
def revokeRow (t : T) (k : String) (tokens : Tokens T) : Option (Tokens T) :=
  match tokens.view t k with
  | some row => tokens.put t k (some { row with revoked := true })
  | none => some tokens

/-! ### Requests -/

/-- The answer with a new token: the pair, unless the user of a rotated token is gone or
inactive. -/
def issuedResponse (env : Env) (row : RefreshToken) (token : String) (rotated : Bool) :
    Response :=
  if rotated ∧ env.is_active ≠ some true then .badRefresh
  else .tokenPair row.user_id token

/-- The next statement of a request. -/
def stmt (S : Settings) (t : T) (env : Env) (tokens : Tokens T) :
    Proc → Option (Tokens T × Proc)
  | .login user_id =>
      if FreshFamily tokens env.uuid4 then issue_refresh_token S t env user_id none tokens
      else none
  | .refresh token => some (tokens, selectToken S t env token tokens)
  | .claim token row => some (tokens, claimSnapshot S t token row tokens)
  | .claimLock token row => claimToken S t env token row tokens
  | .mint row => issue_refresh_token S t env row.user_id (some row.family_id) tokens
  | .issued row token rotated =>
      some (tokens.commit t, .returned (issuedResponse env row token rotated))
  | .logout token => some (tokens, revoke_family_of S t token tokens)
  | .revoke scope response =>
      some (tokens, .revoking scope response (tokens.scan t scope.covers))
  | .revoking scope response todo =>
      if todo = ∅ then some (tokens, .revoked scope response)
      else if env.next ∈ todo then
        (revokeRow t env.next tokens).map fun tokens' =>
          (tokens', .revoking scope response (todo.erase env.next))
      else none
  | .revoked _ response | .finish response => some (tokens.commit t, .returned response)
  | .idle | .returned _ | .raised => none

/-- The request has ended. -/
def Proc.ended : Proc → Bool
  | .returned _ | .raised => true
  | _ => false

/-- One action of one request. -/
def exec (S : Settings) (t : T) : Act → Tokens T → Proc → Option (Tokens T × Proc)
  | .login user_id, tokens, .idle => some (tokens, .login user_id)
  | .refresh token, tokens, .idle => some (tokens, .refresh token)
  | .logout token, tokens, .idle => some (tokens, .logout token)
  | .revokeAll user_id, tokens, .idle => some (tokens, .revoke (.user user_id) .noContent)
  | .stmt env, tokens, p => stmt S t env tokens p
  | .fail, tokens, p => if p.ended then none else some (tokens.rollback t, .raised)
  | _, _, _ => none

/-- The session endpoints as an interleaved program. -/
def program (S : Settings) : Program T (Tokens T) Proc Act := ⟨exec S⟩

/-- The initial configuration: no tokens and no request started. -/
def init : Config T (Tokens T) Proc := ⟨Table.empty, fun _ => .idle⟩

/-- All schedules. -/
abbrev Any : Config T (Tokens T) Proc → T → Act → Prop := fun _ _ _ => True

end BackendManager.Users
