import BackendManager.Interleaving
import BackendManager.Limiter

/-!
# Failed Logins and the Lockout

The model of `login` in `app/users/router.py` with `assert_not_locked_out`,
`record_login_failure` and `clear_login_failures` of `app/ratelimit/dependencies.py`. Each
attempt is cut at the lockout check, the password verification and the update of the failure
counter; any number of attempts, on any identities, interleave, and any time may pass before
each of these statements.

## Conventions

* The environment decides whether the throttle of the route, `enforce_auth_rate_limit`, lets a
  request pass, and whether `user_manager.authenticate` returns an active user.
* An attempt that ends with an exception is one that does not take its next step.
* The counter of an account is a key of Redis that expires, under a digest of the identity; its
  window is armed by the failure that creates it and not renewed by later ones.
-/

namespace BackendManager.Lockout

open Interleaving RateLimit

/-! ### The dependencies -/

/-- The error of `assert_not_locked_out`. -/
def lockedOut (S : Settings) : HTTPException where
  status_code := 429
  detail := "Account temporarily locked after repeated failed logins; try again later"
  headers := [("Retry-After", toString S.ratelimit_lockout_window_seconds)]

/-- The error of `enforce_auth_rate_limit`. -/
def tooManyAttempts (S : Settings) : HTTPException where
  status_code := 429
  detail := "Too many attempts; try again later"
  headers := [("Retry-After", toString (auth_tier S).window_seconds)]

/-- `_BAD_CREDENTIALS`. -/
def _BAD_CREDENTIALS : HTTPException := ⟨400, "LOGIN_BAD_CREDENTIALS", []⟩

def assert_not_locked_out (S : Settings) (identifier : String) (r : Redis) :
    Except HTTPException Unit :=
  if !S.ratelimit_enabled then .ok ()
  else if S.ratelimit_lockout_threshold ≤ failure_count (_hashed S identifier) r then
    .error (lockedOut S)
  else .ok ()

def record_login_failure (S : Settings) (identifier : String) (r : Redis) : Redis :=
  if !S.ratelimit_enabled then r
  else (count_failure (_hashed S identifier) S.ratelimit_lockout_window_seconds r).1

def clear_login_failures (S : Settings) (identifier : String) (r : Redis) : Redis :=
  if !S.ratelimit_enabled then r else clear_failures (_hashed S identifier) r

/-! ### Attempts -/

/-- Where an attempt stands. -/
inductive Proc
  /-- Not started. -/
  | idle
  /-- `assert_not_locked_out` is next. -/
  | check (username : String)
  /-- `user_manager.authenticate` is next. -/
  | verify (username : String)
  /-- `record_login_failure` is next. -/
  | record (username : String)
  /-- `clear_login_failures` is next. -/
  | clear (username : String)
  /-- The tokens are issued. -/
  | authenticated (username : String)
  /-- The attempt has answered with an error. -/
  | refused (e : HTTPException)
deriving DecidableEq

/-- One scheduled action. -/
inductive Act
  /-- A request to `/auth/jwt/login`; the throttle refuses it, or lets it pass. -/
  | arrive (username : String) (throttled : Bool)
  /-- The next step of an attempt, after `elapsed` microseconds; `user` says whether
  `authenticate` returns an active user. -/
  | step (elapsed : ℕ) (user : Bool)
deriving DecidableEq

/-- The next step of `login`. -/
def login (S : Settings) (user : Bool) (r : Redis) : Proc → Option (Redis × Proc)
  | .check username =>
      match assert_not_locked_out S username r with
      | .ok _ => some (r, .verify username)
      | .error e => some (r, .refused e)
  | .verify username => some (r, if user then .clear username else .record username)
  | .record username => some (record_login_failure S username r, .refused _BAD_CREDENTIALS)
  | .clear username => some (clear_login_failures S username r, .authenticated username)
  | .idle | .authenticated _ | .refused _ => none

/-- One action. -/
def exec (S : Settings) : Act → Redis → Proc → Option (Redis × Proc)
  | .arrive username throttled, r, .idle =>
      some (r, if throttled then .refused (tooManyAttempts S) else .check username)
  | .step elapsed user, r, p => login S user (r.wait elapsed) p
  | _, _, _ => none

/-- The login route as an interleaved program. -/
def program (T : Type) (S : Settings) : Program T Redis Proc Act := ⟨fun _ => exec S⟩

/-- The initial configuration: no keys, and no attempt started. -/
def init (T : Type) : Config T Redis Proc := ⟨.empty, fun _ => .idle⟩

/-- All schedules. -/
abbrev Any (T : Type) : Config T Redis Proc → T → Act → Prop := fun _ _ _ => True

end BackendManager.Lockout
