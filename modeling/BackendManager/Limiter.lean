import Mathlib.Algebra.Order.Ring.Unbundled.Rat
import Mathlib.Data.List.DropRight
import BackendManager.Expiring
import BackendManager.Outbox
import BackendManager.Text

/-!
# The Redis Limiter

The model of `app/ratelimit/limiter.py` and `app/ratelimit/tiers.py`: the token buckets, the
failure counters and the tiers. Each script and each command of the limiter is one function of
the state of Redis.

## Conventions

* Redis is available: the branches that fail open are left out, apart from the division by a
  window of no seconds, which is one of them.
* The server clock counts microseconds, as `TIME` does. A key is gone from its deadline on.
* The tokens of a bucket are rational numbers where the script has floating point numbers.
* The keys `ratelimit:{key}` and `ratelimit:fail:{key}` are kept in two stores; no bucket key
  begins with `fail:`.
* `sha256` and `str.lower` are parameters.
* The scripts run atomically in Redis, so that one script is one step of every model that uses
  them. That a bucket expires cannot be observed by any later decision
  (`BackendManager.BucketLaw`).
-/

namespace BackendManager.RateLimit

open Expiring

/-- The settings that the module reads, with what it takes from the libraries. -/
structure Settings where
  ratelimit_enabled : Bool
  ratelimit_default_limit : ℕ
  ratelimit_default_window_seconds : ℕ
  ratelimit_auth_limit : ℕ
  ratelimit_auth_window_seconds : ℕ
  ratelimit_lockout_threshold : ℕ
  ratelimit_lockout_window_seconds : ℕ
  ratelimit_plan_cache_seconds : ℕ
  /-- `hashlib.sha256(...).hexdigest()`. -/
  sha256 : List UInt8 → String
  /-- `str.lower`. -/
  lower : String → String

/-- An error response. -/
structure HTTPException where
  status_code : ℕ
  detail : String
  headers : List (String × String)
deriving DecidableEq

/-- Seconds on the clock of the server. -/
def seconds (n : ℕ) : ℕ := n * 1000000

/-! ### Tiers -/

/-- `RateTier`. -/
structure RateTier where
  limit : ℕ
  window_seconds : ℕ
deriving DecidableEq

/-- `PLAN_TIERS`. -/
def PLAN_TIERS : List (String × RateTier) :=
  [("free", ⟨60, 60⟩), ("pro", ⟨600, 60⟩), ("enterprise", ⟨6000, 60⟩)]

def default_tier (S : Settings) : RateTier :=
  ⟨S.ratelimit_default_limit, S.ratelimit_default_window_seconds⟩

def auth_tier (S : Settings) : RateTier :=
  ⟨S.ratelimit_auth_limit, S.ratelimit_auth_window_seconds⟩

def tier_for_plan (S : Settings) : Option String → RateTier
  | none => default_tier S
  | some plan => (PLAN_TIERS.lookup plan).getD (default_tier S)

/-! ### Redis -/

/-- The hash of a bucket. -/
structure Bucket where
  tokens : ℚ
  ts : ℕ
deriving DecidableEq

/-- What the limiter keeps in Redis. -/
structure Redis where
  clock : ℕ
  buckets : Store String Bucket
  failures : Store String ℕ

/-- Time passes. -/
def Redis.wait (r : Redis) (elapsed : ℕ) : Redis := { r with clock := r.clock + elapsed }

/-- No keys. -/
def Redis.empty : Redis := ⟨0, .empty, .empty⟩

/-- `_BUCKET_LUA`. -/
def bucketScript (rate : ℚ) (burst ttl : ℕ) (key : String) (r : Redis) : Redis × Bool :=
  let bucket := (r.buckets.get r.clock key).getD ⟨burst, r.clock⟩
  -- `max(0, now - ts)` is the subtraction of natural numbers.
  let tokens := min (burst : ℚ)
    (bucket.tokens + ((r.clock - bucket.ts : ℕ) : ℚ) / 1000000 * rate)
  let left := if 1 ≤ tokens then tokens - 1 else tokens
  ({ r with buckets := r.buckets.set key ⟨left, r.clock⟩ (r.clock + seconds ttl) },
    1 ≤ tokens)

/-- `RedisRateLimiter.hit`. -/
def hit (key : String) (tier : RateTier) (r : Redis) : Redis × Bool :=
  if tier.window_seconds = 0 then (r, true)
  else
    bucketScript ((tier.limit : ℚ) / tier.window_seconds) tier.limit (tier.window_seconds * 2)
      key r

/-- `_INCR_LUA`. -/
def incrScript (window_seconds : ℕ) (key : String) (r : Redis) : Redis × ℕ :=
  let c := (r.failures.get r.clock key).getD 0 + 1
  if c = 1 then
    ({ r with failures := r.failures.set key 1 (r.clock + seconds window_seconds) }, 1)
  else ({ r with failures := r.failures.keep key c }, c)

/-- `RedisRateLimiter.count_failure`. -/
def count_failure (key : String) (window_seconds : ℕ) (r : Redis) : Redis × ℕ :=
  incrScript window_seconds key r

/-- `RedisRateLimiter.failure_count`. -/
def failure_count (key : String) (r : Redis) : ℕ := (r.failures.get r.clock key).getD 0

/-- `RedisRateLimiter.clear_failures`. -/
def clear_failures (key : String) (r : Redis) : Redis :=
  { r with failures := r.failures.del key }

/-! ### Identities -/

/-- `str.strip`. -/
def strip (value : String) : String :=
  String.ofList ((value.toList.dropWhile Webhooks.isspace).rdropWhile Webhooks.isspace)

/-- `_hashed`. -/
def _hashed (S : Settings) (value : String) : String :=
  String.ofList ((S.sha256 (Text.utf8 (S.lower (strip value)))).toList.take 32)

end BackendManager.RateLimit
