import Mathlib.Data.List.AList
import BackendManager.Billing
import BackendManager.Interleaving
import BackendManager.Limiter
import BackendManager.RouteKeys

/-!
# Requests under `rate_limit`

The model of `_plan_for_org` and `rate_limit` in `app/ratelimit/dependencies.py`, on routes
whose handler depends on `get_current_membership`. The dependency of the route runs first. Each
request is cut where it waits: for the plan of its organisation, for Redis and for the
membership of its caller. Any number of requests interleave, on any number of instances of the
application, each with a plan cache of its own.

What the dependency decides does not depend on the caller, whom only the membership check behind
it knows: a request spends a token of its organisation's budget whether or not its caller turns
out to be a member. The handler itself is not modelled; a request ends when it is passed on to
the handler or answered with an error.

## Conventions

* The environment says at every step what the clocks show and what a `SELECT` of the
  subscription finds; clocks may show anything.
* `uuid.UUID` and the converter of the router are parameters, and so are the memberships,
  which do not change during a run.
* Whether the service is generated with `billing` is an argument.
-/

namespace BackendManager.RateLimit

open Expiring Interleaving

/-- What does not change during a run. -/
structure System where
  settings : Settings
  billing : Bool
  /-- `uuid.UUID`; `none` is a `ValueError`. -/
  UUID : List Char → Option Uuid
  /-- The converter of the router. -/
  convert : List Char → Option Uuid
  /-- There is a row of `memberships` for the organisation and the user. -/
  members : Uuid → Uuid → Bool

/-- `_PLAN_CACHE_MAX`. -/
def _PLAN_CACHE_MAX : ℕ := 10000

/-- `_PLAN_CACHE`: plans with their expiry. -/
abbrev PlanCache := AList fun _ : List Char => String × ℕ

/-- What the requests share. -/
structure World (I : Type) where
  redis : Redis
  /-- The plan cache of each instance. -/
  caches : I → PlanCache

/-- A request to a route with the dependency `rate_limit(tier)`. -/
structure Call (I : Type) where
  /-- The instance that handles it. -/
  app : I
  /-- The authenticated user. -/
  user : Option Uuid
  tier : Option RateTier
  request : Request
deriving DecidableEq

/-- Where a request stands. -/
inductive Stage
  /-- `rate_limit` is next. -/
  | limit
  /-- The `SELECT` of `_plan_for_org` is next. -/
  | select (now : ℕ) (organization_id : Uuid)
  /-- The plan has been read and is to be cached. -/
  | cache (now : ℕ) (plan : String)
  /-- `hit` is next. -/
  | hit (effective : RateTier)
  /-- The request is within its budget: the dependencies of the handler are next. -/
  | guard
  /-- The handler runs. -/
  | handled
  /-- The request has answered with an error. -/
  | refused (e : HTTPException)
  /-- The path parameter is not a UUID. -/
  | invalid
deriving DecidableEq

/-- A request that has not arrived, or is under way. -/
inductive Proc (I : Type)
  | idle
  | running (call : Call I) (stage : Stage)
deriving DecidableEq

/-- What the environment decides for one step. -/
structure Env where
  /-- `time.monotonic()`. -/
  now : ℕ
  /-- `TIME` of Redis. -/
  clock : ℕ
  /-- The subscription of the organisation. -/
  subscription : Option Billing.Subscription
deriving DecidableEq

/-- One scheduled action. -/
inductive Act (I : Type)
  | arrive (call : Call I)
  | step (env : Env)
deriving DecidableEq

/-- The error of `rate_limit`. -/
def rateLimitExceeded (effective : RateTier) : HTTPException where
  status_code := 429
  detail := "Rate limit exceeded"
  headers := [("Retry-After", toString effective.window_seconds)]

/-- The server at a time. -/
def Redis.timed (r : Redis) (clock : ℕ) : Redis := { r with clock }

/-- `org_id`, if it is neither missing nor empty. -/
def Call.org_id {I : Type} (call : Call I) : Option (List Char) :=
  call.request.org_id.filter (· ≠ [])

variable {I : Type} [DecidableEq I]

/-- `_plan_for_org`, up to its `SELECT`. -/
def _plan_for_org (Y : System) (cache : PlanCache) (now : ℕ) (org_id : List Char) : Stage :=
  match (cache.lookup org_id).filter fun cached =>
      0 < Y.settings.ratelimit_plan_cache_seconds ∧ now < cached.2 with
  | some cached => .hit (tier_for_plan Y.settings (some cached.1))
  | none =>
      match Y.UUID org_id with
      | none => .hit (tier_for_plan Y.settings none)
      | some organization_id => .select now organization_id

/-- `rate_limit(tier)`, up to the first time it waits. -/
def rate_limit (Y : System) (w : World I) (now : ℕ) (call : Call I) : Stage :=
  if !Y.settings.ratelimit_enabled then .guard
  else match call.tier with
    | some tier => .hit tier
    | none =>
        if Y.billing then
          match call.org_id with
          | some org_id => _plan_for_org Y (w.caches call.app) now org_id
          | none => .hit (tier_for_plan Y.settings none)
        else .hit (default_tier Y.settings)

/-- The cache is about to be cleared. -/
def full (Y : System) (cache : PlanCache) : Prop :=
  0 < Y.settings.ratelimit_plan_cache_seconds ∧ _PLAN_CACHE_MAX ≤ cache.keys.length

instance (Y : System) (cache : PlanCache) : Decidable (full Y cache) :=
  inferInstanceAs (Decidable (_ ∧ _))

/-- `_PLAN_CACHE[org_id] = (plan, now + ttl)`, with the bound on the size of the cache. -/
def storePlan (Y : System) (now : ℕ) (plan : String) (org_id : List Char) (cache : PlanCache) :
    PlanCache :=
  if 0 < Y.settings.ratelimit_plan_cache_seconds then
    (if full Y cache then ∅ else cache).insert org_id
      (plan, now + seconds Y.settings.ratelimit_plan_cache_seconds)
  else cache

/-- The dependencies of the handler: the current user and `get_current_membership`. -/
def dependencies (Y : System) (call : Call I) : Stage :=
  match call.user, call.org_id with
  | none, _ => .refused ⟨401, "Unauthorized", []⟩
  | some _, none => .handled
  | some user, some org_id =>
      match Y.convert org_id with
      | none => .invalid
      | some organization_id =>
          if Y.members organization_id user then .handled
          else .refused ⟨404, "Organization not found", []⟩

/-- The next step of a request. -/
def next (Y : System) (w : World I) (env : Env) (call : Call I) :
    Stage → Option (World I × Stage)
  | .limit => some (w, rate_limit Y w env.now call)
  | .select now _ => some (w, .cache now (Billing.activePlan Billing.FREE_PLAN env.subscription))
  | .cache now plan =>
      some ({ w with
          caches := Function.update w.caches call.app
            (storePlan Y now plan (call.org_id.getD []) (w.caches call.app)) },
        .hit (tier_for_plan Y.settings (some plan)))
  | .hit effective =>
      let r := RateLimit.hit call.request.bucket effective (w.redis.timed env.clock)
      some ({ w with redis := r.1 },
        if r.2 then .guard else .refused (rateLimitExceeded effective))
  | .guard => some (w, dependencies Y call)
  | .handled | .refused _ | .invalid => none

/-- One action. -/
def exec (Y : System) : Act I → World I → Proc I → Option (World I × Proc I)
  | .arrive call, w, .idle => some (w, .running call .limit)
  | .step env, w, .running call stage =>
      (next Y w env call stage).map fun r => (r.1, .running call r.2)
  | _, _, _ => none

/-- The routes as an interleaved program. -/
def program (T : Type) (I : Type) [DecidableEq I] (Y : System) :
    Program T (World I) (Proc I) (Act I) := ⟨fun _ => exec Y⟩

/-- The initial configuration: no buckets, empty caches and no request. -/
def init (T I : Type) : Config T (World I) (Proc I) := ⟨⟨.empty, fun _ => ∅⟩, fun _ => .idle⟩

end BackendManager.RateLimit
