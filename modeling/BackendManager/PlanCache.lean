import BackendManager.RateLimits
import BackendManager.TenantContext
import Mathlib.Algebra.Order.Monoid.Unbundled.Basic
import Mathlib.Algebra.Order.Ring.Rat

/-!
# The Plan Cache

Lookups of `_plan_for_org` next to changes of subscriptions and the passing of time. A lookup
reads the clock and the cache, waits for its `SELECT`, and then caches what it has read, under an
expiry that is counted from its first reading of the clock. Any number of lookups overlap, so that
an older one may replace what a newer one has cached.

The times are those of any ordered monoid, real numbers or ticks. `plan_for_org_eq` and
`storePlan_eq` say that on the ticks of `RateLimit` a lookup does what it does there.

A lookup that has been overtaken caches an older plan than the one that it replaces, but under
the expiry of its own first reading of the clock. The assertion of a lookup says of the plan
that it carries that it was stored at a moment of the run after that reading; the invariant of
the cache says the same of every entry, relative to its expiry. Both are kept by every step of
every lookup.

## Main results

* `sound_of_trace`: what holds of the cache and of every lookup, in every interleaving.
* `plans_of_trace`: a lookup returns a plan of the last `ttl` seconds or of its own time, and the
  cache is bounded.
-/

namespace BackendManager.PlanCache

open Interleaving RateLimit

/-- The settings that a lookup reads. -/
structure Settings (R : Type) where
  /-- `ratelimit_plan_cache_seconds`. -/
  ttl : R
  /-- `uuid.UUID`; `none` is a `ValueError`. -/
  UUID : List Char → Option Uuid

/-- `_PLAN_CACHE`: plans with their expiry. -/
abbrev Cache (R : Type) := AList fun _ : List Char => String × R

/-- What the lookups share. -/
structure World (R : Type) where
  /-- `time.monotonic()`. -/
  clock : R
  cache : Cache R
  /-- The committed rows of `subscriptions`, by organisation. -/
  subscriptions : Uuid → Option Billing.Subscription

/-- Where a lookup stands. -/
inductive Proc (R : Type)
  | idle
  /-- The `SELECT` is next. -/
  | select (now : R) (org_id : List Char) (organization_id : Uuid)
  /-- The plan has been read and is to be cached. -/
  | cache (now : R) (org_id : List Char) (plan : String)
  /-- The lookup has returned at a time. -/
  | returned (org_id : List Char) (time : R) (plan : Option String)
  /-- The lookup has failed. -/
  | raised
deriving DecidableEq

/-- One scheduled action. -/
inductive Act (R : Type)
  /-- Time passes. -/
  | tick (clock : R)
  /-- A transaction that writes the row of an organisation commits. -/
  | change (organization_id : Uuid) (subscription : Option Billing.Subscription)
  | call (org_id : List Char)
  /-- The lookup goes on. -/
  | stmt
  /-- The lookup fails. -/
  | fail

/-- The effective plan of an organisation. -/
def World.plan {R : Type} (w : World R) (organization_id : Uuid) : String :=
  Billing.activePlan Billing.FREE_PLAN (w.subscriptions organization_id)

/-- The initial configuration: an empty cache, at some time and with some subscriptions. -/
def init {R : Type} (T : Type) (clock : R) (subscriptions : Uuid → Option Billing.Subscription) :
    Config T (World R) (Proc R) := ⟨⟨clock, ∅, subscriptions⟩, fun _ => .idle⟩

/-- The lookup is under way. -/
def Proc.UnderWay {R : Type} : Proc R → Prop
  | .select _ _ _ | .cache _ _ _ => True
  | _ => False

variable {R : Type} [AddCommMonoid R] [LinearOrder R]

/-- `_plan_for_org`, up to its `SELECT`. -/
def _plan_for_org (S : Settings R) (cache : Cache R) (now : R) (org_id : List Char) : Proc R :=
  match (cache.lookup org_id).filter fun cached => 0 < S.ttl ∧ now < cached.2 with
  | some cached => .returned org_id now (some cached.1)
  | none =>
      match S.UUID org_id with
      | none => .returned org_id now none
      | some organization_id => .select now org_id organization_id

/-- `_PLAN_CACHE[org_id] = (plan, now + ttl)`, with the bound on the size of the cache. -/
def storePlan (S : Settings R) (now : R) (plan : String) (org_id : List Char) (cache : Cache R) :
    Cache R :=
  if 0 < S.ttl then
    (if _PLAN_CACHE_MAX ≤ cache.keys.length then ∅ else cache).insert org_id (plan, now + S.ttl)
  else cache

/-- One action. -/
def exec (S : Settings R) : Act R → World R → Proc R → Option (World R × Proc R)
  | .tick clock, w, p => if w.clock ≤ clock then some ({ w with clock := clock }, p) else none
  | .change organization_id subscription, w, p =>
      some ({ w with
        subscriptions := Function.update w.subscriptions organization_id subscription }, p)
  | .call org_id, w, .idle => some (w, _plan_for_org S w.cache w.clock org_id)
  | .stmt, w, .select now org_id organization_id =>
      some (w, .cache now org_id (w.plan organization_id))
  | .stmt, w, .cache now org_id plan =>
      some ({ w with cache := storePlan S now plan org_id w.cache },
        .returned org_id w.clock (some plan))
  | .fail, w, .select _ _ _ => some (w, .raised)
  | .fail, w, .cache _ _ _ => some (w, .raised)
  | _, _, _ => none

/-- The lookups as an interleaved program. -/
def program (T : Type) (S : Settings R) : Program T (World R) (Proc R) (Act R) :=
  ⟨fun _ => exec S⟩

/-! ### The lookup on a clock of ticks -/

/-- The settings as `RateLimit` has them. -/
def ofSystem (Y : System) : Settings ℕ :=
  ⟨seconds Y.settings.ratelimit_plan_cache_seconds, Y.UUID⟩

/-- Where a request stands once its lookup stands there. -/
def stage (Y : System) : Proc ℕ → Option Stage
  | .select now _ organization_id => some (.select now organization_id)
  | .cache now _ plan => some (.cache now plan)
  | .returned _ _ plan => some (.hit (tier_for_plan Y.settings plan))
  | .idle | .raised => none

/-- Whether plans are cached at all does not depend on the unit of time. -/
theorem ttl_pos_iff (Y : System) :
    0 < (ofSystem Y).ttl ↔ 0 < Y.settings.ratelimit_plan_cache_seconds := by
  change 0 < _ * 1000000 ↔ _
  omega

/-- On ticks a lookup begins as that of `RateLimit`. -/
theorem plan_for_org_eq (Y : System) (cache : Cache ℕ) (now : ℕ) (org_id : List Char) :
    stage Y (_plan_for_org (ofSystem Y) cache now org_id) =
      some (RateLimit._plan_for_org Y cache now org_id) := by
  simp only [_plan_for_org, RateLimit._plan_for_org, ttl_pos_iff]
  cases hcached : (cache.lookup org_id).filter fun cached =>
      0 < Y.settings.ratelimit_plan_cache_seconds ∧ now < cached.2 with
  | some cached => rfl
  | none =>
      change stage Y (match Y.UUID org_id with
        | none => _
        | some organization_id => _) = some (match Y.UUID org_id with
        | none => _
        | some organization_id => _)
      cases Y.UUID org_id <;> rfl

/-- And caches what that of `RateLimit` caches. -/
theorem storePlan_eq (Y : System) (now : ℕ) (plan : String) (org_id : List Char)
    (cache : Cache ℕ) :
    storePlan (ofSystem Y) now plan org_id cache =
      RateLimit.storePlan Y now plan org_id cache := by
  by_cases hpos : 0 < Y.settings.ratelimit_plan_cache_seconds
  · rw [storePlan, RateLimit.storePlan, if_pos ((ttl_pos_iff Y).mpr hpos), if_pos hpos]
    simp only [full, hpos, true_and]
    rfl
  · rw [storePlan, RateLimit.storePlan, if_neg fun h => hpos ((ttl_pos_iff Y).mp h), if_neg hpos]

/-! ### Moments of a run -/

/-- A moment of the run at which the organisation has had the plan. -/
structure Moment {R T : Type} (c : Config T (World R) (Proc R))
    (moves : List (Program.Move T (World R) (Proc R) (Act R))) (organization_id : Uuid)
    (plan : String) (b : Config T (World R) (Proc R)) : Prop where
  visited : Program.Visited c moves b
  plan : b.shared.plan organization_id = plan

/-- A moment of a run is one of every longer run. -/
theorem Moment.snoc {R T : Type} {c b : Config T (World R) (Proc R)}
    {moves : List (Program.Move T (World R) (Proc R) (Act R))} {organization_id : Uuid}
    {plan : String} (h : Moment c moves organization_id plan b)
    (m : Program.Move T (World R) (Proc R) (Act R)) :
    Moment c (moves ++ [m]) organization_id plan b := ⟨h.visited.snoc m, h.plan⟩

/-! ### The cache -/

section Proofs

variable {T : Type} {S : Settings R} {cache : Cache R} {w w' : World R} {p p' : Proc R} {a : Act R}
  {now time : R} {org_id key : List Char} {organization_id : Uuid} {plan : String}
  {cached : String × R} {c d e b : Config T (World R) (Proc R)}
  {moves : List (Program.Move T (World R) (Proc R) (Act R))} {t u : T}

/-- The cache stays within its bound. -/
theorem length_storePlan (h : cache.keys.length ≤ _PLAN_CACHE_MAX) :
    (storePlan S now plan org_id cache).keys.length ≤ _PLAN_CACHE_MAX := by
  rw [storePlan]
  split
  · have hone : ∀ old : Cache R,
        (old.insert org_id (plan, now + S.ttl)).keys.length ≤ old.keys.length + 1 := by
      intro old
      have hle := (List.kerase_sublist org_id old.entries).length_le
      simp only [AList.keys, AList.entries_insert, List.keys, List.length_map, List.length_cons]
      omega
    split
    · have hempty : (∅ : Cache R).keys.length + 1 ≤ _PLAN_CACHE_MAX :=
        (by decide : 1 ≤ _PLAN_CACHE_MAX)
      exact (hone ∅).trans hempty
    · rename_i hroom
      exact (hone cache).trans (Nat.lt_of_not_le hroom)
  · exact h

/-- What is found in the cache afterwards: the new entry, or one that has been there. -/
theorem lookup_storePlan (h : (storePlan S now plan org_id cache).lookup key = some cached) :
    key = org_id ∧ cached = (plan, now + S.ttl) ∨ cache.lookup key = some cached := by
  rw [storePlan] at h
  split at h
  · by_cases hkey : key = org_id
    · subst hkey
      rw [AList.lookup_insert] at h
      exact .inl ⟨rfl, (Option.some.inj h).symm⟩
    · rw [AList.lookup_insert_ne hkey] at h
      split at h
      · cases h
      · exact .inr h
  · exact .inr h

/-! ### Assertions -/

/-- What holds of a lookup where it stands. -/
def Loc (S : Settings R) (c : Config T (World R) (Proc R))
    (moves : List (Program.Move T (World R) (Proc R) (Act R))) (u : T) (clock : R) :
    Proc R → Prop
  | .idle | .raised => True
  | .select now org_id organization_id => S.UUID org_id = some organization_id ∧ now ≤ clock
  | .cache now org_id plan =>
      ∃ organization_id b, S.UUID org_id = some organization_id ∧
        Moment c moves organization_id plan b ∧ (b.proc u).UnderWay ∧ now ≤ b.shared.clock ∧
        b.shared.clock ≤ clock
  | .returned org_id time answer =>
      ∀ organization_id, S.UUID org_id = some organization_id →
        ∃ plan b, answer = some plan ∧ Moment c moves organization_id plan b ∧
          b.shared.clock ≤ time ∧ (time ≤ b.shared.clock + S.ttl ∨ (b.proc u).UnderWay)

/-- **What holds along every run**: the cache is bounded, what it holds has been a plan when its
expiry was at most `ttl` away, and a lookup knows a plan of its own time. -/
structure Sound (S : Settings R) (c : Config T (World R) (Proc R))
    (moves : List (Program.Move T (World R) (Proc R) (Act R)))
    (d : Config T (World R) (Proc R)) : Prop where
  size : d.shared.cache.keys.length ≤ _PLAN_CACHE_MAX
  entry : ∀ org_id cached, d.shared.cache.lookup org_id = some cached →
    ∃ organization_id b, S.UUID org_id = some organization_id ∧
      Moment c moves organization_id cached.1 b ∧ b.shared.clock ≤ d.shared.clock ∧
      cached.2 ≤ b.shared.clock + S.ttl
  loc : ∀ u, Loc S c moves u d.shared.clock (d.proc u)

/-- The assertion of a lookup is about the past, and a later clock. -/
theorem Loc.snoc {clock clock' : R} (h : Loc S c moves u clock p) (hle : clock ≤ clock')
    (m : Program.Move T (World R) (Proc R) (Act R)) :
    Loc S c (moves ++ [m]) u clock' p := by
  cases p with
  | idle | raised => trivial
  | select now org_id organization_id => exact ⟨h.1, h.2.trans hle⟩
  | cache now org_id plan =>
      obtain ⟨organization_id, b, huuid, hmoment, hway, hnow, hpast⟩ := h
      exact ⟨organization_id, b, huuid, hmoment.snoc m, hway, hnow, hpast.trans hle⟩
  | returned org_id time answer =>
      intro organization_id huuid
      obtain ⟨plan, b, hanswer, hmoment, hpast, hrecent⟩ := h organization_id huuid
      exact ⟨plan, b, hanswer, hmoment.snoc m, hpast, hrecent⟩

/-- A lookup that begins. -/
theorem loc_of_call (h : Sound S c moves d) (m : Program.Move T (World R) (Proc R) (Act R)) :
    Loc S c (moves ++ [m]) t d.shared.clock
      (_plan_for_org S d.shared.cache d.shared.clock org_id) := by
  rw [_plan_for_org]
  split
  · rename_i cached hcached
    obtain ⟨hlookup, hlive⟩ := Option.filter_eq_some_iff.mp hcached
    obtain ⟨organization_id, b, huuid, hmoment, hpast, hexpiry⟩ := h.entry org_id cached hlookup
    intro organization_id' huuid'
    obtain rfl := Option.some.inj (huuid.symm.trans huuid')
    have hbefore : d.shared.clock < cached.2 := (of_decide_eq_true hlive).2
    exact ⟨cached.1, b, rfl, hmoment.snoc m, hpast, .inl (hbefore.le.trans hexpiry)⟩
  · split
    · rename_i hnone
      intro organization_id huuid
      rw [hnone] at huuid
      cases huuid
    · rename_i organization_id huuid
      exact ⟨huuid, le_rfl⟩

/-- A lookup that caches its plan: the entry expires within `ttl` of the moment of the plan. -/
theorem entry_of_storePlan [IsOrderedAddMonoid R] {b : Config T (World R) (Proc R)}
    (huuid : S.UUID org_id = some organization_id) (hmoment : Moment c moves organization_id plan b)
    (hnow : now ≤ b.shared.clock) (hpast : b.shared.clock ≤ d.shared.clock)
    (hcached : (storePlan S now plan org_id d.shared.cache).lookup key = some cached) :
    d.shared.cache.lookup key = some cached ∨
      ∃ organization_id b, S.UUID key = some organization_id ∧
        Moment c moves organization_id cached.1 b ∧ b.shared.clock ≤ d.shared.clock ∧
        cached.2 ≤ b.shared.clock + S.ttl := by
  rcases lookup_storePlan hcached with ⟨rfl, rfl⟩ | hold
  · exact .inr ⟨organization_id, b, huuid, hmoment, hpast, add_le_add hnow le_rfl⟩
  · exact .inl hold

variable [DecidableEq T]

/-- **One step** of a lookup, from what it does to the clock, to the cache and to itself. -/
theorem Sound.step (h : Sound S c moves d) (m : Program.Move T (World R) (Proc R) (Act R))
    (hclock : d.shared.clock ≤ w'.clock)
    (hsize : w'.cache.keys.length ≤ _PLAN_CACHE_MAX)
    (hentry : ∀ org_id cached, w'.cache.lookup org_id = some cached →
      d.shared.cache.lookup org_id = some cached ∨
      ∃ organization_id b, S.UUID org_id = some organization_id ∧
        Moment c moves organization_id cached.1 b ∧ b.shared.clock ≤ d.shared.clock ∧
        cached.2 ≤ b.shared.clock + S.ttl)
    (hloc : Loc S c (moves ++ [m]) t w'.clock p') :
    Sound S c (moves ++ [m]) ⟨w', Function.update d.proc t p'⟩ where
  size := hsize
  entry org_id cached hcached := by
    have hfound : ∃ organization_id b, S.UUID org_id = some organization_id ∧
        Moment c moves organization_id cached.1 b ∧ b.shared.clock ≤ d.shared.clock ∧
        cached.2 ≤ b.shared.clock + S.ttl := by
      rcases hentry org_id cached hcached with hold | hnew
      · exact h.entry org_id cached hold
      · exact hnew
    obtain ⟨organization_id, b, huuid, hmoment, hpast, hexpiry⟩ := hfound
    exact ⟨organization_id, b, huuid, hmoment.snoc m, hpast.trans hclock, hexpiry⟩
  loc u := by
    by_cases hu : u = t
    · subst hu
      simpa only [Function.update_self] using hloc
    · simpa only [Function.update_of_ne hu] using (h.loc u).snoc hclock m

variable [IsOrderedAddMonoid R]

/-- **Every step keeps it.** -/
theorem Sound.of_exec (h : Sound S c moves d) (hvisited : Program.Visited c moves d)
    (m : Program.Move T (World R) (Proc R) (Act R))
    (hexec : exec S a d.shared (d.proc t) = some (w', p')) :
    Sound S c (moves ++ [m]) ⟨w', Function.update d.proc t p'⟩ := by
  have hL := h.loc t
  generalize hp : d.proc t = p at hexec hL
  cases a with
  | tick clock =>
      rw [exec] at hexec
      split at hexec
      · rename_i hle
        obtain ⟨rfl, rfl⟩ := Prod.mk.inj (Option.some.inj hexec)
        exact h.step m hle h.size (fun _ _ => .inl) (hL.snoc hle m)
      · cases hexec
  | change organization_id subscription =>
      obtain ⟨rfl, rfl⟩ := Prod.mk.inj (Option.some.inj hexec)
      exact h.step m le_rfl h.size (fun _ _ => .inl) (hL.snoc le_rfl m)
  | call org_id =>
      cases p <;> simp only [exec, reduceCtorEq] at hexec
      obtain ⟨rfl, rfl⟩ := Prod.mk.inj (Option.some.inj hexec)
      exact h.step m le_rfl h.size (fun _ _ => .inl) (loc_of_call h m)
  | stmt =>
      cases p with
      | idle | returned _ _ _ | raised => cases hexec
      | select now org_id organization_id =>
          obtain ⟨rfl, rfl⟩ := Prod.mk.inj (Option.some.inj hexec)
          have hway : (d.proc t).UnderWay := by
            rw [hp]
            trivial
          exact h.step m le_rfl h.size (fun _ _ => .inl)
            ⟨organization_id, d, hL.1, ⟨hvisited.snoc m, rfl⟩, hway, hL.2, le_rfl⟩
      | cache now org_id plan =>
          obtain ⟨rfl, rfl⟩ := Prod.mk.inj (Option.some.inj hexec)
          obtain ⟨organization_id, b, huuid, hmoment, hway, hnow, hpast⟩ := hL
          refine h.step m le_rfl (length_storePlan h.size)
            (fun _ _ => entry_of_storePlan huuid hmoment hnow hpast) ?_
          intro organization_id' huuid'
          obtain rfl := Option.some.inj (huuid.symm.trans huuid')
          exact ⟨plan, b, rfl, hmoment.snoc m, hpast, .inr hway⟩
  | fail =>
      cases p <;> simp only [exec, reduceCtorEq] at hexec
      all_goals
        obtain ⟨rfl, rfl⟩ := Prod.mk.inj (Option.some.inj hexec)
        exact h.step m le_rfl h.size (fun _ _ => .inl) trivial

/-- **What holds along every run** holds from an empty cache on. -/
theorem sound_of_trace {clock : R} {subscriptions : Uuid → Option Billing.Subscription}
    (h : (program T S).Trace (fun _ _ _ => True) (init T clock subscriptions) moves d) :
    Sound S (init T clock subscriptions) moves d := by
  induction h with
  | nil =>
      refine ⟨Nat.zero_le _, fun org_id cached hcached => ?_, fun u => trivial⟩
      rw [init, AList.lookup_empty] at hcached
      cases hcached
  | snoc hrun _ hstep ih =>
      obtain ⟨w', p', hexec, rfl⟩ := Program.step_eq_some_iff.mp hstep
      exact ih.of_exec hrun.visited _ hexec

/-- **Plans of lookups.** In every interleaving of lookups with changes of subscriptions, what a
lookup for the id of an organisation has returned is the plan that the organisation has had at a
moment of the run: one within the last `ttl` before the lookup has returned, or one at which the
lookup was under way. And the cache is bounded all the time. -/
theorem plans_of_trace {clock : R} {subscriptions : Uuid → Option Billing.Subscription}
    (h : (program T S).Trace (fun _ _ _ => True) (init T clock subscriptions) moves d) :
    (∀ u org_id time answer organization_id, d.proc u = .returned org_id time answer →
      S.UUID org_id = some organization_id →
      ∃ plan b, answer = some plan ∧ Program.Visited (init T clock subscriptions) moves b ∧
        b.shared.plan organization_id = plan ∧ b.shared.clock ≤ time ∧
        (time ≤ b.shared.clock + S.ttl ∨ (b.proc u).UnderWay)) ∧
    d.shared.cache.keys.length ≤ _PLAN_CACHE_MAX := by
  have hsound := sound_of_trace h
  refine ⟨fun u org_id time answer organization_id hreturned huuid => ?_, hsound.size⟩
  have hL := hsound.loc u
  rw [hreturned] at hL
  obtain ⟨plan, b, hanswer, hmoment, hpast, hrecent⟩ := hL organization_id huuid
  exact ⟨plan, b, hanswer, hmoment.visited, hmoment.plan, hpast, hrecent⟩

end Proofs

/-! ### An older lookup that finishes after a newer one -/

/-- A minute, and the ids of organisations as `uuid.UUID` reads them. -/
def minute : Settings ℚ := ⟨60, Tenancy.UUID⟩

/-- The organisation `1`. -/
def orgText : List Char := (Uuid.ofNat 1).str.toList

/-- The organisation subscribes to the plan "pro". -/
def proRow : Billing.Subscription := ⟨Uuid.ofNat 1, "stripe", "sub_1", "active", "pro", none⟩

/-- The lookup `0` reads the free plan, the lookup `1` reads and caches "pro" after a change, and
then the lookup `0` caches what it has read. Half a minute later the lookup `2` finds it. -/
def overtaken : List (ℕ × Act ℚ) :=
  [(0, .call orgText), (0, .stmt), (3, .change (Uuid.ofNat 1) (some proRow)), (3, .tick (1 / 2)),
    (1, .call orgText), (1, .stmt), (1, .stmt), (0, .stmt), (3, .tick (61 / 2)),
    (2, .call orgText)]

/-- The text of the example is read as its organisation. -/
theorem UUID_orgText : minute.UUID orgText = some (Uuid.ofNat 1) :=
  Tenancy.UUID_str (Uuid.ofNat 1)

/-- A lookup is overtaken by a newer one, and a third one is answered with the older plan from the
cache, half a second within the bound. -/
theorem plans_of_trace_overtaken :
    ∃ (moves : List (Program.Move ℕ (World ℚ) (Proc ℚ) (Act ℚ)))
      (d b : Config ℕ (World ℚ) (Proc ℚ)),
      (program ℕ minute).Trace (fun _ _ _ => True) (init ℕ 0 fun _ => none) moves d ∧
        d.proc 2 = .returned orgText (61 / 2) (some "free") ∧
        Program.Visited (init ℕ 0 fun _ => none) moves b ∧
        b.shared.plan (Uuid.ofNat 1) = "free" ∧
        (61 / 2 ≤ b.shared.clock + 60 ∨ (b.proc 2).UnderWay) := by
  have hrecord : ((program ℕ minute).record (fun _ _ _ => True) (init ℕ 0 fun _ => none)
      overtaken).any (fun r =>
        decide (r.2.proc 2 = .returned orgText (61 / 2) (some "free"))) = true := by
    decide +kernel
  cases hr : (program ℕ minute).record (fun _ _ _ => True) (init ℕ 0 fun _ => none) overtaken with
  | none =>
      rw [hr] at hrecord
      cases hrecord
  | some r =>
      rw [hr, Option.any_some, decide_eq_true_iff] at hrecord
      have htrace := Program.trace_of_record hr
      obtain ⟨plan, b, hplan, hvisited, hheld, -, hrecent⟩ :=
        (plans_of_trace htrace).1 2 orgText (61 / 2) (some "free") (Uuid.ofNat 1) hrecord
          UUID_orgText
      obtain rfl := Option.some.inj hplan
      exact ⟨r.1, r.2, b, htrace, hrecord, hvisited, hheld, hrecent⟩

end BackendManager.PlanCache
