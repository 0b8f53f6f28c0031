import BackendManager.BudgetIsolation
import BackendManager.TokenBucket

/-!
# The Law of a Rate Limit

What `RedisRateLimiter.hit` admits, as a law about the requests of one key and the times of
the server, in place of the script that keeps the tokens. The commands of a server are `hit`s of
any keys and those of the failure counters, each with what `TIME` shows. The key in question is
hit with one tier.

A bucket expires twice its window after its last hit. It has been full for a window then, and a
bucket that does not exist is full: nothing shows that the key has gone.

The law counts: a span of time admits no more hits than the burst and the refill of that time
allow, and a hit is refused only if its admission would break this. Times are those of the
server and do not run backwards (`Sorted`). The fields of the script and its expiry do not occur
in the law, so that another limiter could be compared with it.

## Main results

* `Kept.hit`: the script keeps the token bucket that `TokenBucket` is about.
* `decisions_eq_run`: the decisions of a key are those of a token bucket.
* `decided_by_window_law`: when a hit is admitted, how many a span of time admits, and that the
  expiry does not matter.
-/

namespace BackendManager.RateLimit

open Expiring

variable {key : String} {tier : RateTier} {r : Redis} {clock : ℕ}

/-! ### Commands -/

/-- What is sent to the server. -/
inductive Command
  | hit (key : String) (tier : RateTier)
  | count_failure (key : String) (window_seconds : ℕ)
  | failure_count (key : String)
  | clear_failures (key : String)
deriving DecidableEq

/-- What a command does to the server. -/
def Command.run : Command → Redis → Redis
  | .hit key tier, r => (RateLimit.hit key tier r).1
  | .count_failure key window_seconds, r => (RateLimit.count_failure key window_seconds r).1
  | .failure_count _, r => r
  | .clear_failures key, r => RateLimit.clear_failures key r

/-- The tier of a hit of the key. -/
def Command.hits (key : String) : Command → Option RateTier
  | .hit key' tier => if key' = key then some tier else none
  | _ => none

/-- Which hits of a key are admitted, each at its time, when commands run one after the
other. -/
def decisions (key : String) : List (ℕ × Command) → Redis → List (ℕ × Bool)
  | [], _ => []
  | (clock, command) :: later, r =>
      match command.hits key with
      | some tier =>
          (clock, (hit key tier (r.timed clock)).2) ::
            decisions key later (command.run (r.timed clock))
      | none => decisions key later (command.run (r.timed clock))

/-! ### Without expiry -/

/-- `_BUCKET_LUA` without its `EXPIRE`, on one bucket. -/
def persistentScript (rate : ℚ) (burst clock : ℕ) (bucket : Option Bucket) :
    Option Bucket × Bool :=
  let found := bucket.getD ⟨burst, clock⟩
  let tokens := min (burst : ℚ) (found.tokens + ((clock - found.ts : ℕ) : ℚ) / 1000000 * rate)
  let left := if 1 ≤ tokens then tokens - 1 else tokens
  (some ⟨left, clock⟩, 1 ≤ tokens)

/-- `RedisRateLimiter.hit` of a bucket that is never expired. -/
def persistentHit (tier : RateTier) (clock : ℕ) (bucket : Option Bucket) : Option Bucket × Bool :=
  if tier.window_seconds = 0 then (bucket, true)
  else
    persistentScript ((tier.limit : ℚ) / tier.window_seconds) tier.limit clock bucket

/-- The decisions for a key whose bucket is never expired. -/
def persistentDecisions (key : String) : List (ℕ × Command) → Option Bucket → List (ℕ × Bool)
  | [], _ => []
  | (clock, command) :: later, bucket =>
      match command.hits key with
      | some tier =>
          (clock, (persistentHit tier clock bucket).2) ::
            persistentDecisions key later (persistentHit tier clock bucket).1
      | none => persistentDecisions key later bucket

/-! ### The bucket of the law -/

/-- The time of the server in seconds. -/
def inSeconds (clock : ℕ) : ℚ := (clock : ℚ) / 1000000

/-- The tokens per second of a tier. -/
def RateTier.rate (tier : RateTier) : ℚ := (tier.limit : ℚ) / tier.window_seconds

/-- A bucket of the server with its time in seconds. -/
def Bucket.toTokenBucket (bucket : Bucket) : TokenBucket.Bucket ℚ :=
  ⟨bucket.tokens, inSeconds bucket.ts⟩

/-- The hits of a key, in seconds. -/
def hitTimes (key : String) (commands : List (ℕ × Command)) : List ℚ :=
  (commands.filter fun c => (c.2.hits key).isSome).map fun c => inSeconds c.1

/-- Later in microseconds is later in seconds. -/
theorem inSeconds_le {t t' : ℕ} (h : t ≤ t') : inSeconds t ≤ inSeconds t' :=
  div_le_div_of_nonneg_right (Nat.cast_le.mpr h) (by norm_num)

/-- The rate of a tier is not negative. -/
theorem rate_nonneg (tier : RateTier) : 0 ≤ tier.rate :=
  div_nonneg (Nat.cast_nonneg _) (Nat.cast_nonneg _)

/-- The seconds between two times. -/
theorem inSeconds_sub {t t' : ℕ} (h : t ≤ t') :
    ((t' - t : ℕ) : ℚ) / 1000000 = inSeconds t' - inSeconds t := by
  rw [Nat.cast_sub h, sub_div, inSeconds, inSeconds]

/-- What the script computes, for the bucket that it finds. -/
theorem level_eq {bucket : Bucket} (h : bucket.ts ≤ clock) :
    min (tier.limit : ℚ)
        (bucket.tokens + ((clock - bucket.ts : ℕ) : ℚ) / 1000000 *
          ((tier.limit : ℚ) / tier.window_seconds)) =
      bucket.toTokenBucket.level (tier.limit : ℚ) tier.rate (inSeconds clock) := by
  rw [inSeconds_sub h]
  rfl

/-- A hit without expiry is a request of the token bucket. -/
theorem persistentHit_eq (hwindow : 1 ≤ tier.window_seconds) {bucket : Option Bucket}
    (h : ∀ b ∈ bucket, b.ts ≤ clock) :
    ∃ left, (persistentHit tier clock bucket).1 = some ⟨left, clock⟩ ∧
      TokenBucket.hit (tier.limit : ℚ) tier.rate (bucket.map Bucket.toTokenBucket)
          (inSeconds clock) =
        (Bucket.toTokenBucket ⟨left, clock⟩, (persistentHit tier clock bucket).2) := by
  have hfound : (bucket.getD ⟨tier.limit, clock⟩).ts ≤ clock := by
    cases bucket with
    | none => exact le_rfl
    | some b => exact h b rfl
  have hmap : (bucket.map Bucket.toTokenBucket).getD ⟨tier.limit, inSeconds clock⟩ =
      (bucket.getD ⟨tier.limit, clock⟩).toTokenBucket := by
    cases bucket <;> rfl
  rw [persistentHit, if_neg (by omega), persistentScript, level_eq hfound, TokenBucket.hit, hmap]
  exact ⟨_, rfl, rfl⟩

/-! ### The script keeps the bucket -/

/-- The server has the bucket that is never expired, until twice its window after the last
hit. -/
structure Kept (key : String) (tier : RateTier) (clock : ℕ) (bucket : Option Bucket)
    (r : Redis) : Prop where
  /-- What is stored, or nothing is to be seen. -/
  stored : match bucket with
    | none => r.buckets.get clock key = none
    | some b => r.buckets key = some ⟨b, b.ts + seconds (tier.window_seconds * 2)⟩
  past : ∀ b ∈ bucket, b.ts ≤ clock
  nonneg : ∀ b ∈ bucket, 0 ≤ b.tokens

/-- A key that reads as absent does so from then on. -/
theorem get_eq_none_of_le {s : Store String Bucket} {t t' : ℕ} (h : t ≤ t')
    (hnone : s.get t key = none) : s.get t' key = none := by
  rw [Option.eq_none_iff_forall_ne_some] at hnone ⊢
  intro b hb
  obtain ⟨deadline, hstored, hlive⟩ := Store.get_eq_some_iff.mp hb
  exact hnone b (Store.get_eq_some_iff.mpr ⟨deadline, hstored, h.trans_lt hlive⟩)

/-- Time passes. -/
theorem Kept.later {t t' : ℕ} {bucket : Option Bucket} (h : Kept key tier t bucket r)
    (hle : t ≤ t') : Kept key tier t' bucket (r.timed t') where
  stored := by
    have hstored := h.stored
    cases bucket with
    | none => exact get_eq_none_of_le hle hstored
    | some b => exact hstored
  past := fun b hb => (h.past b hb).trans hle
  nonneg := h.nonneg

/-- A command that does not touch the bucket. -/
theorem Kept.congr {bucket : Option Bucket} {r' : Redis} (h : Kept key tier clock bucket r)
    (hbuckets : r'.buckets key = r.buckets key) : Kept key tier clock bucket r' where
  stored := by
    have hstored := h.stored
    cases bucket with
    | none => exact (Store.get_congr hbuckets).trans hstored
    | some b => exact hbuckets.trans hstored
  past := h.past
  nonneg := h.nonneg

/-- Twice the window after its last hit a bucket is full. -/
theorem level_of_expired (hwindow : 1 ≤ tier.window_seconds) {b : Bucket} (hnonneg : 0 ≤ b.tokens)
    (hexpired : b.ts + seconds (tier.window_seconds * 2) ≤ clock) :
    b.toTokenBucket.level (tier.limit : ℚ) tier.rate (inSeconds clock) = tier.limit := by
  refine TokenBucket.level_of_full hnonneg ?_
  have hpos : (0 : ℚ) < tier.window_seconds := Nat.cast_pos.mpr hwindow
  have helapsed : (tier.window_seconds : ℚ) ≤ inSeconds clock - inSeconds b.ts := by
    have hle : ((b.ts + seconds tier.window_seconds : ℕ) : ℚ) ≤ clock := by
      have htwice : seconds (tier.window_seconds * 2) =
          seconds tier.window_seconds + seconds tier.window_seconds := by
        rw [seconds, seconds]
        ring
      exact Nat.cast_le.mpr (by omega)
    rw [Nat.cast_add, seconds, Nat.cast_mul, Nat.cast_ofNat] at hle
    rw [inSeconds, inSeconds, ← sub_div, le_div_iff₀ (by norm_num)]
    linarith
  calc (tier.limit : ℚ) = tier.window_seconds * tier.rate := by
        rw [RateTier.rate, mul_div_cancel₀ _ hpos.ne']
    _ ≤ (inSeconds clock - inSeconds b.ts) * tier.rate :=
        mul_le_mul_of_nonneg_right helapsed (rate_nonneg tier)

/-- The server finds as many tokens as if the bucket were never expired. -/
theorem Kept.level (hwindow : 1 ≤ tier.window_seconds) {bucket : Option Bucket}
    (h : Kept key tier clock bucket r) :
    ((r.buckets.get clock key).getD ⟨tier.limit, clock⟩).toTokenBucket.level (tier.limit : ℚ)
        tier.rate (inSeconds clock) =
      (bucket.getD ⟨tier.limit, clock⟩).toTokenBucket.level (tier.limit : ℚ) tier.rate
        (inSeconds clock) := by
  have hstored := h.stored
  cases bucket with
  | none => rw [show r.buckets.get clock key = none from hstored]
  | some b =>
      rcases Nat.lt_or_ge clock (b.ts + seconds (tier.window_seconds * 2)) with hlive | hexpired
      · rw [Store.get_eq_some_iff.mpr ⟨_, hstored, hlive⟩]
      · have hgone : r.buckets.get clock key = none := by
          rw [Option.eq_none_iff_forall_ne_some]
          intro b' hb'
          obtain ⟨deadline, hstored', hlive⟩ := Store.get_eq_some_iff.mp hb'
          obtain ⟨-, rfl⟩ := Entry.mk.inj (Option.some.inj (hstored.symm.trans hstored'))
          exact absurd hlive (Nat.not_lt.mpr hexpired)
        rw [hgone, Option.getD_none, Option.getD_some,
          level_of_expired hwindow (h.nonneg b rfl) hexpired]
        -- An absent bucket is full as well.
        rw [TokenBucket.Bucket.level]
        exact min_eq_left (by simp [Bucket.toTokenBucket])

/-- A hit of the key: the decision is that of the bucket without expiry, and the server keeps
that bucket. -/
theorem Kept.hit (hwindow : 1 ≤ tier.window_seconds) {bucket : Option Bucket}
    (h : Kept key tier clock bucket r) (hclock : r.clock = clock) :
    (RateLimit.hit key tier r).2 = (persistentHit tier clock bucket).2 ∧
      Kept key tier clock (persistentHit tier clock bucket).1 (RateLimit.hit key tier r).1 := by
  subst hclock
  have hfound : ((r.buckets.get r.clock key).getD ⟨tier.limit, r.clock⟩).ts ≤ r.clock := by
    cases hget : r.buckets.get r.clock key with
    | none => exact le_rfl
    | some b =>
        obtain ⟨deadline, hentry, -⟩ := Store.get_eq_some_iff.mp hget
        have hstored := h.stored
        cases bucket with
        | none => exact absurd (hget.symm.trans hstored) (Option.some_ne_none _)
        | some b' =>
            obtain ⟨rfl, -⟩ := Entry.mk.inj (Option.some.inj (hstored.symm.trans hentry))
            exact h.past b' rfl
  have hpersistent : (bucket.getD ⟨tier.limit, r.clock⟩).ts ≤ r.clock := by
    cases bucket with
    | none => exact le_rfl
    | some b => exact h.past b rfl
  have htokens : 0 ≤ (bucket.getD ⟨tier.limit, r.clock⟩).tokens := by
    cases bucket with
    | none => exact Nat.cast_nonneg _
    | some b => exact h.nonneg b rfl
  rw [RateLimit.hit, persistentHit, if_neg (by omega), if_neg (by omega), bucketScript,
    persistentScript, level_eq hfound, level_eq hpersistent, h.level hwindow]
  refine ⟨rfl, Store.set_self, fun b hb => ?_, fun b hb => ?_⟩
  · exact (Option.some.inj hb) ▸ le_rfl
  · rw [← Option.some.inj hb]
    exact TokenBucket.spend_nonneg
      (TokenBucket.level_nonneg (Nat.cast_nonneg _) (rate_nonneg tier) htokens
        (inSeconds_le hpersistent))

/-- A command that is no hit of the key leaves its bucket. -/
theorem buckets_run_of_not_hits {command : Command} (h : command.hits key = none) :
    (command.run r).buckets key = r.buckets key := by
  cases command with
  | hit key' tier' =>
      refine hit_of_ne fun heq => ?_
      rw [Command.hits, if_pos heq.symm] at h
      exact Option.some_ne_none _ h
  | count_failure key' window_seconds =>
      rw [Command.run, count_failure, incrScript]
      split <;> rfl
  | failure_count key' => rfl
  | clear_failures key' => rfl

/-! ### Runs -/

/-- The clocks do not go back. -/
def Sorted (clock : ℕ) (commands : List (ℕ × Command)) : Prop :=
  (clock :: commands.map Prod.fst).Pairwise (· ≤ ·)

/-- Every hit of the key has the tier. -/
def UsesTier (key : String) (tier : RateTier) (commands : List (ℕ × Command)) : Prop :=
  ∀ c ∈ commands, ∀ used ∈ c.2.hits key, used = tier

/-- Commands in order: the first one is not before the clock, and the others are in order after it.
-/
theorem Sorted.cons {clock' : ℕ} {command : Command} {later : List (ℕ × Command)}
    (h : Sorted clock ((clock', command) :: later)) : clock ≤ clock' ∧ Sorted clock' later :=
  ⟨(List.pairwise_cons.mp h).1 _ List.mem_cons_self, (List.pairwise_cons.mp h).2⟩

/-- The server decides as if no bucket expired. -/
theorem decisions_eq_persistent (hwindow : 1 ≤ tier.window_seconds)
    {commands : List (ℕ × Command)} {bucket : Option Bucket} (h : Kept key tier clock bucket r)
    (hsorted : Sorted clock commands) (htier : UsesTier key tier commands) :
    decisions key commands r = persistentDecisions key commands bucket := by
  induction commands generalizing clock bucket r with
  | nil => rfl
  | cons c later ih =>
      obtain ⟨clock', command⟩ := c
      obtain ⟨hle, hlater⟩ := hsorted.cons
      have hrest : UsesTier key tier later := fun c hc => htier c (List.mem_cons_of_mem _ hc)
      have hkept := h.later hle
      cases hhits : command.hits key with
      | none =>
          rw [decisions, persistentDecisions, hhits]
          exact ih (hkept.congr (buckets_run_of_not_hits hhits)) hlater hrest
      | some used =>
          obtain rfl := htier _ List.mem_cons_self used hhits
          obtain ⟨hdecision, hnext⟩ := hkept.hit hwindow rfl
          have hrun : command.run (r.timed clock') = (hit key used (r.timed clock')).1 := by
            cases command with
            | hit key' tier' =>
                rw [Command.hits] at hhits
                split at hhits
                · obtain rfl := Option.some.inj hhits
                  subst key'
                  rfl
                · cases hhits
            | count_failure | failure_count | clear_failures => cases hhits
          rw [decisions, persistentDecisions, hhits]
          simp only [hrun, hdecision]
          rw [ih hnext hlater hrest]

/-- Without expiry the decisions are those of a token bucket. -/
theorem persistent_eq_run (hwindow : 1 ≤ tier.window_seconds) {commands : List (ℕ × Command)}
    {bucket : Option Bucket} (hpast : ∀ b ∈ bucket, b.ts ≤ clock)
    (hsorted : Sorted clock commands) (htier : UsesTier key tier commands) :
    (persistentDecisions key commands bucket).map (fun d => (inSeconds d.1, d.2)) =
      TokenBucket.run (tier.limit : ℚ) tier.rate (bucket.map Bucket.toTokenBucket)
        (hitTimes key commands) := by
  induction commands generalizing clock bucket with
  | nil => rfl
  | cons c later ih =>
      obtain ⟨clock', command⟩ := c
      obtain ⟨hle, hlater⟩ := hsorted.cons
      have hrest : UsesTier key tier later := fun c hc => htier c (List.mem_cons_of_mem _ hc)
      have hpast' : ∀ b ∈ bucket, b.ts ≤ clock' := fun b hb => (hpast b hb).trans hle
      cases hhits : command.hits key with
      | none =>
          rw [persistentDecisions, hhits, hitTimes, List.filter_cons_of_neg (by simp [hhits])]
          exact ih hpast' hlater hrest
      | some used =>
          obtain rfl := htier _ List.mem_cons_self used hhits
          obtain ⟨left, hleft, hhit⟩ := persistentHit_eq hwindow hpast'
          rw [persistentDecisions, hhits, hitTimes, List.filter_cons_of_pos (by simp [hhits]),
            List.map_cons, List.map_cons, TokenBucket.run_cons, hhit, hleft]
          congr 1
          have hnext : ∀ b ∈ some (Bucket.mk left clock'), b.ts ≤ clock' := fun b hb =>
            (Option.some.inj hb) ▸ le_rfl
          exact ih hnext hlater hrest

/-- The decisions of a key that is absent at first are those of a token bucket. -/
theorem decisions_eq_run (hwindow : 1 ≤ tier.window_seconds) {commands : List (ℕ × Command)}
    (hnew : r.buckets.get r.clock key = none) (hsorted : Sorted r.clock commands)
    (htier : UsesTier key tier commands) :
    (decisions key commands r).map (fun d => (inSeconds d.1, d.2)) =
      TokenBucket.run (tier.limit : ℚ) tier.rate none (hitTimes key commands) := by
  have hkept : Kept key tier r.clock none r :=
    ⟨hnew, fun _ hb => absurd hb (Option.not_mem_none _),
      fun _ hb => absurd hb (Option.not_mem_none _)⟩
  rw [decisions_eq_persistent hwindow hkept hsorted htier]
  exact persistent_eq_run hwindow hkept.past hsorted htier

/-- The hits on one key are in order, as all commands are. -/
theorem hitTimes_sorted {commands : List (ℕ × Command)} (h : Sorted clock commands) :
    (hitTimes key commands).Pairwise (· ≤ ·) := by
  have hclocks : commands.Pairwise fun c c' => c.1 ≤ c'.1 :=
    List.pairwise_map.mp (List.pairwise_cons.mp h).2
  refine List.pairwise_map.mpr ((hclocks.sublist List.filter_sublist).imp ?_)
  exact inSeconds_le

/-! ### The law -/

/-- How many hits a list of decisions has admitted. -/
def admitted (ds : List (ℕ × Bool)) : ℕ := ds.countP Prod.snd

/-- Those of a span of time. -/
def admittedIn (a b : ℚ) (ds : List (ℕ × Bool)) : ℕ :=
  ds.countP fun d => d.2 && decide (a ≤ inSeconds d.1 ∧ inSeconds d.1 ≤ b)

/-- How many hits are admitted does not depend on the unit of time. -/
theorem admitted_map (ds : List (ℕ × Bool)) :
    TokenBucket.admitted (ds.map fun d => (inSeconds d.1, d.2)) = admitted ds := by
  rw [TokenBucket.admitted, List.countP_map]
  rfl

/-- From every hit up to an admitted one, fewer have been admitted than a full bucket refilled
since; and a hit for which this is so is admitted. -/
def WindowLaw (tier : RateTier) (ds : List (ℕ × Bool)) : Prop :=
  ∀ j (hj : j < ds.length), ds[j].2 = true ↔
    ∀ i, ∀ hi : i ≤ j,
      (admitted ((ds.take j).drop i) : ℚ) ≤
        tier.limit - 1 +
          (inSeconds ds[j].1 - inSeconds ds[i].1) * tier.limit / tier.window_seconds

/-- A span of `T` seconds admits at most a full bucket and its refill. -/
def SpanLaw (tier : RateTier) (ds : List (ℕ × Bool)) : Prop :=
  ∀ a T : ℚ, 0 ≤ T →
    (admittedIn a (a + T) ds : ℚ) ≤ tier.limit + T * tier.limit / tier.window_seconds

/-- **The law of a rate limit.** On a key that is absent at first and used with one tier, with
clocks that do not go back, hits are admitted as the window law says, spans of time are
bounded, and the decisions are those of a bucket that is never expired. -/
theorem decided_by_window_law (hwindow : 1 ≤ tier.window_seconds)
    {commands : List (ℕ × Command)} (hnew : r.buckets.get r.clock key = none)
    (hsorted : Sorted r.clock commands) (htier : UsesTier key tier commands) :
    WindowLaw tier (decisions key commands r) ∧ SpanLaw tier (decisions key commands r) ∧
      decisions key commands r = persistentDecisions key commands none := by
  have hrun := decisions_eq_run hwindow hnew hsorted htier
  refine ⟨fun j hj => ?_, fun a T hT => ?_, ?_⟩
  · have hlaw := TokenBucket.allowed_iff (tier.limit : ℚ) tier.rate (hitTimes key commands) j
    simp only [← hrun, List.length_map, List.getElem_map, ← List.map_take, ← List.map_drop,
      admitted_map] at hlaw
    rw [hlaw hj]
    simp only [mul_div_assoc]
    rfl
  · have htimes : (hitTimes key commands).Pairwise (· ≤ ·) := hitTimes_sorted hsorted
    have hlimit : (0 : ℚ) ≤ tier.limit := Nat.cast_nonneg _
    have hspan := TokenBucket.countP_span_le (a := a) hlimit (rate_nonneg tier) hT htimes
    rw [← hrun, List.countP_map] at hspan
    rw [mul_div_assoc]
    exact hspan
  · exact decisions_eq_persistent hwindow
      ⟨hnew, fun _ hb => absurd hb (Option.not_mem_none _),
        fun _ hb => absurd hb (Option.not_mem_none _)⟩ hsorted htier

/-- Two hits a second: the third has to wait for half a second, whatever else the server is
sent. -/
theorem decided_by_window_law_twice :
    ∃ tier : RateTier, 1 ≤ tier.window_seconds ∧ ∃ commands : List (ℕ × Command),
      Redis.empty.buckets.get Redis.empty.clock "ip:1" = none ∧
      Sorted Redis.empty.clock commands ∧ UsesTier "ip:1" tier commands ∧
      decisions "ip:1" commands .empty =
        [(7, true), (8, true), (9, false), (500008, true), (500008, false)] ∧
      WindowLaw tier (decisions "ip:1" commands .empty) ∧
      SpanLaw tier (decisions "ip:1" commands .empty) ∧
      decisions "ip:1" commands .empty = persistentDecisions "ip:1" commands none := by
  have hsorted : Sorted Redis.empty.clock
      [(7, .hit "ip:1" ⟨2, 1⟩), (8, .hit "ip:1" ⟨2, 1⟩), (8, .hit "ip:2" ⟨1, 1⟩),
        (9, .hit "ip:1" ⟨2, 1⟩), (500008, .count_failure "ip:1" 60),
        (500008, .hit "ip:1" ⟨2, 1⟩), (500008, .hit "ip:1" ⟨2, 1⟩)] := by
    unfold Sorted
    decide
  have htier : UsesTier "ip:1" ⟨2, 1⟩
      [(7, .hit "ip:1" ⟨2, 1⟩), (8, .hit "ip:1" ⟨2, 1⟩), (8, .hit "ip:2" ⟨1, 1⟩),
        (9, .hit "ip:1" ⟨2, 1⟩), (500008, .count_failure "ip:1" 60),
        (500008, .hit "ip:1" ⟨2, 1⟩), (500008, .hit "ip:1" ⟨2, 1⟩)] := by
    unfold UsesTier
    decide
  exact ⟨⟨2, 1⟩, le_rfl, _, rfl, hsorted, htier, by decide +kernel,
    decided_by_window_law le_rfl rfl hsorted htier⟩

end BackendManager.RateLimit
