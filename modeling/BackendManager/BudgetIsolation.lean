import Mathlib.Data.List.Perm.Subperm
import BackendManager.Noninterference
import BackendManager.RateLimits

/-!
# Whose Requests Spend a Budget

A bucket belongs to an organisation and a route, and a request spends a token of it before its
caller is known to be a member: whoever puts the id of an organisation into a path spends its
budget. Requests with other ids do not matter. They have other buckets and other entries in the
plan caches, unless they make a cache so large that it is cleared.

The results are instances of `BackendManager.Noninterference`: the watched requests are those
that carry a spelling of the organisation's id that its members use, and what they cannot see
are the buckets and cache entries of others. The condition that no cache is cleared is one on
the run, step by step; a cache that is cleared makes a later lookup of a member go to the
database, which may find another plan. Whether an outsider carries such an id can be read off
the requests alone.

## Main results

* `hit_congr`, `hit_of_ne`: `hit` reads and writes one bucket.
* `unwinding`: requests that carry an id are not interfered with by requests that carry
  others.
* `decisions_alone`: if no outsider carries an id in a spelling that members use, and no cache
  is cleared, the members' requests are decided as if there were no others.
* `outsider_spends_budget`: an outsider's request has a member's request refused.
-/

namespace BackendManager.RateLimit

open Expiring Interleaving

variable {T I : Type} [DecidableEq T] [DecidableEq I] {t : T} {Y : System} {X : List Char → Bool}
  {key j : String} {tier : RateTier} {r r' : Redis} {w w' w₀ : World I} {p p' : Proc I}
  {a : Act I} {c d : Config T (World I) (Proc I)}

/-! ### One bucket -/

/-- `hit` is determined by the clock and its own bucket. -/
theorem hit_congr (h : r.buckets key = r'.buckets key) (hclock : r.clock = r'.clock) :
    (hit key tier r).2 = (hit key tier r').2 ∧
      (hit key tier r).1.buckets key = (hit key tier r').1.buckets key := by
  rw [hit, hit]
  split
  · exact ⟨rfl, h⟩
  · rw [bucketScript, bucketScript, hclock, Store.get_congr h]
    exact ⟨rfl, Store.set_self.trans Store.set_self.symm⟩

/-- It leaves the other buckets alone. -/
theorem hit_of_ne (h : j ≠ key) : (hit key tier r).1.buckets j = r.buckets j := by
  rw [hit]
  split
  · rfl
  · exact Store.set_of_ne h

/-- A request without an organisation has a bucket of its client. -/
theorem bucket_ne_of_no_org {request request' : Request} {org_id : List Char}
    (h : request.org_id = some org_id) (h' : request'.org_id.filter (· ≠ []) = none) :
    request.bucket ≠ request'.bucket := by
  obtain ⟨-, rest, -, hbucket⟩ := bucket_of_org_id h
  rw [hbucket, Request.bucket, scope, h']
  intro heq
  have hlist := String.ofList_injective heq
  exact absurd (List.cons.inj hlist).1 (by decide)

/-! ### Requests with certain ids -/

/-- The request carries one of the ids `X`. -/
def Proc.names (X : List Char → Bool) : Proc I → Bool
  | .idle => false
  | .running call _ => call.org_id.any X

/-- The buckets of the ids `X` and their entries in the plan caches are the same, and `w₀` has
no entries that `w` has not. -/
structure Same (X : List Char → Bool) (w w₀ : World I) : Prop where
  plans : ∀ i org_id, X org_id = true →
    (w₀.caches i).lookup org_id = (w.caches i).lookup org_id
  keys : ∀ i, (w₀.caches i).keys ⊆ (w.caches i).keys
  buckets : ∀ (request : Request) org_id, request.org_id = some org_id → X org_id = true →
    w₀.redis.buckets request.bucket = w.redis.buckets request.bucket

omit [DecidableEq T] [DecidableEq I] in
/-- An organisation sees no difference between a world and itself. -/
theorem Same.refl (w : World I) : Same X w w :=
  ⟨fun _ _ _ => rfl, fun _ => List.Subset.refl _, fun _ _ _ _ => rfl⟩

/-- The instance whose cache the next step writes. -/
def Proc.caching : Proc I → Option I
  | .running call (.cache _ _) => some call.app
  | _ => none

/-- No cache is cleared. -/
def NeverFull (Y : System) (c : Config T (World I) (Proc I)) (t : T) (_ : Act I) : Prop :=
  ((c.proc t).caching.all fun app => ¬ full Y (c.shared.caches app)) = true

instance (Y : System) (c : Config T (World I) (Proc I)) (t : T) (a : Act I) :
    Decidable (NeverFull Y c t a) := inferInstanceAs (Decidable (_ = _))

omit [DecidableEq T] [DecidableEq I] in
/-- A lookup that is about to cache finds room: this is the condition of the run. -/
theorem not_full_of_caching {call : Call I} {stage : Stage} (hok : NeverFull Y c t a)
    (hproc : c.proc t = .running call stage) (now : ℕ) (plan : String)
    (hstage : stage = .cache now plan) : ¬ full Y (c.shared.caches call.app) := by
  rw [NeverFull, hproc, hstage] at hok
  exact of_decide_eq_true hok

omit [DecidableEq I] in
/-- The organisation of a call is the one in its path. -/
theorem org_id_of_call {call : Call I} {org_id : List Char} (h : call.org_id = some org_id) :
    call.request.org_id = some org_id :=
  (Option.filter_eq_some_iff.mp h).1

omit [DecidableEq I] in
/-- The bucket of a request that carries none of the ids `X`. -/
theorem bucket_ne {call : Call I} (hother : call.org_id.any X = false) {request : Request}
    {org_id : List Char} (h : request.org_id = some org_id) (hX : X org_id = true) :
    request.bucket ≠ call.request.bucket := by
  cases hcall : call.org_id with
  | none => exact bucket_ne_of_no_org h hcall
  | some org_id' =>
      intro heq
      obtain ⟨rfl, -⟩ := (bucket_inj h (org_id_of_call hcall)).mp heq
      rw [hcall, Option.any_some, hX] at hother
      cases hother

/-! ### The plan caches -/

variable {cache cache' : PlanCache} {org_id : List Char}

/-- A cache with fewer keys is not full before the other one is. -/
theorem full_mono (h : cache'.keys ⊆ cache.keys) (hfull : full Y cache') : full Y cache :=
  ⟨hfull.1, hfull.2.trans (cache'.keys_nodup.subperm h).length_le⟩

/-- While there is room, caching one plan loses no other. -/
theorem lookup_storePlan_of_ne (hfull : ¬ full Y cache) {now : ℕ} {plan : String}
    {org_id' : List Char} (h : org_id' ≠ org_id) :
    (storePlan Y now plan org_id cache).lookup org_id' = cache.lookup org_id' := by
  rw [storePlan, if_neg hfull]
  split
  · exact AList.lookup_insert_ne h
  · rfl

/-- And no key. -/
theorem keys_storePlan (hfull : ¬ full Y cache) (now : ℕ) (plan : String) :
    cache.keys ⊆ (storePlan Y now plan org_id cache).keys := by
  rw [storePlan, if_neg hfull]
  split
  · intro s hs
    exact AList.mem_keys.mp ((AList.mem_insert _).mpr (.inr (AList.mem_keys.mpr hs)))
  · exact List.Subset.refl _

/-- Two caches that agree on the ids `X` still do after one of them is stored. -/
theorem lookup_storePlan_congr (hfull : ¬ full Y cache) (hfull' : ¬ full Y cache')
    (h : ∀ org_id, X org_id = true → cache'.lookup org_id = cache.lookup org_id) (now : ℕ)
    (plan : String) {org_id' : List Char} (hX : X org_id' = true) :
    (storePlan Y now plan org_id cache').lookup org_id' =
      (storePlan Y now plan org_id cache).lookup org_id' := by
  by_cases hne : org_id' = org_id
  · subst hne
    rw [storePlan, storePlan, if_neg hfull, if_neg hfull']
    split
    · rw [AList.lookup_insert, AList.lookup_insert]
    · exact h org_id' hX
  · rw [lookup_storePlan_of_ne hfull hne, lookup_storePlan_of_ne hfull' hne, h org_id' hX]

/-- Caching the same key in both keeps the one cache within the other. -/
theorem keys_storePlan_congr (hfull : ¬ full Y cache) (hfull' : ¬ full Y cache')
    (h : cache'.keys ⊆ cache.keys) (now : ℕ) (plan : String) :
    (storePlan Y now plan org_id cache').keys ⊆ (storePlan Y now plan org_id cache).keys := by
  rw [storePlan, storePlan, if_neg hfull, if_neg hfull']
  split
  · intro s hs
    have hs' := (AList.mem_insert _).mp (AList.mem_keys.mpr hs)
    exact AList.mem_keys.mp ((AList.mem_insert _).mpr
      (hs'.imp_right fun hmem => AList.mem_keys.mpr (h (AList.mem_keys.mp hmem))))
  · exact h

/-! ### Unwinding -/

omit [DecidableEq T] in
/-- A plan is stored in both. -/
theorem Same.storePlan (h : Same X w w₀) {i : I} (hfull : ¬ full Y (w.caches i)) (now : ℕ)
    (plan : String) (org_id : List Char) :
    Same X
      { w with caches :=
          Function.update w.caches i (RateLimit.storePlan Y now plan org_id (w.caches i)) }
      { w₀ with caches :=
          Function.update w₀.caches i (RateLimit.storePlan Y now plan org_id (w₀.caches i)) } := by
  have hfull₀ : ¬ full Y (w₀.caches i) := fun hf => hfull (full_mono (h.keys i) hf)
  refine ⟨fun j org_id' hX => ?_, fun j => ?_, h.buckets⟩
  · by_cases hj : j = i
    · subst hj
      simpa using lookup_storePlan_congr hfull hfull₀ (h.plans j) now plan hX
    · simpa [Function.update_of_ne hj] using h.plans j org_id' hX
  · by_cases hj : j = i
    · subst hj
      simpa using keys_storePlan_congr hfull hfull₀ (h.keys j) now plan
    · simpa [Function.update_of_ne hj] using h.keys j

omit [DecidableEq T] [DecidableEq I] in
/-- A request with one of the ids is within its budget in both or in neither. -/
theorem Same.hit (h : Same X w w₀) {request : Request} {org_id : List Char}
    (horg : request.org_id = some org_id) (hX : X org_id = true) (tier : RateTier) (clock : ℕ) :
    (RateLimit.hit request.bucket tier (w.redis.timed clock)).2 =
        (RateLimit.hit request.bucket tier (w₀.redis.timed clock)).2 ∧
      Same X
        { w with redis := (RateLimit.hit request.bucket tier (w.redis.timed clock)).1 }
        { w₀ with redis := (RateLimit.hit request.bucket tier (w₀.redis.timed clock)).1 } := by
  have hbucket : (w.redis.timed clock).buckets request.bucket =
      (w₀.redis.timed clock).buckets request.bucket := (h.buckets request org_id horg hX).symm
  obtain ⟨hallowed, hkey⟩ :
      (RateLimit.hit request.bucket tier (w.redis.timed clock)).2 = _ ∧ _ := hit_congr hbucket rfl
  refine ⟨hallowed, h.plans, h.keys, fun request' org_id' horg' hX' => ?_⟩
  by_cases hne : request'.bucket = request.bucket
  · rw [hne]
    exact hkey.symm
  · show (RateLimit.hit _ _ _).1.buckets _ = (RateLimit.hit _ _ _).1.buckets _
    rw [hit_of_ne hne, hit_of_ne hne]
    exact h.buckets request' org_id' horg' hX'

/-- The step of a request that carries one of the ids. -/
theorem Same.next (h : Same X w w₀) {env : Env} {call : Call I} {stage stage' : Stage}
    (hnames : call.org_id.any X = true)
    (hfull : ∀ now plan, stage = .cache now plan → ¬ full Y (w.caches call.app))
    (hnext : next Y w env call stage = some (w', stage')) :
    ∃ w₁, next Y w₀ env call stage = some (w₁, stage') ∧ Same X w' w₁ := by
  obtain ⟨org_id, horg, hX⟩ : ∃ org_id, call.org_id = some org_id ∧ X org_id = true := by
    cases hcall : call.org_id with
    | none => rw [hcall] at hnames; cases hnames
    | some org_id => exact ⟨org_id, rfl, by simpa [hcall] using hnames⟩
  cases stage with
  | handled | refused _ | invalid => cases hnext
  | select now organization_id =>
      obtain ⟨rfl, rfl⟩ := Prod.mk.inj (Option.some.inj hnext)
      exact ⟨w₀, rfl, h⟩
  | guard =>
      obtain ⟨rfl, rfl⟩ := Prod.mk.inj (Option.some.inj hnext)
      exact ⟨w₀, rfl, h⟩
  | limit =>
      obtain ⟨rfl, rfl⟩ := Prod.mk.inj (Option.some.inj hnext)
      refine ⟨w₀, ?_, h⟩
      have hplan : ∀ now, _plan_for_org Y (w₀.caches call.app) now org_id =
          _plan_for_org Y (w.caches call.app) now org_id := fun now => by
        rw [_plan_for_org, _plan_for_org, h.plans call.app org_id hX]
      rw [RateLimit.next, rate_limit, rate_limit, horg]
      simp only [hplan]
  | cache now plan =>
      have hnot := hfull now plan rfl
      obtain ⟨rfl, rfl⟩ := Prod.mk.inj (Option.some.inj hnext)
      exact ⟨_, rfl, h.storePlan hnot now plan _⟩
  | hit effective =>
      obtain ⟨rfl, rfl⟩ := Prod.mk.inj (Option.some.inj hnext)
      obtain ⟨hallowed, hsame⟩ := h.hit (org_id_of_call horg) hX effective env.clock
      exact ⟨_, by rw [hallowed]; rfl, hsame⟩

/-- The step of a request that carries another id, or none. -/
theorem Same.other (h : Same X w w₀) (hX : X [] = false) {env : Env} {call : Call I}
    {stage stage' : Stage} (hother : call.org_id.any X = false)
    (hfull : ∀ now plan, stage = .cache now plan → ¬ full Y (w.caches call.app))
    (hnext : RateLimit.next Y w env call stage = some (w', stage')) : Same X w' w₀ := by
  cases stage with
  | handled | refused _ | invalid => cases hnext
  | limit | select | guard =>
      obtain ⟨rfl, rfl⟩ := Prod.mk.inj (Option.some.inj hnext)
      exact h
  | cache now plan =>
      have hnot := hfull now plan rfl
      obtain ⟨rfl, rfl⟩ := Prod.mk.inj (Option.some.inj hnext)
      have hne : ∀ org_id, X org_id = true → org_id ≠ call.org_id.getD [] := by
        rintro org_id hXo rfl
        cases hcall : call.org_id with
        | none =>
            rw [hcall, Option.getD_none, hX] at hXo
            cases hXo
        | some org_id' =>
            rw [hcall, Option.getD_some] at hXo
            rw [hcall, Option.any_some, hXo] at hother
            cases hother
      refine ⟨fun i org_id hXo => ?_, fun i => ?_, h.buckets⟩
      · by_cases hi : i = call.app
        · subst hi
          simp only [Function.update_self]
          rw [lookup_storePlan_of_ne hnot (hne org_id hXo), h.plans call.app org_id hXo]
        · simpa [Function.update_of_ne hi] using h.plans i org_id hXo
      · by_cases hi : i = call.app
        · subst hi
          simpa using List.Subset.trans (h.keys call.app) (keys_storePlan hnot now plan)
        · simpa [Function.update_of_ne hi] using h.keys i
  | hit effective =>
      obtain ⟨rfl, rfl⟩ := Prod.mk.inj (Option.some.inj hnext)
      refine ⟨h.plans, h.keys, fun request org_id ho hXo => ?_⟩
      show _ = (RateLimit.hit _ _ _).1.buckets _
      rw [hit_of_ne (bucket_ne hother ho hXo)]
      exact h.buckets request org_id ho hXo

/-- An action of a request that is under way, or its arrival. -/
theorem exec_cases (h : exec Y a w p = some (w', p')) :
    (∃ call, a = .arrive call ∧ p = .idle ∧ w' = w ∧ p' = .running call .limit) ∨
      ∃ env call stage stage', a = .step env ∧ p = .running call stage ∧
        p' = .running call stage' ∧ next Y w env call stage = some (w', stage') := by
  cases a with
  | arrive call =>
      cases p with
      | running _ _ => cases h
      | idle =>
          obtain ⟨rfl, rfl⟩ := Prod.mk.inj (Option.some.inj h)
          exact .inl ⟨call, rfl, rfl, rfl, rfl⟩
  | step env =>
      cases p with
      | idle => cases h
      | running call stage =>
          obtain ⟨⟨w'', stage'⟩, hnext, hpair⟩ := Option.map_eq_some_iff.mp h
          obtain ⟨rfl, rfl⟩ := Prod.mk.inj hpair
          exact .inr ⟨env, call, stage, stage', rfl, rfl, rfl, hnext⟩

/-- **Requests that carry one of the ids `X` are not interfered with** by the others, as long
as no cache is cleared. -/
theorem unwinding (T : Type) [DecidableEq T] (Y : System) (hX : X [] = false) :
    (program T I Y).Unwinding (NeverFull Y) (Proc.names X) .idle (Same X) where
  start := rfl
  stable h hstarted := by
    rcases exec_cases h with ⟨call, -, hidle, -, -⟩ | ⟨env, call, stage, stage', -, rfl, rfl, -⟩
    · exact absurd hidle hstarted
    · rfl
  consistent {c t a w₀ w l} hok hsame h hnames := by
    rcases exec_cases h with ⟨call, rfl, hidle, rfl, rfl⟩ |
      ⟨env, call, stage, stage', rfl, hproc, rfl, hnext⟩
    · exact ⟨w₀, by rw [hidle]; rfl, hsame⟩
    · obtain ⟨w₁, hnext', hsame'⟩ :=
        hsame.next hnames (not_full_of_caching hok hproc) hnext
      refine ⟨w₁, ?_, hsame'⟩
      rw [hproc]
      exact Option.map_eq_some_iff.mpr ⟨(w₁, stage'), hnext', rfl⟩
  respects {c t a w₀ w l} hok hsame h hother := by
    rcases exec_cases h with ⟨call, rfl, hidle, rfl, rfl⟩ |
      ⟨env, call, stage, stage', rfl, hproc, rfl, hnext⟩
    · exact hsame
    · exact hsame.other hX hother (not_full_of_caching hok hproc) hnext

/-! ### Members and outsiders -/

/-- The caller is a member of `B`. -/
def Call.member (Y : System) (B : Uuid) (call : Call I) : Bool := call.user.any (Y.members B)

/-- The caller is a member of `B` and the path names `B`. -/
def Call.inside (Y : System) (B : Uuid) (call : Call I) : Bool :=
  call.member Y B && call.org_id.bind Y.convert = some B

/-- The request is one of a member of `B` to `B`. -/
def Proc.inside (Y : System) (B : Uuid) : Proc I → Bool
  | .idle => false
  | .running call _ => call.inside Y B

/-- The request that arrives with an action. -/
def Act.call : Act I → Option (Call I)
  | .arrive call => some call
  | .step _ => none

/-- The requests of a run. -/
def arrivals (moves : List (Program.Move T (World I) (Proc I) (Act I))) : List (Call I) :=
  moves.filterMap fun m => m.action.call

/-- The steps of the requests of members of `B` to `B`, as they are scheduled. -/
def insideActs (Y : System) (B : Uuid)
    (moves : List (Program.Move T (World I) (Proc I) (Act I))) : List (T × Act I) :=
  (moves.filter (Program.Move.watched (Proc.inside Y B))).map Program.Move.act

/-- Whoever carries the id of `B` in a spelling that a member uses is a member. -/
def Apart (Y : System) (B : Uuid) (moves : List (Program.Move T (World I) (Proc I) (Act I))) :
    Prop :=
  ∀ call ∈ arrivals moves, ∀ call' ∈ arrivals moves, call'.inside Y B = true →
    call.org_id = call'.org_id → call.member Y B = true

instance (Y : System) (B : Uuid) (moves : List (Program.Move T (World I) (Proc I) (Act I))) :
    Decidable (Apart Y B moves) := inferInstanceAs (Decidable (∀ _ ∈ _, _))

/-- The spellings that the members of `B` use in a run. -/
def spelled (Y : System) (B : Uuid) (moves : List (Program.Move T (World I) (Proc I) (Act I)))
    (org_id : List Char) : Bool :=
  (arrivals moves).any fun call => call.inside Y B && call.org_id = some org_id

variable {B : Uuid} {moves moves' : List (Program.Move T (World I) (Proc I) (Act I))}
  {d' : Config T (World I) (Proc I)} {m : Program.Move T (World I) (Proc I) (Act I)}
  {ok : Config T (World I) (Proc I) → T → Act I → Prop}

omit [DecidableEq T] [DecidableEq I] in
/-- Before any call the organisation has been spelled in no way. -/
theorem spelled_nil : spelled Y B moves [] = false := by
  refine List.any_eq_false.mpr fun call _ hcall => ?_
  have horg := of_decide_eq_true ((Bool.and_eq_true _ _).mp hcall).2
  exact absurd rfl (of_decide_eq_true (Option.filter_eq_some_iff.mp horg).2)

/-- A request that is under way has arrived. -/
theorem arrived (h : (program T I Y).Trace ok (init T I) moves d) {call : Call I}
    {stage : Stage} (hproc : d.proc t = .running call stage) : call ∈ arrivals moves := by
  induction h generalizing stage with
  | nil => cases hproc
  | @snoc moves c d u a _ _ hstep ih =>
      rw [arrivals, List.filterMap_append]
      by_cases hu : t = u
      · subst hu
        obtain ⟨w, p, hexec, rfl⟩ := Program.step_eq_some_iff.mp hstep
        replace hproc : p = .running call stage := by simpa using hproc
        rcases exec_cases hexec with ⟨call', rfl, -, -, hp⟩ |
          ⟨env, call', stage', stage'', -, hc, hp, -⟩
        · obtain ⟨rfl, -⟩ := Proc.running.inj (hproc.symm.trans hp)
          exact List.mem_append_right _ (List.mem_singleton_self _)
        · obtain ⟨rfl, -⟩ := Proc.running.inj (hproc.symm.trans hp)
          exact List.mem_append_left _ (ih hc)
      · rw [Program.proc_of_step_ne hstep hu] at hproc
        exact List.mem_append_left _ (ih hproc)

omit [DecidableEq T] [DecidableEq I] in
/-- A member's request carries a spelling. -/
theorem spelled_of_inside {call : Call I} (hcall : call ∈ arrivals moves)
    (hinside : call.inside Y B = true) :
    ∃ org_id, call.org_id = some org_id ∧ spelled Y B moves org_id = true := by
  have hB := of_decide_eq_true ((Bool.and_eq_true _ _).mp hinside).2
  obtain ⟨org_id, horg, -⟩ := Option.bind_eq_some_iff.mp hB
  exact ⟨org_id, horg, List.any_eq_true.mpr ⟨call, hcall,
    (Bool.and_eq_true _ _).mpr ⟨hinside, decide_eq_true horg⟩⟩⟩

omit [DecidableEq T] [DecidableEq I] in
/-- The members' requests are those that carry the spellings. -/
theorem names_spelled (hapart : Apart Y B moves) {call : Call I} (hcall : call ∈ arrivals moves) :
    call.org_id.any (spelled Y B moves) = call.inside Y B := by
  rw [Bool.eq_iff_iff]
  constructor
  · intro hnames
    cases horg : call.org_id with
    | none => rw [horg] at hnames; cases hnames
    | some org_id =>
        rw [horg, Option.any_some] at hnames
        obtain ⟨call', hcall', hin⟩ := List.any_eq_true.mp hnames
        obtain ⟨hinside, horg'⟩ := (Bool.and_eq_true _ _).mp hin
        have hsame : call.org_id = call'.org_id := horg.trans (of_decide_eq_true horg').symm
        refine (Bool.and_eq_true _ _).mpr ⟨hapart call hcall call' hcall' hinside hsame, ?_⟩
        rw [hsame]
        exact ((Bool.and_eq_true _ _).mp hinside).2
  · intro hinside
    obtain ⟨org_id, horg, hspelled⟩ := spelled_of_inside hcall hinside
    rw [horg, Option.any_some, hspelled]

/-- The same of the requests that are under way after a part of the run. -/
theorem names_proc (hapart : Apart Y B moves) (h : (program T I Y).Trace ok (init T I) moves' d)
    (hsub : moves' ⊆ moves) (t : T) :
    (d.proc t).names (spelled Y B moves) = (d.proc t).inside Y B := by
  cases hproc : d.proc t with
  | idle => rfl
  | running call stage =>
      exact names_spelled hapart (List.filterMap_subset _ hsub (arrived h hproc))

/-- The steps of the members' requests. -/
theorem watched_names (h : (program T I Y).Trace ok (init T I) moves d)
    (hapart : Apart Y B moves) :
    moves.filter (Program.Move.watched (Proc.names (spelled Y B moves))) =
      moves.filter (Program.Move.watched (Proc.inside Y B)) := by
  refine List.filter_congr fun m hm => ?_
  obtain ⟨earlier, later, hmoves⟩ := List.append_of_mem hm
  obtain ⟨hrun, hstep⟩ := h.split hmoves
  have hafter := (hrun.mono fun _ _ _ _ => trivial).snoc trivial hstep
  have hsub : earlier ++ [m] ⊆ moves := by
    rw [hmoves, List.append_cons earlier m later]
    exact List.subset_append_left _ _
  exact names_proc hapart hafter hsub m.thread

/-- **Decisions alone.** Let no outsider carry the id of `B` in a spelling that members use, and
let no cache be cleared. Then the requests of the members of `B` to `B` can be run alone; they
are decided in the same way and leave their buckets the same. Whatever else is requested, they
are decided in the same way. -/
theorem decisions_alone (h : (program T I Y).Trace (NeverFull Y) (init T I) moves d)
    (hapart : Apart Y B moves) :
    (∃ alone e, (program T I Y).Trace (fun _ _ _ => True) (init T I) alone e ∧
      alone.map Program.Move.act = insideActs Y B moves ∧
      (∀ t, (d.proc t).inside Y B = true → e.proc t = d.proc t) ∧
      ∀ call ∈ arrivals moves, call.inside Y B = true →
        e.shared.redis.buckets call.request.bucket =
          d.shared.redis.buckets call.request.bucket) ∧
    ∀ moves' d', (program T I Y).Trace (NeverFull Y) (init T I) moves' d' → Apart Y B moves' →
      insideActs Y B moves' = insideActs Y B moves →
      ∀ t, (d.proc t).inside Y B = true → d'.proc t = d.proc t := by
  have hnames := names_proc hapart h (List.Subset.refl _)
  constructor
  · obtain ⟨alone, e, htrace, hacts, halone⟩ :=
      (unwinding T Y spelled_nil).alone h (Same.refl _) fun _ => rfl
    rw [watched_names h hapart] at hacts
    refine ⟨alone, e, htrace, hacts, fun t ht => halone.same t ((hnames t).trans ht),
      fun call hcall hinside => ?_⟩
    obtain ⟨org_id, horg, hspelled⟩ := spelled_of_inside hcall hinside
    exact halone.shared.buckets call.request org_id (org_id_of_call horg) hspelled
  · intro moves' d' h' hapart' hacts t ht
    rw [insideActs, insideActs, ← watched_names h hapart, ← watched_names h' hapart'] at hacts
    exact (unwinding T Y spelled_nil).agree (unwinding T Y spelled_nil) h h' (Same.refl _)
      (Same.refl _) (fun _ => rfl) hacts ((hnames t).trans ht)

/-! ### A member and an outsider -/

/-- One request a minute by default. -/
def onePerMinute (billing : Bool) : System where
  settings :=
    { ratelimit_enabled := true
      ratelimit_default_limit := 1
      ratelimit_default_window_seconds := 60
      ratelimit_auth_limit := 10
      ratelimit_auth_window_seconds := 60
      ratelimit_lockout_threshold := 5
      ratelimit_lockout_window_seconds := 900
      ratelimit_plan_cache_seconds := 60
      sha256 := Text.latin1
      lower := id }
  billing := billing
  UUID := Tenancy.UUID
  convert := Tenancy.convert
  members organization_id user :=
    organization_id = Tenancy.sampleDigits.uuid ∧ user = .ofNat 1

/-- The request of a user to `/orgs/{org_id}/thing`. -/
def callBy (user : Option Uuid) (request : Request) : Call Unit := ⟨(), user, none, request⟩

/-- An arrival, and the steps of the request in the first minute. -/
def requestOf (t : T) (call : Call Unit) (steps : ℕ) : List (T × Act Unit) :=
  (t, .arrive call) :: List.replicate steps (t, .step ⟨0, 0, none⟩)

/-- The outsider has another spelling of the id, and the member is served. -/
theorem decisions_alone_spellings :
    ∃ r ∈ (program (Fin 2) Unit (onePerMinute true)).record (NeverFull (onePerMinute true))
        (init (Fin 2) Unit) (requestOf 0 (callBy none hyphenatedThing) 5 ++
          requestOf 1 (callBy (some (.ofNat 1)) plainThing) 5),
      Apart (onePerMinute true) Tenancy.sampleDigits.uuid r.1 ∧
        r.2.proc 1 = .running (callBy (some (.ofNat 1)) plainThing) .handled ∧
        ∃ alone e, (program (Fin 2) Unit (onePerMinute true)).Trace (fun _ _ _ => True)
            (init (Fin 2) Unit) alone e ∧
          alone.map Program.Move.act =
            insideActs (onePerMinute true) Tenancy.sampleDigits.uuid r.1 ∧
          e.proc 1 = r.2.proc 1 := by
  obtain ⟨⟨moves, d⟩, hrecord, hapart, hhandled⟩ :
      ∃ r ∈ (program (Fin 2) Unit (onePerMinute true)).record (NeverFull (onePerMinute true))
        (init (Fin 2) Unit) (requestOf 0 (callBy none hyphenatedThing) 5 ++
          requestOf 1 (callBy (some (.ofNat 1)) plainThing) 5),
        Apart (onePerMinute true) Tenancy.sampleDigits.uuid r.1 ∧
          r.2.proc 1 = .running (callBy (some (.ofNat 1)) plainThing) .handled := by
    decide +kernel
  obtain ⟨⟨alone, e, halone, hacts, hsame, -⟩, -⟩ :=
    decisions_alone (Program.trace_of_record hrecord) hapart
  refine ⟨(moves, d), hrecord, hapart, hhandled, alone, e, halone, hacts, hsame 1 ?_⟩
  rw [hhandled]
  decide +kernel

/-- An outsider's request without authentication has a member's request refused, which is within
the budget when the outsider's is removed. -/
theorem outsider_spends_budget :
    ∃ (moves alone : List (Program.Move (Fin 2) (World Unit) (Proc Unit) (Act Unit)))
      (d e : Config (Fin 2) (World Unit) (Proc Unit)),
      (program (Fin 2) Unit (onePerMinute false)).Trace (fun _ _ _ => True)
        (init (Fin 2) Unit) moves d ∧
      (program (Fin 2) Unit (onePerMinute false)).Trace (fun _ _ _ => True)
        (init (Fin 2) Unit) alone e ∧
      alone.map Program.Move.act =
        insideActs (onePerMinute false) Tenancy.sampleDigits.uuid moves ∧
      d.proc 1 = .running (callBy (some (.ofNat 1)) plainThing)
        (.refused (rateLimitExceeded ⟨1, 60⟩)) ∧
      e.proc 1 = .running (callBy (some (.ofNat 1)) plainThing) .guard := by
  obtain ⟨⟨moves, d⟩, hboth, hacts, hrefused⟩ :
      ∃ r ∈ (program (Fin 2) Unit (onePerMinute false)).record (fun _ _ _ => True)
        (init (Fin 2) Unit) (requestOf 0 (callBy none plainThing) 3 ++
          requestOf 1 (callBy (some (.ofNat 1)) plainThing) 2),
        insideActs (onePerMinute false) Tenancy.sampleDigits.uuid r.1 =
            requestOf 1 (callBy (some (.ofNat 1)) plainThing) 2 ∧
          r.2.proc 1 = .running (callBy (some (.ofNat 1)) plainThing)
            (.refused (rateLimitExceeded ⟨1, 60⟩)) := by
    decide +kernel
  obtain ⟨⟨alone, e⟩, halone, hacts', hguard⟩ :
      ∃ r ∈ (program (Fin 2) Unit (onePerMinute false)).record (fun _ _ _ => True)
        (init (Fin 2) Unit) (requestOf 1 (callBy (some (.ofNat 1)) plainThing) 2),
        r.1.map Program.Move.act = requestOf 1 (callBy (some (.ofNat 1)) plainThing) 2 ∧
          r.2.proc 1 = .running (callBy (some (.ofNat 1)) plainThing) .guard := by
    decide +kernel
  exact ⟨moves, alone, d, e, Program.trace_of_record hboth, Program.trace_of_record halone,
    hacts'.trans hacts.symm, hrefused, hguard⟩

end BackendManager.RateLimit
