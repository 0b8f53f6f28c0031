import Mathlib.Algebra.Order.Field.Basic
import Mathlib.Algebra.Order.Group.MinMax
import Mathlib.Data.List.Count
import Mathlib.Tactic.Linarith
import Mathlib.Tactic.Ring

/-!
# Token Buckets

A bucket that refills at a constant rate up to its burst, and from which every request takes a
token if there is one. Tokens and times are in an ordered field. A bucket that has not been used
is full.

The tokens at a request are the least of several amounts: for every earlier request and for this
one, a full bucket then, refilled since, less what has been taken since. So a request is
admitted if and only if each of these leaves a token for it.

## Main results

* `allowed_iff`: a request in terms of the requests admitted before it.
* `countP_span_le`: how many requests any span of time admits.
* `level_of_full`: a bucket that has been left alone for long enough is full.
-/

namespace TokenBucket

variable {K : Type*} [Field K] [LinearOrder K] {burst rate now t₀ a b T : K} {later : List K}

/-- Tokens, and the time at which there were that many. -/
structure Bucket (K : Type*) where
  tokens : K
  ts : K

/-- The tokens at a time. -/
def Bucket.level (burst rate : K) (bucket : Bucket K) (now : K) : K :=
  min burst (bucket.tokens + (now - bucket.ts) * rate)

/-- What a request leaves. -/
def spend (tokens : K) : K := if 1 ≤ tokens then tokens - 1 else tokens

/-- One request: the bucket after it, and whether it is admitted. -/
def hit (burst rate : K) (bucket : Option (Bucket K)) (now : K) : Bucket K × Bool :=
  let tokens := (bucket.getD ⟨burst, now⟩).level burst rate now
  (⟨spend tokens, now⟩, 1 ≤ tokens)

/-- Requests one after the other, each with whether it is admitted. -/
def run (burst rate : K) (bucket : Option (Bucket K)) : List K → List (K × Bool)
  | [] => []
  | now :: later =>
      let r := hit burst rate bucket now
      (now, r.2) :: run burst rate (some r.1) later

/-- The first hit is decided on the bucket as it is, and the later ones on the bucket that it
leaves. -/
@[simp] theorem run_cons (bucket : Option (Bucket K)) :
    run burst rate bucket (now :: later) =
      (now, (hit burst rate bucket now).2) ::
        run burst rate (some (hit burst rate bucket now).1) later := rfl

/-- The times of a run are those of its requests. -/
theorem map_fst_run (bucket : Option (Bucket K)) (times : List K) :
    (run burst rate bucket times).map Prod.fst = times := by
  induction times generalizing bucket with
  | nil => rfl
  | cons now later ih => rw [run_cons, List.map_cons, ih]

/-- How many requests a list has admitted. -/
def admitted (ds : List (K × Bool)) : ℕ := ds.countP Prod.snd

omit [LinearOrder K] in
/-- How many hits are admitted, one by one. -/
theorem admitted_cons (d : K × Bool) (ds : List (K × Bool)) :
    (admitted (d :: ds) : K) = admitted ds + if d.2 then 1 else 0 := by
  rw [admitted, List.countP_cons, Nat.cast_add, Nat.cast_ite, Nat.cast_one, Nat.cast_zero]
  rfl

/-- A hit costs one token if there is one. -/
theorem spend_eq (tokens : K) :
    spend tokens = tokens - if (decide (1 ≤ tokens)) then 1 else 0 := by
  rw [spend]
  by_cases h : 1 ≤ tokens
  · rw [if_pos h, if_pos (decide_eq_true h)]
  · rw [if_neg h, if_neg (by simpa using h), sub_zero]

variable [IsStrictOrderedRing K]

/-- And never leaves a debt. -/
theorem spend_nonneg {tokens : K} (h : 0 ≤ tokens) : 0 ≤ spend tokens := by
  rw [spend]
  split
  · exact sub_nonneg.mpr ‹_›
  · exact h

/-! ### The law of a bucket -/

/-- Every amount that bounds the tokens leaves one for the request at position `j`: the tokens
`x` of time `t₀`, and a full bucket at each request up to it. -/
def Affords (burst rate x t₀ : K) (ds : List (K × Bool)) (j : ℕ) (hj : j < ds.length) : Prop :=
  (admitted (ds.take j) : K) ≤ x - 1 + (ds[j].1 - t₀) * rate ∧
    ∀ i, ∀ hi : i ≤ j,
      (admitted ((ds.take j).drop i) : K) ≤ burst - 1 + (ds[j].1 - ds[i].1) * rate

/-- What a later request needs, in terms of the requests after the first one. -/
theorem affords_cons {x t : K} {allowed : Bool} {ds : List (K × Bool)} {j : ℕ}
    (hj : j < ds.length) :
    Affords burst rate x t₀ ((t, allowed) :: ds) (j + 1) (Nat.succ_lt_succ hj) ↔
      Affords burst rate (min burst (x + (t - t₀) * rate) - if allowed then 1 else 0) t ds j
        hj := by
  have hcount : (admitted (((t, allowed) :: ds).take (j + 1)) : K) =
      admitted (ds.take j) + if allowed then 1 else 0 := by
    rw [List.take_succ_cons, admitted_cons]
  rw [Affords, Affords]
  simp only [List.getElem_cons_succ]
  constructor
  · rintro ⟨hx, hfull⟩
    have hzero := hfull 0 (Nat.zero_le _)
    rw [List.drop_zero, List.getElem_cons_zero] at hzero
    rw [hcount] at hx hzero
    refine ⟨?_, fun i hi => ?_⟩
    · rcases min_choice burst (x + (t - t₀) * rate) with h | h <;> rw [h] <;> linarith
    · simpa only [List.take_succ_cons, List.drop_succ_cons, List.getElem_cons_succ]
        using hfull (i + 1) (Nat.succ_le_succ hi)
  · rintro ⟨hmin, hfull⟩
    have hburst := min_le_left burst (x + (t - t₀) * rate)
    have hx := min_le_right burst (x + (t - t₀) * rate)
    refine ⟨by rw [hcount]; linarith, fun i hi => ?_⟩
    cases i with
    | zero =>
        rw [List.drop_zero, hcount, List.getElem_cons_zero]
        linarith
    | succ i =>
        simpa only [List.take_succ_cons, List.drop_succ_cons, List.getElem_cons_succ]
          using hfull i (Nat.le_of_succ_le_succ hi)

/-- A request is admitted if and only if every bound on the tokens affords it. -/
theorem allowed_iff_affords (bucket : Bucket K) (times : List K) (j : ℕ)
    (hj : j < (run burst rate (some bucket) times).length) :
    (run burst rate (some bucket) times)[j].2 = true ↔
      Affords burst rate bucket.tokens bucket.ts (run burst rate (some bucket) times) j hj := by
  induction times generalizing bucket j with
  | nil => exact absurd hj (Nat.not_lt_zero _)
  | cons now later ih =>
      cases j with
      | zero =>
          have hlevel : (hit burst rate (some bucket) now).2 =
              decide (1 ≤ min burst (bucket.tokens + (now - bucket.ts) * rate)) := rfl
          simp only [run_cons, List.getElem_cons_zero, hlevel, decide_eq_true_eq, Affords,
            List.take_zero, List.drop_nil, admitted, List.countP_nil, Nat.cast_zero, le_min_iff]
          constructor
          · rintro ⟨hburst, hx⟩
            refine ⟨by linarith, fun i hi => ?_⟩
            obtain rfl := Nat.le_zero.mp hi
            rw [List.getElem_cons_zero, sub_self, zero_mul]
            linarith
          · rintro ⟨hx, hfull⟩
            have hzero := hfull 0 le_rfl
            rw [List.getElem_cons_zero, sub_self, zero_mul] at hzero
            exact ⟨by linarith, by linarith⟩
      | succ j =>
          have hspend : (hit burst rate (some bucket) now).1.tokens =
              min burst (bucket.tokens + (now - bucket.ts) * rate) -
                if (hit burst rate (some bucket) now).2 then 1 else 0 := spend_eq _
          have hrest := ih (hit burst rate (some bucket) now).1 j (Nat.lt_of_succ_lt_succ hj)
          rw [hspend] at hrest
          exact hrest.trans (affords_cons (Nat.lt_of_succ_lt_succ hj)).symm

/-- **The law of a bucket.** A request is admitted if and only if, for every request up to it,
those admitted from there on are fewer than a full bucket refilled since. -/
theorem allowed_iff (burst rate : K) (times : List K) (j : ℕ)
    (hj : j < (run burst rate none times).length) :
    (run burst rate none times)[j].2 = true ↔
      ∀ i, ∀ hi : i ≤ j,
        (admitted (((run burst rate none times).take j).drop i) : K) ≤
          burst - 1 + ((run burst rate none times)[j].1 - (run burst rate none times)[i].1) *
            rate := by
  cases times with
  | nil => exact absurd hj (Nat.not_lt_zero _)
  | cons now later =>
      have hfresh : run burst rate none (now :: later) =
          run burst rate (some ⟨burst, now⟩) (now :: later) := rfl
      simp only [hfresh] at hj ⊢
      rw [allowed_iff_affords ⟨burst, now⟩ (now :: later) j hj]
      refine ⟨fun h => h.2, fun h => ⟨?_, h⟩⟩
      -- The first request finds a full bucket.
      have hzero := h 0 (Nat.zero_le _)
      rwa [List.drop_zero] at hzero

/-! ### Spans of time -/

/-- The admitted requests of a span. -/
def inSpan (a b : K) (d : K × Bool) : Bool := d.2 && decide (a ≤ d.1 ∧ d.1 ≤ b)

/-- A bucket that is filled at a rate has no debt either. -/
theorem level_nonneg (hburst : 0 ≤ burst) (hrate : 0 ≤ rate) {bucket : Bucket K}
    (htokens : 0 ≤ bucket.tokens) (hts : bucket.ts ≤ now) :
    0 ≤ bucket.level burst rate now :=
  le_min hburst (add_nonneg htokens (mul_nonneg (sub_nonneg.mpr hts) hrate))

omit [Field K] [IsStrictOrderedRing K] in
/-- No request of a span after its end. -/
theorem countP_inSpan_of_lt {ds : List (K × Bool)} (h : ∀ d ∈ ds, b < d.1) :
    ds.countP (inSpan a b) = 0 := by
  rw [List.countP_eq_zero]
  intro d hd hspan
  exact absurd (of_decide_eq_true (Bool.and_eq_true _ _ ▸ hspan).2).2 (not_le.mpr (h d hd))

omit [IsStrictOrderedRing K] in
/-- Each decision is one on a hit. -/
theorem mem_run {bucket : Option (Bucket K)} {times : List K} {d : K × Bool}
    (h : d ∈ run burst rate bucket times) : d.1 ∈ times := by
  have hmem := List.mem_map_of_mem (f := Prod.fst) h
  rwa [map_fst_run] at hmem

/-- What a bucket admits up to a time: what it holds, and what it is refilled with. -/
theorem countP_le_of_tokens (hburst : 0 ≤ burst) (hrate : 0 ≤ rate) (bucket : Bucket K)
    {times : List K} (htokens : 0 ≤ bucket.tokens)
    (hsorted : (bucket.ts :: times).Pairwise (· ≤ ·)) (hb : bucket.ts ≤ b) :
    ((run burst rate (some bucket) times).countP (inSpan a b) : K) ≤
      bucket.tokens + (b - bucket.ts) * rate := by
  induction times generalizing bucket with
  | nil =>
      rw [run, List.countP_nil, Nat.cast_zero]
      exact add_nonneg htokens (mul_nonneg (sub_nonneg.mpr hb) hrate)
  | cons now later ih =>
      obtain ⟨hfirst, hlater⟩ := List.pairwise_cons.mp hsorted
      have hts := hfirst now List.mem_cons_self
      rcases le_or_gt now b with hnow | hnow
      · have hlevel := level_nonneg hburst hrate htokens hts
        have hrest := ih (hit burst rate (some bucket) now).1 (spend_nonneg hlevel) hlater hnow
        have hspend : (hit burst rate (some bucket) now).1.tokens =
            bucket.level burst rate now -
              if (hit burst rate (some bucket) now).2 then 1 else 0 := spend_eq _
        have hle : bucket.level burst rate now ≤ bucket.tokens + (now - bucket.ts) * rate :=
          min_le_right _ _
        have hhead : ((if inSpan a b (now, (hit burst rate (some bucket) now).2) then 1
            else 0 : ℕ) : K) ≤ if (hit burst rate (some bucket) now).2 then 1 else 0 := by
          cases (hit burst rate (some bucket) now).2 with
          | false => exact le_of_eq Nat.cast_zero
          | true =>
              rw [if_pos rfl]
              split
              · exact le_of_eq Nat.cast_one
              · exact Nat.cast_zero.trans_le zero_le_one
        rw [run_cons, List.countP_cons, Nat.cast_add]
        have hsplit : (b - bucket.ts) * rate =
            (now - bucket.ts) * rate + (b - now) * rate := by ring
        have hts' : (hit burst rate (some bucket) now).1.ts = now := rfl
        rw [hspend, hts'] at hrest
        linarith
      · rw [countP_inSpan_of_lt, Nat.cast_zero]
        · exact add_nonneg htokens (mul_nonneg (sub_nonneg.mpr hb) hrate)
        · intro d hd
          rcases List.mem_cons.mp (mem_run hd) with h | h
          · exact h ▸ hnow
          · exact hnow.trans_le ((List.pairwise_cons.mp hlater).1 _ h)

/-- A span admits what a full bucket holds, and what it is refilled with. -/
theorem countP_span_le_of_bucket (hburst : 0 ≤ burst) (hrate : 0 ≤ rate) (hT : 0 ≤ T)
    (bucket : Bucket K) {times : List K} (htokens : 0 ≤ bucket.tokens)
    (hsorted : (bucket.ts :: times).Pairwise (· ≤ ·)) :
    ((run burst rate (some bucket) times).countP (inSpan a (a + T)) : K) ≤ burst + T * rate := by
  induction times generalizing bucket with
  | nil =>
      rw [run, List.countP_nil, Nat.cast_zero]
      exact add_nonneg hburst (mul_nonneg hT hrate)
  | cons now later ih =>
      obtain ⟨hfirst, hlater⟩ := List.pairwise_cons.mp hsorted
      have hts := hfirst now List.mem_cons_self
      have hlevel := level_nonneg hburst hrate htokens hts
      rcases lt_or_ge now a with hnow | hnow
      · -- The span has not begun: the bucket is no more than full when it does.
        have hout : inSpan a (a + T) (now, (hit burst rate (some bucket) now).2) = false := by
          rw [inSpan, decide_eq_false fun h => absurd h.1 (not_le.mpr hnow), Bool.and_false]
        rw [run_cons, List.countP_cons, if_neg (by rw [hout]; exact Bool.false_ne_true), add_zero]
        exact ih (hit burst rate (some bucket) now).1 (spend_nonneg hlevel) hlater
      · rcases le_or_gt now (a + T) with hend | hend
        · -- The first request of the span finds at most a full bucket.
          have hsame : run burst rate (some bucket) (now :: later) =
              run burst rate (some ⟨bucket.level burst rate now, now⟩) (now :: later) := by
            have hlevels : (Bucket.mk (bucket.level burst rate now) now).level burst rate now =
                bucket.level burst rate now := by
              rw [Bucket.level, sub_self, zero_mul, add_zero]
              exact min_eq_right (min_le_left _ _)
            have hhit : hit burst rate (some ⟨bucket.level burst rate now, now⟩) now =
                hit burst rate (some bucket) now := by
              rw [hit, hit, Option.getD_some, Option.getD_some, hlevels]
            rw [run_cons, run_cons, hhit]
          have hbound := countP_le_of_tokens (a := a) hburst hrate
            ⟨bucket.level burst rate now, now⟩ hlevel
            (List.pairwise_cons.mpr
              ⟨List.forall_mem_cons.mpr ⟨le_rfl, (List.pairwise_cons.mp hlater).1⟩, hlater⟩) hend
          have hfull : bucket.level burst rate now ≤ burst := min_le_left _ _
          have hlength : (a + T - now) * rate ≤ T * rate :=
            mul_le_mul_of_nonneg_right (by linarith) hrate
          rw [hsame]
          linarith
        · rw [countP_inSpan_of_lt, Nat.cast_zero]
          · exact add_nonneg hburst (mul_nonneg hT hrate)
          · intro d hd
            rcases List.mem_cons.mp (mem_run hd) with h | h
            · exact h ▸ hend
            · exact hend.trans_le ((List.pairwise_cons.mp hlater).1 _ h)

/-- Any span of length `T` admits at most a full bucket, and what it is refilled with
meanwhile. -/
theorem countP_span_le (hburst : 0 ≤ burst) (hrate : 0 ≤ rate) (hT : 0 ≤ T) {times : List K}
    (hsorted : times.Pairwise (· ≤ ·)) :
    ((run burst rate none times).countP (inSpan a (a + T)) : K) ≤ burst + T * rate := by
  cases times with
  | nil =>
      rw [run, List.countP_nil, Nat.cast_zero]
      exact add_nonneg hburst (mul_nonneg hT hrate)
  | cons now later =>
      exact countP_span_le_of_bucket hburst hrate hT ⟨burst, now⟩ hburst
        (List.pairwise_cons.mpr
          ⟨List.forall_mem_cons.mpr ⟨le_rfl, (List.pairwise_cons.mp hsorted).1⟩, hsorted⟩)

/-- A bucket that has been left alone for long enough is full. -/
theorem level_of_full {bucket : Bucket K} (htokens : 0 ≤ bucket.tokens)
    (h : burst ≤ (now - bucket.ts) * rate) : bucket.level burst rate now = burst :=
  min_eq_left (h.trans (le_add_of_nonneg_left htokens))

end TokenBucket
