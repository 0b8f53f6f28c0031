import Mathlib.Data.List.Chain
import Mathlib.Data.List.Perm.Subperm
import BackendManager.Lockout

/-!
# How Many Attempts Reach the Password Verification

The failure counter of an identity expires one window after the first failure that it has
counted. The last of them may be younger than a window then, and it is forgotten with the
others. The check reads the counter before the attempt's own failure is counted, so that
attempts that overlap do not see each other.

Where neither happens (`Timely`), the counter is right: the failures that it does not count
are a window old (`Counter`), and the check refuses as it should. An identity is then locked out
by failures that follow each other within a window (`Streak`): after a pause of a window the
counter begins anew, however many failures have been recorded before.

## Main results

* `counts_of_trace`: what the counter counts, along every timely run.
* `reached_lt`: how many attempts have reached the verification when another one does.
* `lockout_holds`: in every timely run without a successful login, a span of one window has at
  most `ratelimit_lockout_threshold` attempts that reach the verification, and a streak of as
  many failures, and nothing else, locks the identity out for a window.
-/

namespace BackendManager.Lockout

open Interleaving RateLimit Expiring

variable {T : Type} [DecidableEq T] {S : Settings} {k username : String} {t u : T}
  {a : Act} {r r' : Redis} {p p' : Proc} {c d : Config T Redis Proc}
  {m : Program.Move T Redis Proc Act} {moves earlier : List (Program.Move T Redis Proc Act)}

/-! ### Steps of an attempt -/

/-- The identity whose lockout check is next. -/
def Proc.checking (S : Settings) : Proc → Option String
  | .check username => some (_hashed S username)
  | _ => none

/-- The identity whose failure is recorded next. -/
def Proc.recording (S : Settings) : Proc → Option String
  | .record username => some (_hashed S username)
  | _ => none

/-- The identity whose failures are cleared next. -/
def Proc.clearing (S : Settings) : Proc → Option String
  | .clear username => some (_hashed S username)
  | _ => none

/-- The identity of an attempt that has passed the check, until its outcome is written. -/
def Proc.underWay (S : Settings) : Proc → Option String
  | .verify username | .record username | .clear username => some (_hashed S username)
  | _ => none

/-- When a step is taken. -/
def time (m : Program.Move T Redis Proc Act) : ℕ := m.after.shared.clock

/-- `ratelimit_lockout_window_seconds` on the clock. -/
def window (S : Settings) : ℕ := seconds S.ratelimit_lockout_window_seconds

/-- An attempt on the identity `k` is checked. -/
def Checks (S : Settings) (k : String) (m : Program.Move T Redis Proc Act) : Prop :=
  (m.before.proc m.thread).checking S = some k

/-- An attempt on the identity `k` passes the check and reaches the password verification. -/
def Reaches (S : Settings) (k : String) (m : Program.Move T Redis Proc Act) : Prop :=
  Checks S k m ∧ (m.after.proc m.thread).underWay S = some k

/-- The check refuses an attempt. -/
def Refuses (S : Settings) (m : Program.Move T Redis Proc Act) : Prop :=
  m.after.proc m.thread = .refused (lockedOut S)

/-- The failure of an attempt on the identity `k` is recorded. -/
def Fails (S : Settings) (k : String) (m : Program.Move T Redis Proc Act) : Prop :=
  (m.before.proc m.thread).recording S = some k

/-- A successful login clears the failures of the identity `k`. -/
def Succeeds (S : Settings) (k : String) (m : Program.Move T Redis Proc Act) : Prop :=
  (m.before.proc m.thread).clearing S = some k

instance : DecidablePred (Checks (T := T) S k) := fun _ => inferInstanceAs (Decidable (_ = _))
instance : DecidablePred (Reaches (T := T) S k) := fun _ => inferInstanceAs (Decidable (_ ∧ _))
instance : DecidablePred (Refuses (T := T) S) := fun _ => inferInstanceAs (Decidable (_ = _))
instance : DecidablePred (Fails (T := T) S k) := fun _ => inferInstanceAs (Decidable (_ = _))
instance : DecidablePred (Succeeds (T := T) S k) := fun _ => inferInstanceAs (Decidable (_ = _))

/-- When the failures of the identity `k` were recorded, oldest first. -/
def failureTimes (S : Settings) (k : String) (moves : List (Program.Move T Redis Proc Act)) :
    List ℕ :=
  (moves.filter fun m => Fails S k m).map time

/-- The attempts on the identity `k` that have passed the check and are under way in `c`. -/
def inFlight (S : Settings) (k : String) (moves : List (Program.Move T Redis Proc Act))
    (c : Config T Redis Proc) : ℕ :=
  moves.countP fun m => Reaches S k m ∧ (c.proc m.thread).underWay S = some k

/-- The last `n` failures, with no pause of a window between them. -/
def Streak (W n : ℕ) (fails : List ℕ) : Prop :=
  ∃ l, l <:+ fails ∧ l.length = n ∧ l.IsChain fun t t' => t' < t + W

/-- What the failure counter of `k` says when the step `m` is taken. -/
def countAt (k : String) (m : Program.Move T Redis Proc Act) : ℕ :=
  (m.before.shared.failures.get (time m) k).getD 0

/-- The counter of the identity `k` is not consulted too late, nor too early. -/
structure Timely (S : Settings) (k : String) (earlier : List (Program.Move T Redis Proc Act))
    (m : Program.Move T Redis Proc Act) : Prop where
  /-- An attempt that is checked or recorded after the counter has expired finds the last
  failure a window old. -/
  fresh : Checks S k m ∨ Fails S k m → m.before.shared.failures.get (time m) k = none →
    ∀ f ∈ failureTimes S k earlier, f + window S ≤ time m
  /-- An attempt that passes the check does so with the attempts under way counted as well. -/
  alone : Checks S k m → countAt k m < S.ratelimit_lockout_threshold →
    countAt k m + inFlight S k earlier m.before < S.ratelimit_lockout_threshold

instance (earlier : List (Program.Move T Redis Proc Act)) (m : Program.Move T Redis Proc Act) :
    Decidable (Timely S k earlier m) :=
  decidable_of_iff
    ((Checks S k m ∨ Fails S k m → m.before.shared.failures.get (time m) k = none →
        ∀ f ∈ failureTimes S k earlier, f + window S ≤ time m) ∧
      (Checks S k m → countAt k m < S.ratelimit_lockout_threshold →
        countAt k m + inFlight S k earlier m.before < S.ratelimit_lockout_threshold))
    ⟨fun h => ⟨h.1, h.2⟩, fun h => ⟨h.fresh, h.alone⟩⟩

/-- What one action can do. -/
inductive Step (S : Settings) : Redis → Proc → Redis → Proc → Prop
  | arrive {r : Redis} {username : String} : Step S r .idle r (.check username)
  | throttled {r : Redis} : Step S r .idle r (.refused (tooManyAttempts S))
  | pass {r : Redis} {username : String} (elapsed : ℕ)
      (ok : assert_not_locked_out S username (r.wait elapsed) = .ok ()) :
      Step S r (.check username) (r.wait elapsed) (.verify username)
  | refuse {r : Redis} {username : String} (elapsed : ℕ)
      (locked : assert_not_locked_out S username (r.wait elapsed) = .error (lockedOut S)) :
      Step S r (.check username) (r.wait elapsed) (.refused (lockedOut S))
  | failed {r : Redis} {username : String} (elapsed : ℕ) :
      Step S r (.verify username) (r.wait elapsed) (.record username)
  | verified {r : Redis} {username : String} (elapsed : ℕ) :
      Step S r (.verify username) (r.wait elapsed) (.clear username)
  | record {r : Redis} {username : String} (elapsed : ℕ) :
      Step S r (.record username) (record_login_failure S username (r.wait elapsed))
        (.refused _BAD_CREDENTIALS)
  | clear {r : Redis} {username : String} (elapsed : ℕ) :
      Step S r (.clear username) (clear_login_failures S username (r.wait elapsed))
        (.authenticated username)

/-- The check refuses with its own error. -/
theorem assert_not_locked_out_error {e : HTTPException}
    (h : assert_not_locked_out S username r = .error e) : e = lockedOut S := by
  rw [assert_not_locked_out] at h
  split at h
  · cases h
  · split at h
    · exact (Except.error.inj h).symm
    · cases h

/-- **Every action is one of these steps.** -/
theorem step_of_exec (h : exec S a r p = some (r', p')) : Step S r p r' p' := by
  cases a with
  | arrive username throttled =>
      cases p <;> simp only [exec, reduceCtorEq] at h
      obtain ⟨rfl, rfl⟩ := Prod.mk.inj (Option.some.inj h)
      cases throttled with
      | true => exact .throttled
      | false => exact .arrive
  | step elapsed user =>
      cases p with
      | idle | authenticated _ | refused _ => cases h
      | check username =>
          rw [exec, login] at h
          split at h
          · rename_i hok
            obtain ⟨rfl, rfl⟩ := Prod.mk.inj (Option.some.inj h)
            exact .pass elapsed hok
          · rename_i e herror
            obtain ⟨rfl, rfl⟩ := Prod.mk.inj (Option.some.inj h)
            obtain rfl := assert_not_locked_out_error herror
            exact .refuse elapsed herror
      | verify username =>
          obtain ⟨rfl, rfl⟩ := Prod.mk.inj (Option.some.inj h)
          cases user with
          | true => exact .verified elapsed
          | false => exact .failed elapsed
      | record username =>
          obtain ⟨rfl, rfl⟩ := Prod.mk.inj (Option.some.inj h)
          exact .record elapsed
      | clear username =>
          obtain ⟨rfl, rfl⟩ := Prod.mk.inj (Option.some.inj h)
          exact .clear elapsed

/-- **Every step of the program is one of `Step`**, whatever the action. -/
theorem step_of_move (h : (program T S).step c t a = some d) :
    Step S c.shared (c.proc t) d.shared (d.proc t) := by
  obtain ⟨r', p', hexec, rfl⟩ := Program.step_eq_some_iff.mp h
  simpa using step_of_exec hexec

/-- An attempt passes the check with the counter below the threshold. -/
theorem Step.passed (h : Step S r p r' p') (hE : S.ratelimit_enabled = true)
    (hp : p.checking S = some k) (hp' : p'.underWay S = some k) :
    (r.failures.get r'.clock k).getD 0 < S.ratelimit_lockout_threshold := by
  cases h with
  | @pass username elapsed hok =>
      obtain rfl := Option.some.inj hp
      rw [assert_not_locked_out, hE] at hok
      by_contra hle
      rw [not_lt] at hle
      rw [if_neg (by simp), if_pos (show _ ≤ failure_count _ _ from hle)] at hok
      cases hok
  | refuse => cases hp'
  | _ => cases hp

/-- An attempt that is checked with the counter at the threshold is refused. -/
theorem Step.refused (h : Step S r p r' p') (hE : S.ratelimit_enabled = true)
    (hp : p.checking S = some k)
    (hle : S.ratelimit_lockout_threshold ≤ (r.failures.get r'.clock k).getD 0) :
    p' = .refused (lockedOut S) := by
  cases h with
  | refuse => rfl
  | pass elapsed hok =>
      have hlt := (Step.pass elapsed hok).passed hE hp hp
      exact absurd hlt (not_lt.mpr hle)
  | _ => cases hp

/-- And an attempt is refused by its check only with the counter at the threshold. -/
theorem Step.locked (h : Step S r p r' p') (hE : S.ratelimit_enabled = true)
    (hp : p.checking S = some k) (hp' : p' = .refused (lockedOut S)) :
    S.ratelimit_lockout_threshold ≤ (r.failures.get r'.clock k).getD 0 := by
  cases h with
  | @refuse username elapsed hlocked =>
      obtain rfl := Option.some.inj hp
      rw [assert_not_locked_out, hE] at hlocked
      by_contra hlt
      rw [if_neg (by simp), if_neg (show ¬ _ ≤ failure_count _ _ from hlt)] at hlocked
      cases hlocked
  | pass => cases hp'
  | _ => cases hp

/-! ### The clock and the counter -/

/-- Waiting moves the clock. -/
@[simp] theorem wait_clock (r : Redis) (elapsed : ℕ) : (r.wait elapsed).clock = r.clock + elapsed :=
  rfl

/-- And changes no counter: one that has expired is still stored, and is not read. -/
@[simp] theorem wait_failures (r : Redis) (elapsed : ℕ) : (r.wait elapsed).failures = r.failures :=
  rfl

/-- Counting a failure takes no time. -/
theorem record_clock (S : Settings) (username : String) (r : Redis) :
    (record_login_failure S username r).clock = r.clock := by
  rw [record_login_failure]
  split
  · rfl
  · rw [count_failure, incrScript]
    split <;> rfl

/-- Nor does clearing the counter. -/
theorem clear_clock (S : Settings) (username : String) (r : Redis) :
    (clear_login_failures S username r).clock = r.clock := by
  rw [clear_login_failures]
  split <;> rfl

/-- Time does not go back. -/
theorem Step.clock_le (h : Step S r p r' p') : r.clock ≤ r'.clock := by
  cases h with
  | arrive | throttled => exact le_rfl
  | pass elapsed | refuse elapsed | failed elapsed | verified elapsed =>
      exact Nat.le_add_right _ _
  | record elapsed =>
      rw [record_clock]
      exact Nat.le_add_right _ _
  | clear elapsed =>
      rw [clear_clock]
      exact Nat.le_add_right _ _

/-- The clock does not run backwards. -/
theorem clock_le_of_run (h : (program T S).Run (Any T) c d) : c.shared.clock ≤ d.shared.clock := by
  induction h with
  | refl => exact le_rfl
  | step _ _ hstep ih => exact ih.trans (step_of_move hstep).clock_le

/-- The steps of a run are taken one after the other. -/
theorem time_le (h : (program T S).Trace (Any T) c moves d) (hm : m ∈ moves) :
    time m ≤ d.shared.clock :=
  clock_le_of_run (h.around hm).2.2

/-- The counters of other identities are left alone. -/
theorem record_of_ne (hk : k ≠ _hashed S username) :
    (record_login_failure S username r).failures k = r.failures k := by
  rw [record_login_failure]
  split
  · rfl
  · rw [count_failure, incrScript]
    split
    · exact Store.set_of_ne hk
    · exact Store.keep_of_ne hk _

/-- Clearing one account's counter leaves the others. -/
theorem clear_of_ne (hk : k ≠ _hashed S username) :
    (clear_login_failures S username r).failures k = r.failures k := by
  rw [clear_login_failures]
  split
  · rfl
  · exact Store.del_of_ne hk

/-- A counter changes only when a failure of its identity is recorded, or when they are
cleared. -/
theorem Step.failures (h : Step S r p r' p') (hrecord : p.recording S ≠ some k)
    (hclear : p.clearing S ≠ some k) : r'.failures k = r.failures k := by
  cases h with
  | arrive | throttled | pass | refuse | failed | verified => rfl
  | record elapsed => exact record_of_ne fun hk => hrecord (hk ▸ rfl)
  | clear elapsed => exact clear_of_ne fun hk => hclear (hk ▸ rfl)

/-- The step in which a failure is recorded. -/
theorem Step.recorded (h : Step S r p r' p') (hp : p.recording S = some k) :
    ∃ username elapsed, k = _hashed S username ∧
      r' = record_login_failure S username (r.wait elapsed) := by
  cases h with
  | @record username elapsed => exact ⟨username, elapsed, (Option.some.inj hp).symm, rfl⟩
  | _ => cases hp

/-! ### What the counter counts -/

/-- The counter `e` has counted the failures `counted`; those before them, `dropped`, were a
window old when it was armed. -/
structure Counter (W : ℕ) (dropped counted : List ℕ) (e : Entry ℕ) : Prop where
  value : e.value = counted.length
  pos : 0 < e.value
  counted : ∀ f ∈ counted, e.deadline ≤ f + W
  dropped : ∀ f ∈ dropped, f + W + W ≤ e.deadline

/-- What is known of the counter of `k` after the failures `fails`. -/
structure Counts (W : ℕ) (k : String) (fails : List ℕ) (r : Redis) : Prop where
  past : ∀ f ∈ fails, f ≤ r.clock
  absent : r.failures k = none → fails = []
  present : ∀ e, r.failures k = some e →
    ∃ dropped counted, fails = dropped ++ counted ∧ Counter W dropped counted e

/-- A counter that is consulted before its deadline. -/
theorem Counter.dropped_le {W : ℕ} {dropped counted : List ℕ} {e : Entry ℕ}
    (h : Counter W dropped counted e) {now : ℕ} (hpast : ∀ f ∈ counted, f ≤ now) :
    e.deadline ≤ now + W ∧ ∀ f ∈ dropped, f + W ≤ now := by
  have hpos := h.pos
  rw [h.value] at hpos
  obtain ⟨f₀, hf₀⟩ := List.exists_mem_of_length_pos hpos
  have hdeadline := h.counted f₀ hf₀
  have hnow := hpast f₀ hf₀
  refine ⟨by omega, fun f hf => ?_⟩
  have hold := h.dropped f hf
  omega

/-- `INCR` arms a counter that is absent. -/
theorem incr_of_absent {w : ℕ} (h : r.failures.get r.clock k = none) :
    (incrScript w k r).1.failures k = some ⟨1, r.clock + seconds w⟩ := by
  rw [incrScript, h]
  exact Store.set_self

/-- `INCR` leaves the deadline of a counter that is there. -/
theorem incr_of_present {w count : ℕ} (h : r.failures.get r.clock k = some count)
    (hpos : 0 < count) {e : Entry ℕ} (hstored : r.failures k = some e) :
    (incrScript w k r).1.failures k = some ⟨count + 1, e.deadline⟩ := by
  have hne : count + 1 ≠ 1 := by omega
  rw [incrScript, h]
  simp only [Option.getD_some, if_neg hne]
  exact Store.keep_self hstored _

/-- A failure more. -/
theorem Counts.record {W : ℕ} {fails : List ℕ} (h : Counts W k fails r)
    (hfresh : r.failures.get r.clock k = none → ∀ f ∈ fails, f + W ≤ r.clock)
    (hE : S.ratelimit_enabled = true) (hW : W = window S) (hk : k = _hashed S username) :
    Counts W k (fails ++ [r.clock]) (record_login_failure S username r) := by
  have hpast : ∀ f ∈ fails ++ [r.clock], f ≤ r.clock := by
    intro f hf
    rcases List.mem_append.mp hf with hf | hf
    · exact h.past f hf
    · exact (List.mem_singleton.mp hf).le
  have hrecord : record_login_failure S username r =
      (incrScript S.ratelimit_lockout_window_seconds k r).1 := by
    rw [record_login_failure, hE, hk]
    rfl
  have hstored : ∃ e, (record_login_failure S username r).failures k = some e ∧
      ∃ dropped counted, fails ++ [r.clock] = dropped ++ counted ∧ Counter W dropped counted e := by
    rw [hrecord]
    cases hget : r.failures.get r.clock k with
    | none =>
        have harmed : (incrScript S.ratelimit_lockout_window_seconds k r).1.failures k =
            some ⟨1, r.clock + W⟩ := by
          rw [incr_of_absent hget, hW, window]
        refine ⟨_, harmed, fails, [r.clock], rfl, rfl, Nat.one_pos, ?_, ?_⟩
        · intro f hf
          rw [List.mem_singleton.mp hf]
        · intro f hf
          exact Nat.add_le_add_right (hfresh hget f hf) W
    | some count =>
        obtain ⟨deadline, hk', -⟩ := Store.get_eq_some_iff.mp hget
        obtain ⟨dropped, counted, hfails, hcounter⟩ := h.present _ hk'
        have hcounted : ∀ f ∈ counted, f ≤ r.clock := fun f hf =>
          h.past f (hfails ▸ List.mem_append_right _ hf)
        refine ⟨_, incr_of_present hget hcounter.pos hk', dropped, counted ++ [r.clock],
          by rw [hfails, List.append_assoc], ?_, Nat.succ_pos _, ?_, hcounter.dropped⟩
        · rw [List.length_append, ← hcounter.value]
          rfl
        · intro f hf
          rcases List.mem_append.mp hf with hf | hf
          · exact hcounter.counted f hf
          · rw [List.mem_singleton.mp hf]
            exact (hcounter.dropped_le hcounted).1
  obtain ⟨e, he, hcounter⟩ := hstored
  refine ⟨by rw [record_clock]; exact hpast, fun hnone => ?_, fun e' he' => ?_⟩
  · rw [he] at hnone
    cases hnone
  · obtain rfl : e = e' := Option.some.inj (he.symm.trans he')
    exact hcounter

/-- Nothing recorded and nothing cleared. -/
theorem Counts.congr {W : ℕ} {fails : List ℕ} (h : Counts W k fails r)
    (hclock : r.clock ≤ r'.clock) (hk : r'.failures k = r.failures k) : Counts W k fails r' :=
  ⟨fun f hf => (h.past f hf).trans hclock, fun hnone => h.absent (hk ▸ hnone),
    fun e he => h.present e (hk ▸ he)⟩

omit [DecidableEq T] in
/-- The steps so far, and one more. -/
theorem failureTimes_snoc (S : Settings) (k : String)
    (moves : List (Program.Move T Redis Proc Act)) (m : Program.Move T Redis Proc Act) :
    failureTimes S k (moves ++ [m]) =
      failureTimes S k moves ++ if Fails S k m then [time m] else [] := by
  rw [failureTimes, List.filter_append, List.map_append]
  by_cases h : Fails S k m <;> simp [failureTimes, h]

omit [DecidableEq T] in
/-- The failures of the last window, and the steps that record them. -/
theorem countP_failureTimes (S : Settings) (k : String)
    (moves : List (Program.Move T Redis Proc Act)) (now W : ℕ) :
    (failureTimes S k moves).countP (fun f => now < f + W) =
      moves.countP fun m => Fails S k m ∧ now < time m + W := by
  rw [failureTimes, List.countP_map, List.countP_filter]
  refine List.countP_congr fun m _ => ?_
  simp [and_comm]

/-- **What the counter counts**, along every timely run without a successful login. -/
theorem counts_of_trace (hE : S.ratelimit_enabled = true)
    (h : (program T S).Trace (Any T) (init T) moves d)
    (hno : ∀ m ∈ moves, ¬ Succeeds S k m) (htimely : Along (Timely S k) [] moves) :
    Counts (window S) k (failureTimes S k moves) d.shared := by
  induction h with
  | nil => exact ⟨nofun, fun _ => rfl, nofun⟩
  | @snoc moves c d t a hrun _ hstep ih =>
      obtain ⟨hbefore, hm⟩ := along_snoc.mp htimely
      have hcounts := ih (fun m hm => hno m (List.mem_append_left _ hm)) hbefore
      have hs := step_of_move hstep
      rw [failureTimes_snoc]
      by_cases hfails : Fails S k ⟨c, t, a, d⟩
      · rw [if_pos hfails]
        obtain ⟨username, elapsed, hk, hd⟩ := hs.recorded hfails
        have hclock : d.shared.clock = (c.shared.wait elapsed).clock := by
          rw [hd, record_clock]
        have hwaited : Counts (window S) k (failureTimes S k moves) (c.shared.wait elapsed) :=
          hcounts.congr (Nat.le_add_right _ _) rfl
        rw [time, hclock, hd]
        refine hwaited.record (fun hnone => ?_) hE rfl hk
        rw [← hclock] at hnone ⊢
        exact hm.fresh (.inr hfails) hnone
      · rw [if_neg hfails, List.append_nil]
        refine hcounts.congr hs.clock_le (hs.failures hfails ?_)
        exact hno ⟨c, t, a, d⟩ (List.mem_append_right _ (List.mem_singleton_self _))

/-! ### Attempts under way -/

/-- The attempt has been checked. -/
def Proc.checked : Proc → Bool
  | .idle | .check _ => false
  | _ => true

/-- A request that has been checked is not checked again. -/
theorem Step.checked (h : Step S r p r' p') (hp : p.checked = true) : p'.checked = true := by
  cases h with
  | arrive | throttled | pass | refuse => cases hp
  | failed | verified | record | clear => rfl

/-- An attempt reaches the verification once. -/
theorem reaches_once (h : (program T S).Trace (Any T) c moves d) :
    moves.Pairwise fun m m' => Reaches S k m → Reaches S k m' → m.thread ≠ m'.thread := by
  refine h.pairwise fun m m' _ _ hrun _ hreaches hreaches' hthread => ?_
  have hafter : (m.after.proc m.thread).checked = true := by
    generalize hp : m.after.proc m.thread = p
    have hunder := hreaches.2
    rw [hp] at hunder
    cases p with
    | idle | check _ => cases hunder
    | _ => rfl
  have hbefore : (m'.before.proc m.thread).checked = true :=
    hrun.proc (Q := fun p => p.checked = true)
      (fun hexec hp => (step_of_exec hexec).checked hp) hafter
  have hcheck := hreaches'.1
  rw [hthread] at hbefore
  generalize hp : m'.before.proc m'.thread = p at hbefore
  rw [Checks, hp] at hcheck
  cases p with
  | check _ => cases hbefore
  | _ => cases hcheck

/-- An attempt that is under way stays so until its outcome is written. -/
theorem Step.underWay (h : Step S r p r' p') (hp : p.underWay S = some k) :
    p'.underWay S = some k ∨ p.recording S = some k ∨ p.clearing S = some k := by
  cases h with
  | arrive | throttled | pass | refuse => cases hp
  | failed | verified => exact .inl hp
  | record => exact .inr (.inl hp)
  | clear => exact .inr (.inr hp)

/-- **Where an attempt is** that has reached the verification: it is under way, or its failure
was recorded later. -/
theorem underWay_of_trace (h : (program T S).Trace (Any T) c moves d)
    (hno : ∀ m ∈ moves, ¬ Succeeds S k m) (hm : m ∈ moves) (hreaches : Reaches S k m) :
    (d.proc m.thread).underWay S = some k ∨
      ∃ f ∈ moves, Fails S k f ∧ f.thread = m.thread ∧ time m ≤ time f := by
  induction h with
  | nil => cases hm
  | @snoc moves c d t a hrun _ hstep ih =>
      have hlast : (⟨c, t, a, d⟩ : Program.Move T Redis Proc Act) ∈ moves ++ [⟨c, t, a, d⟩] :=
        List.mem_append_right _ (List.mem_singleton_self _)
      rcases List.mem_append.mp hm with hm | hm
      · rcases ih (fun m hm => hno m (List.mem_append_left _ hm)) hm with
          hunder | ⟨f, hf, hfails, hthread, htime⟩
        · by_cases hu : m.thread = t
          · rw [hu] at hunder ⊢
            rcases (step_of_move hstep).underWay hunder with hstill | hrecord | hclear
            · exact .inl hstill
            · have htime : time m ≤ d.shared.clock :=
                (time_le hrun hm).trans (step_of_move hstep).clock_le
              exact .inr ⟨_, hlast, hrecord, rfl, htime⟩
            · exact absurd hclear (hno _ hlast)
          · rw [Program.proc_of_step_ne hstep hu]
            exact .inl hunder
        · exact .inr ⟨f, List.mem_append_left _ hf, hfails, hthread, htime⟩
      · obtain rfl := List.mem_singleton.mp hm
        exact .inl hreaches.2

/-! ### A span of one window -/

/-- The failures of the last window are counted. -/
theorem Counts.recent_le {W now : ℕ} {fails : List ℕ} (h : Counts W k fails r)
    (hnow : r.clock ≤ now)
    (hfresh : r.failures.get now k = none → ∀ f ∈ fails, f + W ≤ now) :
    fails.countP (fun f => now < f + W) ≤ (r.failures.get now k).getD 0 := by
  have hzero : ∀ l : List ℕ, (∀ f ∈ l, f + W ≤ now) → l.countP (fun f => now < f + W) = 0 := by
    intro l hl
    refine List.countP_eq_zero.mpr fun f hf => ?_
    have hold := hl f hf
    simpa using hold
  cases hget : r.failures.get now k with
  | none =>
      rw [hzero fails (hfresh hget)]
      exact Nat.zero_le _
  | some count =>
      obtain ⟨deadline, hk, -⟩ := Store.get_eq_some_iff.mp hget
      obtain ⟨dropped, counted, rfl, hcounter⟩ := h.present _ hk
      have hcounted : ∀ f ∈ counted, f ≤ now := fun f hf =>
        (h.past f (List.mem_append_right _ hf)).trans hnow
      rw [List.countP_append, hzero dropped (hcounter.dropped_le hcounted).2, Nat.zero_add]
      exact List.countP_le_length.trans hcounter.value.ge

/-- **An attempt that reaches the verification.** Fewer attempts than the threshold have
reached it before, within the same span of a window. -/
theorem reached_lt (hE : S.ratelimit_enabled = true)
    (h : (program T S).Trace (Any T) (init T) earlier c)
    (hstep : (program T S).step c t a = some d)
    (hno : ∀ m ∈ earlier, ¬ Succeeds S k m) (htimely : Along (Timely S k) [] earlier)
    (hm : Timely S k earlier ⟨c, t, a, d⟩) (hreaches : Reaches S k ⟨c, t, a, d⟩) {s : ℕ}
    (hs : d.shared.clock < s + window S) :
    earlier.countP (fun m => Reaches S k m ∧ s ≤ time m) < S.ratelimit_lockout_threshold := by
  set now := d.shared.clock with hnow
  have hcounts := counts_of_trace hE h hno htimely
  -- Every attempt that has reached the verification in the span is under way, or its failure
  -- was recorded less than a window ago.
  let reached := (earlier.filter fun m => Reaches S k m ∧ s ≤ time m).map (·.thread)
  let flying := (earlier.filter fun m =>
    Reaches S k m ∧ (c.proc m.thread).underWay S = some k).map (·.thread)
  let failed := (earlier.filter fun m => Fails S k m ∧ now < time m + window S).map (·.thread)
  have hnodup : reached.Nodup := by
    refine List.pairwise_map.mpr (((reaches_once h (k := k)).filter _).imp_of_mem ?_)
    intro m m' hm hm' hne
    have hr := of_decide_eq_true (List.mem_filter.mp hm).2
    have hr' := of_decide_eq_true (List.mem_filter.mp hm').2
    exact hne hr.1 hr'.1
  have hsubset : reached ⊆ flying ++ failed := by
    intro u hu
    obtain ⟨m, hm, rfl⟩ := List.mem_map.mp hu
    obtain ⟨hm, hr⟩ := List.mem_filter.mp hm
    obtain ⟨hr, hle⟩ := of_decide_eq_true hr
    rcases underWay_of_trace h hno hm hr with hunder | ⟨f, hf, hfails, hthread, htime⟩
    · exact List.mem_append_left _ (List.mem_map.mpr
        ⟨m, List.mem_filter.mpr ⟨hm, decide_eq_true ⟨hr, hunder⟩⟩, rfl⟩)
    · exact List.mem_append_right _ (List.mem_map.mpr
        ⟨f, List.mem_filter.mpr ⟨hf, decide_eq_true ⟨hfails, by omega⟩⟩, hthread⟩)
  have hlength : reached.length ≤ flying.length + failed.length := by
    rw [← List.length_append]
    exact (hnodup.subperm hsubset).length_le
  have hreached : reached.length = earlier.countP fun m => Reaches S k m ∧ s ≤ time m := by
    rw [List.length_map, List.countP_eq_length_filter]
  have hflying : flying.length = inFlight S k earlier c := by
    rw [List.length_map, inFlight, List.countP_eq_length_filter]
  have hfailed : failed.length ≤ countAt k (⟨c, t, a, d⟩ : Program.Move T Redis Proc Act) := by
    have hrecent := hcounts.recent_le (step_of_move hstep).clock_le (hm.fresh (.inl hreaches.1))
    rw [countP_failureTimes] at hrecent
    rw [List.length_map, ← List.countP_eq_length_filter]
    exact hrecent
  have hcount : countAt k (⟨c, t, a, d⟩ : Program.Move T Redis Proc Act) +
      inFlight S k earlier c < S.ratelimit_lockout_threshold :=
    hm.alone hreaches.1 ((step_of_move hstep).passed hE hreaches.1 hreaches.2)
  omega

/-- **The span.** -/
theorem reached_le (hE : S.ratelimit_enabled = true)
    (h : (program T S).Trace (Any T) (init T) moves d)
    (hno : ∀ m ∈ moves, ¬ Succeeds S k m) (htimely : Along (Timely S k) [] moves) (s : ℕ) :
    moves.countP (fun m => Reaches S k m ∧ s ≤ time m ∧ time m < s + window S) ≤
      S.ratelimit_lockout_threshold := by
  induction h with
  | nil => exact Nat.zero_le _
  | @snoc moves c d t a hrun _ hstep ih =>
      obtain ⟨hbefore, hm⟩ := along_snoc.mp htimely
      have hno' : ∀ m ∈ moves, ¬ Succeeds S k m := fun m hm => hno m (List.mem_append_left _ hm)
      rw [List.countP_append]
      by_cases hlast : Reaches S k ⟨c, t, a, d⟩ ∧ s ≤ d.shared.clock ∧
          d.shared.clock < s + window S
      · have hlt := reached_lt hE hrun hstep hno' hbefore hm hlast.1 hlast.2.2
        have hle : moves.countP (fun m => Reaches S k m ∧ s ≤ time m ∧ time m < s + window S) ≤
            moves.countP (fun m => Reaches S k m ∧ s ≤ time m) := by
          refine List.countP_mono_left fun m _ hin => ?_
          have hspan := of_decide_eq_true hin
          exact decide_eq_true ⟨hspan.1, hspan.2.1⟩
        have hone : [(⟨c, t, a, d⟩ : Program.Move T Redis Proc Act)].countP
            (fun m => Reaches S k m ∧ s ≤ time m ∧ time m < s + window S) ≤ 1 :=
          List.countP_le_length
        omega
      · have hnone : [(⟨c, t, a, d⟩ : Program.Move T Redis Proc Act)].countP
            (fun m => Reaches S k m ∧ s ≤ time m ∧ time m < s + window S) = 0 := by
          refine List.countP_eq_zero.mpr fun m hm hin => hlast ?_
          obtain rfl := List.mem_singleton.mp hm
          exact of_decide_eq_true hin
        rw [hnone]
        exact ih hno' hbefore

/-! ### Streaks -/

/-- A streak is counted: the failures that are not counted were a window old when the counter
was armed. -/
theorem Counter.streak_le {W n : ℕ} {dropped counted : List ℕ} {e : Entry ℕ}
    (h : Counter W dropped counted e) (hstreak : Streak W n (dropped ++ counted)) :
    n ≤ e.value := by
  obtain ⟨l, ⟨before, hl⟩, rfl, hchain⟩ := hstreak
  rw [h.value]
  rcases List.append_eq_append_iff.mp hl with ⟨older, rfl, rfl⟩ | ⟨newer, rfl, rfl⟩
  · -- The streak would begin before the counter was armed.
    cases older using List.reverseRecOn with
    | nil => exact le_rfl
    | append_singleton older f =>
        have hpos := h.pos
        rw [h.value] at hpos
        obtain ⟨f', counted, rfl⟩ := List.exists_cons_of_length_pos hpos
        have hgap : f' < f + W := by
          rw [List.append_assoc] at hchain
          have hpair := (List.isChain_append.mp hchain).2.1
          exact (List.isChain_cons_cons.mp hpair).1
        have hdropped := h.dropped f (by simp)
        have hcounted := h.counted f' (List.mem_cons_self)
        omega
  · rw [List.length_append]
    exact Nat.le_add_left _ _

/-- What a counter counts before its deadline is a streak, as it has been armed less than a
window ago. -/
theorem Counter.streak {W n now : ℕ} {dropped counted : List ℕ} {e : Entry ℕ}
    (h : Counter W dropped counted e) (hlive : now < e.deadline)
    (hpast : ∀ f ∈ counted, f ≤ now) (hn : n ≤ e.value) : Streak W n (dropped ++ counted) := by
  rw [h.value] at hn
  have hsuffix : counted.drop (counted.length - n) <:+ counted := List.drop_suffix _ _
  refine ⟨counted.drop (counted.length - n), hsuffix.trans (List.suffix_append _ _), ?_, ?_⟩
  · rw [List.length_drop]
    omega
  · refine List.Pairwise.isChain (List.pairwise_of_forall_mem_list fun t ht t' ht' => ?_)
    have hcounted := h.counted t (hsuffix.subset ht)
    have hle := hpast t' (hsuffix.subset ht')
    omega

/-- Failures that follow within a window go on with a streak. -/
theorem Streak.append {W n f : ℕ} {fails later : List ℕ} (h : Streak W n (fails ++ [f]))
    (hlater : ∀ f' ∈ later, f ≤ f' ∧ f' < f + W) :
    ∃ m, n ≤ m ∧ Streak W m (fails ++ [f] ++ later) := by
  obtain ⟨l, ⟨before, hl⟩, rfl, hchain⟩ := h
  refine ⟨(l ++ later).length, by simp, l ++ later,
    ⟨before, by rw [← List.append_assoc, hl]⟩, rfl, ?_⟩
  have hpairs : later.IsChain fun t t' => t' < t + W := by
    refine List.Pairwise.isChain (List.pairwise_of_forall_mem_list fun t ht t' ht' => ?_)
    have hle := (hlater t ht).1
    have hlt := (hlater t' ht').2
    omega
  refine List.isChain_append.mpr ⟨hchain, hpairs, fun t ht t' ht' => ?_⟩
  have hlast : t = f := by
    have hsuffix : t ∈ (fails ++ [f]).getLast? := by
      rw [← hl, List.getLast?_append, Option.mem_def.mp ht]
      rfl
    simpa using hsuffix.symm
  rw [hlast]
  exact (hlater t' (List.mem_of_mem_head? ht')).2

/-- Later steps are taken at later times. -/
theorem times_sorted (h : (program T S).Trace (Any T) c moves d) :
    moves.Pairwise fun m m' => time m ≤ time m' :=
  h.pairwise fun _ _ _ _ hrun hstep =>
    (clock_le_of_run hrun).trans (step_of_move hstep).clock_le

/-- **The lockout.** A streak of failures that reaches the threshold with `r` has the attempts
of the following window refused. -/
theorem refused_of_streak (hE : S.ratelimit_enabled = true)
    (h : (program T S).Trace (Any T) (init T) moves d)
    (hno : ∀ m ∈ moves, ¬ Succeeds S k m) (htimely : Along (Timely S k) [] moves)
    {before between after : List (Program.Move T Redis Proc Act)}
    {r c : Program.Move T Redis Proc Act} (hmoves : moves = before ++ r :: between ++ c :: after)
    (hfails : Fails S k r)
    (hstreak : Streak (window S) S.ratelimit_lockout_threshold
      (failureTimes S k (before ++ [r])))
    (hchecks : Checks S k c) (hwindow : time c < time r + window S) : Refuses S c := by
  obtain ⟨hrun, hstep⟩ := h.split hmoves
  subst hmoves
  obtain ⟨hearlier, hc, -⟩ := along_append.mp htimely
  have hcounts := counts_of_trace hE hrun
    (fun m hm => hno m (List.mem_append_left _ hm)) hearlier
  have hclock := (step_of_move hstep).clock_le
  have hmem : r ∈ before ++ r :: between :=
    List.mem_append_right _ List.mem_cons_self
  -- The streak, with the failures recorded since.
  have hsince : ∀ f ∈ failureTimes S k between, time r ≤ f ∧ f < time r + window S := by
    intro f hf
    obtain ⟨m, hm, rfl⟩ := List.mem_map.mp hf
    have hm := (List.mem_filter.mp hm).1
    have hsorted := (List.pairwise_append.mp (times_sorted hrun)).2.1
    have hle := time_le hrun (List.mem_append_right before (List.mem_cons_of_mem r hm))
    refine ⟨(List.pairwise_cons.mp hsorted).1 m hm, ?_⟩
    have htime : time c = c.after.shared.clock := rfl
    omega
  have htimes : failureTimes S k (before ++ r :: between) =
      failureTimes S k before ++ [time r] ++ failureTimes S k between := by
    simp [failureTimes, List.filter_append, hfails]
  rw [failureTimes_snoc, if_pos hfails] at hstreak
  obtain ⟨n, hn, hstreak⟩ := hstreak.append hsince
  rw [← htimes] at hstreak
  -- The last of them is younger than a window, so that the counter is there.
  have hrecent : time r ∈ failureTimes S k (before ++ r :: between) := by
    rw [htimes]
    simp
  have hcount : S.ratelimit_lockout_threshold ≤ countAt k c := by
    cases hget : c.before.shared.failures.get (time c) k with
    | none =>
        have hold := hc.fresh (.inl hchecks) hget _ hrecent
        omega
    | some count =>
        obtain ⟨deadline, hk, -⟩ := Store.get_eq_some_iff.mp hget
        obtain ⟨dropped, counted, hfailed, hcounter⟩ := hcounts.present _ hk
        rw [countAt, hget]
        exact hn.trans (hcounter.streak_le (hfailed ▸ hstreak))
  exact (step_of_move hstep).refused hE hchecks hcount

/-- **Only a streak locks out.** When an attempt is refused, the last failures are a streak that
reaches the threshold. -/
theorem streak_of_refused (hE : S.ratelimit_enabled = true)
    (h : (program T S).Trace (Any T) (init T) moves d)
    (hno : ∀ m ∈ moves, ¬ Succeeds S k m) (htimely : Along (Timely S k) [] moves)
    {before after : List (Program.Move T Redis Proc Act)} {c : Program.Move T Redis Proc Act}
    (hmoves : moves = before ++ c :: after) (hchecks : Checks S k c) (hrefuses : Refuses S c) :
    Streak (window S) S.ratelimit_lockout_threshold (failureTimes S k before) := by
  obtain ⟨hrun, hstep⟩ := h.split hmoves
  subst hmoves
  have hcounts := counts_of_trace hE hrun
    (fun m hm => hno m (List.mem_append_left _ hm)) (along_append.mp htimely).1
  have hclock := (step_of_move hstep).clock_le
  have hcount := (step_of_move hstep).locked hE hchecks hrefuses
  cases hget : c.before.shared.failures.get c.after.shared.clock k with
  | none =>
      -- Without a counter only a threshold of 0 refuses.
      rw [hget] at hcount
      rw [Nat.le_zero.mp hcount]
      exact ⟨[], List.nil_suffix, rfl, .nil⟩
  | some count =>
      rw [hget] at hcount
      obtain ⟨deadline, hk, hlive⟩ := Store.get_eq_some_iff.mp hget
      obtain ⟨dropped, counted, hfailed, hcounter⟩ := hcounts.present _ hk
      rw [hfailed]
      refine hcounter.streak hlive (fun f hf => ?_) hcount
      exact (hcounts.past f (hfailed ▸ List.mem_append_right _ hf)).trans hclock

/-- **The lockout holds in every timely run.** Let no failure be checked or recorded between
the expiry of the counter and a window after the last failure, and let no attempt pass the
check with the counter below the threshold but not with the attempts under way. Then at most
`ratelimit_lockout_threshold` attempts on an identity without a successful login reach the
password verification in any span of one window. Once as many failures have been recorded
without a pause of a window, every attempt of the following window is refused; and no attempt
is refused otherwise. -/
theorem lockout_holds (hE : S.ratelimit_enabled = true)
    (h : (program T S).Trace (Any T) (init T) moves d)
    (hno : ∀ m ∈ moves, ¬ Succeeds S k m) (htimely : Along (Timely S k) [] moves) :
    (∀ s, moves.countP (fun m => Reaches S k m ∧ s ≤ time m ∧ time m < s + window S) ≤
      S.ratelimit_lockout_threshold) ∧
    (∀ before r between c after, moves = before ++ r :: between ++ c :: after → Fails S k r →
      Streak (window S) S.ratelimit_lockout_threshold (failureTimes S k (before ++ [r])) →
      Checks S k c → time c < time r + window S → Refuses S c) ∧
    ∀ before c after, moves = before ++ c :: after → Checks S k c → Refuses S c →
      Streak (window S) S.ratelimit_lockout_threshold (failureTimes S k before) :=
  ⟨fun s => reached_le hE h hno htimely s,
    fun _ _ _ _ _ hmoves hfails hstreak hchecks hwindow =>
      refused_of_streak hE h hno htimely hmoves hfails hstreak hchecks hwindow,
    fun _ _ _ hmoves hchecks hrefuses =>
      streak_of_refused hE h hno htimely hmoves hchecks hrefuses⟩

/-! ### Schedules -/

/-- Settings with a window of ten seconds. -/
def tenSeconds (threshold : ℕ) : Settings where
  ratelimit_enabled := true
  ratelimit_default_limit := 60
  ratelimit_default_window_seconds := 60
  ratelimit_auth_limit := 10
  ratelimit_auth_window_seconds := 60
  ratelimit_lockout_threshold := threshold
  ratelimit_lockout_window_seconds := 10
  ratelimit_plan_cache_seconds := 60
  sha256 := Text.latin1
  lower := id

/-- An attempt that is checked `wait` microseconds after it arrives. -/
def attempt (t : T) (wait : ℕ) : List (T × Act) :=
  [(t, .arrive "ann" false), (t, .step wait false)]

/-- It fails, and its failure is recorded. -/
def fail (t : T) : List (T × Act) := [(t, .step 0 false), (t, .step 0 false)]

set_option maxRecDepth 10000 in
/-- Two failures lock the identity out, and the third attempt is refused. -/
theorem lockout_holds_twice :
    ∃ (moves : List (Program.Move (Fin 3) Redis Proc Act)) (d : Config (Fin 3) Redis Proc),
      (program (Fin 3) (tenSeconds 2)).Trace (Any (Fin 3)) (init (Fin 3)) moves d ∧
        d.proc 2 = .refused (lockedOut (tenSeconds 2)) ∧
        moves.countP (fun m => Reaches (tenSeconds 2) "ann" m ∧ 0 ≤ time m ∧
          time m < 0 + window (tenSeconds 2)) ≤ 2 := by
  obtain ⟨⟨moves, d⟩, hrecord, htimely, hno, hrefused⟩ :
      ∃ r ∈ (program (Fin 3) (tenSeconds 2)).record (Any (Fin 3)) (init (Fin 3))
        (attempt 0 0 ++ fail 0 ++ attempt 1 (seconds 5) ++ fail 1 ++ attempt 2 (seconds 4)),
        Along (Timely (tenSeconds 2) "ann") [] r.1 ∧
          (∀ m ∈ r.1, ¬ Succeeds (tenSeconds 2) "ann" m) ∧
          r.2.proc 2 = .refused (lockedOut (tenSeconds 2)) := by
    decide
  have htrace := Program.trace_of_record hrecord
  exact ⟨moves, d, htrace, hrefused, (lockout_holds rfl htrace hno htimely).1 0⟩

/-- Without a successful login, more attempts than the threshold reach the verification in the
span of a window that begins at `s`. -/
def Exceeds (S : Settings) (k : String) (s : ℕ) (moves : List (Program.Move T Redis Proc Act)) :
    Prop :=
  (∀ m ∈ moves, ¬ Succeeds S k m) ∧
    S.ratelimit_lockout_threshold <
      moves.countP fun m => Reaches S k m ∧ s ≤ time m ∧ time m < s + window S

instance (S : Settings) (k : String) (s : ℕ) :
    DecidablePred (Exceeds (T := T) S k s) := fun _ => inferInstanceAs (Decidable (_ ∧ _))

set_option maxRecDepth 10000 in
/-- Two failures nine seconds apart lock the identity out for one second only: when the counter
has expired two more attempts reach the verification. And of two attempts that overlap both
reach it, where one failure should lock the identity out. -/
theorem lockout_exceeded :
    (∃ (moves : List (Program.Move (Fin 4) Redis Proc Act)) (d : Config (Fin 4) Redis Proc),
      (program (Fin 4) (tenSeconds 2)).Trace (Any (Fin 4)) (init (Fin 4)) moves d ∧
        Exceeds (tenSeconds 2) "ann" (seconds 1) moves) ∧
    ∃ (moves : List (Program.Move (Fin 2) Redis Proc Act)) (d : Config (Fin 2) Redis Proc),
      (program (Fin 2) (tenSeconds 1)).Trace (Any (Fin 2)) (init (Fin 2)) moves d ∧
        Exceeds (tenSeconds 1) "ann" 0 moves := by
  constructor
  · obtain ⟨⟨moves, d⟩, hrecord, hexceeds⟩ :
        ∃ r ∈ (program (Fin 4) (tenSeconds 2)).record (Any (Fin 4)) (init (Fin 4))
          (attempt 0 0 ++ fail 0 ++ attempt 1 (seconds 9) ++ fail 1 ++ attempt 2 (seconds 1) ++
            fail 2 ++ attempt 3 0),
          Exceeds (tenSeconds 2) "ann" (seconds 1) r.1 := by
      decide
    exact ⟨moves, d, Program.trace_of_record hrecord, hexceeds⟩
  · obtain ⟨⟨moves, d⟩, hrecord, hexceeds⟩ :
        ∃ r ∈ (program (Fin 2) (tenSeconds 1)).record (Any (Fin 2)) (init (Fin 2))
          (attempt 0 0 ++ attempt 1 0), Exceeds (tenSeconds 1) "ann" 0 r.1 := by
      decide
    exact ⟨moves, d, Program.trace_of_record hrecord, hexceeds⟩

end BackendManager.Lockout
