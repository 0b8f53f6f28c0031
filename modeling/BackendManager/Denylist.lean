import BackendManager.TokenVersion
import Mathlib.Algebra.Order.Floor.Semiring
import Mathlib.Data.PNat.Notation
import Mathlib.Data.Rat.Floor

/-!
# The Denylist of Access Tokens

The model of `deny_jti` and `is_jti_denied` of `app/users/denylist.py`, with
`_denylist_access_token` of the route `logout` and `VersionedJWTStrategy`. Logouts, mints and the
clock interleave. Times are real numbers, or the elements of any other ordered ring with floors,
on which runs can be evaluated.

A logout reads the clock as a whole second and computes from it how long the token still lasts.
The clock is rounded down, so that the entry outlives the token by the fraction that has been
cut off; the entry lasts for a second at least, since Redis takes no lifetime of zero.

## Conventions

* Redis is available. A key set with `ex=n` exists for `n` seconds.
* A token is rejected as expired if `exp <= now`. Its `exp` is the whole second of the time of
  its mint plus the lifetime.
* The clock shows no negative times, so that `int` is the floor.
* `uuid4` draws no value twice, and only `write_token` signs access tokens.
* `logout` gets a signed token, since the dependency `current_active_user` has read it.

## Main results

* `read_token_eq`: how this `read_token` relates to the one on a clock of whole seconds.
* `denied_of_run`: the entry of a token outlives its expiry.
* `never_accepted_after_logout`: a token is not accepted after its logout.
-/

namespace BackendManager.Users.Denylist

open Interleaving ReadCommitted
open Access (AccessToken User UserTable)

variable {R : Type} [Ring R] [LinearOrder R]

/-- What the requests share. -/
structure World (R : Type) [Ring R] [LinearOrder R] where
  /-- `time.time()`. -/
  now : R
  nonneg : 0 ≤ now
  /-- The access tokens that have been signed. -/
  signed : List AccessToken
  /-- The times at which the keys of Redis expire. -/
  redis : String → Option R

/-- Where a request stands. -/
inductive Proc
  | idle
  /-- `write_token` has returned. -/
  | minted (token : AccessToken)
  /-- `decode_jwt` of `_denylist_access_token` is next. -/
  | logout (token : AccessToken)
  /-- The remaining lifetime is computed next. -/
  | decoded (token data : AccessToken)
  /-- `deny_jti` is next. -/
  | deny (token : AccessToken) (jti : String) (ttl : ℤ)
  /-- The logout is done. -/
  | done (token : AccessToken)
deriving DecidableEq

/-- One scheduled action. -/
inductive Act (R : Type)
  /-- Time passes. -/
  | tick (now : R)
  | write_token (id : Uuid) (token_version : ℕ) (jti : String)
  | logout (token : AccessToken)
  /-- The next statement. -/
  | stmt

/-! ### `denylist.py` -/

/-- The key of a token. -/
def jtiKey (jti : String) : String := "denylist:jti:" ++ jti

def deny_jti (w : World R) (jti : String) (ttl_seconds : ℤ) : World R :=
  { w with redis := Function.update w.redis (jtiKey jti) (some (w.now + (max ttl_seconds 1 : ℤ))) }

def is_jti_denied (w : World R) (jti : String) : Bool :=
  (w.redis (jtiKey jti)).any fun expires => w.now < expires

/-! ### `auth.py` -/

/-- `decode_jwt`; `none` is a `PyJWTError`. -/
def decode_jwt (w : World R) (token : AccessToken) : Option AccessToken :=
  if token ∈ w.signed ∧ ¬ (token.exp : R) ≤ w.now then some token else none

/-- `read_token`. -/
def read_token {T : Type} [DecidableEq T] (w : World R) (t : T) (users : UserTable T)
    (token : AccessToken) : Option User :=
  match decode_jwt w token with
  | none => none
  | some data =>
      if is_jti_denied w data.jti then none
      else (users.view t data.sub).filter fun user => data.tv = user.token_version

/-! ### Requests -/

section Requests

variable [FloorSemiring R]

/-- `write_token`; without a value the `jti` has been drawn before. -/
def write_token (lifetime_seconds : ℕ+) (w : World R) (id : Uuid) (token_version : ℕ)
    (jti : String) : Option (World R × AccessToken) :=
  let token : AccessToken :=
    { sub := id
      tv := token_version
      jti := jti
      exp := ⌊w.now + (lifetime_seconds : ℕ)⌋₊ }
  if jti ∈ w.signed.map AccessToken.jti then none
  else some ({ w with signed := token :: w.signed }, token)

/-- The next statement of `_denylist_access_token`. -/
def stmt (w : World R) : Proc → Option (World R × Proc)
  | .logout token =>
      match decode_jwt w token with
      | some data => some (w, .decoded token data)
      | none => some (w, .done token)
  | .decoded token data =>
      let ttl : ℤ := (data.exp : ℤ) - (⌊w.now⌋₊ : ℤ)
      if ttl > 0 then some (w, .deny token data.jti ttl) else some (w, .done token)
  | .deny token jti ttl => some (deny_jti w jti ttl, .done token)
  | _ => none

/-- One action. -/
def exec (lifetime_seconds : ℕ+) : Act R → World R → Proc → Option (World R × Proc)
  | .tick now, w, p =>
      if h : w.now ≤ now then some ({ w with now := now, nonneg := w.nonneg.trans h }, p) else none
  | .write_token id token_version jti, w, .idle =>
      (write_token lifetime_seconds w id token_version jti).map fun r => (r.1, .minted r.2)
  | .logout token, w, .idle => if token ∈ w.signed then some (w, .logout token) else none
  | .stmt, w, p => stmt w p
  | _, _, _ => none

/-- The requests as an interleaved program. -/
def program (T : Type) (lifetime_seconds : ℕ+) : Program T (World R) Proc (Act R) :=
  ⟨fun _ => exec lifetime_seconds⟩

end Requests

/-- The initial configuration, at some time. -/
def init (T : Type) (now : R) (h : 0 ≤ now) : Config T (World R) Proc :=
  ⟨⟨now, h, [], fun _ => none⟩, fun _ => .idle⟩

/-! ### What a step can do -/

section Proofs

variable {T : Type} {lifetime_seconds : ℕ+} {w w' : World R} {p p' : Proc}
  {a : Act R} {token data : AccessToken} {jti : String} {ttl : ℤ}
  {c d : Config T (World R) Proc}

/-- No two tokens have one `jti`. -/
def Distinct (w : World R) : Prop :=
  ∀ token ∈ w.signed, ∀ token' ∈ w.signed, token.jti = token'.jti → token = token'

/-- The token has expired, or its entry lasts until it has. -/
def Gone (w : World R) (token : AccessToken) : Prop :=
  (token.exp : R) ≤ w.now ∨
    ∃ expires, w.redis (jtiKey token.jti) = some expires ∧ (token.exp : R) ≤ expires

/-- What holds of a request where it stands. -/
def Loc (w : World R) : Proc → Prop
  | .idle | .minted _ => True
  | .logout token => token ∈ w.signed
  | .decoded token data => data = token ∧ token ∈ w.signed
  | .deny token jti ttl =>
      jti = token.jti ∧ token ∈ w.signed ∧ (token.exp : R) ≤ w.now + (max ttl 1 : ℤ)
  | .done token => token ∈ w.signed ∧ Gone w token

/-- Time goes on, tokens stay signed, and an entry is kept or replaced by one that lasts until its
token has expired. -/
structure Later (w w' : World R) : Prop where
  now : w.now ≤ w'.now
  signed : ∀ token ∈ w.signed, token ∈ w'.signed
  redis : ∀ token ∈ w.signed, w'.redis (jtiKey token.jti) = w.redis (jtiKey token.jti) ∨
    ∃ expires, w'.redis (jtiKey token.jti) = some expires ∧ (token.exp : R) ≤ expires

/-- A world is not earlier than itself. -/
theorem Later.refl (w : World R) : Later w w := ⟨le_rfl, fun _ h => h, fun _ _ => .inl rfl⟩

/-- A token that is gone stays gone: its entry lives as long as the token does. -/
theorem Gone.later (h : Gone w token) (hsigned : token ∈ w.signed) (hlater : Later w w') :
    Gone w' token := by
  rcases h with hexpired | ⟨expires, hentry, hlasts⟩
  · exact .inl (hexpired.trans hlater.now)
  · rcases hlater.redis token hsigned with hkept | hnew
    · exact .inr ⟨expires, hkept.trans hentry, hlasts⟩
    · exact .inr hnew

/-- Decoding gives the claims of the token. -/
theorem decode_jwt_eq_some (h : decode_jwt w token = some data) : data = token := by
  rw [decode_jwt] at h
  split at h
  · exact (Option.some.inj h).symm
  · cases h

/-- A signed token that is not decoded has expired. -/
theorem decode_jwt_eq_none (h : decode_jwt w token = none) (hsigned : token ∈ w.signed) :
    (token.exp : R) ≤ w.now := by
  rw [decode_jwt] at h
  split at h
  · cases h
  · rename_i hrefused
    by_contra hlive
    exact hrefused ⟨hsigned, hlive⟩

/-- Nothing whole is left only of a token that has expired. -/
theorem expired_of_ttl [FloorSemiring R] (w : World R) (token : AccessToken)
    (h : ¬ (token.exp : ℤ) - (⌊w.now⌋₊ : ℤ) > 0) : (token.exp : R) ≤ w.now := by
  have hle : token.exp ≤ ⌊w.now⌋₊ := by omega
  exact (Nat.le_floor_iff w.nonneg).mp hle

/-- Different tokens have different entries. -/
theorem jtiKey_injective : Function.Injective jtiKey := fun _ _ h =>
  (String.append_right_inj _).mp h

/-- The entry of a token lasts until it has expired. -/
theorem later_deny_jti (hdistinct : Distinct w) (hsigned : token ∈ w.signed)
    (hle : (token.exp : R) ≤ w.now + (max ttl 1 : ℤ)) :
    Later w (deny_jti w token.jti ttl) where
  now := le_rfl
  signed _ h := h
  redis token' hsigned' := by
    by_cases hjti : token'.jti = token.jti
    · obtain rfl := hdistinct token' hsigned' token hsigned hjti
      exact .inr ⟨_, Function.update_self _ _ _, hle⟩
    · exact .inl (Function.update_of_ne (fun h => hjti (jtiKey_injective h)) _ _)

/-- An entry that lives as long as the token denies it for good. -/
theorem gone_deny_jti (hle : (token.exp : R) ≤ w.now + (max ttl 1 : ℤ)) :
    Gone (deny_jti w token.jti ttl) token :=
  .inr ⟨_, Function.update_self _ _ _, hle⟩

/-- A fresh token keeps tokens distinct. -/
theorem later_write_token [FloorSemiring R] {id : Uuid} {token_version : ℕ} (hdistinct : Distinct w)
    (h : write_token lifetime_seconds w id token_version jti = some (w', token)) :
    Later w w' ∧ Distinct w' := by
  rw [write_token] at h
  split at h
  · cases h
  · rename_i hfresh
    obtain ⟨rfl, rfl⟩ := Prod.mk.inj (Option.some.inj h)
    have hnew : ∀ token ∈ w.signed, token.jti ≠ jti := fun token htoken hjti =>
      hfresh (List.mem_map.mpr ⟨token, htoken, hjti⟩)
    refine ⟨⟨le_rfl, fun _ h => List.mem_cons_of_mem _ h, fun _ _ => .inl rfl⟩, ?_⟩
    intro token htoken token' htoken' hjti
    rcases List.mem_cons.mp htoken with rfl | htoken
    · rcases List.mem_cons.mp htoken' with rfl | htoken'
      · rfl
      · exact absurd hjti.symm (hnew token' htoken')
    · rcases List.mem_cons.mp htoken' with rfl | htoken'
      · exact absurd hjti (hnew token htoken)
      · exact hdistinct token htoken token' htoken' hjti

/-- A signed token is read as on a clock of whole seconds. -/
theorem read_token_eq [FloorSemiring R] [DecidableEq T] (env : Access.Env) (t : T)
    (users : UserTable T) (hsigned : token ∈ w.signed) (hnow : env.now = ⌊w.now⌋₊)
    (hdenied : env.denied = is_jti_denied w token.jti) :
    read_token w t users token = Access.read_token env t users token := by
  have hexp : (token.exp : R) ≤ w.now ↔ token.exp ≤ env.now := by
    rw [hnow, Nat.le_floor_iff w.nonneg]
  rw [read_token, decode_jwt, Access.read_token, hdenied]
  by_cases hexpired : (token.exp : R) ≤ w.now
  · rw [if_neg fun h => h.2 hexpired, if_pos (.inl (hexp.mp hexpired))]
  · have hlive : ¬ token.exp ≤ env.now := fun h => hexpired (hexp.mpr h)
    rw [if_pos ⟨hsigned, hexpired⟩]
    simp only [hlive, false_or]

variable [IsStrictOrderedRing R]

/-- **Interference freedom.** -/
theorem Loc.later (h : Loc w p) (hlater : Later w w') : Loc w' p := by
  cases p with
  | idle | minted _ => trivial
  | logout token => exact hlater.signed token h
  | decoded token data => exact ⟨h.1, hlater.signed token h.2⟩
  | deny token jti ttl =>
      obtain ⟨hjti, hsigned, hle⟩ := h
      exact ⟨hjti, hlater.signed token hsigned, hle.trans (by gcongr; exact hlater.now)⟩
  | done token => exact ⟨hlater.signed token h.1, h.2.later h.1 hlater⟩

variable [FloorSemiring R]

/-- The rounding: the whole seconds that are left, counted from now, reach the expiry. -/
theorem exp_le_add_ttl (w : World R) (token : AccessToken) :
    (token.exp : R) ≤ w.now + (max ((token.exp : ℤ) - (⌊w.now⌋₊ : ℤ)) 1 : ℤ) := by
  have hfloor : (⌊w.now⌋₊ : R) ≤ w.now := Nat.floor_le w.nonneg
  have hmax : ((token.exp : ℤ) - (⌊w.now⌋₊ : ℤ) : ℤ) ≤
      max ((token.exp : ℤ) - (⌊w.now⌋₊ : ℤ)) 1 := le_max_left _ _
  have hcast : (token.exp : R) - (⌊w.now⌋₊ : R) ≤
      (max ((token.exp : ℤ) - (⌊w.now⌋₊ : ℤ)) 1 : ℤ) := by
    exact_mod_cast hmax
  calc (token.exp : R) = ⌊w.now⌋₊ + (token.exp - ⌊w.now⌋₊) :=
      (add_sub_cancel _ _).symm
    _ ≤ w.now + (max ((token.exp : ℤ) - (⌊w.now⌋₊ : ℤ)) 1 : ℤ) := add_le_add hfloor hcast

/-- A statement of a logout. -/
theorem later_of_stmt (hdistinct : Distinct w) (hL : Loc w p) (h : stmt w p = some (w', p')) :
    Later w w' ∧ Distinct w' ∧ Loc w' p' := by
  cases p with
  | idle | minted _ | done _ => cases h
  | logout token =>
      rw [stmt] at h
      split at h
      · rename_i data hdata
        obtain ⟨rfl, rfl⟩ := Prod.mk.inj (Option.some.inj h)
        exact ⟨.refl w, hdistinct, decode_jwt_eq_some hdata, hL⟩
      · rename_i hnone
        obtain ⟨rfl, rfl⟩ := Prod.mk.inj (Option.some.inj h)
        exact ⟨.refl w, hdistinct, hL, .inl (decode_jwt_eq_none hnone hL)⟩
  | decoded token data =>
      obtain ⟨rfl, hsigned⟩ := hL
      simp only [stmt] at h
      split at h
      · obtain ⟨rfl, rfl⟩ := Prod.mk.inj (Option.some.inj h)
        exact ⟨.refl w, hdistinct, rfl, hsigned, exp_le_add_ttl w data⟩
      · rename_i hnone
        obtain ⟨rfl, rfl⟩ := Prod.mk.inj (Option.some.inj h)
        exact ⟨.refl w, hdistinct, hsigned, .inl (expired_of_ttl w data hnone)⟩
  | deny token jti ttl =>
      obtain ⟨rfl, hsigned, hle⟩ := hL
      obtain ⟨rfl, rfl⟩ := Prod.mk.inj (Option.some.inj h)
      exact ⟨later_deny_jti hdistinct hsigned hle, hdistinct, hsigned, gone_deny_jti hle⟩

/-- **Local correctness.** A step leads on, keeps tokens distinct, and establishes what holds of
its own request. -/
theorem later_of_exec (hdistinct : Distinct w) (hL : Loc w p)
    (h : exec lifetime_seconds a w p = some (w', p')) :
    Later w w' ∧ Distinct w' ∧ Loc w' p' := by
  cases a with
  | tick now =>
      rw [exec] at h
      split at h
      · rename_i hle
        obtain ⟨rfl, rfl⟩ := Prod.mk.inj (Option.some.inj h)
        have hlater : Later w { w with now := now, nonneg := w.nonneg.trans hle } :=
          ⟨hle, fun _ h => h, fun _ _ => .inl rfl⟩
        exact ⟨hlater, hdistinct, hL.later hlater⟩
      · cases h
  | write_token id token_version jti =>
      cases p <;> simp only [exec, reduceCtorEq] at h
      obtain ⟨⟨w₁, token⟩, hmint, h⟩ := Option.map_eq_some_iff.mp h
      obtain ⟨rfl, rfl⟩ := Prod.mk.inj h
      obtain ⟨hlater, hdistinct'⟩ := later_write_token hdistinct hmint
      exact ⟨hlater, hdistinct', trivial⟩
  | logout token =>
      cases p <;> simp only [exec, reduceCtorEq] at h
      split at h
      · rename_i hsigned
        obtain ⟨rfl, rfl⟩ := Prod.mk.inj (Option.some.inj h)
        exact ⟨.refl w, hdistinct, hsigned⟩
      · cases h
  | stmt => exact later_of_stmt hdistinct hL (by simpa only [exec] using h)


/-- The outline of the assertions. -/
theorem outline : (program (R := R) T lifetime_seconds).Outline (fun _ _ _ => True) Distinct
    fun _ => Loc where
  step _ hI hL h := (later_of_exec hI (hL _) h).2
  frame _ _ hI hL h := (hL _).later (later_of_exec hI (hL _) h).1

/-! ### Runs -/

variable [DecidableEq T] {now : R} {hnow : 0 ≤ now} {t u : T}

/-- After its logout a token has expired, or its entry lasts until it has. -/
theorem gone_of_run (h : (program T lifetime_seconds).Run (fun _ _ _ => True) (init T now hnow) d)
    (hdone : d.proc u = .done token) : Gone d.shared token := by
  have hrun := outline.run h (fun _ hmem => (nomatch hmem)) fun _ => trivial
  have hL := hrun.2 u
  rw [hdone] at hL
  exact hL.2

/-- **The entry of a token outlives its expiry.** -/
theorem denied_of_run
    (h : (program T lifetime_seconds).Run (fun _ _ _ => True) (init T now hnow) d)
    (hdone : d.proc u = .done token) (hlive : d.shared.now < token.exp) :
    is_jti_denied d.shared token.jti = true := by
  rcases gone_of_run h hdone with hexpired | ⟨expires, hentry, hlasts⟩
  · exact absurd hexpired (not_le.mpr hlive)
  · rw [is_jti_denied, hentry, Option.any_some, decide_eq_true_iff]
    exact hlive.trans_le hlasts

/-- **A token is not accepted after its logout**, in any run, at any later time, whatever the
table of users says. -/
theorem never_accepted_after_logout
    (h : (program T lifetime_seconds).Run (fun _ _ _ => True) (init T now hnow) d)
    (hdone : d.proc u = .done token) (users : UserTable T) :
    (d.shared.now < token.exp → is_jti_denied d.shared token.jti = true) ∧
      read_token d.shared t users token = none := by
  have hdenied := denied_of_run h hdone
  refine ⟨hdenied, ?_⟩
  rw [read_token]
  split
  · rfl
  · rename_i data hdata
    obtain rfl := decode_jwt_eq_some hdata
    rw [decode_jwt] at hdata
    split at hdata
    · rename_i hdecoded
      rw [if_pos (hdenied (not_le.mp hdecoded.2))]
    · cases hdata

end Proofs

/-! ### A logout within a second -/

/-- A token minted at 2.5 for ten seconds. -/
def shortToken : AccessToken := ⟨Uuid.ofNat 1, 0, "j", 12⟩

/-- The token is minted, and presented to a logout whose clock reading is 3.75. -/
def logoutSchedule : List (Bool × Act ℚ) :=
  [(false, .write_token (Uuid.ofNat 1) 0 "j"), (true, .logout shortToken), (true, .stmt),
    (true, .tick (15 / 4)), (true, .stmt), (true, .stmt), (true, .tick (47 / 4))]

/-- A token with three quarters of a second left: it is denied for a whole second, and then it has
expired. -/
theorem never_accepted_after_logout_short :
    ∃ d : Config Bool (World ℚ) Proc,
      (program Bool 10).Run (fun _ _ _ => True) (init Bool (5 / 2 : ℚ) (by norm_num)) d ∧
        d.proc true = .done shortToken ∧ d.shared.now = 47 / 4 ∧
      ∀ users : UserTable Bool, read_token d.shared false users shortToken = none := by
  have hreplay : ((program Bool 10).replay (fun _ _ _ => True)
      (init Bool (5 / 2 : ℚ) (by norm_num)) logoutSchedule).any (fun d =>
        decide (d.proc true = .done shortToken) && decide (d.shared.now = 47 / 4)) = true := by
    decide +kernel
  obtain ⟨d, hrun, hd⟩ := Program.exists_run_of_replay hreplay
  simp only [Bool.and_eq_true, decide_eq_true_eq] at hd
  exact ⟨d, hrun, hd.1, hd.2, fun users => (never_accepted_after_logout hrun hd.1 users).2⟩

end BackendManager.Users.Denylist
