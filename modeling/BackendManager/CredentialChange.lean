import BackendManager.AuthRoutes

/-!
# What Ends the Sessions of a User

Sessions end in two ways: the version of the user moves past the version in an access token,
and a row of `refresh_tokens` is spent or revoked. Both are for good: no route lowers a
version, takes back a revocation, or gives a key to another user. `Evolves` says this of any
two states of a sequence of requests, and from it follows that what is rejected once is
rejected for ever.

Four routes write a password hash, and one of them, the reset, is followed by a hook that
moves the version on and revokes the rows. The others leave both as they are (`Steady`).

## Main results

* `proper_handle`, `evolves_of_run`: what any request, and any run, can do to versions and tokens.
* `change_cases`: a request that changes a hash is a reset with its hook, or leaves the
  version and the tokens as they are.
* `sessions_ended_iff`: after every sequence of requests, a request that changes the hash of a
  user ends all of its sessions if and only if it is a reset whose hook succeeds, or there are
  none.
* `sessions_survive_patch`: both tokens of a login are accepted after a change of the password.
-/

namespace BackendManager.Users.Credentials

open Interleaving
open Access (AccessToken)

variable {S : Settings} {env : Env} {s s' s'' : State} {id : Uuid} {user user' : User}
  {row row' : RefreshToken} {k : String} {pair : TokenPair} {i : Uuid × TokenPair}
  {request : Request} {scope : Scope} {c d e : Config Unit State Response}

/-! ### What is for good -/

/-- A row later on: it is the same token, and it has not become usable again. -/
structure Later (row row' : RefreshToken) : Prop where
  user_id : row'.user_id = row.user_id
  expires_at : row'.expires_at = row.expires_at
  claimable : row'.claimable = true → row.claimable = true

/-- From `s` on to `s'`: versions go up, and tokens are not usable again, apart from users and
tokens that nothing had been handed out for. -/
structure Evolves (S : Settings) (s s' : State) : Prop where
  users : ∀ {id user'}, s'.users id = some user' →
    (∃ user, s.users id = some user ∧ user.token_version ≤ user'.token_version) ∨
      ∀ i ∈ s.issued, i.1 ≠ id
  tokens : ∀ {k row'}, s'.refresh_tokens k = some row' →
    (∃ row, s.refresh_tokens k = some row ∧ Later row row') ∨
      ∀ i ∈ s.issued, S.sha256 i.2.refresh_token ≠ k
  issued : s.issued ⊆ s'.issued

/-- A row is a later version of itself. -/
theorem Later.refl (row : RefreshToken) : Later row row := ⟨rfl, rfl, id⟩

/-- Later versions, one after the other. -/
theorem Later.trans {row'' : RefreshToken} (h : Later row row') (h' : Later row' row'') :
    Later row row'' :=
  ⟨h'.user_id.trans h.user_id, h'.expires_at.trans h.expires_at,
    fun hc => h.claimable (h'.claimable hc)⟩

/-- A state has evolved from itself. -/
theorem Evolves.refl (S : Settings) (s : State) : Evolves S s s :=
  ⟨fun h => .inl ⟨_, h, le_refl _⟩, fun h => .inl ⟨_, h, .refl _⟩, List.Subset.refl _⟩

/-- Evolutions, one after the other. -/
theorem Evolves.trans (h : Evolves S s s') (h' : Evolves S s' s'') : Evolves S s s'' where
  users {id user''} hu := by
    rcases h'.users hu with ⟨user', hu', hle'⟩ | hnew
    · rcases h.users hu' with ⟨user, hu₀, hle⟩ | hnew
      · exact .inl ⟨user, hu₀, hle.trans hle'⟩
      · exact .inr hnew
    · exact .inr fun i hi => hnew i (h.issued hi)
  tokens {k row''} hr := by
    rcases h'.tokens hr with ⟨row', hr', hlater'⟩ | hnew
    · rcases h.tokens hr' with ⟨row, hr₀, hlater⟩ | hnew
      · exact .inl ⟨row, hr₀, hlater.trans hlater'⟩
      · exact .inr hnew
    · exact .inr fun i hi => hnew i (h.issued hi)
  issued := List.Subset.trans h.issued h'.issued

/-- Only the users change. -/
theorem evolves_setUser
    (h : (∃ user, s.users id = some user ∧ user.token_version ≤ user'.token_version) ∨
      ∀ i ∈ s.issued, i.1 ≠ id) : Evolves S s (s.setUser id user') where
  users {id₀ user₀} hu := by
    simp only [State.setUser, Function.update_apply] at hu
    split at hu
    · rename_i hid
      obtain rfl := Option.some.inj hu
      rw [hid]
      exact h
    · exact .inl ⟨user₀, hu, le_refl _⟩
  tokens hr := .inl ⟨_, hr, .refl _⟩
  issued := List.Subset.refl _

/-- Only a token changes. -/
theorem evolves_setToken
    (h : (∃ row, s.refresh_tokens k = some row ∧ Later row row') ∨
      ∀ i ∈ s.issued, S.sha256 i.2.refresh_token ≠ k) : Evolves S s (s.setToken k row') where
  users hu := .inl ⟨_, hu, le_refl _⟩
  tokens {k₀ row₀} hr := by
    simp only [State.setToken, Function.update_apply] at hr
    split at hr
    · rename_i hk
      obtain rfl := Option.some.inj hr
      rw [hk]
      exact h
    · exact .inl ⟨row₀, hr, .refl _⟩
  issued := List.Subset.refl _

/-- Revoked rows are not claimed. -/
theorem evolves_revoke (S : Settings) (s : State) (scope : Scope) :
    Evolves S s (s.revoke scope) where
  users hu := .inl ⟨_, hu, le_refl _⟩
  tokens {k row'} hr := by
    obtain ⟨row, hrow, rfl⟩ := Option.map_eq_some_iff.mp hr
    refine .inl ⟨row, hrow, ?_⟩
    split
    · exact ⟨rfl, rfl, fun hc => by simp [RefreshToken.claimable] at hc⟩
    · exact .refl row
  issued := List.Subset.refl _

/-- The deletion of a user takes the rows of its tokens along, and brings none back. -/
theorem evolves_deleteUser (S : Settings) (s : State) (id : Uuid) :
    Evolves S s (s.deleteUser id) where
  users {id₀ user₀} hu := by
    simp only [State.deleteUser, Function.update_apply] at hu
    split at hu
    · cases hu
    · exact .inl ⟨user₀, hu, le_refl _⟩
  tokens hr := .inl ⟨_, (Option.filter_eq_some_iff.mp hr).1, .refl _⟩
  issued := List.Subset.refl _

/-- Handing out a pair changes what is remembered, and no row. -/
theorem evolves_handOut (S : Settings) (s : State) (id : Uuid) (pair : TokenPair) :
    Evolves S s (s.handOut id pair) where
  users hu := .inl ⟨_, hu, le_refl _⟩
  tokens hr := .inl ⟨_, hr, .refl _⟩
  issued := List.subset_cons_self _ _

/-! ### What has been handed out -/

/-- A pair belongs to its user, and its version is at most the stored one. -/
structure Genuine (S : Settings) (s : State) (i : Uuid × TokenPair) : Prop where
  sub : i.2.access_token.sub = i.1
  version : ∀ {user}, s.users i.1 = some user → i.2.access_token.tv ≤ user.token_version
  owner : ∀ {row}, s.refresh_tokens (S.sha256 i.2.refresh_token) = some row → row.user_id = i.1

/-- A pair that was genuine when it was handed out stays genuine: versions only go up. -/
theorem Evolves.genuine (h : Evolves S s s') (hi : i ∈ s.issued) (hg : Genuine S s i) :
    Genuine S s' i where
  sub := hg.sub
  version hu := by
    rcases h.users hu with ⟨user, hu₀, hle⟩ | hnew
    · exact (hg.version hu₀).trans hle
    · exact absurd rfl (hnew i hi)
  owner hr := by
    rcases h.tokens hr with ⟨row, hr₀, hlater⟩ | hnew
    · exact hlater.user_id.trans (hg.owner hr₀)
    · exact absurd rfl (hnew i hi)

/-- A rotation succeeds with a token that has not expired and is neither spent nor revoked. -/
theorem rotate_eq_some {token : String} :
    (rotate_refresh_token S env s token).2 = some id ↔
      ∃ row, s.refresh_tokens (S.sha256 token) = some row ∧ env.now < row.expires_at ∧
        row.claimable = true ∧ row.user_id = id := by
  rw [rotate_refresh_token]
  cases s.refresh_tokens (S.sha256 token) with
  | none => simp
  | some row =>
      simp only [Option.some.injEq, exists_eq_left']
      split
      · rename_i hexpired
        simp only [reduceCtorEq, false_iff]
        omega
      · rename_i hlive
        split
        · rename_i hclaimable
          simp only [Option.some.injEq]
          exact ⟨fun h => ⟨by omega, hclaimable, h⟩, fun h => h.2.2⟩
        · rename_i hclaimable
          simp only [reduceCtorEq, false_iff]
          exact fun h => hclaimable h.2.1

/-- An access token is rejected if it has expired, if it is denied, or if its user is gone or has
another version. -/
theorem read_token_eq_none_iff {token : AccessToken} :
    read_token env s token = none ↔ (token.exp ≤ env.now ∨ env.denied = true) ∨
      ∀ user, s.users token.sub = some user → token.tv ≠ user.token_version := by
  rw [read_token]
  split
  · rename_i hdead
    exact iff_of_true rfl (.inl hdead)
  · rename_i hlive
    rw [Option.filter_eq_none_iff]
    simp [hlive]

/-- Neither token of the pair is accepted, at any time. -/
def Rejected (S : Settings) (s : State) (pair : TokenPair) : Prop :=
  ∀ env, read_token env s pair.access_token = none ∧
    (rotate_refresh_token S env s pair.refresh_token).2 = none

/-- **For good.** What is rejected in one state is rejected in all later ones. -/
theorem Evolves.rejected (h : Evolves S s s') (hi : i ∈ s.issued) (hg : Genuine S s i)
    (hr : Rejected S s i.2) : Rejected S s' i.2 := by
  intro env
  refine ⟨?_, Option.eq_none_iff_forall_ne_some.mpr fun id hid => ?_⟩
  · refine read_token_eq_none_iff.mpr ((read_token_eq_none_iff.mp (hr env).1).imp_right ?_)
    rw [hg.sub]
    intro hread user' hu'
    rcases h.users hu' with ⟨user, hu, hle⟩ | hnew
    · have hne := hread user hu
      have hversion := hg.version hu
      omega
    · exact absurd rfl (hnew i hi)
  · obtain ⟨row', hrow', hlive, hclaimable, hid⟩ := rotate_eq_some.mp hid
    rcases h.tokens hrow' with ⟨row, hrow, hlater⟩ | hnew
    · have hsome : (rotate_refresh_token S env s i.2.refresh_token).2 = some row.user_id := by
        refine rotate_eq_some.mpr ⟨row, hrow, ?_, hlater.claimable hclaimable, rfl⟩
        rw [← hlater.expires_at]
        exact hlive
      rw [(hr env).2] at hsome
      cases hsome
    · exact absurd rfl (hnew i hi)

/-! ### What a request does -/

/-- What `Fresh` says. -/
structure FreshDraws (S : Settings) (env : Env) (s : State) : Prop where
  user : s.users env.uuid4 = none
  token : s.refresh_tokens (S.sha256 env.token) = none
  user_new : ∀ i ∈ s.issued, i.1 ≠ env.uuid4
  token_new : ∀ i ∈ s.issued, S.sha256 i.2.refresh_token ≠ S.sha256 env.token

/-- The check of the draws, as a property. -/
theorem freshDraws_of_fresh (h : Fresh S env s = true) : FreshDraws S env s := by
  simp only [Fresh, Bool.and_eq_true, Option.isNone_iff_eq_none, List.all_eq_true,
    decide_eq_true_eq] at h
  exact ⟨h.1.1, h.1.2, fun i hi => (h.2 i hi).1, fun i hi => (h.2 i hi).2⟩

/-- A request changes the state as any request may, and what it hands out is genuine. -/
structure Proper (S : Settings) (s : State) (r : State × Response) : Prop where
  evolves : Evolves S s r.1
  genuine : ∀ i ∈ r.1.issued, i ∈ s.issued ∨ Genuine S r.1 i

/-- A request that hands out nothing. -/
theorem proper_of_issued_eq {response : Response} (h : Evolves S s s')
    (hissued : s'.issued = s.issued) : Proper S s (s', response) :=
  ⟨h, fun _ hi => .inl (hissued ▸ hi)⟩

/-- A request that hands out a pair for a user and a row that are there. -/
theorem proper_answerPair (h : Evolves S s s') (hissued : s'.issued = s.issued)
    (huser : s'.users id = some user)
    (hrow : s'.refresh_tokens (S.sha256 env.token) = some row) (hid : row.user_id = id) :
    Proper S s (answerPair S env s' id user) where
  evolves := h.trans (evolves_handOut S s' id _)
  genuine i hi := by
    rcases List.mem_cons.mp hi with rfl | hi
    · refine .inr ⟨rfl, fun {user'} hu => ?_, fun {row'} hr => ?_⟩
      · obtain rfl := Option.some.inj (huser.symm.trans hu)
        exact le_refl _
      · obtain rfl := Option.some.inj (hrow.symm.trans hr)
        exact hid
    · exact .inl (hissued ▸ hi)

/-- What a rotation does. -/
theorem rotate_spec (hf : FreshDraws S env s) (token : String) :
    Evolves S s (rotate_refresh_token S env s token).1 ∧
      (rotate_refresh_token S env s token).1.users = s.users ∧
      (rotate_refresh_token S env s token).1.issued = s.issued ∧
      ∀ id, (rotate_refresh_token S env s token).2 = some id →
        ∃ row, (rotate_refresh_token S env s token).1.refresh_tokens (S.sha256 env.token) =
          some row ∧ row.user_id = id := by
  rw [rotate_refresh_token]
  split
  · exact ⟨.refl S s, rfl, rfl, fun _ h => nomatch h⟩
  · rename_i row hrow
    split
    · exact ⟨.refl S s, rfl, rfl, fun _ h => nomatch h⟩
    · split
      · have hspent : Evolves S s
            (s.setToken (S.sha256 token) { row with used_at := some env.now }) := by
          refine evolves_setToken (.inl ⟨row, hrow, rfl, rfl, fun hc => ?_⟩)
          simp [RefreshToken.claimable] at hc
        refine ⟨hspent.trans (evolves_setToken (.inr hf.token_new)), rfl, rfl, fun id h => ?_⟩
        exact ⟨_, Function.update_self _ _ _, Option.some.inj h⟩
      · exact ⟨evolves_revoke S s _, rfl, rfl, fun _ h => nomatch h⟩

/-- Who is authenticated is a stored user, with the version and the activity that are stored. -/
theorem authenticate_eq_some {password : String}
    (h : authenticate S env s id password = some user') :
    ∃ user, s.users id = some user ∧ user'.token_version = user.token_version ∧
      user'.is_active = user.is_active := by
  obtain ⟨user, hu, h⟩ := Option.bind_eq_some_iff.mp h
  split at h
  · obtain rfl := Option.some.inj h
    exact ⟨user, hu, rfl, rfl⟩
  · obtain rfl := Option.some.inj h
    exact ⟨user, hu, rfl, rfl⟩
  · cases h

/-- A login hands out a pair for the user that it has authenticated, at the stored version. -/
theorem proper_login (hf : FreshDraws S env s) (id : Uuid) (password : String) :
    Proper S s (login S env s id password) := by
  rw [login]
  split
  · exact proper_of_issued_eq (.refl S s) rfl
  · rename_i user' hauth
    obtain ⟨user, hu, hversion, -⟩ := authenticate_eq_some hauth
    have hset : Evolves S s (s.setUser id user') := evolves_setUser (.inl ⟨user, hu, hversion.ge⟩)
    split
    · refine proper_answerPair (hset.trans (evolves_setToken (.inr hf.token_new))) rfl
        (Function.update_self _ _ _) (Function.update_self _ _ _) rfl
    · exact proper_of_issued_eq hset rfl

/-- A rotation revokes the row that it was presented and hands out a pair for the same user. -/
theorem proper_refresh (hf : FreshDraws S env s) (token : String) :
    Proper S s (refresh S env s token) := by
  obtain ⟨hevolves, husers, hissued, hrow⟩ := rotate_spec hf token
  rw [refresh]
  split
  · rename_i s' h
    rw [h] at hevolves hissued
    exact proper_of_issued_eq hevolves hissued
  · rename_i s' id h
    rw [h] at hevolves hissued hrow
    split
    · rename_i user huser
      obtain ⟨row, hr, hid⟩ := hrow id rfl
      exact proper_answerPair hevolves hissued (Option.filter_eq_some_iff.mp huser).1 hr hid
    · exact proper_of_issued_eq hevolves hissued

/-- A reset of the password may move the version on and revoke rows, and hands out nothing. -/
theorem proper_reset_password (id : Uuid) (fingerprint password : String) :
    Proper S s (reset_password S env s id fingerprint password) := by
  rw [reset_password]
  split
  · exact proper_of_issued_eq (.refl S s) rfl
  · rename_i user huser
    have hu := (Option.filter_eq_some_iff.mp huser).1
    have hset : Evolves S s
        (s.setUser id { user with hashed_password := S.hash env.salt password }) :=
      evolves_setUser (.inl ⟨user, hu, le_refl _⟩)
    simp only
    split
    · exact proper_of_issued_eq hset rfl
    · refine proper_of_issued_eq (hset.trans (Evolves.trans ?_ (evolves_revoke S _ _))) rfl
      exact evolves_setUser (.inl ⟨_, Function.update_self _ _ _, Nat.le_succ _⟩)

/-- Nor does a change of the user's columns, the password among them. -/
theorem proper_patch (id : Uuid) (update : UserUpdate) : Proper S s (patch S env s id update) := by
  rw [patch]
  split
  · rename_i user hu
    exact proper_of_issued_eq (evolves_setUser (.inl ⟨user, hu, le_refl _⟩)) rfl
  · exact proper_of_issued_eq (.refl S s) rfl

/-- A token that is accepted names a stored user. -/
theorem read_token_eq_some {token : AccessToken} (h : read_token env s token = some user) :
    s.users token.sub = some user := by
  rw [read_token] at h
  split at h
  · cases h
  · exact (Option.filter_eq_some_iff.mp h).1

/-- The user of a request with a bearer is stored under the name in its token. -/
theorem current_active_user_eq_some {token : AccessToken}
    (h : current_active_user env s token = some user) : s.users token.sub = some user :=
  read_token_eq_some (Option.filter_eq_some_iff.mp h).1

/-- **What any request can do** to versions, tokens and what has been handed out. -/
theorem proper_handle (hf : FreshDraws S env s) (request : Request) :
    Proper S s (handle S env s request) := by
  have hsame : ∀ response, Proper S s (s, response) := fun _ => proper_of_issued_eq (.refl S s) rfl
  rw [handle.eq_def]
  split
  · exact hsame _
  · cases request with
    | register password =>
        exact proper_of_issued_eq (evolves_setUser (.inr hf.user_new)) rfl
    | login id password => exact proper_login hf id password
    | refresh token => exact proper_refresh hf token
    | logout access token =>
        simp only
        split
        · rw [revoke_family_of]
          split
          · exact proper_of_issued_eq (evolves_revoke S s _) rfl
          · exact hsame _
        · exact hsame _
    | logout_all access =>
        simp only
        split
        · rename_i user huser
          have hu := current_active_user_eq_some huser
          refine proper_of_issued_eq (Evolves.trans ?_ (evolves_revoke S _ _)) rfl
          exact evolves_setUser (.inl ⟨user, hu, Nat.le_succ _⟩)
        · exact hsame _
    | reset_password id fingerprint password => exact proper_reset_password id fingerprint password
    | patch_me access update =>
        simp only
        split
        · exact proper_patch _ _
        · exact hsame _
    | patch_user access id update =>
        simp only
        split
        · exact proper_patch _ _
        · exact hsame _
    | delete_user access id =>
        simp only
        split
        · exact proper_of_issued_eq (evolves_deleteUser S s id) rfl
        · exact hsame _
    | other => exact hsame _

/-! ### Sequences of requests -/

/-- What a step of the sequence is: a request with fresh draws, handled as a whole. -/
theorem step_spec {a : Request × Env} {t : Unit} (h : (program S).step c t a = some d) :
    FreshDraws S a.2 c.shared ∧ d.shared = (handle S a.2 c.shared a.1).1 := by
  obtain ⟨g, l, hexec, rfl⟩ := Program.step_eq_some_iff.mp h
  simp only [program] at hexec
  split at hexec
  · rename_i hfresh
    exact ⟨freshDraws_of_fresh hfresh, (congrArg Prod.fst (Option.some.inj hexec)).symm⟩
  · cases hexec

/-- Along any sequence of requests a state evolves. -/
theorem evolves_of_run (h : (program S).Run Any c d) : Evolves S c.shared d.shared := by
  induction h with
  | refl => exact .refl S _
  | step _ _ hstep ih =>
      obtain ⟨hf, hd⟩ := step_spec hstep
      rw [hd]
      exact ih.trans (proper_handle hf _).evolves

/-- What has been handed out is genuine at all times. -/
theorem genuine_of_run (h : (program S).Run Any init c) : ∀ i ∈ c.shared.issued,
    Genuine S c.shared i := by
  induction h with
  | refl => exact fun i hi => nomatch hi
  | @step c d t a _ _ hstep ih =>
      obtain ⟨hf, hd⟩ := step_spec hstep
      rw [hd]
      intro i hi
      have hproper := proper_handle hf a.1
      rcases hproper.genuine i hi with hi' | hgenuine
      · exact hproper.evolves.genuine hi' (ih i hi')
      · exact hgenuine

/-! ### Changes of a password hash -/

/-- The password hash of a user has changed from `s` to `s'`. -/
def HashChanged (s s' : State) (id : Uuid) : Prop :=
  ∃ user user', s.users id = some user ∧ s'.users id = some user' ∧
    user'.hashed_password ≠ user.hashed_password

/-- A password reset whose hook succeeds: the condition on a request that changes a hash. -/
def ResetWithHook (a : Request × Env) : Prop :=
  match a.1 with
  | .reset_password _ _ _ => a.2.hook_fails = false
  | _ => False

/-- The version of the user and the tokens are as they were. -/
structure Steady (s s' : State) (id : Uuid) : Prop where
  version : ∀ {user}, s.users id = some user →
    ∃ user', s'.users id = some user' ∧ user'.token_version = user.token_version
  tokens : ∀ {k row}, s.refresh_tokens k = some row → s'.refresh_tokens k = some row

/-- The version has moved on and the rows of the user are revoked. -/
structure Ended (s s' : State) (id : Uuid) : Prop where
  version : ∃ user user', s.users id = some user ∧ s'.users id = some user' ∧
    user.token_version < user'.token_version
  tokens : ∀ {k row'}, s'.refresh_tokens k = some row' → row'.user_id = id → row'.revoked = true

/-- A user that is as before has no other hash. -/
theorem not_hashChanged (h : s'.users id = s.users id) : ¬ HashChanged s s' id := by
  rintro ⟨user, user', hu, hu', hne⟩
  rw [h] at hu'
  exact hne (congrArg User.hashed_password (Option.some.inj (hu'.symm.trans hu)))

/-- A user who is created or deleted does not change a hash. -/
theorem not_hashChanged_of_gone {id₀ : Uuid} (hkept : ∀ id, id ≠ id₀ → s'.users id = s.users id)
    (hgone : s.users id₀ = none ∨ s'.users id₀ = none) : ¬ HashChanged s s' id := by
  by_cases hid : id = id₀
  · subst hid
    rintro ⟨user, user', hu, hu', -⟩
    rcases hgone with h | h
    · rw [h] at hu
      cases hu
    · rw [h] at hu'
      cases hu'
  · exact not_hashChanged (hkept id hid)

/-- Only the row of one user is written, under its version. -/
theorem steady_setUser {id₀ : Uuid} (hu : s.users id₀ = some user)
    (hversion : user'.token_version = user.token_version) (id : Uuid) :
    Steady s (s.setUser id₀ user') id where
  version {user₁} hu₁ := by
    by_cases hid : id = id₀
    · subst hid
      obtain rfl := Option.some.inj (hu.symm.trans hu₁)
      exact ⟨user', Function.update_self _ _ _, hversion⟩
    · exact ⟨user₁, (Function.update_of_ne hid _ _).trans hu₁, rfl⟩
  tokens hr := hr

/-- A login writes one user, under its version, and adds a token. -/
theorem steady_login (hf : FreshDraws S env s) (id₀ : Uuid) (password : String) (id : Uuid) :
    Steady s (login S env s id₀ password).1 id := by
  rw [login]
  split
  · exact ⟨fun hu => ⟨_, hu, rfl⟩, fun hr => hr⟩
  · rename_i user' hauth
    obtain ⟨user, hu, hversion, -⟩ := authenticate_eq_some hauth
    have hset := steady_setUser hu hversion id
    split
    · refine ⟨hset.version, fun {k row} hr => ?_⟩
      have hk : k ≠ S.sha256 env.token := by
        rintro rfl
        rw [hf.token] at hr
        cases hr
      exact (Function.update_of_ne hk _ _).trans hr
    · exact hset

/-- **A new password ends no session**: the routes that change the columns of a user touch neither
its version nor its tokens. -/
theorem steady_patch (id₀ : Uuid) (update : UserUpdate) (id : Uuid) :
    Steady s (patch S env s id₀ update).1 id := by
  rw [patch]
  split
  · rename_i user hu
    have hversion : (updateUser S env update user).token_version = user.token_version := rfl
    exact steady_setUser hu hversion id
  · exact ⟨fun hu => ⟨_, hu, rfl⟩, fun hr => hr⟩

/-- Storing other columns of a user does not change its hash. -/
theorem not_hashChanged_setUser {id₀ : Uuid} (hu : s.users id₀ = some user)
    (hhash : user'.hashed_password = user.hashed_password) :
    ¬ HashChanged s (s.setUser id₀ user') id := by
  rintro ⟨user₁, user₂, hu₁, hu₂, hne⟩
  simp only [State.setUser, Function.update_apply] at hu₂
  split at hu₂
  · rename_i hid
    rw [hid] at hu₁
    obtain rfl := Option.some.inj (hu.symm.trans hu₁)
    obtain rfl := Option.some.inj hu₂
    exact hne hhash
  · exact hne (congrArg User.hashed_password (Option.some.inj (hu₂.symm.trans hu₁)))

/-- A rotation changes no user. -/
theorem users_refresh (hf : FreshDraws S env s) (token : String) :
    (refresh S env s token).1.users = s.users := by
  obtain ⟨-, husers, -⟩ := rotate_spec hf token
  rw [refresh]
  split
  · rename_i s' h
    rw [h] at husers
    exact husers
  · rename_i s' id h
    rw [h] at husers
    split <;> exact husers

/-- A reset changes the row of its user, and its hook ends the sessions. -/
theorem reset_cases {id₀ : Uuid} {fingerprint password : String}
    (hchange : HashChanged s (reset_password S env s id₀ fingerprint password).1 id) :
    (env.hook_fails = false ∧ Ended s (reset_password S env s id₀ fingerprint password).1 id) ∨
      env.hook_fails = true ∧
        Steady s (reset_password S env s id₀ fingerprint password).1 id := by
  rw [reset_password] at hchange ⊢
  split at hchange
  · exact absurd hchange (not_hashChanged rfl)
  · rename_i user huser
    have hu := (Option.filter_eq_some_iff.mp huser).1
    simp only at hchange ⊢
    split at hchange
    · rename_i hfails
      have hversion : ({ user with hashed_password := S.hash env.salt password } :
          User).token_version = user.token_version := rfl
      rw [if_pos hfails]
      exact .inr ⟨hfails, steady_setUser hu hversion id⟩
    · rename_i hfails
      rw [if_neg hfails]
      by_cases hid : id = id₀
      · subst hid
        refine .inl ⟨Bool.eq_false_iff.mpr hfails, ⟨user, _, hu, Function.update_self _ _ _,
          Nat.lt_succ_self _⟩, fun {k row'} hr howner => ?_⟩
        obtain ⟨row, -, rfl⟩ := Option.map_eq_some_iff.mp hr
        split at howner
        · rename_i hcovers
          rw [if_pos hcovers]
        · rename_i hcovers
          exact absurd (decide_eq_true howner) hcovers
      · refine absurd hchange (not_hashChanged ?_)
        simp [on_after_reset_password, State.revoke, State.setUser, hid]

/-- **What changes a hash.** A request that changes the hash of a user is a reset with its hook,
which ends the sessions, or it is not and leaves them as they are. -/
theorem change_cases (hf : FreshDraws S env s) (request : Request)
    (hchange : HashChanged s (handle S env s request).1 id) :
    (ResetWithHook (request, env) ∧ Ended s (handle S env s request).1 id) ∨
      (¬ ResetWithHook (request, env) ∧ Steady s (handle S env s request).1 id) := by
  have hsame : ∀ {s' : State}, s'.users = s.users → HashChanged s s' id → False :=
    fun h hchange => not_hashChanged (congrFun h id) hchange
  rw [handle.eq_def] at hchange ⊢
  split at hchange
  · exact (hsame rfl hchange).elim
  · rename_i hrefused
    rw [if_neg hrefused]
    cases request with
    | register password =>
        refine (not_hashChanged_of_gone (fun id hid => ?_) (.inl hf.user) hchange).elim
        exact Function.update_of_ne hid _ _
    | login id₀ password => exact .inr ⟨fun h => h, steady_login hf id₀ password id⟩
    | refresh token => exact (hsame (users_refresh hf token) hchange).elim
    | logout access token =>
        simp only at hchange
        split at hchange
        · refine (hsame ?_ hchange).elim
          rw [revoke_family_of]
          split <;> rfl
        · exact (hsame rfl hchange).elim
    | logout_all access =>
        simp only at hchange
        split at hchange
        · rename_i user huser
          have hnot : ¬ HashChanged s
              (s.setUser access.sub { user with token_version := user.token_version + 1 }) id :=
            not_hashChanged_setUser (current_active_user_eq_some huser) rfl
          exact (hnot hchange).elim
        · exact (hsame rfl hchange).elim
    | reset_password id₀ fingerprint password =>
        rcases reset_cases hchange with ⟨hhook, hended⟩ | ⟨hfails, hsteady⟩
        · exact .inl ⟨hhook, hended⟩
        · refine .inr ⟨fun hhook => ?_, hsteady⟩
          rw [ResetWithHook, hfails] at hhook
          cases hhook
    | patch_me access update =>
        simp only at hchange ⊢
        split at hchange
        · exact .inr ⟨fun h => h, steady_patch _ _ _⟩
        · exact (hsame rfl hchange).elim
    | patch_user access id₀ update =>
        simp only at hchange ⊢
        split at hchange
        · exact .inr ⟨fun h => h, steady_patch _ _ _⟩
        · exact (hsame rfl hchange).elim
    | delete_user access id₀ =>
        simp only at hchange
        split at hchange
        · have hgone : (s.deleteUser id₀).users id₀ = none := Function.update_self _ _ _
          refine (not_hashChanged_of_gone (fun id hid => ?_) (.inr hgone) hchange).elim
          exact Function.update_of_ne hid _ _
        · exact (hsame rfl hchange).elim
    | other => exact (hsame rfl hchange).elim

/-! ### Sessions after a change -/

/-- The end of the sessions rejects what has been handed out before. -/
theorem Ended.rejected (h : Ended s s' i.1) (hg : Genuine S s' i) (hg₀ : Genuine S s i) :
    Rejected S s' i.2 := by
  obtain ⟨user, user', hu, hu', hlt⟩ := h.version
  have hversion := hg₀.version hu
  intro env
  refine ⟨?_, Option.eq_none_iff_forall_ne_some.mpr fun id hid => ?_⟩
  · refine read_token_eq_none_iff.mpr (.inr ?_)
    rw [hg.sub]
    intro user₁ hu₁
    obtain rfl := Option.some.inj (hu'.symm.trans hu₁)
    omega
  · obtain ⟨row, hrow, -, hclaimable, -⟩ := rotate_eq_some.mp hid
    have hrevoked := h.tokens hrow (hg.owner hrow)
    simp [RefreshToken.claimable, hrevoked] at hclaimable

/-- Where version and tokens are as they were, what is accepted stays accepted. -/
theorem Steady.rejected (h : Steady s s' i.1) (hg : Genuine S s i) (hr : Rejected S s' i.2) :
    Rejected S s i.2 := by
  intro env
  refine ⟨?_, Option.eq_none_iff_forall_ne_some.mpr fun id hid => ?_⟩
  · refine read_token_eq_none_iff.mpr ((read_token_eq_none_iff.mp (hr env).1).imp_right ?_)
    rw [hg.sub]
    intro hread user hu
    obtain ⟨user', hu', hversion⟩ := h.version hu
    rw [← hversion]
    exact hread user' hu'
  · obtain ⟨row, hrow, hlive, hclaimable, howner⟩ := rotate_eq_some.mp hid
    have hsome := rotate_eq_some.mpr ⟨row, h.tokens hrow, hlive, hclaimable, howner⟩
    rw [(hr env).2] at hsome
    cases hsome

/-- **What ends the sessions of a user.** Take any sequence of requests, and a request that
changes the password hash of a user. All token pairs that have been handed out to the user
before it are rejected after it, whatever requests follow, if and only if the request is a
password reset whose hook succeeds, or all these pairs have been rejected already. -/
theorem sessions_ended_iff (h : (program S).Run Any init c) {a : Request × Env}
    (hstep : (program S).step c () a = some d) (hchange : HashChanged c.shared d.shared id) :
    (∀ e, (program S).Run Any d e → ∀ pair, (id, pair) ∈ c.shared.issued →
        Rejected S e.shared pair) ↔
      ResetWithHook a ∨ ∀ pair, (id, pair) ∈ c.shared.issued → Rejected S c.shared pair := by
  obtain ⟨hf, hd⟩ := step_spec hstep
  have hissued : c.shared.issued ⊆ d.shared.issued := by
    rw [hd]
    exact (proper_handle hf a.1).evolves.issued
  have hgenuine := genuine_of_run h
  have hgenuine' := genuine_of_run (h.step trivial hstep)
  have hcases : (ResetWithHook a ∧ Ended c.shared d.shared id) ∨
      (¬ ResetWithHook a ∧ Steady c.shared d.shared id) := by
    rw [hd] at hchange ⊢
    exact change_cases hf a.1 hchange
  constructor
  · intro hrejected
    rcases hcases with ⟨hreset, -⟩ | ⟨-, hsteady⟩
    · exact .inl hreset
    · refine .inr fun pair hpair => ?_
      exact hsteady.rejected (hgenuine _ hpair) (hrejected d (.refl d) pair hpair)
  · intro hor e hde pair hpair
    have hnow : Rejected S d.shared pair := by
      rcases hor with hreset | hdead
      · rcases hcases with ⟨-, hended⟩ | ⟨hnot, -⟩
        · exact hended.rejected (i := (id, pair)) (hgenuine' _ (hissued hpair))
            (hgenuine _ hpair)
        · exact absurd hreset hnot
      · rw [hd]
        exact (proper_handle hf a.1).evolves.rejected (i := (id, pair)) hpair (hgenuine _ hpair)
          (hdead pair hpair)
    exact (evolves_of_run hde).rejected (i := (id, pair)) (hissued hpair)
      (hgenuine' _ (hissued hpair)) hnow

/-! ### Two sequences -/

/-- Settings under which sequences are evaluated: passwords stand for their hashes. -/
def plainSettings : Settings :=
  ⟨100, 1000, fun token => token, fun _ plain => plain, fun _ plain hashed =>
    (plain = hashed, none)⟩

/-- A request at time 5; `n` numbers the user, the family and the tokens that it may draw. -/
def at5 (n : ℕ) (token : String) : Env := ⟨5, 0, token, token, Uuid.ofNat n, false, false, false⟩

/-- A user registers and logs in. -/
def loggedIn : List (Unit × (Request × Env)) :=
  [((), (.register "old", at5 1 "x")), ((), (.login (Uuid.ofNat 1) "old", at5 2 "r"))]

/-- The access token of that login. -/
def firstToken : AccessToken := ⟨Uuid.ofNat 1, 0, "r", 105⟩

set_option maxRecDepth 10000 in
/-- A reset ends the session of a login. -/
theorem sessions_ended_iff_reset :
    ∃ d : Config Unit State Response, (program plainSettings).Run Any init d ∧
      (Uuid.ofNat 1, ⟨firstToken, "r"⟩) ∈ d.shared.issued ∧
        Rejected plainSettings d.shared ⟨firstToken, "r"⟩ := by
  have hreplay : ((program plainSettings).replay Any init loggedIn).any (fun c =>
      decide ((Uuid.ofNat 1, ⟨firstToken, "r"⟩) ∈ c.shared.issued ∧
        (c.shared.users (Uuid.ofNat 1)).map User.hashed_password = some "old") &&
      ((program plainSettings).step c ()
        (.reset_password (Uuid.ofNat 1) "old" "new", at5 3 "y")).any fun d =>
          (d.shared.users (Uuid.ofNat 1)).map User.hashed_password = some "new") = true := by
    decide
  obtain ⟨c, hrun, hc⟩ := Program.exists_run_of_replay hreplay
  simp only [Bool.and_eq_true, decide_eq_true_eq, Option.any_eq_true,
    Option.map_eq_some_iff] at hc
  obtain ⟨⟨hissued, user, hu, hold⟩, d, hstep, user', hu', hnew⟩ := hc
  have hchange : HashChanged c.shared d.shared (Uuid.ofNat 1) := by
    refine ⟨user, user', hu, hu', ?_⟩
    rw [hold, hnew]
    decide
  obtain ⟨hf, hd⟩ := step_spec hstep
  refine ⟨d, hrun.step trivial hstep, ?_,
    (sessions_ended_iff hrun hstep hchange).mpr (.inl rfl) d (.refl d) _ hissued⟩
  rw [hd]
  exact (proper_handle hf _).evolves.issued hissued

set_option maxRecDepth 10000 in
/-- The user changes the password with `PATCH /users/me`. Both tokens of the login before the
change are accepted after it. -/
theorem sessions_survive_patch :
    ∃ (c d : Config Unit State Response) (id : Uuid) (pair : TokenPair) (env : Env)
      (update : UserUpdate),
      (program plainSettings).Run Any init c ∧ (id, pair) ∈ c.shared.issued ∧
        (program plainSettings).step c () (.patch_me pair.access_token update, env) = some d ∧
        HashChanged c.shared d.shared id ∧
        (read_token env d.shared pair.access_token).isSome = true ∧
        (rotate_refresh_token plainSettings env d.shared pair.refresh_token).2 = some id := by
  have hreplay : ((program plainSettings).replay Any init loggedIn).any (fun c =>
      decide ((Uuid.ofNat 1, ⟨firstToken, "r"⟩) ∈ c.shared.issued ∧
        (c.shared.users (Uuid.ofNat 1)).map User.hashed_password = some "old") &&
      ((program plainSettings).step c ()
        (.patch_me firstToken ⟨some "new", none, none⟩, at5 3 "y")).any fun d =>
          decide ((d.shared.users (Uuid.ofNat 1)).map User.hashed_password = some "new" ∧
            (read_token (at5 3 "y") d.shared firstToken).isSome = true ∧
            (rotate_refresh_token plainSettings (at5 3 "y") d.shared "r").2 =
              some (Uuid.ofNat 1))) = true := by
    decide
  obtain ⟨c, hrun, hc⟩ := Program.exists_run_of_replay hreplay
  simp only [Bool.and_eq_true, decide_eq_true_eq, Option.any_eq_true,
    Option.map_eq_some_iff] at hc
  obtain ⟨⟨hissued, user, hu, hold⟩, d, hstep, ⟨user', hu', hnew⟩, hread, hrotate⟩ := hc
  refine ⟨c, d, _, ⟨firstToken, "r"⟩, _, _, hrun, hissued, hstep, ⟨user, user', hu, hu', ?_⟩,
    hread, hrotate⟩
  rw [hold, hnew]
  decide

end BackendManager.Users.Credentials
