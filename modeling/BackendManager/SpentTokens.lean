import BackendManager.Revocation

/-!
# What the Session Endpoints Do to `used_at`

A second outline of the session endpoints, over the one of the rows they hold. `Spends` says
which versions they have written, column by column: a rotation marks as used one token that
is neither used nor revoked, and adds a token that is neither; a login adds one; a
revocation sets `revoked` in rows of its scope and leaves the other columns alone.

A rotation claims its token under the row lock, so that of two rotations of one token the second
reads what the first has committed. What is proved here of one action is that it never unsets
`used_at` and never creates a row that is used, and that only a rotation sets it. The
consequence is used for the chain of a family: a token that has a successor cannot be exchanged
again.

## Main results

* `spends_of_run`: the outline along every run.
* `Effect`, `effect_of_exec`: what an action does to the committed tokens.
* `Spent.run`, `Spent.view`: a token that is used stays used, for every request.
-/

namespace BackendManager.Users

open ReadCommitted Interleaving

variable {T : Type} [DecidableEq T] {S : Settings} {t u : T} {tokens tokens' : Tokens T}
  {c d e : Config T (Tokens T) Proc} {a : Act} {p p' : Proc} {j k : String}
  {r r₀ row : RefreshToken} {scope : Scope} {response : Response} {env : Env}

/-! ### Assertions -/

/-- `t` has claimed row `k`, a token of the user and family of `row`. -/
def Takes (t : T) (tokens : Tokens T) (k : String) (row : RefreshToken) : Prop :=
  ∃ r₀ now, tokens.committed k = some r₀ ∧ r₀.claimable = true ∧ r₀.Kin row ∧
    tokens.written t k = some (some { r₀ with used_at := some now })

/-- `t` has inserted the unused `row` as row `k`. -/
def Adds (t : T) (tokens : Tokens T) (k : String) (row : RefreshToken) : Prop :=
  tokens.committed k = none ∧ row.claimable = true ∧ tokens.written t k = some (some row)

/-- Row `k` is committed and in the scope. -/
def InScope (tokens : Tokens T) (scope : Scope) (k : String) : Prop :=
  ∃ r₀, tokens.committed k = some r₀ ∧ scope.covers r₀ = true

/-- Whatever `t` has written is a row of the scope with `revoked` set. -/
def Marks (t : T) (tokens : Tokens T) (scope : Scope) : Prop :=
  ∀ k v, tokens.written t k = some v → ∃ r₀, tokens.committed k = some r₀ ∧
    scope.covers r₀ = true ∧ v = some { r₀ with revoked := true }

/-- The assertion of a request: the versions it has written. -/
def Spends (S : Settings) (t : T) (tokens : Tokens T) : Proc → Prop
  | .mint row => ∃ k, Takes t tokens k row ∧ ∀ j, j ≠ k → tokens.written t j = none
  | .issued row token true =>
      ∃ k, Takes t tokens k row ∧ Adds t tokens (S.hash token) row ∧
        ∀ j, j ≠ k → j ≠ S.hash token → tokens.written t j = none
  | .issued row token false =>
      Adds t tokens (S.hash token) row ∧ ∀ j, j ≠ S.hash token → tokens.written t j = none
  | .revoking scope _ todo =>
      (∀ k ∈ todo, InScope tokens scope k) ∧ Marks t tokens scope
  | .revoked scope _ => Marks t tokens scope
  | _ => True

/-- A request writes a row because it claims it, adds it or revokes it. -/
theorem Spends.written (hL : Loc S t tokens p) (hs : Spends S t tokens p)
    {w : Option RefreshToken} (hw : tokens.written t k = some w) :
    (∃ row, Takes t tokens k row) ∨ (∃ row, Adds t tokens k row) ∨
      ∃ scope, p.revokes = some scope ∧ Marks t tokens scope := by
  have hclean : tokens.written t k ≠ none := by
    rw [hw]
    exact Option.some_ne_none w
  cases p with
  | idle | login _ | refresh _ | logout _ | revoke _ _ | finish _ | returned _ | raised =>
      exact absurd (hL k) hclean
  | claim token row | claimLock token row => exact absurd (hL.1 k) hclean
  | mint row =>
      obtain ⟨j, htake, hsole⟩ := hs
      obtain rfl : k = j := by
        by_contra hj
        exact hclean (hsole k hj)
      exact .inl ⟨row, htake⟩
  | issued row token rotated =>
      cases rotated with
      | true =>
          obtain ⟨j, htake, hadd, hsole⟩ := hs
          by_cases hj' : k = S.hash token
          · exact .inr (.inl ⟨row, hj' ▸ hadd⟩)
          · obtain rfl : k = j := by
              by_contra hj
              exact hclean (hsole k hj hj')
            exact .inl ⟨row, htake⟩
      | false =>
          obtain ⟨hadd, hsole⟩ := hs
          obtain rfl : k = S.hash token := by
            by_contra hj
            exact hclean (hsole k hj)
          exact .inr (.inl ⟨row, hadd⟩)
  | revoking scope response todo => exact .inr (.inr ⟨scope, rfl, hs.2⟩)
  | revoked scope response => exact .inr (.inr ⟨scope, rfl, hs⟩)

/-! ### Interference freedom -/

/-- **Interference freedom.** The assertion of a request survives every step that leaves it
undisturbed. -/
theorem Undisturbed.spends (h : Undisturbed u tokens tokens') (hs : Spends S u tokens p) :
    Spends S u tokens' p := by
  have htakes : ∀ {k row}, Takes u tokens k row → Takes u tokens' k row := by
    rintro k row ⟨r₀, now, hr₀, hlive, hkin, hw⟩
    exact ⟨r₀, now, by rw [h.held hw, hr₀], hlive, hkin, by rw [h.written, hw]⟩
  have hadds : ∀ {k row}, Adds u tokens k row → Adds u tokens' k row := by
    rintro k row ⟨hnone, hlive, hw⟩
    exact ⟨by rw [h.held hw, hnone], hlive, by rw [h.written, hw]⟩
  have hscope : ∀ {scope k}, InScope tokens scope k → InScope tokens' scope k := by
    rintro scope k ⟨r₀, hr₀, hcov⟩
    obtain ⟨r', hr', hkin⟩ := h.kin hr₀
    exact ⟨r', hr', by rw [Scope.covers_of_kin hkin, hcov]⟩
  have hmarks : ∀ {scope}, Marks u tokens scope → Marks u tokens' scope := by
    intro scope hm k v hv
    rw [h.written] at hv
    obtain ⟨r₀, hr₀, hrest⟩ := hm k v hv
    exact ⟨r₀, by rw [h.held hv, hr₀], hrest⟩
  have hsole : ∀ {j}, tokens.written u j = none → tokens'.written u j = none := by
    intro j hj
    rw [h.written, hj]
  cases p with
  | mint row =>
      obtain ⟨k, htake, hrest⟩ := hs
      exact ⟨k, htakes htake, fun j hj => hsole (hrest j hj)⟩
  | issued row token rotated =>
      cases rotated with
      | true =>
          obtain ⟨k, htake, hadd, hrest⟩ := hs
          exact ⟨k, htakes htake, hadds hadd, fun j hj hj' => hsole (hrest j hj hj')⟩
      | false =>
          obtain ⟨hadd, hrest⟩ := hs
          exact ⟨hadds hadd, fun j hj => hsole (hrest j hj)⟩
  | revoking scope response todo => exact ⟨fun k hk => hscope (hs.1 k hk), hmarks hs.2⟩
  | revoked scope response => exact hmarks hs
  | _ => trivial

/-! ### Local correctness -/

/-- The claim. -/
theorem spends_of_claim {token : String} (hL : Loc S t tokens (.claimLock token row))
    (hr : tokens.view t (S.hash token) = some r) (hclaim : r.claimable = true)
    (hput : tokens.put t (S.hash token) (some { r with used_at := some env.now }) =
      some tokens') : Spends S t tokens' (.mint row) := by
  obtain ⟨hun, r₀, hr₀, hkin⟩ := hL
  rw [hun.view, hr₀, Option.some.injEq] at hr
  subst hr
  refine ⟨S.hash token, ⟨r₀, env.now, ?_, hclaim, hkin, Table.written_put_self hput⟩,
    fun j hj => ?_⟩
  · rw [Table.committed_put hput, hr₀]
  · rw [Table.written_put_of_key_ne hput hj, hun j]

/-- The `INSERT` of a first token. -/
theorem spends_of_login {user_id : Uuid} (hun : tokens.Untouched t)
    (hv : tokens.view t (S.hash env.token) = none)
    (hput : tokens.put t (S.hash env.token) (some (newToken S env user_id none)) = some tokens') :
    Spends S t tokens' (.issued (newToken S env user_id none) env.token false) := by
  refine ⟨⟨?_, rfl, Table.written_put_self hput⟩, fun j hj => ?_⟩
  · rw [Table.committed_put hput, ← hun.view, hv]
  · rw [Table.written_put_of_key_ne hput hj, hun j]

/-- The `INSERT` of a successor. -/
theorem spends_of_mint (hs : Spends S t tokens (.mint row))
    (hv : tokens.view t (S.hash env.token) = none)
    (hput : tokens.put t (S.hash env.token)
      (some (newToken S env row.user_id (some row.family_id))) = some tokens') :
    Spends S t tokens'
      (.issued (newToken S env row.user_id (some row.family_id)) env.token true) := by
  obtain ⟨k, ⟨r₀, now, hr₀, hlive, hkin, hw⟩, hsole⟩ := hs
  -- the claimed row is visible to `t`, so the successor goes under another hash
  have hne : S.hash env.token ≠ k := by
    intro he
    rw [he, Table.view_of_written hw] at hv
    cases hv
  refine ⟨k, ⟨r₀, now, ?_, hlive, hkin, ?_⟩, ⟨?_, rfl, Table.written_put_self hput⟩,
    fun j hj hj' => ?_⟩
  · rw [Table.committed_put hput, hr₀]
  · rw [Table.written_put_of_key_ne hput hne.symm, hw]
  · rw [Table.committed_put hput, ← Table.view_of_written_eq_none (hsole _ hne), hv]
  · rw [Table.written_put_of_key_ne hput hj', hsole j hj]

/-- The row that a revocation sees, written by itself or committed. -/
theorem Marks.view (hm : Marks t tokens scope) (hr : tokens.view t k = some r) :
    ∃ r₀, tokens.committed k = some r₀ ∧ { r with revoked := true } =
      { r₀ with revoked := true } := by
  cases hw : tokens.written t k with
  | none =>
      rw [Table.view_of_written_eq_none hw] at hr
      exact ⟨r, hr, rfl⟩
  | some w =>
      obtain ⟨r₀, hr₀, -, rfl⟩ := hm k w hw
      rw [Table.view_of_written hw, Option.some.injEq] at hr
      exact ⟨r₀, hr₀, by rw [← hr]⟩

/-- One row of a revocation. -/
theorem marks_of_put (hk : InScope tokens scope k) (hmarks : Marks t tokens scope)
    (hr : tokens.view t k = some r)
    (hput : tokens.put t k (some { r with revoked := true }) = some tokens') :
    Marks t tokens' scope := by
  obtain ⟨r₀, hr₀, heq⟩ := hmarks.view hr
  intro j v hv
  rw [Table.committed_put hput]
  by_cases hj : j = k
  · subst hj
    rw [Table.written_put_self hput, Option.some.injEq] at hv
    obtain ⟨r₁, hr₁, hcov⟩ := hk
    obtain rfl : r₀ = r₁ := Option.some.inj (hr₀.symm.trans hr₁)
    exact ⟨r₀, hr₀, hcov, by rw [← hv, heq]⟩
  · rw [Table.written_put_of_key_ne hput hj] at hv
    exact hmarks j v hv

theorem spends_of_bare (hp : p.bare = true) : Spends S t tokens p := by
  cases p with
  | login _ | refresh _ | logout _ | revoke _ _ | finish _ => trivial
  | _ => cases hp

/-- **Local correctness.** Every step establishes the next assertion of its request. -/
theorem Step.spends (h : Step S t tokens a p tokens' p') (hL : Loc S t tokens p)
    (hs : Spends S t tokens p) : Spends S t tokens' p' := by
  cases h with
  | pass hreading hbare => exact spends_of_bare hbare
  | rollback | commit | select | snapshot => trivial
  | login hfresh hv hput => exact spends_of_login hL hv hput
  | claim hr hclaim hput => exact spends_of_claim hL hr hclaim hput
  | mint hv hput => exact spends_of_mint hs hv hput
  | scan =>
      have hun : tokens.Untouched t := hL
      refine ⟨fun k hk => ?_, fun k v hv => absurd hv hun.not_written⟩
      obtain ⟨r₀, hr₀, hcov⟩ := Table.mem_scan.mp hk
      rw [hun.view] at hr₀
      exact ⟨r₀, hr₀, hcov⟩
  | revoke hk hr hput =>
      obtain ⟨hscope, hmarks⟩ := hs
      refine ⟨fun j hj => ?_, marks_of_put (hscope _ hk) hmarks hr hput⟩
      obtain ⟨r₁, hr₁, hcov⟩ := hscope j (Finset.mem_of_mem_erase hj)
      exact ⟨r₁, by rw [Table.committed_put hput, hr₁], hcov⟩
  | gone hk hnone =>
      obtain ⟨hscope, hmarks⟩ := hs
      exact ⟨fun j hj => hscope j (Finset.mem_of_mem_erase hj), hmarks⟩
  | revoked => exact hs.2

/-- The outline of both assertions, for any condition on the schedules. -/
theorem spends_outline (S : Settings) (ok : Config T (Tokens T) Proc → T → Act → Prop) :
    (program S).Outline ok OwnedFamilies fun u tokens p =>
      Loc S u tokens p ∧ Spends S u tokens p where
  step _ ho hL h :=
    ⟨ho.of_exec (hL _).1 h, (step_of_exec h).loc (hL _).1,
      (step_of_exec h).spends (hL _).1 (hL _).2⟩
  frame hu hok ho hL h :=
    ⟨(outline S ok).frame hu hok ho (fun v => (hL v).1) h,
      (undisturbed_of_exec (hL _).1 h hu).spends (hL _).2⟩

/-- **The assertions hold along every run.** -/
theorem spends_of_run {ok : Config T (Tokens T) Proc → T → Act → Prop}
    (h : (program S).Run ok init c) (u : T) : Spends S u c.shared (c.proc u) := by
  have hinit : (program S).Run ok init init := .refl (init : Config T (Tokens T) Proc)
  obtain ⟨ho, hL⟩ := sessions_of_run hinit
  exact (((spends_outline S ok).run h ho fun v => ⟨hL v, trivial⟩).2 u).2

/-! ### Commits -/

/-- What a row tells about its family and its use. -/
def RefreshToken.usage (r : RefreshToken) : Uuid × Option ℕ := (r.family_id, r.used_at)

/-- What an action does to the committed tokens of which `committed` are there before and
`committed'` after it. -/
inductive Effect (S : Settings) (p : Proc) (committed committed' : String → Option RefreshToken) :
    Prop
  /-- Nothing, apart from `revoked`. -/
  | keep (h : ∀ k, (committed' k).map RefreshToken.usage = (committed k).map RefreshToken.usage)
  /-- It commits a rotation: `k` is used, and its successor is there. -/
  | rotate (k : String) (r₀ : RefreshToken) (now : ℕ) (row : RefreshToken) (token : String)
      (proc : p = .issued row token true) (found : committed k = some r₀)
      (live : r₀.claimable = true) (kin : r₀.Kin row) (absent : committed (S.hash token) = none)
      (unused : row.claimable = true)
      (eq : committed' = Function.update
        (Function.update committed k (some { r₀ with used_at := some now })) (S.hash token)
          (some row))
  /-- It commits a login: the first token of a family is there. -/
  | login (row : RefreshToken) (token : String) (proc : p = .issued row token false)
      (first : ∀ k r, committed k = some r → r.family_id ≠ row.family_id)
      (absent : committed (S.hash token) = none) (unused : row.claimable = true)
      (eq : committed' = Function.update committed (S.hash token) (some row))

/-- The commit of a revocation changes no usage. -/
theorem Marks.usage (hm : Marks t tokens scope) (k : String) :
    ((tokens.commit t).committed k).map RefreshToken.usage =
      (tokens.committed k).map RefreshToken.usage := by
  rw [Table.committed_commit]
  cases hw : tokens.written t k with
  | none => rw [Table.view_of_written_eq_none hw]
  | some w =>
      obtain ⟨r₀, hr₀, -, rfl⟩ := hm k w hw
      rw [Table.view_of_written hw, hr₀]
      rfl

/-- The commit of a rotation. -/
theorem effect_of_rotation {token : String} (hs : Spends S t tokens (.issued row token true)) :
    Effect S (.issued row token true) tokens.committed (tokens.commit t).committed := by
  obtain ⟨k, ⟨r₀, now, hr₀, hlive, hkin, hw⟩, ⟨hnone, hunused, hw'⟩, hsole⟩ := hs
  refine .rotate k r₀ now row token rfl hr₀ hlive hkin hnone hunused (funext fun j => ?_)
  rw [Table.committed_commit]
  by_cases hj' : j = S.hash token
  · rw [hj', Table.view_of_written hw', Function.update_self]
  · rw [Function.update_of_ne hj']
    by_cases hj : j = k
    · rw [hj, Table.view_of_written hw, Function.update_self]
    · rw [Table.view_of_written_eq_none (hsole j hj hj'), Function.update_of_ne hj]

/-- The commit of a login. -/
theorem effect_of_login {token : String} (hL : Loc S t tokens (.issued row token false))
    (hs : Spends S t tokens (.issued row token false)) :
    Effect S (.issued row token false) tokens.committed (tokens.commit t).committed := by
  obtain ⟨⟨hnone, hunused, hw⟩, hsole⟩ := hs
  obtain ⟨-, -, hfamily, -⟩ := hL
  exact .login row token rfl (fun _ _ hr => hfamily.1 hr) hnone hunused
    (Table.Sole.committed_commit ⟨hw, hsole⟩)

/-- **The effect of an action** on the committed tokens. -/
theorem effect_of_exec (hL : Loc S t tokens p) (hs : Spends S t tokens p)
    (h : exec S t a tokens p = some (tokens', p')) :
    Effect S p tokens.committed tokens'.committed := by
  rcases exec_cases h with rfl | rfl | ⟨-, hp, rfl⟩ | ⟨k, r, hput, -⟩
  · exact .keep fun _ => rfl
  · exact .keep fun k => by rw [Table.committed_rollback]
  · cases p with
    | issued row token rotated =>
        cases rotated with
        | true => exact effect_of_rotation hs
        | false => exact effect_of_login hL hs
    | revoked scope response => exact .keep (Marks.usage hs)
    | finish response =>
        have hun : tokens.Untouched t := hL
        exact .keep fun k => by rw [hun.committed_commit]
    | _ => cases hp
  · exact .keep fun k => by rw [Table.committed_put hput]

/-! ### Used tokens -/

/-- Row `k` is committed and used. -/
def Spent (k : String) (tokens : Tokens T) : Prop :=
  ∃ r, tokens.committed k = some r ∧ r.used_at ≠ none

omit [DecidableEq T] in
/-- A row that is spent cannot be claimed. -/
theorem Spent.not_claimable (h : Spent k tokens) (hr : tokens.committed k = some r) :
    r.claimable = false := by
  obtain ⟨r', hr', hused⟩ := h
  obtain rfl : r = r' := Option.some.inj (hr.symm.trans hr')
  by_contra hlive
  simp only [Bool.not_eq_false, RefreshToken.claimable_iff] at hlive
  exact hused hlive.1

/-- Usage is kept with the rest. -/
theorem usage_of_keep {committed committed' : String → Option RefreshToken}
    (h : ∀ k, (committed' k).map RefreshToken.usage = (committed k).map RefreshToken.usage)
    (hr : committed k = some r) :
    ∃ r', committed' k = some r' ∧ r'.family_id = r.family_id ∧ r'.used_at = r.used_at := by
  have hk := h k
  rw [hr, Option.map_some, Option.map_eq_some_iff] at hk
  obtain ⟨r', hr', husage⟩ := hk
  obtain ⟨hfamily, hused⟩ := Prod.mk.inj husage
  exact ⟨r', hr', hfamily, hused⟩

/-- **A used token stays used.** -/
theorem Spent.of_exec (hk : Spent k tokens) (hL : Loc S t tokens p) (hs : Spends S t tokens p)
    (h : exec S t a tokens p = some (tokens', p')) : Spent k tokens' := by
  obtain ⟨r, hr, hused⟩ := id hk
  have hne : ∀ {k'}, tokens.committed k' = none → k ≠ k' := by
    rintro k' hnone rfl
    rw [hr] at hnone
    cases hnone
  cases effect_of_exec hL hs h with
  | keep hkeep =>
      obtain ⟨r', hr', -, hsame⟩ := usage_of_keep hkeep hr
      exact ⟨r', hr', hsame ▸ hused⟩
  | rotate j r₀ now row token hp hfound hlive hkin habsent hunused heq =>
      have hj : k ≠ j := by
        rintro rfl
        rw [hk.not_claimable hfound] at hlive
        cases hlive
      exact ⟨r, by rw [heq, Function.update_of_ne (hne habsent), Function.update_of_ne hj, hr],
        hused⟩
  | login row token hp hfirst habsent hunused heq =>
      exact ⟨r, by rw [heq, Function.update_of_ne (hne habsent), hr], hused⟩

/-- The same along every run. -/
theorem Spent.run (hk : Spent k d.shared) (hcd : (program S).Run Any init d)
    (h : (program S).Run Any d e) : Spent k e.shared := by
  induction h with
  | refl => exact hk
  | step hde _ hstep ih =>
      obtain ⟨g, l, hexec, rfl⟩ := Program.step_eq_some_iff.mp hstep
      have hrun := hcd.trans hde
      exact ih.of_exec ((sessions_of_run hrun).2 _) (spends_of_run hrun _) hexec

/-- Every request sees a used token as used. -/
theorem Spent.view (hk : Spent k tokens) (hL : Loc S u tokens p) (hs : Spends S u tokens p)
    (hr : tokens.view u k = some r) : r.used_at ≠ none := by
  obtain ⟨r₁, hr₁, hused⟩ := id hk
  cases hw : tokens.written u k with
  | none =>
      rw [Table.view_of_written_eq_none hw, hr₁, Option.some.injEq] at hr
      exact hr ▸ hused
  | some w =>
      rw [Table.view_of_written hw] at hr
      rcases hs.written hL hw with ⟨row, r₀, -, hr₀, hlive, -⟩ | ⟨row, hnone, -⟩ |
        ⟨scope, -, hmarks⟩
      · rw [hk.not_claimable hr₀] at hlive
        cases hlive
      · rw [hr₁] at hnone
        cases hnone
      · obtain ⟨r₀, hr₀, -, rfl⟩ := hmarks k w hw
        obtain rfl : r₁ = r₀ := Option.some.inj (hr₁.symm.trans hr₀)
        obtain rfl := Option.some.inj hr
        exact hused

/-! ### Revoked tokens -/

/-- A revoked row was revoked before the action, or the action is the commit of a
revocation that covers it. -/
theorem revoked_origin (hL : Loc S t tokens p) (hs : Spends S t tokens p)
    (h : exec S t a tokens p = some (tokens', p')) (hr : tokens'.committed k = some r)
    (hrev : r.revoked = true) :
    (∃ r₀, tokens.committed k = some r₀ ∧ r₀.revoked = true ∧ r₀.family_id = r.family_id) ∨
      (∃ env, a = .stmt env) ∧ ∃ scope response, p = .revoked scope response ∧
        scope.covers r = true := by
  rcases exec_cases h with rfl | rfl | ⟨hstmt, hp, rfl⟩ | ⟨j, r', hput, -⟩
  · exact .inl ⟨r, hr, hrev, rfl⟩
  · exact .inl ⟨r, by simpa using hr, hrev, rfl⟩
  · rw [Table.committed_commit] at hr
    cases hw : tokens.written t k with
    | none =>
        rw [Table.view_of_written_eq_none hw] at hr
        exact .inl ⟨r, hr, hrev, rfl⟩
    | some w =>
        rw [Table.view_of_written hw] at hr
        subst hr
        rcases hs.written hL hw with ⟨row, r₀, now, -, hlive, -, hw'⟩ | ⟨row, -, hlive, hw'⟩ |
          ⟨scope, hscope, hmarks⟩
        · obtain rfl := Option.some.inj (Option.some.inj (hw.symm.trans hw'))
          rw [(RefreshToken.claimable_iff.mp hlive).2] at hrev
          cases hrev
        · obtain rfl := Option.some.inj (Option.some.inj (hw.symm.trans hw'))
          rw [(RefreshToken.claimable_iff.mp hlive).2] at hrev
          cases hrev
        · obtain ⟨r₀, -, hcov, hr₀⟩ := hmarks k _ hw
          obtain rfl := Option.some.inj hr₀
          cases p with
          | revoked scope' response =>
              obtain rfl : scope' = scope := Option.some.inj hscope
              have hkin : r₀.Kin { r₀ with revoked := true } := ⟨rfl, rfl⟩
              exact .inr ⟨hstmt, _, response, rfl, (Scope.covers_of_kin hkin).trans hcov⟩
          | revoking scope' response todo => cases hp
          | _ => cases hscope
  · exact .inl ⟨r, by rwa [Table.committed_put hput] at hr, hrev, rfl⟩

end BackendManager.Users
