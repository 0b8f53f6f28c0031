import BackendManager.SpentTokens

/-!
# Families of Refresh Tokens Are Chains

What rotations make of a family, along every run of the session endpoints. A rotation counts
as the acceptance of a token when it commits. In the same commit the token that was
presented becomes used and its successor appears, so a family is always a chain with one
unused token at its end.

In a serial run, in which one request finishes before the next one starts, this decides what
`rotate_refresh_token` accepts: no request is in flight whose rows the claim could miss, and
a revocation misses no row (`NoLateToken` holds at every step).

The invariant ties the chain of a family to its rows: all tokens but the last are used, the last
one can still be exchanged unless the family is revoked, and no other row belongs to the family.
A reuse revokes the family and mints nothing, so that a chain never branches.

## Main results

* `chains_of_trace`: each family is a chain in every committed state.
* `accepts_iff_claimable`: what the statements of a rotation do when nobody else is active.
* `single_use_chain`: each token is accepted at most once, families are chains, and a serial
  run accepts the last token of a family that is neither expired nor revoked.
-/

namespace BackendManager.Users

open ReadCommitted Interleaving

/-- A step of the session endpoints. -/
abbrev SessionStep (T : Type) := Program.Move T (Tokens T) Proc Act

variable {T : Type} {S : Settings} {t u : T} {tokens tokens' : Tokens T}
  {c d e : Config T (Tokens T) Proc} {a : Act} {p p' : Proc} {j k k' : String}
  {r r₀ row : RefreshToken} {scope : Scope} {response : Response} {env : Env}
  {m m' : SessionStep T} {moves : List (SessionStep T)} {f : Uuid} {chain : List String}
  {token : String} {now : ℕ}

/-! ### Rotations -/

/-- The step commits a rotation of token `k` into its successor `k'`. -/
structure Rotates (S : Settings) (m : SessionStep T) (k k' : String) : Prop where
  issued : ∃ row token, m.before.proc m.thread = .issued row token true ∧ S.hash token = k'
  live : ∃ r, m.before.shared.committed k = some r ∧ r.claimable = true
  absent : m.before.shared.committed k' = none
  spent : Spent k m.after.shared
  unused : ∃ r, m.after.shared.committed k' = some r ∧ r.claimable = true

/-- The chain of a family: its tokens in the order in which rotations have issued them. -/
structure Chain (S : Settings) (moves : List (SessionStep T)) (tokens : Tokens T) (f : Uuid)
    (chain : List String) : Prop where
  nodup : chain.Nodup
  /-- The tokens of the family, and no others. -/
  mem : ∀ k, k ∈ chain ↔ ∃ r, tokens.committed k = some r ∧ r.family_id = f
  /-- Each token after the first was issued by the acceptance of its predecessor. -/
  linked : chain.IsChain fun k k' => ∃ m ∈ moves, Rotates S m k k'
  /-- All tokens but the last are used. -/
  used : ∀ k ∈ chain.dropLast, Spent k tokens
  /-- The last one is not. -/
  unused : ∀ k ∈ chain.getLast?, ∃ r, tokens.committed k = some r ∧ r.used_at = none

/-- A token of the chain that is not used is its last. -/
theorem Chain.getLast?_of_unused (h : Chain S moves tokens f chain) (hk : k ∈ chain)
    (hr : tokens.committed k = some r) (hunused : r.used_at = none) :
    chain.getLast? = some k := by
  have hne : chain ≠ [] := List.ne_nil_of_mem hk
  rw [List.getLast?_eq_some_getLast hne]
  rw [← List.dropLast_concat_getLast hne] at hk
  rcases List.mem_append.mp hk with hk | hk
  · obtain ⟨r', hr', hused⟩ := h.used k hk
    obtain rfl : r = r' := Option.some.inj (hr.symm.trans hr')
    exact absurd hunused hused
  · rw [List.mem_singleton.mp hk]

/-- Steps that keep the usage of every row keep the chains. -/
theorem Chain.keep (h : Chain S moves tokens f chain)
    (hkeep : ∀ k, (tokens'.committed k).map RefreshToken.usage =
      (tokens.committed k).map RefreshToken.usage) (m : SessionStep T) :
    Chain S (moves ++ [m]) tokens' f chain where
  nodup := h.nodup
  mem k := by
    rw [h.mem k]
    constructor
    · rintro ⟨r, hr, rfl⟩
      obtain ⟨r', hr', hfamily, -⟩ := usage_of_keep hkeep hr
      exact ⟨r', hr', hfamily⟩
    · rintro ⟨r, hr, rfl⟩
      obtain ⟨r', hr', hfamily, -⟩ := usage_of_keep (fun k => (hkeep k).symm) hr
      exact ⟨r', hr', hfamily⟩
  linked := h.linked.imp fun k k' ⟨m', hm', hrot⟩ => ⟨m', List.mem_append_left _ hm', hrot⟩
  used k hk := by
    obtain ⟨r, hr, hused⟩ := h.used k hk
    obtain ⟨r', hr', -, hsame⟩ := usage_of_keep hkeep hr
    exact ⟨r', hr', hsame ▸ hused⟩
  unused k hk := by
    obtain ⟨r, hr, hunused⟩ := h.unused k hk
    obtain ⟨r', hr', -, hsame⟩ := usage_of_keep hkeep hr
    exact ⟨r', hr', hsame.trans hunused⟩

/-- Steps that leave the rows of one family alone keep its chain. -/
theorem Chain.other (h : Chain S moves tokens f chain)
    (hsame : ∀ {k r}, r.family_id = f →
      (tokens'.committed k = some r ↔ tokens.committed k = some r)) (m : SessionStep T) :
    Chain S (moves ++ [m]) tokens' f chain where
  nodup := h.nodup
  mem k := by
    rw [h.mem k]
    exact exists_congr fun r => and_congr_left fun hf => (hsame hf).symm
  linked := h.linked.imp fun k k' ⟨m', hm', hrot⟩ => ⟨m', List.mem_append_left _ hm', hrot⟩
  used k hk := by
    obtain ⟨r, hr, hused⟩ := h.used k hk
    obtain ⟨r', hr', hf⟩ := (h.mem k).mp (List.mem_of_mem_dropLast hk)
    obtain rfl : r = r' := Option.some.inj (hr.symm.trans hr')
    exact ⟨r, (hsame hf).mpr hr, hused⟩
  unused k hk := by
    obtain ⟨r, hr, hunused⟩ := h.unused k hk
    obtain ⟨r', hr', hf⟩ := (h.mem k).mp (List.mem_of_getLast? hk)
    obtain rfl : r = r' := Option.some.inj (hr.symm.trans hr')
    exact ⟨r, (hsame hf).mpr hr, hunused⟩

/-- The committed rows around the commit of a rotation of `k` into `k'`. -/
structure Replaces (tokens tokens' : Tokens T) (k : String) (r₀ : RefreshToken) (now : ℕ)
    (k' : String) (row : RefreshToken) : Prop where
  found : tokens.committed k = some r₀
  live : r₀.claimable = true
  kin : r₀.Kin row
  absent : tokens.committed k' = none
  unused : row.claimable = true
  eq : tokens'.committed = Function.update
    (Function.update tokens.committed k (some { r₀ with used_at := some now })) k' (some row)

namespace Replaces

/-- The successor of a token is a new one. -/
theorem ne_successor (h : Replaces tokens tokens' k r₀ now k' row)
    (hr : tokens.committed j = some r) : j ≠ k' := by
  rintro rfl
  rw [h.absent] at hr
  cases hr

/-- The token that was replaced has been used. -/
theorem at_token (h : Replaces tokens tokens' k r₀ now k' row) :
    tokens'.committed k = some { r₀ with used_at := some now } := by
  rw [h.eq, Function.update_of_ne (h.ne_successor h.found), Function.update_self]

/-- Its successor is the row that was minted. -/
theorem at_successor (h : Replaces tokens tokens' k r₀ now k' row) :
    tokens'.committed k' = some row := by
  rw [h.eq, Function.update_self]

/-- All other tokens are as they were. -/
theorem of_ne (h : Replaces tokens tokens' k r₀ now k' row) (hj : j ≠ k) (hj' : j ≠ k') :
    tokens'.committed j = tokens.committed j := by
  rw [h.eq, Function.update_of_ne hj', Function.update_of_ne hj]

/-- A token that was replaced is spent. -/
theorem spent (h : Replaces tokens tokens' k r₀ now k' row) : Spent k tokens' :=
  ⟨_, h.at_token, Option.some_ne_none now⟩

/-- The family gains the successor. -/
theorem mem_family_iff (h : Replaces tokens tokens' k r₀ now k' row) :
    (∃ r, tokens'.committed j = some r ∧ r.family_id = r₀.family_id) ↔
      (∃ r, tokens.committed j = some r ∧ r.family_id = r₀.family_id) ∨ j = k' := by
  by_cases hj' : j = k'
  · subst hj'
    exact iff_of_true ⟨row, h.at_successor, h.kin.2.symm⟩ (.inr rfl)
  · rw [or_iff_left hj']
    by_cases hj : j = k
    · subst hj
      exact iff_of_true ⟨_, h.at_token, rfl⟩ ⟨r₀, h.found, rfl⟩
    · rw [h.of_ne hj hj']

/-- The rows of the other families stay. -/
theorem other_family (h : Replaces tokens tokens' k r₀ now k' row)
    (hr : r.family_id ≠ r₀.family_id) :
    tokens'.committed j = some r ↔ tokens.committed j = some r := by
  have hoff : ∀ {r'}, r'.family_id = r₀.family_id → some r' ≠ some r := by
    rintro r' hr' heq
    exact hr (Option.some.inj heq ▸ hr')
  by_cases hj' : j = k'
  · subst hj'
    rw [h.at_successor, h.absent]
    exact iff_of_false (hoff h.kin.2.symm) (Option.some_ne_none r).symm
  · by_cases hj : j = k
    · subst hj
      rw [h.at_token, h.found]
      exact iff_of_false (hoff rfl) (hoff rfl)
    · rw [h.of_ne hj hj']

/-- The token that is rotated is the last of its chain. -/
theorem getLast? (h : Replaces tokens tokens' k r₀ now k' row)
    (hc : Chain S moves tokens r₀.family_id chain) : chain.getLast? = some k :=
  hc.getLast?_of_unused ((hc.mem k).mpr ⟨r₀, h.found, rfl⟩) h.found
    (RefreshToken.claimable_iff.mp h.live).1

/-- A rotation adds its successor at the end of the chain. -/
theorem rotate (h : Replaces tokens tokens' k r₀ now k' row)
    (hc : Chain S moves tokens r₀.family_id chain) (hrot : Rotates S m k k') :
    Chain S (moves ++ [m]) tokens' r₀.family_id (chain ++ [k']) where
  nodup := by
    refine List.nodup_append.mpr ⟨hc.nodup, List.nodup_singleton k', fun i hi j hj => ?_⟩
    obtain ⟨r, hr, -⟩ := (hc.mem i).mp hi
    exact List.mem_singleton.mp hj ▸ h.ne_successor hr
  mem j := by
    rw [List.mem_append, List.mem_singleton, hc.mem j, h.mem_family_iff]
  linked := by
    refine List.IsChain.append ?_ (List.isChain_singleton k') fun i hi j hj => ?_
    · exact hc.linked.imp fun _ _ ⟨m', hm', hr⟩ => ⟨m', List.mem_append_left _ hm', hr⟩
    · rw [h.getLast? hc, Option.mem_some_iff] at hi
      rw [List.head?_cons, Option.mem_some_iff] at hj
      subst hi hj
      exact ⟨m, List.mem_append_right _ (List.mem_singleton_self m), hrot⟩
  used j hj := by
    rw [List.dropLast_concat] at hj
    by_cases hjk : j = k
    · exact hjk ▸ h.spent
    · -- The other tokens of the chain were used before.
      have hdrop : j ∈ chain.dropLast := by
        refine List.mem_dropLast_of_mem_of_ne_getLast? hj ?_
        rw [h.getLast? hc]
        exact fun heq => hjk (Option.some.inj heq)
      obtain ⟨r, hr, hused⟩ := hc.used j hdrop
      exact ⟨r, by rw [h.of_ne hjk (h.ne_successor hr), hr], hused⟩
  unused j hj := by
    rw [List.getLast?_concat, Option.mem_some_iff] at hj
    subst hj
    exact ⟨row, h.at_successor, (RefreshToken.claimable_iff.mp h.unused).1⟩

end Replaces

/-- A login starts a chain. -/
theorem Chain.first (hfirst : ∀ k r, tokens.committed k = some r → r.family_id ≠ row.family_id)
    (hunused : row.claimable = true)
    (heq : tokens'.committed = Function.update tokens.committed k (some row)) :
    Chain S moves tokens' row.family_id [k] := by
  have hat : tokens'.committed k = some row := by
    rw [heq, Function.update_self]
  constructor
  · exact List.nodup_singleton k
  · intro j
    rw [List.mem_singleton]
    constructor
    · rintro rfl
      exact ⟨row, hat, rfl⟩
    · rintro ⟨r, hr, hf⟩
      by_contra hj
      rw [heq, Function.update_of_ne hj] at hr
      exact hfirst j r hr hf
  · exact List.isChain_singleton k
  · intro j hj
    cases hj
  · intro j hj
    rw [List.getLast?_singleton, Option.mem_some_iff] at hj
    subst hj
    exact ⟨row, hat, (RefreshToken.claimable_iff.mp hunused).1⟩

section Runs

variable [DecidableEq T]

/-- **One step keeps families chains.** -/
theorem chains_of_step (h : ∀ f, ∃ chain, Chain S moves d.shared f chain)
    (hL : Loc S t d.shared (d.proc t)) (hs : Spends S t d.shared (d.proc t))
    (hstep : (program S).step d t a = some e) (f : Uuid) :
    ∃ chain, Chain S (moves ++ [⟨d, t, a, e⟩]) e.shared f chain := by
  obtain ⟨g, l, hexec, rfl⟩ := Program.step_eq_some_iff.mp hstep
  obtain ⟨chain, hchain⟩ := h f
  cases effect_of_exec hL hs hexec with
  | keep hkeep => exact ⟨chain, hchain.keep hkeep _⟩
  | rotate k r₀ now row token hp hfound hlive hkin habsent hunused heq =>
      have hrep : Replaces d.shared g k r₀ now (S.hash token) row :=
        ⟨hfound, hlive, hkin, habsent, hunused, heq⟩
      by_cases hf : f = r₀.family_id
      · subst hf
        exact ⟨chain ++ [S.hash token], hrep.rotate hchain
          { issued := ⟨row, token, hp, rfl⟩
            live := ⟨r₀, hfound, hlive⟩
            absent := habsent
            spent := hrep.spent
            unused := ⟨row, hrep.at_successor, hunused⟩ }⟩
      · exact ⟨chain, hchain.other (fun hr => hrep.other_family (hr ▸ hf)) _⟩
  | login row token hp hfirst habsent hunused heq =>
      by_cases hf : f = row.family_id
      · subst hf
        exact ⟨[S.hash token], .first hfirst hunused heq⟩
      · refine ⟨chain, hchain.other (fun {j r} hr => ?_) _⟩
        rw [heq]
        by_cases hj : j = S.hash token
        · -- The row of the new token is of the new family.
          subst hj
          rw [Function.update_self, habsent]
          refine iff_of_false (fun h => hf ?_) (Option.some_ne_none r).symm
          rw [← hr, Option.some.inj h]
        · rw [Function.update_of_ne hj]

/-- **Families are chains** in every committed state of every run. -/
theorem chains_of_trace (h : (program S).Trace Any init moves c) (f : Uuid) :
    ∃ chain, Chain S moves c.shared f chain := by
  induction h generalizing f with
  | nil =>
      refine ⟨[], ⟨List.nodup_nil, fun k => ?_, List.isChain_nil, fun k hk => ?_, fun k hk => ?_⟩⟩
      · refine ⟨fun hk => absurd hk List.not_mem_nil, ?_⟩
        rintro ⟨r, hr, -⟩
        cases hr
      · cases hk
      · cases hk
  | snoc hrun _ hstep ih =>
      exact chains_of_step ih ((sessions_of_run hrun.run).2 _) (spends_of_run hrun.run _) hstep f

/-- **Each token is accepted at most once**: after the commit of its rotation it is neither
rotated nor claimed again. -/
theorem accepted_once (h : (program S).Trace Any init moves c) :
    moves.Pairwise fun m m' => ∀ k k₁, Rotates S m k k₁ →
      (∀ k₂, ¬ Rotates S m' k k₂) ∧
      ∀ token r, S.hash token = k → ¬ Accepts S m'.before m'.after m'.thread token r := by
  refine h.pairwise fun m m' hm hstep hrun hstep' k k₁ hrot => ?_
  have hafter : (program S).Run Any init m.after := hm.step trivial hstep
  have hspent : Spent k m'.before.shared := hrot.spent.run hafter hrun
  have hbefore := hafter.trans hrun
  refine ⟨fun k₂ hrot' => ?_, ?_⟩
  · obtain ⟨r, hr, hlive⟩ := hrot'.live
    rw [hspent.not_claimable hr] at hlive
    cases hlive
  · rintro token r rfl hacc
    exact hspent.view ((sessions_of_run hbefore).2 _) (spends_of_run hbefore _) hacc.found
      (RefreshToken.claimable_iff.mp (hacc.claimable hstep')).1

/-! ### Serial runs -/

/-- The request has started and has not ended. -/
def Proc.active : Proc → Bool
  | .idle | .returned _ | .raised => false
  | _ => true

/-- Nobody else is active: the condition on each step of a serial run. -/
def Serial (c : Config T (Tokens T) Proc) (t : T) (_ : Act) : Prop :=
  ∀ u, u ≠ t → (c.proc u).active = false

instance [Fintype T] (c : Config T (Tokens T) Proc) (t : T) (a : Act) :
    Decidable (Serial c t a) := by
  unfold Serial
  infer_instance

omit [DecidableEq T] in
/-- A request that is not under way revokes nothing. -/
theorem Proc.revokes_of_inactive (h : p.active = false) : p.revokes = none := by
  cases p with
  | idle | returned _ | raised => rfl
  | _ => cases h

/-- Serial runs have no late tokens. -/
theorem Serial.noLateToken (h : Serial c t a) : NoLateToken c t a := by
  unfold NoLateToken
  split
  · rename_i row token rotated _ hp
    intro u scope hscope
    by_cases hu : u = t
    · subst hu
      rw [hp] at hscope
      cases hscope
    · rw [Proc.revokes_of_inactive (h u hu)] at hscope
      cases hscope
  · trivial

/-- At most one request of a serial run is active. -/
theorem Serial.active (h : (program S).Run Serial init c) (ht : (c.proc t).active = true)
    (hu : u ≠ t) : (c.proc u).active = false := by
  have hone : ∀ u v, (c.proc u).active = true → (c.proc v).active = true → u = v := by
    have hstep : ∀ (c d : Config T (Tokens T) Proc) (t : T) (a : Act),
        (∀ u v, (c.proc u).active = true → (c.proc v).active = true → u = v) → Serial c t a →
        (program S).step c t a = some d →
        ∀ u v, (d.proc u).active = true → (d.proc v).active = true → u = v := ?_
    · exact h.invariant hstep fun u v hu => absurd hu (by simp [init, Proc.active])
    intro c d t a hc hok hstep u v hu hv
    obtain ⟨g, l, -, rfl⟩ := Program.step_eq_some_iff.mp hstep
    have hself : ∀ w, (Function.update c.proc t l w).active = true → w = t := by
      intro w hw
      by_contra hne
      rw [Function.update_of_ne hne, hok w hne] at hw
      cases hw
    rw [hself u hu, hself v hv]
  by_contra hactive
  exact hu (hone u t (by simpa using hactive) ht)

/-- Requests that are not active have written nothing. -/
theorem Loc.untouched_of_inactive (hL : Loc S u tokens p) (hp : p.active = false) :
    tokens.Untouched u := by
  cases p with
  | idle | returned _ | raised => exact hL
  | _ => cases hp

/-- `rotate_refresh_token` accepts its token: the `SELECT`, the snapshot of the claim and its
row lock, one after the other, lead to the `INSERT` of a successor. -/
def RotateAccepts (S : Settings) (c : Config T (Tokens T) Proc) (t : T)
    (select snapshot lock : Env) : Prop :=
  ∃ d row, (program S).replay Any c [(t, .stmt select), (t, .stmt snapshot), (t, .stmt lock)] =
    some d ∧ d.proc t = .mint row

/-- Nobody holds a row: the rotation accepts a token that is committed, unexpired and
claimable. -/
theorem accepts_iff_claimable {select snapshot lock : Env}
    (hfree : ∀ u, c.shared.Untouched u) (hp : c.proc t = .refresh token) :
    RotateAccepts S c t select snapshot lock ↔
      ∃ row, c.shared.committed (S.hash token) = some row ∧ select.now < row.expires_at ∧
        row.claimable = true := by
  have hview : c.shared.view t (S.hash token) = c.shared.committed (S.hash token) :=
    (hfree t).view _
  have hlock : c.shared.free t (S.hash token) = true :=
    Table.free_iff.mpr fun u _ => hfree u _
  constructor
  · rintro ⟨d, row', hreplay, hmint⟩
    cases hrow : c.shared.committed (S.hash token) with
    | none =>
        simp [Program.replay, Program.step, program, exec, stmt, hp, selectToken, hview, hrow]
          at hreplay
    | some row =>
        by_cases hexp : row.expires_at ≤ select.now
        · simp [Program.replay, Program.step, program, exec, stmt, hp, selectToken, hview, hrow,
            hexp] at hreplay
        · refine ⟨row, rfl, by omega, ?_⟩
          by_contra hclaim
          simp [Program.replay, Program.step, program, exec, stmt, hp, selectToken, hview, hrow,
            hexp, claimSnapshot, hclaim] at hreplay
          subst hreplay
          simp at hmint
  · rintro ⟨row, hrow, hexp, hclaim⟩
    have hexp' : ¬ row.expires_at ≤ select.now := by omega
    obtain ⟨tokens', hput⟩ : ∃ tokens', c.shared.put t (S.hash token)
        (some { row with used_at := some lock.now }) = some tokens' := by
      rw [Table.put, if_pos hlock]
      exact ⟨_, rfl⟩
    refine ⟨⟨tokens', Function.update c.proc t (.mint row)⟩, row, ?_, by simp⟩
    simp [Program.replay, Program.step, program, exec, stmt, hp, selectToken, hview, hrow, hexp',
      claimSnapshot, hclaim, claimToken, hlock, hput]

/-- A revocation that covers a token of the family has committed. -/
def RevokedIn (moves : List (SessionStep T)) (f : Uuid) : Prop :=
  ∃ m ∈ moves, ∃ scope response env, m.before.proc m.thread = .revoked scope response ∧
    m.action = .stmt env ∧
      ∃ k r, m.after.shared.committed k = some r ∧ r.family_id = f ∧ scope.covers r = true

/-- Tokens are revoked by revocations. -/
theorem revokedIn_of_revoked (h : (program S).Trace Any init moves c)
    (hr : c.shared.committed k = some r) (hrev : r.revoked = true) :
    RevokedIn moves r.family_id := by
  induction h generalizing k r with
  | nil => cases hr
  | snoc hrun _ hstep ih =>
      obtain ⟨g, l, hexec, rfl⟩ := Program.step_eq_some_iff.mp hstep
      rcases revoked_origin ((sessions_of_run hrun.run).2 _) (spends_of_run hrun.run _) hexec hr
        hrev with ⟨r₀, hr₀, hrev₀, hfamily⟩ | ⟨⟨env, rfl⟩, scope, response, hp, hcov⟩
      · obtain ⟨m, hm, hrest⟩ := ih hr₀ hrev₀
        exact ⟨m, List.mem_append_left _ hm, hfamily ▸ hrest⟩
      · exact ⟨_, List.mem_append_right _ (List.mem_singleton_self _), scope, response, env, hp,
          rfl, k, r, hr, rfl, hcov⟩

/-- In a serial run a revocation leaves no token of the family unrevoked, then and later. -/
theorem revoked_of_revokedIn (h : (program S).Trace Serial init moves c)
    (hrev : RevokedIn moves r.family_id) (hr : c.shared.committed k = some r) :
    r.revoked = true := by
  obtain ⟨m, hm, scope, response, env, hp, haction, j, r₁, hr₁, hfamily, hcov⟩ := hrev
  obtain ⟨hbefore, hstep, hafter⟩ := h.around hm
  have hok : (program S).Run NoLateToken init m.before :=
    hbefore.mono fun _ _ _ hserial => hserial.noLateToken
  obtain ⟨ho, hL⟩ := sessions_of_run hok
  have hdead : Dead r.family_id m.after.shared := by
    obtain ⟨g, l, hexec, heq⟩ := Program.step_eq_some_iff.mp hstep
    rw [haction, hp] at hexec
    obtain ⟨rfl, -⟩ := Prod.mk.inj (Option.some.inj hexec)
    rw [heq] at hr₁ ⊢
    rw [← hfamily]
    exact dead_of_commit ho hL (covering_of_run hok m.thread) hp hr₁ hcov
  have hrun : (program S).Run Any init m.after :=
    (hok.mono fun _ _ _ _ => trivial).step trivial hstep
  exact (hdead.run hrun (hafter.mono fun _ _ _ _ => trivial)).committed hr rfl

/-- **Single use.** Along every run of the session endpoints each token is accepted at most
once, and the tokens of a family form a single chain, each but the last one used and each
after the first one issued by the acceptance of its predecessor. If the run is serial, a
rotation accepts a token exactly if it is the last one of its family, it has not expired,
and its family has not been revoked. -/
theorem single_use_chain (h : (program S).Trace Any init moves c) :
    (moves.Pairwise fun m m' => ∀ k k₁, Rotates S m k k₁ →
      (∀ k₂, ¬ Rotates S m' k k₂) ∧
      ∀ token r, S.hash token = k → ¬ Accepts S m'.before m'.after m'.thread token r) ∧
    (∀ f, ∃ chain, Chain S moves c.shared f chain) ∧
    ((program S).Trace Serial init moves c → ∀ t token (select snapshot lock : Env),
      c.proc t = .refresh token →
        (RotateAccepts S c t select snapshot lock ↔
          ∃ row chain, c.shared.committed (S.hash token) = some row ∧
            Chain S moves c.shared row.family_id chain ∧
            chain.getLast? = some (S.hash token) ∧ select.now < row.expires_at ∧
            ¬ RevokedIn moves row.family_id)) := by
  refine ⟨accepted_once h, chains_of_trace h, fun hserial t token select snapshot lock hp => ?_⟩
  have hL := (sessions_of_run h.run).2
  have hfree : ∀ u, c.shared.Untouched u := by
    intro u
    by_cases hu : u = t
    · have hLt := hL t
      rw [hp] at hLt
      exact hu ▸ hLt
    · exact (hL u).untouched_of_inactive (Serial.active hserial.run (by simp [hp, Proc.active]) hu)
  rw [accepts_iff_claimable hfree hp]
  constructor
  · rintro ⟨row, hrow, hexp, hclaim⟩
    obtain ⟨hunused, hlive⟩ := RefreshToken.claimable_iff.mp hclaim
    obtain ⟨chain, hchain⟩ := chains_of_trace h row.family_id
    have hmem : S.hash token ∈ chain := (hchain.mem _).mpr ⟨row, hrow, rfl⟩
    refine ⟨row, chain, hrow, hchain, hchain.getLast?_of_unused hmem hrow hunused, hexp,
      fun hrev => ?_⟩
    rw [revoked_of_revokedIn hserial hrev hrow] at hlive
    cases hlive
  · rintro ⟨row, chain, hrow, hchain, hlast, hexp, hrev⟩
    obtain ⟨r, hr, hunused⟩ := hchain.unused _ hlast
    obtain rfl : row = r := Option.some.inj (hrow.symm.trans hr)
    have hlive : row.revoked = false := by
      by_contra hrevoked
      exact hrev (revokedIn_of_revoked h hrow (by simpa using hrevoked))
    exact ⟨row, hrow, hexp, RefreshToken.claimable_iff.mpr ⟨hunused, hlive⟩⟩

end Runs

/-- After a login the first token is the last one of its family, and is accepted. -/
theorem single_use_chain_login :
    ∃ (moves : List (SessionStep (Fin 4))) (c : Config (Fin 4) (Tokens (Fin 4)) Proc)
      (row : RefreshToken) (chain : List String),
      (program plainSettings).Trace Serial init moves c ∧
        Chain plainSettings moves c.shared row.family_id chain ∧ chain.getLast? = some "a" := by
  have hreplay : ((program plainSettings).replay Serial init
      (loginSchedule (0 : Fin 4) "a" 9 ++ [(1, .refresh "a")])).any (fun c =>
        decide (c.proc 1 = .refresh "a") &&
        ((program plainSettings).replay Any c
          [(1, at5 "" 0 ""), (1, at5 "" 0 ""), (1, at5 "" 0 "")]).any fun d =>
            d.proc 1 = .mint (loginRow 9)) = true := by
    decide
  obtain ⟨c, hrun, hp⟩ := Program.exists_run_of_replay hreplay
  simp only [Bool.and_eq_true, decide_eq_true_eq, Option.any_eq_true] at hp
  obtain ⟨hproc, d, hd, hmint⟩ := hp
  obtain ⟨moves, hserial⟩ := hrun.exists_trace
  have htrace : (program plainSettings).Trace Any init moves c :=
    hserial.mono fun _ _ _ _ => trivial
  obtain ⟨row, chain, -, hchain, hlast, -⟩ :=
    ((single_use_chain htrace).2.2 hserial 1 "a" _ _ _ hproc).mp ⟨d, _, hd, hmint⟩
  exact ⟨moves, c, row, chain, hserial, hchain, hlast⟩

end BackendManager.Users
