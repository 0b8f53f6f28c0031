import BackendManager.ClaimSteps

/-!
# Claims, and the Writes That Ignore Them

A claim is a lease: it holds until its TTL has passed, and then another request may
reclaim the key. `complete` and `release` do not know this. They address the row by key
alone, so that a handler that outlives its claim completes or deletes whatever row is
there. This module proves that such a write is the only way in which ownership is lost:
as long as every write hits a key that has not been granted to somebody else in the
meantime, claims exclude each other and responses stay with the requests they answer.

The proof is an Owicki–Gries outline. `KeyInv` ties every row to the request that was
granted its key last. `Loc` says what each request holds uncommitted and, of a running
handler, that its row is in place until its claim expires (`Live`).

## Main results

* `claims_of_run`: the outline along every run in which writes hit own keys.
* `ownClaim_of_run`: in such a run a completion or a release changes only a row that
  carries its own claim, at most one handler with an unexpired claim runs, and replays go
  to the fingerprint they were produced for.
* `foreign_response_replayed`: a slow handler overwrites the claim of a different request,
  whose retry is then answered with the wrong response.
-/

namespace BackendManager.Idempotency

open ReadCommitted Interleaving

variable {T : Type} [DecidableEq T] {S : Settings} {t u : T} {s s' : Store T}
  {c d : Config T (Store T) (Proc T)} {a : Act} {p p' : Proc T} {req : Request} {now x : ℕ}
  {slot : String × String} {row record : IdempotencyKey T} {response : ResponseCapture}

/-- A completion or a release that finds the row it has loaded finds a key that has not
been granted to another request since: the condition on the state before each step. -/
def OwnKey (c : Config T (Store T) (Proc T)) (t : T) (a : Act) : Prop :=
  match a, c.proc t with
  | .stmt _, .completeUpdate req _ record =>
      (c.shared.rows.view t req.slot).all (fun row => row.id ≠ record.id) = true ∨
        c.shared.granted req.slot = some t
  | .stmt _, .releaseDelete req id =>
      (c.shared.rows.view t req.slot).all (fun row => row.id ≠ id) = true ∨
        c.shared.granted req.slot = some t
  | _, _ => True

instance (c : Config T (Store T) (Proc T)) (t : T) (a : Act) : Decidable (OwnKey c t a) := by
  unfold OwnKey
  split <;> infer_instance

/-! ### Assertions -/

/-- Every row carries the claim of the request that was granted its key last, and a cached
response was produced for the fingerprint in its row. -/
structure KeyInv (s : Store T) : Prop where
  claimed : ∀ {slot row}, s.rows.committed slot = some row →
    s.granted slot = some row.claimed_by
  produced : ∀ {slot row}, s.rows.committed slot = some row → row.status = .completed →
    row.produced_for = some row.request_hash

/-- The row as a claim of `t` at time `now` leaves it. -/
structure FreshClaim (S : Settings) (t : T) (req : Request) (now : ℕ)
    (row : IdempotencyKey T) : Prop where
  request_hash : row.request_hash = req.request_hash
  status : row.status = .in_progress
  expires_at : row.expires_at = now + S.ttl_seconds
  claimed_by : row.claimed_by = t

/-- As long as the key has not been granted to another request, its row is the unfinished
claim of `t`. -/
def Own (t : T) (s : Store T) (req : Request) : Prop :=
  s.granted req.slot = some t → ∀ row, s.rows.committed req.slot = some row →
    row.request_hash = req.request_hash ∧ row.status = .in_progress

/-- Until time `x` the row of `t` is in place. -/
def Live (t : T) (s : Store T) (req : Request) (x : ℕ) : Prop :=
  s.clock < x → s.granted req.slot = some t ∧
    ∃ row, s.rows.committed req.slot = some row ∧ row.expires_at = x

/-- `t` has flushed its response into its own row. -/
def Completed (t : T) (s : Store T) (req : Request) : Prop :=
  s.granted req.slot = some t ∧ ∃ row row', s.rows.committed req.slot = some row ∧
    s.rows.Sole t req.slot (some row') ∧ row'.claimed_by = row.claimed_by ∧
    row'.expires_at = row.expires_at ∧ row'.produced_for = some row'.request_hash ∧
    row'.request_hash = row.request_hash

/-- `t` has deleted its own row. -/
def Released (t : T) (s : Store T) (req : Request) : Prop :=
  s.granted req.slot = some t ∧ s.rows.Sole t req.slot none ∧
    ∃ row, s.rows.committed req.slot = some row

/-- `t` has deleted rows that had expired at time `now`. -/
def Purged (t : T) (s : Store T) (now : ℕ) : Prop :=
  ∀ slot v, s.rows.written t slot = some v →
    v = none ∧ ∃ row, s.rows.committed slot = some row ∧ row.expires_at ≤ now

/-- The assertion of a request. -/
def Loc (S : Settings) (t : T) (s : Store T) : Proc T → Prop
  | .idle | .finished | .raised | .release _ | .releaseDelete _ _ => s.rows.Untouched t
  | .insert _ now | .inspect _ now | .inspectLock _ now _ | .purge now =>
      s.rows.Untouched t ∧ now ≤ s.clock
  | .insertCommit req now =>
      now ≤ s.clock ∧ s.rows.committed req.slot = none ∧
        ∃ row, s.rows.Sole t req.slot (some row) ∧ FreshClaim S t req now row
  | .reclaimCommit req now =>
      now ≤ s.clock ∧
        (∃ old, s.rows.committed req.slot = some old ∧ old.expires_at ≤ now) ∧
        ∃ row, s.rows.Sole t req.slot (some row) ∧ FreshClaim S t req now row
  | .running req x _ => s.rows.Untouched t ∧ Own t s req ∧ Live t s req x
  | .complete req _ => s.rows.Untouched t ∧ Own t s req
  | .completeUpdate req _ record =>
      s.rows.Untouched t ∧ Own t s req ∧
        (s.granted req.slot = some t → record.status = .in_progress)
  | .completeCommit req => s.rows.Untouched t ∨ Completed t s req
  | .releaseCommit req => s.rows.Untouched t ∨ Released t s req
  | .answered req (.replay cached) =>
      s.rows.Untouched t ∧ cached.produced_for = some req.request_hash
  | .answered _ _ => s.rows.Untouched t
  | .purging now _ => now ≤ s.clock ∧ Purged t s now
  | .purgeCommit => ∃ now, now ≤ s.clock ∧ Purged t s now

/-! ### What a commit publishes -/

/-- A request that is about to commit its claim has found the key unused or expired. -/
theorem Loc.claim (hL : Loc S t s p) (hp : p.claiming = some (req, now)) :
    now ≤ s.clock ∧
      (∀ old, s.rows.committed req.slot = some old → old.expires_at ≤ now) ∧
        ∃ row, s.rows.Sole t req.slot (some row) ∧ FreshClaim S t req now row := by
  cases p <;> try cases hp
  case insertCommit =>
    obtain ⟨hnow, hnone, hrow⟩ := hL
    refine ⟨hnow, fun old hold => ?_, hrow⟩
    rw [hnone] at hold
    cases hold
  case reclaimCommit =>
    obtain ⟨hnow, ⟨old, hold, hexpired⟩, hrow⟩ := hL
    refine ⟨hnow, fun old' hold' => ?_, hrow⟩
    obtain rfl : old = old' := Option.some.inj (hold.symm.trans hold')
    exact hexpired

/-- The rows after the commit of a claim. -/
theorem grant_committed {row : IdempotencyKey T} (h : s.rows.Sole t req.slot (some row)) :
    (s.grant t req).rows.committed =
      Function.update s.rows.committed req.slot (some row) :=
  h.committed_commit

/-- The grant of a key is remembered. -/
theorem grant_granted (s : Store T) (t : T) (req : Request) :
    (s.grant t req).granted = Function.update s.granted req.slot (some t) := rfl

/-- Any other commit leaves a key alone, or ends the claim that its own request holds on it,
or deletes a row that has expired. -/
theorem Loc.commit_cases (hL : Loc S t s p) (hp : p.committing = true)
    (slot : String × String) :
    (s.commit t).rows.committed slot = s.rows.committed slot ∨
      (s.granted slot = some t ∧ ∃ row, s.rows.committed slot = some row ∧
        ∀ row', (s.commit t).rows.committed slot = some row' →
          row'.claimed_by = row.claimed_by ∧ row'.expires_at = row.expires_at ∧
            row'.produced_for = some row'.request_hash) ∨
      p = .purgeCommit ∧ (s.commit t).rows.committed slot = none ∧
        ∃ row, s.rows.committed slot = some row ∧ row.expires_at ≤ s.clock := by
  have hsame : s.rows.written t slot = none →
      (s.commit t).rows.committed slot = s.rows.committed slot :=
    fun h => Table.committed_commit_of_written_eq_none h
  have hnew : ∀ {v}, s.rows.written t slot = some v →
      (s.commit t).rows.committed slot = v := by
    intro v h
    rw [Store.commit, Table.committed_commit, Table.view_of_written h]
  cases p <;> try cases hp
  case completeCommit req =>
    rcases hL with hun | ⟨hgranted, row, row', hrow, hsole, hclaimed, hexpires, hprod, -⟩
    · exact .inl (hsame (hun slot))
    · by_cases hslot : slot = req.slot
      · subst hslot
        refine .inr (.inl ⟨hgranted, row, hrow, fun row'' hrow'' => ?_⟩)
        rw [hnew hsole.1, Option.some.injEq] at hrow''
        subst hrow''
        exact ⟨hclaimed, hexpires, hprod⟩
      · exact .inl (hsame (hsole.2 slot hslot))
  case releaseCommit req =>
    rcases hL with hun | ⟨hgranted, hsole, row, hrow⟩
    · exact .inl (hsame (hun slot))
    · by_cases hslot : slot = req.slot
      · subst hslot
        refine .inr (.inl ⟨hgranted, row, hrow, fun row'' hrow'' => ?_⟩)
        rw [hnew hsole.1] at hrow''
        cases hrow''
      · exact .inl (hsame (hsole.2 slot hslot))
  case purgeCommit =>
    obtain ⟨now, hnow, hpurged⟩ := hL
    cases hw : s.rows.written t slot with
    | none => exact .inl (hsame hw)
    | some v =>
        obtain ⟨rfl, row, hrow, hexpired⟩ := hpurged slot v hw
        exact .inr (.inr ⟨rfl, hnew hw, row, hrow, hexpired.trans hnow⟩)

/-! ### Interference freedom -/

/-- From `s` to `s'` request `u` is left **undisturbed**: its uncommitted rows, and the
rows and the ownership under them, are the same; as long as its key has not been granted
to another request its row is not rewritten, and until the row expires nothing happens to
it. -/
structure Undisturbed (u : T) (s s' : Store T) : Prop where
  written : s'.rows.written u = s.rows.written u
  clock : s.clock ≤ s'.clock
  held : ∀ {slot v}, s.rows.written u slot = some v →
    s'.rows.committed slot = s.rows.committed slot ∧ s'.granted slot = s.granted slot
  own : ∀ {slot}, s'.granted slot = some u → s.granted slot = some u ∧
    (s'.rows.committed slot = s.rows.committed slot ∨ s'.rows.committed slot = none)
  live : ∀ {slot row}, s.granted slot = some u → s.rows.committed slot = some row →
    s'.clock < row.expires_at →
    s'.granted slot = some u ∧ s'.rows.committed slot = some row

/-- What a request does before its commit disturbs no other. -/
theorem undisturbed_of_private (h : Private t s s') (hu : u ≠ t) : Undisturbed u s s' where
  written := h.rows.written u hu
  clock := h.clock.ge
  held _ := ⟨by rw [h.rows.committed], by rw [h.granted]⟩
  own hg := ⟨by rwa [h.granted] at hg, .inl (by rw [h.rows.committed])⟩
  live hg hr _ := ⟨by rwa [h.granted], by rwa [h.rows.committed]⟩

/-- Nor does the clock, which only advances. -/
theorem undisturbed_of_tick (u : T) (s : Store T) :
    Undisturbed u s { s with clock := s.clock + 1 } where
  written := rfl
  clock := Nat.le_succ _
  held _ := ⟨rfl, rfl⟩
  own hg := ⟨hg, .inl rfl⟩
  live hg hr _ := ⟨hg, hr⟩

/-- The commit of a completion, a release or a purge. -/
theorem undisturbed_of_commit (hL : Loc S t s p) (hp : p.committing = true) (hu : u ≠ t) :
    Undisturbed u s (s.commit t) where
  written := Table.written_commit_ne _ hu
  clock := le_refl _
  held hv := ⟨Table.committed_commit_of_written hv hu, rfl⟩
  own {slot} hg := by
    refine ⟨hg, ?_⟩
    rcases hL.commit_cases hp slot with h | ⟨hgt, -⟩ | ⟨-, h, -⟩
    · exact .inl h
    · exact absurd (Option.some.inj (hg.symm.trans hgt)) hu
    · exact .inr h
  live {slot row} hg hr hx := by
    refine ⟨hg, ?_⟩
    rcases hL.commit_cases hp slot with h | ⟨hgt, -⟩ | ⟨-, -, row', hr', hexpired⟩
    · rw [h, hr]
    · exact absurd (Option.some.inj (hg.symm.trans hgt)) hu
    · obtain rfl : row' = row := Option.some.inj (hr'.symm.trans hr)
      have hclock : s.clock < row'.expires_at := hx
      omega

/-- The commit of a claim. -/
theorem undisturbed_of_grant (hL : Loc S t s p) (hp : p.claiming = some (req, now))
    (hu : u ≠ t) : Undisturbed u s (s.grant t req) := by
  obtain ⟨hnow, hold, row, hsole, -⟩ := hL.claim hp
  have hother : ∀ {slot}, slot ≠ req.slot →
      (s.grant t req).rows.committed slot = s.rows.committed slot ∧
        (s.grant t req).granted slot = s.granted slot := by
    intro slot hne
    refine ⟨?_, ?_⟩
    · rw [grant_committed hsole, Function.update_of_ne hne]
    · rw [grant_granted, Function.update_of_ne hne]
  have hself : (s.grant t req).granted req.slot = some t := by
    rw [grant_granted, Function.update_self]
  refine ⟨Table.written_commit_ne _ hu, le_refl _, fun {slot v} hv => ?_, fun {slot} hg => ?_,
    fun {slot row'} hg hr hx => ?_⟩
  · have hne : slot ≠ req.slot := by
      rintro rfl
      exact hu (Table.written_inj hv hsole.1)
    exact hother hne
  · have hne : slot ≠ req.slot := by
      rintro rfl
      exact hu (Option.some.inj (hg.symm.trans hself))
    obtain ⟨hrow, hgranted⟩ := hother hne
    exact ⟨by rwa [hgranted] at hg, .inl hrow⟩
  · have hne : slot ≠ req.slot := by
      rintro rfl
      have hexpired := hold row' hr
      have hclock : s.clock < row'.expires_at := hx
      omega
    obtain ⟨hrow, hgranted⟩ := hother hne
    exact ⟨by rw [hgranted, hg], by rw [hrow, hr]⟩

/-- **No action of one request disturbs another**: its commits change rows that are its own, or
that have expired. -/
theorem undisturbed_of_exec (hL : Loc S t s p) (h : exec S t a s p = some (s', p'))
    (hu : u ≠ t) : Undisturbed u s s' := by
  rcases exec_cases h with hpriv | ⟨rfl, -⟩ | ⟨hp, rfl, -⟩ | ⟨req, now, hp, rfl, -⟩
  · exact undisturbed_of_private hpriv hu
  · exact undisturbed_of_tick u s
  · exact undisturbed_of_commit hL hp hu
  · exact undisturbed_of_grant hL hp hu

/-- A request without writes stays without writes. -/
theorem Undisturbed.untouched (h : Undisturbed u s s') (hun : s.rows.Untouched u) :
    s'.rows.Untouched u := hun.congr h.written

/-- The row of an owner stays its own: only an expired row is taken over. -/
theorem Undisturbed.keepsOwn (h : Undisturbed u s s') (ho : Own u s req) : Own u s' req := by
  intro hg row hrow
  obtain ⟨hg', hcom | hcom⟩ := h.own hg
  · exact ho hg' row (hcom ▸ hrow)
  · rw [hcom] at hrow
    cases hrow

/-- A claim stays live until it expires. -/
theorem Undisturbed.keepsLive (h : Undisturbed u s s') (hl : Live u s req x) :
    Live u s' req x := by
  intro hx
  obtain ⟨hg, row, hrow, rfl⟩ := hl (h.clock.trans_lt hx)
  obtain ⟨hg', hrow'⟩ := h.live hg hrow hx
  exact ⟨hg', row, hrow', rfl⟩

/-- What a purge has found expired stays expired. -/
theorem Undisturbed.purged (h : Undisturbed u s s') (hp : Purged u s now) :
    Purged u s' now := by
  intro slot v hv
  rw [h.written] at hv
  obtain ⟨rfl, row, hrow, hexpired⟩ := hp slot v hv
  exact ⟨rfl, row, by rw [(h.held hv).1, hrow], hexpired⟩

/-- **Interference freedom.** The assertion of a request survives every step that leaves it
undisturbed. -/
theorem Undisturbed.loc (h : Undisturbed u s s') (hL : Loc S u s p) : Loc S u s' p := by
  cases p with
  | idle | finished | raised | release _ | releaseDelete _ _ => exact h.untouched hL
  | insert _ _ | inspect _ _ | inspectLock _ _ _ | purge _ =>
      exact ⟨h.untouched hL.1, hL.2.trans h.clock⟩
  | insertCommit req now =>
      obtain ⟨hnow, hnone, row, hsole, hfresh⟩ := hL
      exact ⟨hnow.trans h.clock, by rw [(h.held hsole.1).1, hnone], row,
        hsole.congr h.written, hfresh⟩
  | reclaimCommit req now =>
      obtain ⟨hnow, hold, row, hsole, hfresh⟩ := hL
      exact ⟨hnow.trans h.clock, by rwa [(h.held hsole.1).1], row,
        hsole.congr h.written, hfresh⟩
  | running req x sent =>
      obtain ⟨hun, ho, hl⟩ := hL
      exact ⟨h.untouched hun, h.keepsOwn ho, h.keepsLive hl⟩
  | complete req response => exact ⟨h.untouched hL.1, h.keepsOwn hL.2⟩
  | completeUpdate req response record =>
      obtain ⟨hun, ho, hrec⟩ := hL
      exact ⟨h.untouched hun, h.keepsOwn ho, fun hg => hrec (h.own hg).1⟩
  | completeCommit req =>
      rcases hL with hun | ⟨hg, row, row', hrow, hsole, hrest⟩
      · exact .inl (h.untouched hun)
      · obtain ⟨hcom, hgr⟩ := h.held hsole.1
        exact .inr ⟨by rw [hgr, hg], row, row', by rw [hcom, hrow], hsole.congr h.written, hrest⟩
  | releaseCommit req =>
      rcases hL with hun | ⟨hg, hsole, hrow⟩
      · exact .inl (h.untouched hun)
      · obtain ⟨hcom, hgr⟩ := h.held hsole.1
        exact .inr ⟨by rw [hgr, hg], hsole.congr h.written, by rwa [hcom]⟩
  | answered req result =>
      cases result with
      | replay cached => exact ⟨h.untouched hL.1, hL.2⟩
      | in_progress | mismatch => exact h.untouched hL
  | purging now todo => exact ⟨hL.1.trans h.clock, h.purged hL.2⟩
  | purgeCommit =>
      obtain ⟨now, hnow, hp⟩ := hL
      exact ⟨now, hnow.trans h.clock, h.purged hp⟩

/-! ### Local correctness -/

/-- A write of a completion or a release hits a key that is still the request's own. -/
theorem OwnKey.granted {env : Env} {current : IdempotencyKey T} {id : Uuid}
    (hok : OwnKey c t (.stmt env))
    (hp : (∃ response record, c.proc t = .completeUpdate req response record ∧
        record.id = id) ∨ c.proc t = .releaseDelete req id)
    (hcurrent : c.shared.rows.view t req.slot = some current) (hid : current.id = id) :
    c.shared.granted req.slot = some t := by
  rcases hp with ⟨response, record, hp, hrec⟩ | hp <;>
    simp only [OwnKey, hp, hcurrent, Option.all_some, decide_eq_true_eq] at hok
  · rcases hok with hne | hg
    · exact absurd (hid.trans hrec.symm) hne
    · exact hg
  · rcases hok with hne | hg
    · exact absurd hid hne
    · exact hg

/-- A replay goes to the fingerprint that its response was produced for. -/
theorem loc_of_inspectResult (hI : KeyInv s) (hun : s.rows.Untouched t)
    (hrow : s.rows.committed req.slot = some row) :
    Loc S t s (.answered req (inspectResult req row)) := by
  rw [inspectResult]
  split
  · exact hun
  · rename_i hhash
    split
    · rename_i hstatus
      refine ⟨hun, ?_⟩
      rw [IdempotencyKey.cached, hI.produced hrow hstatus, not_not.mp hhash]
    · exact hun

/-- The flush of a completion into the request's own row. -/
theorem completed_of_put {current : IdempotencyKey T} (hun : s.rows.Untouched t)
    (ho : Own t s req) (hg : s.granted req.slot = some t)
    (hcurrent : s.rows.view t req.slot = some current)
    (hput : s.put t req.slot (some (completed req response record current)) = some s') :
    Completed t s' req := by
  obtain ⟨rows, hrows, rfl⟩ := Store.put_some hput
  rw [hun.view] at hcurrent
  refine ⟨hg, current, _, ?_, hun.put hrows, rfl, rfl, ?_, rfl⟩
  · rw [← hcurrent]
    exact congrFun (Table.committed_put hrows) _
  · exact congrArg some (ho hg current hcurrent).1.symm

/-- One row of a purge. -/
theorem purged_of_put (hp : Purged t s now) (hrow : s.rows.view t slot = some row)
    (hexpired : row.expires_at ≤ now) (hput : s.put t slot none = some s') :
    Purged t s' now := by
  obtain ⟨rows, hrows, rfl⟩ := Store.put_some hput
  intro j v hv
  rw [Table.written_put hrows] at hv
  rw [Table.committed_put hrows]
  split at hv
  · rename_i hj
    obtain ⟨-, rfl⟩ := hj
    obtain rfl := Option.some.inj hv
    cases hw : s.rows.written t j with
    | none => exact ⟨rfl, row, by rw [← Table.view_of_written_eq_none hw, hrow], hexpired⟩
    | some v =>
        obtain ⟨rfl, -⟩ := hp j v hw
        rw [Table.view_of_written hw] at hrow
        cases hrow
  · exact hp j v hv

/-- The COMMIT of a claim. -/
theorem loc_of_grant (hL : Loc S t s p) (hp : p.claiming = some (req, now)) :
    Loc S t (s.grant t req) (.running req (now + S.ttl_seconds) []) := by
  obtain ⟨-, -, row, hsole, hfresh⟩ := hL.claim hp
  have hrow : (s.grant t req).rows.committed req.slot = some row := by
    rw [grant_committed hsole, Function.update_self]
  refine ⟨Table.untouched_commit _ _, fun _ row' hrow' => ?_, fun _ => ⟨?_, row, hrow, ?_⟩⟩
  · obtain rfl : row = row' := Option.some.inj (hrow.symm.trans hrow')
    exact ⟨hfresh.request_hash, hfresh.status⟩
  · rw [grant_granted, Function.update_self]
  · exact hfresh.expires_at

/-- **Local correctness.** Every action establishes the next assertion of its request. -/
theorem Step.loc (h : Step S t c.shared a p s' p') (hp : c.proc t = p) (hI : KeyInv c.shared)
    (hL : Loc S t c.shared p) (hok : OwnKey c t a) : Loc S t s' p' := by
  cases h with
  | tick => exact (undisturbed_of_tick t c.shared).loc hL
  | claim | purge => exact ⟨hL, le_refl _⟩
  | send | inspect | release => exact hL
  | raise => exact hL.1
  | ret =>
      obtain ⟨hun, ho, -⟩ := hL
      rw [handlerReturns]
      split
      · exact hun
      · exact ⟨hun, ho⟩
  | fail | overlong _ | vanish _ | stale | leave _ => exact Table.untouched_rollback _ _
  | commit _ => exact Table.untouched_commit _ _
  | insert hfree hput =>
      obtain ⟨hun, hnow⟩ := hL
      obtain ⟨rows, hrows, rfl⟩ := Store.put_some hput
      rw [hun.view] at hfree
      refine ⟨hnow, ?_, _, hun.put hrows, rfl, rfl, rfl, rfl⟩
      rw [Table.committed_put hrows, hfree]
  | collide => exact ⟨Table.untouched_rollback _ _, hL.2⟩
  | grant hclaim => exact loc_of_grant hL hclaim
  | reclaim hrow hexpired hput =>
      obtain ⟨hun, hnow⟩ := hL
      obtain ⟨rows, hrows, rfl⟩ := Store.put_some hput
      rw [hun.view] at hrow
      refine ⟨hnow, ⟨_, ?_, hexpired⟩, _, hun.put hrows, rfl, rfl, rfl, rfl⟩
      rw [Table.committed_put hrows, hrow]
  | answer hrow =>
      rw [hL.1.view] at hrow
      refine loc_of_inspectResult ?_ (Table.untouched_rollback _ _) ?_
      · exact ⟨fun hr => hI.claimed (by simpa [Store.rollback] using hr),
          fun hr => hI.produced (by simpa [Store.rollback] using hr)⟩
      · simpa [Store.rollback] using hrow
  | load hrow =>
      obtain ⟨hun, ho⟩ := hL
      rw [hun.view] at hrow
      exact ⟨hun, ho, fun hg => (ho hg _ hrow).2⟩
  | update hrow hid hput =>
      obtain ⟨hun, ho, -⟩ := hL
      have hg := hok.granted (.inl ⟨_, _, hp, rfl⟩) hrow hid
      exact .inr (completed_of_put hun ho hg hrow hput)
  | unchanged => exact .inl hL.1
  | @delete env req current id s' hrow hid hput =>
      have hun : c.shared.rows.Untouched t := hL
      have hg := hok.granted (.inr hp) hrow hid
      obtain ⟨rows, hrows, rfl⟩ := Store.put_some hput
      rw [hun.view] at hrow
      refine .inr ⟨hg, hun.put hrows, current, ?_⟩
      rw [Table.committed_put hrows, hrow]
  | deleted => exact .inl hL
  | scan =>
      obtain ⟨hun, hnow⟩ := hL
      exact ⟨hnow, fun slot v hv => absurd hv hun.not_written⟩
  | purgeRow hrow hexpired hput =>
      obtain ⟨hnow, hpurged⟩ := hL
      refine ⟨?_, purged_of_put hpurged hrow hexpired hput⟩
      rw [(Private.of_put hput).clock]
      exact hnow
  | keepRow => exact hL
  | purged => exact ⟨_, hL.1, hL.2⟩

/-- Every action keeps the global invariant. -/
theorem KeyInv.of_exec (hI : KeyInv s) (hL : Loc S t s p)
    (h : exec S t a s p = some (s', p')) : KeyInv s' := by
  rcases exec_cases h with hpriv | ⟨rfl, -⟩ | ⟨hp, rfl, -⟩ | ⟨req, now, hp, rfl, -⟩
  · refine ⟨fun hr => ?_, fun hr => ?_⟩ <;> rw [hpriv.rows.committed] at hr
    · rw [hpriv.granted]
      exact hI.claimed hr
    · exact hI.produced hr
  · exact ⟨hI.claimed, hI.produced⟩
  · refine ⟨fun {slot row} hr => ?_, fun {slot row} hr hstatus => ?_⟩ <;>
      rcases hL.commit_cases hp slot with hsame | ⟨hg, row₀, hrow₀, hnew⟩ | ⟨-, hnone, -⟩
    · exact hI.claimed (hsame ▸ hr)
    · rw [(hnew row hr).1]
      exact hI.claimed hrow₀
    · rw [hnone] at hr
      cases hr
    · exact hI.produced (hsame ▸ hr) hstatus
    · exact (hnew row hr).2.2
    · rw [hnone] at hr
      cases hr
  · obtain ⟨-, -, row, hsole, hfresh⟩ := hL.claim hp
    refine ⟨fun {slot row'} hr => ?_, fun {slot row'} hr hstatus => ?_⟩ <;>
      rw [grant_committed hsole] at hr <;> by_cases hslot : slot = req.slot
    · rw [hslot, Function.update_self, Option.some.injEq] at hr
      rw [grant_granted, hslot, Function.update_self, ← hr, hfresh.claimed_by]
    · rw [Function.update_of_ne hslot] at hr
      rw [grant_granted, Function.update_of_ne hslot]
      exact hI.claimed hr
    · rw [hslot, Function.update_self, Option.some.injEq] at hr
      rw [← hr, hfresh.status] at hstatus
      cases hstatus
    · rw [Function.update_of_ne hslot] at hr
      exact hI.produced hr hstatus

/-! ### Every run -/

/-- The proof outline of the store and the middleware. -/
theorem outline (S : Settings) : (program S).Outline (OwnKey (T := T)) KeyInv (Loc S) where
  step hok hI hL h := ⟨hI.of_exec (hL _) h, (step_of_exec h).loc rfl hI (hL _) hok⟩
  frame hu _ _ hL h := (undisturbed_of_exec (hL _) h hu).loc (hL _)

/-- **The assertions hold along every run in which writes hit own keys.** -/
theorem claims_of_run (h : (program S).Run OwnKey init c) :
    KeyInv c.shared ∧ ∀ u, Loc S u c.shared (c.proc u) :=
  (outline S).run h ⟨fun hr => (nomatch hr), fun hr => (nomatch hr)⟩ fun u =>
    Table.untouched_empty u

/-- Claims exclude each other while they last, and responses stay with their requests. -/
structure OneOwner (c : Config T (Store T) (Proc T)) : Prop where
  /-- At most one handler with an unexpired claim runs for a key. -/
  one_running : ∀ {t u req req' x x' sent sent'}, c.proc t = .running req x sent →
    c.proc u = .running req' x' sent' → req.slot = req'.slot →
    c.shared.clock < x → c.shared.clock < x' → t = u
  /-- A replay goes to the fingerprint of the request that produced the response. -/
  replay_own : ∀ {t req cached}, c.proc t = .answered req (.replay cached) →
    cached.produced_for = some req.request_hash

/-- The request whose completion or release is under way. -/
def Proc.finishing : Proc T → Option Request
  | .complete req _ | .completeUpdate req _ _ | .completeCommit req | .release req
  | .releaseDelete req _ | .releaseCommit req => some req
  | _ => none

omit [DecidableEq T] in
/-- A request that is about to be granted a key does not finish with it. -/
theorem Proc.finishing_of_claiming (h : p.claiming = some (req, now)) :
    p.finishing = none := by
  cases p <;> first | rfl | cases h

/-- **Writes hit own claims.** In every run whose completions and releases find no key that
has been granted to another request since, claims exclude each other and replays are the
request's own; and whatever step of a completion or a release comes next, it changes a row
only if the row carries the run's own claim. -/
theorem ownClaim_of_run (h : (program S).Run OwnKey init c) :
    OneOwner c ∧ ∀ t a d slot, (program S).step c t a = some d →
      ((c.proc t).finishing).isSome = true →
      d.shared.rows.committed slot ≠ c.shared.rows.committed slot →
      ∃ row, c.shared.rows.committed slot = some row ∧ row.claimed_by = t := by
  obtain ⟨hI, hL⟩ := claims_of_run h
  refine ⟨⟨fun {t u req req' x x' sent sent'} ht hu hslot hx hx' => ?_,
    fun {t req cached} ht => ?_⟩, fun t a d slot hstep hfin hne => ?_⟩
  · have hLt := hL t
    have hLu := hL u
    rw [ht] at hLt
    rw [hu] at hLu
    obtain ⟨-, -, hlive⟩ := hLt
    obtain ⟨-, -, hlive'⟩ := hLu
    have hg := (hlive hx).1
    rw [hslot, (hlive' hx').1, Option.some.injEq] at hg
    exact hg.symm
  · have hLt := hL t
    rw [ht] at hLt
    exact hLt.2
  · obtain ⟨g, l, hexec, rfl⟩ := Program.step_eq_some_iff.mp hstep
    rcases exec_cases hexec with hpriv | ⟨rfl, -⟩ | ⟨hp, rfl, -⟩ | ⟨req, now, hp, rfl, -⟩
    · exact absurd (congrFun hpriv.rows.committed slot) hne
    · exact absurd rfl hne
    · rcases (hL t).commit_cases hp slot with hsame | ⟨hg, row, hrow, -⟩ | ⟨hpurge, -⟩
      · exact absurd hsame hne
      · refine ⟨row, hrow, ?_⟩
        exact Option.some.inj ((hI.claimed hrow).symm.trans hg)
      · rw [hpurge] at hfin
        cases hfin
    · rw [Proc.finishing_of_claiming hp] at hfin
      cases hfin

/-! ### Two schedules -/

/-- The settings of the schedules: a claim lasts two ticks. -/
def shortLease : Settings := ⟨2, 100⟩

/-- A statement; `n` numbers the row that it may insert. -/
def next (n : ℕ) : Act := .stmt ⟨Uuid.ofNat n, ("", ""), Uuid.ofNat 0⟩

/-- A request that claims an unused key and sends its response. -/
def firstRequest (t : T) (request_hash : String) : List (T × Act) :=
  [(t, .claim ⟨"scope", "key", request_hash⟩), (t, next 1), (t, next 1)]

/-- A complete response to a handler's request. -/
def respond (t : T) : List (T × Act) :=
  [(t, .send (.start 200 [])), (t, .send (.body [120] false)), (t, .ret)]

/-- A request that finds the key in use. -/
def laterRequest (t : T) (request_hash : String) : List (T × Act) :=
  [(t, .claim ⟨"scope", "key", request_hash⟩), (t, next 2), (t, next 2), (t, next 2)]

/-- The request was answered with a response produced for this fingerprint. -/
def Proc.replayedFor : Proc T → Option String
  | .answered _ (.replay cached) => cached.produced_for
  | _ => none

set_option maxRecDepth 10000 in
/-- A request is completed, and its retry is answered with the response that was produced for it.
-/
theorem ownClaim_of_run_retry :
    ∃ c : Config (Fin 2) (Store (Fin 2)) (Proc (Fin 2)),
      (program shortLease).Run OwnKey init c ∧ (c.proc 1).replayedFor = some "h" ∧
        OneOwner c := by
  have hreplay : ((program shortLease).replay OwnKey init
      (firstRequest (0 : Fin 2) "h" ++ respond 0 ++
        [(0, next 1), (0, next 1), (0, next 1)] ++ laterRequest 1 "h")).any (fun c =>
          decide ((c.proc 1).replayedFor = some "h")) = true := by
    decide
  obtain ⟨c, hrun, hp⟩ := Program.exists_run_of_replay hreplay
  exact ⟨c, hrun, of_decide_eq_true hp, (ownClaim_of_run hrun).1⟩

set_option maxRecDepth 10000 in
/-- The first request outlives its claim; a different request reclaims the key, and the
first one completes that claim. A retry of the second request gets the first one's
response. -/
theorem foreign_response_replayed :
    ∃ c : Config (Fin 3) (Store (Fin 3)) (Proc (Fin 3)),
      (program shortLease).Run Any init c ∧ ¬ OneOwner c := by
  have hreplay : ((program shortLease).replay Any init
      (firstRequest (0 : Fin 3) "h1" ++ [(0, .tick), (0, .tick)] ++ laterRequest 1 "h2" ++
        [(1, next 2)] ++ respond 0 ++ [(0, next 1), (0, next 1), (0, next 1)] ++
        laterRequest 2 "h2")).any (fun c =>
          decide (c.proc 2 = .answered ⟨"scope", "key", "h2"⟩
            (.replay ⟨200, [], [120], some "h1"⟩))) = true := by
    decide
  obtain ⟨c, hrun, hp⟩ := Program.exists_run_of_replay hreplay
  refine ⟨c, hrun, fun h => ?_⟩
  have hown := h.replay_own (of_decide_eq_true hp)
  exact absurd hown (by decide)

end BackendManager.Idempotency
