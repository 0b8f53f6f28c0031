import BackendManager.ClaimOwnership

/-!
# Concurrent Claims of One Key

Any number of `claim` calls on one key, each of which has read the clock, interleave
statement by statement; the key is unused or its row has expired for all of them. Whichever
call commits first owns the key, and its commit decides what every other call is answered.

A race is in one of two phases. While it is `Open`, the row is as it was, and a call is
asking or holds the row lock with the row that it is about to commit. Once it is `Won`, the
row is the winner's, nobody holds the lock, and a call is asking or has its answer.

## Main results

* `race_of_run`: every statement keeps a race open or leads it to its winner.
* `one_owner_of_race`: when all calls have returned, exactly one of them owns the key, the
  answers of the others follow from its fingerprint, and the row is its claim. As long as
  some call has not returned, some call can go on.
-/

namespace BackendManager.Idempotency

open ReadCommitted Interleaving

variable {T : Type} [DecidableEq T] {S : Settings} {calls : Finset T} {req : T → Request}
  {now : T → ℕ} {slot : String × String} {t u w : T} {s s' : Store T}
  {c c₀ d : Config T (Store T) (Proc T)} {a : Act} {p p' : Proc T}
  {row record : IdempotencyKey T} {env : Env}

/-- The schedules of a race: statements of its calls, while the clock advances. -/
def Claiming (calls : Finset T) (_ : Config T (Store T) (Proc T)) (t : T) (a : Act) : Prop :=
  a = .tick ∨ t ∈ calls ∧ ∃ env, a = .stmt env

/-- The start of a race: the calls have read the clock, less than a TTL apart, and the key is one
that its column holds, is not locked and has no row that has not expired for all of them. -/
structure Race (S : Settings) (calls : Finset T) (req : T → Request) (now : T → ℕ)
    (slot : String × String) (c : Config T (Store T) (Proc T)) : Prop where
  nonempty : calls.Nonempty
  same_slot : ∀ t ∈ calls, (req t).slot = slot
  storable : Text.Storable 255 slot.2
  close : ∀ t ∈ calls, ∀ u ∈ calls, now t < now u + S.ttl_seconds
  start : ∀ t ∈ calls, c.proc t = .insert (req t) (now t)
  unlocked : ∀ u, c.shared.rows.written u slot = none
  expired : ∀ record, c.shared.rows.committed slot = some record →
    ∀ t ∈ calls, record.expires_at ≤ now t

/-- The call asks for the key: it has yet to insert, or it has lost to the committed row and
is about to inspect it. -/
def Asking (req : T → Request) (now : T → ℕ) (slot : String × String) (t : T)
    (rows : Table T (String × String) (IdempotencyKey T)) (p : Proc T) : Prop :=
  p = .insert (req t) (now t) ∨ ∃ row, rows.committed slot = some row ∧
    (p = .inspect (req t) (now t) ∨ p = .inspectLock (req t) (now t) row.id)

/-- The call holds the row lock, with its claim in place of the row that was there. -/
def Holding (S : Settings) (req : T → Request) (now : T → ℕ) (slot : String × String) (t : T)
    (rows : Table T (String × String) (IdempotencyKey T)) (p : Proc T) : Prop :=
  p.claiming = some (req t, now t) ∧ ∃ row, rows.written t slot = some (some row) ∧
    FreshClaim S t (req t) (now t) row ∧
    ∀ old, rows.committed slot = some old → row.id = old.id

/-- Nobody owns the key yet. -/
structure Open (S : Settings) (calls : Finset T) (req : T → Request) (now : T → ℕ)
    (slot : String × String) (c : Config T (Store T) (Proc T)) : Prop where
  call : ∀ t ∈ calls,
    Asking req now slot t c.shared.rows (c.proc t) ∧ c.shared.rows.written t slot = none ∨
      Holding S req now slot t c.shared.rows (c.proc t)
  expired : ∀ record, c.shared.rows.committed slot = some record →
    ∀ t ∈ calls, record.expires_at ≤ now t
  writer : ∀ {u v}, c.shared.rows.written u slot = some v → u ∈ calls

/-- What a call is answered once `w` owns the key. -/
def verdict (req : T → Request) (w t : T) : ClaimResult :=
  if (req t).request_hash = (req w).request_hash then .in_progress else .mismatch

/-- Call `w` owns the key. -/
structure Won (S : Settings) (calls : Finset T) (req : T → Request) (now : T → ℕ)
    (slot : String × String) (w : T) (c : Config T (Store T) (Proc T)) : Prop where
  mem : w ∈ calls
  owner : c.proc w = .running (req w) (now w + S.ttl_seconds) []
  row : ∃ row, c.shared.rows.committed slot = some row ∧ FreshClaim S w (req w) (now w) row
  unlocked : ∀ u, c.shared.rows.written u slot = none
  others : ∀ t ∈ calls, t ≠ w → Asking req now slot t c.shared.rows (c.proc t) ∨
    c.proc t = .answered (req t) (verdict req w t)

/-! ### One statement of an asking call -/

/-- The call goes on as long as the key is not locked against it. -/
theorem Asking.isSome (h : Asking req now slot t s.rows p) (hslot : (req t).slot = slot)
    (hfree : ∀ u, s.rows.written u slot = none) : (stmt S t env s p).isSome := by
  have hfree' : s.rows.free t (req t).slot = true := by
    rw [hslot]
    exact Table.free_iff.mpr fun u _ => hfree u
  have hasking : p.asking = some (req t, now t) := by
    rcases h with rfl | ⟨row, -, rfl | rfl⟩ <;> rfl
  exact isSome_of_asking hasking hfree'

omit [DecidableEq T] in
/-- The key of every call of the race fits its column. -/
theorem storable_key (hslot : (req t).slot = slot) (hkey : Text.Storable 255 slot.2) :
    Text.Storable 255 (req t).key := by
  subst hslot
  exact hkey

/-- While the race is open, a call takes the lock or goes on asking. -/
theorem Asking.step (h : Asking req now slot t s.rows p) (hslot : (req t).slot = slot)
    (hkey : Text.Storable 255 slot.2) (hnone : s.rows.written t slot = none)
    (hexpired : ∀ record, s.rows.committed slot = some record → record.expires_at ≤ now t)
    (hx : stmt S t env s p = some (s', p')) :
    s'.rows.committed = s.rows.committed ∧ (∀ u, u ≠ t → s'.rows.written u = s.rows.written u) ∧
      (Asking req now slot t s'.rows p' ∧ s'.rows.written t slot = none ∨
        Holding S req now slot t s'.rows p') := by
  have hview : s.rows.view t slot = s.rows.committed slot := Table.view_of_written_eq_none hnone
  rcases h with rfl | ⟨row, hrow, rfl | rfl⟩
  · rcases insertRow_cases hx with ⟨rows, hv, hput, rfl, rfl⟩ | ⟨⟨row, hrow⟩, rfl, rfl⟩ |
      ⟨hlong, -⟩
    · rw [hslot] at hput hv
      have hcommitted := Table.committed_put hput
      refine ⟨hcommitted, fun u hu => Table.written_put_ne hput hu, .inr ⟨rfl, _,
        Table.written_put_self hput, ⟨rfl, rfl, rfl, rfl⟩, fun old hold => ?_⟩⟩
      rw [hcommitted, ← hview, hv] at hold
      cases hold
    · rw [hslot, hview] at hrow
      refine ⟨Table.committed_rollback' _ _, fun u hu => Table.written_rollback_ne _ hu,
        .inl ⟨.inr ⟨row, ?_, .inl rfl⟩, by simp [Store.rollback]⟩⟩
      rw [Store.rollback, Table.committed_rollback, hrow]
    · exact absurd (storable_key hslot hkey) hlong
  · have hrow' : s.rows.view t (req t).slot = some row := by rw [hslot, hview, hrow]
    simp only [stmt, hrow'] at hx
    obtain ⟨rfl, rfl⟩ := Prod.mk.inj (Option.some.inj hx)
    exact ⟨rfl, fun _ _ => rfl, .inl ⟨.inr ⟨row, hrow, .inr rfl⟩, hnone⟩⟩
  · have hrow' : s.rows.view t (req t).slot = some row := by rw [hslot, hview, hrow]
    obtain ⟨hput, rfl⟩ := reclaimed_of_inspectRow hrow' rfl (hexpired row hrow) hx
    obtain ⟨rows, hrows, rfl⟩ := Store.put_some hput
    rw [hslot] at hrows
    have hcommitted := Table.committed_put hrows
    refine ⟨hcommitted, fun u hu => Table.written_put_ne hrows hu, .inr ⟨rfl, _,
      Table.written_put_self hrows, ⟨rfl, rfl, rfl, rfl⟩, fun old hold => ?_⟩⟩
    rw [hcommitted] at hold
    have hsame : row = old := Option.some.inj (hrow.symm.trans hold)
    rw [← hsame]
    rfl

/-- Once the race is won, a call gets its answer or goes on asking. -/
theorem Asking.lost (h : Asking req now slot t s.rows p) (hslot : (req t).slot = slot)
    (hkey : Text.Storable 255 slot.2) (hfree : ∀ u, s.rows.written u slot = none)
    (hrow : s.rows.committed slot = some row)
    (hclaim : FreshClaim S w (req w) (now w) row) (hlive : now t < now w + S.ttl_seconds)
    (hx : stmt S t env s p = some (s', p')) :
    s'.rows.committed = s.rows.committed ∧ (∀ u, s'.rows.written u slot = none) ∧
      (Asking req now slot t s'.rows p' ∨ p' = .answered (req t) (verdict req w t)) := by
  have hview : s.rows.view t (req t).slot = some row := by
    rw [hslot, Table.view_of_written_eq_none (hfree t), hrow]
  have hrollback : (s.rollback t).rows.committed = s.rows.committed ∧
      ∀ u, (s.rollback t).rows.written u slot = none := by
    refine ⟨Table.committed_rollback' _ _, fun u => ?_⟩
    rw [Store.rollback, Table.written_rollback, hfree u, ite_self]
  rcases h with rfl | ⟨row', hrow', rfl | rfl⟩
  · rcases insertRow_cases hx with ⟨rows, hv, -, -, -⟩ | ⟨-, rfl, rfl⟩ | ⟨hlong, -⟩
    · exact absurd (hview.symm.trans hv) (by simp)
    · exact ⟨hrollback.1, hrollback.2, .inl (.inr ⟨row, by rw [hrollback.1, hrow], .inl rfl⟩)⟩
    · exact absurd (storable_key hslot hkey) hlong
  · simp only [stmt, hview] at hx
    obtain ⟨rfl, rfl⟩ := Prod.mk.inj (Option.some.inj hx)
    exact ⟨rfl, hfree, .inl (.inr ⟨row, hrow, .inr rfl⟩)⟩
  · obtain rfl : row = row' := Option.some.inj (hrow.symm.trans hrow')
    have hexpires : now t < row.expires_at := by rw [hclaim.expires_at]; exact hlive
    obtain ⟨rfl, rfl⟩ := answered_of_inspectRow hview rfl hexpires hx
    refine ⟨hrollback.1, hrollback.2, .inr ?_⟩
    have hstatus : row.status ≠ .completed := by rw [hclaim.status]; decide
    rw [inspectResult, verdict, hclaim.request_hash, if_neg hstatus]
    by_cases hhash : (req t).request_hash = (req w).request_hash
    · rw [if_pos hhash, if_neg (not_not.mpr hhash.symm)]
    · rw [if_neg hhash, if_pos (Ne.symm hhash)]

/-! ### Runs -/

/-- A race begins open. -/
theorem Race.isOpen (h : Race S calls req now slot c) : Open S calls req now slot c where
  call t ht := .inl ⟨.inl (h.start t ht), h.unlocked t⟩
  expired := h.expired
  writer hw := absurd hw (by simp [h.unlocked])

/-- What other calls hold or ask for depends on the committed row and on their own. -/
theorem Holding.congr (h : Holding S req now slot t s.rows p)
    (hc : s'.rows.committed = s.rows.committed) (hw : s'.rows.written t = s.rows.written t) :
    Holding S req now slot t s'.rows p := by
  obtain ⟨hp, row, hrow, hclaim, hid⟩ := h
  exact ⟨hp, row, by rw [hw, hrow], hclaim, fun old hold => hid old (by rw [← hc, hold])⟩

omit [DecidableEq T] in
/-- Whether a call is asking depends on the committed row only. -/
theorem Asking.congr (h : Asking req now slot t s.rows p)
    (hc : s'.rows.committed slot = s.rows.committed slot) : Asking req now slot t s'.rows p := by
  rcases h with h | ⟨row, hrow, h⟩
  · exact .inl h
  · exact .inr ⟨row, by rw [hc, hrow], h⟩

/-- The commit of the holder wins the race. -/
theorem won_of_commit (ho : Open S calls req now slot c) (ht : t ∈ calls)
    (hh : Holding S req now slot t c.shared.rows (c.proc t))
    (hx : stmt S t env c.shared (c.proc t) = some (s', p')) :
    Won S calls req now slot t ⟨s', Function.update c.proc t p'⟩ := by
  obtain ⟨hp, row, hrow, hclaim, hid⟩ := hh
  have hgrant : s' = c.shared.grant t (req t) ∧
      p' = .running (req t) (now t + S.ttl_seconds) [] := by
    cases hproc : c.proc t <;> rw [hproc] at hp hx <;> cases hp <;>
      exact (Prod.mk.inj (Option.some.inj hx)).imp Eq.symm Eq.symm
  obtain ⟨rfl, rfl⟩ := hgrant
  have hnew : (c.shared.grant t (req t)).rows.committed slot = some row := by
    rw [Store.grant, Store.commit, Table.committed_commit, Table.view_of_written hrow]
  refine ⟨ht, Function.update_self .., ⟨row, hnew, hclaim⟩, fun u => ?_, fun u hu hne => ?_⟩
  · rw [Store.grant, Store.commit, Table.written_commit]
    split
    · rfl
    · rename_i hne
      exact Table.written_eq_none_of_ne hrow hne
  · simp only [Function.update_of_ne hne]
    refine .inl ?_
    rcases ho.call u hu with ⟨hask, -⟩ | ⟨-, row', hrow', -⟩
    · rcases hask with hask | ⟨old, hold, hask⟩
      · exact .inl hask
      · exact .inr ⟨row, hnew, by rw [hid old hold]; exact hask⟩
    · exact absurd (Table.written_inj hrow' hrow) hne

/-- One statement of a race. -/
theorem race_step (hrace : Race S calls req now slot c₀)
    (h : Open S calls req now slot c ∨ ∃ w, Won S calls req now slot w c)
    (hok : Claiming calls c t a) (hstep : (program S).step c t a = some d) :
    Open S calls req now slot d ∨ ∃ w, Won S calls req now slot w d := by
  obtain ⟨s', p', hexec, rfl⟩ := Program.step_eq_some_iff.mp hstep
  rcases hok with rfl | ⟨ht, env, rfl⟩
  · obtain ⟨rfl, rfl⟩ := Prod.mk.inj (Option.some.inj hexec)
    rw [Function.update_eq_self]
    exact h.imp (fun ho => ⟨ho.call, ho.expired, ho.writer⟩)
      fun ⟨w, hw⟩ => ⟨w, hw.mem, hw.owner, hw.row, hw.unlocked, hw.others⟩
  replace hexec : stmt S t env c.shared (c.proc t) = some (s', p') := hexec
  rcases h with ho | ⟨w, hw⟩
  · rcases ho.call t ht with ⟨hask, hnone⟩ | hhold
    · obtain ⟨hcommitted, hwritten, hcall⟩ := hask.step (hrace.same_slot t ht)
        hrace.storable hnone (fun record hr => ho.expired record hr t ht) hexec
      refine .inl ⟨fun u hu => ?_, fun record hr => ho.expired record (by rwa [← hcommitted]),
        fun {u v} hv => ?_⟩
      · by_cases hut : u = t
        · subst hut
          simpa using hcall
        · simp only [Function.update_of_ne hut]
          refine (ho.call u hu).imp (fun hq => ⟨hq.1.congr (by rw [hcommitted]), ?_⟩)
            fun hq => hq.congr hcommitted (hwritten u hut)
          rw [hwritten u hut, hq.2]
      · by_cases hut : u = t
        · rwa [hut]
        · exact ho.writer (by rwa [← hwritten u hut])
    · exact .inr ⟨t, won_of_commit ho ht hhold hexec⟩
  · obtain ⟨row, hrow, hclaim⟩ := hw.row
    have htw : t ≠ w := by
      rintro rfl
      rw [hw.owner] at hexec
      cases hexec
    rcases hw.others t ht htw with hask | hans
    · obtain ⟨hcommitted, hunlocked, hcall⟩ := hask.lost (hrace.same_slot t ht)
        hrace.storable hw.unlocked hrow hclaim (hrace.close t ht w hw.mem) hexec
      refine .inr ⟨w, hw.mem, ?_, ⟨row, by rw [hcommitted, hrow], hclaim⟩, hunlocked,
        fun u hu hne => ?_⟩
      · simp only [Function.update_of_ne htw.symm, hw.owner]
      · by_cases hut : u = t
        · subst hut
          simpa using hcall
        · simp only [Function.update_of_ne hut]
          exact (hw.others u hu hne).imp (fun hq => hq.congr (by rw [hcommitted])) id
    · rw [hans] at hexec
      cases hexec

/-- **Every run of a race** leaves it open or won. -/
theorem race_of_run (hrace : Race S calls req now slot c₀)
    (h : (program S).Run (Claiming calls) c₀ c) :
    Open S calls req now slot c ∨ ∃ w, Won S calls req now slot w c :=
  h.invariant (fun _ _ _ _ hi hok hs => race_step hrace hi hok hs) (.inl hrace.isOpen)

/-! ### The outcome -/

/-- The call has returned. -/
def Proc.claimReturned : Proc T → Bool
  | .running _ _ _ | .answered _ _ => true
  | _ => false

omit [DecidableEq T] in
/-- A call that is asking has not returned. -/
theorem Asking.not_returned (h : Asking req now slot t s.rows p) : p.claimReturned = false := by
  rcases h with rfl | ⟨row, -, rfl | rfl⟩ <;> rfl

/-- Nor has one that holds the row. -/
theorem Holding.not_returned (h : Holding S req now slot t s.rows p) :
    p.claimReturned = false := by
  obtain ⟨hp, -⟩ := h
  cases p <;> first | rfl | cases hp

/-- As long as a race is open, the holder of the lock can commit, or any call can go on. -/
theorem Open.progress (ho : Open S calls req now slot c)
    (hrace : Race S calls req now slot c₀) :
    ∃ t ∈ calls, ∃ env, (stmt S t env c.shared (c.proc t)).isSome := by
  let env : Env := ⟨Uuid.ofNat 0, slot, Uuid.ofNat 0⟩
  by_cases hw : ∃ t ∈ calls, Holding S req now slot t c.shared.rows (c.proc t)
  · obtain ⟨t, ht, hp, -⟩ := hw
    refine ⟨t, ht, env, ?_⟩
    cases hproc : c.proc t <;> rw [hproc] at hp <;> cases hp <;> rfl
  · have hfree : ∀ u, c.shared.rows.written u slot = none := by
      intro u
      by_contra hne
      obtain ⟨v, hv⟩ := Option.ne_none_iff_exists'.mp hne
      have hu := ho.writer hv
      rcases ho.call u hu with ⟨-, hnone⟩ | hhold
      · exact hne hnone
      · exact hw ⟨u, hu, hhold⟩
    obtain ⟨t, ht⟩ := hrace.nonempty
    rcases ho.call t ht with ⟨hask, -⟩ | hhold
    · exact ⟨t, ht, env, hask.isSome (hrace.same_slot t ht) hfree⟩
    · exact absurd ⟨t, ht, hhold⟩ hw

/-- **One owner.** After any interleaving of the calls of a race: if all of them have
returned, exactly one owns the key, every other one is answered 409 or 422 as its
fingerprint is the owner's or not, and the row of the key has the fingerprint and the expiry
of the owner. If some call has not returned, some call can execute its next statement. -/
theorem one_owner_of_race (hrace : Race S calls req now slot c₀)
    (h : (program S).Run (Claiming calls) c₀ c) :
    ((∀ t ∈ calls, (c.proc t).claimReturned = true) →
      ∃ w ∈ calls, c.proc w = .running (req w) (now w + S.ttl_seconds) [] ∧
        (∀ t ∈ calls, t ≠ w → c.proc t = .answered (req t)
          (if (req t).request_hash = (req w).request_hash then .in_progress else .mismatch)) ∧
        ∃ row, c.shared.rows.committed slot = some row ∧
          row.request_hash = (req w).request_hash ∧
          row.expires_at = now w + S.ttl_seconds) ∧
    ((∀ t ∈ calls, (c.proc t).claimReturned = true) ∨
      ∃ t ∈ calls, ∃ env, ((program S).step c t (.stmt env)).isSome) := by
  have hstep : ∀ {t env}, (stmt S t env c.shared (c.proc t)).isSome →
      ((program S).step c t (.stmt env)).isSome := by
    intro t env hs
    rw [Program.step, Option.isSome_map]
    exact hs
  rcases race_of_run hrace h with ho | ⟨w, hw⟩
  · constructor
    · intro hall
      obtain ⟨t, ht⟩ := hrace.nonempty
      have hret := hall t ht
      rcases ho.call t ht with ⟨hask, -⟩ | hhold
      · rw [hask.not_returned] at hret
        cases hret
      · rw [hhold.not_returned] at hret
        cases hret
    · obtain ⟨t, ht, env, hs⟩ := ho.progress hrace
      exact .inr ⟨t, ht, env, hstep hs⟩
  · constructor
    · intro hall
      obtain ⟨row, hrow, hclaim⟩ := hw.row
      refine ⟨w, hw.mem, hw.owner, fun t ht hne => ?_, row, hrow, hclaim.request_hash,
        hclaim.expires_at⟩
      rcases hw.others t ht hne with hask | hans
      · have hret := hall t ht
        rw [hask.not_returned] at hret
        cases hret
      · exact hans
    · by_cases hall : ∀ t ∈ calls, (c.proc t).claimReturned = true
      · exact .inl hall
      · obtain ⟨t, ht⟩ := not_forall.mp hall
        obtain ⟨ht, hret⟩ := Classical.not_imp.mp ht
        have htw : t ≠ w := by
          rintro rfl
          exact hret (by rw [hw.owner]; rfl)
        rcases hw.others t ht htw with hask | hans
        · exact .inr ⟨t, ht, ⟨Uuid.ofNat 0, slot, Uuid.ofNat 0⟩,
            hstep (hask.isSome (hrace.same_slot t ht) hw.unlocked)⟩
        · exact absurd (by rw [hans]; rfl) hret

/-! ### A schedule -/

instance (c : Config T (Store T) (Proc T)) (t : T) (a : Act) :
    Decidable (Claiming calls c t a) :=
  match a with
  | .tick => isTrue (.inl rfl)
  | .stmt env => decidable_of_iff (t ∈ calls) ⟨fun h => .inr ⟨h, env, rfl⟩, fun h => by
      rcases h with h | ⟨h, -⟩
      · cases h
      · exact h⟩
  | .claim _ | .purge | .send _ | .ret | .raise | .fail => isFalse fun h => by
      rcases h with h | ⟨-, _, h⟩ <;> cases h

/-- Three calls on one key, the last of them with a fingerprint of its own. -/
def threeCalls (t : Fin 3) : Request := ⟨"scope", "key", if t.val = 2 then "h2" else "h1"⟩

/-- The calls at their start, on an empty table. -/
def threeStart : Config (Fin 3) (Store (Fin 3)) (Proc (Fin 3)) :=
  ⟨⟨Table.empty, 0, fun _ => none⟩, fun t => .insert (threeCalls t) 0⟩

/-- Three calls, two of them with one fingerprint, are a race. -/
theorem race_threeStart :
    Race shortLease {0, 1, 2} threeCalls (fun _ => 0) ("scope", "key") threeStart where
  nonempty := ⟨0, by decide⟩
  same_slot _ _ := rfl
  storable := by decide
  close _ _ _ _ := by decide
  start _ _ := rfl
  unlocked _ := rfl
  expired _ h _ _ := nomatch h

set_option maxRecDepth 10000 in
/-- After one interleaving of the three calls all of them have returned: one owns the key, and the
others are answered. -/
theorem one_owner_of_race_three :
    ∃ (c : Config (Fin 3) (Store (Fin 3)) (Proc (Fin 3))) (w : Fin 3),
      Race shortLease {0, 1, 2} threeCalls (fun _ => 0) ("scope", "key") threeStart ∧
      (program shortLease).Run (Claiming {0, 1, 2}) threeStart c ∧
      (∀ t ∈ ({0, 1, 2} : Finset (Fin 3)), (c.proc t).claimReturned = true) ∧
      c.proc w = .running (threeCalls w) (0 + shortLease.ttl_seconds) [] ∧
        ∀ t ∈ ({0, 1, 2} : Finset (Fin 3)), t ≠ w → c.proc t = .answered (threeCalls t)
          (if (threeCalls t).request_hash = (threeCalls w).request_hash then .in_progress
            else .mismatch) := by
  have hreplay : ((program shortLease).replay (Claiming {0, 1, 2}) threeStart
      [(0, next 1), (0, .tick), (0, next 1), (1, next 2), (2, next 3), (2, next 3), (1, next 2),
        (1, next 2), (2, next 3)]).any (fun c =>
          decide (∀ t ∈ ({0, 1, 2} : Finset (Fin 3)),
            (c.proc t).claimReturned = true)) = true := by
    decide
  obtain ⟨c, hrun, hp⟩ := Program.exists_run_of_replay hreplay
  have hreturned := of_decide_eq_true hp
  obtain ⟨w, -, howner, hothers, -⟩ := (one_owner_of_race race_threeStart hrun).1 hreturned
  exact ⟨c, w, race_threeStart, hrun, hreturned, howner, hothers⟩

end BackendManager.Idempotency
