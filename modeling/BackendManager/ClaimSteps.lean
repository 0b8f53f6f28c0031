import BackendManager.IdempotencyStore

/-!
# What One Action of the Store and the Middleware Can Do

Every proof about idempotency keys goes through this module. It inverts the statements of
`BackendManager.IdempotencyStore` once, so that no later proof unfolds them.

`Step` has one constructor for each thing that a request can do, with the guards under which it
does it as arguments and the rows that it writes spelled out. A statement that has to wait for a
row lock is no step at all, so that a blocked request is one that cannot move. The failures that
a request meets end it with a rollback: a violated unique key leads to the look-up of the row
that is in the way, a key that its column cannot hold raises, and so does an UPDATE of a row
that is gone.

## Main results

* `insertRow_cases`, `inspectRow_cases`, `updateRow_cases`, `deleteRow_cases`,
  `purgeRow_cases`: what each statement writes, and where the request goes next.
* `step_of_exec`: every action is one of the cases of `Step`.
* `exec_cases`: an action changes the uncommitted rows of its request alone, or lets the
  clock advance, or commits a completion, a release or a purge, or commits a claim.
-/

namespace BackendManager.Idempotency

open ReadCommitted Interleaving

variable {T : Type} [DecidableEq T] {S : Settings} {t : T} {s s' : Store T} {a : Act}
  {p p' : Proc T} {req : Request} {now : ℕ} {slot : String × String}
  {record : IdempotencyKey T} {response : ResponseCapture}

/-- From `s` to `s'` only the uncommitted rows of `t` have changed. -/
structure Private (t : T) (s s' : Store T) : Prop where
  rows : Table.Private t s.rows s'.rows
  clock : s'.clock = s.clock
  granted : s'.granted = s.granted

/-- Doing nothing is private. -/
theorem Private.refl (t : T) (s : Store T) : Private t s s := ⟨.refl _ _, rfl, rfl⟩

/-- A rollback is private. -/
theorem Private.of_rollback (t : T) (s : Store T) : Private t s (s.rollback t) :=
  ⟨.of_rollback _ _, rfl, rfl⟩

/-- A write that is not blocked changes the rows alone. -/
theorem Store.put_some {v : Option (IdempotencyKey T)} (h : s.put t slot v = some s') :
    ∃ rows, s.rows.put t slot v = some rows ∧ s' = { s with rows } := by
  obtain ⟨rows, hput, rfl⟩ := Option.map_eq_some_iff.mp h
  exact ⟨rows, hput, rfl⟩

/-- And it is private until it is committed. -/
theorem Private.of_put {v : Option (IdempotencyKey T)} (h : s.put t slot v = some s') :
    Private t s s' := by
  obtain ⟨rows, hput, rfl⟩ := Store.put_some h
  exact ⟨.of_put hput, rfl, rfl⟩

/-- The `INSERT` of a claim finds the key unused, or the claim goes on to inspect, unless the key
is none that its column holds. -/
theorem insertRow_cases {env : Env} (h : insertRow S t env req now s = some (s', p')) :
    (∃ rows, s.rows.view t req.slot = none ∧
        s.rows.put t req.slot (some (newRow S t env req now)) = some rows ∧
        s' = { s with rows } ∧ p' = .insertCommit req now) ∨
      ((∃ record, s.rows.view t req.slot = some record) ∧ s' = s.rollback t ∧
        p' = .inspect req now) ∨
      ¬ Text.Storable 255 req.key ∧ s' = s.rollback t ∧ p' = .raised := by
  rw [insertRow] at h
  split at h
  · rcases Table.insert_map_cases h with ⟨rows, hview, hput, h⟩ | ⟨hsome, h⟩
    · obtain ⟨rfl, rfl⟩ := Prod.mk.inj h
      exact .inl ⟨rows, hview, hput, rfl, rfl⟩
    · obtain ⟨rfl, rfl⟩ := Prod.mk.inj h
      exact .inr (.inl ⟨Option.isSome_iff_exists.mp hsome, rfl, rfl⟩)
  · rename_i hlong
    obtain ⟨rfl, rfl⟩ := Prod.mk.inj (Option.some.inj h)
    exact .inr (.inr ⟨hlong, rfl, rfl⟩)

/-- A claim reclaims an expired row, or answers. -/
theorem inspectRow_cases {id : Uuid} (h : inspectRow S t req now id s = some (s', p')) :
    (∃ record, s.rows.view t req.slot = some record ∧ record.expires_at ≤ now ∧
        s.put t req.slot (some (reclaimed S t req now record)) = some s' ∧
        p' = .reclaimCommit req now) ∨
      s' = s.rollback t ∧ (p' = .answered req .in_progress ∨
        ∃ record, s.rows.view t req.slot = some record ∧
          p' = .answered req (inspectResult req record)) := by
  rw [inspectRow] at h
  split at h
  · split at h
    · obtain ⟨rfl, rfl⟩ := Prod.mk.inj (Option.some.inj h)
      exact .inr ⟨rfl, .inl rfl⟩
    · rename_i record hrecord
      split at h
      · obtain ⟨rfl, rfl⟩ := Prod.mk.inj (Option.some.inj h)
        exact .inr ⟨rfl, .inl rfl⟩
      · split at h
        · rename_i hexpired
          obtain ⟨s₁, hput, h⟩ := Option.map_eq_some_iff.mp h
          obtain ⟨rfl, rfl⟩ := Prod.mk.inj h
          exact .inl ⟨record, hrecord, hexpired, hput, rfl⟩
        · obtain ⟨rfl, rfl⟩ := Prod.mk.inj (Option.some.inj h)
          exact .inr ⟨rfl, .inr ⟨record, hrecord, rfl⟩⟩
  · cases h

/-- What a claim that finds an unexpired row of its key is answered. -/
theorem answered_of_inspectRow {id : Uuid} (hrow : s.rows.view t req.slot = some record)
    (hid : record.id = id) (hlive : now < record.expires_at)
    (h : inspectRow S t req now id s = some (s', p')) :
    s' = s.rollback t ∧ p' = .answered req (inspectResult req record) := by
  have hlive' : ¬ record.expires_at ≤ now := by omega
  rw [inspectRow] at h
  split at h
  · rw [hrow] at h
    simp only [hid, ne_eq, not_true_eq_false, if_false, hlive'] at h
    obtain ⟨rfl, rfl⟩ := Prod.mk.inj (Option.some.inj h)
    exact ⟨rfl, rfl⟩
  · cases h

/-- A claim that finds an expired row of its key reclaims it. -/
theorem reclaimed_of_inspectRow {id : Uuid} (hrow : s.rows.view t req.slot = some record)
    (hid : record.id = id) (hexpired : record.expires_at ≤ now)
    (h : inspectRow S t req now id s = some (s', p')) :
    s.put t req.slot (some (reclaimed S t req now record)) = some s' ∧
      p' = .reclaimCommit req now := by
  rw [inspectRow] at h
  split at h
  · rw [hrow] at h
    simp only [hid, ne_eq, not_true_eq_false, if_false, hexpired, if_true] at h
    obtain ⟨s₁, hput, h⟩ := Option.map_eq_some_iff.mp h
    obtain ⟨rfl, rfl⟩ := Prod.mk.inj h
    exact ⟨hput, rfl⟩
  · cases h

/-- The flush of `complete` writes the row with the loaded `id`, or nothing, or fails. -/
theorem updateRow_cases (h : updateRow t req response record s = some (s', p')) :
    (∃ current, s.rows.view t req.slot = some current ∧ current.id = record.id ∧
        s.put t req.slot (some (completed req response record current)) = some s' ∧
        p' = .completeCommit req) ∨
      (s' = s ∧ p' = .completeCommit req) ∨ s' = s.rollback t ∧ p' = .raised := by
  rw [updateRow] at h
  split at h
  · obtain ⟨rfl, rfl⟩ := Prod.mk.inj (Option.some.inj h)
    exact .inr (.inl ⟨rfl, rfl⟩)
  · split at h
    · obtain ⟨rfl, rfl⟩ := Prod.mk.inj (Option.some.inj h)
      exact .inr (.inr ⟨rfl, rfl⟩)
    · rename_i current hcurrent
      split at h
      · rename_i hid
        obtain ⟨s₁, hput, h⟩ := Option.map_eq_some_iff.mp h
        obtain ⟨rfl, rfl⟩ := Prod.mk.inj h
        exact .inl ⟨current, hcurrent, hid, hput, rfl⟩
      · obtain ⟨rfl, rfl⟩ := Prod.mk.inj (Option.some.inj h)
        exact .inr (.inr ⟨rfl, rfl⟩)

/-- The flush of `release` deletes the row with the loaded `id`, or nothing. -/
theorem deleteRow_cases {id : Uuid} (h : deleteRow t req id s = some (s', p')) :
    p' = .releaseCommit req ∧
      ((∃ current, s.rows.view t req.slot = some current ∧ current.id = id ∧
          s.put t req.slot none = some s') ∨ s' = s) := by
  rw [deleteRow] at h
  split at h
  · obtain ⟨rfl, rfl⟩ := Prod.mk.inj (Option.some.inj h)
    exact ⟨rfl, .inr rfl⟩
  · rename_i current hcurrent
    split at h
    · rename_i hid
      obtain ⟨s₁, hput, h⟩ := Option.map_eq_some_iff.mp h
      obtain ⟨rfl, rfl⟩ := Prod.mk.inj h
      exact ⟨rfl, .inl ⟨current, hcurrent, hid, hput⟩⟩
    · obtain ⟨rfl, rfl⟩ := Prod.mk.inj (Option.some.inj h)
      exact ⟨rfl, .inr rfl⟩

/-- A purge deletes a row that has expired, or leaves it. -/
theorem purgeRow_cases {id : Uuid} (h : purgeRow t now slot id s = some s') :
    (∃ record, s.rows.view t slot = some record ∧ record.expires_at ≤ now ∧
        s.put t slot none = some s') ∨ s' = s := by
  rw [purgeRow] at h
  split at h
  · split at h
    · exact .inr (Option.some.inj h).symm
    · rename_i record hrecord
      split at h
      · rename_i hexpired
        exact .inl ⟨record, hrecord, hexpired.2, h⟩
      · exact .inr (Option.some.inj h).symm
  · cases h

/-- A purge that is executing takes one row, or ends. -/
theorem purging_cases {env : Env} {todo : Finset ((String × String) × Uuid)}
    (h : stmt S t env s (.purging now todo) = some (s', p')) :
    (s' = s ∧ p' = .purgeCommit) ∨
      ∃ todo', purgeRow t now env.next.1 env.next.2 s = some s' ∧
        p' = .purging now todo' := by
  simp only [stmt] at h
  split at h
  · obtain ⟨rfl, rfl⟩ := Prod.mk.inj (Option.some.inj h)
    exact .inl ⟨rfl, rfl⟩
  · split at h
    · obtain ⟨s₁, hrow, h⟩ := Option.map_eq_some_iff.mp h
      obtain ⟨rfl, rfl⟩ := Prod.mk.inj h
      exact .inr ⟨_, hrow, rfl⟩
    · cases h

/-- The statement that a request executes next is a COMMIT that is no claim. -/
def Proc.committing : Proc T → Bool
  | .completeCommit _ | .releaseCommit _ | .purgeCommit => true
  | _ => false

/-- The claim that a request commits next. -/
def Proc.claiming : Proc T → Option (Request × ℕ)
  | .insertCommit req now | .reclaimCommit req now => some (req, now)
  | _ => none

/-- The claim of a request that has no answer yet. -/
def Proc.asking : Proc T → Option (Request × ℕ)
  | .insert req now | .inspect req now | .inspectLock req now _ => some (req, now)
  | _ => none

/-- Such a request can go on as long as nobody else has locked its key. -/
theorem isSome_of_asking {env : Env} (hp : p.asking = some (req, now))
    (hfree : s.rows.free t req.slot = true) : (stmt S t env s p).isSome := by
  have hput : ∀ v, ∃ rows, s.rows.put t req.slot v = some rows := by
    intro v
    rw [← Option.isSome_iff_exists, Option.isSome_iff_ne_none, ne_eq, Table.put_eq_none_iff, hfree]
    exact Bool.false_ne_true ∘ Eq.symm
  cases p <;> cases hp
  case insert =>
    simp only [stmt, insertRow]
    split
    · simp only [Option.isSome_map, Table.insert, hfree]
      split
      · rfl
      · obtain ⟨rows, hrows⟩ := hput (some (newRow S t env req now))
        rw [hrows]
        rfl
    · rfl
  case inspect => rfl
  case inspectLock =>
    simp only [stmt, inspectRow, hfree, if_true]
    split
    · rfl
    · split_ifs
      · rfl
      · rename_i record _ _ _
        obtain ⟨rows, hrows⟩ := hput (some (reclaimed S t req now record))
        simp [Store.put, hrows]
      · rfl

/-- What one action can do, branch by branch. -/
inductive Step (S : Settings) (t : T) (s : Store T) : Act → Proc T → Store T → Proc T → Prop
  | tick {p : Proc T} : Step S t s .tick p { s with clock := s.clock + 1 } p
  | claim {req : Request} : Step S t s (.claim req) .idle s (.insert req s.clock)
  | purge : Step S t s .purge .idle s (.purge s.clock)
  | send {m : Message} {req : Request} {x : ℕ} {sent : List Message} :
      Step S t s (.send m) (.running req x sent) s (.running req x (sent ++ [m]))
  | ret {req : Request} {x : ℕ} {sent : List Message} :
      Step S t s .ret (.running req x sent) s (handlerReturns S req sent)
  | raise {req : Request} {x : ℕ} {sent : List Message} :
      Step S t s .raise (.running req x sent) s (.release req)
  | fail {p : Proc T} : Step S t s .fail p (s.rollback t) .raised
  | insert {env : Env} {req : Request} {now : ℕ} {s' : Store T}
      (hfree : s.rows.view t req.slot = none)
      (hput : s.put t req.slot (some (newRow S t env req now)) = some s') :
      Step S t s (.stmt env) (.insert req now) s' (.insertCommit req now)
  /-- The key is taken. -/
  | collide {env : Env} {req : Request} {now : ℕ} :
      Step S t s (.stmt env) (.insert req now) (s.rollback t) (.inspect req now)
  /-- No column holds the key. -/
  | overlong {env : Env} {req : Request} {now : ℕ} (hlong : ¬ Text.Storable 255 req.key) :
      Step S t s (.stmt env) (.insert req now) (s.rollback t) .raised
  | grant {env : Env} {p : Proc T} {req : Request} {now : ℕ} (hp : p.claiming = some (req, now)) :
      Step S t s (.stmt env) p (s.grant t req) (.running req (now + S.ttl_seconds) [])
  | inspect {env : Env} {req : Request} {now : ℕ} {id : Uuid} :
      Step S t s (.stmt env) (.inspect req now) s (.inspectLock req now id)
  /-- The row is gone, or another one is in its place. -/
  | vanish {env : Env} {p : Proc T} {req : Request} {now : ℕ}
      (hp : p = .inspect req now ∨ ∃ id, p = .inspectLock req now id) :
      Step S t s (.stmt env) p (s.rollback t) (.answered req .in_progress)
  | reclaim {env : Env} {req : Request} {now : ℕ} {id : Uuid} {record : IdempotencyKey T}
      {s' : Store T} (hrow : s.rows.view t req.slot = some record)
      (hexpired : record.expires_at ≤ now)
      (hput : s.put t req.slot (some (reclaimed S t req now record)) = some s') :
      Step S t s (.stmt env) (.inspectLock req now id) s' (.reclaimCommit req now)
  | answer {env : Env} {req : Request} {now : ℕ} {id : Uuid} {record : IdempotencyKey T}
      (hrow : s.rows.view t req.slot = some record) :
      Step S t s (.stmt env) (.inspectLock req now id) (s.rollback t)
        (.answered req (inspectResult req record))
  | load {env : Env} {req : Request} {response : ResponseCapture} {record : IdempotencyKey T}
      (hrow : s.rows.view t req.slot = some record) :
      Step S t s (.stmt env) (.complete req response) s (.completeUpdate req response record)
  | update {env : Env} {req : Request} {response : ResponseCapture}
      {record current : IdempotencyKey T} {s' : Store T}
      (hrow : s.rows.view t req.slot = some current) (hid : current.id = record.id)
      (hput : s.put t req.slot (some (completed req response record current)) = some s') :
      Step S t s (.stmt env) (.completeUpdate req response record) s' (.completeCommit req)
  /-- The row has the response already. -/
  | unchanged {env : Env} {req : Request} {response : ResponseCapture}
      {record : IdempotencyKey T} :
      Step S t s (.stmt env) (.completeUpdate req response record) s (.completeCommit req)
  /-- The `UPDATE` finds no row. -/
  | stale {env : Env} {req : Request} {response : ResponseCapture} {record : IdempotencyKey T} :
      Step S t s (.stmt env) (.completeUpdate req response record) (s.rollback t) .raised
  | release {env : Env} {req : Request} {id : Uuid} :
      Step S t s (.stmt env) (.release req) s (.releaseDelete req id)
  /-- `complete` or `release` finds nothing to do. -/
  | leave {env : Env} {p : Proc T} {req : Request}
      (hp : p = .release req ∨ ∃ response, p = .complete req response) :
      Step S t s (.stmt env) p (s.rollback t) .finished
  | delete {env : Env} {req : Request} {current : IdempotencyKey T} {id : Uuid} {s' : Store T}
      (hrow : s.rows.view t req.slot = some current) (hid : current.id = id)
      (hput : s.put t req.slot none = some s') :
      Step S t s (.stmt env) (.releaseDelete req id) s' (.releaseCommit req)
  /-- The `DELETE` finds no row. -/
  | deleted {env : Env} {req : Request} {id : Uuid} :
      Step S t s (.stmt env) (.releaseDelete req id) s (.releaseCommit req)
  | commit {env : Env} {p : Proc T} (hp : p.committing = true) :
      Step S t s (.stmt env) p (s.commit t) .finished
  | scan {env : Env} {now : ℕ} :
      Step S t s (.stmt env) (.purge now) s (.purging now (expiredRows t now s))
  | purgeRow {env : Env} {now : ℕ} {slot : String × String}
      {todo todo' : Finset ((String × String) × Uuid)} {record : IdempotencyKey T} {s' : Store T}
      (hrow : s.rows.view t slot = some record) (hexpired : record.expires_at ≤ now)
      (hput : s.put t slot none = some s') :
      Step S t s (.stmt env) (.purging now todo) s' (.purging now todo')
  | keepRow {env : Env} {now : ℕ} {todo todo' : Finset ((String × String) × Uuid)} :
      Step S t s (.stmt env) (.purging now todo) s (.purging now todo')
  | purged {env : Env} {now : ℕ} {todo : Finset ((String × String) × Uuid)} :
      Step S t s (.stmt env) (.purging now todo) s .purgeCommit

/-- **Every statement is a step**: the statements of the source, one by one, against the
constructors of `Step`. -/
theorem step_of_stmt {env : Env} (h : stmt S t env s p = some (s', p')) :
    Step S t s (.stmt env) p s' p' := by
  cases p with
  | idle | running _ _ _ | answered _ _ | finished | raised => cases h
  | insert req now =>
      rcases insertRow_cases h with ⟨rows, hfree, hput, rfl, rfl⟩ | ⟨-, rfl, rfl⟩ |
        ⟨hlong, rfl, rfl⟩
      · exact .insert hfree (Option.map_eq_some_iff.mpr ⟨rows, hput, rfl⟩)
      · exact .collide
      · exact .overlong hlong
  | insertCommit req now | reclaimCommit req now =>
      obtain ⟨rfl, rfl⟩ := Prod.mk.inj (Option.some.inj h)
      exact .grant rfl
  | inspect req now =>
      simp only [stmt, Option.some.injEq] at h
      split at h <;> obtain ⟨rfl, rfl⟩ := Prod.mk.inj h
      · exact .vanish (.inl rfl)
      · exact .inspect
  | inspectLock req now id =>
      rcases inspectRow_cases h with ⟨record, hrow, hexpired, hput, rfl⟩ |
        ⟨rfl, rfl | ⟨record, hrow, rfl⟩⟩
      · exact .reclaim hrow hexpired hput
      · exact .vanish (.inr ⟨id, rfl⟩)
      · exact .answer hrow
  | complete req response =>
      simp only [stmt, Option.some.injEq] at h
      split at h <;> obtain ⟨rfl, rfl⟩ := Prod.mk.inj h
      · exact .leave (.inr ⟨response, rfl⟩)
      · rename_i record hrow
        exact .load hrow
  | completeUpdate req response record =>
      rcases updateRow_cases h with ⟨current, hrow, hid, hput, rfl⟩ | ⟨rfl, rfl⟩ | ⟨rfl, rfl⟩
      · exact .update hrow hid hput
      · exact .unchanged
      · exact .stale
  | release req =>
      simp only [stmt, Option.some.injEq] at h
      split at h
      · obtain ⟨rfl, rfl⟩ := Prod.mk.inj h
        exact .leave (.inl rfl)
      · split at h <;> obtain ⟨rfl, rfl⟩ := Prod.mk.inj h
        · exact .release
        · exact .leave (.inl rfl)
  | releaseDelete req id =>
      obtain ⟨rfl, ⟨current, hrow, hid, hput⟩ | rfl⟩ := deleteRow_cases h
      · exact .delete hrow hid hput
      · exact .deleted
  | completeCommit req | releaseCommit req | purgeCommit =>
      obtain ⟨rfl, rfl⟩ := Prod.mk.inj (Option.some.inj h)
      exact .commit rfl
  | purge now =>
      obtain ⟨rfl, rfl⟩ := Prod.mk.inj (Option.some.inj h)
      exact .scan
  | purging now todo =>
      rcases purging_cases h with ⟨rfl, rfl⟩ | ⟨todo', hrow, rfl⟩
      · exact .purged
      · rcases purgeRow_cases hrow with ⟨record, hrecord, hexpired, hput⟩ | rfl
        · exact .purgeRow hrecord hexpired hput
        · exact .keepRow

/-- **Every action is one of these steps.** -/
theorem step_of_exec (h : exec S t a s p = some (s', p')) : Step S t s a p s' p' := by
  cases a with
  | tick =>
      obtain ⟨rfl, rfl⟩ := Prod.mk.inj (Option.some.inj h)
      exact .tick
  | stmt env => exact step_of_stmt h
  | claim req | purge | send m | ret | raise =>
      cases p <;> simp only [exec, reduceCtorEq] at h
      obtain ⟨rfl, rfl⟩ := Prod.mk.inj (Option.some.inj h)
      constructor
  | fail =>
      simp only [exec] at h
      split at h
      · cases h
      · obtain ⟨rfl, rfl⟩ := Prod.mk.inj (Option.some.inj h)
        exact .fail

/-- An action changes the uncommitted rows of its request, or advances the clock, or commits
a completion, a release or a purge, or commits a claim. -/
theorem exec_cases (h : exec S t a s p = some (s', p')) :
    Private t s s' ∨ (s' = { s with clock := s.clock + 1 } ∧ p' = p) ∨
      (p.committing = true ∧ s' = s.commit t ∧ p' = .finished) ∨
      ∃ req now, p.claiming = some (req, now) ∧ s' = s.grant t req ∧
        p' = .running req (now + S.ttl_seconds) [] := by
  cases step_of_exec h with
  | tick => exact .inr (.inl ⟨rfl, rfl⟩)
  | commit hp => exact .inr (.inr (.inl ⟨hp, rfl, rfl⟩))
  | grant hp => exact .inr (.inr (.inr ⟨_, _, hp, rfl, rfl⟩))
  | claim | purge | send | ret | raise | inspect | load _ | unchanged | release | deleted | scan
  | keepRow | purged => exact .inl (.refl t _)
  | fail | collide | overlong _ | vanish _ | answer _ | stale | leave _ =>
      exact .inl (.of_rollback t s)
  | insert _ hput | reclaim _ _ hput | update _ _ hput | delete _ _ hput | purgeRow _ _ hput =>
      exact .inl (.of_put hput)

end BackendManager.Idempotency
