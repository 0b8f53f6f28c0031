import BackendManager.Interleaving
import BackendManager.Outbox
import BackendManager.ReadCommitted

/-!
# The Relay as SQL Statements

`drain_outbox` of `app/webhooks/outbox.py`, cut at every SQL statement and every call of
`enqueue_fn`, together with the producers of events. Any number of drains and producers
interleave under READ COMMITTED; a drain can fail anywhere before its commit.

## Statement convention

* `SELECT ... ORDER BY created_at LIMIT n FOR UPDATE SKIP LOCKED` orders the pending rows of
  its snapshot and visits them until it has locked `n`. A row that another transaction
  holds is skipped. A row that is free is locked in its latest version, unless that version
  is not pending any more.
* Row locks and the new versions of a drain are uncommitted versions of its rows; to lock a
  row is to write the version that is there.
* `enqueue_fn` hands the job to the queue at once. A rollback does not take it back.
* The rows that a drain has changed are flushed before its next `SELECT` or its commit.
  It holds their locks, so that nobody sees when.
* Endpoints are changed by anybody at any time. That `(source, event_id)` is unique is left
  out: it can only make a producer fail.

## Main results

* `step_of_exec`: what one action can do; every invariant is proved from its cases.
* `loc_of_run`: what drains hold where they stand, and that all rows stay sound.
-/

namespace BackendManager.Webhooks

open ReadCommitted Interleaving

/-- What drains and producers share. -/
structure Database (T : Type) where
  /-- `outbox_events`. -/
  events : Table T Uuid OutboxEvent
  /-- The committed rows of `webhook_endpoints`. -/
  endpoints : List WebhookEndpoint
  /-- The jobs that the queue has accepted, oldest first. -/
  queue : List Job

/-- An event that a drain has selected, with its key. -/
abbrev Claim := Uuid × OutboxEvent

/-- Where a request stands: the statement it executes next, with what its Python frame holds
at that point. -/
inductive Proc
  /-- Not started. -/
  | idle
  /-- The `SELECT` of the pending events is next. -/
  | select
  /-- The `SELECT` still has to visit the rows `todo`. -/
  | locking (todo : List Uuid) (claimed : List Claim)
  /-- The loop of `drain_outbox` is at the next event, or at its end. -/
  | loop (claimed : List Claim) (published : ℕ)
  /-- The loop of `_fan_out` is at the next of these endpoints, or at its end. -/
  | fanOut (k : Uuid) (event : OutboxEvent) (endpoints : List WebhookEndpoint)
      (claimed : List Claim) (published : ℕ)
  /-- The drain has committed. -/
  | returned (published : ℕ)
  /-- The `INSERT` of a new event is next. -/
  | insert (k : Uuid) (event : OutboxEvent)
  /-- The event is inserted; the producer's `COMMIT` is next. -/
  | inserted (k : Uuid) (event : OutboxEvent)
  /-- The producer has committed. -/
  | done
  /-- The request ended with an exception or a crash, and its transaction was rolled
  back. -/
  | raised
deriving DecidableEq

/-- What the environment decides for one statement. -/
structure Env where
  /-- The reading of `_utcnow()`. -/
  now : ℕ
  /-- The pending rows of the snapshot, in the order of the `SELECT`. -/
  order : List Uuid
  /-- The answer of `enqueue_fn`. -/
  queued : Bool
deriving DecidableEq

/-- One scheduled action. -/
inductive Act
  /-- A relay run starts. -/
  | drain
  /-- A producer starts. -/
  | emit (k : Uuid) (event : OutboxEvent)
  /-- The committed endpoints change. -/
  | endpoints (endpoints : List WebhookEndpoint)
  /-- The next statement. -/
  | stmt (env : Env)
  /-- The request fails and is rolled back. -/
  | fail
deriving DecidableEq

variable {T : Type} [DecidableEq T]

/-! ### Statements -/

/-- `created_at` of the version that `t` sees. -/
def created_at (t : T) (events : Table T Uuid OutboxEvent) (k : Uuid) : ℕ :=
  ((events.view t k).map OutboxEvent.created_at).getD 0

/-- The list has the pending rows of the snapshot, in the order of `created_at`. -/
def IsSnapshot (t : T) (events : Table T Uuid OutboxEvent) (order : List Uuid) : Prop :=
  order.Nodup ∧ order.toFinset = events.scan t OutboxEvent.pending ∧
    order.Pairwise fun j k => created_at t events j ≤ created_at t events k

instance (t : T) (events : Table T Uuid OutboxEvent) (order : List Uuid) :
    Decidable (IsSnapshot t events order) := by
  unfold IsSnapshot
  infer_instance

/-- Visit one row of the snapshot: lock it if it is free and still pending. -/
def visit (t : T) (db : Database T) (k : Uuid) (todo : List Uuid) (claimed : List Claim) :
    Option (Database T × Proc) :=
  if db.events.free t k then
    match (db.events.view t k).filter OutboxEvent.pending with
    | some event =>
        (db.events.put t k (some event)).map fun events =>
          ({ db with events := events }, .locking todo (claimed ++ [(k, event)]))
    | none => some (db, .locking todo claimed)
  else some (db, .locking todo claimed)

/-- Change the row of a selected event, and go on with the loop. -/
def stamp (t : T) (db : Database T) (k : Uuid) (event : OutboxEvent) (next : Proc) :
    Option (Database T × Proc) :=
  (db.events.put t k (some event)).map fun events => ({ db with events := events }, next)

/-- One endpoint of `_fan_out`. A rejected delivery ends the loop and counts as a failed
attempt. -/
def enqueueNext (S : Settings) (t : T) (env : Env) (db : Database T) (k : Uuid)
    (event : OutboxEvent) (e : WebhookEndpoint) (endpoints : List WebhookEndpoint)
    (claimed : List Claim) (published : ℕ) : Option (Database T × Proc) :=
  if subscribed event e then
    if env.queued then
      some ({ db with queue := db.queue ++ [job event e] },
        .fanOut k event endpoints claimed published)
    else stamp t db k (event.rejected S env.now e) (.loop claimed published)
  else some (db, .fanOut k event endpoints claimed published)

/-- The `INSERT` of a new event. A key that is taken ends the request. -/
def insertEvent (t : T) (db : Database T) (k : Uuid) (event : OutboxEvent) :
    Option (Database T × Proc) :=
  (db.events.insert t k event).map fun
    | .ok events => ({ db with events := events }, .inserted k event)
    | .error _ => ({ db with events := db.events.rollback t }, .raised)

/-- The next statement of a request. -/
def stmt (S : Settings) (t : T) (env : Env) (db : Database T) :
    Proc → Option (Database T × Proc)
  | .select => if IsSnapshot t db.events env.order then some (db, .locking env.order []) else none
  | .locking [] claimed => some (db, .loop claimed 0)
  | .locking (k :: todo) claimed =>
      if claimed.length < S.limit then visit t db k todo claimed
      else some (db, .loop claimed 0)
  | .loop [] published => some ({ db with events := db.events.commit t }, .returned published)
  | .loop ((k, event) :: claimed) published =>
      if event.source ≠ WEBHOOK_SOURCE then
        stamp t db k (event.published env.now) (.loop claimed (published + 1))
      else some (db, .fanOut k event (activeEndpoints event db.endpoints) claimed published)
  | .fanOut k event [] claimed published =>
      stamp t db k (event.published env.now) (.loop claimed (published + 1))
  | .fanOut k event (e :: endpoints) claimed published =>
      enqueueNext S t env db k event e endpoints claimed published
  | .insert k event => insertEvent t db k event
  | .inserted _ _ => some ({ db with events := db.events.commit t }, .done)
  | .idle | .returned _ | .done | .raised => none

/-- The request is under way. -/
def Proc.active : Proc → Bool
  | .idle | .returned _ | .done | .raised => false
  | _ => true

/-- One action of one request. -/
def exec (S : Settings) (t : T) : Act → Database T → Proc → Option (Database T × Proc)
  | .drain, db, .idle => some (db, .select)
  | .emit k event, db, .idle => if event.fresh then some (db, .insert k event) else none
  | .endpoints endpoints, db, p => some ({ db with endpoints := endpoints }, p)
  | .stmt env, db, p => stmt S t env db p
  | .fail, db, p =>
      if p.active then some ({ db with events := db.events.rollback t }, .raised) else none
  | _, _, _ => none

/-- The relay and the producers as an interleaved program. -/
def program (S : Settings) : Program T (Database T) Proc Act := ⟨exec S⟩

/-- A start: sound events, nobody holds a row, and no request has started. -/
structure Start (S : Settings) (c : Config T (Database T) Proc) : Prop where
  sound : c.shared.events.Every fun _ event => event.Sound S
  untouched : ∀ t, c.shared.events.Untouched t
  idle : ∀ t, c.proc t = .idle

/-- All schedules. -/
abbrev Any : Config T (Database T) Proc → T → Act → Prop := fun _ _ _ => True

/-- The events that a drain has selected and not yet dealt with. -/
def Proc.claimed : Proc → List Claim
  | .locking _ claimed | .loop claimed _ => claimed
  | .fanOut k event _ claimed _ => (k, event) :: claimed
  | _ => []

section Proofs

variable {S : Settings} {t u : T} {db db' : Database T} {env : Env}
  {c d : Config T (Database T) Proc} {a : Act} {p p' next : Proc} {j k : Uuid}
  {event row : OutboxEvent} {e : WebhookEndpoint} {endpoints : List WebhookEndpoint}
  {todo : List Uuid} {claimed : List Claim} {published : ℕ}

/-! ### What one action can do -/

/-- The statement that a request executes next is its COMMIT. -/
def Proc.committing : Proc → Bool
  | .loop [] _ | .inserted _ _ => true
  | _ => false

/-- What one action can do, branch by branch. -/
inductive Step (S : Settings) (t : T) (db : Database T) : Proc → Database T → Proc → Prop
  /-- A request starts. -/
  | start {next : Proc} (hnext : next = .select ∨ ∃ k event, event.fresh = true ∧
      next = .insert k event) : Step S t db .idle db next
  | endpoints {p : Proc} (endpoints : List WebhookEndpoint) :
      Step S t db p { db with endpoints := endpoints } p
  /-- A failure, or the `INSERT` of a key that is taken. -/
  | rollback {p : Proc} : Step S t db p { db with events := db.events.rollback t } .raised
  | commit {p next : Proc} (hp : p.committing = true)
      (hnext : (∃ published, next = .returned published) ∨ next = .done) :
      Step S t db p { db with events := db.events.commit t } next
  | select {order : List Uuid} (horder : IsSnapshot t db.events order) :
      Step S t db .select db (.locking order [])
  | lock {k : Uuid} {event : OutboxEvent} {todo : List Uuid} {claimed : List Claim}
      {events : Table T Uuid OutboxEvent} (hview : db.events.view t k = some event)
      (hpending : event.pending = true) (hput : db.events.put t k (some event) = some events) :
      Step S t db (.locking (k :: todo) claimed) { db with events := events }
        (.locking todo (claimed ++ [(k, event)]))
  | skip {k : Uuid} {todo : List Uuid} {claimed : List Claim} :
      Step S t db (.locking (k :: todo) claimed) db (.locking todo claimed)
  /-- The `SELECT` is at its end, or has locked `limit` rows. -/
  | selected {todo : List Uuid} {claimed : List Claim} :
      Step S t db (.locking todo claimed) db (.loop claimed 0)
  | unknown {k : Uuid} {event : OutboxEvent} {claimed : List Claim} {published now : ℕ}
      {events : Table T Uuid OutboxEvent} (hsource : event.source ≠ WEBHOOK_SOURCE)
      (hput : db.events.put t k (some (event.published now)) = some events) :
      Step S t db (.loop ((k, event) :: claimed) published) { db with events := events }
        (.loop claimed (published + 1))
  | fanOut {k : Uuid} {event : OutboxEvent} {claimed : List Claim} {published : ℕ}
      (hsource : event.source = WEBHOOK_SOURCE) :
      Step S t db (.loop ((k, event) :: claimed) published) db
        (.fanOut k event (activeEndpoints event db.endpoints) claimed published)
  | enqueue {k : Uuid} {event : OutboxEvent} {e : WebhookEndpoint}
      {endpoints : List WebhookEndpoint} {claimed : List Claim} {published : ℕ} :
      Step S t db (.fanOut k event (e :: endpoints) claimed published)
        { db with queue := db.queue ++ [job event e] } (.fanOut k event endpoints claimed published)
  | pass {k : Uuid} {event : OutboxEvent} {e : WebhookEndpoint}
      {endpoints : List WebhookEndpoint} {claimed : List Claim} {published : ℕ}
      (hs : ¬ subscribed event e = true) :
      Step S t db (.fanOut k event (e :: endpoints) claimed published) db
        (.fanOut k event endpoints claimed published)
  | reject {k : Uuid} {event : OutboxEvent} {e : WebhookEndpoint}
      {endpoints : List WebhookEndpoint} {claimed : List Claim} {published now : ℕ}
      {events : Table T Uuid OutboxEvent}
      (hput : db.events.put t k (some (event.rejected S now e)) = some events) :
      Step S t db (.fanOut k event (e :: endpoints) claimed published) { db with events := events }
        (.loop claimed published)
  | publish {k : Uuid} {event : OutboxEvent} {claimed : List Claim} {published now : ℕ}
      {events : Table T Uuid OutboxEvent}
      (hput : db.events.put t k (some (event.published now)) = some events) :
      Step S t db (.fanOut k event [] claimed published) { db with events := events }
        (.loop claimed (published + 1))
  | insert {k : Uuid} {event : OutboxEvent} {events : Table T Uuid OutboxEvent}
      (hview : db.events.view t k = none) (hput : db.events.put t k (some event) = some events) :
      Step S t db (.insert k event) { db with events := events } (.inserted k event)

theorem stamp_eq_some (h : stamp t db k event next = some (db', p')) :
    ∃ events, db.events.put t k (some event) = some events ∧
      db' = { db with events := events } ∧ p' = next := by
  obtain ⟨events, hput, h⟩ := Option.map_eq_some_iff.mp h
  obtain ⟨rfl, rfl⟩ := Prod.mk.inj h
  exact ⟨events, hput, rfl, rfl⟩

/-- A visit locks the row, or skips it. -/
theorem step_of_visit (h : visit t db k todo claimed = some (db', p')) :
    Step S t db (.locking (k :: todo) claimed) db' p' := by
  rw [visit] at h
  split at h
  · split at h
    · rename_i event hevent
      obtain ⟨hview, hpending⟩ := Option.filter_eq_some_iff.mp hevent
      obtain ⟨events, hput, rfl, rfl⟩ := stamp_eq_some h
      exact .lock hview hpending hput
    · obtain ⟨rfl, rfl⟩ := Prod.mk.inj (Option.some.inj h)
      exact .skip
  · obtain ⟨rfl, rfl⟩ := Prod.mk.inj (Option.some.inj h)
    exact .skip

/-- One endpoint of a fan-out: its job is accepted, it is not subscribed, or its job is
rejected. -/
theorem step_of_enqueueNext
    (h : enqueueNext S t env db k event e endpoints claimed published = some (db', p')) :
    Step S t db (.fanOut k event (e :: endpoints) claimed published) db' p' := by
  rw [enqueueNext] at h
  split at h
  · split at h
    · obtain ⟨rfl, rfl⟩ := Prod.mk.inj (Option.some.inj h)
      exact .enqueue
    · obtain ⟨events, hput, rfl, rfl⟩ := stamp_eq_some h
      exact .reject hput
  · rename_i hs
    obtain ⟨rfl, rfl⟩ := Prod.mk.inj (Option.some.inj h)
    exact .pass hs

/-- The `INSERT` of a new event, under an unused key. -/
theorem step_of_insertEvent (h : insertEvent t db k event = some (db', p')) :
    Step S t db (.insert k event) db' p' := by
  obtain ⟨x, hx, h⟩ := Option.map_eq_some_iff.mp h
  cases x with
  | ok events =>
      obtain ⟨rfl, rfl⟩ := Prod.mk.inj h
      obtain ⟨hview, hput⟩ := Table.insert_eq_ok_iff.mp hx
      exact .insert hview hput
  | error e =>
      obtain ⟨rfl, rfl⟩ := Prod.mk.inj h
      exact .rollback

/-- **Every statement is a step**: the statements of the source, one by one, against the
constructors of `Step`. -/
theorem step_of_stmt (h : stmt S t env db p = some (db', p')) : Step S t db p db' p' := by
  cases p with
  | idle | returned _ | done | raised => cases h
  | select =>
      simp only [stmt] at h
      split at h
      · rename_i horder
        obtain ⟨rfl, rfl⟩ := Prod.mk.inj (Option.some.inj h)
        exact .select horder
      · cases h
  | locking todo claimed =>
      cases todo with
      | nil =>
          obtain ⟨rfl, rfl⟩ := Prod.mk.inj (Option.some.inj h)
          exact .selected
      | cons k todo =>
          simp only [stmt] at h
          split at h
          · exact step_of_visit h
          · obtain ⟨rfl, rfl⟩ := Prod.mk.inj (Option.some.inj h)
            exact .selected
  | loop claimed published =>
      cases claimed with
      | nil =>
          obtain ⟨rfl, rfl⟩ := Prod.mk.inj (Option.some.inj h)
          exact .commit rfl (.inl ⟨published, rfl⟩)
      | cons claim claimed =>
          obtain ⟨k, event⟩ := claim
          simp only [stmt] at h
          split at h
          · rename_i hsource
            obtain ⟨events, hput, rfl, rfl⟩ := stamp_eq_some h
            exact .unknown hsource hput
          · rename_i hsource
            obtain ⟨rfl, rfl⟩ := Prod.mk.inj (Option.some.inj h)
            exact .fanOut (not_not.mp hsource)
  | fanOut k event endpoints claimed published =>
      cases endpoints with
      | nil =>
          obtain ⟨events, hput, rfl, rfl⟩ := stamp_eq_some h
          exact .publish hput
      | cons e endpoints => exact step_of_enqueueNext h
  | insert k event => exact step_of_insertEvent h
  | inserted k event =>
      obtain ⟨rfl, rfl⟩ := Prod.mk.inj (Option.some.inj h)
      exact .commit rfl (.inr rfl)

/-- **Every action is one of these steps.** -/
theorem step_of_exec (h : exec S t a db p = some (db', p')) : Step S t db p db' p' := by
  cases a with
  | drain =>
      cases p <;> simp only [exec, reduceCtorEq] at h
      obtain ⟨rfl, rfl⟩ := Prod.mk.inj (Option.some.inj h)
      exact .start (.inl rfl)
  | emit k event =>
      cases p <;> simp only [exec, reduceCtorEq] at h
      split at h
      · rename_i hfresh
        obtain ⟨rfl, rfl⟩ := Prod.mk.inj (Option.some.inj h)
        exact .start (.inr ⟨k, event, hfresh, rfl⟩)
      · cases h
  | endpoints endpoints =>
      simp only [exec] at h
      obtain ⟨rfl, rfl⟩ := Prod.mk.inj (Option.some.inj h)
      exact .endpoints endpoints
  | stmt env => exact step_of_stmt h
  | fail =>
      simp only [exec] at h
      split at h
      · obtain ⟨rfl, rfl⟩ := Prod.mk.inj (Option.some.inj h)
        exact .rollback
      · cases h

/-- A step keeps the committed rows and the writes of the other requests, or it is a
commit. -/
theorem Step.cases (h : Step S t db p db' p') :
    Table.Private t db.events db'.events ∨
      p.committing = true ∧ db'.events = db.events.commit t := by
  cases h with
  | start _ | endpoints _ | select _ | skip | selected | fanOut _ | enqueue | pass _ =>
      exact .inl (.refl t _)
  | rollback => exact .inl (.of_rollback t _)
  | commit hp _ => exact .inr ⟨hp, rfl⟩
  | lock _ _ hput | unknown _ hput | reject hput | publish hput | insert _ hput =>
      exact .inl (.of_put hput)

/-! ### Assertions -/

/-- What a drain holds: the events that it has selected are locked in their committed
version, and whatever it has written are versions of pending rows. -/
structure Drains (t : T) (events : Table T Uuid OutboxEvent) (claimed : List Claim) : Prop where
  held : ∀ {k event}, (k, event) ∈ claimed → events.committed k = some event ∧
    event.pending = true ∧ events.written t k = some (some event)
  nodup : (claimed.map Prod.fst).Nodup
  written : ∀ {k v}, events.written t k = some v →
    ∃ row row', events.committed k = some row ∧ row.pending = true ∧ v = some row'

/-- The assertion of a request: what it holds where it stands. -/
def Loc (t : T) (events : Table T Uuid OutboxEvent) : Proc → Prop
  | .locking todo claimed => Drains t events claimed ∧ (claimed.map Prod.fst ++ todo).Nodup ∧
      ∀ k v, events.written t k = some v → k ∈ claimed.map Prod.fst
  | .loop claimed _ => Drains t events claimed
  | .fanOut k event _ claimed _ => Drains t events ((k, event) :: claimed) ∧
      event.source = WEBHOOK_SOURCE
  | .insert _ event => events.Untouched t ∧ event.fresh = true
  | .inserted k event => events.committed k = none ∧ events.Sole t k (some event)
  | _ => events.Untouched t

/-- A drain that has selected nothing. -/
theorem Drains.nil (hun : db.events.Untouched t) : Drains t db.events [] :=
  ⟨fun h => absurd h List.not_mem_nil, List.nodup_nil, fun {k v} hv => by
    rw [hun k] at hv
    cases hv⟩

theorem Drains.undisturbed {events events' : Table T Uuid OutboxEvent}
    (h : Drains u events claimed) (hu : Table.Undisturbed u events events') :
    Drains u events' claimed := by
  refine ⟨fun hmem => ?_, h.nodup, fun {k v} hv => ?_⟩
  · obtain ⟨hrow, hpending, hw⟩ := h.held hmem
    exact ⟨by rw [hu.held hw, hrow], hpending, by rw [hu.written, hw]⟩
  · rw [hu.written] at hv
    obtain ⟨row, row', hrow, hrest⟩ := h.written hv
    exact ⟨row, row', by rw [hu.held hv, hrow], hrest⟩

/-- **Interference freedom.** -/
theorem Loc.undisturbed {events events' : Table T Uuid OutboxEvent} (hL : Loc u events p)
    (hu : Table.Undisturbed u events events') : Loc u events' p := by
  cases p with
  | idle | select | returned _ | done | raised => exact Table.Untouched.congr hL hu.written
  | locking todo claimed =>
      obtain ⟨hdrains, hnodup, hclaimed⟩ := hL
      refine ⟨hdrains.undisturbed hu, hnodup, fun k v hv => hclaimed k v ?_⟩
      rwa [hu.written] at hv
  | loop claimed published => exact Drains.undisturbed hL hu
  | fanOut k event endpoints claimed published => exact ⟨hL.1.undisturbed hu, hL.2⟩
  | insert k event => exact ⟨hL.1.congr hu.written, hL.2⟩
  | inserted k event => exact ⟨by rw [hu.held hL.2.1, hL.1], hL.2.congr hu.written⟩

/-- **No action of one request disturbs another**, whatever the action is. -/
theorem Step.undisturbed (h : Step S t db p db' p') (hu : u ≠ t) :
    Table.Undisturbed u db.events db'.events := by
  rcases h.cases with hpriv | ⟨-, hcommit⟩
  · exact hpriv.undisturbed hu
  · rw [hcommit]
    exact Table.undisturbed_commit _ hu

/-! ### Local correctness -/

/-- A visit that locks its row. -/
theorem loc_of_visit (hL : Loc t db.events (.locking (k :: todo) claimed))
    (hview : db.events.view t k = some event) (hpending : event.pending = true)
    (hput : db.events.put t k (some event) = some db'.events) :
    Loc t db'.events (.locking todo (claimed ++ [(k, event)])) := by
  obtain ⟨hdrains, hnodup, hclaimed⟩ := hL
  have hk : k ∉ claimed.map Prod.fst := by
    intro hmem
    exact (List.nodup_append.mp hnodup).2.2 k hmem k List.mem_cons_self rfl
  have hnone : db.events.written t k = none := by
    by_contra hne
    obtain ⟨v, hv⟩ := Option.ne_none_iff_exists'.mp hne
    exact hk (hclaimed k v hv)
  rw [Table.view_of_written_eq_none hnone] at hview
  have hnodup' : ((claimed ++ [(k, event)]).map Prod.fst ++ todo).Nodup := by
    simpa using hnodup
  refine ⟨⟨fun {j row} hmem => ?_, (List.nodup_append.mp hnodup').1, fun {j v} hv => ?_⟩, hnodup',
    fun j v hv => ?_⟩
  · rw [Table.committed_put hput]
    rcases List.mem_append.mp hmem with hold | hnew
    · obtain ⟨hrow, hp, hw⟩ := hdrains.held hold
      have hj : j ≠ k := by
        rintro rfl
        exact hk (List.mem_map.mpr ⟨(j, row), hold, rfl⟩)
      exact ⟨hrow, hp, by rw [Table.written_put_of_key_ne hput hj, hw]⟩
    · obtain ⟨rfl, rfl⟩ := Prod.mk.inj (List.mem_singleton.mp hnew)
      exact ⟨hview, hpending, Table.written_put_self hput⟩
  · rw [Table.committed_put hput]
    by_cases hj : j = k
    · subst hj
      rw [Table.written_put_self hput, Option.some.injEq] at hv
      exact ⟨event, event, hview, hpending, hv.symm⟩
    · rw [Table.written_put_of_key_ne hput hj] at hv
      exact hdrains.written hv
  · rw [List.map_append, List.mem_append]
    by_cases hj : j = k
    · exact .inr (by simp [hj])
    · rw [Table.written_put_of_key_ne hput hj] at hv
      exact .inl (hclaimed j v hv)

/-- The first selected event is dealt with. -/
theorem Drains.stamp (h : Drains t db.events ((k, event) :: claimed))
    (hput : db.events.put t k (some row) = some db'.events) : Drains t db'.events claimed := by
  obtain ⟨hrow, hpending, hw⟩ := h.held List.mem_cons_self
  obtain ⟨hk, hnodup⟩ := List.nodup_cons.mp h.nodup
  refine ⟨fun {j event'} hmem => ?_, hnodup, fun {j v} hv => ?_⟩
  · obtain ⟨hrow', hpending', hw'⟩ := h.held (List.mem_cons_of_mem _ hmem)
    have hj : j ≠ k := by
      rintro rfl
      exact hk (List.mem_map.mpr ⟨(j, event'), hmem, rfl⟩)
    rw [Table.committed_put hput, Table.written_put_of_key_ne hput hj]
    exact ⟨hrow', hpending', hw'⟩
  · rw [Table.committed_put hput]
    by_cases hj : j = k
    · subst hj
      rw [Table.written_put_self hput, Option.some.injEq] at hv
      exact ⟨event, row, hrow, hpending, hv.symm⟩
    · rw [Table.written_put_of_key_ne hput hj] at hv
      exact h.written hv

/-- **Local correctness.** Every step establishes the next assertion of its request. -/
theorem Step.loc (h : Step S t db p db' p') (hL : Loc t db.events p) : Loc t db'.events p' := by
  cases h with
  | start hnext =>
      rcases hnext with rfl | ⟨k, event, hfresh, rfl⟩
      · exact hL
      · exact ⟨hL, hfresh⟩
  | endpoints _ | enqueue | pass _ => exact hL
  | rollback => exact Table.untouched_rollback _ _
  | commit _ hnext =>
      rcases hnext with ⟨published, rfl⟩ | rfl
      · exact Table.untouched_commit _ _
      · exact Table.untouched_commit _ _
  | select horder =>
      have hun : db.events.Untouched t := hL
      exact ⟨.nil hun, by simpa using horder.1, fun k v hv => absurd hv hun.not_written⟩
  | lock hview hpending hput => exact loc_of_visit hL hview hpending hput
  | skip =>
      obtain ⟨hdrains, hnodup, hclaimed⟩ := hL
      refine ⟨hdrains, ?_, hclaimed⟩
      exact hnodup.sublist ((List.sublist_cons_self _ _).append_left _)
  | selected => exact hL.1
  | unknown _ hput => exact Drains.stamp hL hput
  | fanOut hsource => exact ⟨hL, hsource⟩
  | reject hput | publish hput => exact hL.1.stamp hput
  | insert hview hput =>
      obtain ⟨hun, -⟩ := hL
      refine ⟨?_, hun.put hput⟩
      rw [Table.committed_put hput, ← hun.view, hview]

/-- A drain stamps the row of an event that it holds. -/
theorem Drains.sound_put {events : Table T Uuid OutboxEvent}
    (hd : Drains t db.events ((k, event) :: claimed))
    (hs : db.events.Every fun _ event => event.Sound S)
    (hrow : event.Sound S → event.pending = true → row.Sound S)
    (hput : db.events.put t k (some row) = some events) :
    events.Every fun _ event => event.Sound S := by
  obtain ⟨hcommitted, hpending, -⟩ := hd.held List.mem_cons_self
  refine hs.put hput ?_
  rintro r ⟨⟩
  exact hrow (hs.committed hcommitted) hpending

/-- **Rows stay sound.** -/
theorem Step.sound (h : Step S t db p db' p') (hmax : 1 ≤ S.max_attempts)
    (hs : db.events.Every fun _ event => event.Sound S) (hL : Loc t db.events p) :
    db'.events.Every fun _ event => event.Sound S := by
  cases h with
  | start _ | endpoints _ | select _ | skip | selected | fanOut _ | enqueue | pass _ => exact hs
  | rollback => exact hs.rollback t
  | commit _ _ => exact hs.commit t
  | lock hview _ hput =>
      refine hs.put hput ?_
      rintro r ⟨⟩
      exact hs.view hview
  | unknown _ hput => exact Drains.sound_put hL hs OutboxEvent.sound_published hput
  | reject hput => exact hL.1.sound_put hs OutboxEvent.sound_rejected hput
  | publish hput => exact hL.1.sound_put hs OutboxEvent.sound_published hput
  | insert _ hput =>
      refine hs.put hput ?_
      rintro r ⟨⟩
      exact OutboxEvent.sound_of_fresh hmax hL.2

/-- The outline of the assertions. -/
theorem outline (hmax : 1 ≤ S.max_attempts) :
    (program S).Outline (Any (T := T)) (fun db => db.events.Every fun _ event => event.Sound S)
      fun u db p => Loc u db.events p where
  step _ hs hL h := ⟨(step_of_exec h).sound hmax hs (hL _), (step_of_exec h).loc (hL _)⟩
  frame hu _ _ hL h := (hL _).undisturbed ((step_of_exec h).undisturbed hu)

/-- **The assertions hold along every run**, and all rows stay sound. -/
theorem loc_of_run (hmax : 1 ≤ S.max_attempts) (hc : Start S c)
    (h : (program S).Run Any c d) :
    (d.shared.events.Every fun _ event => event.Sound S) ∧
      ∀ u, Loc u d.shared.events (d.proc u) := by
  refine (outline hmax).run h hc.sound fun v => ?_
  rw [hc.idle v]
  exact hc.untouched v

end Proofs

end BackendManager.Webhooks
