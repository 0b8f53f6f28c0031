import BackendManager.OutboxRelay

/-!
# What the Relay Guarantees

The results on interleaved drains. The row locks and the second look at a row that is locked
keep an event from being handled twice; one commit at the end of a batch keeps the stamp of
an event and its fan-out together.

An event of a source without a consumer is stamped published as well, and nothing is
enqueued for it.

A drain selects its events in the snapshot of one `SELECT` and locks each of them before it fans
the event out; what another drain has committed in between is seen at the second look, under the
lock. A drain that fails has enqueued jobs that stay enqueued, while its stamps are rolled back:
the events are fanned out again later.

## Main results

* `Done.of_step`: an event that is published or dead-lettered stays so, and no drain selects
  it or enqueues a delivery of it.
* `published_after_fan_out`: a webhook event is published by the commit of a drain that has
  enqueued all its deliveries.
* `relay_guarantees`: the guarantees of drains, along every run.
* `published_unheard`: an event of another source is published and not delivered.
-/

namespace BackendManager.Webhooks

open ReadCommitted Interleaving

/-- A step of the relay. -/
abbrev RelayStep (T : Type) := Program.Move T (Database T) Proc Act

variable {T : Type} {S : Settings} {t u : T} {db db' : Database T} {env : Env}
  {c d e : Config T (Database T) Proc} {a : Act} {p p' : Proc} {j k : Uuid}
  {event row : OutboxEvent} {endpoint : WebhookEndpoint} {endpoints : List WebhookEndpoint}
  {todo : List Uuid} {claimed : List Claim} {published : ℕ} {m : RelayStep T}
  {moves : List (RelayStep T)}

/-! ### Steps -/

/-- The step selects the event: the `SELECT` of a drain locks its row. -/
def Selects (m : RelayStep T) (k : Uuid) : Prop :=
  ∃ todo claimed event, m.before.proc m.thread = .locking (k :: todo) claimed ∧
    m.after.proc m.thread = .locking todo (claimed ++ [(k, event)])

/-- The step enqueues a delivery of the event. -/
def Enqueues (m : RelayStep T) (k : Uuid) (delivery : Job) : Prop :=
  ∃ event endpoint endpoints claimed published,
    m.before.proc m.thread = .fanOut k event (endpoint :: endpoints) claimed published ∧
      delivery = job event endpoint ∧
      m.after.shared.queue = m.before.shared.queue ++ [delivery]

/-- The step is the `SELECT` of the endpoints of the event. -/
def FansOut (m : RelayStep T) (k : Uuid) : Prop :=
  ∃ event claimed published, m.before.proc m.thread = .loop ((k, event) :: claimed) published ∧
    m.after.proc m.thread = .fanOut k event (activeEndpoints event m.before.shared.endpoints)
      claimed published

/-- In these steps `t` has enqueued a delivery of the event for every endpoint that awaited
it when `t` read the endpoints. -/
def FannedOut (moves : List (RelayStep T)) (t : T) (k : Uuid) (event : OutboxEvent) : Prop :=
  ∃ s ∈ moves, s.thread = t ∧ FansOut s k ∧
    ∀ endpoint ∈ s.before.shared.endpoints, Awaits event endpoint →
      ∃ q ∈ moves, q.thread = t ∧ Enqueues q k (job event endpoint)

/-- The same while the endpoints `rest` are still to be visited. -/
def FanningOut (moves : List (RelayStep T)) (t : T) (k : Uuid) (event : OutboxEvent)
    (rest : List WebhookEndpoint) : Prop :=
  ∃ s ∈ moves, s.thread = t ∧ FansOut s k ∧
    ∀ endpoint ∈ s.before.shared.endpoints, Awaits event endpoint →
      endpoint ∈ rest ∨ ∃ q ∈ moves, q.thread = t ∧ Enqueues q k (job event endpoint)

/-- The event is published or dead-lettered. -/
def Done (k : Uuid) (events : Table T Uuid OutboxEvent) : Prop :=
  ∃ row, events.committed k = some row ∧ row.pending = false

/-- A finished fan-out, when no endpoint is left. -/
theorem FanningOut.fannedOut (h : FanningOut moves t k event []) : FannedOut moves t k event := by
  obtain ⟨s, hs, hthread, hfan, hall⟩ := h
  refine ⟨s, hs, hthread, hfan, fun endpoint hmem hawaits => ?_⟩
  rcases hall endpoint hmem hawaits with hrest | hq
  · exact absurd hrest List.not_mem_nil
  · exact hq

/-- The stamp changes nothing that a delivery tells. -/
theorem FannedOut.stamp (h : FannedOut moves t k event) (now : ℕ) :
    FannedOut moves t k (event.published now) := by
  obtain ⟨s, hs, hthread, hfan, hall⟩ := h
  exact ⟨s, hs, hthread, hfan, fun endpoint hmem hawaits =>
    hall endpoint hmem ⟨hawaits.organization_id, hawaits.active, hawaits.subscribed⟩⟩

/-- Further steps take nothing back. -/
theorem FannedOut.mono (h : FannedOut moves t k event) (m : RelayStep T) :
    FannedOut (moves ++ [m]) t k event := by
  obtain ⟨s, hs, hthread, hfan, hall⟩ := h
  refine ⟨s, List.mem_append_left _ hs, hthread, hfan, fun endpoint hmem hawaits => ?_⟩
  obtain ⟨q, hq, hrest⟩ := hall endpoint hmem hawaits
  exact ⟨q, List.mem_append_left _ hq, hrest⟩

/-- What a drain has fanned out it has fanned out in every longer run. -/
theorem FanningOut.mono (h : FanningOut moves t k event endpoints) (m : RelayStep T) :
    FanningOut (moves ++ [m]) t k event endpoints := by
  obtain ⟨s, hs, hthread, hfan, hall⟩ := h
  refine ⟨s, List.mem_append_left _ hs, hthread, hfan, fun endpoint hmem hawaits => ?_⟩
  rcases hall endpoint hmem hawaits with hrest | ⟨q, hq, hrest⟩
  · exact .inl hrest
  · exact .inr ⟨q, List.mem_append_left _ hq, hrest⟩

section Steps

variable [DecidableEq T]

/-! ### Events that are done -/

/-- A selected event is pending. -/
theorem Loc.pending (hL : Loc t db.events p) (hk : (k, event) ∈ p.claimed) :
    db.events.committed k = some event ∧ event.pending = true ∧
      db.events.written t k = some (some event) := by
  cases p with
  | locking todo claimed => exact hL.1.held hk
  | loop claimed published => exact Drains.held hL hk
  | fanOut k' event' endpoints claimed published => exact hL.1.held hk
  | _ => exact absurd hk List.not_mem_nil

/-- A commit publishes new versions of pending rows, and new rows. -/
theorem Loc.written_done (hL : Loc t db.events p) (hk : Done k db.events) :
    p.committing = true → db.events.written t k = none := by
  obtain ⟨row, hrow, hdone⟩ := hk
  intro hp
  by_contra hne
  obtain ⟨v, hv⟩ := Option.ne_none_iff_exists'.mp hne
  cases p with
  | loop claimed published =>
      obtain ⟨row', -, hrow', hpending, -⟩ := Drains.written hL hv
      obtain rfl := Option.some.inj (hrow.symm.trans hrow')
      rw [hdone] at hpending
      cases hpending
  | inserted k' event =>
      obtain ⟨hnone, hsole⟩ := hL
      by_cases hk' : k = k'
      · rw [hk', hnone] at hrow
        cases hrow
      · exact hne (hsole.2 k hk')
  | _ => cases hp

/-- **What is done stays done.** -/
theorem Done.of_exec (hk : Done k db.events) (hL : Loc t db.events p)
    (h : exec S t a db p = some (db', p')) : Done k db'.events := by
  obtain ⟨row, hrow, hdone⟩ := id hk
  rcases (step_of_exec h).cases with hpriv | ⟨hp, hcommit⟩
  · exact ⟨row, by rw [hpriv.committed, hrow], hdone⟩
  · refine ⟨row, ?_, hdone⟩
    rw [hcommit, Table.committed_commit_of_written_eq_none (hL.written_done hk hp), hrow]

/-- **Events that are done are left alone**: no step selects one or enqueues a delivery of
it, and it stays done. -/
theorem Done.of_step (hL : Loc m.thread m.before.shared.events (m.before.proc m.thread))
    (hstep : (program S).step m.before m.thread m.action = some m.after)
    (hL' : Loc m.thread m.after.shared.events (m.after.proc m.thread))
    (hk : Done k m.before.shared.events) :
    ¬ Selects m k ∧ (∀ delivery, ¬ Enqueues m k delivery) ∧ Done k m.after.shared.events := by
  have hafter : Done k m.after.shared.events := by
    obtain ⟨g, l, hexec, heq⟩ := Program.step_eq_some_iff.mp hstep
    rw [heq]
    exact hk.of_exec hL hexec
  refine ⟨?_, ?_, hafter⟩
  · rintro ⟨todo, claimed, event, -, hp⟩
    rw [hp] at hL'
    have hmem : (k, event) ∈ (Proc.locking todo (claimed ++ [(k, event)])).claimed :=
      List.mem_append_right _ (List.mem_singleton_self _)
    obtain ⟨hrow, hpending, -⟩ := hL'.pending hmem
    obtain ⟨row, hrow', hdone⟩ := hafter
    obtain rfl := Option.some.inj (hrow.symm.trans hrow')
    rw [hdone] at hpending
    cases hpending
  · rintro delivery ⟨event, endpoint, endpoints, claimed, published, hp, -⟩
    rw [hp] at hL
    obtain ⟨hrow, hpending, -⟩ := hL.pending List.mem_cons_self
    obtain ⟨row, hrow', hdone⟩ := hk
    obtain rfl := Option.some.inj (hrow.symm.trans hrow')
    rw [hdone] at hpending
    cases hpending

/-! ### Where stamps come from -/

/-- A published version that `t` has written after a `put` was there before, or is the one
that it puts. -/
theorem published_of_put {events : Table T Uuid OutboxEvent} {r : OutboxEvent}
    (hput : db.events.put t j (some r) = some events)
    (hw : events.written t k = some (some row)) :
    db.events.written t k = some (some row) ∨ k = j ∧ row = r := by
  rw [Table.written_put hput] at hw
  split at hw
  · rename_i hself
    exact .inr ⟨hself.2, (Option.some.inj (Option.some.inj hw)).symm⟩
  · exact .inl hw

/-- A published version that `t` has written after a step was there before, or is the stamp
of the event that the drain was at. -/
theorem Step.published_origin (h : Step S t db p db' p') (hL : Loc t db.events p)
    (hw : db'.events.written t k = some (some row)) (hpub : row.published_at ≠ none) :
    db.events.written t k = some (some row) ∨
      ∃ event now, row = event.published now ∧
        ((event.source ≠ WEBHOOK_SOURCE ∧
            ∃ claimed published, p = .loop ((k, event) :: claimed) published) ∨
          ∃ claimed published, p = .fanOut k event [] claimed published) := by
  -- Only the two stamps of a drain set the column.
  have hunpublished : ∀ {j : Uuid} {r : OutboxEvent} {events : Table T Uuid OutboxEvent},
      r.published_at = none → db.events.put t j (some r) = some events →
      events.written t k = some (some row) → db.events.written t k = some (some row) := by
    intro j r events hr hput hw
    rcases published_of_put hput hw with hold | ⟨-, rfl⟩
    · exact hold
    · exact absurd hr hpub
  cases h with
  | start _ | endpoints _ | select _ | skip | selected | fanOut _ | enqueue | pass _ =>
      exact .inl hw
  | rollback => exact absurd hw (Table.untouched_rollback _ _).not_written
  | commit _ _ => exact absurd hw (Table.untouched_commit _ _).not_written
  | lock _ hpending hput =>
      exact .inl (hunpublished (OutboxEvent.pending_iff.mp hpending).1 hput hw)
  | reject hput =>
      -- A rejected delivery leaves the column as it was.
      obtain ⟨-, hpending, -⟩ := hL.1.held List.mem_cons_self
      refine .inl (hunpublished ?_ hput hw)
      exact (OutboxEvent.pending_iff.mp hpending).1
  | insert _ hput =>
      have hfresh := hL.2
      simp only [OutboxEvent.fresh, decide_eq_true_eq] at hfresh
      exact .inl (hunpublished (OutboxEvent.pending_iff.mp hfresh.2.2).1 hput hw)
  | unknown hsource hput =>
      rcases published_of_put hput hw with hold | ⟨rfl, heq⟩
      · exact .inl hold
      · exact .inr ⟨_, _, heq, .inl ⟨hsource, _, _, rfl⟩⟩
  | publish hput =>
      rcases published_of_put hput hw with hold | ⟨rfl, heq⟩
      · exact .inl hold
      · exact .inr ⟨_, _, heq, .inr ⟨_, _, rfl⟩⟩

/-- A fan-out goes on, starts with the active endpoints, or has dealt with one of them. -/
theorem Step.fanOut_origin
    (h : Step S t db p db' (.fanOut k event endpoints claimed published)) :
    p = .fanOut k event endpoints claimed published ∨
      (p = .loop ((k, event) :: claimed) published ∧
        endpoints = activeEndpoints event db.endpoints) ∨
      ∃ endpoint, p = .fanOut k event (endpoint :: endpoints) claimed published ∧
        (subscribed event endpoint = true → db'.queue = db.queue ++ [job event endpoint]) := by
  cases h with
  | start hnext => rcases hnext with h | ⟨_, _, -, h⟩ <;> cases h
  | endpoints _ => exact .inl rfl
  | commit _ hnext => rcases hnext with ⟨_, h⟩ | h <;> cases h
  | fanOut _ => exact .inr (.inl ⟨rfl, rfl⟩)
  | enqueue => exact .inr (.inr ⟨_, rfl, fun _ => rfl⟩)
  | pass hs => exact .inr (.inr ⟨_, rfl, fun hsub => absurd hsub hs⟩)

/-! ### Runs -/

/-- The history behind what requests hold: a fan-out that is under way has enqueued what it
has passed, and a webhook event with a stamp has been fanned out. -/
structure History (S : Settings) (moves : List (RelayStep T)) (d : Config T (Database T) Proc) :
    Prop where
  fanning : ∀ {t k event endpoints claimed published},
    d.proc t = .fanOut k event endpoints claimed published → FanningOut moves t k event endpoints
  stamped : ∀ {t k row}, d.shared.events.written t k = some (some row) → row.published_at ≠ none →
    row.source = WEBHOOK_SOURCE → FannedOut moves t k row

/-- A step of the drain's own keeps the history of its fan-out. -/
theorem History.fanning_of_exec (h : History S moves d)
    (hexec : exec S t a d.shared (d.proc t) =
      some (db', .fanOut k event endpoints claimed published)) :
    FanningOut (moves ++ [⟨d, t, a, ⟨db', Function.update d.proc t
      (.fanOut k event endpoints claimed published)⟩⟩]) t k event endpoints := by
  rcases (step_of_exec hexec).fanOut_origin with hp | ⟨hp, rfl⟩ | ⟨endpoint, hp, hqueue⟩
  · exact (h.fanning hp).mono _
  · refine ⟨_, List.mem_append_right _ (List.mem_singleton_self _), rfl,
      ⟨event, claimed, published, hp, by simp⟩, fun endpoint hmem hawaits => ?_⟩
    exact .inl (mem_activeEndpoints_iff.mpr ⟨hmem, hawaits⟩).1
  · obtain ⟨s, hs, hthread, hfan, hall⟩ := h.fanning hp
    refine ⟨s, List.mem_append_left _ hs, hthread, hfan, fun other hmem hawaits => ?_⟩
    rcases hall other hmem hawaits with hrest | ⟨q, hq, hrest⟩
    · rcases List.mem_cons.mp hrest with rfl | hrest
      · -- this endpoint is the one that the step has dealt with
        exact .inr ⟨_, List.mem_append_right _ (List.mem_singleton_self _), rfl,
          event, other, endpoints, claimed, published, hp, rfl, hqueue hawaits.subscribed⟩
      · exact .inl hrest
    · exact .inr ⟨q, List.mem_append_left _ hq, hrest⟩

/-- **One step keeps the history.** -/
theorem History.step (h : History S moves d) (hL : Loc t d.shared.events (d.proc t))
    (hstep : (program S).step d t a = some e) : History S (moves ++ [⟨d, t, a, e⟩]) e := by
  obtain ⟨g, l, hexec, rfl⟩ := Program.step_eq_some_iff.mp hstep
  constructor
  · intro u k event endpoints claimed published hp
    by_cases hu : u = t
    · subst hu
      obtain rfl : l = .fanOut k event endpoints claimed published := by simpa using hp
      exact h.fanning_of_exec hexec
    · simp only [Function.update_of_ne hu] at hp
      exact (h.fanning hp).mono _
  · intro u k row hw hpub hsource
    by_cases hu : u = t
    · subst hu
      rcases (step_of_exec hexec).published_origin hL hw hpub with hold |
        ⟨event, now, rfl, ⟨hne, -⟩ | ⟨claimed, published, hp⟩⟩
      · exact (h.stamped hold hpub hsource).mono _
      · exact absurd hsource hne
      · exact (FannedOut.stamp (h.fanning hp).fannedOut now).mono _
    · rw [((step_of_exec hexec).undisturbed hu).written] at hw
      exact (h.stamped hw hpub hsource).mono _

/-- **The history holds along every run.** -/
theorem history_of_trace (hmax : 1 ≤ S.max_attempts) (hc : Start S c)
    (h : (program S).Trace Any c moves d) : History S moves d := by
  induction h with
  | nil =>
      refine ⟨fun {t} _ _ _ _ _ hp => ?_, fun {t k _} hw => ?_⟩
      · rw [hc.idle t] at hp
        cases hp
      · rw [hc.untouched t k] at hw
        cases hw
  | snoc hrun _ hstep ih => exact ih.step ((loc_of_run hmax hc hrun.run).2 _) hstep

/-- **Published after the fan-out.** A webhook event is published by the commit of a drain
that has enqueued a delivery for every endpoint that awaited the event. -/
theorem published_after_fan_out (hmax : 1 ≤ S.max_attempts) (hc : Start S c)
    (h : (program S).Trace Any c moves d) (hstep : (program S).step d t a = some e)
    (hrow : e.shared.events.committed k = some row) (hpub : row.published_at ≠ none)
    (hbefore : ∀ r, d.shared.events.committed k = some r → r.published_at = none)
    (hsource : row.source = WEBHOOK_SOURCE) : FannedOut moves t k row := by
  obtain ⟨g, l, hexec, rfl⟩ := Program.step_eq_some_iff.mp hstep
  rcases (step_of_exec hexec).cases with hpriv | ⟨-, hcommit⟩
  · rw [hpriv.committed] at hrow
    exact absurd (hbefore row hrow) hpub
  · rw [hcommit, Table.committed_commit] at hrow
    cases hw : d.shared.events.written t k with
    | none =>
        rw [Table.view_of_written_eq_none hw] at hrow
        exact absurd (hbefore row hrow) hpub
    | some w =>
        rw [Table.view_of_written hw] at hrow
        subst hrow
        exact (history_of_trace hmax hc h).stamped hw hpub hsource

/-- A delivery is enqueued of webhook events only, and of the committed version. -/
theorem Loc.enqueues (hL : Loc m.thread m.before.shared.events (m.before.proc m.thread))
    {delivery : Job} (h : Enqueues m k delivery) :
    ∃ event, m.before.shared.events.committed k = some event ∧ event.source = WEBHOOK_SOURCE := by
  obtain ⟨event, endpoint, endpoints, claimed, published, hp, -, -⟩ := h
  rw [hp] at hL
  exact ⟨event, (hL.1.held List.mem_cons_self).1, hL.2⟩

/-- A selected event of another source is stamped by the next statement of its drain, which leaves
the queue as it is. -/
theorem Loc.stamps_unknown (hL : Loc t d.shared.events (d.proc t))
    (hp : d.proc t = .loop ((k, event) :: claimed) published)
    (hsource : event.source ≠ WEBHOOK_SOURCE) (env : Env) :
    ∃ e, (program S).step d t (.stmt env) = some e ∧ e.proc t = .loop claimed (published + 1) ∧
      e.shared.queue = d.shared.queue ∧
      e.shared.events.view t k = some (event.published env.now) := by
  rw [hp] at hL
  obtain ⟨-, -, hheld⟩ := hL.held List.mem_cons_self
  have hfree : d.shared.events.free t k = true := by
    rw [Table.free_iff]
    exact fun u hu => Table.written_eq_none_of_ne hheld hu
  obtain ⟨events, hput⟩ : ∃ events,
      d.shared.events.put t k (some (event.published env.now)) = some events := by
    rw [← Option.ne_none_iff_exists', ne_eq, Table.put_eq_none_iff, hfree]
    exact Bool.noConfusion
  have hexec : exec S t (.stmt env) d.shared (d.proc t) =
      some ({ d.shared with events := events }, .loop claimed (published + 1)) := by
    rw [hp, exec, stmt, if_pos hsource, stamp, hput]
    rfl
  refine ⟨_, Program.step_eq_some_iff.mpr ⟨_, _, hexec, rfl⟩, Function.update_self _ _ _, rfl, ?_⟩
  exact Table.view_of_written (Table.written_put_self hput)

/-- **What the relay guarantees.** In every run of drains and producers, with crashes and
with any answers of the queue, events have at most `max_attempts` attempts, are
dead-lettered exactly when they are used up and are never published as well. An event that
a drain has selected is selected by no other drain, and by none that has dealt with it and
not yet committed. No step selects or enqueues an event that is published or
dead-lettered, and it stays so. A webhook event is only published after a delivery was
enqueued for every endpoint of its organisation that was active and subscribed to its
type. No delivery is enqueued of an event of another source, which the drain that has selected
it stamps as published. -/
theorem relay_guarantees (hmax : 1 ≤ S.max_attempts) (hc : Start S c)
    (h : (program S).Trace Any c moves d) :
    (∀ k row, d.shared.events.committed k = some row → row.attempts ≤ S.max_attempts ∧
      (row.failed_at ≠ none ↔ row.attempts = S.max_attempts) ∧
      ¬ (row.published_at ≠ none ∧ row.failed_at ≠ none)) ∧
    (∀ t u k, k ∈ (d.proc t).claimed.map Prod.fst →
      (k ∈ (d.proc u).claimed.map Prod.fst ∨ ∃ v, d.shared.events.written u k = some v) →
      t = u) ∧
    (∀ m ∈ moves, ∀ k, Done k m.before.shared.events →
      ¬ Selects m k ∧ (∀ delivery, ¬ Enqueues m k delivery) ∧ Done k m.after.shared.events) ∧
    (∀ t a e k row, (program S).step d t a = some e → e.shared.events.committed k = some row →
      row.published_at ≠ none →
      (∀ r, d.shared.events.committed k = some r → r.published_at = none) →
      row.source = WEBHOOK_SOURCE → FannedOut moves t k row) ∧
    (∀ m ∈ moves, ∀ k delivery, Enqueues m k delivery →
      ∃ event, m.before.shared.events.committed k = some event ∧ event.source = WEBHOOK_SOURCE) ∧
    (∀ t k event claimed published, d.proc t = .loop ((k, event) :: claimed) published →
      event.source ≠ WEBHOOK_SOURCE → ∀ env, ∃ e, (program S).step d t (.stmt env) = some e ∧
        e.proc t = .loop claimed (published + 1) ∧ e.shared.queue = d.shared.queue ∧
        e.shared.events.view t k = some (event.published env.now)) := by
  obtain ⟨hsound, hL⟩ := loc_of_run hmax hc h.run
  refine ⟨fun k row hrow => ?_, fun t u k ht hu => ?_, fun m hm k hk => ?_, ?_,
    fun m hm k delivery henqueues => ?_, ?_⟩
  · have hs := hsound.committed hrow
    exact ⟨hs.attempts_le, hs.failed_iff, hs.exclusive⟩
  · obtain ⟨⟨k₁, event⟩, hclaim, rfl⟩ := List.mem_map.mp ht
    have hheld := ((hL t).pending hclaim).2.2
    rcases hu with hu | ⟨v, hv⟩
    · obtain ⟨⟨k₂, event'⟩, hclaim', hk⟩ := List.mem_map.mp hu
      obtain rfl : k₂ = k₁ := hk
      exact Table.written_inj hheld ((hL u).pending hclaim').2.2
    · exact Table.written_inj hheld hv
  · obtain ⟨hbefore, hstep, -⟩ := h.around hm
    exact hk.of_step ((loc_of_run hmax hc hbefore).2 _) hstep
      ((loc_of_run hmax hc (hbefore.step trivial hstep)).2 _)
  · intro t a e k row hstep hrow hpub hbefore hsource
    exact published_after_fan_out hmax hc h hstep hrow hpub hbefore hsource
  · obtain ⟨hbefore, -⟩ := h.around hm
    exact ((loc_of_run hmax hc hbefore).2 _).enqueues henqueues
  · intro t k event claimed published hp hsource env
    exact (hL t).stamps_unknown hp hsource env

end Steps

/-! ### Two schedules -/

/-- A new event of a source, of organisation 1. -/
def newEvent (source : String) : OutboxEvent :=
  ⟨source, "evt", "member.added", some (Uuid.ofNat 1), "{}", 0, none, none, none, 7⟩

/-- An endpoint of the organisation that awaits it. -/
def plainEndpoint : WebhookEndpoint := ⟨Uuid.ofNat 2, Uuid.ofNat 1, "member.added", true⟩

/-- The event is there, and no request. -/
def oneEvent (source : String) : Config (Fin 2) (Database (Fin 2)) Proc where
  shared :=
    { events :=
        { committed := fun k => if k = Uuid.ofNat 3 then some (newEvent source) else none
          dirty := fun _ => none
          keys := {Uuid.ofNat 3}
          mem_keys_of_committed := fun {k} h => by
            by_contra hk
            exact h (if_neg (by simpa using hk))
          mem_keys_of_dirty := fun h => absurd rfl h }
      endpoints := [plainEndpoint]
      queue := [] }
  proc := fun _ => .idle

theorem start_oneEvent (source : String) : Start relaySettings (oneEvent source) := by
  refine ⟨⟨fun {k event} h => ?_, fun h => by cases h⟩, fun _ _ => rfl, fun _ => rfl⟩
  obtain rfl : newEvent source = event := by
    by_cases hk : k = Uuid.ofNat 3
    · simpa [oneEvent, hk] using h
    · simp [oneEvent, hk] at h
  exact OutboxEvent.sound_of_fresh (by decide) rfl

/-- The next statement; the queue accepts, and the event is the only pending one. -/
def accept : Act := .stmt ⟨9, [Uuid.ofNat 3], true⟩

/-- A webhook event is fanned out to its endpoint before it is published. -/
theorem relay_guarantees_webhook :
    ∃ (moves : List (RelayStep (Fin 2))) (d e : Config (Fin 2) (Database (Fin 2)) Proc)
      (row : OutboxEvent), (program relaySettings).Trace Any (oneEvent "webhook") moves d ∧
        (program relaySettings).step d 0 accept = some e ∧
        e.shared.events.committed (Uuid.ofNat 3) = some row ∧ row.published_at = some 9 ∧
        FannedOut moves 0 (Uuid.ofNat 3) row := by
  have hreplay : ((program relaySettings).replay Any (oneEvent "webhook")
      [(0, .drain), (0, accept), (0, accept), (0, accept), (0, accept), (0, accept),
        (0, accept)]).any (fun d =>
        decide (d.shared.events.committed (Uuid.ofNat 3) = some (newEvent "webhook")) &&
        ((program relaySettings).step d 0 accept).any fun e =>
          decide (e.shared.events.committed (Uuid.ofNat 3) =
            some ((newEvent "webhook").published 9))) = true := by
    decide
  obtain ⟨d, hrun, hd⟩ := Program.exists_run_of_replay hreplay
  simp only [Bool.and_eq_true, decide_eq_true_eq, Option.any_eq_true] at hd
  obtain ⟨hbefore, e, hstep, hrow⟩ := hd
  obtain ⟨moves, htrace⟩ := hrun.exists_trace
  have hmax : 1 ≤ relaySettings.max_attempts := by
    decide
  obtain ⟨-, -, -, hfan, -⟩ := relay_guarantees hmax (start_oneEvent "webhook") htrace
  refine ⟨moves, d, e, _, htrace, hstep, hrow, rfl, ?_⟩
  refine hfan 0 _ e _ _ hstep hrow (by simp [OutboxEvent.published]) (fun r hr => ?_) rfl
  rw [hbefore, Option.some.injEq] at hr
  rw [← hr]
  rfl

/-- An event of another source is stamped published although an endpoint of its
organisation, active and subscribed to its type, was there all the time: nothing is
enqueued. -/
theorem published_unheard :
    ∃ d : Config (Fin 2) (Database (Fin 2)) Proc,
      (program relaySettings).Run Any (oneEvent "billing") d ∧
        d.shared.events.committed (Uuid.ofNat 3) = some ((newEvent "billing").published 9) ∧
        Awaits ((newEvent "billing").published 9) plainEndpoint ∧
        plainEndpoint ∈ (oneEvent "billing").shared.endpoints ∧
        d.shared.endpoints = (oneEvent "billing").shared.endpoints ∧ d.shared.queue = [] := by
  have hreplay : ((program relaySettings).replay Any (oneEvent "billing")
      [(0, .drain), (0, accept), (0, accept), (0, accept), (0, accept), (0, accept)]).any
      (fun d => decide (d.shared.events.committed (Uuid.ofNat 3) =
          some ((newEvent "billing").published 9) ∧
        d.shared.endpoints = [plainEndpoint] ∧ d.shared.queue = [])) = true := by
    decide
  obtain ⟨d, hrun, hd⟩ := Program.exists_run_of_replay hreplay
  obtain ⟨hrow, hendpoints, hqueue⟩ := of_decide_eq_true hd
  refine ⟨d, hrun, hrow, ⟨rfl, rfl, ?_⟩, List.mem_singleton_self _, hendpoints, hqueue⟩
  decide

end BackendManager.Webhooks
