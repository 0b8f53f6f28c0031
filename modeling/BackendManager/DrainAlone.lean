import BackendManager.DrainRounds
import BackendManager.OutboxRelay

/-!
# A Drain That Nobody Disturbs

The relay cut into statements and the drains that run one after the other are two readings of
the same code. Here they meet: a drain that is alone does, statement by statement, what
`drain_outbox` computes, and a producer that is alone commits its event. So every history of
drains and producers is a run of the relay.

The statements of a drain that is alone see the committed outbox and its own stamps (`Sees`),
and every row that it locks is free. The loop of the source claims one event after the other in
the order of the snapshot; the proof follows it with the list of events that are left. What the
environment decides in either reading is the same: the times, the endpoints that the `SELECT`
finds, and which jobs the queue accepts.

## Main results

* `solo_loop`: the loop of `drain_outbox`, against `drainEvents`.
* `drain_alone`, `emit_alone`: one drain, one producer.
* `history_run`: a whole history.
-/

namespace BackendManager.Webhooks

open ReadCommitted Interleaving

variable {T : Type} [DecidableEq T] {S : Settings} {t : T}
  {events : Table T Uuid OutboxEvent} {db : Database T} {c d e : Config T (Database T) Proc}
  {a : Act} {p : Proc} {o : Outbox} {round : Round} {k : Uuid} {event : OutboxEvent}
  {endpoints : List WebhookEndpoint} {keys todo : List Uuid} {claimed : List Claim}
  {published : ℕ}

/-- The row of the outbox under a key, if there is one. -/
def Outbox.version (o : Outbox) (k : Uuid) : Option OutboxEvent :=
  if k ∈ o.ids then some (o.row k) else none

/-- `t` sees this outbox, and nobody else holds a row. -/
structure Sees (t : T) (o : Outbox) (events : Table T Uuid OutboxEvent) : Prop where
  view : ∀ k, events.view t k = o.version k
  untouched : ∀ u, u ≠ t → events.Untouched u

/-- This outbox is committed, and nobody holds a row. -/
structure Holds (o : Outbox) (events : Table T Uuid OutboxEvent) : Prop where
  committed : ∀ k, events.committed k = o.version k
  untouched : ∀ u, events.Untouched u

/-- `t` goes from `c` to `d`, and nobody else moves. -/
abbrev Solo (S : Settings) (t : T) (c d : Config T (Database T) Proc) : Prop :=
  (program S).Solo Any t c d

/-- The committed version of a row of the outbox. -/
theorem Outbox.version_of_mem (hk : k ∈ o.ids) : o.version k = some (o.row k) := if_pos hk

/-- When nobody holds a row, anybody sees the outbox. -/
theorem Holds.sees (h : Holds o events) (t : T) : Sees t o events :=
  ⟨fun k => ((h.untouched t).view k).trans (h.committed k), fun u _ => h.untouched u⟩

/-- A commit publishes what the transaction sees. -/
theorem Sees.commit (h : Sees t o events) : Holds o (events.commit t) := by
  refine ⟨fun k => ?_, fun u => ?_⟩
  · rw [Table.committed_commit]
    exact h.view k
  · intro k
    rw [Table.written_commit]
    split
    · rfl
    · rename_i hu
      exact h.untouched u hu k

/-- And finds each row unlocked. -/
theorem Sees.free (h : Sees t o events) (k : Uuid) : events.free t k = true :=
  Table.free_iff.mpr fun u hu => h.untouched u hu k

/-- No statement has to wait, and `t` sees what it writes. -/
theorem Sees.put (h : Sees t o events) (k : Uuid) (event : OutboxEvent) :
    ∃ events', events.put t k (some event) = some events' ∧
      Sees t (o.after S (.emit k event)) events' := by
  obtain ⟨events', hput⟩ : ∃ events', events.put t k (some event) = some events' := by
    rw [← Option.ne_none_iff_exists', ne_eq, Table.put_eq_none_iff, h.free]
    simp
  refine ⟨events', hput, fun j => ?_, fun u hu j => ?_⟩
  · by_cases hj : j = k
    · rw [hj, Table.view_of_written (Table.written_put_self hput),
        Outbox.version_of_mem (Finset.mem_insert_self _ _), row_emit_self]
    · have hview : events'.view t j = events.view t j := by
        rw [Table.view, Table.view, Table.written_put_of_key_ne hput hj, Table.committed_put hput]
      rw [hview, h.view]
      simp [Outbox.version, Outbox.after, hj]
  · rw [Table.written_put_of_ne hput hu]
    exact h.untouched u hu j

/-- The same for a row that is there. -/
theorem Sees.stamp (h : Sees t o db.events) (hk : k ∈ o.ids) (event : OutboxEvent) (p : Proc) :
    ∃ db', stamp t db k event p = some (db', p) ∧ Sees t (o.set k event) db'.events := by
  obtain ⟨events', hput, hsees⟩ := h.put (S := relaySettings) k event
  have hset : o.after relaySettings (.emit k event) = o.set k event := by
    simp [Outbox.after, Outbox.set, hk]
  refine ⟨{ db with events := events' }, ?_, hset ▸ hsees⟩
  rw [Webhooks.stamp, hput]
  rfl

/-- One action of a request is a run of that request alone. -/
theorem solo_exec (h : exec S t a c.shared (c.proc t) = some (db, p)) :
    Solo S t c ⟨db, Function.update c.proc t p⟩ :=
  .of_exec trivial h

/-- An action of `t`, and what it leads to. -/
theorem solo_of_exec (h : exec S t a c.shared (c.proc t) = some (db, p))
    (hsees : Sees t o db.events) :
    ∃ d, Solo S t c d ∧ Sees t o d.shared.events ∧ d.proc t = p :=
  ⟨_, solo_exec h, hsees, Function.update_self _ _ _⟩

/-! ### The SELECT -/

/-- The pending events in their order are what the claiming `SELECT` returns. -/
theorem Sees.isSnapshot (h : Sees t o events) {order : List Uuid} (ho : o.IsOrder order) :
    IsSnapshot t events order := by
  have hpending : ∀ k ∈ order, k ∈ o.pending := by
    intro k hk
    rw [← ho.pending]
    exact List.mem_toFinset.mpr hk
  have hcreated : ∀ k ∈ order, created_at t events k = (o.row k).created_at := by
    intro k hk
    rw [created_at, h.view, Outbox.version_of_mem (Outbox.mem_pending.mp (hpending k hk)).1]
    rfl
  refine ⟨ho.nodup, ?_, ho.sorted.imp_of_mem fun hj hk hle => ?_⟩
  · rw [ho.pending]
    ext k
    rw [Table.mem_scan, h.view, Outbox.version]
    by_cases hk : k ∈ o.ids
    · simp [Outbox.mem_pending, hk]
    · simp [Outbox.mem_pending, hk]
  · rw [hcreated _ hj, hcreated _ hk]
    exact hle

/-- A statement that no answer of the environment matters to. -/
def plain : Act := .stmt ⟨0, [], false⟩

/-- The `SELECT` locks the first `limit` rows of its snapshot. -/
theorem solo_lock (hsees : Sees t o c.shared.events) (hpending : ∀ k ∈ todo, k ∈ o.pending)
    (hproc : c.proc t = .locking todo claimed) :
    ∃ d, Solo S t c d ∧ Sees t o d.shared.events ∧ d.proc t =
      .loop (claimed ++ (todo.take (S.limit - claimed.length)).map fun k => (k, o.row k)) 0 := by
  induction todo generalizing c claimed with
  | nil =>
      have hexec : exec S t plain c.shared (c.proc t) = some (c.shared, .loop claimed 0) := by
        rw [hproc]
        rfl
      rw [List.take_nil, List.map_nil, List.append_nil]
      exact solo_of_exec hexec hsees
  | cons k todo ih =>
      obtain ⟨hk, hrest⟩ := List.forall_mem_cons.mp hpending
      obtain ⟨hids, hkpending⟩ := Outbox.mem_pending.mp hk
      by_cases hlen : claimed.length < S.limit
      · obtain ⟨db, hstamp, hsees'⟩ :=
          hsees.stamp hids (o.row k) (.locking todo (claimed ++ [(k, o.row k)]))
        have hset : o.set k (o.row k) = o := by
          simp [Outbox.set]
        rw [hset] at hsees'
        have hvisit : visit t c.shared k todo claimed =
            some (db, .locking todo (claimed ++ [(k, o.row k)])) := by
          rw [← hstamp, visit, hsees.free, hsees.view, Outbox.version_of_mem hids]
          simp [Option.filter, hkpending, stamp]
        have hexec : exec S t plain c.shared (c.proc t) =
            some (db, .locking todo (claimed ++ [(k, o.row k)])) := by
          rw [hproc, plain, exec, stmt, if_pos hlen, hvisit]
        obtain ⟨d, hsolo, hd, hdproc⟩ := solo_of_exec hexec hsees'
        obtain ⟨e, hsolo', he, heproc⟩ := ih hd hrest hdproc
        refine ⟨e, hsolo.trans hsolo', he, ?_⟩
        have htake : S.limit - claimed.length = S.limit - (claimed.length + 1) + 1 := by
          omega
        rw [List.length_append, List.length_singleton, List.append_assoc] at heproc
        rw [heproc, htake, List.take_succ_cons]
        rfl
      · have hexec : exec S t plain c.shared (c.proc t) = some (c.shared, .loop claimed 0) := by
          rw [hproc, plain, exec, stmt, if_neg hlen]
        rw [Nat.sub_eq_zero_of_le (Nat.le_of_not_lt hlen), List.take_zero, List.map_nil,
          List.append_nil]
        exact solo_of_exec hexec hsees

/-! ### One event -/

/-- The row of an event and what it adds to `published`, by the outcome of `_fan_out`. -/
def outcome (S : Settings) (now : ℕ) (event : OutboxEvent) :
    Except WebhookEndpoint (List Job) → OutboxEvent × ℕ
  | .ok _ => (event.published now, 1)
  | .error e => (event.rejected S now e, 0)

/-- What a round makes of an event is the outcome of its fan-out. -/
theorem relayEvent_eq_outcome : relayEvent S round k event =
    outcome S (round.now k) event (fan_out (round.enqueue_fn k) (round.endpoints k) event) := by
  rw [relayEvent]
  cases fan_out (round.enqueue_fn k) (round.endpoints k) event with
  | ok jobs => rfl
  | error e => rfl

/-- The outcome does not depend on the jobs, only on whether there was an error. -/
theorem outcome_map {now : ℕ} {jobs : Except WebhookEndpoint (List Job)}
    {f : List Job → List Job} : outcome S now event (jobs.map f) = outcome S now event jobs := by
  cases jobs with
  | ok jobs => rfl
  | error e => rfl

/-- `t` has dealt with the event. -/
def Handled (S : Settings) (t : T) (o : Outbox) (k : Uuid) (claimed : List Claim) (published : ℕ)
    (r : OutboxEvent × ℕ) (c : Config T (Database T) Proc) : Prop :=
  ∃ d, Solo S t c d ∧ Sees t (o.set k r.1) d.shared.events ∧
    d.proc t = .loop claimed (published + r.2)

/-- What has been dealt with after some steps has been dealt with from before them. -/
theorem Handled.of_solo {r : OutboxEvent × ℕ} (h : Solo S t c d)
    (h' : Handled S t o k claimed published r d) : Handled S t o k claimed published r c := by
  obtain ⟨e, hsolo, hrest⟩ := h'
  exact ⟨e, h.trans hsolo, hrest⟩

/-- A statement that stamps the row of the event. -/
theorem Handled.of_stamp {r : OutboxEvent × ℕ} (hsees : Sees t o c.shared.events) (hk : k ∈ o.ids)
    (hexec : exec S t a c.shared (c.proc t) =
      stamp t c.shared k r.1 (.loop claimed (published + r.2))) :
    Handled S t o k claimed published r c := by
  obtain ⟨db, hstamp, hsees'⟩ := hsees.stamp hk r.1 (.loop claimed (published + r.2))
  exact solo_of_exec (hexec.trans hstamp) hsees'

/-- The loop of `_fan_out`, against `enqueueAll`. -/
theorem solo_fanOut {enqueue_fn : Job → Bool} {now : ℕ} (hsees : Sees t o c.shared.events)
    (hk : k ∈ o.ids) (hproc : c.proc t = .fanOut k event endpoints claimed published) :
    Handled S t o k claimed published (outcome S now event (enqueueAll enqueue_fn event endpoints))
      c := by
  induction endpoints generalizing c with
  | nil =>
      refine Handled.of_stamp (a := .stmt ⟨now, [], false⟩) hsees hk ?_
      rw [hproc]
      rfl
  | cons e endpoints ih =>
      have hexec : exec S t (.stmt ⟨now, [], enqueue_fn (job event e)⟩) c.shared (c.proc t) =
          enqueueNext S t ⟨now, [], enqueue_fn (job event e)⟩ c.shared k event e endpoints
            claimed published := by
        rw [hproc]
        rfl
      by_cases hs : subscribed event e = true
      · by_cases hq : enqueue_fn (job event e) = true
        · rw [enqueueNext, if_pos hs, if_pos hq] at hexec
          rw [enqueueAll, if_pos hs, if_pos hq, outcome_map]
          obtain ⟨d, hsolo, hd, hdproc⟩ := solo_of_exec hexec hsees
          exact (ih hd hdproc).of_solo hsolo
        · rw [enqueueNext, if_pos hs, if_neg hq] at hexec
          rw [enqueueAll, if_pos hs, if_neg hq]
          exact Handled.of_stamp hsees hk hexec
      · rw [enqueueNext, if_neg hs] at hexec
        rw [enqueueAll, if_neg hs]
        obtain ⟨d, hsolo, hd, hdproc⟩ := solo_of_exec hexec hsees
        exact (ih hd hdproc).of_solo hsolo

/-- The body of the loop of `drain_outbox`, against `relayEvent`. -/
theorem solo_event (round : Round) (hsees : Sees t o c.shared.events) (hk : k ∈ o.ids)
    (hproc : c.proc t = .loop ((k, event) :: claimed) published) :
    Handled S t o k claimed published (relayEvent S round k event) c := by
  rw [relayEvent_eq_outcome, fan_out]
  by_cases hsource : event.source ≠ WEBHOOK_SOURCE
  · rw [if_pos hsource]
    refine Handled.of_stamp (a := .stmt ⟨round.now k, [], false⟩) hsees hk ?_
    rw [hproc, exec, stmt, if_pos hsource]
    rfl
  · rw [if_neg hsource]
    -- The endpoints are those that the round has for this event.
    have hendpoints : exec S t (.endpoints (round.endpoints k)) c.shared (c.proc t) =
        some ({ c.shared with endpoints := round.endpoints k },
          .loop ((k, event) :: claimed) published) := by
      rw [hproc]
      rfl
    obtain ⟨d, hsolo, hd, hdproc⟩ : ∃ d, Solo S t c d ∧
        (Sees t o d.shared.events ∧ d.shared.endpoints = round.endpoints k) ∧
        d.proc t = .loop ((k, event) :: claimed) published :=
      ⟨_, solo_exec hendpoints, ⟨hsees, rfl⟩, Function.update_self _ _ _⟩
    have hexec : exec S t plain d.shared (d.proc t) = some (d.shared,
        .fanOut k event (activeEndpoints event (round.endpoints k)) claimed published) := by
      rw [hdproc, plain, exec, stmt, if_neg hsource, hd.2]
    obtain ⟨e, hsolo', he, heproc⟩ := solo_of_exec hexec hd.1
    exact ((solo_fanOut he hk heproc).of_solo hsolo').of_solo hsolo

/-- The loop of `drain_outbox`, against `drainEvents`. -/
theorem solo_loop (round : Round) (hnodup : keys.Nodup) (hkeys : ∀ k ∈ keys, k ∈ o.ids)
    (hsees : Sees t o c.shared.events)
    (hproc : c.proc t = .loop (keys.map fun k => (k, o.row k)) published) :
    ∃ d, Solo S t c d ∧ Sees t (drainEvents S round keys o published).1 d.shared.events ∧
      d.proc t = .loop [] (drainEvents S round keys o published).2 := by
  induction keys generalizing c o published with
  | nil => exact ⟨c, .refl c, hsees, hproc⟩
  | cons k keys ih =>
      obtain ⟨hk, hnodup⟩ := List.nodup_cons.mp hnodup
      obtain ⟨hids, hkeys⟩ := List.forall_mem_cons.mp hkeys
      obtain ⟨d, hsolo, hd, hdproc⟩ := solo_event (S := S) round hsees hids hproc
      have hrows : (keys.map fun j => (j, o.row j)) =
          keys.map fun j => (j, (o.set k (relayEvent S round k (o.row k)).1).row j) := by
        refine List.map_congr_left fun j hj => ?_
        have hne : j ≠ k := by
          rintro rfl
          exact hk hj
        simp [Outbox.set, hne]
      rw [hrows] at hdproc
      obtain ⟨e, hsolo', he, heproc⟩ :=
        ih (o := o.set k (relayEvent S round k (o.row k)).1) hnodup hkeys hd hdproc
      exact ⟨e, hsolo.trans hsolo', he, heproc⟩

/-! ### One drain, one producer -/

/-- A drain that is alone commits what `drain_outbox` computes, and returns its count. -/
theorem drain_alone (h : Holds o c.shared.events) (ho : o.IsOrder round.order)
    (hidle : c.proc t = .idle) :
    ∃ d, Solo S t c d ∧ Holds (drain_outbox S round o).1 d.shared.events ∧
      d.proc t = .returned (drain_outbox S round o).2 := by
  have hstart : exec S t .drain c.shared (c.proc t) = some (c.shared, .select) := by
    rw [hidle]
    rfl
  obtain ⟨c₁, hsolo₁, hsees₁, hproc₁⟩ := solo_of_exec hstart (h.sees t)
  have hselect : exec S t (.stmt ⟨0, round.order, false⟩) c₁.shared (c₁.proc t) =
      some (c₁.shared, .locking round.order []) := by
    rw [hproc₁, exec, stmt, if_pos (hsees₁.isSnapshot ho)]
  obtain ⟨c₂, hsolo₂, hsees₂, hproc₂⟩ := solo_of_exec hselect hsees₁
  have hpending : ∀ k ∈ round.order, k ∈ o.pending := by
    intro k hk
    rw [← ho.pending]
    exact List.mem_toFinset.mpr hk
  obtain ⟨c₃, hsolo₃, hsees₃, hproc₃⟩ := solo_lock hsees₂ hpending hproc₂
  obtain ⟨c₄, hsolo₄, hsees₄, hproc₄⟩ := solo_loop (S := S) round
    (ho.nodup.sublist (List.take_sublist S.limit _))
    (fun k hk => (Outbox.mem_pending.mp (ho.mem_pending hk)).1) hsees₃ hproc₃
  have hcommit : exec S t plain c₄.shared (c₄.proc t) =
      some ({ c₄.shared with events := c₄.shared.events.commit t },
        .returned (drain_outbox S round o).2) := by
    rw [hproc₄]
    rfl
  exact ⟨_, (((hsolo₁.trans hsolo₂).trans hsolo₃).trans hsolo₄).trans (solo_exec hcommit),
    hsees₄.commit, Function.update_self _ _ _⟩

/-- A producer that is alone commits its event. -/
theorem emit_alone (h : Holds o c.shared.events) (hadm : o.Admits (.emit k event))
    (hidle : c.proc t = .idle) :
    ∃ d, Solo S t c d ∧ Holds (o.after S (.emit k event)) d.shared.events ∧ d.proc t = .done := by
  have hstart : exec S t (.emit k event) c.shared (c.proc t) =
      some (c.shared, .insert k event) := by
    rw [hidle, exec, if_pos hadm.2]
  obtain ⟨c₁, hsolo₁, hsees₁, hproc₁⟩ := solo_of_exec hstart (h.sees t)
  obtain ⟨events, hput, hsees₂⟩ := hsees₁.put (S := S) k event
  have hview : c₁.shared.events.view t k = none := by
    rw [hsees₁.view]
    exact if_neg hadm.1
  have hinsert : exec S t plain c₁.shared (c₁.proc t) =
      some ({ c₁.shared with events := events }, .inserted k event) := by
    rw [hproc₁, plain, exec, stmt, insertEvent, Table.insert_eq_ok_iff.mpr ⟨hview, hput⟩]
    rfl
  obtain ⟨c₂, hsolo₂, hsees₂, hproc₂⟩ := solo_of_exec hinsert hsees₂
  have hcommit : exec S t plain c₂.shared (c₂.proc t) =
      some ({ c₂.shared with events := c₂.shared.events.commit t }, .done) := by
    rw [hproc₂]
    rfl
  exact ⟨_, (hsolo₁.trans hsolo₂).trans (solo_exec hcommit), hsees₂.commit,
    Function.update_self _ _ _⟩

/-! ### A history -/

/-- Every history of drains and producers, one after the other, is a run of the relay, in
which each of them is a request of its own. -/
theorem history_run {happenings : List Happening} {threads : List T}
    (hnodup : threads.Nodup) (hlen : happenings.length = threads.length)
    (hidle : ∀ t ∈ threads, c.proc t = .idle) (h : Holds o c.shared.events)
    (hadm : o.AdmitsAll S happenings) :
    ∃ d, (program S).Run Any c d ∧ Holds (o.afterAll S happenings) d.shared.events := by
  induction happenings generalizing c o threads with
  | nil => exact ⟨c, .refl c, h⟩
  | cons happening happenings ih =>
      obtain ⟨t, threads, rfl⟩ := List.exists_cons_of_length_pos (l := threads) (by
        rw [← hlen]
        exact Nat.succ_pos _)
      obtain ⟨ht, hnodup⟩ := List.nodup_cons.mp hnodup
      obtain ⟨hidle, hidle'⟩ := List.forall_mem_cons.mp hidle
      obtain ⟨d, hsolo, hd⟩ : ∃ d, Solo S t c d ∧ Holds (o.after S happening) d.shared.events := by
        cases happening with
        | emit k event =>
            obtain ⟨d, hsolo, hd, -⟩ := emit_alone (S := S) h hadm.1 hidle
            exact ⟨d, hsolo, hd⟩
        | drain round =>
            obtain ⟨d, hsolo, hd, -⟩ := drain_alone (S := S) h hadm.1 hidle
            exact ⟨d, hsolo, hd⟩
      have hrest : ∀ u ∈ threads, d.proc u = .idle := by
        intro u hu
        have hne : u ≠ t := by
          rintro rfl
          exact ht hu
        rw [hsolo.proc u hne]
        exact hidle' u hu
      obtain ⟨e, hrun, he⟩ := ih hnodup (Nat.succ.inj hlen) hrest hd hadm.2
      exact ⟨e, hsolo.run.trans hrun, he⟩

end BackendManager.Webhooks
