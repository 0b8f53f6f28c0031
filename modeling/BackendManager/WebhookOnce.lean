import BackendManager.WebhookSteps

/-!
# Deliveries Are Recorded Once, With Their Effect

The results on interleaved deliveries of the payments webhook. The primary key of
`processed_events` and the transaction around a delivery do most of the work: a delivery
changes the committed tables in its commit or not at all, its event is recorded by that
commit, and no event is recorded twice.

What the commit does to `subscriptions` is the effect of the event on the row that is
committed by then, unless the row has moved: the `UPDATE` leaves out the columns in which
the event states what the delivery had read. If another delivery has changed such a column
in between, the row ends up as neither event describes it.

Of two deliveries of one event the second waits at its insert into `processed_events` and fails
when the first commits. A failure at any statement rolls back all of a delivery, so that the
note of an event and the change of the subscription are committed together or not at all.

## Main results

* `effect_iff`: a commit has exactly the effect of its event if and only if no such column
  has moved.
* `recorded_once`: the guarantees of deliveries, along every run.
* `mixed_row`: two deliveries after which the row of the organisation is a mixture.
-/

namespace BackendManager.Billing.Webhook

open ReadCommitted Interleaving

variable {T : Type} [DecidableEq T] {organizations : List Organization} {t u : T}
  {db db' : Tables T} {c d e : Config T (Tables T) Proc} {a : Act} {p p' : Proc}
  {δ δ' : Delivery} {org i : Uuid} {read new found row : Subscription} {target : Target}
  {reply : Reply}

/-! ### The effect of an event -/

/-- The organisation whose subscription the event syncs. -/
def target_org (organizations : List Organization) (δ : Delivery) : Option Uuid :=
  if δ.event.event_type ∈ SUBSCRIPTION_EVENTS then
    match scalar_one_or_none (UniqueRows.select Organization.payments_customer_id
        δ.event.customer_ref organizations) with
    | .ok (some org) => some org.id
    | _ => none
  else none

/-- What the event makes of the committed subscriptions. -/
def effect (organizations : List Organization) (δ : Delivery)
    (subscriptions : Uuid → Option Subscription) : Uuid → Option Subscription :=
  match target_org organizations δ with
  | some org =>
      Function.update subscriptions org
        (some (synced δ.provider δ.event org (subscriptions org)))
  | none => subscriptions

/-- The event states this value of a column. -/
def States (stated : Option String) (value : String) : Prop := stated = some value ∧ value ≠ ""

/-- The row that is found has not moved: in the columns for which the event states the value
that the delivery read, it still has that value. -/
structure Unmoved (δ : Delivery) (read found : Subscription) : Prop where
  provider : read.provider = δ.provider → found.provider = read.provider
  provider_subscription_id :
    States δ.event.subscription_id read.provider_subscription_id →
      found.provider_subscription_id = read.provider_subscription_id
  status : States δ.event.status read.status → found.status = read.status
  plan : States δ.event.plan read.plan → found.plan = read.plan
  current_period_end : δ.event.period_end = read.current_period_end →
    found.current_period_end = read.current_period_end

/-- A column that takes what the event states, or stays: the `UPDATE` gives it the value
that the event makes of the row found unless it has moved. -/
theorem column_orElse_iff (stated : Option String) (read found : String) :
    column read (orElse stated read) found = orElse stated found ↔
      (States stated read → found = read) := by
  cases stated with
  | none => simp [column, orElse, States]
  | some s =>
      by_cases hs : s = ""
      · subst hs
        simp [column, orElse, States]
      · by_cases hr : s = read
        · subst hr
          simp [column, orElse, States, hs]
        · simp [column, orElse, States, hs, hr]

/-- A column that the event always sets. -/
theorem column_iff {α : Type} [DecidableEq α] (stated read found : α) :
    column read stated found = stated ↔ (stated = read → found = read) := by
  by_cases h : stated = read
  · simp [column, h]
  · simp [column, h]

/-- **The columns of the `UPDATE`** make of the row found what the event makes of it exactly
if it has not moved. -/
theorem assign_eq_synced_iff :
    assign read (synced δ.provider δ.event org (some read)) found =
      synced δ.provider δ.event org (some found) ↔ Unmoved δ read found := by
  simp only [assign, synced, Subscription.mk.injEq, true_and]
  rw [column_iff, column_orElse_iff, column_orElse_iff, column_orElse_iff, column_iff]
  constructor
  · rintro ⟨h₁, h₂, h₃, h₄, h₅⟩
    exact ⟨fun h => h₁ h.symm, h₂, h₃, h₄, h₅⟩
  · rintro ⟨h₁, h₂, h₃, h₄, h₅⟩
    exact ⟨fun h => h₁ h.symm, h₂, h₃, h₄, h₅⟩

/-! ### Assertions -/

/-- `t` has written nothing. -/
def Clean (t : T) (db : Tables T) : Prop :=
  db.processed_events.Untouched t ∧ db.subscriptions.Untouched t

/-- `t` has inserted the `ProcessedEvent`, and nothing else in that table. -/
def Records (t : T) (db : Tables T) (δ : Delivery) : Prop :=
  db.processed_events.committed δ.key = none ∧
    db.processed_events.Sole t δ.key (some δ.event.event_type.name)

/-- What `t` has flushed of the subscription. -/
def Flushed (t : T) (db : Tables T) (δ : Delivery) : Option Target → Prop
  | none => db.subscriptions.Untouched t
  | some ⟨org, none⟩ => db.subscriptions.committed org = none ∧
      db.subscriptions.Sole t org (some (synced δ.provider δ.event org none))
  | some ⟨org, some read⟩ => ∃ found, db.subscriptions.committed org = some found ∧
      (synced δ.provider δ.event org (some read) = read ∧ db.subscriptions.Untouched t ∨
        db.subscriptions.Sole t org
          (some (assign read (synced δ.provider δ.event org (some read)) found)))

/-- The event of the delivery is recorded. -/
def Recorded (db : Tables T) (key : String × String) : Prop :=
  db.processed_events.committed key ≠ none

/-- The assertion of a delivery: what it has written where it stands. -/
def Loc (organizations : List Organization) (t : T) (db : Tables T) : Proc → Prop
  | .selectOrganization δ => δ.event.event_type ∈ SUBSCRIPTION_EVENTS ∧ Records t db δ ∧
      db.subscriptions.Untouched t
  | .selectSubscription δ org => target_org organizations δ = some org ∧ Records t db δ ∧
      db.subscriptions.Untouched t
  | .syncing δ target => target_org organizations δ = some target.org ∧ Records t db δ ∧
      db.subscriptions.Untouched t ∧
      (target.read ≠ none → db.subscriptions.committed target.org ≠ none)
  | .commit δ target => target_org organizations δ = target.map Target.org ∧ Records t db δ ∧
      Flushed t db δ target
  | .returned δ _ => Clean t db ∧ Recorded db δ.key
  | _ => Clean t db

/-- A transaction that has written at most one row of a table, and has not deleted it. -/
def Modest {K V : Type} (t : T) (tb : Table T K V) : Prop :=
  tb.Untouched t ∨ ∃ k v, tb.Sole t k (some v)

/-- The commit of such a transaction keeps the rows of the table. -/
theorem Modest.commit {K V : Type} {tb : Table T K V} {k : K} (h : Modest t tb)
    (hk : tb.committed k ≠ none) : (tb.commit t).committed k ≠ none := by
  rw [Table.committed_commit]
  cases hw : tb.written t k with
  | none => rwa [Table.view_of_written_eq_none hw]
  | some w =>
      rw [Table.view_of_written hw]
      rcases h with hun | ⟨j, v, hsole⟩
      · exact absurd hw hun.not_written
      · obtain ⟨rfl, rfl⟩ := hsole.eq_of_written hw
        exact Option.some_ne_none v

/-- What a delivery has flushed are its event and at most one subscription. -/
theorem Flushed.modest {target : Option Target} (h : Flushed t db δ target) :
    Modest t db.subscriptions := by
  cases target with
  | none => exact .inl h
  | some target =>
      obtain ⟨org, read⟩ := target
      cases read with
      | none => exact .inr ⟨org, _, h.2⟩
      | some read =>
          obtain ⟨found, -, ⟨-, hun⟩ | hsole⟩ := h
          · exact .inl hun
          · exact .inr ⟨org, _, hsole⟩

/-- Deliveries write at most one row of each table. -/
theorem Loc.modest (hL : Loc organizations t db p) :
    Modest t db.processed_events ∧ Modest t db.subscriptions := by
  cases p with
  | idle | received _ | added _ | raised _ => exact ⟨.inl hL.1, .inl hL.2⟩
  | returned δ reply => exact ⟨.inl hL.1.1, .inl hL.1.2⟩
  | selectOrganization δ | selectSubscription δ org =>
      exact ⟨.inr ⟨_, _, hL.2.1.2⟩, .inl hL.2.2⟩
  | syncing δ target => exact ⟨.inr ⟨_, _, hL.2.1.2⟩, .inl hL.2.2.1⟩
  | commit δ target => exact ⟨.inr ⟨_, _, hL.2.1.2⟩, hL.2.2.modest⟩

/-! ### Interference freedom -/

/-- Rows stay. -/
theorem stays_of_exec (hL : Loc organizations t db p)
    (h : exec organizations t a db p = some (db', p')) :
    (∀ {key}, db.processed_events.committed key ≠ none →
        db'.processed_events.committed key ≠ none) ∧
      ∀ {org}, db.subscriptions.committed org ≠ none → db'.subscriptions.committed org ≠ none := by
  rcases exec_cases h with ⟨hpriv, -⟩ | ⟨δ, target, -, -, rfl, -⟩
  · rw [hpriv.processed_events.committed, hpriv.subscriptions.committed]
    exact ⟨id, id⟩
  · exact ⟨hL.modest.1.commit, hL.modest.2.commit⟩

/-- **No action of one delivery disturbs another**, in either of the two tables. -/
theorem undisturbed_of_exec (h : exec organizations t a db p = some (db', p')) (hu : u ≠ t) :
    Table.Undisturbed u db.processed_events db'.processed_events ∧
      Table.Undisturbed u db.subscriptions db'.subscriptions := by
  rcases exec_cases h with ⟨hpriv, -⟩ | ⟨δ, target, -, -, rfl, -⟩
  · exact ⟨hpriv.processed_events.undisturbed hu, hpriv.subscriptions.undisturbed hu⟩
  · exact ⟨Table.undisturbed_commit _ hu, Table.undisturbed_commit _ hu⟩

/-- What a delivery has flushed stays as it is. -/
theorem Flushed.of_undisturbed {target : Option Target} (h : Flushed u db δ target)
    (hs : Table.Undisturbed u db.subscriptions db'.subscriptions)
    (hstays : ∀ {org}, db.subscriptions.committed org ≠ none →
      db'.subscriptions.committed org ≠ none) : Flushed u db' δ target := by
  cases target with
  | none => exact Table.Untouched.congr h hs.written
  | some target =>
      obtain ⟨org, read⟩ := target
      cases read with
      | none => exact ⟨by rw [hs.held h.2.1, h.1], h.2.congr hs.written⟩
      | some read =>
          obtain ⟨found, hfound, ⟨heq, hun⟩ | hsole⟩ := h
          · have hrow : db'.subscriptions.committed org ≠ none :=
              hstays (by rw [hfound]; exact Option.some_ne_none found)
            obtain ⟨found', hfound'⟩ := Option.ne_none_iff_exists'.mp hrow
            exact ⟨found', hfound', .inl ⟨heq, hun.congr hs.written⟩⟩
          · exact ⟨found, by rw [hs.held hsole.1, hfound], .inr (hsole.congr hs.written)⟩

/-- **Interference freedom.** -/
theorem Loc.of_other (hL : Loc organizations u db p) {q : Proc} (hq : Loc organizations t db q)
    (h : exec organizations t a db q = some (db', p')) (hu : u ≠ t) :
    Loc organizations u db' p := by
  obtain ⟨hp, hs⟩ := undisturbed_of_exec h hu
  obtain ⟨hrecorded, hstays⟩ := stays_of_exec hq h
  have hclean : Clean u db → Clean u db' :=
    fun hc => ⟨hc.1.congr hp.written, hc.2.congr hs.written⟩
  have hrecords : ∀ {δ}, Records u db δ → Records u db' δ := by
    rintro δ ⟨hnone, hsole⟩
    exact ⟨by rw [hp.held hsole.1, hnone], hsole.congr hp.written⟩
  cases p with
  | idle | received _ | added _ | raised _ => exact hclean hL
  | returned δ reply => exact ⟨hclean hL.1, hrecorded hL.2⟩
  | selectOrganization δ | selectSubscription δ org =>
      exact ⟨hL.1, hrecords hL.2.1, hL.2.2.congr hs.written⟩
  | syncing δ target =>
      exact ⟨hL.1, hrecords hL.2.1, hL.2.2.1.congr hs.written,
        fun hread => hstays (hL.2.2.2 hread)⟩
  | commit δ target => exact ⟨hL.1, hrecords hL.2.1, hL.2.2.of_undisturbed hs hstays⟩

/-! ### Local correctness -/

/-- A delivery has no uncommitted rows after its rollback. -/
theorem clean_rollback (t : T) (db : Tables T) : Clean t (db.rollback t) :=
  ⟨Table.untouched_rollback _ _, Table.untouched_rollback _ _⟩

/-- Nor after its commit. -/
theorem clean_commit (t : T) (db : Tables T) : Clean t (db.commit t) :=
  ⟨Table.untouched_commit _ _, Table.untouched_commit _ _⟩

/-- The `INSERT` of the `ProcessedEvent`. -/
theorem loc_of_insertProcessed {processed : Table T (String × String) String} (hc : Clean t db)
    (hv : db.processed_events.view t δ.key = none)
    (hput : db.processed_events.put t δ.key (some δ.event.event_type.name) = some processed) :
    Loc organizations t { db with processed_events := processed }
      (if δ.event.event_type ∈ SUBSCRIPTION_EVENTS then .selectOrganization δ
        else .commit δ none) := by
  obtain ⟨hun, hsubs⟩ := hc
  have hrecords : Records t { db with processed_events := processed } δ := by
    refine ⟨?_, hun.put hput⟩
    rw [Table.committed_put hput, ← hun.view, hv]
  split
  · rename_i hlife
    exact ⟨hlife, hrecords, hsubs⟩
  · rename_i hlife
    exact ⟨by rw [target_org, if_neg hlife]; rfl, hrecords, hsubs⟩

/-- **Local correctness.** Every step establishes the next assertion of its delivery. -/
theorem Step.loc (h : Step organizations t db a p db' p') (hL : Loc organizations t db p) :
    Loc organizations t db' p' := by
  cases h with
  | deliver | unseen => exact hL
  | rollback => exact clean_rollback t db
  | duplicate htype =>
      refine ⟨clean_rollback t db, ?_⟩
      rw [(hL.1 : db.processed_events.Untouched t).view] at htype
      simp [Recorded, Tables.rollback, htype]
  | insertProcessed hv hput => exact loc_of_insertProcessed hL hv hput
  | organization hfound =>
      obtain ⟨hlife, hrecords, hun⟩ := hL
      exact ⟨by rw [target_org, if_pos hlife, hfound], hrecords, hun⟩
  | nobody hnone =>
      obtain ⟨hlife, hrecords, hun⟩ := hL
      exact ⟨by rw [target_org, if_pos hlife, hnone]; rfl, hrecords, hun⟩
  | selectSubscription =>
      obtain ⟨haim, hrecords, hun⟩ := hL
      refine ⟨haim, hrecords, hun, fun hread => ?_⟩
      rwa [hun.view] at hread
  | insert hv hput =>
      obtain ⟨haim, hrecords, hun, -⟩ := hL
      refine ⟨haim, hrecords, ?_, hun.put hput⟩
      rw [Table.committed_put hput, ← hun.view, hv]
  | unchanged hsame =>
      obtain ⟨haim, hrecords, hun, hstays⟩ := hL
      obtain ⟨found, hfound⟩ :=
        Option.ne_none_iff_exists'.mp (hstays (Option.some_ne_none _))
      exact ⟨haim, hrecords, found, hfound, .inl ⟨hsame, hun⟩⟩
  | update hfound hput =>
      obtain ⟨haim, hrecords, hun, -⟩ := hL
      rw [hun.view] at hfound
      exact ⟨haim, hrecords, _, by rw [Table.committed_put hput, hfound], .inr (hun.put hput)⟩
  | commit =>
      refine ⟨clean_commit t db, ?_⟩
      rw [Recorded, Tables.commit, Table.committed_commit, hL.2.1.2.view]
      exact Option.some_ne_none _

/-- The outline of the assertions. -/
theorem outline (organizations : List Organization) :
    (program organizations).Outline (Any (T := T)) (fun _ => True) (Loc organizations) where
  step _ _ hL h := ⟨trivial, (step_of_exec h).loc (hL _)⟩
  frame hu _ _ hL h := (hL _).of_other (hL _) h hu

/-- **The assertions hold along every run.** -/
theorem loc_of_run (hc : Start c) (h : (program organizations).Run Any c d) (u : T) :
    Loc organizations u d.shared (d.proc u) := by
  refine ((outline organizations).run h trivial fun v => ?_).2 u
  rw [hc.idle v]
  exact ⟨hc.processed_events v, hc.subscriptions v⟩

/-! ### Commits -/

/-- A step of the webhook. -/
abbrev WebhookStep (T : Type) := Program.Move T (Tables T) Proc Act

/-- The committed rows are the same. -/
structure SameRows (db db' : Tables T) : Prop where
  processed_events : db'.processed_events.committed = db.processed_events.committed
  subscriptions : db'.subscriptions.committed = db.subscriptions.committed
  provider_subscription_ids :
    db'.provider_subscription_ids.committed = db.provider_subscription_ids.committed

/-- The step is the commit of a delivery of `δ`, which answers `ok`. -/
structure Commits (m : WebhookStep T) (δ : Delivery) : Prop where
  proc : ∃ target, m.before.proc m.thread = .commit δ target
  answered : m.after.proc m.thread = .returned δ .ok

/-- At the commit the row that the delivery read, if it read one, has not moved. -/
def UnmovedAt (m : WebhookStep T) (δ : Delivery) : Prop :=
  ∀ org read found, m.before.proc m.thread = .commit δ (some ⟨org, some read⟩) →
    m.before.shared.subscriptions.committed org = some found → Unmoved δ read found

/-- **The effect of a commit** is the effect of the event exactly if the row that was read
has not moved. -/
theorem effect_iff {target : Option Target} (hL : Loc organizations t db (.commit δ target)) :
    (db.commit t).subscriptions.committed = effect organizations δ db.subscriptions.committed ↔
      ∀ org read found, target = some ⟨org, some read⟩ →
        db.subscriptions.committed org = some found → Unmoved δ read found := by
  obtain ⟨haim, -, hflushed⟩ := hL
  rw [effect, haim]
  cases target with
  | none =>
      have hun : db.subscriptions.Untouched t := hflushed
      simp [Tables.commit, hun.committed_commit]
  | some target =>
      obtain ⟨org, read⟩ := target
      cases read with
      | none =>
          obtain ⟨hnone, hsole⟩ := hflushed
          simp [Tables.commit, hsole.committed_commit, hnone]
      | some read =>
          obtain ⟨found, hfound, hrows⟩ := hflushed
          have hcommit : (db.commit t).subscriptions.committed =
              Function.update db.subscriptions.committed org
                (some (assign read (synced δ.provider δ.event org (some read)) found)) := by
            rcases hrows with ⟨heq, hun⟩ | hsole
            · have hassign : assign read read found = found := by
                simp [assign, column]
              rw [Tables.commit, hun.committed_commit, heq, hassign, ← hfound,
                Function.update_eq_self]
            · exact hsole.committed_commit
          rw [hcommit]
          simp only [Option.map_some, hfound]
          have hupdate : ∀ {x y : Option Subscription},
              Function.update db.subscriptions.committed org x =
                Function.update db.subscriptions.committed org y ↔ x = y :=
            ⟨fun h => by simpa using congrFun h org, fun h => by rw [h]⟩
          rw [hupdate, Option.some.injEq, assign_eq_synced_iff]
          constructor
          · rintro h org' read' found' htarget hfound'
            obtain ⟨rfl, hread⟩ := Target.mk.inj (Option.some.inj htarget)
            obtain rfl := Option.some.inj hread
            obtain rfl := Option.some.inj (hfound.symm.trans hfound')
            exact h
          · intro h
            exact h org read found rfl hfound

/-- A step commits a delivery, or keeps the committed rows. -/
theorem move_cases (hstep : (program organizations).step c t a = some d) :
    (SameRows c.shared d.shared ∧ ∀ δ, ¬ Commits ⟨c, t, a, d⟩ δ) ∨
      ∃ δ target, c.proc t = .commit δ target ∧ d.shared = c.shared.commit t ∧
        Commits ⟨c, t, a, d⟩ δ := by
  obtain ⟨g, l, hexec, rfl⟩ := Program.step_eq_some_iff.mp hstep
  rcases exec_cases hexec with ⟨hpriv, hreply⟩ | ⟨δ, target, -, hp, rfl, rfl⟩
  · refine .inl ⟨⟨hpriv.processed_events.committed, hpriv.subscriptions.committed,
      hpriv.provider_subscription_ids.committed⟩, fun δ hcommits => hreply δ ?_⟩
    simpa using hcommits.answered
  · exact .inr ⟨δ, target, hp, rfl, ⟨target, hp⟩, by simp⟩

/-! ### Runs -/

variable {moves : List (WebhookStep T)} {m : WebhookStep T} {key : String × String}

/-- What is recorded stays recorded. -/
theorem Recorded.run (hk : Recorded d.shared key) (hc : Start c)
    (hcd : (program organizations).Run Any c d) (h : (program organizations).Run Any d e) :
    Recorded e.shared key := by
  induction h with
  | refl => exact hk
  | step hde _ hstep ih =>
      have hL := loc_of_run hc (hcd.trans hde)
      rcases move_cases hstep with ⟨hsame, -⟩ | ⟨δ, target, -, heq, -⟩
      · rw [Recorded, hsame.processed_events]
        exact ih
      · rw [heq]
        exact (hL _).modest.1.commit ih

/-- A commit records its event, which was not recorded before. -/
theorem Commits.recorded (h : Commits m δ) (hL : Loc organizations m.thread m.before.shared
    (m.before.proc m.thread)) (hstep : (program organizations).step m.before m.thread m.action =
      some m.after) :
    ¬ Recorded m.before.shared δ.key ∧
      m.after.shared.processed_events.committed = Function.update
        m.before.shared.processed_events.committed δ.key (some δ.event.event_type.name) := by
  obtain ⟨target, hp⟩ := h.proc
  rw [hp] at hL
  obtain ⟨-, ⟨hnone, hsole⟩, -⟩ := hL
  refine ⟨fun hrec => hrec hnone, ?_⟩
  rcases move_cases hstep with ⟨-, hno⟩ | ⟨δ', target', -, heq, -⟩
  · exact absurd h (hno δ)
  · rw [heq, Tables.commit, hsole.committed_commit]

/-- **No event is recorded twice.** -/
theorem commits_once (hc : Start c) (h : (program organizations).Trace Any c moves d) :
    moves.Pairwise fun m m' => ∀ δ δ', Commits m δ → Commits m' δ' → δ.key ≠ δ'.key := by
  refine h.pairwise fun m m' hm hstep hrun hstep' δ δ' hcommits hcommits' hkey => ?_
  have hafter : (program organizations).Run Any c m.after := hm.step trivial hstep
  obtain ⟨-, hrows⟩ := hcommits.recorded (loc_of_run hc hm _) hstep
  have hrec : Recorded m.after.shared δ.key := by
    rw [Recorded, hrows, Function.update_self]
    exact Option.some_ne_none _
  obtain ⟨hnew, -⟩ := hcommits'.recorded (loc_of_run hc (hafter.trans hrun) _) hstep'
  exact hnew (hkey ▸ hrec.run hc hafter hrun)

/-- What is recorded was recorded at the start, or by a commit of the run. -/
theorem commits_of_recorded (hc : Start c) (h : (program organizations).Trace Any c moves d)
    (hk : Recorded d.shared key) :
    Recorded c.shared key ∨ ∃ m ∈ moves, ∃ δ, Commits m δ ∧ δ.key = key := by
  induction h with
  | nil => exact .inl hk
  | snoc hrun _ hstep ih =>
      rcases move_cases hstep with ⟨hsame, -⟩ | ⟨δ, target, hp, heq, hcommits⟩
      · rw [Recorded, hsame.processed_events] at hk
        rcases ih hk with hstart | ⟨m, hm, hrest⟩
        · exact .inl hstart
        · exact .inr ⟨m, List.mem_append_left _ hm, hrest⟩
      · obtain ⟨-, hrows⟩ := hcommits.recorded (loc_of_run hc hrun.run _) hstep
        by_cases hkey : key = δ.key
        · exact .inr ⟨_, List.mem_append_right _ (List.mem_singleton_self _), δ, hcommits,
            hkey.symm⟩
        · rw [Recorded, hrows, Function.update_of_ne hkey] at hk
          rcases ih hk with hstart | ⟨m, hm, hrest⟩
          · exact .inl hstart
          · exact .inr ⟨m, List.mem_append_left _ hm, hrest⟩

/-- A delivery has answered `ok` after its commit, and one that has not answered `ok` has
not committed. -/
theorem answered_iff (hc : Start c) (h : (program organizations).Trace Any c moves d) (t : T)
    (δ : Delivery) :
    d.proc t = .returned δ .ok ↔ ∃ m ∈ moves, m.thread = t ∧ Commits m δ := by
  induction h with
  | nil =>
      rw [hc.idle t]
      simp
  | @snoc moves d e u a hrun _ hstep ih =>
      obtain ⟨g, l, hexec, rfl⟩ := Program.step_eq_some_iff.mp hstep
      by_cases ht : t = u
      · subst ht
        have hbefore : d.proc t ≠ .returned δ .ok := by
          intro hp
          rw [hp] at hexec
          cases a <;> cases hexec
        have hnone : ¬ ∃ m ∈ moves, m.thread = t ∧ Commits m δ := fun hm => hbefore (ih.mpr hm)
        constructor
        · intro hp
          simp only [Function.update_self] at hp
          refine ⟨_, List.mem_append_right _ (List.mem_singleton_self _), rfl, ?_⟩
          rcases exec_cases hexec with ⟨-, hreply⟩ | ⟨δ', target, -, hcommit, -, hl⟩
          · exact absurd hp (hreply δ)
          · obtain rfl : δ' = δ := by
              rw [hl] at hp
              exact (Proc.returned.inj hp).1
            exact ⟨⟨target, hcommit⟩, by simp [hp]⟩
        · rintro ⟨m, hm, hthread, hcommits⟩
          rcases List.mem_append.mp hm with hm | hm
          · exact absurd ⟨m, hm, hthread, hcommits⟩ hnone
          · obtain rfl := List.mem_singleton.mp hm
            exact hcommits.answered
      · simp only [Function.update_of_ne ht]
        rw [ih]
        constructor
        · rintro ⟨m, hm, hrest⟩
          exact ⟨m, List.mem_append_left _ hm, hrest⟩
        · rintro ⟨m, hm, hthread, hcommits⟩
          rcases List.mem_append.mp hm with hm | hm
          · exact ⟨m, hm, hthread, hcommits⟩
          · obtain rfl := List.mem_singleton.mp hm
            exact absurd hthread.symm ht

/-- **Deliveries are recorded once, with their effect.** In every run of deliveries no event
is committed twice, and only commits change the tables. A delivery that is answered has its
event recorded, by its own commit if the answer is `ok`. A delivery that has failed has
changed nothing. Each commit adds the record of its event, and its change of the
subscriptions is the effect of the event exactly if the row that the delivery read has not
moved. -/
theorem recorded_once (hc : Start c) (h : (program organizations).Trace Any c moves d) :
    (moves.Pairwise fun m m' => ∀ δ δ', Commits m δ → Commits m' δ' → δ.key ≠ δ'.key) ∧
    (∀ m ∈ moves, (∀ δ, ¬ Commits m δ) → SameRows m.before.shared m.after.shared) ∧
    (∀ t δ, d.proc t = .raised δ → ∀ m ∈ moves, m.thread = t →
      SameRows m.before.shared m.after.shared) ∧
    (∀ t δ reply, d.proc t = .returned δ reply → Recorded d.shared δ.key ∧
      (reply = .ok → ∃ m ∈ moves, m.thread = t ∧ Commits m δ) ∧
      (Recorded c.shared δ.key ∨ ∃ m ∈ moves, ∃ δ', Commits m δ' ∧ δ'.key = δ.key)) ∧
    (∀ m ∈ moves, ∀ δ, Commits m δ →
      m.after.shared.processed_events.committed = Function.update
        m.before.shared.processed_events.committed δ.key (some δ.event.event_type.name) ∧
      (m.after.shared.subscriptions.committed =
          effect organizations δ m.before.shared.subscriptions.committed ↔ UnmovedAt m δ)) := by
  have hkeep : ∀ m ∈ moves, (∀ δ, ¬ Commits m δ) → SameRows m.before.shared m.after.shared := by
    intro m hm hno
    obtain ⟨-, hstep, -⟩ := h.around hm
    rcases move_cases hstep with ⟨hsame, -⟩ | ⟨δ, -, -, -, hcommits⟩
    · exact hsame
    · exact absurd hcommits (hno δ)
  refine ⟨commits_once hc h, hkeep, fun t δ hp m hm hthread => ?_, fun t δ reply hp => ?_,
    fun m hm δ hcommits => ?_⟩
  · refine hkeep m hm fun δ' hcommits => ?_
    rw [(answered_iff hc h t δ').mpr ⟨m, hm, hthread, hcommits⟩] at hp
    cases hp
  · have hL := loc_of_run hc h.run t
    rw [hp] at hL
    refine ⟨hL.2, ?_, commits_of_recorded hc h hL.2⟩
    rintro rfl
    exact (answered_iff hc h t δ).mp hp
  · obtain ⟨hbefore, hstep, -⟩ := h.around hm
    have hL := loc_of_run hc hbefore m.thread
    refine ⟨(hcommits.recorded hL hstep).2, ?_⟩
    rcases move_cases hstep with ⟨-, hno⟩ | ⟨δ', target, hp, heq, -⟩
    · exact absurd hcommits (hno δ)
    · obtain ⟨target', hp'⟩ := hcommits.proc
      obtain ⟨rfl, rfl⟩ := Proc.commit.inj (hp.symm.trans hp')
      rw [hp] at hL
      rw [heq, effect_iff hL]
      constructor
      · intro hun org read found htarget
        rw [hp'] at htarget
        exact hun org read found (Proc.commit.inj htarget).2
      · rintro hun org read found rfl
        exact hun org read found hp'

/-! ### Two schedules -/

/-- The organisation of the schedules. -/
def plainOrganizations : List Organization := [⟨Uuid.ofNat 1, some "cus"⟩]

/-- Its subscription when they start. -/
def plainRow : Subscription := ⟨Uuid.ofNat 1, "stripe", "sub", "active", "pro", some 0⟩

/-- The table with one committed row. -/
def oneRow {K V : Type} [DecidableEq K] (k : K) (v : V) : Table (Fin 2) K V where
  committed := fun j => if j = k then some v else none
  dirty := fun _ => none
  keys := {k}
  mem_keys_of_committed := fun {j} h => by
    by_contra hj
    exact h (if_neg (by simpa using hj))
  mem_keys_of_dirty := fun h => absurd rfl h

/-- The subscription is there, and nothing is recorded. -/
def subscribed : Config (Fin 2) (Tables (Fin 2)) Proc where
  shared := ⟨Table.empty, oneRow (Uuid.ofNat 1) plainRow, oneRow "sub" (Uuid.ofNat 1)⟩
  proc := fun _ => .idle

/-- The example begins with no delivery under way. -/
theorem start_subscribed : Start subscribed := ⟨fun _ _ => rfl, fun _ _ => rfl, fun _ => rfl⟩

/-- An update of the subscription. -/
def updated (event_id status plan : String) : Delivery :=
  ⟨"stripe", ⟨event_id, .updated, some "sub", some status, some plan, some 0, some "cus"⟩⟩

/-- The statements of a delivery up to the `SELECT` of the subscription. -/
def selectSchedule (t : Fin 2) (δ : Delivery) : List (Fin 2 × Act) :=
  [(t, .deliver δ), (t, .stmt), (t, .stmt), (t, .stmt), (t, .stmt)]

/-- A delivery alone. -/
theorem recorded_once_alone :
    ∃ (moves : List (WebhookStep (Fin 2))) (d : Config (Fin 2) (Tables (Fin 2)) Proc),
      (program plainOrganizations).Trace Any subscribed moves d ∧
        Recorded d.shared ("stripe", "e1") ∧
        ∃ m ∈ moves, m.thread = 0 ∧ Commits m (updated "e1" "past_due" "pro") := by
  have hreplay : ((program plainOrganizations).replay Any subscribed
      (selectSchedule 0 (updated "e1" "past_due" "pro") ++ [(0, .stmt), (0, .stmt)])).any
      (fun d => d.proc 0 = .returned (updated "e1" "past_due" "pro") .ok) = true := by
    decide
  obtain ⟨d, hrun, hp⟩ := Program.exists_run_of_replay hreplay
  obtain ⟨moves, htrace⟩ := hrun.exists_trace
  obtain ⟨-, -, -, hanswered, -⟩ := recorded_once start_subscribed htrace
  obtain ⟨hrec, hcommit, -⟩ := hanswered 0 _ _ (of_decide_eq_true hp)
  exact ⟨moves, d, htrace, hrec, hcommit rfl⟩

/-- One event says that the subscription is past due on the plan `pro`, another one that it
is active on `enterprise`. Both deliveries read an active subscription on `pro` and answer
`ok`. The second one assigns only the plan: the row is past due on `enterprise`, and the
commit does not have the effect of its event. -/
theorem mixed_row :
    ∃ (c d : Config (Fin 2) (Tables (Fin 2)) Proc),
      (program plainOrganizations).Run Any subscribed c ∧
        (program plainOrganizations).step c 1 .stmt = some d ∧
        d.proc 0 = .returned (updated "e1" "past_due" "pro") .ok ∧
        d.proc 1 = .returned (updated "e2" "active" "enterprise") .ok ∧
        d.shared.subscriptions.committed (Uuid.ofNat 1) =
          some { plainRow with status := "past_due", plan := "enterprise" } ∧
        d.shared.subscriptions.committed ≠
          effect plainOrganizations (updated "e2" "active" "enterprise")
            c.shared.subscriptions.committed := by
  have hreplay : ((program plainOrganizations).replay Any subscribed
      (selectSchedule 0 (updated "e1" "past_due" "pro") ++
        selectSchedule 1 (updated "e2" "active" "enterprise") ++
        [(0, .stmt), (0, .stmt), (1, .stmt)])).any (fun c =>
        ((program plainOrganizations).step c 1 .stmt).any fun d =>
          decide (d.proc 0 = .returned (updated "e1" "past_due" "pro") .ok ∧
            d.proc 1 = .returned (updated "e2" "active" "enterprise") .ok ∧
            d.shared.subscriptions.committed (Uuid.ofNat 1) =
              some { plainRow with status := "past_due", plan := "enterprise" } ∧
            effect plainOrganizations (updated "e2" "active" "enterprise")
              c.shared.subscriptions.committed (Uuid.ofNat 1) =
                some { plainRow with status := "active", plan := "enterprise" })) = true := by
    decide
  obtain ⟨c, hrun, hc⟩ := Program.exists_run_of_replay hreplay
  simp only [Option.any_eq_true, decide_eq_true_eq] at hc
  obtain ⟨d, hstep, hp₀, hp₁, hrow, heffect⟩ := hc
  refine ⟨c, d, hrun, hstep, hp₀, hp₁, hrow, fun heq => ?_⟩
  rw [heq, heffect] at hrow
  exact absurd hrow (by decide)

end BackendManager.Billing.Webhook
