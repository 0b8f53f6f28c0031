import BackendManager.MemberEvents

/-!
# Changes without an Audit Row

`record` adds its row to the transaction of its caller. `create_organization` and `add_member`
call it after they have committed their change, so that the row belongs to a transaction of
its own: a request that ends between the two commits leaves a change without its audit row.

The condition is exact in both directions. A request that has committed its change and has not
recorded it stands at one of the statements in between, or has ended there, by a failure of the
second transaction or because the process was stopped; in every other case the row of the change
is committed. The audit row is compared with the change as a whole: organisation, actor, action
and target. `remove_member` records nothing, and is not one of the changes.

## Main results

* `commit_outcomes`: what becomes of a change that was committed.
* `audited_iff`: all changes of a run are audited if and only if no request stands or has
  ended between its two commits.
* `change_without_audit`: a run that leaves an organisation and no audit row.
-/

namespace BackendManager.Organizations

open ReadCommitted Interleaving

variable {T : Type} [DecidableEq T] {F : Features} {t : T} {s s' : Database T} {p p' q : Proc}
  {a : Act} {ch : Change} {event : Option String} {entry : Uuid}
  {c d : Config T (Database T) Proc} {m : Program.Move T (Database T) Proc Act}
  {moves : List (Program.Move T (Database T) Proc Act)}

/-- The change that the request has committed and not recorded. -/
def Proc.unrecorded : Proc → Option Change
  | .refresh ch | .record ch | .recordCommit ch _ => some ch
  | _ => none

/-- With this step a request commits the audit row of its change. -/
def Records (m : Program.Move T (Database T) Proc Act) (ch : Change) (entry : Uuid) : Prop :=
  m.before.proc m.thread = .recordCommit ch entry ∧ m.after.proc m.thread = .created ch

/-- With this step a request ends without having recorded its change. -/
def Abandons (m : Program.Move T (Database T) Proc Act) (ch : Change) : Prop :=
  (m.before.proc m.thread).unrecorded = some ch ∧ m.after.proc m.thread = .raised

/-- **Every change has its audit row**: the request that has committed the change has
committed the row, and the row is stored. -/
def Audited (moves : List (Program.Move T (Database T) Proc Act))
    (d : Config T (Database T) Proc) : Prop :=
  ∀ m ∈ moves, ∀ ch event, Commits m ch event →
    ∃ m' ∈ moves, ∃ entry, m'.thread = m.thread ∧ Records m' ch entry ∧
      d.shared.audit_logs.committed entry = some ch.audit

/-! ### One request -/

/-- A request that has ended takes no further step. -/
theorem Step.running (h : Step F t s a p s' p') : p.ended = false := by
  cases h with
  | raised running => exact running
  | conflict handler =>
      cases p with
      | created | removed | refused | raised => cases handler
      | _ => rfl
  | _ => rfl

theorem ended_of_run (h : (program F).Run Any c d) (hp : (c.proc t).ended = true) :
    d.proc t = c.proc t := by
  refine h.proc (Q := fun p => p = c.proc t) (fun hexec hA => ?_) rfl
  have hrunning := (step_of_exec hexec).running
  rw [hA, hp] at hrunning
  cases hrunning

/-- From its commit on, a request records its change or fails. -/
theorem Step.unrecorded (h : Step F t s a p s' p') (hF : F.audit = true)
    (hp : p.unrecorded = some ch) :
    p'.unrecorded = some ch ∨ p' = .raised ∨
      ∃ entry, p = .recordCommit ch entry ∧ p' = .created ch := by
  cases h with
  | raised => exact .inr (.inl rfl)
  | conflict handler =>
      cases p with
      | refresh | record | recordCommit => cases handler
      | _ => cases hp
  | refresh =>
      rw [if_pos hF]
      exact .inl hp
  | record => exact .inl hp
  | recordCommit =>
      obtain rfl := Option.some.inj hp
      exact .inr (.inr ⟨_, rfl, rfl⟩)
  | _ => cases hp

theorem unrecorded_guard (F : Features) (t : T) (s : Database T) (r : Request) :
    (guard F t s r).unrecorded = none := by
  cases r with
  | create_organization user payload => rfl
  | add_member user org_id payload =>
      rw [guard]
      split <;> rfl
  | remove_member user org_id user_id =>
      rw [guard]
      split <;> rfl

omit [DecidableEq T] in
theorem unrecorded_flushed (F : Features) (caller org_id : Uuid) (payload : MemberAdd)
    (membership : Option Uuid) (event : Option String) :
    (flushed F caller org_id payload membership event).unrecorded = none := by
  unfold flushed
  split
  · split <;> rfl
  · rfl

theorem unrecorded_selectTarget (t : T) (caller org_id user_id : Uuid) (s : Database T) :
    (selectTarget t caller org_id user_id s).unrecorded = none := by
  rw [selectTarget]
  split <;> rfl

/-- Before a request has a change to record it commits it. -/
theorem Step.of_unrecorded (h : Step F t s a p s' p') (hp' : p'.unrecorded = some ch) :
    p.unrecorded = some ch ∨ ∃ event, p = .commit ch event ∧ p' = .refresh ch := by
  cases h with
  | commit =>
      obtain rfl := Option.some.inj hp'
      exact .inr ⟨_, rfl, rfl⟩
  | refresh =>
      split at hp'
      · exact .inl hp'
      · cases hp'
  | record => exact .inl hp'
  | guard =>
      rw [unrecorded_guard] at hp'
      cases hp'
  | selectTarget =>
      rw [unrecorded_selectTarget] at hp'
      cases hp'
  | flushMembership | flushEvent =>
      rw [unrecorded_flushed] at hp'
      cases hp'
  | _ => cases hp'

/-! ### Every run -/

/-- **What becomes of a committed change**: it is still to be recorded, or its request has
ended without recording it, or the audit row is committed. -/
theorem commit_outcomes (hF : F.audit = true) (h : (program F).Trace Any init moves d)
    (hm : m ∈ moves) (hcommits : Commits m ch event) :
    (d.proc m.thread).unrecorded = some ch ∨
      (∃ m' ∈ moves, m'.thread = m.thread ∧ Abandons m' ch) ∨
      ∃ m' ∈ moves, ∃ entry, m'.thread = m.thread ∧ Records m' ch entry := by
  induction h with
  | nil => cases hm
  | @snoc moves c d t a hrun _ hstep ih =>
      rcases List.mem_append.mp hm with hm | hm
      · rcases ih hm with hopen | ⟨m', hm', hab⟩ | ⟨m', hm', hrec⟩
        · by_cases ht : m.thread = t
          · subst ht
            have hlast : ⟨c, m.thread, a, d⟩ ∈ moves ++ [⟨c, m.thread, a, d⟩] :=
              List.mem_append_right _ (List.mem_singleton_self _)
            rcases (step_of_move hstep).unrecorded hF hopen with
              hstill | hraised | ⟨entry, hp, hp'⟩
            · exact .inl hstill
            · exact .inr (.inl ⟨_, hlast, rfl, hopen, hraised⟩)
            · exact .inr (.inr ⟨_, hlast, entry, rfl, hp, hp'⟩)
          · left
            rw [Program.proc_of_step_ne hstep ht]
            exact hopen
        · exact .inr (.inl ⟨m', List.mem_append_left _ hm', hab⟩)
        · exact .inr (.inr ⟨m', List.mem_append_left _ hm', hrec⟩)
      · obtain rfl := List.mem_singleton.mp hm
        left
        rw [hcommits.2]
        rfl

/-- A change that is to be recorded was committed. -/
theorem committed_of_unrecorded (h : (program F).Trace Any init moves d)
    (hopen : (d.proc t).unrecorded = some ch) :
    ∃ m ∈ moves, m.thread = t ∧ ∃ event, Commits m ch event := by
  induction h with
  | nil => cases hopen
  | @snoc moves c d u a hrun _ hstep ih =>
      have hlater : (c.proc t).unrecorded = some ch →
          ∃ m ∈ moves ++ [⟨c, u, a, d⟩], m.thread = t ∧ ∃ event, Commits m ch event := by
        intro hbefore
        obtain ⟨m, hm, hcommits⟩ := ih hbefore
        exact ⟨m, List.mem_append_left _ hm, hcommits⟩
      by_cases ht : t = u
      · subst ht
        rcases (step_of_move hstep).of_unrecorded hopen with hbefore | ⟨event, hp, hp'⟩
        · exact hlater hbefore
        · exact ⟨_, List.mem_append_right _ (List.mem_singleton_self _), rfl, event, hp, hp'⟩
      · rw [Program.proc_of_step_ne hstep ht] at hopen
        exact hlater hopen

/-- So was one that is abandoned. -/
theorem committed_of_abandoned (h : (program F).Trace Any init moves d) (hm : m ∈ moves)
    (hab : Abandons m ch) :
    ∃ m' ∈ moves, m'.thread = m.thread ∧ ∃ event, Commits m' ch event := by
  induction h with
  | nil => cases hm
  | @snoc moves c d u a hrun _ hstep ih =>
      rcases List.mem_append.mp hm with hm | hm
      · obtain ⟨m', hm', hcommits⟩ := ih hm
        exact ⟨m', List.mem_append_left _ hm', hcommits⟩
      · obtain rfl := List.mem_singleton.mp hm
        obtain ⟨m', hm', hcommits⟩ := committed_of_unrecorded hrun hab.1
        exact ⟨m', List.mem_append_left _ hm', hcommits⟩

/-- The step that commits an audit row. -/
theorem Step.of_recordCommit (h : Step F t s a (.recordCommit ch entry) s' (.created ch)) :
    s' = s.commit t := by
  cases h with
  | recordCommit => rfl

/-- **An audit row that is committed is stored for good.** -/
theorem Records.stored (hm : Records m ch entry) (h : (program F).Trace Any init moves d)
    (hmem : m ∈ moves) : d.shared.audit_logs.committed entry = some ch.audit := by
  obtain ⟨hbefore, hstep, hafter⟩ := h.around hmem
  have hS := stands_of_run hbefore m.thread
  have hs := step_of_move hstep
  rw [hm.1] at hS hs
  rw [hm.2] at hs
  refine (grows_of_run (hbefore.step trivial hstep) hafter).audit_logs entry _ ?_
  rw [hs.of_recordCommit, hS.holds.publishes.audit_logs]
  exact Function.update_self _ _ _

/-- The commit that publishes an organisation. -/
theorem Publishing.organization {org : Uuid} {v : Option Organization} (h : Publishing p p')
    (hw : p.pending.organization = some (org, v)) :
    ∃ user id payload event, p = .commit (.organization user org id payload) event ∧
      p' = .refresh (.organization user org id payload) := by
  cases h with
  | entry => cases hw
  | removal caller org_id user_id deleted => cases deleted <;> cases hw
  | change ch event =>
      cases ch with
      | membership => cases hw
      | organization user org' id payload =>
          obtain ⟨rfl, -⟩ := Prod.mk.inj (Option.some.inj hw)
          exact ⟨user, id, payload, event, rfl, rfl⟩

/-- The organisation that appears is the one of the change that is committed. -/
theorem commits_of_newOrganization {org : Uuid} {row : Organization}
    (hS : Stands F t c.shared (c.proc t)) (h : (program F).step c t a = some d)
    (hbefore : c.shared.organizations.committed org ≠ some row)
    (hafter : d.shared.organizations.committed org = some row) :
    ∃ user id payload event, Commits ⟨c, t, a, d⟩ (.organization user org id payload) event := by
  have hne : d.shared.organizations.committed org ≠ c.shared.organizations.committed org := by
    rw [hafter]
    exact hbefore.symm
  obtain ⟨hpublishing, hpending⟩ := (step_of_move h).publishing_organization hS hne
  obtain ⟨user, id, payload, event, hp, hp'⟩ := hpublishing.organization hpending
  exact ⟨user, id, payload, event, hp, hp'⟩

/-- **Every stored row comes from a committed change.** -/
theorem changes_of_run (h : (program F).Trace Any init moves d) :
    (∀ org row, d.shared.organizations.committed org = some row →
      ∃ m ∈ moves, ∃ user id payload event, Commits m (.organization user org id payload) event) ∧
    ∀ k member, d.shared.memberships.committed k = some member →
      ∃ m ∈ moves, ∃ ch event, Commits m ch event ∧ ch.membershipRow = (k, member) := by
  induction h with
  | nil => exact ⟨fun _ _ hrow => (nomatch hrow), fun _ _ hrow => (nomatch hrow)⟩
  | @snoc moves c d t a hrun _ hstep ih =>
      have hS := stands_of_run hrun.run t
      have hlast : ⟨c, t, a, d⟩ ∈ moves ++ [⟨c, t, a, d⟩] :=
        List.mem_append_right _ (List.mem_singleton_self _)
      refine ⟨fun org row hrow => ?_, fun k member hrow => ?_⟩
      · by_cases hbefore : c.shared.organizations.committed org = some row
        · obtain ⟨m, hm, hcommits⟩ := ih.1 org row hbefore
          exact ⟨m, List.mem_append_left _ hm, hcommits⟩
        · exact ⟨_, hlast, commits_of_newOrganization hS hstep hbefore hrow⟩
      · by_cases hbefore : c.shared.memberships.committed k = some member
        · obtain ⟨m, hm, hcommits⟩ := ih.2 k member hbefore
          exact ⟨m, List.mem_append_left _ hm, hcommits⟩
        · exact ⟨_, hlast, commits_of_new hS hstep hbefore hrow⟩

/-- **When every change is audited.** With audit on, the rows that are stored come from
committed changes, and in a durable state every one of these has its audit row if and only if
no request stands between the commit of its change and the commit of the row, and none has
ended there. -/
theorem audited_iff (hF : F.audit = true) (h : (program F).Trace Any init moves d) :
    ((∀ org row, d.shared.organizations.committed org = some row →
        ∃ m ∈ moves, ∃ user id payload event,
          Commits m (.organization user org id payload) event) ∧
      ∀ k member, d.shared.memberships.committed k = some member →
        ∃ m ∈ moves, ∃ ch event, Commits m ch event ∧ ch.membershipRow = (k, member)) ∧
    (Audited moves d ↔
      (∀ t, (d.proc t).unrecorded = none) ∧ ∀ m ∈ moves, ∀ ch, ¬ Abandons m ch) := by
  refine ⟨changes_of_run h, fun haudited => ⟨fun t => ?_, fun m hm ch hab => ?_⟩, ?_⟩
  · by_contra hopen
    obtain ⟨ch, hch⟩ := Option.ne_none_iff_exists'.mp hopen
    obtain ⟨m, hm, rfl, event, hcommits⟩ := committed_of_unrecorded h hch
    obtain ⟨m', hm', entry, hthread, hrecords, -⟩ := haudited m hm ch event hcommits
    obtain ⟨-, -, hafter⟩ := h.around hm'
    have hfinal := ended_of_run hafter (t := m'.thread) (by rw [hrecords.2]; rfl)
    rw [← hthread, hfinal, hrecords.2] at hch
    cases hch
  · obtain ⟨m₀, hm₀, hthread₀, event, hcommits⟩ := committed_of_abandoned h hm hab
    obtain ⟨m', hm', entry, hthread, hrecords, -⟩ := haudited m₀ hm₀ ch event hcommits
    obtain ⟨-, -, hafter⟩ := h.around hm
    obtain ⟨-, -, hafter'⟩ := h.around hm'
    have hfinal := ended_of_run hafter (t := m.thread) (by rw [hab.2]; rfl)
    have hfinal' := ended_of_run hafter' (t := m'.thread) (by rw [hrecords.2]; rfl)
    rw [hthread, hthread₀, hfinal, hab.2, ← hthread₀, ← hthread, hrecords.2] at hfinal'
    cases hfinal'
  · rintro ⟨hnone, habandoned⟩ m hm ch event hcommits
    rcases commit_outcomes hF h hm hcommits with
      hopen | ⟨m', hm', -, hab⟩ | ⟨m', hm', entry, hthread, hrecords⟩
    · rw [hnone] at hopen
      cases hopen
    · exact absurd hab (habandoned m' hm' ch)
    · exact ⟨m', hm', entry, hthread, hrecords, hrecords.stored h hm'⟩

set_option maxRecDepth 10000 in
/-- A run in which an organisation is created and recorded. -/
theorem audited_iff_created :
    ∃ (moves : List (Program.Move (Fin 1) (Database (Fin 1)) Proc Act))
      (d : Config (Fin 1) (Database (Fin 1)) Proc),
      (program ⟨false, true, false⟩).Trace Any init moves d ∧
        (d.shared.organizations.committed (.ofNat 10)).isSome ∧ Audited moves d := by
  have hreplay : ((program ⟨false, true, false⟩).replay Any init
      (createAcme (0 : Fin 1) ++ [(0, draw 12), (0, draw 0)])).any (fun d =>
        decide ((d.proc 0).unrecorded = none ∧ d.proc 0 ≠ .raised ∧
          (d.shared.organizations.committed (.ofNat 10)).isSome)) = true := by
    decide
  obtain ⟨d, hrun, hp⟩ := Program.exists_run_of_replay hreplay
  obtain ⟨hnone, hraised, hsome⟩ := of_decide_eq_true hp
  obtain ⟨moves, htrace⟩ := hrun.exists_trace
  refine ⟨moves, d, htrace, hsome, (audited_iff rfl htrace).2.mpr ⟨fun t => ?_, ?_⟩⟩
  · obtain rfl : t = 0 := Subsingleton.elim _ _
    exact hnone
  · intro m hm ch hab
    obtain ⟨-, -, hafter⟩ := htrace.around hm
    have hthread : m.thread = 0 := Subsingleton.elim _ _
    have hfinal := ended_of_run hafter (t := m.thread) (by rw [hab.2]; rfl)
    rw [hab.2, hthread] at hfinal
    exact hraised hfinal

set_option maxRecDepth 10000 in
/-- The request that creates an organisation ends after the commit of its change: the
organisation is stored, and no audit row. -/
theorem change_without_audit :
    ∃ d : Config (Fin 1) (Database (Fin 1)) Proc,
      (program ⟨false, true, false⟩).Run Any init d ∧ d.proc 0 = .raised ∧
        d.shared.organizations.committed (.ofNat 10) = some ⟨"Acme", "acme"⟩ ∧
        ∀ entry, d.shared.audit_logs.committed entry = none := by
  have hreplay : ((program ⟨false, true, false⟩).replay Any init
      ((createAcme (0 : Fin 1)).take 5 ++ [(0, .fail)])).any (fun d =>
        decide (d.proc 0 = .raised ∧
          d.shared.organizations.committed (.ofNat 10) = some ⟨"Acme", "acme"⟩ ∧
          d.shared.audit_logs.keys = ∅)) = true := by
    decide
  obtain ⟨d, hrun, hp⟩ := Program.exists_run_of_replay hreplay
  obtain ⟨hraised, hrow, hkeys⟩ := of_decide_eq_true hp
  refine ⟨d, hrun, hraised, hrow, fun entry => ?_⟩
  by_contra hne
  have hmem := d.shared.audit_logs.mem_keys_of_committed hne
  rw [hkeys] at hmem
  exact absurd hmem (Finset.notMem_empty entry)

end BackendManager.Organizations
