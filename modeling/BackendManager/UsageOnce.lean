import BackendManager.UsageConservation

/-!
# Recording Usage Once

A call of `record_usage` whose `INSERT` is refused rolls back and asks in a second query whether
its key is in the table. The key may have got there after the `INSERT`, and the `INSERT` may
have been refused for another reason: the query does not tell. It answers whether the event has
been recorded by now, and that is what the call returns.

So of the calls with one key exactly one returns `True`, in whichever order and however often
they are made, and the sum over a window is the sum over the distinct keys.

## Main results

* `ledger_of_run`: the calls that have returned `True` are the committed events.
* `unchanged_of_trace`: a call that has not returned `True` has not changed the events.
* `raised_of_trace`, `duplicate_of_trace`: why a call raises, and how a duplicate ends.
* `usage_recorded_once`: the results of all calls, the sums of a window, and what a failed `INSERT`
  leads to.
* `failed_but_returns`: a call that fails for another reason and returns.
-/

namespace BackendManager.Usage

open ReadCommitted Interleaving Metering Windows

variable {T : Type} [DecidableEq T] {t u : T} {s s' : Store T} {p p' : Proc} {a : Act}
  {env : Env} {call : UsageRecord} {fresh : Bool} {x start stop : ℕ} {org : Uuid}
  {k : Uuid × String} {c d : Config T (Store T) Proc}
  {moves : List (Program.Move T (Store T) Proc Act)} {m : Program.Move T (Store T) Proc Act}
  {sent : Uuid × String → String × ℤ}

/-! ### The result of a call -/

/-- A call returns `True` from its `COMMIT`, and `False` when its key is in the table. -/
theorem recorded_of_exec (h : exec t a s p = some (s', .recorded call fresh)) :
    p = .recorded call fresh ∨ (∃ x, p = .usageCommit call x ∧ fresh = true) ∨
      (p = .findDuplicate call ∧ fresh = false ∧ (s.usage.view t call.key).isSome) := by
  cases a with
  | tick => exact .inl (Prod.mk.inj (Option.some.inj h)).2
  | record _ | close _ _ => cases p <;> cases h
  | fail =>
      rw [exec] at h
      split at h <;> cases h
  | stmt env =>
      cases hstep : step_of_stmt h with
      | usageCommit => exact .inr (.inl ⟨_, rfl, rfl⟩)
      | existing hnext => rcases hnext with hp | hp <;> cases hp
      | duplicate hnext =>
          have hproc := (Prod.mk.inj (Option.some.inj h)).2
          split at hproc
          · rename_i hfound
            cases hproc
            exact .inr (.inr ⟨rfl, rfl, hfound⟩)
          · cases hproc

/-- A call that has returned does nothing more. -/
theorem exec_recorded (h : exec t a s (.recorded call fresh) = some (s', p')) :
    p' = .recorded call fresh := by
  cases step_of_exec h with
  | tick => rfl
  | fail hrunning => cases hrunning

theorem recorded_of_run {ok : Config T (Store T) Proc → T → Act → Prop}
    (h : program.Run ok c d) (hc : c.proc t = .recorded call fresh) :
    d.proc t = .recorded call fresh :=
  h.proc (Q := fun p => p = .recorded call fresh)
    (fun hexec hp => by subst hp; exact exec_recorded hexec) hc

/-- Events are added by the `COMMIT` of their call, which returns `True`; nothing else does. -/
theorem usage_of_exec (hF : Footprint t s p) (h : exec t a s p = some (s', p')) :
    s'.usage.committed = s.usage.committed ∧
        (∀ call, p' = .recorded call true → p = .recorded call true) ∨
      ∃ call x, p' = .recorded call true ∧ p = .usageCommit call x ∧ NewEvent s s' call x := by
  rcases exec_cases h with hpriv | ⟨rfl, rfl⟩ | ⟨call, x, rfl, rfl, rfl⟩ |
    ⟨org, start, invoice, rfl, rfl, rfl⟩
  · refine .inl ⟨hpriv.usage.committed, ?_⟩
    rintro call rfl
    rcases recorded_of_exec h with hold | ⟨x, rfl, -⟩ | ⟨-, hfresh, -⟩
    · exact hold
    · cases step_of_exec h with
      | usageCommit =>
          -- A `COMMIT` is not private.
          have hstored := congrFun hF.newEvent.usage call.key
          rw [hpriv.usage.committed, Function.update_self, hF.fresh] at hstored
          cases hstored
    · cases hfresh
  · exact .inl ⟨rfl, fun _ hp => hp⟩
  · exact .inr ⟨call, x, rfl, rfl, hF.newEvent⟩
  · exact .inl ⟨hF.committed.2, fun _ hp => by cases hp⟩

/-! ### The ledger of the calls -/

/-- The committed events are those of the calls that have returned `True`, one for each key. -/
structure Ledger (c : Config T (Store T) Proc) : Prop where
  /-- A call that has returned `True` has its event in the table. -/
  stored : ∀ {t call}, c.proc t = .recorded call true →
    ∃ x, c.shared.usage.committed call.key = some (call.row x)
  /-- Every event is that of such a call. -/
  of_call : ∀ {k ev}, c.shared.usage.committed k = some ev →
    ∃ t call x, c.proc t = .recorded call true ∧ call.key = k ∧ ev = call.row x
  /-- No two such calls have the same key. -/
  unique : ∀ {t u call call'}, c.proc t = .recorded call true →
    c.proc u = .recorded call' true → call.key = call'.key → t = u
  /-- A call returns `False` when its key is in the table. -/
  duplicate : ∀ {t call}, c.proc t = .recorded call false →
    (c.shared.usage.committed call.key).isSome

omit [DecidableEq T] in
/-- Neither the events nor the calls that have returned `True` change. -/
theorem Ledger.of_same (hl : Ledger c)
    (hsame : d.shared.usage.committed = c.shared.usage.committed)
    (htrue : ∀ u call, d.proc u = .recorded call true ↔ c.proc u = .recorded call true)
    (hfalse : ∀ u call, d.proc u = .recorded call false →
      (d.shared.usage.committed call.key).isSome) : Ledger d where
  stored hu := by
    obtain ⟨x, hx⟩ := hl.stored ((htrue _ _).mp hu)
    exact ⟨x, by rw [hsame, hx]⟩
  of_call hev := by
    rw [hsame] at hev
    obtain ⟨u, call, x, hu, hrest⟩ := hl.of_call hev
    exact ⟨u, call, x, (htrue _ _).mpr hu, hrest⟩
  unique hu hv := hl.unique ((htrue _ _).mp hu) ((htrue _ _).mp hv)
  duplicate hu := hfalse _ _ hu

omit [DecidableEq T] in
/-- A call adds its event and returns `True`. -/
theorem Ledger.of_new (hl : Ledger c) (hnew : NewEvent c.shared d.shared call x)
    (htrue : ∀ u call', d.proc u = .recorded call' true ↔
      c.proc u = .recorded call' true ∨ u = t ∧ call' = call)
    (hfalse : ∀ u call', d.proc u = .recorded call' false →
      (d.shared.usage.committed call'.key).isSome) : Ledger d := by
  have hfresh : ∀ {u call'}, c.proc u = .recorded call' true → call'.key ≠ call.key := by
    intro u call' hu heq
    obtain ⟨y, hy⟩ := hl.stored hu
    rw [heq, hnew.fresh] at hy
    cases hy
  refine ⟨fun {u call'} hu => ?_, fun {k ev} hev => ?_, fun {u v call₁ call₂} hu hv heq => ?_,
    fun {u call'} hu => hfalse u call' hu⟩
  · rcases (htrue u call').mp hu with hold | ⟨-, rfl⟩
    · obtain ⟨y, hy⟩ := hl.stored hold
      exact ⟨y, by rw [hnew.usage, Function.update_of_ne (hfresh hold), hy]⟩
    · exact ⟨x, by rw [hnew.usage, Function.update_self]⟩
  · rw [hnew.usage] at hev
    by_cases hk : k = call.key
    · subst hk
      rw [Function.update_self] at hev
      exact ⟨t, call, x, (htrue t call).mpr (.inr ⟨rfl, rfl⟩), rfl, (Option.some.inj hev).symm⟩
    · rw [Function.update_of_ne hk] at hev
      obtain ⟨u, call', y, hu, hrest⟩ := hl.of_call hev
      exact ⟨u, call', y, (htrue u call').mpr (.inl hu), hrest⟩
  · rcases (htrue u call₁).mp hu with hu | ⟨rfl, rfl⟩ <;>
      rcases (htrue v call₂).mp hv with hv | ⟨rfl, rfl⟩
    · exact hl.unique hu hv heq
    · exact absurd heq (hfresh hu)
    · exact absurd heq.symm (hfresh hv)
    · rfl

/-- **One step.** -/
theorem Ledger.step (hl : Ledger c) (hF : ∀ u, Footprint u c.shared (c.proc u))
    (h : program.step c t a = some d) : Ledger d := by
  obtain ⟨s', p', hexec, rfl⟩ := Program.step_eq_some_iff.mp h
  have hkept : ∀ {call fresh}, c.proc t = .recorded call fresh → p' = .recorded call fresh := by
    intro call fresh ht
    rw [ht] at hexec
    exact exec_recorded hexec
  have hfalse : ∀ u call, Function.update c.proc t p' u = .recorded call false →
      (s'.usage.committed call.key).isSome := by
    intro u call hu
    have hstored : (c.shared.usage.committed call.key).isSome := by
      by_cases hut : u = t
      · subst hut
        rw [Function.update_self] at hu
        subst hu
        rcases recorded_of_exec hexec with hold | ⟨x, -, hfresh⟩ | ⟨hproc, -, hview⟩
        · exact hl.duplicate hold
        · cases hfresh
        · have hclean := hF u
          rw [hproc] at hclean
          rwa [hclean.usage.view] at hview
      · rw [Function.update_of_ne hut] at hu
        exact hl.duplicate hu
    obtain ⟨ev, hev⟩ := Option.isSome_iff_exists.mp hstored
    rw [(grows_of_exec (hF t) hexec).usage _ ev hev]
    rfl
  rcases usage_of_exec (hF t) hexec with ⟨hsame, htrue⟩ | ⟨call, x, rfl, hproc, hnew⟩
  · refine hl.of_same hsame (fun u call => ?_) hfalse
    by_cases hut : u = t
    · subst hut
      simp only [Function.update_self]
      exact ⟨htrue call, hkept⟩
    · simp only [Function.update_of_ne hut]
  · refine hl.of_new (t := t) hnew (fun u call' => ?_) hfalse
    by_cases hut : u = t
    · subst hut
      simp only [Function.update_self, hproc, reduceCtorEq, false_or, true_and,
        Proc.recorded.injEq, and_true]
      exact eq_comm
    · simp only [Function.update_of_ne hut, hut, false_and, or_false]

/-- **The events are those of the calls that have returned `True`**, along every run. -/
theorem ledger_of_run {ok : Config T (Store T) Proc → T → Act → Prop}
    (h : program.Run ok init c) : Ledger c := by
  induction h with
  | refl => exact ⟨fun hp => (nomatch hp), fun hk => (nomatch hk), fun hp => (nomatch hp),
      fun hp => (nomatch hp)⟩
  | step hrun _ hstep ih => exact ih.step (footprint_of_run footprint_init hrun) hstep

/-- **A call that has not returned `True` has not changed the events.** -/
theorem unchanged_of_trace {ok : Config T (Store T) Proc → T → Act → Prop}
    (h : program.Trace ok init moves c) (hm : m ∈ moves)
    (hc : ∀ call, c.proc m.thread ≠ .recorded call true) :
    m.after.shared.usage.committed = m.before.shared.usage.committed := by
  obtain ⟨hbefore, hstep, hafter⟩ := h.around hm
  obtain ⟨s', p', hexec, hd⟩ := Program.step_eq_some_iff.mp hstep
  rcases usage_of_exec (footprint_of_run footprint_init hbefore _) hexec with
    ⟨hsame, -⟩ | ⟨call, x, rfl, -, -⟩
  · rw [hd]
    exact hsame
  · refine absurd (recorded_of_run hafter ?_) (hc call)
    rw [hd]
    exact Function.update_self _ _ _

/-! ### What a failed `INSERT` leads to -/

/-- A call whose `INSERT` is refused asks for its key, and returns `False` or raises according
to whether it finds it. -/
structure Decided (m : Program.Move T (Store T) Proc Act) : Prop where
  /-- The row violates another constraint. -/
  refused : ∀ {call x env}, m.before.proc m.thread = .insertUsage call x →
    m.action = .stmt env → env.violated = true →
    m.after.proc m.thread = .findDuplicate call
  recorded : ∀ {call env}, m.before.proc m.thread = .findDuplicate call → m.action = .stmt env →
    (m.before.shared.usage.committed call.key).isSome →
    m.after.proc m.thread = .recorded call false
  raised : ∀ {call env}, m.before.proc m.thread = .findDuplicate call → m.action = .stmt env →
    m.before.shared.usage.committed call.key = none → m.after.proc m.thread = .raised

/-- **Every step of a run** decides a key in accordance with the ledger. -/
theorem decided_of_trace {ok : Config T (Store T) Proc → T → Act → Prop}
    (h : program.Trace ok init moves c) (hm : m ∈ moves) : Decided m := by
  obtain ⟨hbefore, hstep, -⟩ := h.around hm
  obtain ⟨s', p', hexec, hd⟩ := Program.step_eq_some_iff.mp hstep
  have hF := footprint_of_run footprint_init hbefore m.thread
  have hafter : m.after.proc m.thread = p' := by
    rw [hd]
    exact Function.update_self _ _ _
  constructor
  · intro call x env hproc haction hviolated
    rw [hproc, haction] at hexec
    have hinsert : insertUsage m.thread env call x m.before.shared = some (s', p') := hexec
    rw [insertUsage, if_pos hviolated] at hinsert
    exact hafter.trans (Prod.mk.inj (Option.some.inj hinsert)).2.symm
  · intro call env hproc haction hfound
    rw [hproc] at hF
    rw [hproc, haction] at hexec
    rw [← hF.usage.view] at hfound
    obtain ⟨-, hp⟩ := Prod.mk.inj (Option.some.inj hexec)
    rw [hafter, ← hp, if_pos hfound]
  · intro call env hproc haction hnone
    rw [hproc] at hF
    rw [hproc, haction] at hexec
    rw [← hF.usage.view] at hnone
    obtain ⟨-, hp⟩ := Prod.mk.inj (Option.some.inj hexec)
    rw [hafter, ← hp, hnone]
    rfl

/-! ### Calls that raise -/

/-- The `INSERT` of the call is refused for another reason than its key. -/
def Violates (call : UsageRecord) (m : Program.Move T (Store T) Proc Act) : Prop :=
  ∃ x env, m.before.proc m.thread = .insertUsage call x ∧ m.action = .stmt env ∧
    env.violated = true

/-- The `INSERT` of the call finds its key in the table. -/
def Duplicates (call : UsageRecord) (m : Program.Move T (Store T) Proc Act) : Prop :=
  ∃ x env, m.before.proc m.thread = .insertUsage call x ∧ m.action = .stmt env ∧
    (m.before.shared.usage.committed call.key).isSome

/-- A call asks for its key after its `INSERT` has been refused. -/
theorem findDuplicate_of_exec (hF : Footprint t s p)
    (h : exec t a s p = some (s', .findDuplicate call)) :
    p = .findDuplicate call ∧ a = .tick ∨ ∃ x env, p = .insertUsage call x ∧ a = .stmt env ∧
      (env.violated = true ∨ (s.usage.committed call.key).isSome) := by
  cases a with
  | tick => exact .inl ⟨(Prod.mk.inj (Option.some.inj h)).2, rfl⟩
  | record _ | close _ _ => cases p <;> cases h
  | fail =>
      rw [exec] at h
      split at h <;> cases h
  | stmt env =>
      cases hstep : step_of_stmt h with
      | @usageViolation _ _ x =>
          refine .inr ⟨x, env, rfl, rfl, ?_⟩
          have hinsert : insertUsage t env call x s = some (_, .findDuplicate call) := h
          by_cases hviolated : env.violated = true
          · exact .inl hviolated
          · rw [insertUsage, if_neg hviolated] at hinsert
            rcases Table.insert_map_cases hinsert with ⟨usage, -, -, hsame⟩ | ⟨hfound, -⟩
            · exact Proc.noConfusion (Prod.mk.inj hsame).2
            · exact .inr (hF.usage.view call.key ▸ hfound)
      | duplicate hnext => rcases hnext with hp | hp <;> cases hp
      | existing hnext => rcases hnext with hp | hp <;> cases hp

/-- The `INSERT` of a key that is in the table is refused. -/
theorem insertUsage_of_committed (hF : Footprint t s (.insertUsage call x))
    (h : insertUsage t env call x s = some (s', p'))
    (hfound : (s.usage.committed call.key).isSome) : p' = .findDuplicate call := by
  rw [insertUsage] at h
  split at h
  · exact (Prod.mk.inj (Option.some.inj h)).2.symm
  · rcases Table.insert_map_cases h with ⟨usage, hnone, -, -⟩ | ⟨-, h⟩
    · rw [hF.usage.view] at hnone
      rw [hnone] at hfound
      cases hfound
    · exact (Prod.mk.inj h).2.symm

theorem committed_isSome_of_exec (hF : Footprint t s p) (h : exec t a s p = some (s', p'))
    (hk : (s.usage.committed k).isSome) : (s'.usage.committed k).isSome := by
  obtain ⟨ev, hev⟩ := Option.isSome_iff_exists.mp hk
  rw [(grows_of_exec hF h).usage k ev hev]
  rfl

/-- **Why a call asks for its key**: its key is in the table, or its row violates another
constraint. -/
theorem asking_of_trace {ok : Config T (Store T) Proc → T → Act → Prop}
    (h : program.Trace ok init moves c) (hc : c.proc t = .findDuplicate call) :
    (c.shared.usage.committed call.key).isSome ∨ ∃ m ∈ moves, m.thread = t ∧ Violates call m := by
  induction h generalizing t with
  | nil => cases hc
  | @snoc moves d e u a hrun hok hstep ih =>
      obtain ⟨s', p', hexec, rfl⟩ := Program.step_eq_some_iff.mp hstep
      have hF := footprint_of_run footprint_init hrun.run u
      have hkept : (d.shared.usage.committed call.key).isSome →
          (s'.usage.committed call.key).isSome := committed_isSome_of_exec hF hexec
      have hold : d.proc t = .findDuplicate call → (s'.usage.committed call.key).isSome ∨
          ∃ m ∈ moves ++ [⟨d, u, a, ⟨s', Function.update d.proc u p'⟩⟩],
            m.thread = t ∧ Violates call m := fun hd =>
        (ih hd).imp hkept fun ⟨m, hm, hviolates⟩ => ⟨m, List.mem_append_left _ hm, hviolates⟩
      by_cases hut : t = u
      · subst hut
        simp only [Function.update_self] at hc
        subst hc
        rcases findDuplicate_of_exec hF hexec with ⟨hd, -⟩ | ⟨x, env, hd, rfl, hwhy⟩
        · exact hold hd
        · exact hwhy.symm.imp hkept fun hviolated =>
            ⟨_, List.mem_append_right _ (List.mem_singleton_self _), rfl, x, env, hd, rfl,
              hviolated⟩
      · simp only [Function.update_of_ne hut] at hc
        exact hold hc

/-- The call that a request is about. -/
def Proc.recordOf : Proc → Option UsageRecord
  | .insertUsage call _ | .usageCommit call _ | .findDuplicate call | .recorded call _ => some call
  | _ => none

/-- **Why a call raises**: a statement of it fails, or its `INSERT` has been refused for another
reason than its key, and the key is not in the table when it asks. -/
theorem raised_of_trace {ok : Config T (Store T) Proc → T → Act → Prop}
    {earlier later : List (Program.Move T (Store T) Proc Act)}
    (h : program.Trace ok init moves c) (hmoves : moves = earlier ++ m :: later)
    (hcall : (m.before.proc m.thread).recordOf = some call)
    (hraised : m.after.proc m.thread = .raised) :
    m.action = .fail ∨ m.before.shared.usage.committed call.key = none ∧
      ∃ m' ∈ earlier, m'.thread = m.thread ∧ Violates call m' := by
  obtain ⟨hbefore, hstep⟩ := h.split hmoves
  have hm : m ∈ moves := hmoves ▸ List.mem_append_right _ List.mem_cons_self
  obtain ⟨s', p', hexec, hd⟩ := Program.step_eq_some_iff.mp hstep
  have hafter : m.after.proc m.thread = p' := by
    rw [hd]
    exact Function.update_self _ _ _
  obtain rfl := hafter.symm.trans hraised
  cases haction : m.action with
  | fail => exact .inl rfl
  | tick =>
      rw [haction] at hexec
      rw [(Prod.mk.inj (Option.some.inj hexec)).2] at hcall
      cases hcall
  | record _ | close _ _ =>
      rw [haction] at hexec
      cases hproc : m.before.proc m.thread <;> rw [hproc] at hexec <;> cases hexec
  | stmt env =>
      rw [haction] at hexec
      generalize hproc : m.before.proc m.thread = p at hexec hcall
      cases step_of_stmt hexec with
      | @duplicate _ call' _ hnext =>
          have heq : call' = call := Option.some.inj hcall
          rw [heq] at hproc
          have hnone : m.before.shared.usage.committed call.key = none := by
            by_contra hfound
            have hrecorded := (decided_of_trace h hm).recorded hproc haction
              (Option.isSome_iff_ne_none.mpr hfound)
            rw [hraised] at hrecorded
            cases hrecorded
          refine .inr ⟨hnone, (asking_of_trace hbefore hproc).resolve_left ?_⟩
          rw [hnone]
          exact Bool.false_ne_true
      | existing => cases hcall

/-- **A duplicate returns `False`.** A call that finds its key in the table returns `False`,
unless a statement of it fails. -/
theorem duplicate_of_trace {ok : Config T (Store T) Proc → T → Act → Prop}
    (h : program.Trace ok init moves c) (hm : m ∈ moves) (hduplicates : Duplicates call m) :
    (c.proc m.thread = .findDuplicate call ∨ c.proc m.thread = .recorded call false) ∨
      ∃ m' ∈ moves, m'.thread = m.thread ∧ m'.action = .fail := by
  -- The key is in the table from then on.
  suffices hall : ((c.proc m.thread = .findDuplicate call ∧
      (c.shared.usage.committed call.key).isSome) ∨ c.proc m.thread = .recorded call false) ∨
      ∃ m' ∈ moves, m'.thread = m.thread ∧ m'.action = .fail from
    hall.imp_left (Or.imp_left And.left)
  induction h with
  | nil => cases hm
  | @snoc moves d e u a hrun hok hstep ih =>
      obtain ⟨s', p', hexec, hd⟩ := Program.step_eq_some_iff.mp hstep
      have hF := footprint_of_run footprint_init hrun.run u
      have hafter : e.proc u = p' := by
        rw [hd]
        exact Function.update_self _ _ _
      have hkept : (d.shared.usage.committed call.key).isSome →
          (e.shared.usage.committed call.key).isSome := fun hk => by
        rw [hd]
        exact committed_isSome_of_exec hF hexec hk
      rcases List.mem_append.mp hm with hold | hlast
      · rcases ih hold with hproc | ⟨m', hm', hfails⟩
        · by_cases hut : m.thread = u
          · subst hut
            rw [hafter]
            cases a with
            | fail =>
                exact .inr ⟨_, List.mem_append_right _ (List.mem_singleton_self _), rfl, rfl⟩
            | tick =>
                rw [← (Prod.mk.inj (Option.some.inj hexec)).2]
                exact .inl (hproc.imp_left (And.imp_right hkept))
            | record _ | close _ _ =>
                rcases hproc with ⟨hproc, -⟩ | hproc <;> rw [hproc] at hexec <;> cases hexec
            | stmt env =>
                rcases hproc with ⟨hproc, hk⟩ | hproc
                · rw [hproc] at hexec hF
                  obtain ⟨-, hp⟩ := Prod.mk.inj (Option.some.inj hexec)
                  rw [← hF.usage.view] at hk
                  rw [← hp, if_pos hk]
                  exact .inl (.inr rfl)
                · rw [hproc] at hexec
                  cases hexec
          · have hsame : e.proc m.thread = d.proc m.thread := Program.proc_of_step_ne hstep hut
            rw [hsame]
            exact .inl (hproc.imp_left (And.imp_right hkept))
        · exact .inr ⟨m', List.mem_append_left _ hm', hfails⟩
      · -- The `INSERT` is refused.
        obtain rfl := List.mem_singleton.mp hlast
        obtain ⟨x, env, hproc, haction, hfound⟩ := hduplicates
        simp only at hproc haction hfound
        rw [hproc] at hF hexec
        rw [haction] at hexec
        exact .inl (.inl ⟨hafter.trans (insertUsage_of_committed hF hexec hfound), hkept hfound⟩)

/-! ### Calls that agree -/

/-- Each key is always sent with the same meter and quantity. -/
def Consistent (sent : Uuid × String → String × ℤ) (_ : Config T (Store T) Proc) (_ : T)
    (a : Act) : Prop :=
  match a with
  | .record call => (call.meter, call.quantity) = sent call.key
  | _ => True

instance (sent : Uuid × String → String × ℤ) (c : Config T (Store T) Proc) (t : T) (a : Act) :
    Decidable (Consistent sent c t a) :=
  decidable_of_bool
    (match a with
      | .record call => (call.meter, call.quantity) = sent call.key
      | _ => true)
    (by unfold Consistent; split <;> simp)

/-- A request stays with its call. -/
theorem call_of_exec (h : exec t a s p = some (s', p')) (hcall : p'.recordOf = some call) :
    p.recordOf = some call ∨ a = .record call := by
  cases step_of_exec h with
  | tick | insertUsage | usageViolation | usageCommit => exact .inl hcall
  | record => exact .inr (congrArg Act.record (Option.some.inj hcall))
  | duplicate hnext =>
      rcases hnext with rfl | rfl
      · exact .inl hcall
      · cases hcall
  | existing hnext => rcases hnext with rfl | rfl <;> cases hcall
  | _ => cases hcall

/-- The call of a request is one that the sender makes under its key. -/
theorem call_of_run (h : program.Run (Consistent sent) init c)
    (hcall : (c.proc t).recordOf = some call) : (call.meter, call.quantity) = sent call.key := by
  induction h generalizing t with
  | refl => cases hcall
  | @step d e u a hrun hok hstep ih =>
      obtain ⟨s', p', hexec, rfl⟩ := Program.step_eq_some_iff.mp hstep
      by_cases hut : t = u
      · subst hut
        simp only [Function.update_self] at hcall
        rcases call_of_exec hexec hcall with hold | rfl
        · exact ih hold
        · exact hok
      · simp only [Function.update_of_ne hut] at hcall
        exact ih hcall

/-- The sum of the quantities that have been sent with the keys, if any of them is for the
meter. -/
def sumOf (sent : Uuid × String → String × ℤ) (keys : Finset (Uuid × String)) (meter : String) :
    Option ℤ :=
  if keys.filter (fun k => (sent k).1 = meter) = ∅ then none
  else some (∑ k ∈ keys.filter fun k => (sent k).1 = meter, (sent k).2)

omit [DecidableEq T] in
/-- Totals over events that are as they were sent. -/
theorem totals_eq_sumOf {rows : Uuid × String → Option UsageEvent}
    {keys : Finset (Uuid × String)}
    (h : ∀ k ∈ keys, ∃ ev, rows k = some ev ∧ (ev.meter, ev.quantity) = sent k) (meter : String) :
    totals rows keys meter = sumOf sent keys meter := by
  have hgroup : (keys.filter fun k => (rows k).any fun e => e.meter = meter) =
      keys.filter fun k => (sent k).1 = meter := by
    refine Finset.filter_congr fun k hk => ?_
    obtain ⟨ev, hev, hsent⟩ := h k hk
    simp [hev, ← hsent]
  rw [totals, hgroup, sumOf]
  congr 2
  refine Finset.sum_congr rfl fun k hk => ?_
  obtain ⟨ev, hev, hsent⟩ := h k (Finset.mem_filter.mp hk).1
  rw [hev, ← hsent]
  rfl

/-- The key belongs to a call that has returned `True`. -/
def Recorded (c : Config T (Store T) Proc) (k : Uuid × String) : Prop :=
  ∃ t call, c.proc t = .recorded call true ∧ call.key = k

/-- **The sums of a window** that contains all events of the organisation. -/
theorem usage_of_window (h : program.Run (Consistent sent) init c) (hclean : Clean t c.shared)
    (hwindow : ∀ k ev, c.shared.usage.committed k = some ev → k.1 = org →
      Within start stop ev.created_at) :
    ∃ keys : Finset (Uuid × String), (∀ k, k ∈ keys ↔ k.1 = org ∧ Recorded c k) ∧
      ∀ meter, usage_for_period c.shared t org start stop meter = sumOf sent keys meter := by
  have hl := ledger_of_run h
  refine ⟨c.shared.eventsOf t org start stop, fun k => ?_, fun meter => ?_⟩
  · rw [mem_eventsOf hclean, Store.Falls]
    constructor
    · rintro ⟨horg, ev, hev, -⟩
      obtain ⟨u, call, x, hu, hkey, -⟩ := hl.of_call hev
      exact ⟨horg, u, call, hu, hkey⟩
    · rintro ⟨horg, u, call, hu, rfl⟩
      obtain ⟨x, hx⟩ := hl.stored hu
      exact ⟨horg, _, hx, hwindow _ _ hx horg⟩
  · refine totals_eq_sumOf (fun k hk => ?_) meter
    obtain ⟨-, ev, hev, -⟩ := (mem_eventsOf hclean).mp hk
    obtain ⟨u, call, x, hu, rfl, rfl⟩ := hl.of_call hev
    exact ⟨_, (hclean.usage.view _).trans hev, call_of_run (t := u) h (by rw [hu]; rfl)⟩

/-- **Recorded once.** In every run in which each key is always sent with the same meter and
quantity: of the calls of a key that have returned exactly one has returned `True`; a window
that contains the events of an organisation has the sums over the distinct keys; a call that has
not returned `True` has not changed the events; one whose `INSERT` is refused returns `False` if
its key has been recorded by the time of its second query, and raises if not. A call raises only
so, after its `INSERT` has been refused for another reason than its key, or because a statement
of it fails; and one that finds its key in the table returns `False`, unless a statement of it
fails. -/
theorem usage_recorded_once (h : program.Trace (Consistent sent) init moves c) :
    (∀ k, (∃ t call fresh, c.proc t = .recorded call fresh ∧ call.key = k) →
      ∃! t, ∃ call, c.proc t = .recorded call true ∧ call.key = k) ∧
    (∀ t org start stop, Clean t c.shared →
      (∀ k ev, c.shared.usage.committed k = some ev → k.1 = org →
        Within start stop ev.created_at) →
      ∃ keys : Finset (Uuid × String), (∀ k, k ∈ keys ↔ k.1 = org ∧ Recorded c k) ∧
        ∀ meter, usage_for_period c.shared t org start stop meter = sumOf sent keys meter) ∧
    (∀ t, (∀ call, c.proc t ≠ .recorded call true) → ∀ m ∈ moves, m.thread = t →
      m.after.shared.usage.committed = m.before.shared.usage.committed) ∧
    (∀ m ∈ moves, Decided m) ∧
    (∀ earlier m later call, moves = earlier ++ m :: later →
      (m.before.proc m.thread).recordOf = some call → m.after.proc m.thread = .raised →
      m.action = .fail ∨ m.before.shared.usage.committed call.key = none ∧
        ∃ m' ∈ earlier, m'.thread = m.thread ∧ Violates call m') ∧
    ∀ m ∈ moves, ∀ call, Duplicates call m →
      (c.proc m.thread = .findDuplicate call ∨ c.proc m.thread = .recorded call false) ∨
        ∃ m' ∈ moves, m'.thread = m.thread ∧ m'.action = .fail := by
  have hl := ledger_of_run h.run
  refine ⟨?_, fun t org start stop hclean hwindow => usage_of_window h.run hclean hwindow, ?_,
    fun m hm => decided_of_trace h hm,
    fun _ _ _ _ hmoves hcall hraised => raised_of_trace h hmoves hcall hraised,
    fun _ hm _ hduplicates => duplicate_of_trace h hm hduplicates⟩
  · rintro k ⟨t, call, fresh, ht, rfl⟩
    have hstored : (c.shared.usage.committed call.key).isSome := by
      cases fresh with
      | true =>
          obtain ⟨x, hx⟩ := hl.stored ht
          rw [hx]
          rfl
      | false => exact hl.duplicate ht
    obtain ⟨ev, hev⟩ := Option.isSome_iff_exists.mp hstored
    obtain ⟨u, call', x, hu, hkey, -⟩ := hl.of_call hev
    refine ⟨u, ⟨call', hu, hkey⟩, ?_⟩
    rintro v ⟨call'', hv, hkey'⟩
    exact hl.unique hv hu (hkey'.trans hkey.symm)
  · rintro t hc m hm rfl
    exact unchanged_of_trace h hm hc

/-- A call and its retry, whose `INSERT` comes first. -/
def retried : List (Bool × Act) :=
  [(false, .record someUsage), (true, .record someUsage), (true, at_ 0), (true, at_ 0),
    (false, at_ 0), (false, at_ 0)]

set_option maxRecDepth 10000 in
/-- The call has returned `False`, and its retry `True`. -/
theorem usage_recorded_once_retry :
    ∃ r ∈ program.record (Consistent fun _ => (someUsage.meter, someUsage.quantity))
      (init : Config Bool (Store Bool) Proc) retried,
      r.2.proc false = .recorded someUsage false ∧ r.2.proc true = .recorded someUsage true ∧
        (∃! t, ∃ call, r.2.proc t = .recorded call true ∧ call.key = someUsage.key) := by
  obtain ⟨r, hrecord, hfalse, htrue⟩ : ∃ r ∈ program.record
      (Consistent fun _ => (someUsage.meter, someUsage.quantity))
      (init : Config Bool (Store Bool) Proc) retried,
      r.2.proc false = .recorded someUsage false ∧ r.2.proc true = .recorded someUsage true := by
    decide
  refine ⟨r, hrecord, hfalse, htrue, ?_⟩
  exact (usage_recorded_once (Program.trace_of_record hrecord)).1 _
    ⟨false, someUsage, false, hfalse, rfl⟩

set_option maxRecDepth 10000 in
/-- A call whose row violates another constraint, while its key is in nobody's table, and that
returns: its retry has recorded the event in the meantime. -/
theorem failed_but_returns :
    ∃ (moves : List (Program.Move (Fin 2) (Store (Fin 2)) Proc Act))
      (c : Config (Fin 2) (Store (Fin 2)) Proc),
      program.Trace (Consistent fun _ => (someUsage.meter, someUsage.quantity)) init moves c ∧
      (∃ m ∈ moves, m.thread = 0 ∧ m.before.proc 0 = .insertUsage someUsage 0 ∧
        m.action = .stmt ⟨0, true⟩ ∧ m.before.shared.usage.view 0 someUsage.key = none) ∧
      c.proc 0 = .recorded someUsage false := by
  obtain ⟨⟨moves, c⟩, hrecord, hfailed, hreturned⟩ : ∃ r ∈ program.record
      (Consistent fun _ => (someUsage.meter, someUsage.quantity))
      (init : Config (Fin 2) (Store (Fin 2)) Proc)
      [(0, .record someUsage), (0, .stmt ⟨0, true⟩), (1, .record someUsage), (1, at_ 0),
        (1, at_ 0), (0, at_ 0)],
      (∃ m ∈ r.1, m.thread = 0 ∧ m.before.proc 0 = .insertUsage someUsage 0 ∧
        m.action = .stmt ⟨0, true⟩ ∧ m.before.shared.usage.view 0 someUsage.key = none) ∧
        r.2.proc 0 = .recorded someUsage false := by
    decide
  exact ⟨moves, c, Program.trace_of_record hrecord, hfailed, hreturned⟩

end BackendManager.Usage
