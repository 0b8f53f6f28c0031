import BackendManager.MemberEvents

/-!
# Which Roles a Caller Can Grant and Remove

With `rbac`, `add_member` requires the role `admin` of its caller and `remove_member` the scope
`members:write`, whatever role is granted or removed. The owner's rank is the only one above
`admin`, so that a caller exceeds its own rank in one case: an admin adds or removes an owner.

The guard reads the membership of the caller at the beginning of the request, and the change is
committed later; the two steps are of one thread, and other requests may change the caller's own
membership in between. The theorem therefore speaks of the role that the guard has read, at a
step of the same request that is before the change.

Without `rbac` a member may do both, and nothing is claimed.

## Main results

* `allowed_of_manager`: the roles that pass the guards, compared with any role.
* `authority_of_trace`: behind the guard of a route there is a membership of its caller.
* `within_rank`: along every run, by whom memberships are created and removed.
-/

namespace BackendManager.Organizations

open ReadCommitted Interleaving

variable {T : Type} [DecidableEq T] {F : Features} {t : T} {s s' : Database T} {p p' : Proc}
  {a : Act} {k : Uuid × Uuid} {role : String} {member : Membership}
  {c d : Config T (Database T) Proc} {m : Program.Move T (Database T) Proc Act}
  {moves : List (Program.Move T (Database T) Proc Act)}

/-! ### Ranks -/

/-- The caller holds at least the role `admin`, and the other role does not rank above the
caller's, unless the caller is an admin and the other role is `owner`. -/
def Allowed (own role : String) : Prop :=
  rank ADMIN ≤ rank own ∧ (rank role ≤ rank own ∨ own = ADMIN ∧ role = OWNER)

/-- The ranked roles; every other string has rank `0`. -/
theorem rank_cases (role : String) :
    role = MEMBER ∧ rank role = 1 ∨ role = ADMIN ∧ rank role = 2 ∨
      role = OWNER ∧ rank role = 3 ∨ rank role = 0 := by
  by_cases hm : role = MEMBER
  · exact .inl ⟨hm, hm ▸ rfl⟩
  by_cases ha : role = ADMIN
  · exact .inr (.inl ⟨ha, ha ▸ rfl⟩)
  by_cases ho : role = OWNER
  · exact .inr (.inr (.inl ⟨ho, ho ▸ rfl⟩))
  · have hnone : ROLE_RANK.lookup role = none := by
      simp [ROLE_RANK, List.lookup_cons, beq_eq_false_iff_ne.mpr hm,
        beq_eq_false_iff_ne.mpr ha, beq_eq_false_iff_ne.mpr ho]
    exact .inr (.inr (.inr (by rw [rank, hnone]; rfl)))

/-- The roles of those who manage members. -/
def Manager (role : String) : Prop :=
  role = ADMIN ∨ role = OWNER

/-- An admin manages members, and so does whoever ranks higher. -/
theorem manager_of_has_role (h : has_role role ADMIN = true) : Manager role := by
  have hrank : 2 ≤ rank role := of_decide_eq_true h
  rcases rank_cases role with ⟨-, hr⟩ | ⟨ha, -⟩ | ⟨ho, -⟩ | hr
  · omega
  · exact .inl ha
  · exact .inr ho
  · omega

/-- The scope for writing members is granted to managers only. -/
theorem manager_of_scope (h : role_grants_scope role "members:write" = true) :
    Manager role := by
  have hmem := of_decide_eq_true h
  by_cases hm : role = MEMBER
  · subst hm
    exact absurd hmem (by decide)
  by_cases ha : role = ADMIN
  · exact .inl ha
  by_cases ho : role = OWNER
  · exact .inr ho
  · simp [SCOPES_BY_ROLE, List.lookup_cons, beq_eq_false_iff_ne.mpr hm,
      beq_eq_false_iff_ne.mpr ha, beq_eq_false_iff_ne.mpr ho] at hmem

/-- A manager's role compared with any role. -/
theorem allowed_of_manager {own : String} (h : Manager own) (role : String) :
    Allowed own role := by
  rcases h with rfl | rfl
  · refine ⟨le_rfl, ?_⟩
    have hadmin : rank ADMIN = 2 := rfl
    rcases rank_cases role with ⟨-, hr⟩ | ⟨-, hr⟩ | ⟨ho, -⟩ | hr
    · exact .inl (by omega)
    · exact .inl (by omega)
    · exact .inr ⟨rfl, ho⟩
    · exact .inl (by omega)
  · have howner : rank OWNER = 3 := rfl
    refine ⟨by decide, .inl ?_⟩
    rcases rank_cases role with ⟨-, hr⟩ | ⟨-, hr⟩ | ⟨-, hr⟩ | hr <;> omega

/-! ### What the guards have found -/

/-- The caller of a member route that has passed its guards, with the organisation. -/
def Proc.authority : Proc → Option (Uuid × Uuid)
  | .flush caller org_id _ _ _ => some (org_id, caller)
  | .commit (.membership caller org_id _ _) _ => some (org_id, caller)
  | .selectTarget caller org_id _ => some (org_id, caller)
  | .deleteTarget caller org_id _ _ => some (org_id, caller)
  | .removeCommit caller org_id _ _ => some (org_id, caller)
  | _ => none

/-- With the roles configured, the guard lets nobody through who ranks too low. -/
theorem has_role_of_require (hF : F.rbac = true) {minimum : String}
    (h : require_role F minimum role = .ok ()) : has_role role minimum = true := by
  rw [require_role] at h
  split at h
  · cases h
  · rename_i hpass
    exact Bool.not_eq_false _ ▸ fun hno => hpass ⟨hF, by rw [hno]; rfl⟩

/-- And nobody whose role does not grant the scope. -/
theorem scope_of_require (hF : F.rbac = true) {scope : String}
    (h : require_scope F scope role = .ok ()) : role_grants_scope role scope = true := by
  rw [require_scope] at h
  split at h
  · cases h
  · rename_i hpass
    exact Bool.not_eq_false _ ▸ fun hno => hpass ⟨hF, by rw [hno]; rfl⟩

/-- A dependency on the caller's membership has passed. -/
theorem passed_of_bind {org_id user : Uuid} {check : String → Except HTTPException Unit}
    {u : Unit}
    (h : ((get_current_membership t s org_id user).bind fun membership =>
      check membership.role) = .ok u) :
    ∃ own, s.memberships.view t (org_id, user) = some own ∧ check own.role = .ok () := by
  rw [get_current_membership] at h
  split at h
  · cases h
  · rename_i membership hview
    exact ⟨membership, hview, h⟩

/-- The caller has a membership whose role lets it pass. -/
theorem authority_of_guard (hF : F.rbac = true) {r : Request}
    (h : (guard F t s r).authority = some k) :
    ∃ own, s.memberships.view t k = some own ∧ Manager own.role := by
  cases r with
  | create_organization user payload => cases h
  | add_member user org_id payload =>
      rw [guard] at h
      split at h
      · rename_i u hok
        obtain rfl := Option.some.inj h
        obtain ⟨own, hview, hcheck⟩ := passed_of_bind hok
        exact ⟨own, hview, manager_of_has_role (has_role_of_require hF hcheck)⟩
      · cases h
  | remove_member user org_id user_id =>
      rw [guard] at h
      split at h
      · rename_i u hok
        obtain rfl := Option.some.inj h
        obtain ⟨own, hview, hcheck⟩ := passed_of_bind hok
        exact ⟨own, hview, manager_of_scope (scope_of_require hF hcheck)⟩
      · cases h

/-- After a flush of `add_member` its caller has acted on the same authority. -/
theorem authority_flushed (F : Features) (caller org_id : Uuid) (payload : MemberAdd)
    (membership : Option Uuid) (event : Option String) :
    (flushed F caller org_id payload membership event).authority = some (org_id, caller) := by
  cases membership with
  | none => rfl
  | some id =>
      rw [flushed]
      split <;> rfl

/-- And so has the caller of `remove_member` after the look-up. -/
theorem authority_selectTarget {caller org_id user_id : Uuid}
    (h : (selectTarget t caller org_id user_id s).authority = some k) :
    k = (org_id, caller) := by
  rw [selectTarget] at h
  split at h
  · cases h
  · exact (Option.some.inj h).symm

/-- A request has its authority from its guard, and keeps it. -/
theorem Step.authority (h : Step F t s a p s' p') (hk : p'.authority = some k) :
    p.authority = some k ∨ ∃ r, p = .guard r ∧ p' = Organizations.guard F t s r := by
  cases h with
  | guard => exact .inr ⟨_, rfl, rfl⟩
  | arrive | raised | conflict | insertOrganization | insertOwner | commit | record
  | recordCommit | removeCommit => cases hk
  | refresh => split at hk <;> cases hk
  | flushMembership | flushEvent => exact .inl ((authority_flushed _ _ _ _ _ _).symm.trans hk)
  | selectTarget => exact .inl (congrArg some (authority_selectTarget hk).symm)
  | delete | deleteNone => exact .inl hk

/-- In this step the guard of a member route reads the membership `own` of its caller, whose
key is `k`. -/
structure Reads (m : Program.Move T (Database T) Proc Act) (k : Uuid × Uuid)
    (own : Membership) : Prop where
  guard : ∃ r, m.before.proc m.thread = .guard r
  own : m.before.shared.memberships.committed k = some own
  passed : (m.after.proc m.thread).authority = some k

/-- **Behind the guard there is a membership of the caller.** It was read by an earlier step
of the same request. -/
theorem authority_of_trace (hF : F.rbac = true) (h : (program F).Trace Any init moves d)
    (hk : (d.proc t).authority = some k) :
    ∃ g ∈ moves, g.thread = t ∧ (program F).Run Any g.after d ∧
      ∃ own, Reads g k own ∧ Manager own.role := by
  induction h with
  | nil => cases hk
  | @snoc moves c d u a hrun _ hstep ih =>
      have hearlier (hbefore : (c.proc t).authority = some k) :
          ∃ g ∈ moves ++ [⟨c, u, a, d⟩], g.thread = t ∧ (program F).Run Any g.after d ∧
            ∃ own, Reads g k own ∧ Manager own.role := by
        obtain ⟨g, hg, hthread, hafter, hown⟩ := ih hbefore
        exact ⟨g, List.mem_append_left _ hg, hthread, hafter.step trivial hstep, hown⟩
      by_cases hu : t = u
      · subst hu
        rcases (step_of_move hstep).authority hk with hbefore | ⟨r, hguard, hnext⟩
        · exact hearlier hbefore
        · have hS := stands_of_run hrun.run t
          obtain ⟨own, hview, hmanager⟩ := authority_of_guard hF (hnext ▸ hk)
          rw [hguard] at hS
          rw [hS.holds.memberships.view] at hview
          exact ⟨_, List.mem_append_right _ (List.mem_singleton_self _), rfl, .refl _, own,
            ⟨⟨r, hguard⟩, hview, hk⟩, hmanager⟩
      · rw [Program.proc_of_step_ne hstep hu] at hk
        exact hearlier hk

/-- The step `m` of a member route is taken for a caller with a membership that allows what it
does to `role`. -/
theorem allowed_of_authority (hF : F.rbac = true) (h : (program F).Trace Any init moves d)
    (hm : m ∈ moves) (hk : (m.before.proc m.thread).authority = some k) (role : String) :
    ∃ g ∈ moves, g.thread = m.thread ∧ (program F).Run Any g.after m.before ∧
      ∃ own, Reads g k own ∧ Allowed own.role role := by
  obtain ⟨earlier, hsub, htrace⟩ := h.before hm
  obtain ⟨g, hg, hthread, hrun, own, hreads, hmanager⟩ := authority_of_trace hF htrace hk
  exact ⟨g, hsub.subset (List.mem_append_left _ hg), hthread, hrun, own, hreads,
    allowed_of_manager hmanager role⟩

/-! ### Memberships that go -/

/-- With this step `remove_member` commits the removal of the membership with the key `k`. -/
def Removes (m : Program.Move T (Database T) Proc Act) (caller : Uuid) (k : Uuid × Uuid)
    (member : Membership) : Prop :=
  m.before.proc m.thread = .removeCommit caller k.1 k.2 (some member) ∧
    m.after.proc m.thread = .removed

/-- A membership that goes is the one that a request has deleted. -/
theorem removes_of_gone (hS : Stands F t c.shared (c.proc t))
    (h : (program F).step c t a = some d)
    (hbefore : c.shared.memberships.committed k = some member)
    (hafter : d.shared.memberships.committed k ≠ some member) :
    ∃ caller, Removes ⟨c, t, a, d⟩ caller k member := by
  have hne : d.shared.memberships.committed k ≠ c.shared.memberships.committed k := by
    rw [hbefore]
    exact hafter
  obtain ⟨hpublishing, hpending⟩ := (step_of_move h).publishing_membership hS hne
  have hreplaced := hS.holds.replaced
  generalize hp : c.proc t = p at hpublishing hpending hreplaced
  generalize hp' : d.proc t = p' at hpublishing
  cases hpublishing with
  | entry => cases hpending
  | change ch event =>
      -- The key of a membership that is inserted was free.
      obtain ⟨-, hnone⟩ := pending_membership ch event
      rw [hreplaced _ _ hpending, hnone] at hbefore
      cases hbefore
  | removal caller org_id user_id deleted =>
      cases deleted with
      | none => cases hpending
      | some row =>
          rw [hreplaced _ _ hpending] at hbefore
          obtain rfl : row = member := Option.some.inj hbefore
          obtain ⟨rfl, -⟩ := Prod.mk.inj (Option.some.inj hpending)
          exact ⟨caller, hp, hp'⟩

/-- **Who creates and removes memberships.** With `rbac`, a membership that appears in a run
is that of the creator of its organisation, or was added by a caller whose own membership in
the organisation the guard has read in an earlier step of the request; a membership that goes
was removed by such a caller. The caller's role is at least `admin`, and the role that is
added or removed does not rank above it, unless an admin adds or removes an owner. -/
theorem within_rank (hF : F.rbac = true) (h : (program F).Trace Any init moves d) :
    (∀ m ∈ moves, ∀ k member, m.before.shared.memberships.committed k ≠ some member →
      m.after.shared.memberships.committed k = some member →
        (∃ user org id payload event, Commits m (.organization user org id payload) event ∧
          k = (org, user) ∧ member = ⟨id, OWNER⟩) ∨
        ∃ caller id payload event, Commits m (.membership caller k.1 id payload) event ∧
          k.2 = payload.user_id ∧ member = ⟨id, payload.role⟩ ∧
          ∃ g ∈ moves, g.thread = m.thread ∧ (program F).Run Any g.after m.before ∧
            ∃ own, Reads g (k.1, caller) own ∧ Allowed own.role member.role) ∧
    ∀ m ∈ moves, ∀ k member, m.before.shared.memberships.committed k = some member →
      m.after.shared.memberships.committed k ≠ some member →
        ∃ caller, Removes m caller k member ∧
          ∃ g ∈ moves, g.thread = m.thread ∧ (program F).Run Any g.after m.before ∧
            ∃ own, Reads g (k.1, caller) own ∧ Allowed own.role member.role := by
  constructor
  · intro m hm k member hbefore hafter
    obtain ⟨hrun, hstep, -⟩ := h.around hm
    obtain ⟨ch, event, hcommits, hrow⟩ :=
      commits_of_new (stands_of_run hrun m.thread) hstep hbefore hafter
    obtain ⟨hk, hmember⟩ := Prod.mk.inj hrow
    cases ch with
    | organization user org id payload =>
        exact .inl ⟨user, org, id, payload, event, hcommits, hk.symm, hmember.symm⟩
    | membership caller org_id id payload =>
        obtain rfl := hk
        exact .inr ⟨caller, id, payload, event, hcommits, rfl, hmember.symm,
          allowed_of_authority hF h hm (by rw [hcommits.1]; rfl) _⟩
  · intro m hm k member hbefore hafter
    obtain ⟨hrun, hstep, -⟩ := h.around hm
    obtain ⟨caller, hremoves⟩ :=
      removes_of_gone (stands_of_run hrun m.thread) hstep hbefore hafter
    exact ⟨caller, hremoves, allowed_of_authority hF h hm (by rw [hremoves.1]; rfl) _⟩

/-! ### An admin adds an owner -/

/-- The user `1` adds the user `2` to the organisation `10` as an admin. -/
def addAdmin (t : T) : List (T × Act) :=
  [(t, .arrive (.add_member (.ofNat 1) (.ofNat 10) ⟨.ofNat 2, "admin", by decide⟩)),
    (t, draw 0), (t, draw 20), (t, draw 0), (t, draw 0)]

/-- The request of the user `2` that adds the user `3` as an owner. -/
def addOwner : Request :=
  .add_member (.ofNat 2) (.ofNat 10) ⟨.ofNat 3, "owner", by decide⟩

/-- A committed membership has appeared in some step. -/
theorem appears_of_trace (h : (program F).Trace Any init moves d)
    (hk : d.shared.memberships.committed k = some member) :
    ∃ m ∈ moves, m.before.shared.memberships.committed k ≠ some member ∧
      m.after.shared.memberships.committed k = some member := by
  induction h with
  | nil => cases hk
  | @snoc moves c d t a _ _ _ ih =>
      by_cases hbefore : c.shared.memberships.committed k = some member
      · obtain ⟨m, hm, happears⟩ := ih hbefore
        exact ⟨m, List.mem_append_left _ hm, happears⟩
      · exact ⟨_, List.mem_append_right _ (List.mem_singleton_self _), hbefore, hk⟩

set_option maxRecDepth 10000 in
/-- The run in which the user `2` is made an admin and then adds an owner: whoever has added
the user `3` had a membership that allows it. -/
theorem within_rank_owner :
    ∃ (moves : List (Program.Move (Fin 3) (Database (Fin 3)) Proc Act))
      (d : Config (Fin 3) (Database (Fin 3)) Proc),
      (program ⟨false, false, true⟩).Trace Any init moves d ∧
        d.shared.memberships.committed (.ofNat 10, .ofNat 3) = some ⟨.ofNat 30, OWNER⟩ ∧
        ∃ m ∈ moves,
          m.before.shared.memberships.committed (.ofNat 10, .ofNat 3) ≠ some ⟨.ofNat 30, OWNER⟩ ∧
          m.after.shared.memberships.committed (.ofNat 10, .ofNat 3) = some ⟨.ofNat 30, OWNER⟩ ∧
          ((∃ user org id payload event, Commits m (.organization user org id payload) event ∧
            (Uuid.ofNat 10, Uuid.ofNat 3) = (org, user)) ∨
          ∃ caller, ∃ g ∈ moves, g.thread = m.thread ∧
            (program ⟨false, false, true⟩).Run Any g.after m.before ∧
            ∃ own, Reads g (.ofNat 10, caller) own ∧ Allowed own.role OWNER) := by
  have hreplay : ((program ⟨false, false, true⟩).replay Any init
      (createAcme (0 : Fin 3) ++ addAdmin 1 ++
        [(2, .arrive addOwner), (2, draw 0), (2, draw 30), (2, draw 0)])).any (fun d =>
          decide (d.shared.memberships.committed (.ofNat 10, .ofNat 3) =
            some ⟨.ofNat 30, OWNER⟩)) = true := by
    decide
  obtain ⟨d, hrun, hp⟩ := Program.exists_run_of_replay hreplay
  have howner := of_decide_eq_true hp
  obtain ⟨moves, htrace⟩ := hrun.exists_trace
  obtain ⟨m, hm, hbefore, hafter⟩ := appears_of_trace htrace howner
  refine ⟨moves, d, htrace, howner, m, hm, hbefore, hafter, ?_⟩
  rcases (within_rank rfl htrace).1 m hm _ _ hbefore hafter with
    ⟨user, org, id, payload, event, hcommits, hk, -⟩ |
    ⟨caller, id, payload, event, -, -, -, g, hg, hthread, hrun, own, hreads, hallowed⟩
  · exact .inl ⟨user, org, id, payload, event, hcommits, hk⟩
  · exact .inr ⟨caller, g, hg, hthread, hrun, own, hreads, hallowed⟩

set_option maxRecDepth 10000 in
/-- The user `2` is an admin when the guard reads its membership, and its request commits the
membership of the user `3`, who is an owner and ranks above it. -/
theorem admin_adds_owner :
    ∃ c d : Config (Fin 3) (Database (Fin 3)) Proc,
      (program ⟨false, false, true⟩).Run Any init c ∧
        (program ⟨false, false, true⟩).Run Any c d ∧ c.proc 2 = .guard addOwner ∧
        c.shared.memberships.committed (.ofNat 10, .ofNat 2) = some ⟨.ofNat 20, ADMIN⟩ ∧
        c.shared.memberships.committed (.ofNat 10, .ofNat 3) = none ∧
        (∃ ch, d.proc 2 = .created ch) ∧
        d.shared.memberships.committed (.ofNat 10, .ofNat 3) = some ⟨.ofNat 30, OWNER⟩ ∧
        rank ADMIN < rank OWNER := by
  have hreplay : ((program ⟨false, false, true⟩).replay Any init
      (createAcme (0 : Fin 3) ++ addAdmin 1 ++ [(2, .arrive addOwner)])).any (fun c =>
        decide (c.proc 2 = .guard addOwner ∧
          c.shared.memberships.committed (.ofNat 10, .ofNat 2) = some ⟨.ofNat 20, ADMIN⟩ ∧
          c.shared.memberships.committed (.ofNat 10, .ofNat 3) = none) &&
        ((program ⟨false, false, true⟩).replay Any c
          [(2, draw 0), (2, draw 30), (2, draw 0), (2, draw 0)]).any (fun d =>
            decide (d.proc 2 = .created (.membership (.ofNat 2) (.ofNat 10) (.ofNat 30)
                ⟨.ofNat 3, "owner", by decide⟩) ∧
              d.shared.memberships.committed (.ofNat 10, .ofNat 3) =
                some ⟨.ofNat 30, OWNER⟩))) = true := by
    decide
  obtain ⟨c, hrun, hp⟩ := Program.exists_run_of_replay hreplay
  obtain ⟨hc, hrest⟩ := (Bool.and_eq_true _ _).mp hp
  obtain ⟨d, hrun', hp'⟩ := Program.exists_run_of_replay hrest
  obtain ⟨hguard, hadmin, hnone⟩ := of_decide_eq_true hc
  obtain ⟨hcreated, howner⟩ := of_decide_eq_true hp'
  exact ⟨c, d, hrun, hrun', hguard, hadmin, hnone, ⟨_, hcreated⟩, howner, by decide⟩

end BackendManager.Organizations
