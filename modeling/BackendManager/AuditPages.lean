import BackendManager.OffsetPages
import BackendManager.Organizations

/-!
# Reading the Audit Log

The model of `list_audit_logs` in `app/audit/router.py` with its guards, of the schemas and the
columns that it reads, and of `record` as any transaction of the service calls it. Requests are cut
at every statement, so that entries are committed between the `SELECT` of the membership, the
`SELECT` that counts and the `SELECT` that lists, and between one page and the next.

## Statement convention

* A parameter of the query has been parsed to an integer, or is not given.
* The rest of the service writes as it likes: any transaction records entries, with any time as its
  `created_at`, and changes memberships.
* `ORDER BY created_at DESC` lists entries of the same time in any order, and in another one the
  next time. The environment gives the listing; the statement is enabled if the database could have
  answered so.
* A unique violation of `record` ends its transaction, as does `Act.fail` that of any request.
* Row-level security is left out. With `include_rls` it takes nothing from a request whose path has
  the hyphenated spelling of the organisation's id; on another spelling no tenant is set, and the
  log looks empty (see `TenantContext`).

## Main results

* `page_of_admin`: who reads a page, and what is on it.
* `no_entry_missed`: a client that reads page after page until one is not full has seen every entry
  that was there at the first page and has a `created_at` of its own.
* `tied_entry_missed`: of two entries with the same `created_at` one may be missed.
-/

namespace BackendManager.Audit

open ReadCommitted Interleaving OffsetPages
open Organizations (AuditLog Membership HTTPException Features ADMIN get_current_membership
  require_role)

/-! ### Rows and pages -/

/-- A row of `audit_logs`. -/
structure Entry extends AuditLog where
  id : Uuid
  created_at : ℕ
deriving DecidableEq

/-- `AuditLogRead`. -/
structure AuditLogRead where
  id : Uuid
  organization_id : Option Uuid
  actor : Option String
  action : String
  target : Option String
  metadata : Option (List (String × String))
  created_at : ℕ
deriving DecidableEq

/-- `AuditLogPage`. -/
structure AuditLogPage where
  items : List AuditLogRead
  total : ℕ
  limit : ℕ
  offset : ℕ
deriving DecidableEq

def _to_read (entry : Entry) : AuditLogRead where
  id := entry.id
  organization_id := entry.organization_id
  actor := entry.actor
  action := entry.action
  target := entry.target
  metadata := entry.metadata
  created_at := entry.created_at

/-! ### The query -/

/-- `Query(default, ge=ge, le=le)`. -/
structure QueryParam where
  name : String
  default : ℕ
  ge : ℕ
  le : ℕ
  default_bounds : ge ≤ default ∧ default ≤ le

/-- The default of the limit is within its bounds. -/
theorem limit_default : 1 ≤ 50 ∧ 50 ≤ 200 := by decide

/-- And so is that of the offset. -/
theorem offset_default : 0 ≤ 0 ∧ 0 ≤ 1000000 := by decide

def limitParam : QueryParam := ⟨"limit", 50, 1, 200, limit_default⟩
def offsetParam : QueryParam := ⟨"offset", 0, 0, 1000000, offset_default⟩

/-- An error of the validation. -/
structure FieldError where
  type : String
  loc : List String
deriving DecidableEq

/-- The value of a parameter. -/
def QueryParam.validate (param : QueryParam) : Option ℤ → Except FieldError ℕ
  | none => .ok param.default
  | some value =>
      if param.le < value then .error ⟨"less_than_equal", ["query", param.name]⟩
      else if value < param.ge then .error ⟨"greater_than_equal", ["query", param.name]⟩
      else .ok value.toNat

/-- A request of the user `user`. -/
structure Request where
  user : Uuid
  org_id : Uuid
  limit : Option ℤ
  offset : Option ℤ
deriving DecidableEq

/-- The validated parameters. -/
structure Window where
  limit : ℕ
  offset : ℕ
  limit_bounds : 1 ≤ limit ∧ limit ≤ 200
  offset_bounds : offset ≤ 1000000
deriving DecidableEq

/-- An error response. -/
inductive Refusal
  | http (e : HTTPException)
  | unprocessable (errors : List FieldError)
deriving DecidableEq

/-- A value that was validated is within the bounds. -/
theorem QueryParam.bounds_of_validate {param : QueryParam} {given : Option ℤ} {value : ℕ}
    (h : param.validate given = .ok value) : param.ge ≤ value ∧ value ≤ param.le := by
  cases given with
  | none =>
      obtain rfl := Except.ok.inj h
      exact param.default_bounds
  | some given =>
      rw [validate] at h
      split at h
      · cases h
      · split at h
        · cases h
        · obtain rfl := Except.ok.inj h
          omega

/-- The parameters of a request, or all their errors. -/
def Request.window (q : Request) : Except Refusal Window :=
  match hlimit : limitParam.validate q.limit, hoffset : offsetParam.validate q.offset with
  | .ok limit, .ok offset =>
      .ok ⟨limit, offset, QueryParam.bounds_of_validate hlimit,
        (QueryParam.bounds_of_validate hoffset).2⟩
  | .error e, .ok _ | .ok _, .error e => .error (.unprocessable [e])
  | .error e, .error e' => .error (.unprocessable [e, e'])

/-! ### State -/

/-- The tables. -/
structure Database (T : Type) where
  memberships : Table T (Uuid × Uuid) Membership
  audit_logs : Table T Uuid Entry

/-- Where a request stands. -/
inductive Proc
  /-- Not started. -/
  | idle
  /-- The `SELECT` of `get_current_membership` is next. -/
  | guard (q : Request)
  /-- The `SELECT` that counts is next. -/
  | count (q : Request) (w : Window)
  /-- The `SELECT` that lists is next. -/
  | list (q : Request) (w : Window) (total : ℕ)
  /-- The request has answered `200`. -/
  | listed (page : AuditLogPage)
  /-- The request has answered with an error. -/
  | refused (e : Refusal)
  /-- A transaction of another request has written. -/
  | written
deriving DecidableEq

/-- One scheduled action. -/
inductive Act
  /-- A request arrives. -/
  | get (q : Request)
  /-- The next statement; a listing is in the order `listing`. -/
  | stmt (listing : List Entry)
  /-- `record`, with the id and the time that the row gets. -/
  | record (id : Uuid) (created_at : ℕ) (row : AuditLog)
  /-- A statement that writes a membership. -/
  | member (org_id user_id : Uuid) (row : Option Membership)
  | commit
  | rollback
  /-- Cancellation, crash or failure of the database. -/
  | fail
deriving DecidableEq

/-! ### Statements -/

variable {T : Type} [DecidableEq T]

namespace Database

def commit (s : Database T) (t : T) : Database T :=
  ⟨s.memberships.commit t, s.audit_logs.commit t⟩

def rollback (s : Database T) (t : T) : Database T :=
  ⟨s.memberships.rollback t, s.audit_logs.rollback t⟩

/-- The tables that `get_current_membership` reads. -/
def tenancy (s : Database T) : Organizations.Database T :=
  { Organizations.Database.empty with memberships := s.memberships }

end Database

/-- `AuditLog.organization_id == org_id`. -/
def scoped_to (org_id : Uuid) (entry : Entry) : Bool := entry.organization_id = some org_id

/-- `order_by(AuditLog.created_at.desc())` can list the entries of the organisation so. -/
structure Lists (t : T) (s : Database T) (org_id : Uuid) (listing : List Entry) : Prop where
  nodup : listing.Nodup
  sorted : listing.Pairwise fun a b => b.created_at ≤ a.created_at
  sound : ∀ entry ∈ listing, scoped_to org_id entry ∧ s.audit_logs.view t entry.id = some entry
  complete : ∀ id ∈ s.audit_logs.keys, ∀ entry ∈ s.audit_logs.view t id,
    scoped_to org_id entry → entry ∈ listing

instance (t : T) (s : Database T) (org_id : Uuid) (listing : List Entry) :
    Decidable (Lists t s org_id listing) :=
  decidable_of_iff
    (listing.Nodup ∧ (listing.Pairwise fun a b => b.created_at ≤ a.created_at) ∧
      (∀ entry ∈ listing, scoped_to org_id entry ∧ s.audit_logs.view t entry.id = some entry) ∧
      ∀ id ∈ s.audit_logs.keys, ∀ entry ∈ s.audit_logs.view t id,
        scoped_to org_id entry → entry ∈ listing)
    ⟨fun h => ⟨h.1, h.2.1, h.2.2.1, h.2.2.2⟩, fun h => ⟨h.1, h.2, h.3, h.4⟩⟩

/-- What `require_role(ADMIN)`, or `get_current_membership` alone, lets through. -/
def membership (F : Features) (t : T) (s : Database T) (q : Request) :
    Except HTTPException Unit :=
  (get_current_membership t s.tenancy q.org_id q.user).bind fun membership =>
    require_role F ADMIN membership.role

/-- The dependencies run before the parameters of the endpoint are validated. -/
def guard (F : Features) (t : T) (s : Database T) (q : Request) : Proc :=
  match membership F t s q, q.window with
  | .error e, _ => .refused (.http e)
  | .ok _, .error e => .refused e
  | .ok _, .ok w => .count q w

/-- The answer. -/
def answer (w : Window) (total : ℕ) (listing : List Entry) : AuditLogPage where
  items := (page w.limit w.offset listing).map _to_read
  total := total
  limit := w.limit
  offset := w.offset

/-- One action. -/
def exec (F : Features) (t : T) : Act → Database T → Proc → Option (Database T × Proc)
  | .get q, s, .idle | .get q, s, .listed _ | .get q, s, .refused _ => some (s, .guard q)
  | .stmt _, s, .guard q => some (s, guard F t s q)
  | .stmt _, s, .count q w =>
      some (s, .list q w (s.audit_logs.scan t (scoped_to q.org_id)).card)
  | .stmt listing, s, .list q w total =>
      if Lists t s q.org_id listing then some (s, .listed (answer w total listing)) else none
  | .record id created_at row, s, .idle | .record id created_at row, s, .written =>
      (s.audit_logs.insert t id ⟨row, id, created_at⟩).map fun
        | .error _ => (s.rollback t, .idle)
        | .ok audit_logs => ({ s with audit_logs }, .written)
  | .member org_id user_id row, s, .idle | .member org_id user_id row, s, .written =>
      (s.memberships.put t (org_id, user_id) row).map fun memberships =>
        ({ s with memberships }, .written)
  | .commit, s, .written => some (s.commit t, .idle)
  | .rollback, s, .written => some (s.rollback t, .idle)
  | .fail, s, _ => some (s.rollback t, .idle)
  | _, _, _ => none

/-- The service. -/
def program (F : Features) : Program T (Database T) Proc Act := ⟨exec F⟩

/-- Nothing is stored and no request has arrived. -/
def start : Config T (Database T) Proc := ⟨⟨.empty, .empty⟩, fun _ => .idle⟩

/-! ### What a statement does -/

/-- The statements of `list_audit_logs`. -/
inductive Reads (F : Features) (t : T) (s : Database T) : Proc → Proc → Prop
  | get {p : Proc} {q : Request} (hp : p ≠ .written) : Reads F t s p (.guard q)
  | guard {q : Request} : Reads F t s (.guard q) (guard F t s q)
  | count {q : Request} {w : Window} :
      Reads F t s (.count q w) (.list q w (s.audit_logs.scan t (scoped_to q.org_id)).card)
  | list {q : Request} {w : Window} {total : ℕ} {listing : List Entry}
      (h : Lists t s q.org_id listing) :
      Reads F t s (.list q w total) (.listed (answer w total listing))

/-- A step reads, or it writes one row, or it ends the transaction. -/
inductive Effect (F : Features) (t : T) (s : Database T) (p : Proc) (s' : Database T)
    (p' : Proc) : Prop
  | reads (h : s' = s) (hp : Reads F t s p p')
  | member (h : s'.audit_logs = s.audit_logs)
      (hu : ∀ u, u ≠ t → s'.memberships.written u = s.memberships.written u) (hp' : p' = .written)
  | record {id : Uuid} {created_at : ℕ} {row : AuditLog} (hm : s'.memberships = s.memberships)
      (h : s.audit_logs.insert t id ⟨row, id, created_at⟩ = some (.ok s'.audit_logs))
      (hp' : p' = .written)
  | commit (h : s' = s.commit t) (hp' : p' = .idle)
  | rollback (h : s' = s.rollback t) (hp' : p' = .idle)

variable {F : Features} {c d e : Config T (Database T) Proc} {s s' : Database T} {p p' : Proc}
  {t u : T} {a : Act} {q : Request} {w : Window} {total : ℕ} {org_id : Uuid} {entry : Entry}
  {listing : List Entry} {result : AuditLogPage}

/-- A statement that reads does not end as one that has written. -/
theorem Reads.ne_written (h : Reads F t s p p') : p ≠ .written := by
  cases h with
  | get hp => exact hp
  | guard | count | list => simp

/-- The recording of an entry, granted its id or not, is a step of `Effect`. -/
theorem effect_of_record {id : Uuid} {created_at : ℕ} {row : AuditLog}
    (h : ((s.audit_logs.insert t id ⟨row, id, created_at⟩).map fun
      | .error _ => (s.rollback t, Proc.idle)
      | .ok audit_logs => ({ s with audit_logs }, Proc.written)) = some (s', p')) :
    Effect F t s p s' p' := by
  obtain ⟨audit_logs, hview, hput, hs⟩ | ⟨-, hs⟩ := Table.insert_map_cases h
  · obtain ⟨rfl, rfl⟩ := Prod.mk.inj hs
    exact .record rfl (Table.insert_eq_ok_iff.mpr ⟨hview, hput⟩) rfl
  · obtain ⟨rfl, rfl⟩ := Prod.mk.inj hs
    exact .rollback rfl rfl

/-- And so is the change of a membership. -/
theorem effect_of_member {user_id : Uuid} {row : Option Membership}
    (h : ((s.memberships.put t (org_id, user_id) row).map fun memberships =>
      ({ s with memberships }, Proc.written)) = some (s', p')) :
    Effect F t s p s' p' := by
  obtain ⟨memberships, hput, hs⟩ := Option.map_eq_some_iff.mp h
  obtain ⟨rfl, rfl⟩ := Prod.mk.inj hs
  exact .member rfl (fun u hu => Table.written_put_ne hput hu) rfl

/-- **What a step can do.** -/
theorem effect (h : exec F t a s p = some (s', p')) : Effect F t s p s' p' := by
  cases a with
  | get q =>
      cases p with
      | idle | listed _ | refused _ =>
          obtain ⟨rfl, rfl⟩ := Prod.mk.inj (Option.some.inj h)
          exact .reads rfl (.get (by simp))
      | _ => cases h
  | stmt listing =>
      cases p with
      | guard q =>
          obtain ⟨rfl, rfl⟩ := Prod.mk.inj (Option.some.inj h)
          exact .reads rfl .guard
      | count q w =>
          obtain ⟨rfl, rfl⟩ := Prod.mk.inj (Option.some.inj h)
          exact .reads rfl .count
      | list q w total =>
          obtain ⟨hlists, h⟩ := Option.ite_none_right_eq_some.mp h
          obtain ⟨rfl, rfl⟩ := Prod.mk.inj (Option.some.inj h)
          exact .reads rfl (.list hlists)
      | _ => cases h
  | record id created_at row =>
      cases p with
      | idle | written => exact effect_of_record h
      | _ => cases h
  | member org_id user_id row =>
      cases p with
      | idle | written => exact effect_of_member h
      | _ => cases h
  | commit =>
      cases p with
      | written =>
          obtain ⟨rfl, rfl⟩ := Prod.mk.inj (Option.some.inj h)
          exact .commit rfl rfl
      | _ => cases h
  | rollback =>
      cases p with
      | written =>
          obtain ⟨rfl, rfl⟩ := Prod.mk.inj (Option.some.inj h)
          exact .rollback rfl rfl
      | _ => cases h
  | fail =>
      have hfail : (s.rollback t, Proc.idle) = (s', p') := by
        cases p <;> exact Option.some.inj h
      obtain ⟨rfl, rfl⟩ := Prod.mk.inj hfail
      exact .rollback rfl rfl

/-! ### The invariant -/

/-- The committed entries of the organisation. -/
def entries (s : Database T) (org_id : Uuid) : Finset Uuid :=
  s.audit_logs.keys.filter fun id => (s.audit_logs.committed id).any (scoped_to org_id)

/-- Entries are added under their ids, and stay. -/
structure Log (s : Database T) : Prop where
  insertOnly : s.audit_logs.InsertOnly
  ids : s.audit_logs.Every fun id entry => entry.id = id

/-- A request that reads has written nothing, and has counted entries that are still there. -/
structure Reading (t : T) (s : Database T) (p : Proc) : Prop where
  audit_logs : p ≠ .written → s.audit_logs.Untouched t
  memberships : p ≠ .written → s.memberships.Untouched t
  counted : ∀ q w total, p = .list q w total → total ≤ (entries s q.org_id).card

/-- Everything that is committed stays. -/
def Keeps (s s' : Database T) : Prop :=
  ∀ id entry, s.audit_logs.committed id = some entry → s'.audit_logs.committed id = some entry

/-- **One step** keeps every committed entry: no statement rewrites one. -/
theorem Effect.keeps (h : Effect F t s p s' p') (hs : Log s) : Keeps s s' := by
  intro id entry hid
  cases h with
  | reads h => exact h ▸ hid
  | member h => rwa [h]
  | record _ h => rwa [Table.committed_put (Table.insert_eq_ok_iff.mp h).2]
  | commit h => exact h ▸ hs.insertOnly.committed_commit hid t
  | rollback h =>
      rw [h]
      exact (Table.committed_rollback _ _ _).trans hid

/-- And it keeps the log one to which entries are added under their own ids. -/
theorem Effect.log (h : Effect F t s p s' p') (hs : Log s) : Log s' := by
  cases h with
  | reads h => exact h ▸ hs
  | member h => exact ⟨h ▸ hs.insertOnly, h ▸ hs.ids⟩
  | record _ h =>
      refine ⟨hs.insertOnly.insert h, hs.ids.put (Table.insert_eq_ok_iff.mp h).2 ?_⟩
      intro entry hentry
      exact Option.some.inj hentry ▸ rfl
  | commit h => exact h ▸ ⟨hs.insertOnly.commit t, hs.ids.commit t⟩
  | rollback h => exact h ▸ ⟨hs.insertOnly.rollback t, hs.ids.rollback t⟩

omit [DecidableEq T] in
/-- The count of an organisation does not decrease. -/
theorem Keeps.card_le (h : Keeps s s') (org_id : Uuid) :
    (entries s org_id).card ≤ (entries s' org_id).card := by
  refine Finset.card_le_card fun id hid => ?_
  obtain ⟨-, hany⟩ := Finset.mem_filter.mp hid
  obtain ⟨entry, hentry, hscoped⟩ := Option.any_eq_true _ _ |>.mp hany
  have hentry' := h id entry hentry
  refine Finset.mem_filter.mpr ⟨s'.audit_logs.mem_keys_of_committed ?_, ?_⟩
  · rw [hentry']
    exact Option.some_ne_none entry
  · rw [hentry']
    exact hscoped

/-- A request that reads goes on having written nothing, and what it has counted is still there. -/
theorem Effect.reading (h : Effect F t s p s' p') (hp : Reading t s p)
    (hcounted : ∀ q w total, p' = .list q w total → total ≤ (entries s' q.org_id).card) :
    Reading t s' p' := by
  cases h with
  | reads h hreads =>
      exact ⟨fun _ => h ▸ hp.audit_logs hreads.ne_written,
        fun _ => h ▸ hp.memberships hreads.ne_written, hcounted⟩
  | member _ _ hp' | record _ _ hp' =>
      exact ⟨fun h => absurd hp' h, fun h => absurd hp' h, hcounted⟩
  | commit h =>
      exact ⟨fun _ => h ▸ s.audit_logs.untouched_commit t,
        fun _ => h ▸ s.memberships.untouched_commit t, hcounted⟩
  | rollback h =>
      exact ⟨fun _ => h ▸ s.audit_logs.untouched_rollback t,
        fun _ => h ▸ s.memberships.untouched_rollback t, hcounted⟩

/-- A statement writes versions of its own transaction. -/
theorem Effect.written (h : Effect F t s p s' p') (hu : u ≠ t) :
    s'.audit_logs.written u = s.audit_logs.written u ∧
      s'.memberships.written u = s.memberships.written u := by
  cases h with
  | reads h => exact h ▸ ⟨rfl, rfl⟩
  | member h hmember => exact ⟨by rw [h], hmember u hu⟩
  | record hm h => exact ⟨Table.written_put_ne (Table.insert_eq_ok_iff.mp h).2 hu, by rw [hm]⟩
  | commit h =>
      exact h ▸ ⟨Table.written_commit_ne s.audit_logs hu, Table.written_commit_ne s.memberships hu⟩
  | rollback h =>
      exact h ▸
        ⟨Table.written_rollback_ne s.audit_logs hu, Table.written_rollback_ne s.memberships hu⟩

/-- All interleavings. -/
abbrev Any : Config T (Database T) Proc → T → Act → Prop := fun _ _ _ => True

/-- What a reader sees of the entries is what is committed. -/
theorem Reading.view (h : Reading t s p) (hp : p ≠ .written) (id : Uuid) :
    s.audit_logs.view t id = s.audit_logs.committed id :=
  (h.audit_logs hp).view id

/-- The `SELECT` that counts. -/
theorem Reading.card_scan (h : Reading t s p) (hp : p ≠ .written) (org_id : Uuid) :
    (s.audit_logs.scan t (scoped_to org_id)).card = (entries s org_id).card := by
  refine congrArg Finset.card (Finset.filter_congr fun id _ => ?_)
  rw [h.view hp]

/-- The guard answers with a refusal, or the membership allows the role and the parameters are
valid. -/
theorem guard_eq (F : Features) (t : T) (s : Database T) (q : Request) :
    (∃ e, guard F t s q = .refused e) ∨
      ∃ w, guard F t s q = .count q w ∧ membership F t s q = .ok () ∧ q.window = .ok w := by
  rw [guard]
  split
  · exact .inl ⟨_, rfl⟩
  · exact .inl ⟨_, rfl⟩
  · rename_i w hmembership hwindow
    exact .inr ⟨w, rfl, hmembership, hwindow⟩

/-- What a request counts is at most what is there when it lists. -/
theorem Effect.counted (h : Effect F t s p s' (.list q w total)) (hp : Reading t s p) :
    total ≤ (entries s' q.org_id).card := by
  generalize hp' : Proc.list q w total = p' at h
  cases h with
  | reads h hreads =>
      cases hreads with
      | get | list => cases hp'
      | @guard q' =>
          obtain ⟨e, hguard⟩ | ⟨w', hguard, -⟩ := guard_eq F t s q'
          · rw [hguard] at hp'
            cases hp'
          · rw [hguard] at hp'
            cases hp'
      | count =>
          obtain ⟨rfl, rfl, rfl⟩ := Proc.list.inj hp'
          exact h ▸ (hp.card_scan (by simp) q.org_id).le
  | member _ _ h | record _ _ h | commit _ h | rollback _ h =>
      rw [h] at hp'
      cases hp'

/-- The two invariants as an outline: a step of one request keeps the assertions of the others,
since they only speak of entries that stay. -/
theorem outline (F : Features) :
    (program F : Program T (Database T) Proc Act).Outline Any Log Reading where
  step {c t a g l} _ hI hL h := by
    have heffect := effect h
    refine ⟨heffect.log hI, heffect.reading (hL t) fun q w total hl => ?_⟩
    subst hl
    exact heffect.counted (hL t)
  frame {c t u a g l} hu _ hI hL h := by
    have heffect := effect h
    obtain ⟨haudit, hmember⟩ := heffect.written hu
    refine ⟨fun hp => ((hL u).audit_logs hp).congr haudit,
      fun hp => ((hL u).memberships hp).congr hmember, fun q w total hl => ?_⟩
    exact ((hL u).counted q w total hl).trans ((heffect.keeps hI).card_le q.org_id)

/-- In every reachable configuration the log is one, and every request reads. -/
theorem invariant_of_run (h : (program F).Run Any start d) :
    Log d.shared ∧ ∀ t : T, Reading t d.shared (d.proc t) :=
  (outline F).run h ⟨Table.insertOnly_empty, Table.every_empty⟩ fun _ =>
    ⟨fun _ => Table.untouched_empty _, fun _ => Table.untouched_empty _, fun _ _ _ h => nomatch h⟩

/-- Along a run every committed entry stays. -/
theorem keeps_of_run (hc : (program F).Run Any start c) (h : (program F).Run Any c d) :
    Keeps c.shared d.shared := by
  induction h with
  | refl => exact fun _ _ h => h
  | step hrun _ hstep ih =>
      obtain ⟨g, l, hexec, rfl⟩ := Program.step_eq_some_iff.mp hstep
      have hlog := (invariant_of_run (hc.trans hrun)).1
      exact fun id entry hid => (effect hexec).keeps hlog id entry (ih id entry hid)

/-! ### Pages -/

/-- A step of a run of the service. -/
abbrev Step (T : Type) := Program.Move T (Database T) Proc Act

variable {moves : List (Step T)} {m : Step T}

/-- The request that a step answers with a page. -/
def served (m : Step T) : Option (Request × AuditLogPage) :=
  match m.before.proc m.thread, m.after.proc m.thread with
  | .list q _ _, .listed result => some (q, result)
  | _, _ => none

omit [DecidableEq T] in
/-- A step that answers with a page is the listing of a request that has counted. -/
theorem served_eq (h : served m = some (q, result)) :
    (∃ w total, m.before.proc m.thread = .list q w total) ∧
      m.after.proc m.thread = .listed result := by
  rw [served] at h
  split at h
  · rename_i q' w total result' hbefore hafter
    obtain ⟨rfl, rfl⟩ := Prod.mk.inj (Option.some.inj h)
    exact ⟨⟨w, total, hbefore⟩, hafter⟩
  · cases h

/-- These are the entries of the organisation, the newest first. -/
structure Listing (s : Database T) (org_id : Uuid) (listing : List Entry) : Prop where
  nodup : listing.Nodup
  sorted : listing.Pairwise fun a b => b.created_at ≤ a.created_at
  mem_iff : ∀ entry, entry ∈ listing ↔
    entry.organization_id = some org_id ∧ s.audit_logs.committed entry.id = some entry

/-- The listing of a reader is one of the committed entries. -/
theorem Lists.to_listing (h : Lists t s org_id listing) (hp : Reading t s p)
    (hne : p ≠ .written) : Listing s org_id listing := by
  refine ⟨h.nodup, h.sorted, fun entry => ⟨fun hmem => ?_, fun ⟨hscoped, hentry⟩ => ?_⟩⟩
  · obtain ⟨hscoped, hview⟩ := h.sound entry hmem
    exact ⟨of_decide_eq_true hscoped, hp.view hne entry.id ▸ hview⟩
  · have hkey : entry.id ∈ s.audit_logs.keys :=
      s.audit_logs.mem_keys_of_committed (hentry ▸ Option.some_ne_none entry)
    exact h.complete entry.id hkey entry ((hp.view hne entry.id).trans hentry)
      (decide_eq_true hscoped)

/-- Its length is the count. -/
theorem Listing.length_eq (h : Listing s org_id listing) (hlog : Log s) :
    listing.length = (entries s org_id).card := by
  have hnodup : (listing.map Entry.id).Nodup := by
    refine h.nodup.map_on fun a ha b hb hid => ?_
    have hcommitted := ((h.mem_iff a).mp ha).2
    rw [hid, ((h.mem_iff b).mp hb).2] at hcommitted
    exact (Option.some.inj hcommitted).symm
  have hlength : (listing.map Entry.id).toFinset.card = listing.length := by
    rw [List.toFinset_card_of_nodup hnodup, List.length_map]
  rw [← hlength]
  congr 1
  ext id
  rw [List.mem_toFinset, List.mem_map, entries, Finset.mem_filter, Option.any_eq_true]
  constructor
  · rintro ⟨entry, hmem, rfl⟩
    obtain ⟨hscoped, hentry⟩ := (h.mem_iff entry).mp hmem
    exact ⟨s.audit_logs.mem_keys_of_committed (hentry ▸ Option.some_ne_none entry),
      entry, hentry, decide_eq_true hscoped⟩
  · rintro ⟨-, entry, hentry, hscoped⟩
    obtain rfl := hlog.ids.committed hentry
    exact ⟨entry, (h.mem_iff entry).mpr ⟨of_decide_eq_true hscoped, hentry⟩, rfl⟩

/-- What a page shows of the log. -/
structure Shows (s : Database T) (q : Request) (result : AuditLogPage) : Prop where
  window : ∃ w, q.window = .ok w ∧ result.limit = w.limit ∧ result.offset = w.offset
  items : ∃ listing, Listing s q.org_id listing ∧ result.total ≤ listing.length ∧
    result.items = (page result.limit result.offset listing).map _to_read

/-- What a request has been admitted for. -/
def Proc.admitted : Proc → Option (Request × Window)
  | .count q w | .list q w _ => some (q, w)
  | _ => none

/-- The dependencies have let the request through at this step. -/
def Admits (F : Features) (m : Step T) (q : Request) : Prop :=
  m.before.proc m.thread = .guard q ∧ membership F m.thread m.before.shared q = .ok ()

/-- A request is admitted at its guard, or has been admitted before. -/
theorem Effect.of_admitted (h : Effect F t s p s' p') (hp' : p'.admitted = some (q, w)) :
    p = .guard q ∧ membership F t s q = .ok () ∧ q.window = .ok w ∨
      p.admitted = some (q, w) := by
  cases h with
  | reads _ hreads =>
      cases hreads with
      | get | list => cases hp'
      | @guard q' =>
          obtain ⟨e, hguard⟩ | ⟨w', hguard, hmembership, hwindow⟩ := guard_eq F t s q'
          · rw [hguard] at hp'
            cases hp'
          · rw [hguard] at hp'
            obtain ⟨rfl, rfl⟩ := Prod.mk.inj (Option.some.inj hp')
            exact .inl ⟨rfl, hmembership, hwindow⟩
      | count => exact .inr hp'
  | member _ _ h | record _ _ h | commit _ h | rollback _ h =>
      rw [h] at hp'
      cases hp'

/-- A request that is past its guard has passed it in an earlier step of its thread, and has been
past it ever since. -/
theorem admits_of_trace (h : (program F).Trace Any start moves d)
    (hp : (d.proc t).admitted = some (q, w)) :
    q.window = .ok w ∧ ∃ earlier guard between, moves = earlier ++ guard :: between ∧
      guard.thread = t ∧ Admits F guard q ∧
      ∀ step ∈ between, (step.before.proc t).admitted = some (q, w) := by
  induction h with
  | nil => cases hp
  | @snoc moves d e u a hrun _ hstep ih =>
      obtain ⟨g, l, hexec, rfl⟩ := Program.step_eq_some_iff.mp hstep
      -- nothing that the step does is about the request's guard
      have hold : (d.proc t).admitted = some (q, w) →
          q.window = .ok w ∧ ∃ earlier guard between,
            moves ++ [⟨d, u, a, ⟨g, Function.update d.proc u l⟩⟩] = earlier ++ guard :: between ∧
            guard.thread = t ∧ Admits F guard q ∧
            ∀ step ∈ between, (step.before.proc t).admitted = some (q, w) := by
        intro hp
        obtain ⟨hwindow, earlier, guard, between, rfl, ht, hadmits, hbetween⟩ := ih hp
        refine ⟨hwindow, earlier, guard, between ++ [⟨d, u, a, ⟨g, Function.update d.proc u l⟩⟩],
          List.append_assoc _ _ _, ht, hadmits, fun step hstep => ?_⟩
        rcases List.mem_append.mp hstep with hstep | hstep
        · exact hbetween step hstep
        · rw [List.mem_singleton.mp hstep]
          exact hp
      change (Function.update d.proc u l t).admitted = some (q, w) at hp
      by_cases htu : t = u
      · subst htu
        rw [Function.update_self] at hp
        obtain ⟨hguard, hmembership, hwindow⟩ | hp := (effect hexec).of_admitted hp
        · exact ⟨hwindow, moves, _, [], rfl, rfl, ⟨hguard, hmembership⟩,
            fun step hstep => absurd hstep List.not_mem_nil⟩
        · exact hold hp
      · rw [Function.update_of_ne htu] at hp
        exact hold hp

/-- What the guard has found is a committed membership. -/
theorem membership_eq_ok (h : membership F t s q = .ok ()) (hp : Reading t s p)
    (hne : p ≠ .written) :
    ∃ row, s.memberships.committed (q.org_id, q.user) = some row ∧
      (F.rbac = true → Organizations.has_role row.role ADMIN = true) := by
  have hview : s.tenancy.memberships.view t (q.org_id, q.user) =
      s.memberships.committed (q.org_id, q.user) := (hp.memberships hne).view _
  cases hrow : s.memberships.committed (q.org_id, q.user) with
  | none =>
      have hguard : get_current_membership t s.tenancy q.org_id q.user =
          .error ⟨404, "Organization not found"⟩ := by
        simp only [get_current_membership, hview, hrow]
      rw [membership, hguard] at h
      cases h
  | some row =>
      have hguard : get_current_membership t s.tenancy q.org_id q.user = .ok row := by
        simp only [get_current_membership, hview, hrow]
      rw [membership, hguard] at h
      change require_role F ADMIN row.role = .ok () at h
      refine ⟨row, rfl, fun hrbac => ?_⟩
      by_contra hrole
      rw [require_role, if_pos ⟨hrbac, by simpa using hrole⟩] at h
      cases h

omit [DecidableEq T] in
/-- Who is answered with a page has been admitted. -/
theorem admitted_of_served (h : served m = some (q, result)) :
    ∃ w, (m.before.proc m.thread).admitted = some (q, w) := by
  obtain ⟨⟨w, total, hlist⟩, -⟩ := served_eq h
  exact ⟨w, by rw [hlist]; rfl⟩

/-- What the step that answers a request has found. -/
theorem shows_of_served (h : (program F).Trace Any start moves d) (hm : m ∈ moves)
    (hserved : served m = some (q, result)) : Shows m.before.shared q result := by
  obtain ⟨⟨w, total, hlist⟩, hlisted⟩ := served_eq hserved
  obtain ⟨earlier, -, htrace⟩ := h.before hm
  obtain ⟨-, hstep, -⟩ := h.around hm
  obtain ⟨hlog, hreading⟩ := invariant_of_run htrace.run
  have hadmitted : (m.before.proc m.thread).admitted = some (q, w) := by
    rw [hlist]
    rfl
  obtain ⟨hwindow, -⟩ := admits_of_trace htrace hadmitted
  obtain ⟨g, l, hexec, hafter⟩ := Program.step_eq_some_iff.mp hstep
  have hl : m.after.proc m.thread = l := by
    rw [hafter]
    exact Function.update_self _ _ _
  obtain rfl := hl.symm.trans hlisted
  have hp := hreading m.thread
  rw [hlist] at hp
  rw [hlist] at hexec
  cases effect hexec with
  | reads _ hreads =>
      cases hreads with
      | list hlists =>
          have hlisting := hlists.to_listing hp (by simp)
          refine ⟨⟨w, hwindow, rfl, rfl⟩, _, hlisting, ?_, rfl⟩
          rw [hlisting.length_eq hlog]
          exact hp.counted q w total rfl
  | member _ _ h | record _ _ h | commit _ h | rollback _ h => cases h

/-- **Who reads a page, and what is on it.** The page shows the log as it is when the request is
answered. The guard has let the request through in an earlier step of the same thread, after
which the thread has done nothing else; and it has found a committed membership, with `rbac` that
of an admin. -/
theorem page_of_admin (h : (program F).Trace Any start moves d) (hm : m ∈ moves)
    (hserved : served m = some (q, result)) :
    Shows m.before.shared q result ∧
      ∃ earlier guard between later w, moves = earlier ++ guard :: between ++ m :: later ∧
        guard.thread = m.thread ∧ Admits F guard q ∧
        (∀ step ∈ between, (step.before.proc m.thread).admitted = some (q, w)) ∧
        ∃ row, guard.before.shared.memberships.committed (q.org_id, q.user) = some row ∧
          (F.rbac = true → Organizations.has_role row.role ADMIN = true) := by
  obtain ⟨w, hadmitted⟩ := admitted_of_served hserved
  obtain ⟨before, later, hmoves⟩ := List.append_of_mem hm
  obtain ⟨htrace, -⟩ := h.split hmoves
  obtain ⟨-, earlier, guard, between, rfl, ht, hadmits, hbetween⟩ :=
    admits_of_trace htrace hadmitted
  have hguard : guard ∈ earlier ++ guard :: between :=
    List.mem_append_right _ List.mem_cons_self
  have hreading := (invariant_of_run (htrace.around hguard).1).2 guard.thread
  rw [hadmits.1] at hreading
  exact ⟨shows_of_served h hm hserved, earlier, guard, between, later, w, hmoves, ht, hadmits,
    hbetween, membership_eq_ok hadmits.2 hreading (by simp)⟩

/-! ### Page after page -/

/-- Requests for one page after the other, in the order of their answers. -/
inductive Walk (org_id : Uuid) (limit : ℕ) : ℕ → List (Step T) → List AuditLogPage → Prop
  | nil (offset : ℕ) : Walk org_id limit offset [] []
  | cons {m : Step T} {q : Request} {result : AuditLogPage} {offset : ℕ} {steps : List (Step T)}
      {results : List AuditLogPage} (hserved : served m = some (q, result))
      (horg : q.org_id = org_id)
      (hlimit : result.limit = limit) (hoffset : result.offset = offset)
      (h : Walk org_id limit (offset + limit) steps results) :
      Walk org_id limit offset (m :: steps) (result :: results)

variable {limit offset : ℕ} {steps : List (Step T)} {results : List AuditLogPage}

/-- The pages are pages of listings. -/
theorem Walk.exists_answers (hwalk : Walk org_id limit offset steps results)
    (h : (program F).Trace Any start moves d) (hsteps : ∀ m ∈ steps, m ∈ moves)
    (hkeeps : steps.Pairwise fun m m' => Keeps m.before.shared m'.before.shared) :
    ∃ answers : List (Answer Entry.created_at), Growing answers ∧
      (∀ answer ∈ answers, ∃ m ∈ steps, Listing m.before.shared org_id answer.listed) ∧
      results.map AuditLogPage.items = (pages limit offset answers).map (List.map _to_read) := by
  induction hwalk with
  | nil => exact ⟨[], .nil, fun answer hanswer => absurd hanswer List.not_mem_nil, rfl⟩
  | @cons m q result offset steps results hserved horg hlimit hoffset hwalk ih =>
      obtain ⟨hkeep, hkeeps⟩ := List.pairwise_cons.mp hkeeps
      obtain ⟨answers, hgrowing, hall, hitems⟩ :=
        ih (fun m hm => hsteps m (List.mem_cons_of_mem _ hm)) hkeeps
      obtain ⟨listing, hlisting, -, hpage⟩ :=
        (shows_of_served h (hsteps m List.mem_cons_self) hserved).items
      rw [horg] at hlisting
      rw [hlimit, hoffset] at hpage
      refine ⟨⟨listing, hlisting.nodup, hlisting.sorted⟩ :: answers,
        List.pairwise_cons.mpr ⟨?_, hgrowing⟩, ?_, ?_⟩
      · intro answer hanswer entry hentry
        obtain ⟨m', hm', hlisting'⟩ := hall answer hanswer
        obtain ⟨hscoped, hcommitted⟩ := (hlisting.mem_iff entry).mp hentry
        exact (hlisting'.mem_iff entry).mpr ⟨hscoped, hkeep m' hm' entry.id entry hcommitted⟩
      · intro answer hanswer
        rcases List.mem_cons.mp hanswer with rfl | hanswer
        · exact ⟨m, List.mem_cons_self, hlisting⟩
        · obtain ⟨m', hm', hlisting'⟩ := hall answer hanswer
          exact ⟨m', List.mem_cons_of_mem _ hm', hlisting'⟩
      · rw [List.map_cons, hitems, hpage]
        rfl

/-- **No entry is missed** by a client that reads page after page until one is not full: what the
organisation's log held at the first page has been shown, if it shares its time with no entry of
the organisation. -/
theorem no_entry_missed {first : Step T} {rest : List (Step T)}
    (h : (program F).Trace Any start moves d) (hsub : (first :: rest).Sublist moves)
    (hwalk : Walk org_id limit 0 (first :: rest) results)
    (hlast : ∀ result ∈ results.getLast?, result.items.length < limit)
    (hentry : first.before.shared.audit_logs.committed entry.id = some entry)
    (horg : entry.organization_id = some org_id)
    (halone : ∀ id other, d.shared.audit_logs.committed id = some other →
      other.organization_id = some org_id → other.created_at = entry.created_at → other = entry) :
    ∃ result ∈ results, _to_read entry ∈ result.items := by
  have hsteps : ∀ m ∈ first :: rest, m ∈ moves := fun m hm => hsub.subset hm
  have hrun : ∀ m ∈ moves, Keeps m.before.shared d.shared := by
    intro m hm
    obtain ⟨hbefore, hstep, hafter⟩ := h.around hm
    exact keeps_of_run hbefore (((Program.Run.refl m.before).step trivial hstep).trans hafter)
  have hkeeps : (first :: rest).Pairwise fun m m' => Keeps m.before.shared m'.before.shared := by
    refine List.Pairwise.sublist hsub (h.pairwise fun m m' hbefore hstep hbetween _ => ?_)
    exact keeps_of_run hbefore (((Program.Run.refl m.before).step trivial hstep).trans hbetween)
  obtain ⟨answers, hgrowing, hall, hitems⟩ := hwalk.exists_answers h hsteps hkeeps
  have hstored : ∀ answer ∈ answers, entry ∈ answer.listed := by
    intro answer hanswer
    obtain ⟨m, hm, hlisting⟩ := hall answer hanswer
    refine (hlisting.mem_iff entry).mpr ⟨horg, ?_⟩
    rcases List.mem_cons.mp hm with rfl | hm
    · exact hentry
    · exact (List.pairwise_cons.mp hkeeps).1 m hm entry.id entry hentry
  have hunique : ∀ answer ∈ answers, Alone Entry.created_at answer.listed entry := by
    intro answer hanswer other hother htime
    obtain ⟨m, hm, hlisting⟩ := hall answer hanswer
    obtain ⟨hother_org, hcommitted⟩ := (hlisting.mem_iff other).mp hother
    have hend := hrun m (hsteps m hm) other.id other hcommitted
    exact halone other.id other hend hother_org htime
  cases answers with
  | nil =>
      cases hwalk with
      | cons => cases hitems
  | cons answer answers =>
      have hshort : ∀ page ∈ (pages limit 0 (answer :: answers)).getLast?,
          page.length < limit := by
        intro page hpage
        have hlasts := congrArg List.getLast? hitems
        rw [List.getLast?_map, List.getLast?_map, Option.mem_def.mp hpage] at hlasts
        obtain ⟨result, hresult, hsame⟩ := Option.map_eq_some_iff.mp hlasts
        have hlength := hlast result hresult
        rwa [hsame, List.length_map] at hlength
      obtain ⟨page, hpage, hmem⟩ := exists_page_of_reads hgrowing
        (hstored answer List.mem_cons_self) hunique (Nat.zero_le _) hshort
      have hshown : page.map _to_read ∈ results.map AuditLogPage.items := by
        rw [hitems]
        exact List.mem_map_of_mem hpage
      obtain ⟨result, hresult, hsame⟩ := List.mem_map.mp hshown
      exact ⟨result, hresult, hsame ▸ List.mem_map_of_mem hmem⟩

/-! ### A small run -/

/-- An entry of organisation 1. -/
def smallEntry (id created_at : ℕ) : Entry :=
  ⟨⟨"a", none, none, some (Uuid.ofNat 1), none⟩, Uuid.ofNat id, created_at⟩

def smallRequest (offset : ℤ) : Request := ⟨Uuid.ofNat 2, Uuid.ofNat 1, some 1, some offset⟩

/-- One page. -/
def smallPage (offset : ℤ) (listing : List Entry) : List (Bool × Act) :=
  (true, .get (smallRequest offset)) :: List.replicate 3 (true, .stmt listing)

/-- One transaction that records. -/
def smallRecord (entry : Entry) : List (Bool × Act) :=
  [(false, .record entry.id entry.created_at entry.toAuditLog), (false, .commit)]

/-- A member records an entry and reads it; another entry is recorded before the next page. -/
def smallSchedule : List (Bool × Act) :=
  [(false, .member (Uuid.ofNat 1) (Uuid.ofNat 2) (some ⟨Uuid.ofNat 3, ADMIN⟩)),
    (false, .commit)] ++
    smallRecord (smallEntry 4 0) ++ smallPage 0 [smallEntry 4 0] ++
    smallRecord (smallEntry 5 1) ++ smallPage 1 [smallEntry 5 1, smallEntry 4 0] ++
    smallPage 2 [smallEntry 5 1, smallEntry 4 0]

def smallFeatures : Features := ⟨true, true, true⟩

/-- What a page of the small run shows. -/
def smallResult (offset : ℕ) (total : ℕ) (entries : List Entry) : AuditLogPage :=
  ⟨entries.map _to_read, total, 1, offset⟩

/-- The small run by evaluation: three pages, the second after another entry has been recorded, and
the third of them empty. -/
theorem small_run : ∃ r ∈ (program smallFeatures).record Any start smallSchedule,
    (r.1.filter fun m => (served m).isSome).map
        (fun m => (served m, m.before.shared.audit_logs.committed (Uuid.ofNat 4))) =
      [(some (smallRequest 0, smallResult 0 1 [smallEntry 4 0]), some (smallEntry 4 0)),
        (some (smallRequest 1, smallResult 1 2 [smallEntry 4 0]), some (smallEntry 4 0)),
        (some (smallRequest 2, smallResult 2 2 []), some (smallEntry 4 0))] ∧
      ∀ id ∈ r.2.shared.audit_logs.keys, ∀ other ∈ r.2.shared.audit_logs.committed id,
        other.created_at = 0 → other = smallEntry 4 0 := by
  decide +kernel

/-- The first page of the small run, and the guard before it. -/
theorem page_of_admin_small :
    ∃ r ∈ (program smallFeatures).record Any start smallSchedule, ∃ m ∈ r.1,
      served m = some (smallRequest 0, smallResult 0 1 [smallEntry 4 0]) ∧
        Shows m.before.shared (smallRequest 0) (smallResult 0 1 [smallEntry 4 0]) ∧
        ∃ guard ∈ r.1, guard.thread = m.thread ∧ ∃ row,
          guard.before.shared.memberships.committed (Uuid.ofNat 1, Uuid.ofNat 2) = some row ∧
            Organizations.has_role row.role ADMIN = true := by
  obtain ⟨r, hrecord, hserved, -⟩ := small_run
  have htrace := Program.trace_of_record hrecord
  obtain ⟨first, rest, hfilter, hfirst, -⟩ := List.map_eq_cons_iff.mp hserved
  have hmem : first ∈ r.1 := by
    have hmem : first ∈ r.1.filter fun m => (served m).isSome := by
      rw [hfilter]
      exact List.mem_cons_self
    exact List.mem_of_mem_filter hmem
  have hpage := (Prod.mk.inj hfirst).1
  obtain ⟨hshows, earlier, guard, between, later, -, hmoves, ht, -, -, row, hrow, hrole⟩ :=
    page_of_admin htrace hmem hpage
  refine ⟨r, hrecord, first, hmem, hpage, hshows, guard, ?_, ht, row, hrow, hrole rfl⟩
  rw [hmoves, List.append_assoc]
  exact List.mem_append_right _ List.mem_cons_self

/-- The pages of the small run, and the entry on one of them. -/
theorem no_entry_missed_small :
    ∃ r ∈ (program smallFeatures).record Any start smallSchedule,
      ∃ first rest results, (first :: rest).Sublist r.1 ∧
        Walk (Uuid.ofNat 1) 1 0 (first :: rest) results ∧
        first.before.shared.audit_logs.committed (Uuid.ofNat 4) = some (smallEntry 4 0) ∧
        results.getLast? = some (smallResult 2 2 []) ∧
        ∃ result ∈ results, _to_read (smallEntry 4 0) ∈ result.items := by
  obtain ⟨⟨moves, d⟩, hrecord, hserved, hend⟩ := small_run
  have htrace := Program.trace_of_record hrecord
  obtain ⟨first, rest, hfilter, hfirst, hserved⟩ := List.map_eq_cons_iff.mp hserved
  obtain ⟨second, rest, rfl, hsecond, hserved⟩ := List.map_eq_cons_iff.mp hserved
  obtain ⟨third, rest, rfl, hthird, hserved⟩ := List.map_eq_cons_iff.mp hserved
  obtain rfl := List.map_eq_nil_iff.mp hserved
  obtain ⟨hfirst, hentry⟩ := Prod.mk.inj hfirst
  have hsub : [first, second, third].Sublist moves := by
    rw [← hfilter]
    exact List.filter_sublist
  have hwalk : Walk (Uuid.ofNat 1) 1 0 [first, second, third] _ :=
    .cons hfirst rfl rfl rfl (.cons (Prod.mk.inj hsecond).1 rfl rfl rfl
      (.cons (Prod.mk.inj hthird).1 rfl rfl rfl (.nil 3)))
  refine ⟨(moves, d), hrecord, first, [second, third], _, hsub, hwalk, hentry, rfl,
    no_entry_missed htrace hsub hwalk ?_ hentry rfl ?_⟩
  · intro result hresult
    obtain rfl := Option.some.inj hresult
    exact Nat.one_pos
  · intro id other hother _ htime
    have hkey := d.shared.audit_logs.mem_keys_of_committed (hother ▸ Option.some_ne_none other)
    exact hend id hkey other hother htime

/-- Two entries of the same time, as a transaction that records both gives them. -/
def tiedSchedule : List (Bool × Act) :=
  [(false, .member (Uuid.ofNat 1) (Uuid.ofNat 2) (some ⟨Uuid.ofNat 3, ADMIN⟩)),
    (false, .commit)] ++
    smallRecord (smallEntry 4 0) ++ smallRecord (smallEntry 5 0) ++
    smallPage 0 [smallEntry 4 0, smallEntry 5 0] ++ smallPage 1 [smallEntry 5 0, smallEntry 4 0] ++
    smallPage 2 [smallEntry 5 0, smallEntry 4 0]

/-- Nothing orders them, so that one of them is listed twice and the other is missed. -/
theorem tied_entry_missed : ∃ r ∈ (program smallFeatures).record Any start tiedSchedule,
    r.1.filterMap served =
      [(smallRequest 0, smallResult 0 2 [smallEntry 4 0]),
        (smallRequest 1, smallResult 1 2 [smallEntry 4 0]),
        (smallRequest 2, smallResult 2 2 [])] := by
  decide +kernel

end BackendManager.Audit
