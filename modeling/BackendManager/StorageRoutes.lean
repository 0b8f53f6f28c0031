import BackendManager.Noninterference
import BackendManager.Organizations
import BackendManager.Storage
import Mathlib.Data.Finset.Sort
import Mathlib.Data.String.Basic

/-!
# The Storage Routes

The model of the organisation routes of `app/storage/router.py` over one bucket that all
organisations share, together with the clients that use the URLs which the routes hand out. A
request is cut between its guard and its operation, so that memberships, objects and the clock
change in between.

## Statement convention

* S3 accepts a presigned URL exactly if the service has signed it and it has not expired. Whoever
  holds a URL may use it; what S3 refuses changes nothing and is left out.
* S3 lists keys in their order as UTF-8 texts, which is the order of strings.
* An operation that fails has either been carried out or not.
* The rest of the service changes memberships as it likes.

## Main results

* `organization_alone`: what an organisation's members and URLs do and get is what they would do and
  get if the bucket were theirs alone.
* `used_of_member`: which request has signed the URL that is used.
* `last_use`: for how long the objects of an organisation without members are accessible.
-/

namespace BackendManager.Storage

open Interleaving
open Organizations (Membership HTTPException)

/-! ### S3 -/

structure Object where
  body : List UInt8
  content_type : Option String
deriving DecidableEq

/-- The objects of the bucket. -/
structure S3 where
  stored : String → Option Object
  keys : Finset String
  mem_keys : ∀ key, key ∈ keys ↔ stored key ≠ none

namespace S3

def put_object (s3 : S3) (key : String) (object : Object) : S3 where
  stored := Function.update s3.stored key (some object)
  keys := insert key s3.keys
  mem_keys k := by
    by_cases h : k = key
    · simp [h]
    · simp [h, s3.mem_keys]

def delete_object (s3 : S3) (key : String) : S3 where
  stored := Function.update s3.stored key none
  keys := s3.keys.erase key
  mem_keys k := by
    by_cases h : k = key
    · simp [h]
    · simp [h, s3.mem_keys]

/-- The bucket as it is listed. -/
def bucket (s3 : S3) : Bucket := ⟨s3.keys.sort (· ≤ ·), s3.keys.sort_nodup (· ≤ ·)⟩

def empty : S3 := ⟨fun _ => none, ∅, fun _ => ⟨fun h => absurd h (Finset.notMem_empty _),
  fun h => absurd rfl h⟩⟩

end S3

inductive Method
  | put_object
  | get_object
deriving DecidableEq

/-- A presigned URL: what its signature covers. -/
structure Presigned where
  method : Method
  key : String
  content_type : Option String
  signed_at : ℕ
  expires_in : ℕ
deriving DecidableEq

/-! ### Requests -/

structure Settings where
  s3_bucket : Option String
  s3_presign_expiry_seconds : ℕ

/-- `_bucket`; `none` is the `RuntimeError`. -/
def _bucket (settings : Settings) : Option String :=
  settings.s3_bucket.filter fun bucket => bucket ≠ ""

structure PresignedUploadRequest where
  key : String
  content_type : Option String
  key_length : 1 ≤ key.length
deriving DecidableEq

inductive Route
  | create_upload_url (payload : PresignedUploadRequest)
  | list_objects
  | create_download_url (key : String)
  | delete_object (key : String)
deriving DecidableEq

/-- A request of the user `user` under `/orgs/{org_id}/storage`. -/
structure Request where
  user : Uuid
  org_id : Uuid
  route : Route
deriving DecidableEq

/-- `PresignedUploadResponse`, `PresignedDownloadResponse`, `ObjectList` and the others. -/
inductive Response
  | presigned (key : String) (url : Presigned) (expires_in : ℕ)
  | objects (keys : List String)
  | no_content
  | refused (e : HTTPException)
  | raised
deriving DecidableEq

/-- Where a thread stands. -/
inductive Proc
  /-- Not started. -/
  | idle
  /-- The dependency `get_current_membership` is next. -/
  | guard (r : Request)
  /-- The operation is next. -/
  | operation (r : Request)
  | answered (r : Request) (response : Response)
  /-- A URL has been used; `object` is what was got. -/
  | used (url : Presigned) (object : Option Object)
  /-- A membership of the organisation has been changed. -/
  | membership (org_id : Uuid)
  /-- A second has passed. -/
  | clock
deriving DecidableEq

/-- How an operation ends. -/
inductive Outcome
  | done
  /-- It fails before anything is done. -/
  | failed
  /-- It is carried out, and the answer is lost. -/
  | lost
deriving DecidableEq

/-- One scheduled action. -/
inductive Act
  | request (r : Request)
  | stmt (outcome : Outcome)
  /-- Somebody uses a URL, with this body and header if it is a `PUT`. -/
  | use (url : Presigned) (body : List UInt8) (content_type : Option String)
  | member (org_id user : Uuid) (row : Option Membership)
  | tick
deriving DecidableEq

/-- The committed memberships, the bucket, and the URLs that have been handed out. -/
structure System where
  now : ℕ
  memberships : List ((Uuid × Uuid) × Membership)
  s3 : S3
  signed : List Presigned

/-! ### Steps -/

/-- The membership of the user in the organisation. -/
def System.membership (s : System) (org_id user : Uuid) : Option Membership :=
  s.memberships.lookup (org_id, user)

/-- Add, change or remove a membership. -/
def System.set_membership (s : System) (org_id user : Uuid) (row : Option Membership) : System :=
  { s with memberships := row.toList.map (fun row => ((org_id, user), row)) ++
      s.memberships.filter fun r => r.1 != (org_id, user) }

/-- The dependency of every route. -/
def get_current_membership (s : System) (org_id user : Uuid) : Except HTTPException Membership :=
  match s.membership org_id user with
  | none => .error ⟨404, "Organization not found"⟩
  | some membership => .ok membership

def guard (s : System) (r : Request) : Proc :=
  match get_current_membership s r.org_id r.user with
  | .error e => .answered r (.refused e)
  | .ok _ => .operation r

/-- `generate_presigned_url`. -/
def sign (settings : Settings) (s : System) (method : Method) (key : String)
    (content_type : Option String) : Presigned :=
  ⟨method, key, content_type, s.now, settings.s3_presign_expiry_seconds⟩

/-- A response with a URL. -/
def System.hand_out (s : System) (key : String) (url : Presigned) : System × Response :=
  ({ s with signed := url :: s.signed }, .presigned key url url.expires_in)

/-- The bodies of the routes. -/
def Route.run (settings : Settings) (s : System) (org_id : Uuid) : Route → System × Response
  | .create_upload_url payload =>
      let stored_key := build_key payload.key (some org_id.str)
      s.hand_out payload.key <| sign settings s .put_object stored_key payload.content_type
  | .list_objects => (s, .objects (Storage.list_objects s.s3.bucket org_id))
  | .create_download_url key =>
      let stored_key := build_key key (some org_id.str)
      s.hand_out key <| sign settings s .get_object stored_key none
  | .delete_object key =>
      ({ s with s3 := s.s3.delete_object <| build_key key (some org_id.str) }, .no_content)

/-- The operation of a request, with how it ends. -/
def operation (settings : Settings) (s : System) (r : Request) (outcome : Outcome) :
    System × Response :=
  match _bucket settings with
  | none => (s, .raised)
  | some _ =>
      match outcome with
      | .done => r.route.run settings s r.org_id
      | .failed => (s, .raised)
      | .lost => ({ s with s3 := (r.route.run settings s r.org_id).1.s3 }, .raised)

/-- S3 accepts the URL. -/
def System.accepts (s : System) (url : Presigned) : Bool :=
  url ∈ s.signed ∧ s.now ≤ url.signed_at + url.expires_in

/-- What S3 does with a request by a URL. -/
def use (s : System) (url : Presigned) (body : List UInt8) (content_type : Option String) :
    System × Option Object :=
  match url.method with
  | .put_object =>
      ({ s with s3 := s.s3.put_object url.key ⟨body, url.content_type.or content_type⟩ }, none)
  | .get_object => (s, s.s3.stored url.key)

/-- One action. -/
def exec (settings : Settings) : Act → System → Proc → Option (System × Proc)
  | .request r, s, .idle => some (s, .guard r)
  | .stmt _, s, .guard r => some (s, guard s r)
  | .stmt outcome, s, .operation r =>
      some ((operation settings s r outcome).map id (.answered r))
  | .use url body content_type, s, .idle =>
      if s.accepts url then some ((use s url body content_type).map id (.used url)) else none
  | .member org_id user row, s, .idle =>
      some (s.set_membership org_id user row, .membership org_id)
  | .tick, s, .idle => some ({ s with now := s.now + 1 }, .clock)
  | _, _, _ => none

def program (T : Type) (settings : Settings) : Program T System Proc Act :=
  ⟨fun _ => exec settings⟩

/-- All interleavings. -/
abbrev Every {T : Type} : Config T System Proc → T → Act → Prop := fun _ _ _ => True

/-- What a step can do. -/
inductive Effect (settings : Settings) (s : System) : Act → Proc → System → Proc → Prop
  | request (r : Request) : Effect settings s (.request r) .idle s (.guard r)
  | guard (r : Request) (outcome : Outcome) :
      Effect settings s (.stmt outcome) (.guard r) s (guard s r)
  | operation (r : Request) (outcome : Outcome) :
      Effect settings s (.stmt outcome) (.operation r) (operation settings s r outcome).1
        (.answered r (operation settings s r outcome).2)
  | use {url : Presigned} (body : List UInt8) (content_type : Option String)
      (h : s.accepts url = true) :
      Effect settings s (.use url body content_type) .idle (use s url body content_type).1
        (.used url (use s url body content_type).2)
  | member (org_id user : Uuid) (row : Option Membership) :
      Effect settings s (.member org_id user row) .idle (s.set_membership org_id user row)
        (.membership org_id)
  | tick : Effect settings s .tick .idle { s with now := s.now + 1 } .clock

variable {T : Type} {settings : Settings} {s s' s₁ s₂ : System} {p p' : Proc} {t : T} {a : Act}
  {org org' : Uuid} {key : String} {url : Presigned} {r : Request} {outcome : Outcome}

/-- What a step can do: `Effect` has one case for each action that the state admits. -/
theorem exec_eq_some_iff :
    exec settings a s p = some (s', p') ↔ Effect settings s a p s' p' := by
  constructor
  · intro h
    cases a with
    | request r =>
        cases p with
        | idle =>
            obtain ⟨rfl, rfl⟩ := Prod.mk.inj (Option.some.inj h)
            exact .request r
        | _ => cases h
    | stmt outcome =>
        cases p with
        | guard r =>
            obtain ⟨rfl, rfl⟩ := Prod.mk.inj (Option.some.inj h)
            exact .guard r outcome
        | operation r =>
            obtain ⟨rfl, rfl⟩ := Prod.mk.inj (Option.some.inj h)
            exact .operation r outcome
        | _ => cases h
    | use url body content_type =>
        cases p with
        | idle =>
            obtain ⟨haccepts, h⟩ := Option.ite_none_right_eq_some.mp h
            obtain ⟨rfl, rfl⟩ := Prod.mk.inj (Option.some.inj h)
            exact .use body content_type haccepts
        | _ => cases h
    | member org_id user row =>
        cases p with
        | idle =>
            obtain ⟨rfl, rfl⟩ := Prod.mk.inj (Option.some.inj h)
            exact .member org_id user row
        | _ => cases h
    | tick =>
        cases p with
        | idle =>
            obtain ⟨rfl, rfl⟩ := Prod.mk.inj (Option.some.inj h)
            exact .tick
        | _ => cases h
  · intro h
    cases h with
    | use body content_type haccepts => exact if_pos haccepts
    | request | guard | operation | member | tick => rfl

/-! ### Namespaces -/

/-- Every key that is built for an organisation starts with that organisation's part. -/
theorem startswith_build_key (key : String) (org : Uuid) :
    startswith (build_key key (some org.str)) (tenantPart org) = true :=
  startswith_iff.mpr ⟨lstrip key, build_key_str key org⟩

/-- A key has one organisation. -/
theorem org_of_startswith (h : startswith key (tenantPart org) = true)
    (h' : startswith key (tenantPart org') = true) : org = org' := by
  obtain ⟨rest, rfl⟩ := startswith_iff.mp h
  obtain ⟨rest', hrest⟩ := startswith_iff.mp h'
  exact org_of_stored hrest

/-- Removing the rows of one key leaves the lookup of every other key as it is. -/
theorem lookup_filter_ne {K V : Type} [BEq K] [LawfulBEq K] (rows : List (K × V)) {key k : K}
    (hk : k ≠ key) : (rows.filter fun r => r.1 != key).lookup k = rows.lookup k := by
  induction rows with
  | nil => rfl
  | cons row rows ih =>
      obtain ⟨j, v⟩ := row
      by_cases hj : j = key
      · subst hj
        rw [List.filter_cons_of_neg (by simp), ih, List.lookup_cons, beq_false_of_ne hk]
      · rw [List.filter_cons_of_pos (by simpa using hj), List.lookup_cons, ih, List.lookup_cons]

/-- After the removal of its rows, a key is not found. -/
theorem lookup_filter_self {K V : Type} [BEq K] [LawfulBEq K] (rows : List (K × V)) (key : K) :
    (rows.filter fun r => r.1 != key).lookup key = none := by
  refine List.lookup_eq_none_iff.mpr fun row hrow => ?_
  obtain ⟨-, hne⟩ := List.mem_filter.mp hrow
  rw [bne_iff_ne] at hne ⊢
  exact hne.symm

/-- What the guard of another request reads after the membership of one user in one organisation
has been set. -/
theorem membership_set_membership (s : System) (org_id user org' user' : Uuid)
    (row : Option Membership) :
    (s.set_membership org_id user row).membership org' user' =
      if org' = org_id ∧ user' = user then row else s.membership org' user' := by
  rw [System.membership, System.set_membership, List.lookup_append]
  by_cases hkey : (org', user') = (org_id, user)
  · obtain ⟨rfl, rfl⟩ := Prod.mk.inj hkey
    rw [lookup_filter_self, if_pos ⟨rfl, rfl⟩]
    cases row with
    | none => rfl
    | some row => simp
  · have hkey' : ¬ (org' = org_id ∧ user' = user) := fun h => hkey (Prod.ext h.1 h.2)
    rw [lookup_filter_ne _ hkey, if_neg hkey']
    cases row with
    | none => rfl
    | some row => simp [List.lookup_cons, beq_false_of_ne hkey, System.membership]

/-- The two systems are the same to an organisation. -/
structure Same (org : Uuid) (s s' : System) : Prop where
  now : s.now = s'.now
  membership : ∀ user, s.membership org user = s'.membership org user
  stored : ∀ key, startswith key (tenantPart org) = true → s.s3.stored key = s'.s3.stored key
  signed : ∀ url : Presigned, startswith url.key (tenantPart org) = true →
    (url ∈ s.signed ↔ url ∈ s'.signed)

/-- An organisation sees no difference between a system and itself. -/
theorem Same.refl (org : Uuid) (s : System) : Same org s s :=
  ⟨rfl, fun _ => rfl, fun _ _ => rfl, fun _ _ => Iff.rfl⟩

/-- Systems that an organisation cannot tell apart, one after the other. -/
theorem Same.trans (h : Same org s s₁) (h' : Same org s₁ s₂) : Same org s s₂ :=
  ⟨h.now.trans h'.now, fun user => (h.membership user).trans (h'.membership user),
    fun key hkey => (h.stored key hkey).trans (h'.stored key hkey),
    fun url hurl => (h.signed url hurl).trans (h'.signed url hurl)⟩

/-- The keys that the store lists for an organisation are those of the objects in its part of the
bucket. -/
theorem mem_under_bucket :
    key ∈ s.s3.bucket.under (tenantPart org) ↔
      s.s3.stored key ≠ none ∧ startswith key (tenantPart org) = true := by
  rw [Bucket.under, List.mem_filter, S3.bucket, Finset.mem_sort, s.s3.mem_keys]

/-- The store lists keys in their order, whatever the order in which the objects were stored. -/
theorem pairwise_under_bucket (s : System) (start : String) :
    (s.s3.bucket.under start).Pairwise (· ≤ ·) :=
  (s.s3.keys.pairwise_sort (· ≤ ·)).sublist List.filter_sublist

/-- The listing of an organisation is made of the keys under its prefix. -/
theorem Same.list_objects (h : Same org s s') :
    list_objects s.s3.bucket org = list_objects s'.s3.bucket org := by
  have hperm : (s.s3.bucket.under (tenantPart org)).Perm (s'.s3.bucket.under (tenantPart org)) := by
    refine (List.perm_ext_iff_of_nodup (nodup_under _ _) (nodup_under _ _)).mpr fun key => ?_
    rw [mem_under_bucket, mem_under_bucket]
    refine and_congr_left fun hkey => ?_
    rw [h.stored key hkey]
  have hunder : s.s3.bucket.under (tenantPart org) = s'.s3.bucket.under (tenantPart org) :=
    hperm.eq_of_pairwise' (pairwise_under_bucket s _) (pairwise_under_bucket s' _)
  rw [Storage.list_objects, Storage.list_objects, list_keys_eq, list_keys_eq]
  change List.map _ ((s.s3.bucket.under (tenantPart org)).take MAX_KEYS) =
    List.map _ ((s'.s3.bucket.under (tenantPart org)).take MAX_KEYS)
  rw [hunder]

/-- A URL of the organisation is accepted in both or in neither. -/
theorem Same.accepts (h : Same org s s') (hurl : startswith url.key (tenantPart org) = true) :
    s.accepts url = s'.accepts url := by
  simp only [System.accepts, h.now, h.signed url hurl]

/-! ### Writes of the organisation itself -/

/-- Storing one object in both systems keeps them the same for the organisation, whoever's key it
is. -/
theorem Same.put_object (h : Same org s s') (key : String) (object : Object) :
    Same org { s with s3 := s.s3.put_object key object }
      { s' with s3 := s'.s3.put_object key object } := by
  refine ⟨h.now, h.membership, fun k hk => ?_, h.signed⟩
  by_cases hkey : k = key
  · simp [S3.put_object, hkey]
  · simpa [S3.put_object, hkey] using h.stored k hk

/-- Deleting one object in both systems keeps them the same for the organisation. -/
theorem Same.delete_object (h : Same org s s') (key : String) :
    Same org { s with s3 := s.s3.delete_object key } { s' with s3 := s'.s3.delete_object key } := by
  refine ⟨h.now, h.membership, fun k hk => ?_, h.signed⟩
  by_cases hkey : k = key
  · simp [S3.delete_object, hkey]
  · simpa [S3.delete_object, hkey] using h.stored k hk

/-- Handing out one URL in both systems keeps them the same for the organisation. -/
theorem Same.hand_out (h : Same org s s') (key : String) (url : Presigned) :
    Same org (s.hand_out key url).1 (s'.hand_out key url).1 := by
  refine ⟨h.now, h.membership, h.stored, fun u hu => ?_⟩
  simp only [System.hand_out, List.mem_cons]
  exact or_congr_right (h.signed u hu)

/-- A route of the organisation has one outcome in both. -/
theorem Same.run (h : Same org s s') (settings : Settings) (route : Route) :
    Same org (route.run settings s org).1 (route.run settings s' org).1 ∧
      (route.run settings s org).2 = (route.run settings s' org).2 := by
  cases route with
  | create_upload_url payload =>
      simp only [Route.run, sign, h.now]
      exact ⟨h.hand_out payload.key _, rfl⟩
  | list_objects => exact ⟨h, congrArg Response.objects h.list_objects⟩
  | create_download_url key =>
      simp only [Route.run, sign, h.now]
      exact ⟨h.hand_out key _, rfl⟩
  | delete_object key => exact ⟨h.delete_object _, rfl⟩

/-- An operation does nothing, or what the route does, or that without handing out a URL. -/
theorem operation_cases (settings : Settings) (s : System) (r : Request) (outcome : Outcome) :
    operation settings s r outcome = (s, .raised) ∨
      operation settings s r outcome = r.route.run settings s r.org_id ∨
      operation settings s r outcome =
        ({ s with s3 := (r.route.run settings s r.org_id).1.s3 }, .raised) := by
  cases hbucket : _bucket settings with
  | none => exact .inl (by simp only [operation, hbucket])
  | some bucket =>
      cases outcome with
      | done => exact .inr (.inl (by simp only [operation, hbucket]))
      | failed => exact .inl (by simp only [operation, hbucket])
      | lost => exact .inr (.inr (by simp only [operation, hbucket]))

/-- **The organisation's own operation** does the same in both systems, fails or not, and is
answered the same in both: it reads nothing but what is the same. -/
theorem Same.operation (h : Same org s s') (settings : Settings) (hr : r.org_id = org)
    (outcome : Outcome) :
    Same org (operation settings s r outcome).1 (operation settings s' r outcome).1 ∧
      (operation settings s r outcome).2 = (operation settings s' r outcome).2 := by
  subst hr
  obtain ⟨hsame, hresponse⟩ := h.run settings r.route
  cases hbucket : _bucket settings with
  | none =>
      simp only [Storage.operation, hbucket]
      exact ⟨h, trivial⟩
  | some bucket =>
      simp only [Storage.operation, hbucket]
      cases outcome with
      | done => exact ⟨hsame, hresponse⟩
      | failed => exact ⟨h, rfl⟩
      | lost => exact ⟨⟨h.now, h.membership, hsame.stored, h.signed⟩, rfl⟩

/-- The use of a URL of the organisation has the same effect in both systems and gives the same
object. -/
theorem Same.use (h : Same org s s') (hurl : startswith url.key (tenantPart org) = true)
    (body : List UInt8) (content_type : Option String) :
    Same org (use s url body content_type).1 (use s' url body content_type).1 ∧
      (use s url body content_type).2 = (use s' url body content_type).2 := by
  rw [Storage.use, Storage.use]
  cases url.method with
  | put_object => exact ⟨h.put_object url.key _, rfl⟩
  | get_object => exact ⟨h, h.stored url.key hurl⟩

/-! ### Writes of others -/

/-- An object that is stored under a key of somebody else makes no difference to the organisation.
-/
theorem same_put_object (hkey : startswith key (tenantPart org) = false) (object : Object) :
    Same org { s with s3 := s.s3.put_object key object } s := by
  refine ⟨rfl, fun _ => rfl, fun k hk => Function.update_of_ne ?_ _ _, fun _ _ => Iff.rfl⟩
  rintro rfl
  rw [hkey] at hk
  cases hk

/-- Nor does the deletion of somebody else's object. -/
theorem same_delete_object (hkey : startswith key (tenantPart org) = false) :
    Same org { s with s3 := s.s3.delete_object key } s := by
  refine ⟨rfl, fun _ => rfl, fun k hk => Function.update_of_ne ?_ _ _, fun _ _ => Iff.rfl⟩
  rintro rfl
  rw [hkey] at hk
  cases hk

/-- Nor does a URL for somebody else's key. -/
theorem same_hand_out (hurl : startswith url.key (tenantPart org) = false) (key : String) :
    Same org (s.hand_out key url).1 s := by
  refine ⟨rfl, fun _ => rfl, fun _ _ => rfl, fun u hu => ?_⟩
  have hne : u ≠ url := by
    rintro rfl
    rw [hurl] at hu
    cases hu
  exact ⟨fun h => (List.mem_cons.mp h).resolve_left hne, List.mem_cons_of_mem _⟩

/-- The keys of one organisation are not those of another. -/
theorem not_startswith_build_key (h : org' ≠ org) (key : String) :
    startswith (build_key key (some org'.str)) (tenantPart org) = false := by
  by_contra hkey
  rw [Bool.not_eq_false] at hkey
  exact h (org_of_startswith (startswith_build_key key org') hkey)

/-- A signed URL is for the key that it was asked for. -/
theorem sign_key (settings : Settings) (s : System) (method : Method) (key : String)
    (content_type : Option String) : (sign settings s method key content_type).key = key := rfl

/-- **A route of another organisation** makes no difference, since every key that it touches is in
that organisation's part. -/
theorem same_run (h : org' ≠ org) (route : Route) :
    Same org (route.run settings s org').1 s := by
  cases route with
  | create_upload_url payload =>
      refine same_hand_out ?_ payload.key
      rw [sign_key]
      exact not_startswith_build_key h payload.key
  | list_objects => exact .refl org s
  | create_download_url key =>
      refine same_hand_out ?_ key
      rw [sign_key]
      exact not_startswith_build_key h key
  | delete_object key => exact same_delete_object (not_startswith_build_key h key)

/-- An operation of another organisation makes no difference either, with or without a failure. -/
theorem same_operation (h : r.org_id ≠ org) (outcome : Outcome) :
    Same org (operation settings s r outcome).1 s := by
  have hsame : Same org (r.route.run settings s r.org_id).1 s := same_run h r.route
  obtain hop | hop | hop := operation_cases settings s r outcome
  · rw [hop]
    exact .refl org s
  · rw [hop]
    exact hsame
  · rw [hop]
    exact ⟨rfl, fun _ => rfl, hsame.stored, fun _ _ => Iff.rfl⟩

/-- The use of a URL for somebody else's key makes no difference. -/
theorem same_use (hurl : startswith url.key (tenantPart org) = false) (body : List UInt8)
    (content_type : Option String) : Same org (use s url body content_type).1 s := by
  rw [Storage.use]
  cases url.method with
  | put_object => exact same_put_object hurl _
  | get_object => exact .refl org s

/-! ### An organisation alone -/

/-- The thread acts for the organisation, or it is the clock. -/
def concerns (org : Uuid) : Proc → Bool
  | .idle => false
  | .guard r | .operation r | .answered r _ => r.org_id = org
  | .used url _ => startswith url.key (tenantPart org)
  | .membership org_id => org_id = org
  | .clock => true

/-- The use of a URL concerns the organisation in whose part its key is. -/
theorem concerns_used (org : Uuid) (url : Presigned) (object : Option Object) :
    concerns org (.used url object) = startswith url.key (tenantPart org) := rfl

/-- The guard answers with a refusal, or it has found a membership and the operation is next. -/
theorem guard_eq (s : System) (r : Request) :
    (∃ e, guard s r = .answered r (.refused e)) ∨
      guard s r = .operation r ∧ s.membership r.org_id r.user ≠ none := by
  rw [guard, get_current_membership]
  cases s.membership r.org_id r.user with
  | none => exact .inl ⟨_, rfl⟩
  | some row => exact .inr ⟨rfl, Option.some_ne_none row⟩

/-- Whether the guard refuses or not, the request goes on concerning its organisation. -/
theorem concerns_guard (org : Uuid) (s : System) (r : Request) :
    concerns org (guard s r) = concerns org (.guard r) := by
  obtain ⟨e, h⟩ | ⟨h, -⟩ := guard_eq s r
  · rw [h]
    rfl
  · rw [h]
    rfl

/-- What a thread of the organisation does, it does in the same way in a system that is the same to
the organisation. -/
theorem Same.effect (h : Same org s s') (he : Effect settings s a p s₁ p')
    (hp : concerns org p' = true) :
    ∃ s₂, Effect settings s' a p s₂ p' ∧ Same org s₁ s₂ := by
  cases he with
  | request r => exact ⟨s', .request r, h⟩
  | guard r outcome =>
      have horg : r.org_id = org := by
        rw [concerns_guard] at hp
        simpa [Storage.concerns] using hp
      have hguard : Storage.guard s' r = Storage.guard s r := by
        simp only [Storage.guard, get_current_membership, horg, h.membership]
      refine ⟨s', ?_, h⟩
      rw [← hguard]
      exact .guard r outcome
  | operation r outcome =>
      have horg : r.org_id = org := by simpa [Storage.concerns] using hp
      obtain ⟨hsame, hresponse⟩ := h.operation settings horg outcome
      refine ⟨_, ?_, hsame⟩
      rw [hresponse]
      exact .operation r outcome
  | use body content_type haccepts =>
      rw [concerns_used] at hp
      obtain ⟨hsame, hobject⟩ := h.use hp body content_type
      refine ⟨_, ?_, hsame⟩
      rw [hobject]
      exact .use body content_type ((h.accepts hp).symm.trans haccepts)
  | member org_id user row =>
      refine ⟨_, .member org_id user row, h.now, fun u => ?_, h.stored, h.signed⟩
      rw [membership_set_membership, membership_set_membership, h.membership]
  | tick => exact ⟨_, .tick, congrArg (· + 1) h.now, h.membership, h.stored, h.signed⟩

/-- What any other thread does is not noticed. -/
theorem Effect.same (he : Effect settings s a p s₁ p') (hp : concerns org p' = false) :
    Same org s₁ s := by
  cases he with
  | request r | guard r outcome => exact .refl org s
  | operation r outcome =>
      have horg : r.org_id ≠ org := by simpa [Storage.concerns] using hp
      exact same_operation horg outcome
  | use body content_type haccepts =>
      rw [concerns_used] at hp
      exact same_use hp body content_type
  | member org_id user row =>
      have horg : org_id ≠ org := by simpa [Storage.concerns] using hp
      refine ⟨rfl, fun u => ?_, fun _ _ => rfl, fun _ _ => Iff.rfl⟩
      rw [membership_set_membership, if_neg fun h => horg h.1.symm]
  | tick => cases hp

/-- A request that is under way concerns one organisation up to its answer. -/
theorem Effect.concerns (he : Effect settings s a p s₁ p') (hp : p ≠ .idle) :
    concerns org p' = concerns org p := by
  cases he with
  | request | use | member | tick => exact absurd rfl hp
  | guard r outcome => exact concerns_guard org s r
  | operation r outcome => rfl

/-- **The unwinding conditions** of `BackendManager.Noninterference`: steps that do not concern the
organisation are invisible to it, and those that do are determined by what it sees. -/
theorem unwinding (T : Type) [DecidableEq T] (settings : Settings) (org : Uuid) :
    Program.Unwinding (program T settings) Every (concerns org) .idle (Same org) where
  start := rfl
  stable h hp := (exec_eq_some_iff.mp h).concerns hp
  consistent {c t a g₀ g l} _ hsame h hp := by
    obtain ⟨s₂, heffect, hsame'⟩ := hsame.effect (exec_eq_some_iff.mp h) hp
    have hexec : exec settings a g₀ (c.proc t) = some (s₂, l) := exec_eq_some_iff.mpr heffect
    exact ⟨s₂, hexec, hsame'⟩
  respects _ hsame h hp := ((exec_eq_some_iff.mp h).same hp).trans hsame

/-- A step of a run. -/
abbrev Step (T : Type) := Program.Move T System Proc Act

variable [DecidableEq T] {c d e : Config T System Proc} {moves : List (Step T)} {m : Step T}

/-- **An organisation alone.** The requests of an organisation, the changes of its memberships, the
uses of its URLs and the clock can be run without all other steps; then they have the same outcomes
and leave the same objects of the organisation behind. -/
theorem organization_alone (h : (program T settings).Trace Every c moves d)
    (hidle : ∀ t, c.proc t = .idle) (org : Uuid) :
    ∃ moves' d', (program T settings).Trace Every c moves' d' ∧
      moves'.map Program.Move.act =
        (moves.filter (Program.Move.watched (concerns org))).map Program.Move.act ∧
      (∀ t, concerns org (d.proc t) = true → d'.proc t = d.proc t) ∧
      ∀ key, startswith key (tenantPart org) = true →
        d'.shared.s3.stored key = d.shared.s3.stored key := by
  obtain ⟨moves', d', htrace, hacts, halone⟩ :=
    (unwinding T settings org).alone h (.refl org c.shared) hidle
  exact ⟨moves', d', htrace, hacts, halone.same,
    fun key hkey => (halone.shared.stored key hkey).symm⟩

/-! ### Where URLs come from -/

/-- The step hands out the URL. -/
structure Signs (settings : Settings) (m : Step T) (r : Request) (url : Presigned) : Prop where
  operation : m.before.proc m.thread = .operation r
  response : ∃ key, m.after.proc m.thread = .answered r (.presigned key url url.expires_in)
  key : startswith url.key (tenantPart r.org_id) = true
  signed_at : url.signed_at = m.before.shared.now
  expires_in : url.expires_in = settings.s3_presign_expiry_seconds

omit [DecidableEq T] in
/-- The URL of a response is the one that is handed out. -/
theorem of_hand_out {stored_key : String} {method : Method} {content_type : Option String}
    (hkey : startswith stored_key (tenantPart org) = true)
    (hurl : url ∈ (s.hand_out key (sign settings s method stored_key content_type)).1.signed) :
    url ∈ s.signed ∨
      (s.hand_out key (sign settings s method stored_key content_type)).2 =
          .presigned key url url.expires_in ∧
        startswith url.key (tenantPart org) = true ∧ url.signed_at = s.now ∧
        url.expires_in = settings.s3_presign_expiry_seconds := by
  rcases List.mem_cons.mp hurl with rfl | hurl
  · exact .inr ⟨rfl, hkey, rfl, rfl⟩
  · exact .inl hurl

/-- A URL is new after a route only as the answer of that route: for a key of the organisation,
signed now, with the configured expiry. -/
theorem Route.of_signed (route : Route) (hurl : url ∈ (route.run settings s org).1.signed) :
    url ∈ s.signed ∨ ∃ key, (route.run settings s org).2 = .presigned key url url.expires_in ∧
      startswith url.key (tenantPart org) = true ∧ url.signed_at = s.now ∧
      url.expires_in = settings.s3_presign_expiry_seconds := by
  cases route with
  | list_objects | delete_object =>
      rw [Route.run] at hurl
      exact .inl hurl
  | create_upload_url payload =>
      rw [Route.run] at hurl ⊢
      exact (of_hand_out (startswith_build_key payload.key org) hurl).imp id fun h => ⟨_, h⟩
  | create_download_url key =>
      rw [Route.run] at hurl ⊢
      exact (of_hand_out (startswith_build_key key org) hurl).imp id fun h => ⟨_, h⟩

/-- A URL is new after a step only if the step is the operation of a request that is answered with
it. -/
theorem Effect.of_signed (he : Effect settings s a p s₁ p') (hurl : url ∈ s₁.signed) :
    url ∈ s.signed ∨ ∃ r key, p = .operation r ∧
      p' = .answered r (.presigned key url url.expires_in) ∧
      startswith url.key (tenantPart r.org_id) = true ∧ url.signed_at = s.now ∧
      url.expires_in = settings.s3_presign_expiry_seconds := by
  cases he with
  | request | guard | member | tick => exact .inl hurl
  | use body content_type =>
      rw [Storage.use] at hurl
      split at hurl
      · exact .inl hurl
      · exact .inl hurl
  | operation r outcome =>
      obtain hop | hop | hop := operation_cases settings s r outcome
      · exact .inl (by rwa [hop] at hurl)
      · rw [hop] at hurl ⊢
        obtain hurl | ⟨key, hresponse, hrest⟩ := r.route.of_signed hurl
        · exact .inl hurl
        · exact .inr ⟨r, key, rfl, congrArg (Proc.answered r) hresponse, hrest⟩
      · exact .inl (by rwa [hop] at hurl)

/-- A request comes to its operation through its guard. -/
theorem Effect.of_operation (he : Effect settings s a p s₁ (.operation r)) :
    p = .guard r ∧ s.membership r.org_id r.user ≠ none := by
  generalize hp' : Proc.operation r = p' at he
  cases he with
  | request | operation | use | member | tick => cases hp'
  | guard r' outcome =>
      obtain ⟨e, hguard⟩ | ⟨hguard, hrow⟩ := guard_eq s r'
      · rw [hguard] at hp'
        cases hp'
      · rw [hguard] at hp'
        obtain rfl := Proc.operation.inj hp'
        exact ⟨rfl, hrow⟩

/-- The guard of the request finds a membership at the step. -/
def Passes (m : Step T) (r : Request) : Prop :=
  m.before.proc m.thread = .guard r ∧ m.before.shared.membership r.org_id r.user ≠ none

/-- Whoever is at its operation has passed the guard, at an earlier step of the same thread. -/
theorem passes_of_trace (h : (program T settings).Trace Every c moves d)
    (hidle : ∀ t, c.proc t = .idle) (hp : d.proc t = .operation r) :
    ∃ m ∈ moves, m.thread = t ∧ Passes m r := by
  induction h with
  | nil =>
      rw [hidle t] at hp
      cases hp
  | @snoc moves d e u a _ _ hstep ih =>
      obtain ⟨g, l, hexec, rfl⟩ := Program.step_eq_some_iff.mp hstep
      change Function.update d.proc u l t = .operation r at hp
      by_cases htu : t = u
      · subst htu
        rw [Function.update_self] at hp
        subst hp
        exact ⟨_, List.mem_append_right _ (List.mem_singleton_self _), rfl,
          (exec_eq_some_iff.mp hexec).of_operation⟩
      · rw [Function.update_of_ne htu] at hp
        obtain ⟨m, hm, hpasses⟩ := ih hp
        exact ⟨m, List.mem_append_left _ hm, hpasses⟩

/-- Nothing is under way, and no URL has been handed out. -/
structure Start (c : Config T System Proc) : Prop where
  idle : ∀ t, c.proc t = .idle
  signed : c.shared.signed = []

/-- Every URL that has been handed out was signed at a step of the run. The induction is on the
run; `Effect.of_signed` is the step. -/
theorem signs_of_trace (h : (program T settings).Trace Every c moves d) (hc : Start c)
    (hurl : url ∈ d.shared.signed) : ∃ m ∈ moves, ∃ r, Signs settings m r url := by
  induction h with
  | nil =>
      rw [hc.signed] at hurl
      cases hurl
  | @snoc moves d e u a _ _ hstep ih =>
      obtain ⟨g, l, hexec, rfl⟩ := Program.step_eq_some_iff.mp hstep
      obtain hurl | ⟨r, key, hoperation, hresponse, hkey, htime, hexpiry⟩ :=
        (exec_eq_some_iff.mp hexec).of_signed hurl
      · obtain ⟨m, hm, hsigns⟩ := ih hurl
        exact ⟨m, List.mem_append_left _ hm, hsigns⟩
      · refine ⟨_, List.mem_append_right _ (List.mem_singleton_self _), r, hoperation, ⟨key, ?_⟩,
          hkey, htime, hexpiry⟩
        exact (Function.update_self u l d.proc).trans hresponse

/-- S3 accepts the use of a URL only if it has been signed and has not expired. -/
theorem accepts_of_use {body : List UInt8} {content_type : Option String}
    (h : Effect settings s (.use url body content_type) p s₁ p') :
    url ∈ s.signed ∧ s.now ≤ url.signed_at + url.expires_in := by
  cases h with
  | use _ _ haccepts => exact of_decide_eq_true haccepts

/-- **Which request has signed the URL that is used**: one by a member of the organisation whose
object it is. Its guard found the membership, then it was answered with the URL, at most the
configured number of seconds before the use. -/
theorem used_of_member {body : List UInt8} {content_type : Option String}
    (h : (program T settings).Trace Every c moves d) (hc : Start c) (hm : m ∈ moves)
    (huse : m.action = .use url body content_type) :
    ∃ r, startswith url.key (tenantPart r.org_id) = true ∧
      ∃ m₁ m₂, [m₁, m₂, m].Sublist moves ∧ m₁.thread = m₂.thread ∧ Passes m₁ r ∧
        Signs settings m₂ r url ∧
        m.before.shared.now ≤ m₂.before.shared.now + settings.s3_presign_expiry_seconds := by
  obtain ⟨earlier, hsub, htrace⟩ := h.before hm
  obtain ⟨-, hstep, -⟩ := h.around hm
  obtain ⟨g, l, hexec, -⟩ := Program.step_eq_some_iff.mp hstep
  rw [huse] at hexec
  obtain ⟨hsigned, htime⟩ := accepts_of_use (exec_eq_some_iff.mp hexec)
  obtain ⟨m₂, hm₂, r, hsigns⟩ := signs_of_trace htrace hc hsigned
  obtain ⟨before, hbefore, htrace₂⟩ := htrace.before hm₂
  obtain ⟨m₁, hm₁, hthread, hpasses⟩ := passes_of_trace htrace₂ hc.idle hsigns.operation
  have horder : [m₁, m₂].Sublist earlier :=
    ((List.singleton_sublist.mpr hm₁).append_right [m₂]).trans hbefore
  refine ⟨r, hsigns.key, m₁, m₂, (horder.append_right [m]).trans hsub, hthread, hpasses, hsigns, ?_⟩
  rw [hsigns.signed_at, hsigns.expires_in] at htime
  exact htime

/-! ### After the last member -/

/-- Nobody is a member of the organisation. -/
def Deserted (org : Uuid) (c : Config T System Proc) (_ : T) (_ : Act) : Prop :=
  ∀ row ∈ c.shared.memberships, row.1.1 ≠ org

instance (org : Uuid) (c : Config T System Proc) (t : T) (a : Act) :
    Decidable (Deserted org c t a) :=
  inferInstanceAs (Decidable (∀ row ∈ c.shared.memberships, row.1.1 ≠ org))

omit [DecidableEq T] in
/-- In an organisation without members the guard finds no row, whoever asks. -/
theorem Deserted.membership (h : Deserted org c t a) (user : Uuid) :
    c.shared.membership org user = none := by
  refine List.lookup_eq_none_iff.mpr fun row hrow => ?_
  rw [bne_iff_ne]
  intro hkey
  exact h row hrow (congrArg Prod.fst hkey).symm

/-- Requests of the organisation are not past their guard, and its URLs were signed before a given
time. -/
structure Closed (settings : Settings) (org : Uuid) (time : ℕ) (c : Config T System Proc) :
    Prop where
  operation : ∀ t r, c.proc t = .operation r → r.org_id ≠ org
  signed : ∀ url ∈ c.shared.signed, startswith url.key (tenantPart org) = true →
    url.signed_at ≤ time ∧ url.expires_in = settings.s3_presign_expiry_seconds

/-- **One step** while the organisation has no members keeps it closed: no operation of it begins,
and no URL for its objects is signed. -/
theorem Closed.step {time : ℕ} (h : Closed settings org time c) (hok : Deserted org c t a)
    (hstep : (program T settings).step c t a = some d) : Closed settings org time d := by
  obtain ⟨g, l, hexec, rfl⟩ := Program.step_eq_some_iff.mp hstep
  have heffect := exec_eq_some_iff.mp hexec
  refine ⟨fun u r hp => ?_, fun url hurl hkey => ?_⟩
  · change Function.update c.proc t l u = .operation r at hp
    by_cases hut : u = t
    · subst hut
      rw [Function.update_self] at hp
      subst hp
      rintro rfl
      exact heffect.of_operation.2 (hok.membership r.user)
    · rw [Function.update_of_ne hut] at hp
      exact h.operation u r hp
  · obtain hurl | ⟨r, key, hoperation, -, hkey', -⟩ := heffect.of_signed hurl
    · exact h.signed url hurl hkey
    · exact absurd (org_of_startswith hkey' hkey) (h.operation t r hoperation)

/-- The clock does not run backwards. -/
theorem now_le_of_effect (h : Effect settings s a p s₁ p') : s.now ≤ s₁.now := by
  cases h with
  | request | guard | member => exact le_rfl
  | tick => exact Nat.le_succ _
  | use body content_type =>
      rw [Storage.use]
      split
      · exact le_rfl
      · exact le_rfl
  | operation r outcome =>
      have hrun : (r.route.run settings s r.org_id).1.now = s.now := by
        cases r.route with
        | create_upload_url | create_download_url => simp only [Route.run, System.hand_out]
        | list_objects | delete_object => simp only [Route.run]
      obtain hop | hop | hop := operation_cases settings s r outcome
      · rw [hop]
      · rw [hop, hrun]
      · rw [hop]

/-- Nor does it along a run. -/
theorem now_le_of_run {ok : Config T System Proc → T → Act → Prop}
    (h : (program T settings).Run ok c d) : c.shared.now ≤ d.shared.now := by
  induction h with
  | refl => exact le_rfl
  | step _ _ hstep ih =>
      obtain ⟨g, l, hexec, rfl⟩ := Program.step_eq_some_iff.mp hstep
      exact ih.trans (now_le_of_effect (exec_eq_some_iff.mp hexec))

/-- **After the last member** of an organisation is gone and its requests have ended, none of its
routes does anything, and its objects are accessible by URL for the configured number of seconds at
most. -/
theorem last_use {moves₀ : List (Step T)} (h₀ : (program T settings).Trace Every c moves₀ e)
    (hc : Start c) (hended : ∀ t r, e.proc t = .operation r → r.org_id ≠ org)
    (h : (program T settings).Trace (Deserted org) e moves d) (hm : m ∈ moves) :
    (∀ r, m.before.proc m.thread = .operation r → r.org_id ≠ org) ∧
      ∀ url body content_type, m.action = .use url body content_type →
        startswith url.key (tenantPart org) = true →
        m.before.shared.now ≤ e.shared.now + settings.s3_presign_expiry_seconds := by
  have hclosed : Closed settings org e.shared.now e := by
    refine ⟨hended, fun url hurl _ => ?_⟩
    obtain ⟨m₂, hm₂, r, hsigns⟩ := signs_of_trace h₀ hc hurl
    obtain ⟨-, hstep, hafter⟩ := h₀.around hm₂
    have hrun : (program T settings).Run Every m₂.before m₂.after :=
      (Program.Run.refl m₂.before).step trivial hstep
    have hbefore := now_le_of_run hrun
    exact ⟨hsigns.signed_at ▸ hbefore.trans (now_le_of_run hafter), hsigns.expires_in⟩
  obtain ⟨hrun, hstep, -⟩ := h.around hm
  have hthere := hrun.invariant (fun _ _ _ _ hI hok hs => Closed.step hI hok hs) hclosed
  refine ⟨hthere.operation m.thread, fun url body content_type huse hkey => ?_⟩
  obtain ⟨g, l, hexec, -⟩ := Program.step_eq_some_iff.mp hstep
  rw [huse] at hexec
  obtain ⟨hsigned, htime⟩ := accepts_of_use (exec_eq_some_iff.mp hexec)
  obtain ⟨htime', hexpiry⟩ := hthere.signed url hsigned hkey
  rw [hexpiry] at htime
  exact htime.trans (Nat.add_le_add_right htime' _)

/-! ### A small run -/

def smallSettings : Settings := ⟨some "b", 1⟩

/-- The schema admits the key of the small run. -/
theorem small_key : 1 ≤ "a".length := by decide

/-- Nothing is stored, and nobody is a member of anything. -/
def smallStart : Config (Fin 5) System Proc := ⟨⟨0, [], .empty, []⟩, fun _ => .idle⟩

def smallRequest : Request :=
  ⟨Uuid.ofNat 2, Uuid.ofNat 1, .create_upload_url ⟨"a", none, small_key⟩⟩

def smallUrl : Presigned :=
  ⟨.put_object, build_key "a" (some (Uuid.ofNat 1).str), none, 0, 1⟩

/-- A member gets a URL and is removed. -/
def memberSchedule : List (Fin 5 × Act) :=
  [(0, .member (Uuid.ofNat 1) (Uuid.ofNat 2) (some ⟨Uuid.ofNat 3, "member"⟩)),
    (1, .request smallRequest), (1, .stmt .done), (1, .stmt .done),
    (2, .member (Uuid.ofNat 1) (Uuid.ofNat 2) none)]

/-- A second later the URL is used. -/
def useSchedule : List (Fin 5 × Act) := [(3, .tick), (4, .use smallUrl [] none)]

/-- The small run begins with nothing under way and no URL handed out. -/
theorem start_smallStart : Start smallStart := ⟨fun _ => rfl, rfl⟩

def smallAnswer : Proc := .answered smallRequest (.presigned "a" smallUrl 1)

/-- The small run by evaluation: the member is answered with a URL, and a second later, in the
organisation without members, the URL is used. -/
theorem small_run : ∃ r ∈ (program (Fin 5) smallSettings).record Every smallStart memberSchedule,
    r.2.proc 1 = smallAnswer ∧
      (∀ t : Fin 5, r.2.proc t ∈ [.idle, .membership (Uuid.ofNat 1), smallAnswer]) ∧
      ∃ r' ∈ (program (Fin 5) smallSettings).record (Deserted (Uuid.ofNat 1)) r.2 useSchedule,
        ∃ m ∈ r'.1, m.action = .use smallUrl [] none := by
  decide +kernel

/-- The URL is for an object of the organisation. -/
theorem startswith_smallUrl : startswith smallUrl.key (tenantPart (Uuid.ofNat 1)) = true :=
  startswith_build_key "a" (Uuid.ofNat 1)

/-- The run of the member, and the run without all the others, in which it gets the same. -/
theorem organization_alone_small :
    ∃ r ∈ (program (Fin 5) smallSettings).record Every smallStart memberSchedule,
      r.2.proc 1 = smallAnswer ∧
        ∃ moves' d', (program (Fin 5) smallSettings).Trace Every smallStart moves' d' ∧
          moves'.map Program.Move.act =
            (r.1.filter (Program.Move.watched (concerns (Uuid.ofNat 1)))).map Program.Move.act ∧
          d'.proc 1 = smallAnswer := by
  obtain ⟨⟨moves, e⟩, hrecord, hanswer, -⟩ := small_run
  obtain ⟨moves', d', htrace, hacts, hsame, -⟩ :=
    organization_alone (Program.trace_of_record hrecord) start_smallStart.idle (Uuid.ofNat 1)
  refine ⟨(moves, e), hrecord, hanswer, moves', d', htrace, hacts, (hsame 1 ?_).trans hanswer⟩
  rw [hanswer]
  rfl

/-- The use of the URL, and before it the guard and the answer of the request. -/
theorem used_of_member_small :
    ∃ r ∈ (program (Fin 5) smallSettings).record Every smallStart (memberSchedule ++ useSchedule),
      ∃ m ∈ r.1, m.action = .use smallUrl [] none ∧
        ∃ request, startswith smallUrl.key (tenantPart request.org_id) = true ∧
          ∃ m₁ m₂, [m₁, m₂, m].Sublist r.1 ∧ Passes m₁ request ∧
            Signs smallSettings m₂ request smallUrl := by
  obtain ⟨r, hrecord, m, hm, huse⟩ :
      ∃ r ∈ (program (Fin 5) smallSettings).record Every smallStart (memberSchedule ++ useSchedule),
        ∃ m ∈ r.1, m.action = .use smallUrl [] none := by
    decide +kernel
  obtain ⟨request, hkey, m₁, m₂, horder, -, hpasses, hsigns, -⟩ :=
    used_of_member (Program.trace_of_record hrecord) start_smallStart hm huse
  exact ⟨r, hrecord, m, hm, huse, request, hkey, m₁, m₂, horder, hpasses, hsigns⟩

/-- The last member is gone, and the URL that it has left behind is used a second later. -/
theorem last_use_small :
    ∃ r ∈ (program (Fin 5) smallSettings).record Every smallStart memberSchedule,
      (∀ t request, r.2.proc t = .operation request → request.org_id ≠ Uuid.ofNat 1) ∧
      ∃ r' ∈ (program (Fin 5) smallSettings).record (Deserted (Uuid.ofNat 1)) r.2 useSchedule,
        ∃ m ∈ r'.1, m.action = .use smallUrl [] none ∧
          m.before.shared.now ≤ r.2.shared.now + smallSettings.s3_presign_expiry_seconds := by
  obtain ⟨⟨moves₀, e⟩, hrecord₀, -, hprocs, ⟨moves, d⟩, hrecord, m, hm, huse⟩ := small_run
  have hended : ∀ t r, e.proc t = .operation r → r.org_id ≠ Uuid.ofNat 1 := by
    intro t r hp
    have hproc := hprocs t
    rw [hp] at hproc
    simp [smallAnswer] at hproc
  obtain ⟨-, htime⟩ := last_use (Program.trace_of_record hrecord₀) start_smallStart hended
    (Program.trace_of_record hrecord) hm
  exact ⟨(moves₀, e), hrecord₀, hended, (moves, d), hrecord, m, hm, huse,
    htime smallUrl [] none huse startswith_smallUrl⟩

end BackendManager.Storage
