import BackendManager.ApiKeys
import Mathlib.Data.List.Induction

/-!
# Exactly One Text Opens Each Live Key

A history is a list of calls, oldest first, starting from an empty table. A row is written
by one `create_api_key` call, and the later calls of the history touch nothing of it but
`revoked_at` and `last_used_at` (`Touched`). Row by row the table is therefore what the
history says (`Stands`).

The clock of each call is an argument of it, so that a history says when a key was created,
used, revoked and presented; nothing requires the times to be in order. A row is looked up by
the public part, which is unique, and the secret is compared by its digest. That no other text
opens the key is up to collisions of the digest, which are excluded by hypothesis, and to the
public parts being drawn without a dot, which is proved.

## Main results

* `rows_step`: what one call does to the table.
* `stands_of_history`: the rows are those of the keys that have been issued.
* `authenticated_iff`: a presented text authenticates as an API key if and only if it is the
  full key of an issued key that no later call has revoked and that has not expired.
-/

namespace BackendManager.ApiKeys

open Text UniqueRows

/-! ### Histories -/

/-- A call; `create` is made by the member `user_id` of the organisation, and `user` is the
user of a valid JWT. -/
inductive Call
  | create (org_id user_id : Uuid) (payload : ApiKeyCreate) (m : Minting)
  | revoke (org_id key_id : Uuid) (now : ℕ)
  | get_principal (x_api_key : Option String) (user : Option Uuid) (now : ℕ)

/-- The table after a call. -/
def step (sha256 : List UInt8 → String) (keys : Keys) : Call → Keys
  | .create org_id user_id payload m => (create_api_key sha256 keys org_id user_id payload m).1
  | .revoke org_id key_id now => (revoke_api_key keys org_id key_id now).1
  | .get_principal x_api_key user now => (get_principal sha256 keys x_api_key user now).1

/-- The table after a history. -/
def history (sha256 : List UInt8 → String) (calls : List Call) : Keys :=
  calls.foldl (step sha256) .empty

/-- What the call answers, if it creates a key. -/
def Call.created (sha256 : List UInt8 → String) (keys : Keys) : Call → Option ApiKeyCreated
  | .create org_id user_id payload m => (create_api_key sha256 keys org_id user_id payload m).2
  | _ => none

/-- The row that a call adds. -/
def Call.added (sha256 : List UInt8 → String) (keys : Keys) (call : Call) : Option ApiKey :=
  match call with
  | .create org_id user_id payload m =>
      if (call.created sha256 keys).isSome then some (newRow sha256 org_id user_id payload m)
      else none
  | _ => none

/-- The call revokes this key of this organisation. -/
def Call.Revokes (org_id key_id : Uuid) : Call → Prop
  | .revoke org_id' key_id' _ => org_id' = org_id ∧ key_id' = key_id
  | _ => False

/-- A call of the history has returned `created`, and `future` are the calls after it. -/
def Issued (sha256 : List UInt8 → String) (calls : List Call) (created : ApiKeyCreated)
    (future : List Call) : Prop :=
  ∃ past call, calls = past ++ call :: future ∧
    call.created sha256 (history sha256 past) = some created

variable {sha256 : List UInt8 → String} {keys keys' : Keys} {row row' : ApiKey} {call : Call}
  {calls future : List Call} {created : ApiKeyCreated} {raw : String} {user : Option Uuid}
  {now : ℕ} {p : Principal}

/-! ### One call -/

/-- What a call does to a row. -/
structure Touched (call : Call) (row row' : ApiKey) : Prop where
  same : row' = { row with revoked_at := row'.revoked_at, last_used_at := row'.last_used_at }
  revoked : row'.revoked_at = none ↔
    row.revoked_at = none ∧ ¬ call.Revokes row.organization_id row.id

/-- A call that does not revoke a row may leave it as it is. -/
theorem Touched.refl (h : ¬ call.Revokes row.organization_id row.id) : Touched call row row :=
  ⟨rfl, (and_iff_left h).symm⟩

/-- A row that is not updated. -/
theorem changed_of_ne {id : Uuid} {f g : ApiKey → Option ℕ} (h : row.id ≠ id) :
    Keys.changed id f g row = row := if_neg h

/-- The row that is updated. -/
theorem changed_self (f g : ApiKey → Option ℕ) (row : ApiKey) :
    Keys.changed row.id f g row = { row with revoked_at := f row, last_used_at := g row } :=
  if_pos rfl

/-- Rows with one id are one row. -/
theorem Keys.eq_of_id (keys : Keys) (h : row ∈ keys.rows) (h' : row' ∈ keys.rows)
    (hid : row.id = row'.id) : row = row' :=
  keys.ids.eq_of_mem h h' rfl (by rw [hid])

/-- An insert that is accepted adds the row at the end. -/
theorem rows_insert (h : keys.insert row = some keys') : keys'.rows = keys.rows ++ [row] := by
  rw [Keys.insert] at h
  split at h
  · rw [← Option.some.inj h]
  · cases h

/-- A call of `create_api_key` adds its row and returns the key, or does neither. -/
theorem create_cases (sha256 : List UInt8 → String) (keys : Keys) (org_id user_id : Uuid)
    (payload : ApiKeyCreate) (m : Minting) :
    create_api_key sha256 keys org_id user_id payload m = (keys, none) ∨
      ∃ keys', keys'.rows = keys.rows ++ [newRow sha256 org_id user_id payload m] ∧
        create_api_key sha256 keys org_id user_id payload m =
          (keys', some ⟨to_read (newRow sha256 org_id user_id payload m),
            (generate_key sha256 m.random).1⟩) := by
  unfold create_api_key
  by_cases hrefused : m.refused = true
  · simp [hrefused]
  · cases hinsert : keys.insert (newRow sha256 org_id user_id payload m) with
    | none => simp [hinsert]
    | some keys' =>
        right
        exact ⟨keys', rows_insert hinsert, by simp [hrefused, hinsert]⟩

/-- A creation adds the row that it mints, if any. -/
theorem rows_create (org_id user_id : Uuid) (payload : ApiKeyCreate) (m : Minting) :
    (step sha256 keys (.create org_id user_id payload m)).rows =
      keys.rows ++ ((Call.create org_id user_id payload m).added sha256 keys).toList := by
  rw [step, Call.added, Call.created]
  rcases create_cases sha256 keys org_id user_id payload m with h | ⟨keys', hrows, h⟩
  · rw [h]
    simp
  · rw [h, hrows]
    rfl

/-- A revocation touches the row that it names, and no other. -/
theorem touched_revoke (sha256 : List UInt8 → String) (keys : Keys) (org_id key_id : Uuid)
    (now : ℕ) :
    ∃ f : ApiKey → ApiKey, (step sha256 keys (.revoke org_id key_id now)).rows = keys.rows.map f ∧
      ∀ row ∈ keys.rows, Touched (.revoke org_id key_id now) row (f row) := by
  rw [step, revoke_api_key]
  cases h : keys.selectId key_id org_id with
  | none =>
      refine ⟨id, (List.map_id _).symm, fun row hrow => .refl ?_⟩
      rintro ⟨rfl, rfl⟩
      have hnone := List.find?_eq_none.mp h row hrow
      simp at hnone
  | some api_key =>
      obtain ⟨hmem, rfl, rfl⟩ := selectId_eq_some h
      refine ⟨_, rfl, fun row hrow => ?_⟩
      by_cases hid : row.id = api_key.id
      · obtain rfl := keys.eq_of_id hrow hmem hid
        rw [changed_self]
        exact ⟨rfl, by simp [Call.Revokes]⟩
      · rw [changed_of_ne hid]
        exact .refl fun hrevokes => hid hrevokes.2.symm

/-- An authentication touches nothing but the time of the last use. -/
theorem touched_get_principal (sha256 : List UInt8 → String) (keys : Keys)
    (x_api_key : Option String) (user : Option Uuid) (now : ℕ) :
    ∃ f : ApiKey → ApiKey,
      (step sha256 keys (.get_principal x_api_key user now)).rows = keys.rows.map f ∧
        ∀ row ∈ keys.rows, Touched (.get_principal x_api_key user now) row (f row) := by
  have hsame : ∃ f : ApiKey → ApiKey, keys.rows = keys.rows.map f ∧
      ∀ row ∈ keys.rows, Touched (.get_principal x_api_key user now) row (f row) :=
    ⟨id, (List.map_id _).symm, fun row _ => .refl id⟩
  rw [step]
  unfold get_principal
  split
  · split
    · exact hsame
    · split
      · exact hsame
      · split
        · exact hsame
        · rename_i api_key _ _ _
          refine ⟨_, rfl, fun row hrow => ?_⟩
          by_cases hid : row.id = api_key.id
          · rw [← hid, changed_self]
            exact ⟨rfl, (and_iff_left id).symm⟩
          · rw [changed_of_ne hid]
            exact .refl id
  · split
    · exact hsame
    · exact hsame

/-- **One call** touches every row and adds at most one. -/
theorem rows_step (sha256 : List UInt8 → String) (keys : Keys) (call : Call) :
    ∃ f : ApiKey → ApiKey,
      (step sha256 keys call).rows = keys.rows.map f ++ (call.added sha256 keys).toList ∧
        ∀ row ∈ keys.rows, Touched call row (f row) := by
  cases call with
  | create org_id user_id payload m =>
      refine ⟨id, ?_, fun row _ => .refl id⟩
      rw [List.map_id, rows_create]
  | revoke org_id key_id now =>
      obtain ⟨f, hrows, hf⟩ := touched_revoke sha256 keys org_id key_id now
      exact ⟨f, by rw [hrows]; exact (List.append_nil _).symm, hf⟩
  | get_principal x_api_key user now =>
      obtain ⟨f, hrows, hf⟩ := touched_get_principal sha256 keys x_api_key user now
      exact ⟨f, by rw [hrows]; exact (List.append_nil _).symm, hf⟩

/-! ### Every history -/

/-- The row is that of an issued key, after these calls. -/
structure Stands (sha256 : List UInt8 → String) (created : ApiKeyCreated) (future : List Call)
    (row : ApiKey) : Prop where
  principal : row.principal = ⟨created.created_by_user_id, some created.organization_id,
    some created.id, created.scopes, "api_key"⟩
  expires_at : row.expires_at = created.expires_at
  dotless : '.' ∉ row.prefix_.toList
  nonempty : row.prefix_ ≠ ""
  key : ∃ secret, secret ≠ "" ∧ created.key = full_key row.prefix_ secret ∧
    row.hashed_secret = hash_secret sha256 secret
  revoked : row.revoked_at = none ↔
    ∀ call ∈ future, ¬ call.Revokes created.organization_id created.id

/-- A new row. -/
theorem stands_of_added (hrow : call.added sha256 keys = some row)
    (hcreated : call.created sha256 keys = some created) :
    Stands sha256 created [] row := by
  cases call with
  | revoke | get_principal => cases hrow
  | create org_id user_id payload m =>
      rw [Call.added] at hrow
      split at hrow
      · obtain rfl := Option.some.inj hrow
        rw [Call.created] at hcreated
        rcases create_cases sha256 keys org_id user_id payload m with h | ⟨_, -, h⟩
        · rw [h] at hcreated
          cases hcreated
        · rw [h] at hcreated
          obtain rfl := Option.some.inj hcreated
          exact ⟨rfl, rfl, notMem_newPrefix _, newPrefix_ne_empty _,
            ⟨_, token_urlsafe_ne_empty _, rfl, rfl⟩, by simp [newRow]⟩
      · cases hrow

/-- A row of a key and the call after it. -/
theorem Stands.touched (h : Stands sha256 created future row) (ht : Touched call row row') :
    Stands sha256 created (future ++ [call]) row' := by
  have hsame := ht.same
  have horg : row.organization_id = created.organization_id :=
    Option.some.inj (congrArg Principal.organization_id h.principal)
  have hid : row.id = created.id := Option.some.inj (congrArg Principal.api_key_id h.principal)
  have hrevoked := ht.revoked
  rw [horg, hid, h.revoked] at hrevoked
  refine ⟨?_, ?_, ?_, ?_, ?_, ?_⟩
  · rw [hsame, ← h.principal]
    rfl
  · rw [hsame, ← h.expires_at]
  · rw [hsame]
    exact h.dotless
  · rw [hsame]
    exact h.nonempty
  · rw [hsame]
    exact h.key
  · rw [hrevoked, List.forall_mem_append, List.forall_mem_singleton]

/-- The last call of a history comes last. -/
theorem history_concat (calls : List Call) (call : Call) :
    history sha256 (calls ++ [call]) = step sha256 (history sha256 calls) call := by
  rw [history, List.foldl_append]
  rfl

/-- A key is issued by the last call of a history or by one before. -/
theorem issued_concat : Issued sha256 (calls ++ [call]) created future ↔
    (∃ future', future = future' ++ [call] ∧ Issued sha256 calls created future') ∨
      (future = [] ∧ call.created sha256 (history sha256 calls) = some created) := by
  constructor
  · rintro ⟨past, call', hcalls, hcreated⟩
    rcases List.eq_nil_or_concat future with rfl | ⟨future', last, rfl⟩
    · obtain ⟨rfl, hlast⟩ := List.append_inj' hcalls rfl
      obtain rfl := List.singleton_inj.mp hlast
      exact .inr ⟨rfl, hcreated⟩
    · have hassoc : calls ++ [call] = (past ++ call' :: future') ++ [last] := by
        rw [hcalls, List.concat_eq_append, List.append_assoc, List.cons_append]
      obtain ⟨hcalls', hlast⟩ := List.append_inj' hassoc rfl
      obtain rfl := List.singleton_inj.mp hlast
      exact .inl ⟨future', List.concat_eq_append, past, call', hcalls', hcreated⟩
  · rintro (⟨future', rfl, past, call', rfl, hcreated⟩ | ⟨rfl, hcreated⟩)
    · exact ⟨past, call', by rw [List.append_assoc, List.cons_append], hcreated⟩
    · exact ⟨calls, call, rfl, hcreated⟩

/-- A call that returns a key adds a row, and no other call does. -/
theorem added_isSome_iff :
    (∃ row, call.added sha256 keys = some row) ↔
      ∃ created, call.created sha256 keys = some created := by
  cases call with
  | revoke | get_principal => simp [Call.added, Call.created]
  | create org_id user_id payload m =>
      rw [Call.added]
      cases h : (Call.create org_id user_id payload m).created sha256 keys <;> simp

/-- **The rows are those of the issued keys.** -/
theorem stands_of_history (sha256 : List UInt8 → String) (calls : List Call) :
    (∀ row ∈ (history sha256 calls).rows, ∃ created future,
      Issued sha256 calls created future ∧ Stands sha256 created future row) ∧
    ∀ created future, Issued sha256 calls created future →
      ∃ row ∈ (history sha256 calls).rows, Stands sha256 created future row := by
  induction calls using List.reverseRecOn with
  | nil =>
      refine ⟨fun row hrow => (nomatch hrow), ?_⟩
      rintro created future ⟨past, call, hcalls, -⟩
      simp at hcalls
  | append_singleton calls call ih =>
      obtain ⟨hsound, hcomplete⟩ := ih
      obtain ⟨f, hrows, hf⟩ := rows_step sha256 (history sha256 calls) call
      rw [history_concat, hrows]
      constructor
      · intro row' hrow'
        rcases List.mem_append.mp hrow' with hold | hnew
        · obtain ⟨row, hrow, rfl⟩ := List.mem_map.mp hold
          obtain ⟨created, future, hissued, hstands⟩ := hsound row hrow
          exact ⟨created, future ++ [call], issued_concat.mpr (.inl ⟨future, rfl, hissued⟩),
            hstands.touched (hf row hrow)⟩
        · have hadded := Option.mem_toList.mp hnew
          obtain ⟨created, hcreated⟩ := added_isSome_iff.mp ⟨row', hadded⟩
          exact ⟨created, [], issued_concat.mpr (.inr ⟨rfl, hcreated⟩),
            stands_of_added hadded hcreated⟩
      · intro created future hissued
        rcases issued_concat.mp hissued with ⟨future', rfl, hissued'⟩ | ⟨rfl, hcreated⟩
        · obtain ⟨row, hrow, hstands⟩ := hcomplete created future' hissued'
          exact ⟨f row, List.mem_append_left _ (List.mem_map_of_mem hrow),
            hstands.touched (hf row hrow)⟩
        · obtain ⟨row, hadded⟩ := added_isSome_iff.mpr ⟨created, hcreated⟩
          exact ⟨row, List.mem_append_right _ (Option.mem_toList.mpr hadded),
            stands_of_added hadded hcreated⟩

/-- A text is verified by the row of the key that it is, and by no other. -/
theorem Stands.verified_iff (h : Stands sha256 created future row)
    (hrow : row ∈ keys.rows) (hsha : Function.Injective sha256) :
    verified sha256 keys raw = some row ↔ raw = created.key := by
  obtain ⟨secret, hne, hkey, hhash⟩ := h.key
  rw [verified_eq_some_iff, and_iff_right hrow]
  constructor
  · rintro ⟨secret', hsplit, hhash'⟩
    have hsecret : secret' = secret := utf8_injective (hsha (hhash'.trans hhash))
    rw [split_key_eq_some hsplit, hkey, hsecret]
  · rintro rfl
    exact ⟨secret, by rw [hkey, split_key_full_key h.dotless h.nonempty hne], hhash.symm⟩

/-- **Exactly one text opens each live key.** After every history, a presented `X-API-Key`
authenticates as an API key if and only if it is the full key that some call has returned,
no later call has revoked that key, and it has not expired; the principal is that of this
key. -/
theorem authenticated_iff (hsha : Function.Injective sha256) (calls : List Call)
    (x_api_key : String) (user : Option Uuid) (now : ℕ) (p : Principal) :
    ((get_principal sha256 (history sha256 calls) (some x_api_key) user now).2 = .ok p ∧
        p.method = "api_key") ↔
      ∃ created future, Issued sha256 calls created future ∧ x_api_key = created.key ∧
        (∀ call ∈ future, ¬ call.Revokes created.organization_id created.id) ∧
        (∀ expires_at, created.expires_at = some expires_at → now < expires_at) ∧
        p = ⟨created.created_by_user_id, some created.organization_id, some created.id,
          created.scopes, "api_key"⟩ := by
  have hexpiry : ∀ row : ApiKey, row.unexpired now = true ↔
      ∀ expires_at, row.expires_at = some expires_at → now < expires_at := by
    intro row
    rw [ApiKey.unexpired]
    cases row.expires_at <;> simp
  obtain ⟨hsound, hcomplete⟩ := stands_of_history sha256 calls
  rw [get_principal_ok_iff]
  constructor
  · rintro ⟨row, hverified, hrevoked, hunexpired, rfl⟩
    have hrow := (verified_eq_some_iff.mp hverified).1
    obtain ⟨created, future, hissued, hstands⟩ := hsound row hrow
    refine ⟨created, future, hissued, (hstands.verified_iff hrow hsha).mp hverified,
      hstands.revoked.mp hrevoked, ?_, hstands.principal⟩
    rw [← hstands.expires_at]
    exact (hexpiry row).mp hunexpired
  · rintro ⟨created, future, hissued, hkey, hrevoked, hunexpired, rfl⟩
    obtain ⟨row, hrow, hstands⟩ := hcomplete created future hissued
    refine ⟨row, (hstands.verified_iff hrow hsha).mpr hkey, hstands.revoked.mpr hrevoked, ?_,
      hstands.principal.symm⟩
    rw [hexpiry, hstands.expires_at]
    exact hunexpired

/-- The user `2` mints a key of the organisation `1` for a day. -/
def mint : Call :=
  .create (.ofNat 1) (.ofNat 2) ⟨"ci-bot", none, some 1, by decide, by simp⟩
    ⟨⟨7, 8⟩, .ofNat 3, 0, 0, false⟩

/-- What the user is given. -/
def minted : ApiKeyCreated :=
  ⟨⟨.ofNat 3, .ofNat 1, .ofNat 2, "ci-bot", newPrefix ⟨7, 8⟩, [], some (timedelta 1), none,
    none, 0⟩, full_key (newPrefix ⟨7, 8⟩) (token_urlsafe 8)⟩

/-- The key opens after the revocation of a key of another organisation with the same id. -/
theorem authenticated_iff_minted :
    (get_principal latin1 (history latin1 [mint, .revoke (.ofNat 4) (.ofNat 3) 10])
        (some minted.key) none 20).2 =
      .ok ⟨.ofNat 2, some (.ofNat 1), some (.ofNat 3), [], "api_key"⟩ := by
  have hissued : Issued latin1 [mint, .revoke (.ofNat 4) (.ofNat 3) 10] minted
      [.revoke (.ofNat 4) (.ofNat 3) 10] := ⟨[], mint, rfl, rfl⟩
  refine ((authenticated_iff latin1_injective _ minted.key none 20 _).mpr
    ⟨minted, _, hissued, rfl, ?_, ?_, rfl⟩).1
  · intro call hcall hrevokes
    obtain rfl := List.mem_singleton.mp hcall
    exact absurd hrevokes.1 (by decide)
  · intro expires_at h
    obtain rfl := Option.some.inj h
    decide

end BackendManager.ApiKeys
