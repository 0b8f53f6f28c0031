import BackendManager.Outbox
import BackendManager.Text
import BackendManager.UniqueRows

/-!
# API Keys

The model of `app/api_keys`: `generate_key`, `split_key`, `hash_secret` and `verify_secret` of
`security.py`, `create_api_key` and `revoke_api_key` of the router, and `get_principal`.

A key is shown once, when it is created; the table holds its public part and the digest of its
secret. `get_principal` prefers the key over the session: a key that is presented and does not
authenticate is answered with `401` even if the request has a valid session. An authentication
notes the time of the last use, which is the only column that it writes.

## Statement convention

* A call is one step: each of these functions ends with its only COMMIT. The clock, the random
  bytes and the id that a call uses are arguments, and so is whether the database refuses the
  new row for a reason other than its unique columns.
* Times are microseconds, counted from the least `datetime`.
* SHA-256 is a parameter, from bytes to its hexadecimal digest.

## Main results

* `split_key_full_key`, `split_key_eq_some`: the full key is the one text that is split into
  its parts.
* `get_principal_ok_iff`: which rows authenticate a presented key.
-/

namespace BackendManager.ApiKeys

open Text UniqueRows

/-! ### `security.py` -/

/-- `BRAND`. -/
def BRAND : String := "wsk"

/-- The alphabet of `base64.urlsafe_b64encode`. -/
def urlsafeAlphabet : List Char :=
  "ABCDEFGHIJKLMNOPQRSTUVWXYZabcdefghijklmnopqrstuvwxyz0123456789-_".toList

/-- The `w` low digits of `n` to the base 64, most significant first. -/
def urlsafeDigits : ℕ → ℕ → List Char
  | 0, _ => []
  | w + 1, n => urlsafeDigits w (n / 64) ++ [urlsafeAlphabet.getD (n % 64) 'A']

/-- `secrets.token_hex(4)` on these random bytes. -/
def token_hex (random : Fin (2 ^ 32)) : String := String.ofList (Uuid.hexDigits 8 random)

/-- `secrets.token_urlsafe(32)` on these random bytes: the 256 bits are filled up with two
zeros, and there is no padding. -/
def token_urlsafe (random : Fin (2 ^ 256)) : String :=
  String.ofList (urlsafeDigits 43 (4 * random))

/-- The random bytes of one `generate_key` call. -/
structure Random where
  lookup : Fin (2 ^ 32)
  secret : Fin (2 ^ 256)
deriving DecidableEq

/-- `hash_secret`. -/
def hash_secret (sha256 : List UInt8 → String) (secret : String) : String :=
  sha256 (utf8 secret)

/-- The public part of a new key. -/
def newPrefix (random : Random) : String := BRAND ++ "_" ++ token_hex random.lookup

/-- The full key of these parts. -/
def full_key (prefix_ secret : String) : String := prefix_ ++ "." ++ secret

/-- `generate_key`: the full key, its public part and the hash of its secret. -/
def generate_key (sha256 : List UInt8 → String) (random : Random) : String × String × String :=
  let secret := token_urlsafe random.secret
  (full_key (newPrefix random) secret, newPrefix random, hash_secret sha256 secret)

/-- `raw.partition(".")`, if there is a dot. -/
def partition (raw : String) : Option (String × String) :=
  match raw.toList.dropWhile (· ≠ '.') with
  | [] => none
  | _ :: rest => some (String.ofList (raw.toList.takeWhile (· ≠ '.')), String.ofList rest)

/-- `split_key`. -/
def split_key (raw : String) : Option (String × String) :=
  (partition raw).filter fun parts => parts.1 ≠ "" ∧ parts.2 ≠ ""

/-- `verify_secret`. -/
def verify_secret (sha256 : List UInt8 → String) (secret hashed : String) : Bool :=
  hash_secret sha256 secret = hashed

/-! ### The table -/

/-- A row of `api_keys`. -/
structure ApiKey where
  id : Uuid
  organization_id : Uuid
  created_by_user_id : Uuid
  name : String
  prefix_ : String
  hashed_secret : String
  scopes : Option String
  expires_at : Option ℕ
  last_used_at : Option ℕ
  revoked_at : Option ℕ
  created_at : ℕ
deriving DecidableEq

/-- The table `api_keys`; `id` is the primary key, and `prefix` is unique. -/
structure Keys where
  rows : List ApiKey
  ids : Unique (fun row => some (ApiKey.id row)) rows
  prefixes : Unique (fun row => some (ApiKey.prefix_ row)) rows

namespace Keys

/-- The table without rows. -/
def empty : Keys := ⟨[], .nil, .nil⟩

/-- `SELECT ... WHERE prefix = :prefix`. -/
def selectPrefix (keys : Keys) (prefix_ : String) : Option ApiKey :=
  find ApiKey.prefix_ prefix_ keys.rows

/-- `SELECT ... WHERE id = :key_id AND organization_id = :org_id`. -/
def selectId (keys : Keys) (key_id org_id : Uuid) : Option ApiKey :=
  keys.rows.find? fun row => row.id = key_id ∧ row.organization_id = org_id

/-- INSERT; `none` is an `IntegrityError`. -/
def insert (keys : Keys) (row : ApiKey) : Option Keys :=
  if h : find ApiKey.id row.id keys.rows = none ∧
      find ApiKey.prefix_ row.prefix_ keys.rows = none then
    some ⟨keys.rows ++ [row], keys.ids.concat h.1, keys.prefixes.concat h.2⟩
  else none

/-- The row with new values of `revoked_at` and `last_used_at`, if it has this id. -/
def changed (id : Uuid) (revoked_at last_used_at : ApiKey → Option ℕ) (row : ApiKey) : ApiKey :=
  if row.id = id then
    { row with revoked_at := revoked_at row, last_used_at := last_used_at row }
  else row

/-- The statements that change a row leave its id. -/
theorem id_changed (id : Uuid) (f g : ApiKey → Option ℕ) (row : ApiKey) :
    (changed id f g row).id = row.id := by
  rw [changed]
  split <;> rfl

/-- And its public part, by which it is looked up. -/
theorem prefix_changed (id : Uuid) (f g : ApiKey → Option ℕ) (row : ApiKey) :
    (changed id f g row).prefix_ = row.prefix_ := by
  rw [changed]
  split <;> rfl

/-- UPDATE of `revoked_at` and `last_used_at` in the row with this id. -/
def update (keys : Keys) (id : Uuid) (revoked_at last_used_at : ApiKey → Option ℕ) : Keys where
  rows := keys.rows.map (changed id revoked_at last_used_at)
  ids := keys.ids.map fun row => by rw [id_changed]
  prefixes := keys.prefixes.map fun row => by rw [prefix_changed]

end Keys

/-! ### The router -/

/-- `ApiKeyCreate`. -/
structure ApiKeyCreate where
  name : String
  scopes : Option (List String)
  expires_in_days : Option ℕ
  name_length : 1 ≤ name.length ∧ name.length ≤ 255
  days : ∀ d, expires_in_days = some d → 1 ≤ d ∧ d ≤ 3650

/-- `ApiKeyRead`. -/
structure ApiKeyRead where
  id : Uuid
  organization_id : Uuid
  created_by_user_id : Uuid
  name : String
  prefix_ : String
  scopes : List String
  expires_at : Option ℕ
  last_used_at : Option ℕ
  revoked_at : Option ℕ
  created_at : ℕ
deriving DecidableEq

/-- `ApiKeyCreated`. -/
structure ApiKeyCreated extends ApiKeyRead where
  key : String
deriving DecidableEq

/-- What one `create_api_key` call takes from outside. -/
structure Minting where
  random : Random
  /-- `uuid.uuid4()`. -/
  id : Uuid
  /-- `utcnow()`. -/
  now : ℕ
  /-- `now()` of the database. -/
  created_at : ℕ
  /-- The database refuses the row. -/
  refused : Bool
deriving DecidableEq

/-- `api_key.scopes.split() if api_key.scopes else []`. -/
def splitScopes : Option String → List String
  | some scopes => if scopes = "" then [] else Webhooks.split scopes
  | none => []

/-- `" ".join(payload.scopes) if payload.scopes else None`. -/
def joinScopes : Option (List String) → Option String
  | some (scope :: scopes) => some (" ".intercalate (scope :: scopes))
  | _ => none

/-- `timedelta(days=days)` in microseconds. -/
def timedelta (days : ℕ) : ℕ := days * 86400000000

/-- `_to_read`. -/
def to_read (api_key : ApiKey) : ApiKeyRead where
  id := api_key.id
  organization_id := api_key.organization_id
  created_by_user_id := api_key.created_by_user_id
  name := api_key.name
  prefix_ := api_key.prefix_
  scopes := splitScopes api_key.scopes
  expires_at := api_key.expires_at
  last_used_at := api_key.last_used_at
  revoked_at := api_key.revoked_at
  created_at := api_key.created_at

/-- The row of `create_api_key`, called by the member `user_id` of the organisation. -/
def newRow (sha256 : List UInt8 → String) (org_id user_id : Uuid) (payload : ApiKeyCreate)
    (m : Minting) : ApiKey where
  id := m.id
  organization_id := org_id
  created_by_user_id := user_id
  name := payload.name
  prefix_ := (generate_key sha256 m.random).2.1
  hashed_secret := (generate_key sha256 m.random).2.2
  scopes := joinScopes payload.scopes
  expires_at := payload.expires_in_days.map fun days => m.now + timedelta days
  last_used_at := none
  revoked_at := none
  created_at := m.created_at

/-- `create_api_key`; without an answer the call has ended with an exception. -/
def create_api_key (sha256 : List UInt8 → String) (keys : Keys) (org_id user_id : Uuid)
    (payload : ApiKeyCreate) (m : Minting) : Keys × Option ApiKeyCreated :=
  let api_key := newRow sha256 org_id user_id payload m
  match if m.refused then none else keys.insert api_key with
  | some keys => (keys, some ⟨to_read api_key, (generate_key sha256 m.random).1⟩)
  | none => (keys, none)

/-- An error response. -/
structure HTTPException where
  status_code : ℕ
  detail : String
  headers : List (String × String)
deriving DecidableEq

/-- `revoke_api_key`. -/
def revoke_api_key (keys : Keys) (org_id key_id : Uuid) (now : ℕ) :
    Keys × Except HTTPException Unit :=
  match keys.selectId key_id org_id with
  | none => (keys, .error ⟨404, "API key not found", []⟩)
  | some api_key =>
      (keys.update api_key.id (fun _ => some now) ApiKey.last_used_at, .ok ())

/-! ### `get_principal` -/

/-- `Principal`. -/
structure Principal where
  user_id : Uuid
  organization_id : Option Uuid
  api_key_id : Option Uuid
  scopes : List String
  method : String
deriving DecidableEq

/-- `_unauthorized`. -/
def unauthorized : HTTPException :=
  ⟨401, "Not authenticated", [("WWW-Authenticate", "Bearer")]⟩

/-- The row under a presented key, if the secret is right. -/
def verified (sha256 : List UInt8 → String) (keys : Keys) (x_api_key : String) :
    Option ApiKey :=
  (split_key x_api_key).bind fun (prefix_, secret) =>
    (keys.selectPrefix prefix_).filter fun api_key =>
      verify_secret sha256 secret api_key.hashed_secret

/-- The row has not expired. -/
def ApiKey.unexpired (api_key : ApiKey) (now : ℕ) : Bool :=
  api_key.expires_at.all fun expires_at => now < expires_at

/-- The principal of a key. -/
def ApiKey.principal (api_key : ApiKey) : Principal where
  user_id := api_key.created_by_user_id
  organization_id := some api_key.organization_id
  api_key_id := some api_key.id
  scopes := splitScopes api_key.scopes
  method := "api_key"

/-- `get_principal`; `user` is the id of the user of a valid JWT. -/
def get_principal (sha256 : List UInt8 → String) (keys : Keys) (x_api_key : Option String)
    (user : Option Uuid) (now : ℕ) : Keys × Except HTTPException Principal :=
  match x_api_key.filter (· ≠ "") with
  | some x_api_key =>
      match verified sha256 keys x_api_key with
      | none => (keys, .error unauthorized)
      | some api_key =>
          if api_key.revoked_at ≠ none then (keys, .error unauthorized)
          else if !api_key.unexpired now then (keys, .error unauthorized)
          else
            (keys.update api_key.id ApiKey.revoked_at (fun _ => some now),
              .ok api_key.principal)
  | none =>
      match user with
      | some user_id => (keys, .ok ⟨user_id, none, none, [], "jwt"⟩)
      | none => (keys, .error unauthorized)

/-! ### Keys are split where they were joined -/

variable {sha256 : List UInt8 → String} {keys : Keys} {raw prefix_ secret : String}
  {row api_key : ApiKey} {p : Principal} {user : Option Uuid} {now : ℕ}

/-- A full key is the public part and the secret, with a dot between them. -/
theorem toList_full_key (prefix_ secret : String) :
    (full_key prefix_ secret).toList = prefix_.toList ++ '.' :: secret.toList := by
  rw [full_key, String.toList_append, String.toList_append, List.append_assoc]
  rfl

/-- A full key is split into its parts, whether or not the secret contains a dot. -/
theorem split_key_full_key (hdot : '.' ∉ prefix_.toList) (hp : prefix_ ≠ "")
    (hs : secret ≠ "") : split_key (full_key prefix_ secret) = some (prefix_, secret) := by
  have hkeep : ∀ c ∈ prefix_.toList, decide (c ≠ '.') = true := by
    intro c hc
    exact decide_eq_true fun h => hdot (h ▸ hc)
  have hdrop : (full_key prefix_ secret).toList.dropWhile (· ≠ '.') = '.' :: secret.toList := by
    rw [toList_full_key, List.dropWhile_append_of_pos hkeep]
    rfl
  have htake : (full_key prefix_ secret).toList.takeWhile (· ≠ '.') = prefix_.toList := by
    rw [toList_full_key, List.takeWhile_append_of_pos hkeep]
    simp
  rw [split_key, partition, hdrop, htake]
  simp [hp, hs]

/-- What is split into two parts is the full key of these parts. -/
theorem split_key_eq_some (h : split_key raw = some (prefix_, secret)) :
    raw = full_key prefix_ secret := by
  obtain ⟨hparts, -⟩ := Option.filter_eq_some_iff.mp h
  rw [partition] at hparts
  split at hparts
  · cases hparts
  · rename_i c rest hdrop
    obtain ⟨rfl, rfl⟩ := Prod.mk.inj (Option.some.inj hparts)
    obtain rfl : c = '.' := by
      have hhead := List.head?_dropWhile_not (· ≠ '.') raw.toList
      rw [hdrop, List.head?_cons] at hhead
      simpa using hhead
    rw [← String.toList_inj, toList_full_key, String.toList_ofList, String.toList_ofList, ← hdrop,
      List.takeWhile_append_dropWhile]

/-- There is no dot among hexadecimal digits, so that the first dot of a key is the separator. -/
theorem notMem_hexDigits (w n : ℕ) : '.' ∉ Uuid.hexDigits w n := by
  induction w generalizing n with
  | zero => exact List.not_mem_nil
  | succ w ih =>
      have hdigit : ∀ i < 16, '.' ≠ Nat.digitChar i := by decide
      rw [Uuid.hexDigits, List.mem_append, List.mem_singleton, not_or]
      exact ⟨ih _, hdigit _ (Nat.mod_lt _ (by decide))⟩

/-- The public part of a new key has no dot. -/
theorem notMem_newPrefix (random : Random) : '.' ∉ (newPrefix random).toList := by
  have hbrand : '.' ∉ (BRAND ++ "_").toList := by decide
  rw [newPrefix, String.toList_append, List.mem_append, token_hex, String.toList_ofList, not_or]
  exact ⟨hbrand, notMem_hexDigits _ _⟩

/-- The public part of a new key is not empty. -/
theorem newPrefix_ne_empty (random : Random) : newPrefix random ≠ "" := by
  intro h
  have hlength := congrArg String.length h
  rw [newPrefix, String.length_append] at hlength
  have hbrand : (BRAND ++ "_").length = 4 := by decide
  rw [hbrand, String.length_empty] at hlength
  omega

/-- A secret has as many digits as it was asked for. -/
theorem length_urlsafeDigits (w n : ℕ) : (urlsafeDigits w n).length = w := by
  induction w generalizing n with
  | zero => rfl
  | succ w ih => rw [urlsafeDigits, List.length_append, ih, List.length_singleton]

/-- So that it is not empty either. -/
theorem token_urlsafe_ne_empty (random : Fin (2 ^ 256)) : token_urlsafe random ≠ "" := by
  intro h
  have hlength := congrArg (List.length ∘ String.toList) h
  rw [Function.comp_apply, token_urlsafe, String.toList_ofList, length_urlsafeDigits] at hlength
  cases hlength

/-! ### Which rows authenticate a key -/

/-- A look-up by the public part finds the row that has it: these are unique. -/
theorem selectPrefix_eq_some_iff :
    keys.selectPrefix prefix_ = some row ↔ row ∈ keys.rows ∧ row.prefix_ = prefix_ :=
  keys.prefixes.find_eq_some_iff

/-- A look-up by id finds a row of that id in that organisation. -/
theorem selectId_eq_some {key_id org_id : Uuid} (h : keys.selectId key_id org_id = some row) :
    row ∈ keys.rows ∧ row.id = key_id ∧ row.organization_id = org_id := by
  have hrow := List.find?_some h
  exact ⟨List.mem_of_find?_eq_some h, of_decide_eq_true hrow⟩

/-- A presented text is verified against a row exactly if it splits into the row's public part and
a secret with the stored digest. -/
theorem verified_eq_some_iff :
    verified sha256 keys raw = some api_key ↔ api_key ∈ keys.rows ∧ ∃ secret,
      split_key raw = some (api_key.prefix_, secret) ∧
        hash_secret sha256 secret = api_key.hashed_secret := by
  rw [verified, Option.bind_eq_some_iff]
  constructor
  · rintro ⟨⟨prefix_, secret⟩, hsplit, hrow⟩
    obtain ⟨hrow, hsecret⟩ := Option.filter_eq_some_iff.mp hrow
    obtain ⟨hmem, rfl⟩ := selectPrefix_eq_some_iff.mp hrow
    exact ⟨hmem, secret, hsplit, of_decide_eq_true hsecret⟩
  · rintro ⟨hmem, secret, hsplit, hsecret⟩
    exact ⟨_, hsplit, Option.filter_eq_some_iff.mpr
      ⟨selectPrefix_eq_some_iff.mpr ⟨hmem, rfl⟩, decide_eq_true hsecret⟩⟩

/-- **A presented key authenticates** if and only if it is verified by a row that is neither
revoked nor expired, and the principal is that of the row. -/
theorem get_principal_ok_iff :
    ((get_principal sha256 keys (some raw) user now).2 = .ok p ∧ p.method = "api_key") ↔
      ∃ api_key, verified sha256 keys raw = some api_key ∧ api_key.revoked_at = none ∧
        api_key.unexpired now = true ∧ p = api_key.principal := by
  by_cases hraw : raw = ""
  · subst hraw
    have hnone : verified sha256 keys "" = none := rfl
    simp only [hnone, reduceCtorEq, false_and, exists_false, iff_false]
    cases user with
    | none =>
        rintro ⟨h, -⟩
        cases h
    | some user_id =>
        rintro ⟨h, hm⟩
        obtain rfl := Except.ok.inj h
        exact absurd (show "jwt" = "api_key" from hm) (by decide)
  · have hsome : (some raw).filter (fun s => decide (s ≠ "")) = some raw := by simp [hraw]
    unfold get_principal
    rw [hsome]
    cases hv : verified sha256 keys raw with
    | none =>
        simp only [hv, reduceCtorEq, false_and, exists_false]
    | some api_key =>
        simp only [hv, Option.some.injEq, exists_eq_left']
        by_cases hrevoked : api_key.revoked_at = none
        · by_cases hexpired : api_key.unexpired now = true
          · simp only [hrevoked, hexpired, ne_eq, not_true_eq_false, if_false, Bool.not_true,
              Bool.false_eq_true, true_and, Except.ok.injEq]
            constructor
            · rintro ⟨rfl, -⟩
              rfl
            · rintro rfl
              exact ⟨rfl, rfl⟩
          · simp [hrevoked, hexpired]
        · simp [hrevoked]

end BackendManager.ApiKeys
