import BackendManager.IdempotencyStore
import BackendManager.Text

/-!
# What the Idempotency Middleware Reads of a Request

The model of the functions of `app/idempotency/middleware.py` between the request and the
store: `_header`, `_caller_scope`, `_fingerprint`, `_buffer_body`, the branches of
`__call__` up to the claim, and the answers `_send_response` and `_send_json` to a claim
that is not owned.

SHA-256 is a parameter; results about it assume that it is injective. Header values are
bytes, which latin-1 decodes one by one, and text is hashed in UTF-8.

A request is what the server passes on: its scope, with method, path and headers, and the
messages of its body, which may not have arrived yet. The body is drained up to the cap; a
request whose body is over the cap makes no claim and is handled as if it had no key. A client
that disconnects ends the body where it is.

## Main results

* `fingerprintText_eq_iff`: which requests are hashed from one text.
* `fingerprint_inj`: on paths without a line feed, fingerprints tell requests apart by
  method, path and body.
* `buffer_body_eq`: a body that is not over the cap is buffered whole.
* `claimOf_eq_some`: what scope, key and fingerprint of a claim are made of.
-/

namespace BackendManager.Idempotency

open Text

/-- Python's `x or y` on `str | None`. -/
def strOr : Option String → Option String → Option String
  | some s, y => if s = "" then y else some s
  | none, y => y

/-! ### The request -/

/-- The ASGI scope of a request. -/
structure Scope where
  type : String
  method : String
  path : String
  /-- The middleware does not read it; handlers do. -/
  query_string : Bytes
  headers : Headers
  /-- The address and the port of the peer. -/
  client : Option (String × ℕ)
deriving DecidableEq

/-- The messages that `receive` yields. -/
inductive RequestMessage
  | request (body : Bytes) (more_body : Bool)
  | disconnect
deriving DecidableEq

/-- A request: its scope and the messages that it is received in. -/
structure HttpRequest where
  scope : Scope
  messages : List RequestMessage
deriving DecidableEq

/-- `_header`: the first header of that name. -/
def header (scope : Scope) (name : Bytes) : Option String :=
  (scope.headers.lookup name).map latin1

/-- The credential headers. -/
inductive CredentialHeader
  | authorization
  | x_api_key
deriving DecidableEq

/-- The name of the header. -/
def CredentialHeader.name : CredentialHeader → Bytes
  | .authorization => bytes "authorization"
  | .x_api_key => bytes "x-api-key"

/-- The value of a credential header. -/
def Scope.value (scope : Scope) (h : CredentialHeader) : Option String := header scope h.name

/-- What stands in for the credential of a request without one. -/
def clientText (scope : Scope) : String :=
  match scope.client with
  | some client => "ip:" ++ client.1
  | none => "anonymous"

/-- The text that `_caller_scope` hashes. -/
def credential (scope : Scope) : String :=
  (strOr (scope.value .authorization) (scope.value .x_api_key)).getD (clientText scope)

/-- `_caller_scope`. -/
def caller_scope (sha256 : Bytes → String) (scope : Scope) : String :=
  sha256 (utf8 (credential scope))

/-- The text that `_fingerprint` hashes: method, space, path, line feed, body. -/
def fingerprintText (scope : Scope) (body : Bytes) : Bytes :=
  utf8 scope.method ++ 32 :: (utf8 scope.path ++ 10 :: body)

/-- `_fingerprint`. -/
def fingerprint (sha256 : Bytes → String) (scope : Scope) (body : Bytes) : String :=
  sha256 (fingerprintText scope body)

/-- `_buffer_body`, from the bytes buffered so far: the body and whether it is over the
cap; `none` while it waits for a message. -/
def buffer_body (max_bytes : ℕ) (body : Bytes) : List RequestMessage → Option (Bytes × Bool)
  | [] => none
  | .request chunk more_body :: rest =>
      if (body ++ chunk).length > max_bytes then some (body ++ chunk, true)
      else if more_body then buffer_body max_bytes (body ++ chunk) rest
      else some (body ++ chunk, false)
  | .disconnect :: _ => some (body, false)

/-- `_MUTATING`. -/
def MUTATING : List String := ["POST", "PUT", "PATCH", "DELETE"]

/-- The claim that `__call__` makes for a request; `none` if the request passes through or
is still being received. -/
def claimOf (sha256 : Bytes → String) (S : Settings) (r : HttpRequest) : Option Request :=
  if r.scope.type ≠ "http" ∨ r.scope.method ∉ MUTATING then none
  else
    (header r.scope (bytes "idempotency-key")).bind fun key =>
      (buffer_body S.max_body_bytes [] r.messages).bind fun
        | (_, true) => none
        | (body, false) =>
            some ⟨caller_scope sha256 r.scope, key, fingerprint sha256 r.scope body⟩

/-- A response: status, headers and body. -/
structure Answer where
  status : ℕ
  headers : Headers
  body : Bytes
deriving DecidableEq

/-- `_send_json`. -/
def send_json (status : ℕ) (detail : String) : Answer :=
  ⟨status, [(bytes "content-type", bytes "application/json")],
    utf8 ("\x7b\"detail\": \"" ++ detail ++ "\"\x7d")⟩

/-- What the middleware sends for a claim that is not owned. -/
def ClaimResult.answer : ClaimResult → Answer
  | .replay cached =>
      ⟨cached.status, cached.headers ++ [(bytes "idempotent-replayed", bytes "true")],
        cached.body⟩
  | .in_progress =>
      send_json 409 "A request with this Idempotency-Key is already in progress"
  | .mismatch => send_json 422 "Idempotency-Key was reused with a different request"

/-! ### Fingerprints -/

/-- No mutating method has a space in it. -/
theorem space_notMem_method {method : String} (h : method ∈ MUTATING) : 32 ∉ utf8 method := by
  simp only [MUTATING, List.mem_cons, List.not_mem_nil, or_false] at h
  rcases h with rfl | rfl | rfl | rfl <;> decide

/-- The path has no line feed in it; a percent-encoded one is decoded by the server. -/
def Scope.OneLine (scope : Scope) : Prop := '\n' ∉ scope.path.toList

/-- The path of the second request goes on, behind that of the first one and a line feed, with
the line that the body of the first request has before that of the second. -/
def Shifted (scope : Scope) (body : Bytes) (scope' : Scope) (body' : Bytes) : Prop :=
  ∃ line : String, scope'.path = scope.path ++ "\n" ++ line ∧ body = utf8 line ++ 10 :: body'

/-- A line feed is one byte. -/
theorem utf8_newline : utf8 "\n" = [10] := by decide

/-- And no other character has that byte in its encoding. -/
theorem newline_notMem_utf8 {text : String} (h : '\n' ∉ text.toList) : 10 ∉ utf8 text := by
  intro hmem
  obtain ⟨c, hc, hn⟩ := exists_of_mem_utf8 (by decide) hmem
  have hlf : c = '\n' := Char.toNat_inj.mp hn
  exact h (hlf ▸ hc)

/-- The bytes of two lines. -/
theorem utf8_append_newline (path line : String) :
    utf8 (path ++ "\n" ++ line) = utf8 path ++ 10 :: utf8 line := by
  rw [utf8_append, utf8_append, utf8_newline, List.append_assoc, List.singleton_append]

/-- What is moved between path and body is a text, as it is part of a path. -/
theorem shifted_of_utf8 {scope scope' : Scope} {body body' moved : Bytes}
    (hpath : utf8 scope'.path = utf8 scope.path ++ 10 :: moved)
    (hbody : body = moved ++ 10 :: body') : Shifted scope body scope' body' := by
  obtain ⟨rest, hrest, hmoved⟩ := exists_of_utf8_append hpath.symm
  rw [← List.singleton_append, ← utf8_newline] at hmoved
  obtain ⟨line, rfl, rfl⟩ := exists_of_utf8_append hmoved
  exact ⟨line, by rw [hrest, String.append_assoc], hbody⟩

/-- A line that is shifted from the path to the body, or back, leaves the text that is hashed. -/
theorem Shifted.fingerprintText_eq {scope scope' : Scope} {body body' : Bytes}
    (h : Shifted scope body scope' body') (hmethod : scope.method = scope'.method) :
    fingerprintText scope body = fingerprintText scope' body' := by
  obtain ⟨line, hpath, rfl⟩ := h
  rw [fingerprintText, fingerprintText, hmethod, hpath, utf8_append_newline, List.append_assoc,
    List.cons_append]

/-- Which requests are hashed from one text. -/
theorem fingerprintText_eq_iff {scope scope' : Scope} {body body' : Bytes}
    (hm : scope.method ∈ MUTATING) (hm' : scope'.method ∈ MUTATING) :
    fingerprintText scope body = fingerprintText scope' body' ↔
      scope.method = scope'.method ∧ (scope.path = scope'.path ∧ body = body' ∨
        Shifted scope body scope' body' ∨ Shifted scope' body' scope body) := by
  constructor
  · intro h
    obtain ⟨hmethod, hrest⟩ :=
      append_cons_inj (space_notMem_method hm) (space_notMem_method hm') h
    refine ⟨utf8_injective hmethod, ?_⟩
    rcases append_cons_eq_iff.mp hrest with ⟨hpath, hbody⟩ | ⟨m, hpath, hbody⟩ | ⟨m, hpath, hbody⟩
    · exact .inl ⟨utf8_injective hpath, hbody⟩
    · exact .inr (.inl (shifted_of_utf8 hpath hbody))
    · exact .inr (.inr (shifted_of_utf8 hpath hbody))
  · rintro ⟨hmethod, ⟨hpath, rfl⟩ | hshift | hshift⟩
    · rw [fingerprintText, fingerprintText, hmethod, hpath]
    · exact hshift.fingerprintText_eq hmethod
    · exact (hshift.fingerprintText_eq hmethod.symm).symm

/-- Into a path of one line nothing can be shifted. -/
theorem Scope.OneLine.not_shifted {scope scope' : Scope} {body body' : Bytes}
    (h : scope'.OneLine) : ¬ Shifted scope body scope' body' := by
  rintro ⟨line, hpath, -⟩
  exact h (by simp [hpath])

/-- **What a fingerprint fixes**: on paths without a line feed, the method, the path and the
body. -/
theorem fingerprint_inj {sha256 : Bytes → String} (hsha : Function.Injective sha256)
    {scope scope' : Scope} {body body' : Bytes} (hm : scope.method ∈ MUTATING)
    (hm' : scope'.method ∈ MUTATING) (hp : scope.OneLine) (hp' : scope'.OneLine) :
    fingerprint sha256 scope body = fingerprint sha256 scope' body' ↔
      scope.method = scope'.method ∧ scope.path = scope'.path ∧ body = body' := by
  rw [fingerprint, fingerprint, hsha.eq_iff, fingerprintText_eq_iff hm hm']
  refine and_congr_right fun _ => or_iff_left ?_
  rintro (hshift | hshift)
  · exact hp'.not_shifted hshift
  · exact hp.not_shifted hshift

/-! ### Bodies -/

/-- The body that the messages carry, up to the one that says that no more follow. -/
def received : List RequestMessage → Bytes
  | .request chunk true :: rest => chunk ++ received rest
  | .request chunk false :: _ => chunk
  | .disconnect :: _ | [] => []

/-- A body that is not over the cap is buffered whole. -/
theorem buffer_body_eq {max_bytes : ℕ} {messages : List RequestMessage} {acc body : Bytes}
    (h : buffer_body max_bytes acc messages = some (body, false)) :
    body = acc ++ received messages := by
  induction messages generalizing acc with
  | nil => cases h
  | cons m rest ih =>
      cases m with
      | disconnect =>
          obtain ⟨rfl, -⟩ := Prod.mk.inj (Option.some.inj h)
          exact (List.append_nil _).symm
      | request chunk more_body =>
          rw [buffer_body] at h
          split at h
          · cases (Prod.mk.inj (Option.some.inj h)).2
          · cases more_body with
            | true =>
                have hbody := ih (by simpa using h)
                rw [hbody, received, List.append_assoc]
            | false =>
                have hbody : acc ++ chunk = body := by simpa using h
                exact hbody.symm

/-- What a claim is made of. -/
theorem claimOf_eq_some {sha256 : Bytes → String} {S : Settings} {r : HttpRequest}
    {req : Request} (h : claimOf sha256 S r = some req) :
    r.scope.method ∈ MUTATING ∧ req.scope = caller_scope sha256 r.scope ∧
      header r.scope (bytes "idempotency-key") = some req.key ∧
      req.request_hash = fingerprint sha256 r.scope (received r.messages) := by
  rw [claimOf] at h
  split at h
  · cases h
  · rename_i hmutating
    obtain ⟨key, hkey, h⟩ := Option.bind_eq_some_iff.mp h
    obtain ⟨⟨body, exceeded⟩, hbody, h⟩ := Option.bind_eq_some_iff.mp h
    cases exceeded with
    | true => cases h
    | false =>
        obtain rfl := Option.some.inj h
        have hreceived : body = received r.messages := buffer_body_eq hbody
        exact ⟨of_not_not fun hm => hmutating (.inr hm), rfl, hkey, by rw [hreceived]⟩

end BackendManager.Idempotency
