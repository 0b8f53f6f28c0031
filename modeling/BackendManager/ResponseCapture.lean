import Mathlib.Data.List.Infix

/-!
# The Response Capture of the Idempotency Middleware

The model of `_ResponseCapture` in `app/idempotency/middleware.py`, which records the
response of an owned handler while it streams past, and of the header filter of
`app/idempotency/store.py`.

A handler run is the list of the messages it has sent, oldest first, and what the
middleware has captured is a fold over that list. `Delivered` says of such a list that it
is a complete response that the middleware may cache; it speaks about the messages alone.

The body is captured up to the configured length; beyond it the response is marked as too big
and nothing more of it is recorded. A status from 500 on marks it as a failure; in both cases
nothing is stored, and the claim is released when the handler has ended. What the handler sends
is passed on to the server in any case: the capture decides about the copy, not about the
response.

## Main results

* `capture_bodies`: the capture of a start and any chunks that fit is their concatenation.
* `capture_of_delivered`: the capture of a complete cacheable response has its status,
  its headers and its body, and is neither too big nor a server error.
-/

namespace BackendManager.Idempotency

/-- Python `bytes`. -/
abbrev Bytes := List UInt8

/-- A bytes literal with ASCII characters. -/
def bytes (s : String) : Bytes := s.toList.map fun c => UInt8.ofNat c.toNat

/-- A header list. -/
abbrev Headers := List (Bytes × Bytes)

/-- The ASGI messages that a response consists of; any other message is only forwarded. -/
inductive Message
  | start (status : ℕ) (headers : Headers)
  | body (body : Bytes) (more_body : Bool)
  | other (type : String)
deriving DecidableEq

/-- The state of a `_ResponseCapture`. -/
structure ResponseCapture where
  status : ℕ
  headers : Headers
  body : Bytes
  too_big : Bool
deriving DecidableEq

namespace ResponseCapture

/-- `__init__`. -/
def init : ResponseCapture := ⟨500, [], [], false⟩

/-- `send`, as far as it records; the message is forwarded in any case. -/
def send (max_body_bytes : ℕ) (c : ResponseCapture) : Message → ResponseCapture
  | .start status headers => { c with status, headers }
  | .body body _ =>
      if c.too_big then c
      else
        let body := c.body ++ body
        { c with body, too_big := decide (body.length > max_body_bytes) }
  | .other _ => c

end ResponseCapture

/-- What the middleware has captured of a run that has sent these messages. -/
def capture (max_body_bytes : ℕ) (sent : List Message) : ResponseCapture :=
  sent.foldl (ResponseCapture.send max_body_bytes) .init

/-- The answer is not final, so that the claim is released: too big, or a server error. -/
def ResponseCapture.discarded (c : ResponseCapture) : Bool := c.too_big ∨ c.status ≥ 500

/-- The rest of a response after its start is complete: body chunks, the last of which
says that no more follow. -/
def bodyComplete : List Message → Bool
  | [.body _ false] => true
  | .body _ true :: rest => bodyComplete rest
  | _ => false

/-- The body that the chunks make up. -/
def bodyOf : List Message → Bytes
  | .body body _ :: rest => body ++ bodyOf rest
  | _ => []

/-- The messages sent so far are a complete response with a status below 500 and a body
within the limit. -/
def Delivered (max_body_bytes : ℕ) : List Message → Bool
  | .start status _ :: rest =>
      status < 500 ∧ bodyComplete rest ∧ (bodyOf rest).length ≤ max_body_bytes
  | _ => false

/-- The body messages that a list of chunks is sent as. -/
def bodies (chunks : List (Bytes × Bool)) : List Message :=
  chunks.map fun chunk => .body chunk.1 chunk.2

/-- Folding chunks appends them, as long as they fit. -/
theorem foldl_send_bodies {max_body_bytes : ℕ} {chunks : List (Bytes × Bool)} {c : ResponseCapture}
    (hbig : c.too_big = false)
    (hlen : (c.body ++ (chunks.map Prod.fst).flatten).length ≤ max_body_bytes) :
    (bodies chunks).foldl (ResponseCapture.send max_body_bytes) c =
      { c with body := c.body ++ (chunks.map Prod.fst).flatten } := by
  induction chunks generalizing c with
  | nil => simp [bodies]
  | cons chunk chunks ih =>
      obtain ⟨b, more⟩ := chunk
      have hle : (c.body ++ b).length ≤ max_body_bytes := by
        simp only [List.map_cons, List.flatten_cons, List.length_append] at hlen ⊢
        omega
      have hsend : ResponseCapture.send max_body_bytes c (.body b more) =
          { c with body := c.body ++ b } := by
        simp only [ResponseCapture.send, hbig, Bool.false_eq_true, if_false]
        congr
        simpa using hle
      have hlen' : ((c.body ++ b) ++ (chunks.map Prod.fst).flatten).length ≤ max_body_bytes := by
        simpa [Nat.add_assoc] using hlen
      have hfold := ih (c := { c with body := c.body ++ b }) hbig hlen'
      rw [bodies] at hfold ⊢
      rw [List.map_cons, List.foldl_cons, hsend, hfold]
      simp [List.append_assoc]

/-- A response of a start and any chunks that fit is captured with all of them. -/
theorem capture_bodies {max_body_bytes status : ℕ} {headers : Headers}
    {chunks : List (Bytes × Bool)}
    (hlen : (chunks.map Prod.fst).flatten.length ≤ max_body_bytes) :
    capture max_body_bytes (.start status headers :: bodies chunks) =
      ⟨status, headers, (chunks.map Prod.fst).flatten, false⟩ := by
  rw [capture, List.foldl_cons, foldl_send_bodies rfl]
  · rfl
  · simpa [ResponseCapture.send, ResponseCapture.init] using hlen

/-- A complete body is a list of chunks. -/
theorem exists_bodies_of_bodyComplete : ∀ {rest : List Message}, bodyComplete rest = true →
    ∃ chunks, rest = bodies chunks ∧ bodyOf rest = (chunks.map Prod.fst).flatten
  | [], h => by cases h
  | .start _ _ :: rest, h => by cases rest <;> cases h
  | .other _ :: rest, h => by cases rest <;> cases h
  | [.body b false], _ => ⟨[(b, false)], rfl, by simp [bodyOf]⟩
  | .body _ false :: _ :: _, h => by cases h
  | .body b true :: rest, h => by
      have hrest : bodyComplete rest = true := by simpa [bodyComplete] using h
      obtain ⟨chunks, rfl, hbody⟩ := exists_bodies_of_bodyComplete hrest
      exact ⟨(b, true) :: chunks, rfl, by simp [bodyOf, hbody]⟩

/-- **A complete cacheable response is captured as it is**, and is not discarded. -/
theorem capture_of_delivered {max_body_bytes status : ℕ} {headers : Headers}
    {rest : List Message} (h : Delivered max_body_bytes (.start status headers :: rest) = true) :
    capture max_body_bytes (.start status headers :: rest) =
      ⟨status, headers, bodyOf rest, false⟩ := by
  simp only [Delivered, decide_eq_true_eq] at h
  obtain ⟨-, hcomplete, hlen⟩ := h
  obtain ⟨chunks, rfl, hbody⟩ := exists_bodies_of_bodyComplete hcomplete
  rw [hbody] at hlen ⊢
  exact capture_bodies hlen

/-- A complete cacheable response is not discarded. -/
theorem not_discarded_of_delivered {max_body_bytes : ℕ} {sent : List Message}
    (h : Delivered max_body_bytes sent = true) :
    (capture max_body_bytes sent).discarded = false := by
  cases sent with
  | nil => cases h
  | cons m rest =>
      cases m with
      | body _ _ | other _ => cases h
      | start status headers =>
          rw [capture_of_delivered h]
          simp only [Delivered, decide_eq_true_eq] at h
          have hstatus := h.1
          simp only [ResponseCapture.discarded, Bool.false_eq_true, false_or, ge_iff_le,
            decide_eq_false_iff_not]
          omega

/-- Among the messages sent so far there is, at the front, a complete cacheable response. -/
def Answered (max_body_bytes : ℕ) (sent : List Message) : Bool :=
  sent.inits.any (Delivered max_body_bytes)

theorem answered_of_delivered {max_body_bytes : ℕ} {sent : List Message}
    (h : Delivered max_body_bytes sent = true) : Answered max_body_bytes sent = true :=
  List.any_eq_true.mpr ⟨sent, (List.mem_inits _ _).mpr (List.prefix_refl sent), h⟩

/-- What has been answered stays answered. -/
theorem answered_append {max_body_bytes : ℕ} {sent : List Message}
    (h : Answered max_body_bytes sent = true) (more : List Message) :
    Answered max_body_bytes (sent ++ more) = true := by
  obtain ⟨front, hfront, hdelivered⟩ := List.any_eq_true.mp h
  have hle := ((List.mem_inits _ _).mp hfront).trans (List.prefix_append sent more)
  exact List.any_eq_true.mpr ⟨front, (List.mem_inits _ _).mpr hle, hdelivered⟩

end BackendManager.Idempotency
