import BackendManager.HttpRequest
import BackendManager.Pull

/-!
# What the Application Receives

The middleware drains the body of a keyed request before it hands the request on, and gives
the application a `receive` of its own. The model of `_buffer_body` with the messages it keeps,
of `_replayer` and `_chain_replayer`, and of the choice between them in `__call__`.

The events of the server are a list, at the end of which `receive` waits; of an infinite
sequence, the list is the part that is looked at. Both of the middleware's functions are
`Pull.prepend` of the buffered messages, before different sources: `_chain_replayer` goes on
with the server's `receive`, `_replayer` with empty bodies.

## Main results

* `receive_observes`: on the over-size path the application observes the events of the
  server and nothing else; on the owned path it observes them up to the end of the body, and
  from there on empty bodies.
* `claimOf_of_replayer`: only the handler of a request that has made a claim is given the
  replayer.
* `disconnect_unseen`: a handler that waits for a disconnect after the body is not told.
-/

namespace BackendManager.Idempotency

open Pull

variable {S : Settings} {scope : Scope} {owned : Bool} {max_bytes n : ℕ} {body : Bytes}
  {messages upstream : List RequestMessage}

/-- The outcome of `_buffer_body`: the body, the messages, whether the cap is exceeded, and
the events that have not been received. -/
structure Buffered where
  body : Bytes
  messages : List RequestMessage
  exceeded : Bool
  rest : List RequestMessage
deriving DecidableEq

/-- `_buffer_body`, from the body and the messages so far; `none` while it waits. -/
def buffer_messages (max_bytes : ℕ) (body : Bytes) (messages : List RequestMessage) :
    List RequestMessage → Option Buffered
  | [] => none
  | .request chunk more_body :: rest =>
      if (body ++ chunk).length > max_bytes then
        some ⟨body ++ chunk, messages ++ [.request chunk more_body], true, rest⟩
      else if more_body then
        buffer_messages max_bytes (body ++ chunk) (messages ++ [.request chunk more_body]) rest
      else some ⟨body ++ chunk, messages ++ [.request chunk more_body], false, rest⟩
  | .disconnect :: rest => some ⟨body, messages ++ [.disconnect], false, rest⟩

/-- The three ways in which the application gets to its messages. -/
inductive Path
  /-- It is given the server's `receive`. -/
  | direct
  /-- `_chain_replayer`. -/
  | chain
  /-- `_replayer`. -/
  | replayer
deriving DecidableEq

/-- The message that `_replayer` yields when the buffered ones are used up. -/
def emptyBody : RequestMessage := .request [] false

/-- One call of `receive` by the application, which may find the buffered messages or events
of the server. -/
def Path.receive : Path → Source RequestMessage (List RequestMessage × List RequestMessage)
  | .direct => fun s => (uncons s.2).map fun r => (r.1, s.1, r.2)
  | .chain => prepend uncons
  | .replayer => prepend (constant emptyBody)

/-- The `receive` with which `__call__` runs the application, with its buffered messages and
the events that are left; `none` if it is not run, or not yet. `owned` is the outcome of the
claim. -/
def appReceive (S : Settings) (scope : Scope) (owned : Bool) (upstream : List RequestMessage) :
    Option (Path × List RequestMessage × List RequestMessage) :=
  if scope.type ≠ "http" ∨ scope.method ∉ MUTATING then some (.direct, [], upstream)
  else
    match header scope (bytes "idempotency-key") with
    | none => some (.direct, [], upstream)
    | some _ =>
        (buffer_messages S.max_body_bytes [] [] upstream).bind fun buffered =>
          if buffered.exceeded then some (.chain, buffered.messages, buffered.rest)
          else if owned then some (.replayer, buffered.messages, buffered.rest)
          else none

/-! ### What is buffered -/

/-- The messages end a body: all but the last announce more, and the last does not, or is a
disconnect. -/
def EndsBody (messages : List RequestMessage) : Prop :=
  ∃ front last, messages = front ++ [last] ∧
    (∀ m ∈ front, ∃ chunk, m = .request chunk true) ∧
    (last = .disconnect ∨ ∃ chunk, last = .request chunk false)

/-- The body and the cap are those of `buffer_body`. -/
theorem buffer_messages_body (max_bytes : ℕ) (body : Bytes) (messages : List RequestMessage)
    (upstream : List RequestMessage) :
    (buffer_messages max_bytes body messages upstream).map (fun b => (b.body, b.exceeded)) =
      buffer_body max_bytes body upstream := by
  induction upstream generalizing body messages with
  | nil => rfl
  | cons m rest ih =>
      cases m with
      | disconnect => rfl
      | request chunk more_body =>
          simp only [buffer_messages, buffer_body]
          split
          · rfl
          · split
            · exact ih _ _
            · rfl

/-- What is buffered is the front of what the server has sent. -/
theorem messages_append_rest {buffered : Buffered}
    (h : buffer_messages max_bytes body messages upstream = some buffered) :
    buffered.messages ++ buffered.rest = messages ++ upstream := by
  induction upstream generalizing body messages with
  | nil => cases h
  | cons m rest ih =>
      cases m with
      | disconnect =>
          obtain rfl := Option.some.inj h
          simp
      | request chunk more_body =>
          rw [buffer_messages] at h
          split at h
          · obtain rfl := Option.some.inj h
            simp
          · split at h
            · rw [ih h]
              simp
            · obtain rfl := Option.some.inj h
              simp

/-- A body that is not over the cap is buffered to its end. -/
theorem endsBody_of_buffer_messages {buffered : Buffered}
    (h : buffer_messages max_bytes body messages upstream = some buffered)
    (hmore : ∀ m ∈ messages, ∃ chunk, m = .request chunk true)
    (hexceeded : buffered.exceeded = false) : EndsBody buffered.messages := by
  induction upstream generalizing body messages with
  | nil => cases h
  | cons m rest ih =>
      cases m with
      | disconnect =>
          obtain rfl := Option.some.inj h
          exact ⟨messages, _, rfl, hmore, .inl rfl⟩
      | request chunk more_body =>
          rw [buffer_messages] at h
          split at h
          · obtain rfl := Option.some.inj h
            cases hexceeded
          · cases more_body with
            | true =>
                refine ih h fun m hm => ?_
                rcases List.mem_append.mp hm with hm | hm
                · exact hmore m hm
                · exact ⟨chunk, List.mem_singleton.mp hm⟩
            | false =>
                obtain rfl := Option.some.inj h
                exact ⟨messages, _, rfl, hmore, .inr ⟨chunk, rfl⟩⟩

/-- The requests that may be replayed a buffered body are those that make a claim. -/
theorem claimOf_of_replayer {sha256 : Bytes → String}
    {state : List RequestMessage × List RequestMessage}
    (h : appReceive S scope owned upstream = some (.replayer, state)) :
    owned = true ∧ (claimOf sha256 S ⟨scope, upstream⟩).isSome = true := by
  rw [appReceive] at h
  split at h
  · cases h
  · rename_i hmutating
    split at h
    · cases h
    · rename_i key hkey
      obtain ⟨buffered, hbuffered, h⟩ := Option.bind_eq_some_iff.mp h
      have hbody := buffer_messages_body S.max_body_bytes [] [] upstream
      rw [hbuffered, Option.map_some] at hbody
      split at h
      · cases h
      · rename_i hexceeded
        split at h
        · rename_i howned
          refine ⟨howned, ?_⟩
          rw [claimOf, if_neg hmutating, hkey, Option.bind_some, ← hbody, Option.bind_some,
            Bool.eq_false_iff.mpr hexceeded]
          rfl
        · cases h

/-! ### What is received -/

/-- Given the server's `receive`, the application observes the server. -/
theorem run_direct (n : ℕ) (queue upstream : List RequestMessage) :
    run Path.direct.receive n (queue, upstream) =
      (upstream.take n, queue, upstream.drop n) := by
  induction n generalizing upstream with
  | zero => simp [run]
  | succ n ih =>
      cases upstream with
      | nil => simp [run, Path.receive, uncons]
      | cons m rest => simp [run, Path.receive, uncons] at ih ⊢; simp [ih]

/-- **What the application observes.** Without a key, and with a body over the cap, `n` calls
of `receive` observe the next `n` events of the server, and the later ones are still to come.
A request that owns its key has been buffered to the end of its body; its handler observes these
messages, and then empty bodies, and no later event of the server. -/
theorem receive_observes {path : Path} {state : List RequestMessage × List RequestMessage}
    (h : appReceive S scope owned upstream = some (path, state)) (n : ℕ) :
    (path ≠ .replayer →
        (run path.receive n state).1 = upstream.take n ∧
          (run path.receive n state).2.1 ++ (run path.receive n state).2.2 = upstream.drop n) ∧
      (path = .replayer →
        state.1 ++ state.2 = upstream ∧ EndsBody state.1 ∧
          (run path.receive n state).1 = (state.1 ++ List.replicate n emptyBody).take n ∧
          (run path.receive n state).2.2 = state.2) := by
  have hdirect : (path, state) = (.direct, [], upstream) →
      path ≠ .replayer ∧ (run path.receive n state).1 = upstream.take n ∧
        (run path.receive n state).2.1 ++ (run path.receive n state).2.2 = upstream.drop n := by
    rintro heq
    obtain ⟨rfl, rfl⟩ := Prod.mk.inj heq
    rw [run_direct]
    exact ⟨by simp, rfl, rfl⟩
  rw [appReceive] at h
  split at h
  · obtain ⟨hne, hobserved⟩ := hdirect (Option.some.inj h).symm
    exact ⟨fun _ => hobserved, fun heq => absurd heq hne⟩
  · split at h
    · obtain ⟨hne, hobserved⟩ := hdirect (Option.some.inj h).symm
      exact ⟨fun _ => hobserved, fun heq => absurd heq hne⟩
    · obtain ⟨buffered, hbuffered, h⟩ := Option.bind_eq_some_iff.mp h
      have hfront : buffered.messages ++ buffered.rest = upstream := messages_append_rest hbuffered
      split at h
      · obtain ⟨rfl, rfl⟩ := Prod.mk.inj (Option.some.inj h)
        have hobserved := run_prepend_uncons n buffered.messages buffered.rest
        rw [hfront] at hobserved
        exact ⟨fun _ => hobserved, nofun⟩
      · rename_i hexceeded
        split at h
        · obtain ⟨rfl, rfl⟩ := Prod.mk.inj (Option.some.inj h)
          obtain ⟨hobserved, hleft⟩ :=
            run_prepend_constant n emptyBody buffered.messages buffered.rest
          refine ⟨fun hne => absurd rfl hne, fun _ => ⟨hfront, ?_, hobserved, hleft⟩⟩
          exact endsBody_of_buffer_messages hbuffered nofun (Bool.eq_false_iff.mpr hexceeded)
        · cases h

/-- A request with a key. -/
def keyedScope : Scope :=
  ⟨"http", "POST", "/", [], [(bytes "idempotency-key", [107])], none⟩

/-- A body in two messages, read by three calls. -/
theorem receive_observes_two_chunks :
    EndsBody [.request [120] true, .request [121] false] ∧
      (run Path.replayer.receive 3 ([.request [120] true, .request [121] false], [])).1 =
        [.request [120] true, .request [121] false, emptyBody] := by
  have happ : appReceive ⟨2, 100⟩ keyedScope true [.request [120] true, .request [121] false] =
      some (.replayer, [.request [120] true, .request [121] false], []) := by decide
  obtain ⟨-, hobserved⟩ := receive_observes happ 3
  obtain ⟨-, hends, hcalls, -⟩ := hobserved rfl
  exact ⟨hends, hcalls⟩

/-- The client goes away after the body. The application of a request that owns its key is told
of one empty body after the other instead, in whatever number of calls. -/
theorem disconnect_unseen :
    ∃ state, appReceive ⟨2, 100⟩ keyedScope true [.request [120] false, .disconnect] =
        some (.replayer, state) ∧
      (run Path.replayer.receive 2 state).1 ≠
        [RequestMessage.request [120] false, .disconnect].take 2 ∧
      ∀ n, .disconnect ∉ (run Path.replayer.receive n state).1 := by
  refine ⟨([.request [120] false], [.disconnect]), by decide, by decide, fun n hmem => ?_⟩
  have hobserved := (run_prepend_constant n emptyBody [.request [120] false]
    [RequestMessage.disconnect]).1
  rw [Path.receive, hobserved] at hmem
  have hmem' := List.mem_of_mem_take hmem
  simp [emptyBody] at hmem'

end BackendManager.Idempotency
