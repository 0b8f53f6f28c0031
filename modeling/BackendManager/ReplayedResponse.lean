import BackendManager.ClaimExits
import BackendManager.HttpRequest

/-!
# What a Replay Sends

A response passes through many hands before it is replayed: it is captured chunk by chunk
while it streams past, its headers are filtered and decoded for a JSON column, the row is
written, published and found again by a later claim, and the headers are encoded again and
sent with one more. This module follows it all the way.

## Header convention

The rows of `BackendManager.IdempotencyStore` have the kept headers themselves. The column
has their text: `storedJson` is what `complete` hands to it and `readHeaders` is what `claim`
makes of it. Latin-1 loses no byte, so that the two agree (`readHeaders_storedJson`).

## Main results

* `rowsAnswered_of_trace`: a completed row holds the response of the run that claimed it.
* `replayed_response`: the response that an owned handler has sent in any chunks, and what a
  replay of it sends, at every stage in between and along every run.
-/

namespace BackendManager.Idempotency

open ReadCommitted Interleaving Text

variable {T : Type} [DecidableEq T] {S : Settings} {t u : T} {s s' : Store T}
  {c d : Config T (Store T) (Proc T)} {a : Act} {p p' : Proc T} {req req' : Request} {now x : ℕ}
  {row record : IdempotencyKey T} {response response' : ResponseCapture} {id : Uuid} {env : Env}
  {moves : List (Program.Move T (Store T) (Proc T) Act)} {cached : CachedResponse}

/-! ### The column and the wire -/

/-- The list that `complete` stores in the JSON column. -/
def storedJson (headers : Headers) : List (String × String) :=
  (stored headers).map fun h => (latin1 h.1, latin1 h.2)

/-- The headers that `claim` reads from the JSON column. -/
def readHeaders (column : List (String × String)) : Option Headers :=
  column.mapM fun h => do
    let name ← encodeLatin1 h.1
    let value ← encodeLatin1 h.2
    pure (name, value)

/-- Nothing is lost in the column. -/
theorem readHeaders_storedJson (headers : Headers) :
    readHeaders (storedJson headers) = some (stored headers) := by
  rw [readHeaders, storedJson, stored]
  induction headers.filter fun h => lower h.1 ∉ excludedHeaders with
  | nil => rfl
  | cons h rest ih =>
      simp only [List.map_cons, List.mapM_cons, encodeLatin1_latin1, ih]
      rfl

/-- The messages that `_send_response` and `_send_json` send. -/
def Answer.sent (answer : Answer) : List Message :=
  [.start answer.status answer.headers, .body answer.body false]

/-- What the middleware sends for a replay. -/
def CachedResponse.sent (cached : CachedResponse) : List Message :=
  (ClaimResult.replay cached).answer.sent

/-- What the replay of a response should be: its status, its headers but the excluded ones,
in their order and as often as they were sent, one header more, and its body. -/
def replayed (status : ℕ) (headers : Headers) (body : Bytes) : List Message :=
  [.start status (stored headers ++ [(bytes "idempotent-replayed", bytes "true")]),
    .body body false]

omit [DecidableEq T] in
/-- A replay of a row that holds a response. -/
theorem IdempotencyKey.Holds.sent_cached (h : row.Holds response) :
    row.cached.sent = replayed response.status response.headers response.body := by
  simp [CachedResponse.sent, Answer.sent, ClaimResult.answer, IdempotencyKey.cached,
    h.response_status, h.response_headers, h.response_body, replayed, stored]

/-- A claim with the same fingerprint on a row that holds a response is a replay of it. -/
theorem replay_of_holds (h : row.Holds response) (hrow : s.rows.view t req.slot = some row)
    (hid : row.id = id) (hhash : row.request_hash = req.request_hash)
    (hlive : now < row.expires_at) (hstep : inspectRow S t req now id s = some (s', p')) :
    p' = .answered req (.replay row.cached) := by
  obtain ⟨-, rfl⟩ := answered_of_inspectRow hrow hid hlive hstep
  rw [inspectResult, if_neg (not_not.mpr hhash), if_pos h.status]

/-! ### One run, one response -/

/-- The handler has returned or raised. -/
def Proc.returned : Proc T → Bool
  | .complete _ _ | .completeUpdate _ _ _ | .completeCommit _ | .release _ | .releaseDelete _ _
  | .releaseCommit _ | .finished | .raised => true
  | _ => false

theorem Step.returned (h : Step S t s a p s' p') (hp : p.returned = true) :
    p'.returned = true := by
  cases h with
  | tick => exact hp
  | fail | overlong _ | load _ | update _ _ _ | unchanged | stale | release | leave _
  | delete _ _ _ | deleted | commit _ => rfl
  | grant hclaim =>
      cases p with
      | insertCommit _ _ | reclaimCommit _ _ => cases hp
      | _ => cases hclaim
  | vanish hinspect => rcases hinspect with rfl | ⟨id, rfl⟩ <;> cases hp
  | _ => cases hp

/-- After its return a handler does not run again. -/
theorem returned_of_trace {ok : Config T (Store T) (Proc T) → T → Act → Prop}
    (h : (program S).Trace ok init moves c) {m : Program.Move T (Store T) (Proc T) Act}
    (hm : m ∈ moves) (ht : m.thread = t) (ha : m.action = .ret) :
    (c.proc t).returned = true := by
  induction h with
  | nil => cases hm
  | @snoc moves c d u a htrace hok hstep ih =>
      by_cases hu : t = u
      · subst hu
        obtain ⟨g, l, hexec, rfl⟩ := Program.step_eq_some_iff.mp hstep
        simp only [Function.update_self]
        rcases List.mem_append.mp hm with hm | hm
        · exact (step_of_exec hexec).returned (ih hm)
        · obtain rfl := List.mem_singleton.mp hm
          obtain rfl : a = .ret := ha
          have hs := step_of_exec hexec
          generalize c.proc t = p at hs
          cases hs with
          | ret =>
              rw [handlerReturns]
              split <;> rfl
      · rw [Program.proc_of_step_ne hstep hu]
        rcases List.mem_append.mp hm with hm | hm
        · exact ih hm
        · obtain rfl := List.mem_singleton.mp hm
          exact absurd ht.symm hu

/-- A request has one response. -/
theorem RunResponse.unique {ok : Config T (Store T) (Proc T) → T → Act → Prop}
    (h : (program S).Trace ok init moves c) (h₁ : RunResponse S moves t req response)
    (h₂ : RunResponse S moves t req' response') : req = req' ∧ response = response' := by
  induction h with
  | nil =>
      obtain ⟨m, hm, -⟩ := h₁
      cases hm
  | @snoc moves c d u a htrace hok hstep ih =>
      obtain ⟨m₁, hm₁, ht₁, ha₁, x₁, sent₁, hp₁, rfl⟩ := h₁
      obtain ⟨m₂, hm₂, ht₂, ha₂, x₂, sent₂, hp₂, rfl⟩ := h₂
      -- a request that has returned before does not return in this step
      have hlast : ∀ {m x sent req}, m ∈ moves → m.thread = t → m.action = .ret →
          c.proc t ≠ .running req x sent := by
        intro m x sent req hm ht ha hp
        have hreturned := returned_of_trace htrace hm ht ha
        rw [hp] at hreturned
        cases hreturned
      rcases List.mem_append.mp hm₁ with hm₁ | hm₁ <;>
        rcases List.mem_append.mp hm₂ with hm₂ | hm₂
      · exact ih ⟨m₁, hm₁, ht₁, ha₁, x₁, sent₁, hp₁, rfl⟩ ⟨m₂, hm₂, ht₂, ha₂, x₂, sent₂, hp₂, rfl⟩
      · obtain rfl := List.mem_singleton.mp hm₂
        exact absurd hp₂ (hlast hm₁ ht₁ ha₁)
      · obtain rfl := List.mem_singleton.mp hm₁
        exact absurd hp₁ (hlast hm₂ ht₂ ha₂)
      · obtain rfl := List.mem_singleton.mp hm₁
        obtain rfl := List.mem_singleton.mp hm₂
        obtain ⟨rfl, rfl, rfl⟩ := Proc.running.inj (hp₁.symm.trans hp₂)
        exact ⟨rfl, rfl⟩

/-! ### Completed rows -/

/-- What an owner has done on its way out, in runs with any cancellations and failures. -/
theorem exit_of_trace (h : (program S).Trace OwnKey init moves c) :
    ∀ {t req}, (c.proc t).owner = some req → Exit S moves t req c.shared (c.proc t) := by
  induction h with
  | nil => exact fun hp => nomatch hp
  | @snoc moves c d u a htrace hok hstep ih =>
      intro t req hp
      have hrun := htrace.run
      obtain ⟨-, hL⟩ := claims_of_run hrun
      obtain ⟨g, l, hexec, rfl⟩ := Program.step_eq_some_iff.mp hstep
      by_cases hu : t = u
      · subst hu
        simp only [Function.update_self] at hp ⊢
        have hs := step_of_exec hexec
        rcases hs.owner hp with ⟨hp₀, -⟩ | ⟨now, -, -, rfl⟩
        · refine exit_of_exec (ih hp₀) rfl (.inl hp₀) (hL t) (fun hp => own_of_run hrun hp)
            (fun hfail => ?_) hexec
          subst hfail
          generalize c.proc t = p at hs
          cases hs
          cases hp
        · trivial
      · simp only [Function.update_of_ne hu] at hp ⊢
        exact ((undisturbed_of_exec (hL u) hexec hu).exit (ih hp)).mono
          (List.subset_append_left _ _)

/-- A completed row holds the response of a run for the request whose claim it is. -/
def RowsAnswered (S : Settings) (moves : List (Program.Move T (Store T) (Proc T) Act))
    (s : Store T) : Prop :=
  ∀ slot row, s.rows.committed slot = some row → row.status = .completed →
    ∃ req response, req.slot = slot ∧ row.request_hash = req.request_hash ∧
      RunResponse S moves row.claimed_by req response ∧ row.Holds response

omit [DecidableEq T] in
theorem RowsAnswered.mono {more : List (Program.Move T (Store T) (Proc T) Act)}
    (h : RowsAnswered S moves s) (hle : moves ⊆ more) : RowsAnswered S more s := by
  intro slot row hrow hstatus
  obtain ⟨req, response, hslot, hhash, hrun, hholds⟩ := h slot row hrow hstatus
  exact ⟨req, response, hslot, hhash, hrun.mono hle, hholds⟩

/-- A COMMIT publishes a completed row only if the request has put its response into it. -/
theorem RowsAnswered.commit (h : RowsAnswered S moves s) (hI : KeyInv s) (hL : Loc S t s p)
    (hp : p.committing = true) (hE : ∀ req, p.owner = some req → Exit S moves t req s p) :
    RowsAnswered S moves (s.commit t) := by
  intro slot row hrow hstatus
  rw [Store.commit, Table.committed_commit] at hrow
  cases hw : s.rows.written t slot with
  | none =>
      rw [Table.view_of_written_eq_none hw] at hrow
      exact h slot row hrow hstatus
  | some v =>
      obtain rfl : v = some row := by rwa [Table.view_of_written hw] at hrow
      cases p with
      | completeCommit req =>
          rcases hL with hun | ⟨hg, row₀, row', hrow₀, hsole, hclaimed, -⟩
          · exact absurd hw hun.not_written
          · obtain ⟨rfl, hv⟩ := hsole.eq_of_written hw
            obtain rfl : row = row' := Option.some.inj hv
            obtain ⟨response, hrun, hholds, hhash⟩ := hE req rfl hg row hrow
            refine ⟨req, response, rfl, hhash, ?_, hholds⟩
            have howner : row₀.claimed_by = t :=
              Option.some.inj ((hI.claimed hrow₀).symm.trans hg)
            rwa [hclaimed, howner]
      | releaseCommit req =>
          rcases hL with hun | ⟨-, hsole, -⟩
          · exact absurd hw hun.not_written
          · obtain ⟨-, hv⟩ := hsole.eq_of_written hw
            cases hv
      | purgeCommit =>
          obtain ⟨now, -, hpurged⟩ := hL
          obtain ⟨hv, -⟩ := hpurged slot _ hw
          cases hv
      | _ => cases hp

/-- **Completed rows hold responses**, along every run in which writes hit own keys. -/
theorem rowsAnswered_of_trace (h : (program S).Trace OwnKey init moves c) :
    RowsAnswered S moves c.shared := by
  induction h with
  | nil => exact fun slot row hrow => nomatch hrow
  | @snoc moves c d u a htrace hok hstep ih =>
      obtain ⟨hI, hL⟩ := claims_of_run htrace.run
      obtain ⟨g, l, hexec, rfl⟩ := Program.step_eq_some_iff.mp hstep
      refine RowsAnswered.mono ?_ (List.subset_append_left _ _)
      rcases exec_cases hexec with hpriv | ⟨rfl, -⟩ | ⟨hp, rfl, -⟩ | ⟨req, now, hp, rfl, -⟩
      · intro slot row hrow
        simp only [hpriv.rows.committed] at hrow
        exact ih slot row hrow
      · exact ih
      · exact ih.commit hI (hL u) hp fun req howner => exit_of_trace htrace howner
      · obtain ⟨-, -, fresh, hsole, hfresh⟩ := (hL u).claim hp
        intro slot row hrow hstatus
        simp only [grant_committed hsole] at hrow
        by_cases hslot : slot = req.slot
        · rw [hslot, Function.update_self, Option.some.injEq] at hrow
          rw [← hrow, hfresh.status] at hstatus
          cases hstatus
        · rw [Function.update_of_ne hslot] at hrow
          exact ih slot row hrow hstatus

/-- A replay is answered from a completed row of the same fingerprint. -/
theorem row_of_replay (hL : Loc S t s p) (h : Step S t s (.stmt env) p s' p')
    (hp' : p' = .answered req (.replay cached)) :
    ∃ row, s.rows.committed req.slot = some row ∧ row.status = .completed ∧
      row.request_hash = req.request_hash ∧ cached = row.cached := by
  cases h with
  | @answer _ req₀ now id row hrow =>
      obtain ⟨rfl, hresult⟩ := Proc.answered.inj hp'
      have hun : s.rows.Untouched t := hL.1
      rw [hun.view] at hrow
      refine ⟨row, hrow, ?_⟩
      simp only [inspectResult] at hresult
      split at hresult
      · cases hresult
      · rename_i hhash
        split at hresult
        · rename_i hstatus
          exact ⟨hstatus, not_not.mp hhash, (ClaimResult.replay.inj hresult).symm⟩
        · cases hresult
  | _ => cases hp'

/-! ### From the handler to the replay -/

omit [DecidableEq T] in
/-- The handler returns after a response that may be cached. -/
theorem handlerReturns_bodies {status : ℕ} {headers : Headers} {chunks : List (Bytes × Bool)}
    (hstatus : status < 500)
    (hlen : (chunks.map Prod.fst).flatten.length ≤ S.max_body_bytes) :
    handlerReturns S req (.start status headers :: bodies chunks) =
      (.complete req ⟨status, headers, (chunks.map Prod.fst).flatten, false⟩ : Proc T) := by
  have hkept : (⟨status, headers, (chunks.map Prod.fst).flatten, false⟩ :
      ResponseCapture).discarded = false := by
    simp only [ResponseCapture.discarded, Bool.false_eq_true, false_or, decide_eq_false_iff_not]
    omega
  rw [handlerReturns, capture_bodies hlen, hkept]
  rfl

/-- Along every run, a replay from the row that the claim of `t` is in sends what `t` has
captured. -/
theorem sent_of_replay (h : (program S).Trace OwnKey init moves c)
    (hrun : RunResponse S moves t req response) (hstep : (program S).step c u (.stmt env) = some d)
    (hreplay : d.proc u = .answered req' (.replay cached))
    (hrow : c.shared.rows.committed req'.slot = some row) (hclaimed : row.claimed_by = t) :
    req'.slot = req.slot ∧ req'.request_hash = req.request_hash ∧
      cached.sent = replayed response.status response.headers response.body := by
  obtain ⟨-, hL⟩ := claims_of_run h.run
  obtain ⟨g, l, hexec, rfl⟩ := Program.step_eq_some_iff.mp hstep
  simp only [Function.update_self] at hreplay
  obtain ⟨row', hrow', hstatus, hhash, rfl⟩ := row_of_replay (hL u) (step_of_exec hexec) hreplay
  obtain rfl := Option.some.inj (hrow.symm.trans hrow')
  obtain ⟨req₀, response₀, hslot, hhash₀, hrun₀, hholds⟩ :=
    rowsAnswered_of_trace h _ row hrow hstatus
  rw [hclaimed] at hrun₀
  obtain ⟨rfl, rfl⟩ := RunResponse.unique h hrun hrun₀
  exact ⟨hslot.symm, hhash.symm.trans hhash₀, hholds.sent_cached⟩

/-- **What a replay sends.** Let an owned handler send a start with a status below 500 and any
headers, and then any chunks that are no longer than the limit together, and return. What is
captured goes to `complete`; its headers survive the JSON column; the `UPDATE` of the row that
has been loaded puts it there; and a later claim with the same fingerprint that finds the
row before it expires is answered with the replay that it should be. Along every run whose
writes hit own keys, so is every request that is answered from the row of that claim. -/
theorem replayed_response (req : Request) (headers : Headers) (chunks : List (Bytes × Bool))
    {status : ℕ} {body : Bytes} (hbody : body = (chunks.map Prod.fst).flatten)
    (hstatus : status < 500) (hlen : body.length ≤ S.max_body_bytes) :
    handlerReturns S req (.start status headers :: bodies chunks) =
        (.complete req ⟨status, headers, body, false⟩ : Proc T) ∧
      readHeaders (storedJson headers) =
        some (headers.filter fun h => lower h.1 ∉ excludedHeaders) ∧
      (∀ (t : T) record s s' p', s.rows.view t req.slot = some record →
        updateRow t req ⟨status, headers, body, false⟩ record s = some (s', p') →
        p' = .completeCommit req ∧ ∃ row, s'.rows.view t req.slot = some row ∧
          row.Holds ⟨status, headers, body, false⟩ ∧ row.request_hash = record.request_hash) ∧
      (∀ (u : T) now row s s' p', s.rows.view u req.slot = some row →
        row.Holds ⟨status, headers, body, false⟩ → row.request_hash = req.request_hash →
        now < row.expires_at → inspectRow S u req now row.id s = some (s', p') →
        ∃ cached, p' = .answered req (.replay cached) ∧
          cached.sent = replayed status headers body) ∧
      ∀ (t u : T) moves c d env req' cached row, (program S).Trace OwnKey init moves c →
        (∃ m ∈ moves, m.thread = t ∧ m.action = .ret ∧
          ∃ x, m.before.proc t = .running req x (.start status headers :: bodies chunks)) →
        (program S).step c u (.stmt env) = some d →
        d.proc u = .answered req' (.replay cached) →
        c.shared.rows.committed req'.slot = some row → row.claimed_by = t →
        req'.slot = req.slot ∧ req'.request_hash = req.request_hash ∧
          cached.sent = replayed status headers body := by
  subst hbody
  refine ⟨handlerReturns_bodies hstatus hlen, readHeaders_storedJson headers,
    fun t record s s' p' hrow h => holds_of_updateRow hrow h,
    fun u now row s s' p' hrow hholds hhash hlive h => ?_,
    fun t u moves c d env req' cached row htrace hret hstep hreplay hrow hclaimed => ?_⟩
  · exact ⟨row.cached, replay_of_holds hholds hrow rfl hhash hlive h, hholds.sent_cached⟩
  · obtain ⟨m, hm, ht, ha, x, hp⟩ := hret
    exact sent_of_replay htrace ⟨m, hm, ht, ha, x, _, hp, (capture_bodies hlen).symm⟩ hstep
      hreplay hrow hclaimed

/-- A created resource, sent in two chunks with a cookie and a repeated header. -/
def created : List Message :=
  .start 201 [([88, 97], [49]), (bytes "Set-Cookie", [115]), ([120, 97], [255])] ::
    bodies [([120], true), ([121], false)]

set_option maxRecDepth 10000 in
/-- A response of two headers and two chunks, one of the headers beyond ASCII, is stored and
replayed. -/
theorem replayed_response_created :
    ∃ (moves : List (Program.Move (Fin 2) (Store (Fin 2)) (Proc (Fin 2)) Act))
      (c d : Config (Fin 2) (Store (Fin 2)) (Proc (Fin 2))) (cached : CachedResponse),
      (program shortLease).Trace OwnKey init moves c ∧
        (∃ m ∈ moves, m.thread = 0 ∧ m.action = .ret ∧
          ∃ x, m.before.proc 0 = .running ⟨"scope", "key", "h"⟩ x created) ∧
        (program shortLease).step c 1 (next 2) = some d ∧
        d.proc 1 = .answered ⟨"scope", "key", "h"⟩ (.replay cached) ∧
        cached.sent = [.start 201 [([88, 97], [49]), ([120, 97], [255]),
          (bytes "idempotent-replayed", bytes "true")], .body [120, 121] false] := by
  obtain ⟨⟨moves, c⟩, hrecord, hret, hstep⟩ :
      ∃ r ∈ (program shortLease).record OwnKey init
        (firstRequest (0 : Fin 2) "h" ++ created.map (fun m => (0, .send m)) ++
          [(0, .ret), (0, next 1), (0, next 1), (0, next 1),
            (1, .claim ⟨"scope", "key", "h"⟩), (1, next 2), (1, next 2)]),
        (r.1.any fun m => m.thread = 0 ∧ m.action = .ret ∧
          m.before.proc 0 = .running ⟨"scope", "key", "h"⟩ 2 created) = true ∧
        ((program shortLease).step r.2 1 (next 2)).any (fun d =>
          d.proc 1 = .answered ⟨"scope", "key", "h"⟩ (.replay
            ⟨201, [([88, 97], [49]), ([120, 97], [255])], [120, 121], some "h"⟩) ∧
          (r.2.shared.rows.committed ("scope", "key")).any (fun row => row.claimed_by = 0) =
            true) = true := by
    decide
  obtain ⟨m, hm, hm'⟩ := List.any_eq_true.mp hret
  obtain ⟨ht, ha, hp⟩ := of_decide_eq_true hm'
  obtain ⟨d, hd, hd'⟩ := (Option.any_eq_true _ _).mp hstep
  obtain ⟨hreplay, hany⟩ := of_decide_eq_true hd'
  obtain ⟨row, hrow, hclaimed⟩ := (Option.any_eq_true _ _).mp hany
  obtain ⟨-, -, -, -, hsent⟩ := replayed_response (T := Fin 2) (S := shortLease)
    ⟨"scope", "key", "h"⟩ _ [([120], true), ([121], false)] rfl
    (by decide : 201 < 500) (by decide)
  have htrace := Program.trace_of_record hrecord
  obtain ⟨-, -, hsent⟩ := hsent 0 1 moves c d _ _ _ row htrace ⟨m, hm, ht, ha, 2, hp⟩ hd hreplay
    hrow (of_decide_eq_true hclaimed)
  exact ⟨moves, c, d, _, htrace, ⟨m, hm, ht, ha, 2, hp⟩, hd, hreplay, hsent⟩

end BackendManager.Idempotency
