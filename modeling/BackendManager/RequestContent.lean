import BackendManager.ClaimOwnership
import BackendManager.HttpRequest

/-!
# Whose Response a Retry Gets

The store compares fingerprints, and a fingerprint is made of the method, the path and the
body of a request. This module follows the fingerprints through every run in which each
thread claims for its own HTTP request: `Attributed` says of a row version that the claim
and the response in it belong to actual requests under the row's scope and key.

Two requests have the same content if they agree in method, path and body; the query string and
the headers other than the credential and the key are no part of it. That the digest is
injective stands for the absence of collisions.

## Main results

* `attributes_of_run`: every version of every row is attributed, along every run.
* `answered_by_content`: a request that finds an unexpired claim in place is answered
  according to its method, path and body: with the cached response or 409 if they are those
  of the claim's owner, and with 422 otherwise.
* `query_ignored`: two requests that differ in their query strings get one response.
-/

namespace BackendManager.Idempotency

open ReadCommitted Interleaving Text

variable {T : Type} [DecidableEq T] {sha256 : Bytes → String} {S : Settings}
  {http : T → HttpRequest} {t u : T} {s s' : Store T} {c d : Config T (Store T) (Proc T)}
  {a : Act} {p p' : Proc T} {req : Request} {now : ℕ} {slot : String × String}
  {row record current : IdempotencyKey T} {response : ResponseCapture}

/-- Each request claims with its own scope, key and fingerprint. -/
def Sends (sha256 : Bytes → String) (S : Settings) (http : T → HttpRequest)
    (_ : Config T (Store T) (Proc T)) (t : T) (a : Act) : Prop :=
  ∀ req, a = .claim req → claimOf sha256 S (http t) = some req

/-- `h` is the fingerprint of a request under this scope and key. -/
def Requested (sha256 : Bytes → String) (S : Settings) (http : T → HttpRequest)
    (slot : String × String) (h : String) : Prop :=
  ∃ (u : T) (req : Request), claimOf sha256 S (http u) = some req ∧ req.slot = slot ∧
    req.request_hash = h

/-- The row carries the fingerprint of the request whose claim it is, and a response in it
was produced by a request under the same scope and key. -/
structure Attributed (sha256 : Bytes → String) (S : Settings) (http : T → HttpRequest)
    (slot : String × String) (row : IdempotencyKey T) : Prop where
  claimed : ∃ req, claimOf sha256 S (http row.claimed_by) = some req ∧ req.slot = slot ∧
    req.request_hash = row.request_hash
  produced : ∀ h, row.produced_for = some h → Requested sha256 S http slot h

/-- The request that a process works for. -/
def Proc.request : Proc T → Option Request
  | .insert req _ | .insertCommit req _ | .inspect req _ | .inspectLock req _ _
  | .reclaimCommit req _ | .running req _ _ | .complete req _ | .completeUpdate req _ _
  | .completeCommit req | .release req | .releaseDelete req _ | .releaseCommit req
  | .answered req _ => some req
  | .idle | .finished | .raised | .purge _ | .purging _ _ | .purgeCommit => none

/-- The response that a request has been answered with. -/
def Proc.replayed : Proc T → Option CachedResponse
  | .answered _ (.replay cached) => some cached
  | _ => none

/-! ### What one action can do -/

omit [DecidableEq T] in
/-- A request that is about to be granted a key knows which. -/
theorem Proc.request_of_claiming (h : p.claiming = some (req, now)) : p.request = some req := by
  cases p with
  | insertCommit _ _ | reclaimCommit _ _ =>
      obtain ⟨rfl, -⟩ := Prod.mk.inj (Option.some.inj h)
      rfl
  | _ => cases h

/-- An action keeps the request of its process, ends it, or starts one. -/
theorem Step.request (h : Step S t s a p s' p') :
    p'.request = p.request ∨ p'.request = none ∨
      ∃ req, a = .claim req ∧ p'.request = some req := by
  cases h with
  | tick | send | raise | insert _ _ | collide | inspect | reclaim _ _ _ | answer _ | load _
  | update _ _ _ | unchanged | release | delete _ _ _ | deleted => exact .inl rfl
  | ret =>
      rw [handlerReturns]
      split <;> exact .inl rfl
  | grant hp => exact .inl (Proc.request_of_claiming hp).symm
  | vanish hp =>
      rcases hp with rfl | ⟨id, rfl⟩
      · exact .inl rfl
      · exact .inl rfl
  | claim => exact .inr (.inr ⟨_, rfl, rfl⟩)
  | purge | fail | overlong _ | stale | leave _ | commit _ | scan | purgeRow _ _ _ | keepRow
  | purged =>
      exact .inr (.inl rfl)

/-- A request is answered with the response cached in the row that it sees. -/
theorem Step.replayed {cached : CachedResponse} (h : Step S t s a p s' p')
    (hc : p'.replayed = some cached) :
    p' = p ∨ ∃ req record, p'.request = some req ∧ s.rows.view t req.slot = some record ∧
      cached = record.cached := by
  cases h with
  | tick => exact .inl rfl
  | answer hrow =>
      refine .inr ⟨_, _, rfl, hrow, ?_⟩
      simp only [inspectResult, Proc.replayed] at hc
      split_ifs at hc with hhash hstatus
      exact (Option.some.inj hc).symm
  | ret =>
      rw [handlerReturns] at hc
      split at hc <;> cases hc
  | _ => cases hc

/-! ### Attribution along a run -/

/-- Processes work for the requests of their threads, rows are attributed, and a response
that was replayed was produced under the key that it was replayed for. -/
structure Attributes (sha256 : Bytes → String) (S : Settings) (http : T → HttpRequest)
    (c : Config T (Store T) (Proc T)) : Prop where
  request : ∀ {t req}, (c.proc t).request = some req → claimOf sha256 S (http t) = some req
  rows : c.shared.rows.Every (Attributed sha256 S http)
  replayed : ∀ {t req cached h}, (c.proc t).request = some req →
    (c.proc t).replayed = some cached → cached.produced_for = some h →
    Requested sha256 S http req.slot h

/-- Claims and completions write attributed rows. -/
theorem Step.attributed (h : Step S t s a p s' p')
    (hreq : ∀ req, p.request = some req → claimOf sha256 S (http t) = some req)
    (hrows : s.rows.Every (Attributed sha256 S http)) :
    s'.rows.Every (Attributed sha256 S http) := by
  have hput : ∀ {slot row s'}, s.put t slot row = some s' →
      (∀ v, row = some v → Attributed sha256 S http slot v) →
      s'.rows.Every (Attributed sha256 S http) := by
    intro slot row s' hput hv
    obtain ⟨rows, hrows', rfl⟩ := Store.put_some hput
    exact hrows.put hrows' hv
  cases h with
  | tick | claim | purge | send | ret | raise | inspect | load _ | unchanged | release | deleted
  | scan | keepRow | purged => exact hrows
  | fail | collide | overlong _ | vanish _ | answer _ | stale | leave _ => exact hrows.rollback t
  | grant _ | commit _ => exact hrows.commit t
  | insert _ hnew | reclaim _ _ hnew =>
      refine hput hnew ?_
      rintro v ⟨⟩
      refine ⟨⟨_, hreq _ rfl, rfl, rfl⟩, fun h hp => ?_⟩
      cases hp
  | update hrow _ hnew =>
      refine hput hnew ?_
      rintro v ⟨⟩
      refine ⟨(hrows.view hrow).claimed, fun h hp => ⟨t, _, hreq _ rfl, rfl, ?_⟩⟩
      exact Option.some.inj hp
  | delete _ _ hnew | purgeRow _ _ hnew =>
      refine hput hnew ?_
      rintro v ⟨⟩

/-- One step of a run in which each request sends its own claim. -/
theorem Attributes.step (hA : Attributes sha256 S http c) (hsend : Sends sha256 S http c t a)
    (hstep : (program S).step c t a = some d) : Attributes sha256 S http d := by
  obtain ⟨s', p', hexec, rfl⟩ := Program.step_eq_some_iff.mp hstep
  have hown : ∀ {req}, p'.request = some req → claimOf sha256 S (http t) = some req := by
    intro req hp'
    rcases (step_of_exec hexec).request with hsame | hnone | ⟨req', rfl, hnew⟩
    · exact hA.request (hsame ▸ hp')
    · exact absurd (hnone.symm.trans hp') (by simp)
    · obtain rfl : req' = req := Option.some.inj (hnew.symm.trans hp')
      exact hsend req' rfl
  constructor
  · intro u req hu
    by_cases hut : u = t
    · subst hut
      exact hown (by simpa using hu)
    · exact hA.request (by simpa [Function.update_of_ne hut] using hu)
  · exact (step_of_exec hexec).attributed (fun req => hA.request) hA.rows
  · intro u req cached h hu hc hprod
    by_cases hut : u = t
    · subst hut
      simp only [Function.update_self] at hu hc
      rcases (step_of_exec hexec).replayed hc with rfl | ⟨req', record, hreq', hrecord, rfl⟩
      · exact hA.replayed hu hc hprod
      · obtain rfl : req' = req := Option.some.inj (hreq'.symm.trans hu)
        exact (hA.rows.view hrecord).produced h hprod
    · simp only [Function.update_of_ne hut] at hu hc
      exact hA.replayed hu hc hprod

/-- **Attribution along every run.** -/
theorem attributes_of_run (h : (program S).Run (Sends sha256 S http) init c) :
    Attributes sha256 S http c := by
  have hstep : ∀ (c d : Config T (Store T) (Proc T)) (t : T) (a : Act),
      Attributes sha256 S http c → Sends sha256 S http c t a →
      (program S).step c t a = some d → Attributes sha256 S http d :=
    fun _ _ _ _ hA hsend hs => hA.step hsend hs
  refine h.invariant hstep ⟨fun hp => (nomatch hp), Table.every_empty, fun hp => (nomatch hp)⟩

/-! ### Answers -/

/-- Equal in method, path and body. -/
def SameContent (r r' : HttpRequest) : Prop :=
  r.scope.method = r'.scope.method ∧ r.scope.path = r'.scope.path ∧
    received r.messages = received r'.messages

/-- Claims with one fingerprint are claims of one content, and conversely. -/
theorem request_hash_eq_iff (hsha : Function.Injective sha256) {r r' : HttpRequest}
    {req req' : Request} (hr : claimOf sha256 S r = some req)
    (hr' : claimOf sha256 S r' = some req') (hp : r.scope.OneLine) (hp' : r'.scope.OneLine) :
    req.request_hash = req'.request_hash ↔ SameContent r r' := by
  obtain ⟨hm, -, -, hhash⟩ := claimOf_eq_some hr
  obtain ⟨hm', -, -, hhash'⟩ := claimOf_eq_some hr'
  rw [hhash, hhash']
  exact fingerprint_inj hsha hm hm' hp hp'

/-- A claim that finds an unexpired claim in place is answered by the row, and the row has the
fingerprint of the request that owns it. -/
theorem answered_of_lock {env : Env} {id : Uuid}
    (hrun : (program S).Run (Sends sha256 S http) init c)
    (hp : c.proc t = .inspectLock req now id) (hstep : (program S).step c t (.stmt env) = some d)
    (hrow : c.shared.rows.view t req.slot = some record) (hid : record.id = id)
    (hlive : now < record.expires_at) :
    d.proc t = .answered req (inspectResult req record) ∧
      claimOf sha256 S (http t) = some req ∧
      ∃ req', claimOf sha256 S (http record.claimed_by) = some req' ∧
        req'.request_hash = record.request_hash := by
  have hA := attributes_of_run hrun
  obtain ⟨s', p', hexec, rfl⟩ := Program.step_eq_some_iff.mp hstep
  rw [hp] at hexec
  obtain ⟨-, hans⟩ := answered_of_inspectRow hrow hid hlive hexec
  obtain ⟨req', hreq', -, hhash⟩ := (hA.rows.view hrow).claimed
  refine ⟨?_, hA.request (by rw [hp]; rfl), req', hreq', hhash⟩
  simp only [Function.update_self, hans]

/-- **Answers follow the content.** Take a run in which each thread claims for its own HTTP
request, none of whose paths has a line feed in it.

A claim that finds an unexpired claim of its key in place is answered according to the status
of the row, if its request has the method, the path and the body of the request that owns the
claim: with the response cached there if it is completed, and otherwise with 409. If its request
differs in one of the three, it is answered with 422.

If moreover no handler writes to a key that has been granted to another request, then
whatever response a request is answered with was produced for a request under the same
scope and key with the same method, path and body. -/
theorem answered_by_content (hsha : Function.Injective sha256)
    (hlf : ∀ t, (http t).scope.OneLine)
    (hrun : (program S).Run (Sends sha256 S http) init c) :
    (∀ {t env d req now id record}, c.proc t = .inspectLock req now id →
      (program S).step c t (.stmt env) = some d → c.shared.rows.view t req.slot = some record →
      record.id = id → now < record.expires_at →
      (SameContent (http record.claimed_by) (http t) →
        (record.status = .completed → d.proc t = .answered req (.replay record.cached)) ∧
          (record.status ≠ .completed →
            d.proc t = .answered req .in_progress ∧
              (ClaimResult.in_progress).answer.status = 409)) ∧
      (¬ SameContent (http record.claimed_by) (http t) →
        d.proc t = .answered req .mismatch ∧ (ClaimResult.mismatch).answer.status = 422)) ∧
    ((program S).Run (fun c t a => Sends sha256 S http c t a ∧ OwnKey c t a) init c →
      ∀ {t req cached}, c.proc t = .answered req (.replay cached) →
        ∃ u req', claimOf sha256 S (http u) = some req' ∧ req'.slot = req.slot ∧
          cached.produced_for = some req'.request_hash ∧ SameContent (http u) (http t)) := by
  have hA := attributes_of_run hrun
  constructor
  · intro t env d req now id record hp hstep hrow hid hlive
    obtain ⟨hans, hreq, req', hreq', hhash⟩ := answered_of_lock hrun hp hstep hrow hid hlive
    have hiff : record.request_hash = req.request_hash ↔
        SameContent (http record.claimed_by) (http t) :=
      hhash ▸ request_hash_eq_iff hsha hreq' hreq (hlf _) (hlf _)
    rw [hans, inspectResult]
    constructor
    · intro hsame
      rw [if_neg (not_not.mpr (hiff.mpr hsame))]
      exact ⟨fun hdone => by rw [if_pos hdone], fun hrunning => ⟨by rw [if_neg hrunning], rfl⟩⟩
    · intro hdiff
      exact ⟨by rw [if_pos fun heq => hdiff (hiff.mp heq)], rfl⟩
  · intro hown t req cached hp
    have hprod : cached.produced_for = some req.request_hash := by
      have hL := (claims_of_run (hown.mono fun _ _ _ h => h.2)).2 t
      rw [hp] at hL
      exact hL.2
    have hreq : claimOf sha256 S (http t) = some req := hA.request (by rw [hp]; rfl)
    obtain ⟨u, req', hu, hslot, hhash⟩ := hA.replayed (by rw [hp]; rfl) (by rw [hp]; rfl) hprod
    exact ⟨u, req', hu, hslot, by rw [hprod, hhash],
      (request_hash_eq_iff hsha hu hreq (hlf _) (hlf _)).mp hhash⟩

/-! ### Two schedules -/

instance (http : T → HttpRequest) (c : Config T (Store T) (Proc T)) (t : T) (a : Act) :
    Decidable (Sends sha256 S http c t a) :=
  match a with
  | .claim req =>
      decidable_of_iff (claimOf sha256 S (http t) = some req)
        ⟨fun h _ hreq => Act.claim.inj hreq ▸ h, fun h => h req rfl⟩
  | .tick | .purge | .send _ | .ret | .raise | .stmt _ | .fail =>
      isTrue fun _ h => (nomatch h)

/-- A request with an idempotency key. -/
def post (query_string : String) (body : String) : HttpRequest where
  scope :=
    { type := "http", method := "POST", path := "/do", query_string := bytes query_string,
      headers := [(bytes "idempotency-key", bytes "k")], client := none }
  messages := [.request (bytes body) false]

/-- The claim of such a request, under a hash that can be read back. -/
def postClaim (body : String) : Request := ⟨"anonymous", "k", "POST /do\n" ++ body⟩

example : claimOf latin1 shortLease (post "v=1" "x") = some (postClaim "x") := by decide

/-- Two requests with one key. -/
def pair (first second : HttpRequest) (t : Fin 2) : HttpRequest :=
  if t.val = 0 then first else second

/-- A request that claims an unused key. -/
def claims (t : T) (req : Request) : List (T × Act) :=
  [(t, .claim req), (t, next 1), (t, next 1)]

/-- A request that finds the key in use and looks for its row. -/
def inspects (t : T) (req : Request) : List (T × Act) :=
  [(t, .claim req), (t, next 2), (t, next 2)]

set_option maxRecDepth 10000 in
/-- A second request that differs in its body, while the first one is running. -/
theorem answered_by_content_otherBody :
    ∃ (c d : Config (Fin 2) (Store (Fin 2)) (Proc (Fin 2))) (record : IdempotencyKey (Fin 2)),
      (program shortLease).Run
          (Sends latin1 shortLease (pair (post "" "x") (post "" "y"))) init c ∧
        c.proc 1 = .inspectLock (postClaim "y") 0 record.id ∧
        c.shared.rows.view 1 (postClaim "y").slot = some record ∧ 0 < record.expires_at ∧
        (program shortLease).step c 1 (next 2) = some d ∧
        d.proc 1 = .answered (postClaim "y") .mismatch := by
  have hreplay : ((program shortLease).replay
      (Sends latin1 shortLease (pair (post "" "x") (post "" "y"))) init
      (claims 0 (postClaim "x") ++ inspects 1 (postClaim "y"))).any (fun c =>
        decide (c.proc 1 = .inspectLock (postClaim "y") 0 (Uuid.ofNat 1)) &&
        decide (c.shared.rows.view 1 (postClaim "y").slot =
          some (newRow shortLease 0 ⟨Uuid.ofNat 1, ("", ""), Uuid.ofNat 0⟩ (postClaim "x") 0)) &&
        ((program shortLease).step c 1 (next 2)).isSome) = true := by
    decide
  obtain ⟨c, hrun, hp⟩ := Program.exists_run_of_replay hreplay
  simp only [Bool.and_eq_true, decide_eq_true_eq, Option.isSome_iff_exists] at hp
  obtain ⟨⟨hproc, hrow⟩, d, hstep⟩ := hp
  have hlf : ∀ t, (pair (post "" "x") (post "" "y") t).scope.OneLine := by
    intro t
    rw [pair]
    split <;> exact List.count_eq_zero.mp rfl
  have hans := (answered_by_content latin1_injective hlf hrun).1 hproc hstep hrow rfl (by decide)
  exact ⟨c, d, _, hrun, hproc, hrow, by decide, hstep,
    (hans.2 fun hsame => absurd hsame.2.2 (by decide)).1⟩

set_option maxRecDepth 10000 in
/-- Two requests whose query strings alone differ: the second one is answered with the
response of the first, and its handler does not run. -/
theorem query_ignored :
    ∃ (http : Fin 2 → HttpRequest) (c : Config (Fin 2) (Store (Fin 2)) (Proc (Fin 2)))
      (cached : CachedResponse),
      (http 0).scope.query_string ≠ (http 1).scope.query_string ∧
        (program shortLease).Run
          (fun c t a => Sends latin1 shortLease http c t a ∧ OwnKey c t a) init c ∧
        c.proc 1 = .answered (postClaim "x") (.replay cached) ∧
        claimOf latin1 shortLease (http 0) = some (postClaim "x") ∧
        cached = ⟨200, [], [120], some (postClaim "x").request_hash⟩ := by
  have hreplay : ((program shortLease).replay
      (fun c t a => Sends latin1 shortLease (pair (post "v=1" "x") (post "v=2" "x")) c t a ∧
        OwnKey c t a) init
      (claims 0 (postClaim "x") ++ respond 0 ++ [(0, next 1), (0, next 1), (0, next 1)] ++
        inspects 1 (postClaim "x") ++ [(1, next 2)])).any (fun c =>
          decide (c.proc 1 = .answered (postClaim "x")
            (.replay ⟨200, [], [120], some (postClaim "x").request_hash⟩))) = true := by
    decide
  obtain ⟨c, hrun, hp⟩ := Program.exists_run_of_replay hreplay
  exact ⟨pair (post "v=1" "x") (post "v=2" "x"), c, _, by decide, hrun, of_decide_eq_true hp,
    by decide, rfl⟩

end BackendManager.Idempotency
