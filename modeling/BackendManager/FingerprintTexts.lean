import BackendManager.RequestContent

/-!
# What the Text of a Fingerprint Determines

`_fingerprint` hashes method, path and body with a space and a line feed between them. No method
has a space in it, but a path may have a line feed, since the server has decoded it, and so may a
body. A line at the end of the path of one request may therefore be the first line of the body of
another one, and the store takes the two for one request.

The method is one of a handful of words, and ends at the first space; the path ends at a line
feed, but so may a line within it. `Shifted` is the relation between two requests one of which
has in front of its body what the other has at the end of its path, and the theorem says that
requests with one text are equal or shifted, one way or the other. A path of one line, as every
route of the service has it, is in no such pair unless the other path has a line feed.

## Main results

* `determined_iff`: which requests share the text that is hashed with no other request, and which
  pairs of requests are told apart.
* `answered_by_text`: what a request that finds a claim in place is answered, along every run.
-/

namespace BackendManager.Idempotency

open ReadCommitted Interleaving Text

variable {scope scope' : Scope} {body body' : Bytes}

/-- No other request is hashed from the text of this one. -/
def Determined (scope : Scope) (body : Bytes) : Prop :=
  ∀ scope' body', scope'.method ∈ MUTATING →
    fingerprintText scope body = fingerprintText scope' body' →
    scope.method = scope'.method ∧ scope.path = scope'.path ∧ body = body'

/-- The first line of the body is the whole of it, or no text. -/
def Unsplit (body : Bytes) : Prop := 10 ∈ body → decodeUtf8 (body.takeWhile (· != 10)) = none

theorem takeWhile_append_newline {front rest : Bytes} (h : 10 ∉ front) :
    (front ++ 10 :: rest).takeWhile (· != 10) = front := by
  have hfront : ∀ b ∈ front, (b != 10) = true := by
    intro b hb
    rw [bne_iff_ne]
    rintro rfl
    exact h hb
  rw [List.takeWhile_append_of_pos hfront, List.takeWhile_cons_of_neg (by decide),
    List.append_nil]

/-- A text with a line feed begins with a line. -/
theorem exists_line {text : String} (h : '\n' ∈ text.toList) :
    ∃ line rest : String, text = line ++ "\n" ++ rest ∧ 10 ∉ utf8 line := by
  obtain ⟨line, rest, hsplit, hline⟩ := List.eq_append_cons_of_mem h
  refine ⟨String.ofList line, String.ofList rest, ?_, ?_⟩
  · rw [← String.toList_inj]
    simp [hsplit]
  · apply newline_notMem_utf8
    rwa [String.toList_ofList]

/-- A body can be split behind any text if it can be split behind its first line. -/
theorem unsplit_iff : Unsplit body ↔ ∀ line rest, body ≠ utf8 line ++ 10 :: rest := by
  constructor
  · rintro h line rest rfl
    have hnone := h List.mem_append_cons_self
    by_cases hline : '\n' ∈ line.toList
    · obtain ⟨first, rest', rfl, hfirst⟩ := exists_line hline
      rw [utf8_append_newline, List.append_assoc, List.cons_append,
        takeWhile_append_newline hfirst, decodeUtf8_eq_some_iff.mpr rfl] at hnone
      cases hnone
    · rw [takeWhile_append_newline (newline_notMem_utf8 hline),
        decodeUtf8_eq_some_iff.mpr rfl] at hnone
      cases hnone
  · intro h hmem
    rw [Option.eq_none_iff_forall_ne_some]
    intro line hline
    obtain ⟨front, rest, rfl, hfront⟩ := List.eq_append_cons_of_mem hmem
    rw [takeWhile_append_newline hfront, decodeUtf8_eq_some_iff] at hline
    exact h line rest (by rw [hline])

theorem Shifted.path_ne (h : Shifted scope body scope' body') : scope.path ≠ scope'.path := by
  obtain ⟨line, hpath, -⟩ := h
  intro heq
  have hlength := congrArg (fun path : String => path.toList.length) (heq.trans hpath)
  simp [String.toList_append] at hlength

/-- A request of whose text nothing can be moved between path and body. -/
theorem determined_iff_unsplit (hm : scope.method ∈ MUTATING) :
    Determined scope body ↔ scope.OneLine ∧ Unsplit body := by
  rw [unsplit_iff]
  constructor
  · intro h
    constructor
    · intro hmem
      obtain ⟨path, line, hpath, -⟩ := exists_line hmem
      have hshift : Shifted { scope with path } (utf8 line ++ 10 :: body) scope body :=
        ⟨line, hpath, rfl⟩
      obtain ⟨-, hsame, -⟩ := h { scope with path } (utf8 line ++ 10 :: body) hm
        (hshift.fingerprintText_eq rfl).symm
      exact hshift.path_ne hsame.symm
    · rintro line rest rfl
      have hshift : Shifted scope (utf8 line ++ 10 :: rest)
          { scope with path := scope.path ++ "\n" ++ line } rest := ⟨line, rfl, rfl⟩
      obtain ⟨-, hsame, -⟩ := h { scope with path := scope.path ++ "\n" ++ line } rest hm
        (hshift.fingerprintText_eq rfl)
      exact hshift.path_ne hsame
  · rintro ⟨hline, hbody⟩ scope' body' hm' htext
    obtain ⟨hmethod, ⟨hpath, heq⟩ | ⟨line, -, heq⟩ | hshift⟩ :=
      (fingerprintText_eq_iff hm hm').mp htext
    · exact ⟨hmethod, hpath, heq⟩
    · exact absurd heq (hbody line body')
    · exact absurd hshift hline.not_shifted

/-- **When the text that is hashed tells requests apart.** It tells a request from all others
exactly if its path is one line and its body cannot be split behind its first line, and it tells
two requests apart exactly if their methods differ or neither is the other one with a line moved
between path and body. -/
theorem determined_iff (hm : scope.method ∈ MUTATING) :
    (Determined scope body ↔ scope.OneLine ∧ Unsplit body) ∧
      ∀ scope' body', scope'.method ∈ MUTATING →
        ((fingerprintText scope body = fingerprintText scope' body' →
            scope.method = scope'.method ∧ scope.path = scope'.path ∧ body = body') ↔
          (scope.method = scope'.method →
            ¬ Shifted scope body scope' body' ∧ ¬ Shifted scope' body' scope body)) := by
  refine ⟨determined_iff_unsplit hm, fun scope' body' hm' => ?_⟩
  rw [fingerprintText_eq_iff hm hm']
  constructor
  · intro h hmethod
    refine ⟨fun hshift => ?_, fun hshift => ?_⟩
    · exact hshift.path_ne (h ⟨hmethod, .inr (.inl hshift)⟩).2.1
    · exact hshift.path_ne (h ⟨hmethod, .inr (.inr hshift)⟩).2.1.symm
  · rintro h ⟨hmethod, ⟨hpath, heq⟩ | hshift | hshift⟩
    · exact ⟨hmethod, hpath, heq⟩
    · exact absurd hshift (h hmethod).1
    · exact absurd hshift (h hmethod).2

/-- A POST. -/
def postTo (path body : String) : HttpRequest where
  scope :=
    { type := "http", method := "POST", path := path, query_string := [],
      headers := [(bytes "idempotency-key", bytes "k")], client := none }
  messages := [.request (bytes body) false]

/-- A request with a JSON body to a path of one line shares its text with no other. -/
theorem determined_iff_json :
    Determined (postTo "/do" "\x7b\x7d").scope (received (postTo "/do" "\x7b\x7d").messages) :=
  (determined_iff (by decide)).1.mpr
    ⟨List.count_eq_zero.mp rfl, fun h => absurd h (by decide)⟩

/-! ### Answers -/

variable {T : Type} [DecidableEq T] {sha256 : Bytes → String} {S : Settings}
  {http : T → HttpRequest} {c d : Config T (Store T) (Proc T)} {t : T} {env : Env} {req : Request}
  {now : ℕ} {id : Uuid} {record : IdempotencyKey T}

/-- The requests are hashed from one text. -/
def SameText (r r' : HttpRequest) : Prop :=
  SameContent r r' ∨ r.scope.method = r'.scope.method ∧
    (Shifted r.scope (received r.messages) r'.scope (received r'.messages) ∨
      Shifted r'.scope (received r'.messages) r.scope (received r.messages))

/-- Fingerprints are equal exactly if the texts are, as far as SHA-256 has no collisions. -/
theorem request_hash_eq_iff_sameText (hsha : Function.Injective sha256) {r r' : HttpRequest}
    {req req' : Request} (hr : claimOf sha256 S r = some req)
    (hr' : claimOf sha256 S r' = some req') :
    req.request_hash = req'.request_hash ↔ SameText r r' := by
  obtain ⟨hm, -, -, hhash⟩ := claimOf_eq_some hr
  obtain ⟨hm', -, -, hhash'⟩ := claimOf_eq_some hr'
  rw [hhash, hhash', fingerprint, fingerprint, hsha.eq_iff, fingerprintText_eq_iff hm hm',
    SameText, SameContent, and_or_left]

/-- **Answers follow the text.** A claim that finds an unexpired claim of its key in place is
refused as a different request exactly if the two are not hashed from one text. -/
theorem answered_by_text (hsha : Function.Injective sha256)
    (hrun : (program S).Run (Sends sha256 S http) init c) (hp : c.proc t = .inspectLock req now id)
    (hstep : (program S).step c t (.stmt env) = some d)
    (hrow : c.shared.rows.view t req.slot = some record) (hid : record.id = id)
    (hlive : now < record.expires_at) :
    d.proc t = .answered req .mismatch ↔ ¬ SameText (http record.claimed_by) (http t) := by
  obtain ⟨hans, hreq, req', hreq', hhash⟩ := answered_of_lock hrun hp hstep hrow hid hlive
  rw [← request_hash_eq_iff_sameText hsha hreq' hreq, hhash, hans, inspectResult]
  constructor
  · intro h heq
    rw [if_neg (not_not.mpr heq)] at h
    split at h <;> cases h
  · intro hne
    rw [if_pos hne]

set_option maxRecDepth 10000 in
/-- A line is moved from the path to the body: the second request is answered with the response
of the first one, and its handler does not run. -/
theorem not_determined :
    ∃ (http : Fin 2 → HttpRequest) (c : Config (Fin 2) (Store (Fin 2)) (Proc (Fin 2)))
      (req : Request) (cached : CachedResponse),
      (http 0).scope.path = "/a\nb" ∧ received (http 0).messages = bytes "c" ∧
        (http 1).scope.path = "/a" ∧ received (http 1).messages = bytes "b\nc" ∧
        fingerprintText (http 0).scope (received (http 0).messages) =
          fingerprintText (http 1).scope (received (http 1).messages) ∧
        (program shortLease).Run
          (fun c t a => Sends latin1 shortLease http c t a ∧ OwnKey c t a) init c ∧
        claimOf latin1 shortLease (http 0) = some req ∧
        c.proc 1 = .answered req (.replay cached) ∧
        cached = ⟨200, [], [120], some req.request_hash⟩ := by
  have hreplay : ((program shortLease).replay
      (fun c t a => Sends latin1 shortLease (pair (postTo "/a\nb" "c") (postTo "/a" "b\nc")) c t a ∧
        OwnKey c t a) init
      (claims 0 ⟨"anonymous", "k", "POST /a\nb\nc"⟩ ++ respond 0 ++
        [(0, next 1), (0, next 1), (0, next 1)] ++
        inspects 1 ⟨"anonymous", "k", "POST /a\nb\nc"⟩ ++ [(1, next 2)])).any (fun c =>
          decide (c.proc 1 = .answered ⟨"anonymous", "k", "POST /a\nb\nc"⟩
            (.replay ⟨200, [], [120], some "POST /a\nb\nc"⟩))) = true := by
    decide
  obtain ⟨c, hrun, hp⟩ := Program.exists_run_of_replay hreplay
  exact ⟨pair (postTo "/a\nb" "c") (postTo "/a" "b\nc"), c, _, _, rfl, by decide, rfl, by decide,
    by decide, hrun, by decide, of_decide_eq_true hp, rfl⟩

end BackendManager.Idempotency
