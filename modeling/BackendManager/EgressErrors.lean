import BackendManager.Egress

/-!
# The Errors of the Egress Guard

`deliver_webhook` blocks a delivery if the guard raises `WebhookEgressError`; any other exception
fails the job, which is then tried again. The guard maps the errors of the resolver and of the
port to its own, but two errors are not covered. `urlsplit` raises `ValueError` on brackets that do
not pair up or hold no address, and on characters that normalize to a delimiter. And the resolver
encodes the host with the codec `idna` before it asks anybody: it raises `UnicodeError`, which is
no `OSError`, if a label of the name is empty or too long.

The condition is on the URL and on the host that the guard would look up, and it is exact. What
the resolver answers is not restricted, except that it raises no other exceptions than the
documented ones (`Documented`).

## Main results

* `urlsplit_isSome`: for which URLs `urlsplit` returns.
* `resolve_pinned_target_total_iff`: for which URLs the guard returns a target or raises its own
  error, and a delivery does not fail.
-/

namespace BackendManager.Webhooks.Egress

open Ipaddress Urllib

/-- The authority of a URL, on which `urlsplit` may fail. -/
def url_netloc (url : List Char) : List Char := (splitNetloc (splitScheme (clean url)).2).1

/-- **For which URLs `urlsplit` returns.** -/
theorem urlsplit_isSome (U : Unicode) (url : List Char) :
    (urlsplit U url).isSome = (bracketsOk (url_netloc url) && netlocOk U (url_netloc url)) := by
  simp only [urlsplit, url_netloc]
  split
  · rename_i h
    rw [h]
    rfl
  · rename_i h
    rw [Bool.not_eq_true] at h
    rw [h]
    rfl

variable {σ : Type}

/-- `host.encode("idna")` succeeds. In an ASCII name the codec looks at the lengths of the labels
only, of which the last one may be empty; what it does to other names is a parameter. -/
def encodable (idna : List Char → Bool) (host : List Char) : Bool :=
  if host.all fun c => c.toNat < 128 then
    (host.splitOn '.').dropLast.all (· ≠ []) && (host.splitOn '.').all (·.length < 64)
  else idna host

/-- What the resolver is documented to do: it answers with the texts of addresses, or raises
`OSError`; or it raises `UnicodeError`, on a host that cannot be encoded. -/
structure Documented (idna : List Char → Bool) (net : Net σ) : Prop where
  infos : ∀ {host port s infos s'}, net.getaddrinfo host port s = (.infos infos, s') →
    ∀ info ∈ infos, (ip_address (before '%' info)).isSome
  raised_iff : ∀ host port s,
    (net.getaddrinfo host port s).1 = .raised ↔ encodable idna host = false

/-- The host that is looked up, if the guard gets so far. -/
def looked_up (U : Unicode) (url : List Char) : Option (List Char) :=
  (urlsplit U url).bind fun parts =>
    if allowed_schemes.contains parts.scheme && parts.port.isSome then
      (parts.hostname U).filter (· ≠ [])
    else none

/-- An exception of the guard's own. -/
def Raised.IsEgress (raised : Raised) : Prop := ∃ error, raised = .egress error

variable {idna : List Char → Bool} {net : Net σ} {host url : List Char} {parts : SplitResult}
  {s s' : σ} {raised : Raised}

/-- The check raises no exception but the guard's own. -/
theorem check_addresses_error {addresses : List (List Char)}
    (hparse : ∀ address ∈ addresses, (ip_address address).isSome)
    (h : check_addresses host addresses = .error raised) : raised.IsEgress := by
  induction addresses with
  | nil => cases h
  | cons address rest ih =>
      rw [check_addresses] at h
      have haddress := hparse address List.mem_cons_self
      split at h
      · rename_i hnone
        rw [hnone] at haddress
        cases haddress
      · split at h
        · exact ih (fun a ha => hparse a (List.mem_cons_of_mem _ ha)) h
        · cases h
          exact ⟨_, rfl⟩

/-- Nor does the look-up, for a host that can be encoded. -/
theorem resolve_public_ips_error (hnet : Documented idna net) {n : ℕ}
    (h : resolve_public_ips net host n s = (.error raised, s')) :
    raised.IsEgress ∨ encodable idna host = false := by
  rw [resolve_public_ips] at h
  split at h
  · cases h
    exact .inl ⟨_, rfl⟩
  · rename_i hlookup
    exact .inr ((hnet.raised_iff host n s).mp (congrArg Prod.fst hlookup))
  · rename_i infos s₁ hlookup
    simp only at h
    split at h
    · cases h
      exact .inl ⟨_, rfl⟩
    · have hparse : ∀ address ∈ infos.map (before '%'), (ip_address address).isSome := by
        intro address haddress
        obtain ⟨info, hinfo, rfl⟩ := List.mem_map.mp haddress
        exact hnet.infos hlookup info hinfo
      cases hcheck : check_addresses host (infos.map (before '%')) with
      | ok _ =>
          rw [hcheck] at h
          cases h
      | error raised' =>
          rw [hcheck] at h
          cases h
          exact .inl (check_addresses_error hparse hcheck)

/-- Once the URL has been split, every failure is mapped to the guard's own error, but for that of
a host that cannot be encoded. -/
theorem resolve_pinned_target_error (hnet : Documented idna net)
    (hparts : urlsplit net.toUnicode url = some parts)
    (h : resolve_pinned_target net url s = (.error raised, s')) :
    raised.IsEgress ∨ ∃ host ∈ looked_up net.toUnicode url, encodable idna host = false := by
  simp only [resolve_pinned_target, hparts] at h
  split at h
  · cases h
    exact .inl ⟨_, rfl⟩
  · rename_i hscheme
    split at h
    · cases h
      exact .inl ⟨_, rfl⟩
    · rename_i host hhost
      split at h
      · cases h
        exact .inl ⟨_, rfl⟩
      · rename_i port hport
        split at h
        · rename_i hresolve
          cases h
          refine (resolve_public_ips_error hnet hresolve).imp_right fun hencode =>
            ⟨host, ?_, hencode⟩
          have hallowed : allowed_schemes.contains parts.scheme = true := by simpa using hscheme
          rw [looked_up, hparts, Option.bind_some, hallowed, hport]
          exact hhost
        · cases h

/-- The error of a host that cannot be encoded escapes. -/
theorem resolve_pinned_target_raised (hnet : Documented idna net)
    (hhost : host ∈ looked_up net.toUnicode url) (hencode : encodable idna host = false) (s : σ) :
    (resolve_pinned_target net url s).1 = .error .resolver := by
  obtain ⟨parts, hparts, hhost⟩ := Option.bind_eq_some_iff.mp hhost
  split at hhost
  · rename_i hallowed
    rw [Bool.and_eq_true] at hallowed
    obtain ⟨port, hport⟩ := Option.isSome_iff_exists.mp hallowed.2
    have hlookup := (hnet.raised_iff host (connect_port parts.scheme port) s).mpr hencode
    have hresolve : (resolve_public_ips net host (connect_port parts.scheme port) s).1 =
        .error .resolver := by
      rw [resolve_public_ips]
      split <;> rename_i heq <;> rw [heq] at hlookup <;> first | rfl | cases hlookup
    simp only [resolve_pinned_target, hparts, hallowed.1, hhost, hport, Bool.not_true,
      Bool.false_eq_true, if_false]
    split
    · rename_i heq
      rw [heq] at hresolve
      exact congrArg Except.error (Except.error.inj hresolve)
    · rename_i heq
      rw [heq] at hresolve
      cases hresolve
  · cases hhost

/-- A delivery fails exactly if an exception that is not the guard's own escapes. -/
theorem deliver_webhook_raised (net : Net σ) (url : List Char) (s : σ) :
    (deliver_webhook net url s).1 ≠ .raised ↔
      ∀ raised, (resolve_pinned_target net url s).1 = .error raised → raised.IsEgress := by
  rw [deliver_webhook]
  cases hresolve : resolve_pinned_target net url s with
  | mk result s₁ =>
      cases result with
      | ok target => simp
      | error raised => cases raised <;> simp [Raised.IsEgress]

/-- **When the guard returns a target or raises its own error**: exactly if the brackets of the
authority pair up and hold an address, no character of it normalizes to a delimiter, and the host,
if it is looked up, can be encoded. The same URLs are those for which a delivery does not fail. -/
theorem resolve_pinned_target_total_iff (hnet : Documented idna net) (url : List Char) (s : σ) :
    ((∀ raised, (resolve_pinned_target net url s).1 = .error raised → raised.IsEgress) ∧
        (deliver_webhook net url s).1 ≠ .raised) ↔
      (bracketsOk (url_netloc url) = true ∧ netlocOk net.toUnicode (url_netloc url) = true) ∧
        ∀ host ∈ looked_up net.toUnicode url, encodable idna host = true := by
  rw [deliver_webhook_raised, and_self, ← Bool.and_eq_true, ← urlsplit_isSome]
  cases hparts : urlsplit net.toUnicode url with
  | none =>
      have hraised : (resolve_pinned_target net url s).1 = .error .valueError := by
        rw [resolve_pinned_target, hparts]
      constructor
      · intro h
        obtain ⟨_, heq⟩ := h _ hraised
        cases heq
      · intro h
        cases h.1
  | some parts =>
      constructor
      · refine fun h => ⟨rfl, fun host hhost => ?_⟩
        by_contra hencode
        obtain ⟨_, heq⟩ := h _ (resolve_pinned_target_raised hnet hhost
          (Bool.not_eq_true _ ▸ hencode) s)
        cases heq
      · rintro ⟨-, hencode⟩ raised h
        have herror : resolve_pinned_target net url s =
            (.error raised, (resolve_pinned_target net url s).2) := Prod.ext h rfl
        refine (resolve_pinned_target_error hnet hparts herror).resolve_right ?_
        rintro ⟨host, hhost, hfalse⟩
        rw [hencode host hhost] at hfalse
        cases hfalse

/-- A resolver that knows two public addresses of every host that can be encoded. -/
def encoding : Net ℕ :=
  { twoAddresses with
    getaddrinfo := fun host port n =>
      if encodable (fun _ => true) host then twoAddresses.getaddrinfo host port n
      else (.raised, n) }

/-- The resolver of the example refuses a host that cannot be encoded, as the codec does. -/
theorem getaddrinfo_encoding (host : List Char) (port n : ℕ) :
    encoding.getaddrinfo host port n =
      if encodable (fun _ => true) host then twoAddresses.getaddrinfo host port n
      else (.raised, n) := rfl

/-- It does what is documented. -/
theorem documented_encoding : Documented (fun _ => true) encoding where
  infos := by
    intro host port s infos s' h
    rw [getaddrinfo_encoding] at h
    split at h
    · cases h
      decide
    · cases h
  raised_iff := by
    intro host port s
    rw [getaddrinfo_encoding]
    split
    · rename_i hencode
      rw [hencode]
      exact ⟨nofun, nofun⟩
    · rename_i hencode
      exact ⟨fun _ => Bool.eq_false_iff.mpr hencode, fun _ => rfl⟩

set_option maxRecDepth 10000 in
/-- A port that is no number blocks the delivery, while a host with an empty label fails it. -/
theorem resolve_pinned_target_total_hooks :
    Documented (fun _ => true) encoding ∧
      ((∀ raised, (resolve_pinned_target encoding
            "https://hooks.example:port/a".toList 0).1 = .error raised → raised.IsEgress) ∧
        (deliver_webhook encoding "https://hooks.example:port/a".toList 0).1 ≠ .raised) ∧
      ¬((∀ raised, (resolve_pinned_target encoding
            "http://a..b/hook".toList 0).1 = .error raised → raised.IsEgress) ∧
        (deliver_webhook encoding "http://a..b/hook".toList 0).1 ≠ .raised) := by
  refine ⟨documented_encoding, ?_, ?_⟩
  · exact (resolve_pinned_target_total_iff documented_encoding _ 0).mpr (by decide)
  · exact mt (resolve_pinned_target_total_iff documented_encoding _ 0).mp (by decide)

set_option maxRecDepth 10000 in
/-- A bracket that is not closed: `urlsplit` fails, and so does the delivery. -/
theorem not_resolve_pinned_target_total :
    Documented (fun _ => true) encoding ∧
      (resolve_pinned_target encoding "http://[::1/hook".toList 0).1 = .error .valueError ∧
      ¬Raised.valueError.IsEgress ∧
      (deliver_webhook encoding "http://[::1/hook".toList 0).1 = .raised := by
  refine ⟨documented_encoding, by decide, ?_, by decide⟩
  rintro ⟨_, h⟩
  cases h

end BackendManager.Webhooks.Egress
