import BackendManager.HttpRequest

/-!
# Who Shares an Idempotency Scope

The scope of a request is the hash of an untagged text: its `Authorization` value, else its
`X-API-Key` value, else a text made from the address of the peer. Two requests of one
caller have one scope; this module settles when two requests of different callers have
one, too.

A header with an empty value presents no credential, as the `or` of `_caller_scope` has it.

Three pairs of requests are confusable: one sends as `Authorization` what the other sends as
`X-API-Key` (`Crossed`); one sends as a credential the text that is made for the address of the
other, which sends none (`Masked`); and two requests from different addresses send an empty key,
for which no address is looked at (`Blank`). The theorem says that there are no others, for all
lists of headers and all addresses, and that none of the three can be excluded.

## Main results

* `scope_separates_iff`: two requests are told apart exactly when they are not
  `Confusable`.
* `scope_forged`: a credential that is the text of an address takes over the scope of the
  anonymous client at that address.
-/

namespace BackendManager.Idempotency

open Text

variable {sha256 : Bytes → String} {s s' : Scope} {h : CredentialHeader} {v : String}

/-- The header is missing or empty. -/
def Scope.Bare (s : Scope) (h : CredentialHeader) : Prop := ∀ v, s.value h = some v → v = ""

/-- The request presents credential `v` in header `h`. -/
def Scope.Presents (s : Scope) (h : CredentialHeader) (v : String) : Prop :=
  v ≠ "" ∧ s.value h = some v

/-- The address of the peer. -/
def Scope.address (s : Scope) : Option String := s.client.map Prod.fst

/-- Both requests present the same credential in the same header, or both present none and
come from the same address. -/
def SameCaller (s s' : Scope) : Prop :=
  (∃ h v, s.Presents h v ∧ s'.Presents h v) ∨
    (∀ h, s.Bare h) ∧ (∀ h, s'.Bare h) ∧ s.address = s'.address

/-- The `Authorization` value of `s` is the `X-API-Key` value that the scope of `s'` is made
from, and `s` does not present it there. -/
def Crossed (s s' : Scope) : Prop :=
  ∃ v, s.Presents .authorization v ∧ s'.Bare .authorization ∧ s'.value .x_api_key = some v ∧
    s.value .x_api_key ≠ some v

/-- The credential of `s` is the text that stands in for a credential of `s'`, which has
none. -/
def Masked (s s' : Scope) : Prop :=
  (s.value .authorization = some (clientText s') ∨
      s.Bare .authorization ∧ s.value .x_api_key = some (clientText s')) ∧
    s'.Bare .authorization ∧ s'.value .x_api_key = none

/-- Both requests have an empty `X-API-Key` and no other credential, and come from different
addresses. -/
def Blank (s s' : Scope) : Prop :=
  s.Bare .authorization ∧ s'.Bare .authorization ∧ s.value .x_api_key = some "" ∧
    s'.value .x_api_key = some "" ∧ s.address ≠ s'.address

/-- The pairs of requests that different callers can make under one scope. -/
def Confusable (s s' : Scope) : Prop :=
  Crossed s s' ∨ Crossed s' s ∨ Masked s s' ∨ Masked s' s ∨ Blank s s'

/-! ### What the scope is made from -/

/-- The text of a client is not empty, whether an address is known or not. -/
theorem clientText_ne_empty (s : Scope) : clientText s ≠ "" := by
  rw [clientText]
  split
  · intro h
    have := congrArg String.length h
    rw [String.length_append] at this
    exact absurd this (by simp)
  · decide

/-- The text of an address fixes the address. -/
theorem address_eq_of_clientText (h : clientText s = clientText s') : s.address = s'.address := by
  have hne : ∀ a : String, "ip:" ++ a ≠ "anonymous" := by
    intro a ha
    have hlist := congrArg String.toList ha
    rw [String.toList_append] at hlist
    exact absurd (List.cons.inj hlist).1 (by decide)
  rw [Scope.address, Scope.address]
  cases hs : s.client with
  | none =>
      cases hs' : s'.client with
      | none => rfl
      | some client' =>
          rw [clientText, clientText, hs, hs'] at h
          exact absurd h.symm (hne client'.1)
  | some client =>
      cases hs' : s'.client with
      | none =>
          rw [clientText, clientText, hs, hs'] at h
          exact absurd h (hne client.1)
      | some client' =>
          rw [clientText, clientText, hs, hs'] at h
          have hlist := congrArg String.toList h
          rw [String.toList_append, String.toList_append] at hlist
          have ha : client.1 = client'.1 := String.toList_inj.mp (List.append_cancel_left hlist)
          rw [Option.map_some, Option.map_some, ha]

/-- The scope of a request with an `Authorization` header is made from that header. -/
theorem credential_of_presents (hv : s.Presents .authorization v) : credential s = v := by
  rw [credential, hv.2, strOr, if_neg hv.1, Option.getD_some]

/-- Without one it is made from the key header, and without both from the address. -/
theorem credential_of_bare (hb : s.Bare .authorization) :
    credential s = (s.value .x_api_key).getD (clientText s) := by
  rw [credential]
  cases ha : s.value .authorization with
  | none => rfl
  | some a => rw [strOr, if_pos (hb a ha)]

/-- The three sources of a scope. -/
theorem credential_cases (s : Scope) :
    (∃ v, s.Presents .authorization v ∧ credential s = v) ∨
      (s.Bare .authorization ∧ ∃ v, s.value .x_api_key = some v ∧ credential s = v) ∨
      s.Bare .authorization ∧ s.value .x_api_key = none ∧ credential s = clientText s := by
  by_cases hb : s.Bare .authorization
  · have hcred := credential_of_bare hb
    cases hk : s.value .x_api_key with
    | none => exact .inr (.inr ⟨hb, rfl, by rw [hcred, hk, Option.getD_none]⟩)
    | some v => exact .inr (.inl ⟨hb, v, rfl, by rw [hcred, hk, Option.getD_some]⟩)
  · obtain ⟨v, hv⟩ := not_forall.mp hb
    obtain ⟨hv, hne⟩ := Classical.not_imp.mp hv
    exact .inl ⟨v, ⟨hne, hv⟩, credential_of_presents ⟨hne, hv⟩⟩

/-- A request presents no credential exactly if both headers are bare. -/
theorem bare_of_x_api_key (hb : s.Bare .authorization)
    (hk : ∀ v, s.value .x_api_key = some v → v = "") : ∀ h, s.Bare h
  | .authorization => hb
  | .x_api_key => hk

/-- Two requests of one caller, in either order. -/
theorem SameCaller.symm (hs : SameCaller s s') : SameCaller s' s := by
  rcases hs with ⟨h, v, hv, hv'⟩ | ⟨hb, hb', ha⟩
  · exact .inl ⟨h, v, hv', hv⟩
  · exact .inr ⟨hb', hb, ha.symm⟩

/-! ### Confusable requests share a scope -/

/-- What one caller sends as a bearer another sends as a key: the two share a scope. -/
theorem Crossed.confused (hc : Crossed s s') :
    credential s = credential s' ∧ ¬ SameCaller s s' := by
  obtain ⟨v, hv, hb, hk, hne⟩ := hc
  constructor
  · rw [credential_of_presents hv, credential_of_bare hb, hk, Option.getD_some]
  · rintro (⟨h, w, hw, hw'⟩ | ⟨hb', -, -⟩)
    · cases h with
      | authorization => exact hw'.1 (hb w hw'.2)
      | x_api_key =>
          obtain rfl : v = w := Option.some.inj (hk.symm.trans hw'.2)
          exact hne hw.2
    · exact hv.1 (hb' _ v hv.2)

/-- A caller without credentials shares the scope of one whose credential is the text of its
address. -/
theorem Masked.confused (hm : Masked s s') :
    credential s = credential s' ∧ ¬ SameCaller s s' := by
  obtain ⟨hs, hb, hk⟩ := hm
  have hne := clientText_ne_empty s'
  have hs' : credential s' = clientText s' := by
    rw [credential_of_bare hb, hk, Option.getD_none]
  constructor
  · rcases hs with hv | ⟨hb', hv⟩
    · rw [credential_of_presents ⟨hne, hv⟩, hs']
    · rw [credential_of_bare hb', hv, Option.getD_some, hs']
  · rintro (⟨h, w, -, hw'⟩ | ⟨hbare, -, -⟩)
    · cases h with
      | authorization => exact hw'.1 (hb w hw'.2)
      | x_api_key => exact absurd (hk.symm.trans hw'.2) (by simp)
    · rcases hs with hv | ⟨-, hv⟩
      · exact hne (hbare _ _ hv)
      · exact hne (hbare _ _ hv)

/-- Two callers that send an empty key share a scope, from different addresses. -/
theorem Blank.confused (hb : Blank s s') : credential s = credential s' ∧ ¬ SameCaller s s' := by
  obtain ⟨ha, ha', hk, hk', hne⟩ := hb
  constructor
  · rw [credential_of_bare ha, credential_of_bare ha', hk, hk', Option.getD_some,
      Option.getD_some]
  · rintro (⟨h, w, hw, -⟩ | ⟨-, -, heq⟩)
    · cases h with
      | authorization => exact hw.1 (ha w hw.2)
      | x_api_key => exact hw.1 (Option.some.inj (hw.2.symm.trans hk))
    · exact hne heq

/-- Confusable requests are those of different callers under one scope. -/
theorem Confusable.confused (hc : Confusable s s') :
    credential s = credential s' ∧ ¬ SameCaller s s' := by
  rcases hc with hc | hc | hc | hc | hc
  · exact hc.confused
  · exact ⟨hc.confused.1.symm, fun hs => hc.confused.2 hs.symm⟩
  · exact hc.confused
  · exact ⟨hc.confused.1.symm, fun hs => hc.confused.2 hs.symm⟩
  · exact hc.confused

/-! ### Nobody else does -/

/-- An `Authorization` value against the three sources of the other scope. -/
theorem sameCaller_or_confusable_of_presents (hv : s.Presents .authorization v)
    (heq : v = credential s') : SameCaller s s' ∨ Confusable s s' := by
  rcases credential_cases s' with ⟨w, hw, hc⟩ | ⟨hb, w, hk, hc⟩ | ⟨hb, hk, hc⟩
  · obtain rfl : v = w := heq.trans hc
    exact .inl (.inl ⟨_, v, hv, hw⟩)
  · obtain rfl : v = w := heq.trans hc
    by_cases hs : s.value .x_api_key = some v
    · exact .inl (.inl ⟨.x_api_key, v, ⟨hv.1, hs⟩, hv.1, hk⟩)
    · exact .inr (.inl ⟨v, hv, hb, hk, hs⟩)
  · exact .inr (.inr (.inr (.inl ⟨.inl (by rw [hv.2, heq, hc]), hb, hk⟩)))

/-- An `X-API-Key` value against the two sources that are left. -/
theorem sameCaller_or_confusable_of_key (hb : s.Bare .authorization)
    (hk : s.value .x_api_key = some v) (hb' : s'.Bare .authorization)
    (heq : v = credential s') : SameCaller s s' ∨ Confusable s s' := by
  cases hk' : s'.value .x_api_key with
  | none =>
      have hc : credential s' = clientText s' := by
        rw [credential_of_bare hb', hk', Option.getD_none]
      exact .inr (.inr (.inr (.inl ⟨.inr ⟨hb, by rw [hk, heq, hc]⟩, hb', hk'⟩)))
  | some w =>
      obtain rfl : v = w := by
        rw [heq, credential_of_bare hb', hk', Option.getD_some]
      by_cases hv : v = ""
      · subst hv
        by_cases ha : s.address = s'.address
        · have hblank : ∀ {x : Scope}, x.value .x_api_key = some "" →
              ∀ u, x.value .x_api_key = some u → u = "" := by
            intro x hx u hu
            exact Option.some.inj (hu.symm.trans hx)
          exact .inl (.inr
            ⟨bare_of_x_api_key hb (hblank hk), bare_of_x_api_key hb' (hblank hk'), ha⟩)
        · exact .inr (.inr (.inr (.inr (.inr ⟨hb, hb', hk, hk', ha⟩))))
      · exact .inl (.inl ⟨.x_api_key, v, ⟨hv, hk⟩, hv, hk'⟩)

/-- Confusion goes both ways. -/
theorem Confusable.symm (hc : Confusable s s') : Confusable s' s := by
  rcases hc with hc | hc | hc | hc | ⟨ha, ha', hk, hk', hne⟩
  · exact .inr (.inl hc)
  · exact .inl hc
  · exact .inr (.inr (.inr (.inl hc)))
  · exact .inr (.inr (.inl hc))
  · exact .inr (.inr (.inr (.inr ⟨ha', ha, hk', hk, Ne.symm hne⟩)))

/-- Requests with one credential text are of one caller or confusable. -/
theorem sameCaller_or_confusable (heq : credential s = credential s') :
    SameCaller s s' ∨ Confusable s s' := by
  have swap : SameCaller s' s ∨ Confusable s' s → SameCaller s s' ∨ Confusable s s' :=
    Or.imp SameCaller.symm Confusable.symm
  rcases credential_cases s with ⟨v, hv, hc⟩ | ⟨hb, v, hk, hc⟩ | ⟨hb, hk, hc⟩
  · exact sameCaller_or_confusable_of_presents hv (hc.symm.trans heq)
  · rcases credential_cases s' with ⟨w, hw, hc'⟩ | ⟨hb', -, -, -⟩ | ⟨hb', -, -⟩
    · exact swap (sameCaller_or_confusable_of_presents hw (hc'.symm.trans heq.symm))
    · exact sameCaller_or_confusable_of_key hb hk hb' (hc.symm.trans heq)
    · exact sameCaller_or_confusable_of_key hb hk hb' (hc.symm.trans heq)
  · rcases credential_cases s' with ⟨w, hw, hc'⟩ | ⟨hb', w, hk', hc'⟩ | ⟨hb', hk', hc'⟩
    · exact swap (sameCaller_or_confusable_of_presents hw (hc'.symm.trans heq.symm))
    · exact swap (sameCaller_or_confusable_of_key hb' hk' hb (hc'.symm.trans heq.symm))
    · have htext : clientText s = clientText s' := hc.symm.trans (heq.trans hc')
      have hnone : ∀ {x : Scope}, x.value .x_api_key = none →
          ∀ u, x.value .x_api_key = some u → u = "" := by
        intro x hx u hu
        exact absurd (hx.symm.trans hu) (by simp)
      exact .inl (.inr ⟨bare_of_x_api_key hb (hnone hk), bare_of_x_api_key hb' (hnone hk'),
        address_eq_of_clientText htext⟩)

/-- Under an injective hash, scopes are equal exactly if the hashed texts are. -/
theorem caller_scope_eq_iff (hsha : Function.Injective sha256) :
    caller_scope sha256 s = caller_scope sha256 s' ↔ credential s = credential s' := by
  constructor
  · exact fun h => utf8_injective (hsha h)
  · intro h
    rw [caller_scope, caller_scope, h]

/-- **Who shares a scope**: equal scopes mean the same caller exactly for the requests that
are not confusable. -/
theorem scope_separates_iff (hsha : Function.Injective sha256) (s s' : Scope) :
    (caller_scope sha256 s = caller_scope sha256 s' → SameCaller s s') ↔ ¬ Confusable s s' := by
  rw [caller_scope_eq_iff hsha]
  constructor
  · intro hsep hc
    exact hc.confused.2 (hsep hc.confused.1)
  · intro hc heq
    exact (sameCaller_or_confusable heq).resolve_right hc

/-- Two bearers are told apart. -/
theorem scope_separates_iff_bearer :
    ¬ Confusable ⟨"http", "POST", "/", [], [(bytes "authorization", bytes "Bearer a")], none⟩
      ⟨"http", "POST", "/", [], [(bytes "authorization", bytes "Bearer b")], none⟩ := by
  refine (scope_separates_iff latin1_injective _ _).mp fun h => ?_
  exact absurd h (by decide)

/-- The peer at 6.6.6.6 writes the address of another client into its `Authorization`
header, and has that client's scope. -/
theorem scope_forged :
    ∃ s s' : Scope, (∀ sha256 : Bytes → String, caller_scope sha256 s = caller_scope sha256 s') ∧
      ¬ SameCaller s s' := by
  let attacker : Scope :=
    ⟨"http", "POST", "/", [], [(bytes "authorization", bytes "ip:10.0.0.1")],
      some ("6.6.6.6", 1)⟩
  let victim : Scope := ⟨"http", "POST", "/", [], [], some ("10.0.0.1", 2)⟩
  have hmasked : Masked attacker victim := by
    refine ⟨.inl (by decide), ?_, by decide⟩
    intro v hv
    exact absurd hv (by simp [victim, Scope.value, header])
  have hcred := hmasked.confused.1
  exact ⟨attacker, victim, fun sha256 => by rw [caller_scope, caller_scope, hcred],
    hmasked.confused.2⟩

end BackendManager.Idempotency
