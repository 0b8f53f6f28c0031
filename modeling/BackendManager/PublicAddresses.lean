import BackendManager.AddressSpace
import BackendManager.Egress

/-!
# Which Addresses Are Public

`_is_public` refuses an address by the registries one after the other. An address that none of
them has is public, so that each range that is set apart has to be in one of them. All ranges are
but one: the site-local addresses of IPv6 are deprecated, but neither private, nor reserved, nor
link-local for `ipaddress`.

The ranges are listed as in the registries of special-purpose addresses, each with its networks
of both families. That the check refuses a range is proved from the prefixes alone: every
network of the range lies within one that the check looks at, or has no part in global unicast.
Nothing is enumerated, so that the statement is about all addresses, the mapped forms of IPv4
addresses among those of IPv6.

## Main results

* `is_public_iff`: the public addresses are those of global unicast and the site-local ones.
* `ranges_refused_iff`: every range is refused, and global unicast alone accepted, outside of the
  site-local addresses.
* `deliver_webhook_global`: where a delivery is posted to.
-/

namespace BackendManager.Webhooks.Egress

open Ipaddress Urllib

/-- The registries are the ranges of the same names. -/
theorem is_special_eq (address : Address) : is_special address =
    (Range.privateUse.contains address || Range.loopback.contains address ||
      Range.linkLocal.contains address || Range.reserved.contains address ||
      Range.multicast.contains address || Range.unspecified.contains address) := by
  have hloopback (ip : BitVec 128) :
      (net6 [0, 0, 0, 0, 0, 0, 0, 1] 128).contains ip = decide (ip = 1) := Network.contains_host
  have hzero4 (ip : BitVec 32) : (net4 0 0 0 0 32).contains ip = decide (ip = 0) :=
    Network.contains_host
  have hzero6 (ip : BitVec 128) : (net6 [] 128).contains ip = decide (ip = 0) :=
    Network.contains_host
  rw [is_special, Range.contains_privateUse, Address.is_loopback, Address.is_link_local,
    Address.is_reserved, Address.is_multicast, Address.is_unspecified]
  simp only [Range.contains]
  rcases judged_cases address with ⟨ip, heq⟩ | ⟨ip, heq⟩
  · simp [heq, Range.networks4, Range.exceptions4, among, hzero4]
  · simp [heq, Range.networks6, Range.exceptions6, among, hloopback, hzero6]

/-- An address is public if it is neither special nor in the space that carriers share. -/
theorem is_public_eq (address : Address) :
    is_public address = (!is_special address && !Range.sharedSpace.contains address) := by
  have hv4 (ip : BitVec 32) : is_public (.v4 ip) =
      (!is_special (.v4 ip) && !Range.sharedSpace.contains (.v4 ip)) := by
    simp [is_public, is_public_v4, cgnat_v4, Range.contains, judged, Range.networks4,
      Range.exceptions4, among]
  cases address with
  | v4 ip => exact hv4 ip
  | v6 ip =>
      cases hmapped : ipv4_mapped ip with
      | some mapped =>
          rw [is_public_mapped hmapped, hv4, is_special_mapped hmapped]
          simp only [Range.contains, judged, hmapped]
      | none => simp [is_public, hmapped, Range.contains, judged, Range.networks6]

/-- The guard leaves out one range. -/
theorem is_public_iff_forall (address : Address) : is_public address = true ↔
    ∀ range : Range, range ≠ .siteLocal → range.contains address = false := by
  rw [is_public_eq, is_special_eq]
  simp only [Bool.and_eq_true, Bool.not_eq_true', Bool.or_eq_false_iff]
  constructor
  · rintro ⟨⟨⟨⟨⟨⟨hprivate, hloopback⟩, hlink⟩, hreserved⟩, hmulticast⟩, hunspecified⟩, hshared⟩
    intro range hne
    cases range with
    | loopback => exact hloopback
    | privateUse => exact hprivate
    | linkLocal => exact hlink
    | siteLocal => exact absurd rfl hne
    | sharedSpace => exact hshared
    | multicast => exact hmulticast
    | reserved => exact hreserved
    | unspecified => exact hunspecified
    | uniqueLocal =>
        -- no registry has this name: the range is private
        rw [Bool.eq_false_iff] at hprivate ⊢
        exact fun h => hprivate (Range.privateUse_of_narrow rfl h)
  · intro h
    exact ⟨⟨⟨⟨⟨⟨h _ Range.noConfusion, h _ Range.noConfusion⟩, h _ Range.noConfusion⟩,
      h _ Range.noConfusion⟩, h _ Range.noConfusion⟩, h _ Range.noConfusion⟩,
      h _ Range.noConfusion⟩

/-- **What is public**: global unicast, and the site-local addresses. -/
theorem is_public_iff (address : Address) : is_public address = true ↔
    globalUnicast address = true ∨ Range.siteLocal.contains address = true := by
  rw [is_public_iff_forall, globalUnicast_iff]
  constructor
  · intro h
    cases hsite : Range.siteLocal.contains address with
    | true => exact .inr rfl
    | false =>
        refine .inl fun range => ?_
        by_cases heq : range = .siteLocal
        · rw [heq, hsite]
        · exact h range heq
  · rintro (h | hsite) range hne
    · exact h range
    · rw [Bool.eq_false_iff]
      exact fun h => hne (Range.eq_siteLocal hsite h)

/-- **When the guard refuses what it has to**: the addresses of every range, mapped ones included,
and nothing but global unicast is accepted, exactly outside of the site-local addresses. -/
theorem ranges_refused_iff (address : Address) :
    ((∀ range : Range, range.contains address = true → is_public address = false) ∧
        (is_public address = true → globalUnicast address = true)) ↔
      Range.siteLocal.contains address = false := by
  constructor
  · rintro ⟨hrefused, -⟩
    rw [Bool.eq_false_iff]
    intro hsite
    have hpublic : is_public address = true := (is_public_iff address).mpr (.inr hsite)
    exact Bool.eq_false_iff.mp (hrefused .siteLocal hsite) hpublic
  · intro hsite
    have hglobal : is_public address = true → globalUnicast address = true := fun h =>
      ((is_public_iff address).mp h).resolve_right (Bool.eq_false_iff.mp hsite)
    refine ⟨fun range hrange => ?_, hglobal⟩
    rw [Bool.eq_false_iff]
    intro hpublic
    have hnone := (globalUnicast_iff address).mp (hglobal hpublic) range
    exact Bool.eq_false_iff.mp hnone hrange

/-- A resolver that knows addresses only. -/
def literals : Net Unit where
  lower := List.map Char.toLower
  nfkc := id
  repr := id
  getaddrinfo host _ _ := (.infos [host], ())

set_option maxRecDepth 10000 in
/-- A site-local address is public, and the delivery is posted to it. -/
theorem not_ranges_refused :
    ∃ address, ip_address "fec0::1".toList = some address ∧
      Range.siteLocal.contains address = true ∧ is_public address = true ∧
      globalUnicast address = false ∧
      (deliver_webhook literals "http://[fec0::1]/hook".toList ()).1 =
        .post "http://[fec0::1]/hook".toList "[fec0::1]".toList "fec0::1".toList := by
  refine ⟨.v6 (0xfec00000000000000000000000000001), ?_, ?_, ?_, ?_, ?_⟩ <;> decide

/-- A delivery is posted to a global unicast address, or to a site-local one. -/
theorem deliver_webhook_global {σ : Type} {net : Net σ} {url : List Char} {s s' : σ}
    {posted host_header sni_hostname : List Char}
    (h : deliver_webhook net url s = (.post posted host_header sni_hostname, s')) :
    ∃ text address, dialled posted = some (literal text address) ∧
      ip_address text = some address ∧
      (globalUnicast address = true ∨ Range.siteLocal.contains address = true) := by
  obtain ⟨parts, text, address, -, -, hdialled, htext, hpublic⟩ := deliver_webhook_post h
  exact ⟨text, address, hdialled, htext, (is_public_iff address).mp hpublic⟩

end BackendManager.Webhooks.Egress
