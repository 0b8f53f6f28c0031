import BackendManager.UrlSplit

/-!
# The Egress Guard

The URL of a webhook endpoint is chosen by a tenant, so that a worker which posts to it could be
made to reach an internal service. `resolve_pinned_target` resolves the host once, refuses the
URL if any address of the answer is not public, and returns a URL with the first of the
addresses in the place of the host.

The resolver is a transition of an arbitrary state, so that nothing keeps it from answering
differently each time, and the Unicode functions of the standard library are arbitrary as
well. What a client dials is the host that the grammar of URIs finds in the returned URL.

## Main results

* `resolve_pinned_target_ok`: what a target that is returned has been made of.
* `is_public_mapped`: an IPv6 address cannot hide an IPv4 address.
* `pinned_target`: the returned URL, and what it does not depend on.
* `deliver_webhook_post`: a delivery is posted to a target of the guard.
-/

namespace BackendManager.Webhooks.Egress

open Ipaddress Urllib

/-- What `getaddrinfo` answers: addresses, an `OSError`, or another exception. -/
inductive Lookup
  | infos (addresses : List (List Char))
  | osError
  | raised

/-- The standard library, as far as it is not modelled: Unicode, `repr` and the resolver. -/
structure Net (σ : Type) extends Unicode where
  repr : List Char → List Char
  getaddrinfo : List Char → ℕ → σ → Lookup × σ

/-- `WebhookEgressError`, by its reason. -/
inductive WebhookEgressError
  | unsupportedScheme (scheme : List Char)
  | missingHost
  | invalidPort (url : List Char)
  | cannotResolve (host : List Char)
  | noAddresses (host : List Char)
  | nonPublic (host address : List Char)
deriving DecidableEq

/-- `str(exc)`. -/
def WebhookEgressError.message (repr : List Char → List Char) : WebhookEgressError → List Char
  | unsupportedScheme scheme => "unsupported scheme: ".toList ++ repr scheme
  | missingHost => "missing host".toList
  | invalidPort url => "invalid port: ".toList ++ repr url
  | cannotResolve host => "cannot resolve host: ".toList ++ host
  | noAddresses host => "no addresses for host: ".toList ++ host
  | nonPublic host address => host ++ " resolves to non-public address ".toList ++ address

/-- The exceptions of the guard: its own, a `ValueError` of the standard library, or another
exception of the resolver. -/
inductive Raised
  | egress (error : WebhookEgressError)
  | valueError
  | resolver
deriving DecidableEq

/-- `PinnedTarget`. -/
structure PinnedTarget where
  url : List Char
  host_header : List Char
  sni_hostname : List Char
deriving DecidableEq

/-- `_ALLOWED_SCHEMES`. -/
def allowed_schemes : List (List Char) := [['h', 't', 't', 'p'], ['h', 't', 't', 'p', 's']]

/-- `_DEFAULT_PORTS`. -/
def default_port (scheme : List Char) : ℕ := if scheme = ['h', 't', 't', 'p'] then 80 else 443

/-- `_CGNAT_V4`. -/
def cgnat_v4 : Network 32 := net4 100 64 0 0 10

/-- The registries by which no address of this kind is public. -/
def is_special (ip : Address) : Bool :=
  ip.is_private || ip.is_loopback || ip.is_link_local || ip.is_reserved || ip.is_multicast ||
    ip.is_unspecified

/-- `_is_public`, on IPv4. -/
def is_public_v4 (ip : BitVec 32) : Bool := !is_special (.v4 ip) && !cgnat_v4.contains ip

/-- `_is_public`. -/
def is_public : Address → Bool
  | .v4 ip => is_public_v4 ip
  | .v6 ip =>
      !is_special (.v6 ip) &&
        match ipv4_mapped ip with
        | some mapped => is_public_v4 mapped
        | none => true

/-- The mapped form of an IPv4 address is as special as that address. -/
theorem is_special_mapped {ip : BitVec 128} {mapped : BitVec 32}
    (h : ipv4_mapped ip = some mapped) : is_special (.v6 ip) = is_special (.v4 mapped) := by
  simp only [is_special, Address.is_private, Address.is_loopback, Address.is_link_local,
    Address.is_reserved, Address.is_multicast, Address.is_unspecified, judged, h]

/-- An IPv6 address that maps an IPv4 address is public just as that address is. -/
theorem is_public_mapped {ip : BitVec 128} {mapped : BitVec 32}
    (h : ipv4_mapped ip = some mapped) : is_public (.v6 ip) = is_public (.v4 mapped) := by
  simp only [is_public, h, is_special_mapped h, is_public_v4]
  cases is_special (.v4 mapped) <;> simp

set_option maxRecDepth 10000 in
example : ["169.254.169.254", "127.0.0.1", "172.16.5.4", "100.64.0.1", "0.0.0.0", "::1", "fd00::1",
    "::ffff:10.0.0.1"].all (fun text => (ip_address text.toList).map is_public = some false) ∧
      ["1.1.1.1", "8.8.8.8"].all fun text =>
        (ip_address text.toList).map is_public = some true := by
  decide

section Guard

variable {σ : Type}

/-- The loop of `_resolve_public_ips`: the first address that is not public is reported. -/
def check_addresses (host : List Char) : List (List Char) → Except Raised Unit
  | [] => .ok ()
  | address :: rest =>
      match ip_address address with
      | none => .error .valueError
      | some ip =>
          if is_public ip then check_addresses host rest
          else .error (.egress (.nonPublic host address))

/-- The addresses of a host, of which there is at least one. -/
abbrev Addresses : Type := { addresses : List (List Char) // addresses ≠ [] }

/-- `_resolve_public_ips`. -/
def resolve_public_ips (net : Net σ) (host : List Char) (port : ℕ) (s : σ) :
    Except Raised Addresses × σ :=
  match net.getaddrinfo host port s with
  | (.osError, s) => (.error (.egress (.cannotResolve host)), s)
  | (.raised, s) => (.error .resolver, s)
  | (.infos infos, s) =>
      -- any IPv6 zone id is stripped
      let addresses := infos.map (before '%')
      if hne : addresses = [] then (.error (.egress (.noAddresses host)), s)
      else ((check_addresses host addresses).map fun _ => ⟨addresses, hne⟩, s)

/-- The port to connect to: `port or _DEFAULT_PORTS[scheme]`. -/
def connect_port (scheme : List Char) : Option ℕ → ℕ
  | some 0 | none => default_port scheme
  | some port => port

/-- The authority of the pinned URL: IPv6 literals are put in brackets. -/
def pinned_authority (pinned_ip : List Char) (port : Option ℕ) : List Char :=
  let authority := if ':' ∈ pinned_ip then '[' :: pinned_ip ++ [']'] else pinned_ip
  match port with
  | some port => authority ++ ':' :: Nat.toDigits 10 port
  | none => authority

/-- The target that is pinned to an address. -/
def pin (parts : SplitResult) (host : List Char) (port : Option ℕ) (pinned_ip : List Char) :
    PinnedTarget where
  url := urlunsplit { parts with netloc := pinned_authority pinned_ip port }
  -- the original name and port; any userinfo is dropped
  host_header := behindLast '@' parts.netloc
  sni_hostname := host

/-- `resolve_pinned_target`. -/
def resolve_pinned_target (net : Net σ) (url : List Char) (s : σ) :
    Except Raised PinnedTarget × σ :=
  match urlsplit net.toUnicode url with
  | none => (.error .valueError, s)
  | some parts =>
      if !allowed_schemes.contains parts.scheme then
        (.error (.egress (.unsupportedScheme parts.scheme)), s)
      else
        -- a host that is absent or empty
        match (parts.hostname net.toUnicode).filter (· ≠ []) with
        | none => (.error (.egress .missingHost), s)
        | some host =>
            match parts.port with
            | none => (.error (.egress (.invalidPort url)), s)
            | some port =>
                match resolve_public_ips net host (connect_port parts.scheme port) s with
                | (.error raised, s) => (.error raised, s)
                | (.ok addresses, s) =>
                    (.ok (pin parts host port (addresses.1.head addresses.2)), s)

/-- What `deliver_webhook` does with the URL of an endpoint: it blocks the delivery and records
the reason, fails, or posts, once and without following redirects. -/
inductive Delivery
  | blocked (reason : List Char)
  | raised
  | post (url host sni_hostname : List Char)
deriving DecidableEq

/-- `deliver_webhook`, up to the request. -/
def deliver_webhook (net : Net σ) (url : List Char) (s : σ) : Delivery × σ :=
  match resolve_pinned_target net url s with
  | (.ok target, s) => (.post target.url target.host_header target.sni_hostname, s)
  | (.error (.egress error), s) => (.blocked (error.message net.repr), s)
  | (.error _, s) => (.raised, s)

/-! ### What the guard has checked -/

variable {net : Net σ} {host url : List Char} {parts : SplitResult} {port : Option ℕ} {s s' : σ}

/-- The check passes only if every address is one, and public. -/
theorem check_addresses_ok {addresses : List (List Char)}
    (h : check_addresses host addresses = .ok ()) :
    ∀ address ∈ addresses, ∃ ip, ip_address address = some ip ∧ is_public ip = true := by
  induction addresses with
  | nil => exact fun address hmem => nomatch hmem
  | cons address rest ih =>
      rw [check_addresses] at h
      split at h
      · cases h
      · rename_i ip hip
        split at h
        · rename_i hpublic
          intro address' hmem
          rcases List.mem_cons.mp hmem with rfl | hmem
          · exact ⟨ip, hip, hpublic⟩
          · exact ih h address' hmem
        · cases h

/-- The addresses are those of one answer of the resolver, and all of them are public. -/
theorem resolve_public_ips_ok {n : ℕ} {addresses : Addresses}
    (h : resolve_public_ips net host n s = (.ok addresses, s')) :
    ∃ first rest, net.getaddrinfo host n s = (.infos (first :: rest), s') ∧
      addresses.1.head addresses.2 = before '%' first ∧
      ∀ info ∈ first :: rest,
        ∃ ip, ip_address (before '%' info) = some ip ∧ is_public ip = true := by
  rw [resolve_public_ips] at h
  split at h
  · cases h
  · cases h
  · rename_i infos s₁ hlookup
    simp only at h
    split at h
    · cases h
    · rename_i hne
      cases hcheck : check_addresses host (infos.map (before '%')) with
      | error raised =>
          rw [hcheck] at h
          cases h
      | ok _ =>
          rw [hcheck, Except.map, Prod.mk.injEq, Except.ok.injEq] at h
          obtain ⟨rfl, rfl⟩ := h
          cases infos with
          | nil => exact absurd rfl hne
          | cons first rest =>
              refine ⟨first, rest, hlookup, rfl, fun info hinfo => ?_⟩
              exact check_addresses_ok hcheck _ (List.mem_map_of_mem hinfo)

/-- **What a target is made of**: the guard pins one exactly if the URL has a host, a port that
is none or a number, and the resolver a public answer. -/
theorem resolve_pinned_target_ok {target : PinnedTarget} :
    resolve_pinned_target net url s = (.ok target, s') ↔
      ∃ parts host port addresses, urlsplit net.toUnicode url = some parts ∧
        parts.scheme ∈ allowed_schemes ∧ parts.hostname net.toUnicode = some host ∧ host ≠ [] ∧
        parts.port = some port ∧
        resolve_public_ips net host (connect_port parts.scheme port) s = (.ok addresses, s') ∧
        target = pin parts host port (addresses.1.head addresses.2) := by
  constructor
  · intro h
    rw [resolve_pinned_target] at h
    split at h
    · cases h
    · rename_i parts hparts
      split at h
      · cases h
      · rename_i hscheme
        split at h
        · cases h
        · rename_i host hhost
          obtain ⟨hhost, hne⟩ := Option.filter_eq_some_iff.mp hhost
          split at h
          · cases h
          · rename_i port hport
            split at h
            · cases h
            · rename_i addresses s₁ haddresses
              simp only [Prod.mk.injEq, Except.ok.injEq] at h
              obtain ⟨rfl, rfl⟩ := h
              have hallowed : parts.scheme ∈ allowed_schemes := by simpa using hscheme
              exact ⟨parts, host, port, addresses, hparts, hallowed, hhost, of_decide_eq_true hne,
                hport, haddresses, rfl⟩
  · rintro ⟨parts, host, port, addresses, hparts, hscheme, hhost, hne, hport, haddresses, rfl⟩
    have hfilter : (parts.hostname net.toUnicode).filter (· ≠ []) = some host := by
      rw [hhost, Option.filter_some, if_pos (decide_eq_true hne)]
    have hcontains : allowed_schemes.contains parts.scheme = true := by simpa using hscheme
    simp only [resolve_pinned_target, hparts, hcontains, hfilter, hport, haddresses,
      Bool.not_true, Bool.false_eq_true, if_false]

/-! ### The pinned URL -/

/-- An address in the place of a host: IPv6 in brackets. -/
def literal (text : List Char) : Address → List Char
  | .v4 _ => text
  | .v6 _ => '[' :: text ++ [']']

/-- The host that a client of a URL dials. -/
def dialled (url : List Char) : Option (List Char) :=
  (Uri.parse url).bind fun uri =>
    uri.authority.map fun authority => (Uri.parseAuthority authority).host

/-- The pinned authority is a host and a port without userinfo. -/
theorem pinned_authority_eq (pinned_ip : List Char) (port : Option ℕ) :
    pinned_authority pinned_ip port =
      Uri.printAuthority pinned_ip (port.map (Nat.toDigits 10)) := by
  cases port with
  | none => exact (List.append_nil _).symm
  | some port => rfl

/-- And it is not empty. -/
theorem pinned_authority_ne {pinned_ip : List Char} {ip : Address}
    (hip : ip_address pinned_ip = some ip) (port : Option ℕ) :
    pinned_authority pinned_ip port ≠ [] := by
  have hne : pinned_ip ≠ [] := by
    rintro rfl
    cases hip
  rw [pinned_authority_eq, Uri.printAuthority, Uri.hostText]
  split <;> simp [hne]

/-- The characters of an address delimit nothing in an authority or a URL. -/
theorem not_delimiter {c : Char} (h : isAddressChar c = true) :
    c ∉ ['@', '[', ']'] ∧ c ∉ ['/', '?', '#'] := by
  constructor
  all_goals
    intro hmem
    simp only [List.mem_cons, List.not_mem_nil, or_false] at hmem
    rcases hmem with rfl | rfl | rfl <;> exact absurd h (by decide)

/-- The digits of a port are characters of an address, so that they delimit nothing. -/
theorem isAddressChar_of_mem_toDigits {n : ℕ} {c : Char} (h : c ∈ Nat.toDigits 10 n) :
    isAddressChar c = true := by
  have hdigit := Nat.isDigit_of_mem_toDigits (by decide) (by decide) h
  simp [isAddressChar, isHexDigit, hdigit]

/-- The authority of the pinned URL ends where the path begins. -/
theorem not_mem_pinned_authority {pinned_ip : List Char} {ip : Address}
    (hip : ip_address pinned_ip = some ip) (hzone : '%' ∉ pinned_ip) (port : Option ℕ) :
    ∀ c ∈ pinned_authority pinned_ip port, c ∉ ['/', '?', '#'] := by
  have haddress : ∀ c ∈ pinned_ip, c ∉ ['/', '?', '#'] :=
    fun c hc => (not_delimiter (chars_of_ip_address hip hzone c hc)).2
  have hhost : ∀ c ∈ Uri.hostText pinned_ip, c ∉ ['/', '?', '#'] := by
    intro c hc
    rw [Uri.hostText] at hc
    split at hc
    · simp only [List.cons_append, List.mem_cons, List.mem_append, List.not_mem_nil,
        or_false] at hc
      rcases hc with rfl | hc | rfl
      · decide
      · exact haddress c hc
      · decide
    · exact haddress c hc
  intro c hc
  rw [pinned_authority_eq, Uri.printAuthority] at hc
  rcases List.mem_append.mp hc with hc | hc
  · exact hhost c hc
  · cases port with
    | none => cases hc
    | some n =>
        rcases List.mem_cons.mp hc with rfl | hc
        · decide
        · exact (not_delimiter (isAddressChar_of_mem_toDigits hc)).2

/-- The host of the pinned URL is the literal of the address. -/
theorem parseAuthority_pinned {pinned_ip : List Char} {ip : Address}
    (hip : ip_address pinned_ip = some ip) (hzone : '%' ∉ pinned_ip) (port : Option ℕ) :
    Uri.parseAuthority (pinned_authority pinned_ip port) =
      ⟨none, literal pinned_ip ip, port.map (Nat.toDigits 10)⟩ := by
  have hhost : Uri.hostText pinned_ip = literal pinned_ip ip := by
    have hcolon := colon_mem_iff hip hzone
    rw [Uri.hostText]
    cases ip with
    | v4 ip => rw [if_neg (by simp [hcolon]), literal]
    | v6 ip => rw [if_pos (hcolon.mpr ⟨ip, rfl⟩), literal]
  rw [pinned_authority_eq, Uri.parseAuthority_print, hhost]
  · exact fun c hc => (not_delimiter (chars_of_ip_address hip hzone c hc)).1
  · intro text htext hat
    obtain ⟨n, -, rfl⟩ := Option.map_eq_some_iff.mp htext
    exact (not_delimiter (isAddressChar_of_mem_toDigits hat)).1 (by decide)

/-- The allowed schemes have none of the characters that end a scheme. -/
theorem scheme_of_allowed {scheme : List Char} (h : scheme ∈ allowed_schemes) :
    scheme ≠ [] ∧ ∀ c ∈ scheme, c ∉ [':', '/', '?', '#'] := by
  simp only [allowed_schemes, List.mem_cons, List.not_mem_nil, or_false] at h
  rcases h with rfl | rfl <;> simp

/-- The pinned URL has the components of the original one, save the authority. -/
theorem parse_pin {pinned_ip : List Char} {ip : Address} (h : parts.WellFormed)
    (hscheme : parts.scheme ∈ allowed_schemes) (hnetloc : parts.netloc ≠ [])
    (hip : ip_address pinned_ip = some ip) (hzone : '%' ∉ pinned_ip) :
    Uri.parse (pin parts host port pinned_ip).url =
      some { parts.toUri with authority := some (pinned_authority pinned_ip port) } := by
  obtain ⟨hne, hchars⟩ := scheme_of_allowed hscheme
  exact parse_urlunsplit hne hchars (pinned_authority_ne hip port)
    ⟨not_mem_pinned_authority hip hzone port, fun _ => h.path_abs hnetloc, h.path, h.query⟩

/-- **What a client dials** is the pinned address: parsing the URL that was put together gives back
its authority. -/
theorem dialled_pin {pinned_ip : List Char} {ip : Address} (h : parts.WellFormed)
    (hscheme : parts.scheme ∈ allowed_schemes) (hnetloc : parts.netloc ≠ [])
    (hip : ip_address pinned_ip = some ip) (hzone : '%' ∉ pinned_ip) :
    dialled (pin parts host port pinned_ip).url = some (literal pinned_ip ip) := by
  rw [dialled, parse_pin h hscheme hnetloc hip hzone, Option.bind_some, Option.map_some,
    parseAuthority_pinned hip hzone]

/-- **What the pinned host depends on.** Another URL with the same scheme whose authority is the
same behind any user information is pinned, in the same state of the resolver, to the same
address and name, whatever the rest of it. -/
theorem resolve_pinned_target_congr {url' : List Char} {parts' : SplitResult}
    {target : PinnedTarget} (h : resolve_pinned_target net url s = (.ok target, s'))
    (hparts : urlsplit net.toUnicode url = some parts)
    (hparts' : urlsplit net.toUnicode url' = some parts') (hscheme : parts'.scheme = parts.scheme)
    (hnetloc : behindLast '@' parts'.netloc = behindLast '@' parts.netloc) :
    ∃ target', resolve_pinned_target net url' s = (.ok target', s') ∧
      dialled target'.url = dialled target.url ∧ target'.host_header = target.host_header ∧
      target'.sni_hostname = target.sni_hostname := by
  obtain ⟨parts₀, host, port, addresses, hparts₀, hallowed, hhost, hne, hport, haddresses, rfl⟩ :=
    resolve_pinned_target_ok.mp h
  obtain rfl : parts₀ = parts := Option.some.inj (hparts₀.symm.trans hparts)
  have hinfo := hostinfo_congr hnetloc
  have hhost' : parts'.hostname net.toUnicode = some host := by
    rw [← hhost, SplitResult.hostname, SplitResult.hostname, hinfo]
  have hport' : parts'.port = some port := by
    rw [← hport, SplitResult.port, SplitResult.port, hinfo]
  have hallowed' : parts'.scheme ∈ allowed_schemes := hscheme ▸ hallowed
  obtain ⟨first, rest, -, hfirst, hpublic⟩ := resolve_public_ips_ok haddresses
  obtain ⟨ip, hip, -⟩ := hpublic first List.mem_cons_self
  have hzone : '%' ∉ before '%' first := not_mem_before
  rw [← hfirst] at hip hzone
  refine ⟨pin parts' host port (addresses.1.head addresses.2), resolve_pinned_target_ok.mpr
    ⟨parts', host, port, addresses, hparts', hallowed', hhost', hne, hport', ?_, rfl⟩, ?_, hnetloc,
    rfl⟩
  · rw [hscheme]
    exact haddresses
  · rw [dialled_pin (urlsplit_wellFormed hparts) hallowed (netloc_ne_of_hostname hhost) hip hzone]
    exact dialled_pin (urlsplit_wellFormed hparts') hallowed' (netloc_ne_of_hostname hhost') hip
      hzone

/-- **The pinned target.** Every address of the one answer that is asked for is public. As a URI,
the target has the components of the URL, with the literal of the first address as its host, the
port if there is one, and no user information; the name for TLS is the host that was resolved.
What the URL has as user information, path, query and fragment makes no difference to the host
that is dialled. -/
theorem pinned_target {target : PinnedTarget}
    (h : resolve_pinned_target net url s = (.ok target, s')) :
    ∃ parts host port first rest ip,
      urlsplit net.toUnicode url = some parts ∧ parts.hostname net.toUnicode = some host ∧
      parts.port = some port ∧
      net.getaddrinfo host (connect_port parts.scheme port) s = (.infos (first :: rest), s') ∧
      (∀ info ∈ first :: rest,
        ∃ ip, ip_address (before '%' info) = some ip ∧ is_public ip = true) ∧
      ip_address (before '%' first) = some ip ∧ target.sni_hostname = host ∧
      (∃ uri authority, Uri.parse target.url = some uri ∧ uri.scheme = parts.scheme ∧
        uri.authority = some authority ∧
        Uri.parseAuthority authority =
          ⟨none, literal (before '%' first) ip, port.map (Nat.toDigits 10)⟩ ∧
        uri.path = parts.path ∧ uri.query.getD [] = parts.query ∧
        uri.fragment.getD [] = parts.fragment) ∧
      ∀ url' parts', urlsplit net.toUnicode url' = some parts' → parts'.scheme = parts.scheme →
        behindLast '@' parts'.netloc = behindLast '@' parts.netloc →
        ∃ target', resolve_pinned_target net url' s = (.ok target', s') ∧
          dialled target'.url = dialled target.url ∧
          target'.sni_hostname = target.sni_hostname := by
  obtain ⟨parts, host, port, addresses, hparts, hallowed, hhost, -, hport, haddresses, rfl⟩ :=
    resolve_pinned_target_ok.mp h
  obtain ⟨first, rest, hlookup, hfirst, hpublic⟩ := resolve_public_ips_ok haddresses
  obtain ⟨ip, hip, -⟩ := hpublic first List.mem_cons_self
  have hzone : '%' ∉ before '%' first := not_mem_before
  have huri : Uri.parse (pin parts host port (addresses.1.head addresses.2)).url =
      some { parts.toUri with authority := some (pinned_authority (before '%' first) port) } := by
    rw [hfirst]
    exact parse_pin (urlsplit_wellFormed hparts) hallowed (netloc_ne_of_hostname hhost) hip hzone
  refine ⟨parts, host, port, first, rest, ip, hparts, hhost, hport, hlookup, hpublic, hip, rfl,
    ⟨_, _, huri, rfl, rfl, parseAuthority_pinned hip hzone port, rfl, getD_nonempty _,
      getD_nonempty _⟩, ?_⟩
  intro url' parts' hparts' hscheme hnetloc
  obtain ⟨target', htarget', hdialled, -, hsni⟩ :=
    resolve_pinned_target_congr h hparts hparts' hscheme hnetloc
  exact ⟨target', htarget', hdialled, hsni⟩

/-- **A delivery is posted to a public address**, under the name that was resolved. -/
theorem deliver_webhook_post {posted host_header sni_hostname : List Char}
    (h : deliver_webhook net url s = (.post posted host_header sni_hostname, s')) :
    ∃ parts text ip, urlsplit net.toUnicode url = some parts ∧
      parts.hostname net.toUnicode = some sni_hostname ∧
      dialled posted = some (literal text ip) ∧ ip_address text = some ip ∧
      is_public ip = true := by
  rw [deliver_webhook] at h
  split at h
  · rename_i target s₁ htarget
    simp only [Prod.mk.injEq, Delivery.post.injEq] at h
    obtain ⟨⟨rfl, -, rfl⟩, -⟩ := h
    obtain ⟨parts, host, port, addresses, hparts, hallowed, hhost, -, -, haddresses, rfl⟩ :=
      resolve_pinned_target_ok.mp htarget
    obtain ⟨first, rest, -, hfirst, hpublic⟩ := resolve_public_ips_ok haddresses
    obtain ⟨ip, hip, hok⟩ := hpublic first List.mem_cons_self
    refine ⟨parts, before '%' first, ip, hparts, hhost, ?_, hip, hok⟩
    rw [hfirst]
    exact dialled_pin (urlsplit_wellFormed hparts) hallowed (netloc_ne_of_hostname hhost) hip
      not_mem_before
  · cases h
  · cases h

end Guard

/-- A resolver that answers with two addresses, and counts. -/
def twoAddresses : Net ℕ where
  lower := List.map Char.toLower
  nfkc := id
  repr := id
  getaddrinfo _ _ n := (.infos ["2606:4700::1111%eth0".toList, "1.1.1.1".toList], n + 1)

set_option maxRecDepth 10000 in
/-- A resolver that answers with two addresses: the first one is pinned, and the name stays in the
handshake. -/
theorem pinned_target_two_addresses :
    ∃ parts host port first rest ip,
      urlsplit twoAddresses.toUnicode "https://u:p@v@Hooks.example:8443/a?b#c".toList = some parts ∧
      parts.hostname twoAddresses.toUnicode = some host ∧ parts.port = some port ∧
      twoAddresses.getaddrinfo host (connect_port parts.scheme port) 0 =
        (.infos (first :: rest), 1) ∧
      (∀ info ∈ first :: rest,
        ∃ ip, ip_address (before '%' info) = some ip ∧ is_public ip = true) ∧
      ip_address (before '%' first) = some ip ∧ "hooks.example".toList = host ∧
      (∃ uri authority,
        Uri.parse "https://[2606:4700::1111]:8443/a?b#c".toList = some uri ∧
        uri.scheme = parts.scheme ∧ uri.authority = some authority ∧
        Uri.parseAuthority authority =
          ⟨none, literal (before '%' first) ip, port.map (Nat.toDigits 10)⟩ ∧
        uri.path = parts.path ∧ uri.query.getD [] = parts.query ∧
        uri.fragment.getD [] = parts.fragment) ∧
      ∀ url' parts', urlsplit twoAddresses.toUnicode url' = some parts' →
        parts'.scheme = parts.scheme →
        behindLast '@' parts'.netloc = behindLast '@' parts.netloc →
        ∃ target', resolve_pinned_target twoAddresses url' 0 = (.ok target', 1) ∧
          dialled target'.url = dialled "https://[2606:4700::1111]:8443/a?b#c".toList ∧
          target'.sni_hostname = "hooks.example".toList := by
  have h : resolve_pinned_target twoAddresses "https://u:p@v@Hooks.example:8443/a?b#c".toList 0 =
      (.ok ⟨"https://[2606:4700::1111]:8443/a?b#c".toList, "Hooks.example:8443".toList,
        "hooks.example".toList⟩, 1) := by
    decide
  exact pinned_target h

end BackendManager.Webhooks.Egress
