import BackendManager.IpAddress
import BackendManager.Uri
import Mathlib.Data.List.DropRight

/-!
# Splitting URLs

What a service relies on of Python's `urllib.parse`, as of version 3.13: `urlsplit`, the host
and the port of what it returns, and `urlunsplit`. Text is a list of characters, and the two
functions of the Unicode database that are used are parameters. Nothing here names a
particular program.

Unlike the grammar of URIs, `urlsplit` accepts almost any text. What it returns nevertheless
contains no delimiter in a place where it would be read as one, so that a URL put together
from some of its components is read back by the grammar.

The parser drops certain control characters anywhere in the text before it looks at it. Brackets
in an authority have to pair up and to hold an address, or else `urlsplit` raises; it raises as
well if normalization would turn a character of the authority into a delimiter. The host is what
stands behind the last `@`, without its port and in lower case; a port that is no number or too
large is an error of its own.

## Main results

* `urlsplit_wellFormed`: where the components of a result may contain delimiters.
* `urlsplit_of_authority`: what is left of the path of a URL whose authority is one.
* `parse_urlunsplit`: `urlunsplit` is undone by the grammar of URIs.
-/

namespace Urllib

open Uri (free free_iff all_free_iff)

/-- The part of the Unicode database that is used. -/
structure Unicode where
  /-- `str.lower`. -/
  lower : List Char → List Char
  /-- `unicodedata.normalize("NFKC", …)`. -/
  nfkc : List Char → List Char

/-- What is before the first separator: the first part of `str.partition`. -/
def before (sep : Char) (text : List Char) : List Char := text.takeWhile (free [sep])

/-- What is behind the first separator: the last part of `str.partition`. -/
def behind (sep : Char) (text : List Char) : List Char := (text.dropWhile (free [sep])).tail

/-- What is behind the last separator: the last part of `str.rpartition`. -/
def behindLast (sep : Char) (text : List Char) : List Char := text.rtakeWhile (free [sep])

/-! ### `urlsplit` -/

/-- The result of `urlsplit`. -/
structure SplitResult where
  scheme : List Char
  netloc : List Char
  path : List Char
  query : List Char
  fragment : List Char
deriving DecidableEq

/-- Control characters and spaces are stripped from the left, and some are removed everywhere. -/
def clean (url : List Char) : List Char :=
  (url.dropWhile fun c => c.toNat ≤ 32).filter (free ['\t', '\r', '\n'])

/-- `scheme_chars`. -/
def isSchemeChar (c : Char) : Bool := c.isAlphanum || !free ['+', '-', '.'] c

/-- The scheme, if what is before the first colon is one, and what follows it. -/
def splitScheme (url : List Char) : List Char × List Char :=
  let scheme := before ':' url
  if ':' ∈ url ∧ scheme.head?.any Char.isAlpha ∧ scheme.all isSchemeChar then
    (scheme.map Char.toLower, behind ':' url)
  else ([], url)

/-- `_splitnetloc`, behind two slashes. -/
def splitNetloc : List Char → List Char × List Char
  | '/' :: '/' :: rest =>
      (rest.takeWhile (free ['/', '?', '#']), rest.dropWhile (free ['/', '?', '#']))
  | url => ([], url)

/-- `_check_bracketed_host`: an IPv6 address, or the form of a future one. -/
def bracketedHostOk : List Char → Bool
  | 'v' :: rest =>
      !(rest.takeWhile Ipaddress.isHexDigit).isEmpty &&
        match rest.dropWhile Ipaddress.isHexDigit with
        | '.' :: _ :: _ => true
        | _ => false
  | host =>
      match Ipaddress.ip_address host with
      | some (.v6 _) => true
      | _ => false

/-- `_check_bracketed_netloc`: a bracket opens the host, and a port may follow it. -/
def bracketedNetlocOk (netloc : List Char) : Bool :=
  let hostname_and_port := behindLast '@' netloc
  if '[' ∈ hostname_and_port then
    let bracketed := behind '[' hostname_and_port
    let port := behind ']' bracketed
    before '[' hostname_and_port = [] && (port.isEmpty || port.head? = some ':') &&
      bracketedHostOk (before ']' bracketed)
  else bracketedHostOk (before ':' hostname_and_port)

/-- The checks on brackets: they come in pairs, and are then those of a host. -/
def bracketsOk (netloc : List Char) : Bool :=
  decide ('[' ∈ netloc) == decide (']' ∈ netloc) &&
    (!decide ('[' ∈ netloc) || bracketedNetlocOk netloc)

/-- `_checknetloc`: normalization must not bring a delimiter about. -/
def netlocOk (U : Unicode) (netloc : List Char) : Bool :=
  let n := netloc.filter (free ['@', ':', '#', '?'])
  let netloc2 := U.nfkc n
  netloc.all (·.toNat < 128) || n = netloc2 || netloc2.all (free ['/', '?', '#', '@', ':'])

/-- `urlsplit`; `none` is a `ValueError`. -/
def urlsplit (U : Unicode) (url : List Char) : Option SplitResult :=
  let (scheme, url) := splitScheme (clean url)
  let (netloc, url) := splitNetloc url
  let fragment := behind '#' url
  let url := before '#' url
  let query := behind '?' url
  let path := before '?' url
  if bracketsOk netloc && netlocOk U netloc then some ⟨scheme, netloc, path, query, fragment⟩
  else none

namespace SplitResult

/-- `_hostinfo`: the host and the text of the port. -/
def hostinfo (parts : SplitResult) : List Char × List Char :=
  let hostinfo := behindLast '@' parts.netloc
  if '[' ∈ hostinfo then
    let bracketed := behind '[' hostinfo
    (before ']' bracketed, behind ':' (behind ']' bracketed))
  else (before ':' hostinfo, behind ':' hostinfo)

/-- `hostname`: in lower case, up to a zone. -/
def hostname (U : Unicode) (parts : SplitResult) : Option (List Char) :=
  let hostname := parts.hostinfo.1
  if hostname = [] then none
  else some (U.lower (before '%' hostname) ++ hostname.dropWhile (free ['%']))

/-- `port`, which fails with a `ValueError` on what is no decimal number below 65536; `int` takes
4300 digits at most. -/
def port (parts : SplitResult) : Option (Option ℕ) :=
  let port := parts.hostinfo.2
  if port = [] then some none
  else if port.all Char.isDigit ∧ port.length ≤ 4300 ∧ Nat.ofDigitChars 10 port 0 ≤ 65535 then
    some (some (Nat.ofDigitChars 10 port 0))
  else none

end SplitResult

/-- Where the components of a result may contain delimiters. -/
structure SplitResult.WellFormed (parts : SplitResult) : Prop where
  netloc : ∀ c ∈ parts.netloc, c ∉ ['/', '?', '#']
  path_abs : parts.netloc ≠ [] → parts.path = [] ∨ ∃ rest, parts.path = '/' :: rest
  path : ∀ c ∈ parts.path, c ∉ ['?', '#']
  query : '#' ∉ parts.query

/-- The part before a separator does not contain it. -/
theorem not_mem_before {sep : Char} {text : List Char} : sep ∉ before sep text := by
  intro h
  have hfree := List.mem_takeWhile_imp h
  simp [free] at hfree

/-- What is before a separator is in the text. -/
theorem mem_of_mem_before {sep c : Char} {text : List Char} (h : c ∈ before sep text) :
    c ∈ text :=
  List.takeWhile_subset _ h

/-- And so is what is behind it. -/
theorem mem_of_mem_behind {sep c : Char} {text : List Char} (h : c ∈ behind sep text) :
    c ∈ text :=
  List.dropWhile_subset _ (List.mem_of_mem_tail h)

/-- What follows an authority is empty or begins with one of the delimiters that end it. -/
theorem splitNetloc_snd {url : List Char} (h : (splitNetloc url).1 ≠ []) :
    (splitNetloc url).2 = [] ∨
      ∃ d rest, (splitNetloc url).2 = d :: rest ∧ (d = '/' ∨ d = '?' ∨ d = '#') := by
  rw [splitNetloc.eq_def] at h ⊢
  split
  · rename_i rest
    cases hrest : rest.dropWhile (free ['/', '?', '#']) with
    | nil => exact .inl rfl
    | cons d rest' =>
        have hd : ¬free ['/', '?', '#'] d = true := by
          have hhead := List.head?_dropWhile_not (free ['/', '?', '#']) rest
          simpa [hrest] using hhead
        simp only [free_iff, not_not, List.mem_cons, List.not_mem_nil, or_false] at hd
        exact .inr ⟨d, rest', rfl, hd⟩
  · rename_i hne
    split at h
    · exact absurd rfl (hne _)
    · exact absurd rfl h

/-- The authority ends at the first of the three characters that end it. -/
theorem not_mem_splitNetloc {url : List Char} :
    ∀ c ∈ (splitNetloc url).1, c ∉ ['/', '?', '#'] := by
  intro c hc
  rw [splitNetloc.eq_def] at hc
  split at hc
  · exact free_iff.mp (List.mem_takeWhile_imp hc)
  · cases hc

/-- **What `urlsplit` returns.** -/
theorem urlsplit_wellFormed {U : Unicode} {url : List Char} {parts : SplitResult}
    (h : urlsplit U url = some parts) : parts.WellFormed := by
  rw [urlsplit] at h
  simp only [Option.ite_none_right_eq_some, Option.some.injEq] at h
  obtain ⟨-, rfl⟩ := h
  generalize (splitScheme (clean url)).2 = rest
  refine ⟨not_mem_splitNetloc, fun hne => ?_, ?_, ?_⟩
  · -- a query or a fragment leaves no path
    simp only at hne ⊢
    rcases splitNetloc_snd hne with heq | ⟨d, rest', heq, rfl | rfl | rfl⟩
    · rw [heq]
      exact .inl rfl
    · refine .inr ⟨before '?' (before '#' rest'), ?_⟩
      rw [heq]
      rfl
    · rw [heq]
      exact .inl rfl
    · rw [heq]
      exact .inl rfl
  · intro c hc
    simp only [List.mem_cons, List.not_mem_nil, or_false, not_or]
    refine ⟨?_, ?_⟩
    · rintro rfl
      exact not_mem_before hc
    · rintro rfl
      exact not_mem_before (mem_of_mem_before hc)
  · exact fun hmem => not_mem_before (mem_of_mem_behind hmem)

/-! ### The path of an absolute URL -/

/-- What `urlsplit` leaves of a path: without tabs and line breaks, and up to the first `?` or
`#`. -/
def shown (path : List Char) : List Char :=
  (path.filter (free ['\t', '\r', '\n'])).takeWhile (free ['?', '#'])

/-- **Which texts are left as they are.** -/
theorem shown_eq_self_iff {text : List Char} :
    shown text = text ↔ ∀ c ∈ text, c ∉ ['\t', '\r', '\n', '?', '#'] := by
  have hmem : ∀ c : Char, c ∉ ['\t', '\r', '\n', '?', '#'] ↔
      free ['\t', '\r', '\n'] c = true ∧ free ['?', '#'] c = true := by
    intro c
    simp only [free_iff, List.mem_cons, List.not_mem_nil, or_false]
    tauto
  simp only [hmem]
  constructor
  · intro h c hc
    rw [← h] at hc
    exact ⟨(List.mem_filter.mp (List.takeWhile_subset _ hc)).2, List.mem_takeWhile_imp hc⟩
  · intro h
    rw [shown, List.filter_eq_self.mpr fun c hc => (h c hc).1,
      List.takeWhile_eq_self_iff.mpr fun c hc => (h c hc).2]

/-- What is left is part of the text. -/
theorem shown_sublist (text : List Char) : (shown text).Sublist text :=
  (List.takeWhile_sublist _).trans List.filter_sublist

/-- It has nothing that is removed or ends a path. -/
theorem not_mem_shown {text : List Char} :
    ∀ c ∈ shown text, c ∉ ['\t', '\r', '\n', '?', '#'] := by
  intro c hc hmem
  have hfilter := (List.mem_filter.mp (List.takeWhile_subset _ hc)).2
  have htake : free ['?', '#'] c = true := List.mem_takeWhile_imp hc
  simp only [free_iff, List.mem_cons, List.not_mem_nil, or_false] at hfilter htake hmem
  tauto

/-- What is left of a path in two parts. -/
theorem shown_append (front back : List Char) :
    shown (front ++ back) =
      if front.all (free ['?', '#']) then shown front ++ shown back else shown front := by
  have hall : ((front.filter (free ['\t', '\r', '\n'])).takeWhile (free ['?', '#'])).length =
      (front.filter (free ['\t', '\r', '\n'])).length ↔ front.all (free ['?', '#']) = true := by
    rw [all_free_iff]
    constructor
    · intro hlength c hc hmem
      have hself := (List.takeWhile_prefix (free ['?', '#'])).eq_of_length hlength
      have hkept : c ∈ front.filter (free ['\t', '\r', '\n']) := by
        refine List.mem_filter.mpr ⟨hc, free_iff.mpr fun hremoved => ?_⟩
        simp only [List.mem_cons, List.not_mem_nil, or_false] at hmem hremoved
        rcases hmem with rfl | rfl <;> simp at hremoved
      rw [← hself] at hkept
      exact free_iff.mp (List.mem_takeWhile_imp hkept) hmem
    · intro h
      rw [List.takeWhile_eq_self_iff.mpr fun c hc =>
        free_iff.mpr (h c (List.mem_of_mem_filter hc))]
  rw [shown, List.filter_append, List.takeWhile_append]
  by_cases h : front.all (free ['?', '#']) = true
  · rw [if_pos (hall.mpr h), if_pos h, shown, shown,
      (List.takeWhile_prefix (free ['?', '#'])).eq_of_length (hall.mpr h)]
  · rw [if_neg fun hlength => h (hall.mp hlength), if_neg h]
    rfl

/-- A text whose rest is empty, or begins with a delimiter, ends where the rest begins. -/
theorem takeWhile_append_delimited {p : Char → Bool} {text rest : List Char}
    (htext : ∀ c ∈ text, p c = true) (hrest : ∀ c ∈ rest.head?, p c = false) :
    (text ++ rest).takeWhile p = text ∧ (text ++ rest).dropWhile p = rest := by
  have hnil : rest.takeWhile p = [] ∧ rest.dropWhile p = rest := by
    cases rest with
    | nil => exact ⟨rfl, rfl⟩
    | cons c rest =>
        have hc : ¬ p c = true := by
          rw [hrest c rfl]
          exact Bool.false_ne_true
        exact ⟨List.takeWhile_cons_of_neg hc, List.dropWhile_cons_of_neg hc⟩
  rw [List.takeWhile_append_of_pos htext, List.dropWhile_append_of_pos htext, hnil.1, hnil.2,
    List.append_nil]
  exact ⟨rfl, rfl⟩

/-- The path in front of a query. -/
theorem shown_append_query {path query : List Char}
    (hquery : query = [] ∨ ∃ rest, query = '?' :: rest) :
    before '?' (before '#' ((path ++ query).filter (free ['\t', '\r', '\n']))) = shown path := by
  have hboth : ∀ text : List Char,
      before '?' (before '#' text) = text.takeWhile (free ['?', '#']) := by
    intro text
    rw [before, before, List.takeWhile_takeWhile]
    congr 1
    funext c
    simp [free]
  rw [hboth, List.filter_append, List.takeWhile_append, shown]
  split
  · rename_i hall
    have hnil : (query.filter (free ['\t', '\r', '\n'])).takeWhile (free ['?', '#']) = [] := by
      rcases hquery with rfl | ⟨rest, rfl⟩ <;> rfl
    rw [hnil, List.append_nil]
    exact ((List.takeWhile_prefix _).eq_of_length hall).symm
  · rfl

/-- A letter is no control character, no delimiter, and no blank. -/
theorem lt_toNat_of_isAlpha {c : Char} (h : c.isAlpha = true) : 58 < c.toNat := by
  have hcases : (c.isUpper || c.isLower) = true := h
  rcases (Bool.or_eq_true _ _).mp hcases with hupper | hlower
  · have hrange : 'A'.val ≤ c.val ∧ c.val ≤ 'Z'.val := of_decide_eq_true hupper
    exact lt_of_lt_of_le (by decide) (UInt32.le_iff_toNat_le.mp hrange.1)
  · have hrange : (decide ('a'.val ≤ c.val) && decide (c.val ≤ 'z'.val)) = true := hlower
    have hlow := of_decide_eq_true ((Bool.and_eq_true _ _).mp hrange).1
    exact lt_of_lt_of_le (by decide) (UInt32.le_iff_toNat_le.mp hlow)

/-- The characters of an authority: ASCII, and none that ends it or is removed. -/
def Authority (host : List Char) : Prop :=
  ∀ c ∈ host, c.toNat < 128 ∧ c ∉ ['/', '?', '#', '\t', '\r', '\n']

instance (host : List Char) : Decidable (Authority host) :=
  List.decidableBAll (fun c : Char => c.toNat < 128 ∧ c ∉ ['/', '?', '#', '\t', '\r', '\n']) host

section Authority

variable {scheme host rest : List Char}

/-- A text without tabs and line ends is cleaned of nothing. -/
theorem filter_eq_self_of_free {text : List Char} (h : ∀ c ∈ text, c ∉ ['\t', '\r', '\n']) :
    text.filter (free ['\t', '\r', '\n']) = text :=
  List.filter_eq_self.mpr fun c hc => free_iff.mpr (h c hc)

/-- A letter is kept. -/
theorem not_mem_of_isAlpha {c : Char} {delimiters : List Char}
    (h : c.isAlpha = true) (hdelimiters : delimiters.all (·.toNat ≤ 58) = true) :
    c ∉ delimiters := fun hmem =>
  Nat.not_lt_of_le (of_decide_eq_true (List.all_eq_true.mp hdelimiters c hmem))
    (lt_toNat_of_isAlpha h)

/-- Nothing is stripped or removed in front of the path. -/
theorem clean_append (hscheme : scheme ≠ []) (halpha : ∀ c ∈ scheme, c.isAlpha = true)
    (hhost : Authority host) :
    clean (scheme ++ ':' :: '/' :: '/' :: (host ++ rest)) =
      scheme ++ ':' :: '/' :: '/' :: (host ++ rest.filter (free ['\t', '\r', '\n'])) := by
  obtain ⟨c, tail, rfl⟩ := List.exists_cons_of_ne_nil hscheme
  have hc : ¬ decide (c.toNat ≤ 32) = true := by
    have hlt := lt_toNat_of_isAlpha (halpha c List.mem_cons_self)
    simp only [decide_eq_true_eq, not_le]
    omega
  have hkept : ∀ c' ∈ c :: tail, c' ∉ ['\t', '\r', '\n'] := fun c' hc' =>
    not_mem_of_isAlpha (halpha c' hc') rfl
  have hhostKept : ∀ c ∈ host, c ∉ ['\t', '\r', '\n'] := fun c hc hmem =>
    (hhost c hc).2 (List.mem_append_right ['/', '?', '#'] hmem)
  have hdrop : ((c :: tail) ++ ':' :: '/' :: '/' :: (host ++ rest)).dropWhile
      (fun c => decide (c.toNat ≤ 32)) = (c :: tail) ++ ':' :: '/' :: '/' :: (host ++ rest) :=
    List.dropWhile_cons_of_neg hc
  rw [clean, hdrop, List.filter_append, filter_eq_self_of_free hkept,
    List.filter_cons_of_pos rfl, List.filter_cons_of_pos rfl, List.filter_cons_of_pos rfl,
    List.filter_append, filter_eq_self_of_free hhostKept]

/-- A scheme of letters is one. -/
theorem splitScheme_append (hscheme : scheme ≠ []) (halpha : ∀ c ∈ scheme, c.isAlpha = true) :
    splitScheme (scheme ++ ':' :: rest) = (scheme.map Char.toLower, rest) := by
  have hcolon : ∀ c ∈ scheme, free [':'] c = true := fun c hc =>
    free_iff.mpr (not_mem_of_isAlpha (halpha c hc) rfl)
  obtain ⟨htake, hdrop⟩ := @takeWhile_append_delimited (free [':']) scheme (':' :: rest) hcolon
    (by rintro c ⟨⟩; decide)
  rw [splitScheme, before, behind, htake, hdrop, if_pos]
  · rfl
  · refine ⟨List.mem_append_right _ List.mem_cons_self, ?_, ?_⟩
    · obtain ⟨c, tail, rfl⟩ := List.exists_cons_of_ne_nil hscheme
      simpa using halpha c List.mem_cons_self
    · rw [List.all_eq_true]
      intro c hc
      simp [isSchemeChar, Char.isAlphanum, halpha c hc]

/-- An authority ends at the path. -/
theorem splitNetloc_append (hhost : Authority host)
    (hrest : ∀ c ∈ rest.head?, free ['/', '?', '#'] c = false) :
    splitNetloc ('/' :: '/' :: (host ++ rest)) = (host, rest) := by
  have hfree : ∀ c ∈ host, free ['/', '?', '#'] c = true := fun c hc =>
    free_iff.mpr fun hmem => (hhost c hc).2 (List.mem_append_left ['\t', '\r', '\n'] hmem)
  obtain ⟨htake, hdrop⟩ := takeWhile_append_delimited hfree hrest
  rw [splitNetloc, htake, hdrop]

/-- Nothing is normalized in an authority. -/
theorem netlocOk_of_authority (U : Unicode) (hhost : Authority host) : netlocOk U host = true := by
  have hall : host.all (·.toNat < 128) = true :=
    List.all_eq_true.mpr fun c hc => decide_eq_true (hhost c hc).1
  rw [netlocOk]
  simp [hall]

/-- **The path of an absolute URL**, if its authority is one. -/
theorem urlsplit_of_authority (U : Unicode) {path query : List Char} (hscheme : scheme ≠ [])
    (halpha : ∀ c ∈ scheme, c.isAlpha = true) (hhost : Authority host)
    (hbrackets : bracketsOk host = true) (hpath : path = [] ∨ ∃ rest, path = '/' :: rest)
    (hquery : query = [] ∨ ∃ rest, query = '?' :: rest) :
    ∃ parts, urlsplit U (scheme ++ ':' :: '/' :: '/' :: (host ++ (path ++ query))) = some parts ∧
      parts.netloc = host ∧ parts.path = shown path := by
  have hrest : ∀ c ∈ ((path ++ query).filter (free ['\t', '\r', '\n'])).head?,
      free ['/', '?', '#'] c = false := by
    rcases hpath with rfl | ⟨p, rfl⟩
    · rcases hquery with rfl | ⟨q, rfl⟩ <;> rintro c ⟨⟩
      decide
    · rintro c ⟨⟩
      decide
  simp only [urlsplit, clean_append hscheme halpha hhost, splitScheme_append hscheme halpha,
    splitNetloc_append hhost hrest, hbrackets, netlocOk_of_authority U hhost, Bool.and_self,
    if_true]
  exact ⟨_, rfl, rfl, shown_append_query hquery⟩

end Authority

/-- A host is part of an authority. -/
theorem netloc_ne_of_hostname {U : Unicode} {parts : SplitResult} {host : List Char}
    (h : parts.hostname U = some host) : parts.netloc ≠ [] := by
  intro hnil
  have hinfo : parts.hostinfo = ([], []) := by
    rw [SplitResult.hostinfo, hnil]
    rfl
  rw [SplitResult.hostname, hinfo] at h
  cases h

/-- The host and the port are in what is behind the last sign. -/
theorem hostinfo_congr {parts parts' : SplitResult}
    (h : behindLast '@' parts'.netloc = behindLast '@' parts.netloc) :
    parts'.hostinfo = parts.hostinfo := by
  rw [SplitResult.hostinfo, SplitResult.hostinfo, h]

/-! ### `urlunsplit` -/

/-- `uses_netloc`. -/
def usesNetloc : List (List Char) :=
  ["ftp", "http", "gopher", "nntp", "telnet", "imap", "wais", "file", "mms", "https", "shttp",
    "snews", "prospero", "rtsp", "rtsps", "rtspu", "rsync", "svn", "svn+ssh", "sftp", "nfs", "git",
    "git+ssh", "ws", "wss"].map String.toList

/-- `urlunsplit`. -/
def urlunsplit (parts : SplitResult) : List Char :=
  let url :=
    if parts.netloc ≠ [] then
      '/' :: '/' :: (parts.netloc ++
        if parts.path ≠ [] ∧ parts.path.head? ≠ some '/' then '/' :: parts.path else parts.path)
    else if parts.path.take 2 = ['/', '/'] then '/' :: '/' :: parts.path
    else if usesNetloc.contains parts.scheme ∧ (parts.path = [] ∨ parts.path.head? = some '/') then
      '/' :: '/' :: parts.path
    else parts.path
  let url := if parts.scheme ≠ [] then parts.scheme ++ ':' :: url else url
  let url := if parts.query ≠ [] then url ++ '?' :: parts.query else url
  if parts.fragment ≠ [] then url ++ '#' :: parts.fragment else url

/-- An empty query or fragment is left out. -/
def nonempty (text : List Char) : Option (List Char) := if text = [] then none else some text

/-- A component that is left out is the empty text. -/
@[simp] theorem getD_nonempty (text : List Char) : (nonempty text).getD [] = text := by
  rw [nonempty]
  split
  · rename_i h
    rw [h]
    rfl
  · rfl

/-- And one that is there is the text itself. -/
theorem of_nonempty {text text' : List Char} (h : nonempty text = some text') : text' = text := by
  rw [nonempty, Option.ite_none_left_eq_some] at h
  exact (Option.some.inj h.2).symm

/-- The URI that `urlunsplit` writes. -/
def SplitResult.toUri (parts : SplitResult) : Uri.Parts where
  scheme := parts.scheme
  authority := some parts.netloc
  path := parts.path
  query := nonempty parts.query
  fragment := nonempty parts.fragment

/-- What Python puts together is the printed form of the components, as in the grammar. -/
theorem urlunsplit_eq_print {parts : SplitResult} (hscheme : parts.scheme ≠ [])
    (hnetloc : parts.netloc ≠ [])
    (hpath : parts.path = [] ∨ ∃ rest, parts.path = '/' :: rest) :
    urlunsplit parts = parts.toUri.print := by
  have hslash : ¬(parts.path ≠ [] ∧ parts.path.head? ≠ some '/') := by
    rintro ⟨hne, hhead⟩
    rcases hpath with h | ⟨rest, h⟩
    · exact hne h
    · exact hhead (by rw [h]; rfl)
  rw [urlunsplit, Uri.Parts.print]
  simp only [hnetloc, hscheme, hslash, ne_eq, not_false_eq_true, if_true, if_false,
    SplitResult.toUri, Uri.Parts.tail, nonempty]
  by_cases hquery : parts.query = [] <;> by_cases hfragment : parts.fragment = [] <;>
    simp [hquery, hfragment, Uri.optional]

/-- **`urlunsplit` is undone** by the grammar of URIs. -/
theorem parse_urlunsplit {parts : SplitResult} (hscheme : parts.scheme ≠ [])
    (hchars : ∀ c ∈ parts.scheme, c ∉ [':', '/', '?', '#']) (hnetloc : parts.netloc ≠ [])
    (h : parts.WellFormed) : Uri.parse (urlunsplit parts) = some parts.toUri := by
  rw [urlunsplit_eq_print hscheme hnetloc (h.path_abs hnetloc)]
  refine Uri.parse_print ⟨hscheme, hchars, rfl, h.netloc,
    h.path_abs hnetloc, h.path, fun query hquery => ?_⟩
  rw [of_nonempty hquery]
  exact h.query

end Urllib
