import Mathlib.Data.List.TakeWhile

/-!
# URIs as Text

The generic syntax of RFC 3986 for URIs with a scheme: a text is split into its five
components at the first delimiter of each (Appendix B), and components are put together again
(section 5.3). An authority is split into user information, host and port. Text is a list of
characters, and nothing here names a particular program.

Both directions are total on text, so that what a parser makes of a text that was put
together from components is a question about delimiters alone: no component may contain one
that ends it.

## Main results

* `parse_print`: components without foreign delimiters are read back as they are.
* `parseAuthority_print`: the same for a host and a port.
* `takeWhile_append_cons`, `dropWhile_append_cons`: where a component ends.
-/

namespace Uri

variable {α : Type*} {p : α → Bool} {l rest : List α} {d : α}

/-- A component ends at its first delimiter. -/
theorem takeWhile_append_cons (hl : ∀ c ∈ l, p c = true) (hd : p d = false) :
    (l ++ d :: rest).takeWhile p = l := by
  rw [List.takeWhile_append_of_pos hl, List.takeWhile_cons_of_neg (by simp [hd]),
    List.append_nil]

/-- What follows a component begins with the delimiter. -/
theorem dropWhile_append_cons (hl : ∀ c ∈ l, p c = true) (hd : p d = false) :
    (l ++ d :: rest).dropWhile p = d :: rest := by
  rw [List.dropWhile_append_of_pos hl, List.dropWhile_cons_of_neg (by simp [hd])]

/-! ### The five components -/

/-- A character that is none of the delimiters. -/
def free (delimiters : List Char) (c : Char) : Bool := !delimiters.contains c

theorem free_iff {delimiters : List Char} {c : Char} :
    free delimiters c = true ↔ c ∉ delimiters := by
  simp [free]

theorem all_free_iff {delimiters text : List Char} :
    text.all (free delimiters) = true ↔ ∀ c ∈ text, c ∉ delimiters := by
  simp only [List.all_eq_true, free_iff]

/-- A text without a delimiter. -/
theorem free_of_not_mem {delimiter : Char} {text : List Char} (h : delimiter ∉ text) :
    ∀ c ∈ text, free [delimiter] c = true := by
  intro c hc
  rw [free_iff, List.mem_singleton]
  rintro rfl
  exact h hc

/-- The components of a URI; an absent component is not an empty one. -/
structure Parts where
  scheme : List Char
  authority : Option (List Char)
  path : List Char
  query : Option (List Char)
  fragment : Option (List Char)
deriving DecidableEq

/-- A component behind its delimiter. -/
def optional (delimiter : Char) : Option (List Char) → List Char
  | some text => delimiter :: text
  | none => []

/-- The text behind a delimiter, if it comes next. -/
def after (delimiter : Char) : List Char → Option (List Char)
  | c :: rest => if c = delimiter then some rest else none
  | [] => none

/-- The hierarchical part and what follows it. -/
def Parts.tail (u : Parts) : List Char :=
  u.path ++ (optional '?' u.query ++ optional '#' u.fragment)

/-- The components put together. -/
def Parts.print (u : Parts) : List Char :=
  u.scheme ++ ':' :: match u.authority with
    | some authority => '/' :: '/' :: (authority ++ u.tail)
    | none => u.tail

/-- Path, query and fragment. -/
def parseTail (text : List Char) : List Char × Option (List Char) × Option (List Char) :=
  let rest := text.dropWhile (free ['?', '#'])
  let query := (after '?' rest).map (List.takeWhile (free ['#']))
  let fragment := after '#' (rest.dropWhile (free ['#']))
  (text.takeWhile (free ['?', '#']), query, fragment)

/-- The authority, behind two slashes, and what follows it. -/
def parseAuthorityPart : List Char → Option (List Char) × List Char
  | '/' :: '/' :: rest =>
      (some (rest.takeWhile (free ['/', '?', '#'])), rest.dropWhile (free ['/', '?', '#']))
  | text => (none, text)

/-- The components of a URI, if it has a scheme. -/
def parse (text : List Char) : Option Parts :=
  let scheme := text.takeWhile (free [':', '/', '?', '#'])
  match text.dropWhile (free [':', '/', '?', '#']) with
  | ':' :: rest =>
      if scheme = [] then none
      else
        let (authority, tail) := parseAuthorityPart rest
        let (path, query, fragment) := parseTail tail
        some ⟨scheme, authority, path, query, fragment⟩
  | _ => none

/-- No component of a URI with an authority contains a delimiter that ends it. -/
structure Parts.WellFormed (u : Parts) (authority : List Char) : Prop where
  scheme_ne : u.scheme ≠ []
  scheme : ∀ c ∈ u.scheme, c ∉ [':', '/', '?', '#']
  authority_eq : u.authority = some authority
  authority : ∀ c ∈ authority, c ∉ ['/', '?', '#']
  path_abs : u.path = [] ∨ ∃ rest, u.path = '/' :: rest
  path : ∀ c ∈ u.path, c ∉ ['?', '#']
  query : ∀ query, u.query = some query → '#' ∉ query

/-- A path ends where the query or the fragment begins. -/
theorem parseTail_tail {u : Parts} (hpath : ∀ c ∈ u.path, c ∉ ['?', '#'])
    (hquery : ∀ query, u.query = some query → '#' ∉ query) :
    parseTail u.tail = (u.path, u.query, u.fragment) := by
  obtain ⟨scheme, authority, path, query, fragment⟩ := u
  have hfree : ∀ c ∈ path, free ['?', '#'] c = true := fun c hc => free_iff.mpr (hpath c hc)
  rw [Parts.tail, parseTail]
  simp only
  cases query with
  | some query =>
      have hqfree := free_of_not_mem (hquery query rfl)
      rw [optional, List.cons_append, takeWhile_append_cons hfree (by decide),
        dropWhile_append_cons hfree (by decide), after, if_pos rfl, Option.map_some,
        List.dropWhile_cons_of_pos (by decide)]
      cases fragment with
      | some fragment =>
          rw [optional, takeWhile_append_cons hqfree (by decide),
            dropWhile_append_cons hqfree (by decide), after, if_pos rfl]
      | none =>
          rw [optional, List.append_nil, List.takeWhile_eq_self_iff.mpr hqfree,
            List.dropWhile_eq_nil_iff.mpr hqfree, after]
  | none =>
      rw [optional, List.nil_append]
      cases fragment with
      | some fragment =>
          rw [optional, takeWhile_append_cons hfree (by decide),
            dropWhile_append_cons hfree (by decide), List.dropWhile_cons_of_neg (by decide), after,
            if_neg (by decide), Option.map_none, after, if_pos rfl]
      | none =>
          rw [optional, List.append_nil, List.takeWhile_eq_self_iff.mpr hfree,
            List.dropWhile_eq_nil_iff.mpr hfree]
          rfl

/-- An authority ends where the path, the query or the fragment begins. -/
theorem parseAuthorityPart_append {u : Parts} {authority : List Char}
    (hauthority : ∀ c ∈ authority, c ∉ ['/', '?', '#'])
    (hpath : u.path = [] ∨ ∃ rest, u.path = '/' :: rest) :
    parseAuthorityPart ('/' :: '/' :: (authority ++ u.tail)) = (some authority, u.tail) := by
  have hfree : ∀ c ∈ authority, free ['/', '?', '#'] c = true :=
    fun c hc => free_iff.mpr (hauthority c hc)
  -- the rest is empty, or begins with a delimiter of the authority
  have htail : u.tail = [] ∨ ∃ d rest, u.tail = d :: rest ∧ free ['/', '?', '#'] d = false := by
    rw [Parts.tail]
    rcases hpath with hpath | ⟨rest, hpath⟩
    · rw [hpath, List.nil_append]
      cases u.query with
      | some query => exact .inr ⟨'?', _, rfl, rfl⟩
      | none =>
          cases u.fragment with
          | some fragment => exact .inr ⟨'#', _, rfl, rfl⟩
          | none => exact .inl rfl
    · rw [hpath]
      exact .inr ⟨'/', _, rfl, rfl⟩
  rw [parseAuthorityPart]
  rcases htail with htail | ⟨d, rest, htail, hd⟩
  · rw [htail, List.append_nil, List.takeWhile_eq_self_iff.mpr hfree,
      List.dropWhile_eq_nil_iff.mpr hfree]
  · rw [htail, takeWhile_append_cons hfree hd, dropWhile_append_cons hfree hd]

/-- **Print, then parse.** -/
theorem parse_print {u : Parts} {authority : List Char} (h : u.WellFormed authority) :
    parse u.print = some u := by
  have hfree : ∀ c ∈ u.scheme, free [':', '/', '?', '#'] c = true :=
    fun c hc => free_iff.mpr (h.scheme c hc)
  rw [Parts.print, h.authority_eq, parse, takeWhile_append_cons hfree (by decide),
    dropWhile_append_cons hfree (by decide)]
  simp only [if_neg h.scheme_ne, parseAuthorityPart_append h.authority h.path_abs,
    parseTail_tail h.path h.query]
  rw [← h.authority_eq]

/-! ### Authorities -/

/-- `[ userinfo "@" ] host [ ":" port ]`. -/
structure Authority where
  userinfo : Option (List Char)
  host : List Char
  port : Option (List Char)
deriving DecidableEq

/-- The host, which is a literal in brackets or ends at a colon, and what follows it. -/
def parseHost : List Char → List Char × List Char
  | '[' :: rest =>
      ('[' :: rest.takeWhile (free [']']) ++ [']'], (rest.dropWhile (free [']'])).tail)
  | text => (text.takeWhile (free [':']), text.dropWhile (free [':']))

/-- User information ends at the sign, which no other part contains. -/
def parseAuthority (text : List Char) : Authority :=
  let (userinfo, rest) :=
    if '@' ∈ text then
      (some (text.takeWhile (free ['@'])), (text.dropWhile (free ['@'])).tail)
    else (none, text)
  let (host, port) := parseHost rest
  ⟨userinfo, host, after ':' port⟩

/-- The text of a host: an address with colons stands in brackets. -/
def hostText (address : List Char) : List Char :=
  if ':' ∈ address then '[' :: address ++ [']'] else address

/-- A host and a port put together. -/
def printAuthority (address : List Char) (port : Option (List Char)) : List Char :=
  hostText address ++ optional ':' port

/-- A host and a port contain no sign of user information. -/
theorem at_not_mem_printAuthority {address : List Char} {port : Option (List Char)}
    (haddress : '@' ∉ address) (hport : ∀ text, port = some text → '@' ∉ text) :
    '@' ∉ printAuthority address port := by
  intro hmem
  rcases List.mem_append.mp hmem with hmem | hmem
  · rw [hostText] at hmem
    split at hmem
    · exact haddress (by simpa using hmem)
    · exact haddress hmem
  · cases port with
    | none => cases hmem
    | some text =>
        rcases List.mem_cons.mp hmem with h | h
        · cases h
        · exact hport text rfl h

/-- A host ends where the port begins. -/
theorem parseHost_print {address : List Char} (port : Option (List Char))
    (haddress : ∀ c ∈ address, c ∉ ['[', ']']) :
    parseHost (printAuthority address port) = (hostText address, optional ':' port) := by
  rw [printAuthority, hostText]
  split
  · have hfree : ∀ c ∈ address, free [']'] c = true :=
      free_of_not_mem fun hc => haddress _ hc (by decide)
    rw [List.cons_append, List.cons_append, List.append_assoc, List.singleton_append, parseHost,
      takeWhile_append_cons hfree (by decide), dropWhile_append_cons hfree (by decide)]
    rfl
  · rename_i hcolon
    have hfree := free_of_not_mem hcolon
    -- without brackets the text does not begin with one
    have hnot : ∀ rest, address ++ optional ':' port ≠ '[' :: rest := by
      intro rest heq
      cases address with
      | nil => cases port <;> cases heq
      | cons c address =>
          obtain ⟨rfl, -⟩ := List.cons.inj heq
          exact haddress _ List.mem_cons_self (by decide)
    rw [parseHost.eq_2 _ (fun rest h => hnot rest h)]
    cases port with
    | none =>
        rw [optional, List.append_nil, List.takeWhile_eq_self_iff.mpr hfree,
          List.dropWhile_eq_nil_iff.mpr hfree]
    | some text =>
        rw [optional, takeWhile_append_cons hfree (by decide),
          dropWhile_append_cons hfree (by decide)]

/-- **Print, then parse**, for an address and a port without foreign delimiters. -/
theorem parseAuthority_print {address : List Char} {port : Option (List Char)}
    (haddress : ∀ c ∈ address, c ∉ ['@', '[', ']'])
    (hport : ∀ text, port = some text → '@' ∉ text) :
    parseAuthority (printAuthority address port) = ⟨none, hostText address, port⟩ := by
  have hat : '@' ∉ printAuthority address port :=
    at_not_mem_printAuthority (fun hc => haddress _ hc List.mem_cons_self) hport
  have hbrackets : ∀ c ∈ address, c ∉ ['[', ']'] :=
    fun c hc h => haddress c hc (List.mem_cons_of_mem _ h)
  rw [parseAuthority, if_neg hat]
  simp only [parseHost_print port hbrackets]
  cases port with
  | none => rfl
  | some text => simp [optional, after]

end Uri
