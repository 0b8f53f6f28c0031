import Mathlib.Data.List.Sort
import BackendManager.TenantContext
import BackendManager.Text
import BackendManager.UrlSplit

/-!
# The Bucket of a Request

The model of `_client_ip`, `_route_key` and the key of `rate_limit` in
`app/ratelimit/dependencies.py`. A request has been matched to a route, so that its path is
given by its segments: the literals of the route and the values of its path parameters.

The router matches the decoded path, but `request.url.path` is not that path. Starlette puts the
decoded path into a URL, between the host and the query string, and splits this URL with
`urlsplit`. A value with a `?` or a `#` in it therefore ends the path, and tabs and line breaks
are lost. The rest of the URL does no harm, as long as the host is one (`Origin`).

## Main results

* `url_path_eq`: what is left of the decoded path.
* `route_key_eq`: the substitution of `_route_key` is made segment by segment.
* `route_key_of_legible`: it gives the template of the route if the values can be told apart
  from the template and from each other.
* `same_bucket_iff`: two requests to an organisation share a bucket exactly if they spell its id
  in the same way, and the substitution leaves the same text.
-/

namespace BackendManager.RateLimit

open Text
open Urllib (shown shown_eq_self_iff)

/-! ### Requests -/

/-- The placeholder of a path parameter. -/
def placeholder (name : List Char) : List Char := '{' :: (name ++ ['}'])

/-- A segment of a path that a route has matched. -/
inductive Segment
  | literal (text : List Char)
  | param (name value : List Char)
deriving DecidableEq

/-- The segment in the path. -/
def Segment.text : Segment → List Char
  | .literal text => text
  | .param _ value => value

/-- The segment in the template of the route. -/
def Segment.template : Segment → List Char
  | .literal text => text
  | .param name _ => placeholder name

/-- The path parameter of the segment. -/
def Segment.item : Segment → Option (List Char × List Char)
  | .literal _ => none
  | .param name value => some (name, value)

/-- What a request has of its URL besides the path. The `Host` header is a host as HTTP prescribes
it, with or without a port. -/
structure Origin where
  scheme : List Char
  host : List Char
  query_string : List Char
  http : scheme = "http".toList ∨ scheme = "https".toList
  authority : Urllib.Authority host
  brackets : Urllib.bracketsOk host = true
deriving DecidableEq

/-- A request that a route has matched; the value of a path parameter is not empty. -/
structure Request where
  segments : List Segment
  origin : Origin
  /-- `request.client.host`. -/
  client : Option String
  names : ((segments.filterMap Segment.item).map Prod.fst).Nodup
  slash : ∀ segment ∈ segments, '/' ∉ segment.text
  value : ∀ item ∈ segments.filterMap Segment.item, item.2 ≠ []
deriving DecidableEq

/-- Segments with their slashes. -/
def slashed (texts : List (List Char)) : List Char := texts.flatMap fun text => '/' :: text

namespace Request

/-- `request.scope["path"]`, which is decoded. -/
def path (request : Request) : List Char := slashed (request.segments.map Segment.text)

/-- `request.url`. -/
def url (request : Request) : List Char :=
  let query_string := request.origin.query_string
  request.origin.scheme ++ ':' :: '/' :: '/' :: (request.origin.host ++
    (request.path ++ if query_string = [] then [] else '?' :: query_string))

/-- `request.url.path`. The host is ASCII, so that nothing is normalized, and `urlsplit` does not
fail on it. -/
def url_path (request : Request) : List Char :=
  ((Urllib.urlsplit ⟨id, id⟩ request.url).map Urllib.SplitResult.path).getD []

/-- `request.path_params`. -/
def path_params (request : Request) : List (List Char × List Char) :=
  request.segments.filterMap Segment.item

/-- The template of the route. -/
def route (request : Request) : List Char := slashed (request.segments.map Segment.template)

/-- `request.path_params.get("org_id")`. -/
def org_id (request : Request) : Option (List Char) :=
  request.path_params.lookup "org_id".toList

end Request

def _client_ip (request : Request) : String := request.client.getD "anonymous"

/-- `sorted(..., key=lambda item: len(str(item[1])), reverse=True)`, which is stable. -/
def longestFirst (items : List (List Char × List Char)) : List (List Char × List Char) :=
  items.insertionSort fun a b => b.2.length ≤ a.2.length

/-- The loop of `_route_key`. -/
def substitute (items : List (List Char × List Char)) (path : List Char) : List Char :=
  items.foldl (fun path item => replace item.2 (placeholder item.1) path) path

def _route_key (request : Request) : List Char :=
  substitute (longestFirst request.path_params) request.url_path

/-- The scope of a request: its organisation, or its client. -/
def scope (request : Request) : List Char :=
  match request.org_id.filter (· ≠ []) with
  | some org_id => "org:".toList ++ org_id
  | none => "ip:".toList ++ (_client_ip request).toList

/-- The key of the bucket. -/
def Request.bucket (request : Request) : String :=
  String.ofList (scope request ++ ':' :: _route_key request)

/-! ### The path of the URL -/

/-- **What is left of the decoded path.** -/
theorem url_path_eq (request : Request) : request.url_path = shown request.path := by
  have hscheme : request.origin.scheme ≠ [] ∧ ∀ c ∈ request.origin.scheme, c.isAlpha = true := by
    rcases request.origin.http with h | h <;> rw [h] <;>
      exact ⟨List.cons_ne_nil _ _, List.all_eq_true.mp rfl⟩
  have hpath : request.path = [] ∨ ∃ rest, request.path = '/' :: rest := by
    rw [Request.path]
    cases request.segments with
    | nil => exact .inl rfl
    | cons segment segments => exact .inr ⟨_, rfl⟩
  have hquery : ∀ query : List Char, (if query = [] then [] else '?' :: query) = [] ∨
      ∃ rest, (if query = [] then [] else '?' :: query) = '?' :: rest := by
    intro query
    split
    · exact .inl rfl
    · exact .inr ⟨query, rfl⟩
  obtain ⟨parts, hsplit, -, hparts⟩ := Urllib.urlsplit_of_authority ⟨id, id⟩ hscheme.1 hscheme.2
    request.origin.authority request.origin.brackets hpath (hquery request.origin.query_string)
  rw [Request.url_path, Request.url, hsplit, Option.map_some, Option.getD_some, hparts]

/-! ### Substitution, segment by segment -/

variable {items : List (List Char × List Char)} {texts : List (List Char)}
  {old new text org_id org_id' : List Char} {request request' : Request} {segment : Segment}

/-- A path begins with its first segment. -/
theorem slashed_cons (text : List Char) (texts : List (List Char)) :
    slashed (text :: texts) = '/' :: (text ++ slashed texts) := rfl

/-- A value without a slash is replaced in each segment. -/
theorem replace_append_slashed (hne : old ≠ []) (hslash : '/' ∉ old) :
    replace old new (text ++ slashed texts) =
      replace old new text ++ slashed (texts.map (replace old new)) := by
  induction texts generalizing text with
  | nil => simp [slashed]
  | cons text' texts ih =>
      rw [slashed_cons, replace_append_cons hne hslash, ih, List.map_cons, slashed_cons]

/-- A replacement of a text without slashes goes segment by segment. -/
theorem replace_slashed (hne : old ≠ []) (hslash : '/' ∉ old) :
    replace old new (slashed texts) = slashed (texts.map (replace old new)) := by
  have hnil : replace old new [] = [] := by
    rw [replace, if_neg hne]
    rfl
  have happend : replace old new ([] ++ slashed texts) =
      replace old new [] ++ slashed (texts.map (replace old new)) :=
    replace_append_slashed hne hslash
  rwa [List.nil_append, hnil, List.nil_append] at happend

/-- And so do all the replacements of a route. -/
theorem substitute_slashed (hitems : ∀ item ∈ items, item.2 ≠ [] ∧ '/' ∉ item.2) :
    substitute items (slashed texts) = slashed (texts.map (substitute items)) := by
  induction items generalizing texts with
  | nil =>
      have hid : substitute [] = id := rfl
      rw [hid, List.map_id]
      rfl
  | cons item items ih =>
      obtain ⟨hne, hslash⟩ := hitems item List.mem_cons_self
      have hreplaced : substitute (item :: items) (slashed texts) =
          substitute items (slashed (texts.map (replace item.2 (placeholder item.1)))) := by
        rw [substitute, List.foldl_cons, replace_slashed hne hslash]
        rfl
      rw [hreplaced, ih fun i hi => hitems i (List.mem_cons_of_mem _ hi), List.map_map]
      rfl

/-- The substitution keeps a slash in front, and goes on behind it. -/
theorem substitute_cons_slash (hitems : ∀ item ∈ items, item.2 ≠ [] ∧ '/' ∉ item.2) :
    substitute items ('/' :: text) = '/' :: substitute items text := by
  induction items generalizing text with
  | nil => rfl
  | cons item items ih =>
      obtain ⟨hne, hslash⟩ := hitems item List.mem_cons_self
      have hnil : replace item.2 (placeholder item.1) [] = [] := by
        rw [replace, if_neg hne]
        rfl
      have happend : replace item.2 (placeholder item.1) ([] ++ '/' :: text) =
          replace item.2 (placeholder item.1) [] ++
            '/' :: replace item.2 (placeholder item.1) text := replace_append_cons hne hslash
      have hreplaced : replace item.2 (placeholder item.1) ('/' :: text) =
          '/' :: replace item.2 (placeholder item.1) text := by rwa [hnil] at happend
      rw [substitute, List.foldl_cons, hreplaced]
      exact ih fun i hi => hitems i (List.mem_cons_of_mem _ hi)

/-- The order of the replacements leaves none out. -/
theorem mem_longestFirst {item : List Char × List Char} :
    item ∈ longestFirst items ↔ item ∈ items := List.mem_insertionSort _

/-- The values of a request are not empty and have no slash. -/
theorem value_of_mem (request : Request) {item : List Char × List Char}
    (h : item ∈ request.path_params) : item.2 ≠ [] ∧ '/' ∉ item.2 := by
  refine ⟨request.value item h, ?_⟩
  obtain ⟨segment, hsegment, hitem⟩ := List.mem_filterMap.mp h
  cases segment with
  | literal text => cases hitem
  | param name value =>
      obtain rfl := Option.some.inj hitem
      exact request.slash _ hsegment

/-- A path whose segments are left as they are is left as it is. -/
theorem url_path_of_shown
    (hshown : ∀ segment ∈ request.segments, shown segment.text = segment.text) :
    request.url_path = request.path := by
  rw [url_path_eq, shown_eq_self_iff]
  intro c hc
  obtain ⟨text, htext, hc⟩ := List.mem_flatMap.mp hc
  obtain ⟨segment, hsegment, rfl⟩ := List.mem_map.mp htext
  rcases List.mem_cons.mp hc with rfl | hc
  · decide
  · exact shown_eq_self_iff.mp (hshown segment hsegment) c hc

/-- **Segment by segment**, if the path is left as it is. -/
theorem route_key_eq
    (hshown : ∀ segment ∈ request.segments, shown segment.text = segment.text) :
    _route_key request = slashed (request.segments.map fun segment =>
      substitute (longestFirst request.path_params) segment.text) := by
  rw [_route_key, url_path_of_shown hshown, Request.path, substitute_slashed fun item hitem =>
    value_of_mem request (mem_longestFirst.mp hitem), List.map_map]
  rfl

/-! ### Legible requests -/

/-- The values of the path parameters differ from each other, none occurs in a segment of
the template, and `urlsplit` leaves the segments as they are. -/
structure Request.Legible (request : Request) : Prop where
  shown : ∀ segment ∈ request.segments, shown segment.text = segment.text
  distinct : (request.path_params.map Prod.snd).Nodup
  apart : ∀ item ∈ request.path_params, ∀ segment ∈ request.segments,
    ¬ item.2 <:+: segment.template

/-- A text that contains no value is left as it is. -/
theorem substitute_of_not_infix (h : ∀ item ∈ items, item.2 ≠ [] ∧ ¬ item.2 <:+: text) :
    substitute items text = text := by
  induction items with
  | nil => rfl
  | cons item items ih =>
      obtain ⟨hne, hin⟩ := h item List.mem_cons_self
      rw [substitute, List.foldl_cons, replace_of_not_infix hne hin]
      exact ih fun i hi => h i (List.mem_cons_of_mem _ hi)

/-- A value that differs from all others is first replaced by its own placeholder, as longer
values do not occur in it; shorter ones are then replaced in the placeholder. -/
theorem substitute_param (hdistinct : (request.path_params.map Prod.snd).Nodup)
    {name value : List Char} {longer shorter : List (List Char × List Char)}
    (hsplit : longestFirst request.path_params = longer ++ (name, value) :: shorter) :
    substitute (longestFirst request.path_params) value =
      substitute shorter (placeholder name) := by
  have hperm : (longestFirst request.path_params).Perm request.path_params :=
    List.perm_insertionSort _ _
  have hdistinct' := (hperm.map Prod.snd).nodup_iff.mpr hdistinct
  have hsorted : (longestFirst request.path_params).Pairwise fun a b =>
      b.2.length ≤ a.2.length := List.pairwise_insertionSort _ _
  have hmem : ∀ item ∈ longer ++ (name, value) :: shorter, item ∈ request.path_params :=
    fun item hi => mem_longestFirst.mp (hsplit ▸ hi)
  have hne := (value_of_mem request
    (hmem (name, value) (List.mem_append_right _ List.mem_cons_self))).1
  rw [hsplit] at hdistinct' hsorted
  have hlonger : substitute longer value = value := by
    refine substitute_of_not_infix fun item hi => ?_
    have hparam := hmem item (List.mem_append_left _ hi)
    refine ⟨(value_of_mem request hparam).1, fun hin => ?_⟩
    have hlength : value.length ≤ item.2.length :=
      (List.pairwise_append.mp hsorted).2.2 item hi _ List.mem_cons_self
    have heq : item.2 = value := hin.eq_of_length (le_antisymm hin.length_le hlength)
    rw [List.map_append, List.map_cons] at hdistinct'
    exact (List.nodup_append.mp hdistinct').2.2 item.2 (List.mem_map.mpr ⟨item, hi, rfl⟩) value
      List.mem_cons_self heq
  calc substitute (longestFirst request.path_params) value
      = substitute shorter (replace value (placeholder name) (substitute longer value)) := by
        rw [hsplit, substitute, List.foldl_append]
        rfl
    _ = substitute shorter (placeholder name) := by rw [hlonger, replace_self hne]

/-- A value is replaced by its own placeholder, in which shorter ones do not occur. -/
theorem substitute_value (hlegible : request.Legible) {name value : List Char}
    (h : .param name value ∈ request.segments) :
    substitute (longestFirst request.path_params) value = placeholder name := by
  have hitem : (name, value) ∈ request.path_params := List.mem_filterMap.mpr ⟨_, h, rfl⟩
  obtain ⟨longer, shorter, hsplit⟩ := List.append_of_mem (mem_longestFirst.mpr hitem)
  rw [substitute_param hlegible.distinct hsplit]
  refine substitute_of_not_infix fun item hi => ?_
  have hparam : item ∈ request.path_params :=
    mem_longestFirst.mp (hsplit ▸ List.mem_append_right _ (List.mem_cons_of_mem _ hi))
  exact ⟨(value_of_mem request hparam).1, hlegible.apart item hparam _ h⟩

/-- **The template of the route.** -/
theorem route_key_of_legible (hlegible : request.Legible) :
    _route_key request = request.route := by
  rw [route_key_eq hlegible.shown, Request.route]
  congr 1
  refine List.map_congr_left fun segment hsegment => ?_
  cases segment with
  | param name value => exact substitute_value hlegible hsegment
  | literal text =>
      refine substitute_of_not_infix fun item hitem => ?_
      have hparam := mem_longestFirst.mp hitem
      exact ⟨(value_of_mem request hparam).1, hlegible.apart item hparam _ hsegment⟩

/-! ### Keys of organisations -/

/-- The organisation in a path is one of its parameters. -/
theorem mem_path_params_of_org_id (h : request.org_id = some org_id) :
    ("org_id".toList, org_id) ∈ request.path_params := by
  rw [Request.org_id, List.lookup_eq_some_iff] at h
  obtain ⟨l₁, l₂, hsplit, -⟩ := h
  rw [hsplit]
  exact List.mem_append_right _ List.mem_cons_self

/-- The key of an org-scoped request: the text of the id, and the rest after a slash. -/
theorem bucket_of_org_id (h : request.org_id = some org_id) :
    '/' ∉ org_id ∧ ∃ rest, _route_key request = '/' :: rest ∧
      request.bucket = String.ofList ("org:".toList ++ (org_id ++ [':'] ++ '/' :: rest)) := by
  have hparam := mem_path_params_of_org_id h
  obtain ⟨hne, hslash⟩ := value_of_mem request hparam
  refine ⟨hslash, ?_⟩
  obtain ⟨segment, hsegment, -⟩ := List.mem_filterMap.mp hparam
  obtain ⟨first, segments, hsegments⟩ :=
    List.exists_cons_of_ne_nil (List.ne_nil_of_mem hsegment)
  -- the path begins with a slash, which is kept
  obtain ⟨rest, hrest⟩ : ∃ rest, request.url_path = '/' :: rest := by
    rw [url_path_eq, Request.path, hsegments, List.map_cons, slashed_cons]
    exact ⟨_, rfl⟩
  have hkey : _route_key request =
      '/' :: substitute (longestFirst request.path_params) rest := by
    rw [_route_key, hrest, substitute_cons_slash fun item hitem =>
      value_of_mem request (mem_longestFirst.mp hitem)]
  refine ⟨_, hkey, ?_⟩
  have hscope : scope request = "org:".toList ++ org_id := by
    have hfilter : request.org_id.filter (· ≠ []) = some org_id := by
      rw [h]
      exact Option.filter_eq_some_iff.mpr ⟨rfl, decide_eq_true hne⟩
    rw [scope, hfilter]
  rw [Request.bucket, hscope, hkey]
  simp only [List.append_assoc, List.cons_append, List.nil_append]

/-- Keys of org-scoped requests are read in one way. -/
theorem bucket_inj (h : request.org_id = some org_id) (h' : request'.org_id = some org_id') :
    request.bucket = request'.bucket ↔
      org_id = org_id' ∧ _route_key request = _route_key request' := by
  obtain ⟨hslash, rest, hkey, hbucket⟩ := bucket_of_org_id h
  obtain ⟨hslash', rest', hkey', hbucket'⟩ := bucket_of_org_id h'
  have hsep : ∀ s : List Char, '/' ∉ s → '/' ∉ s ++ [':'] := by
    intro s hs hmem
    rcases List.mem_append.mp hmem with hmem | hmem
    · exact hs hmem
    · exact absurd (List.mem_singleton.mp hmem) (by decide)
  rw [hbucket, hbucket', hkey, hkey']
  constructor
  · intro heq
    have hlist := List.append_cancel_left (String.ofList_injective heq)
    obtain ⟨horg, hrest⟩ := append_cons_inj (hsep _ hslash) (hsep _ hslash') hlist
    exact ⟨List.append_cancel_right horg, by rw [hrest]⟩
  · rintro ⟨rfl, hrest⟩
    rw [(List.cons.inj hrest).2]

/-- **One bucket for two requests.** Two requests to an organisation share a bucket exactly if
their paths spell its id with the same text and the substitution of their path parameters
into the path of the URL leaves the same text. For two legible requests to one route the latter
is always so. -/
theorem same_bucket_iff (h : request.org_id = some org_id)
    (h' : request'.org_id = some org_id') :
    (request.bucket = request'.bucket ↔
      org_id = org_id' ∧ _route_key request = _route_key request') ∧
    (request.route = request'.route → request.Legible → request'.Legible →
      (request.bucket = request'.bucket ↔ org_id = org_id')) := by
  refine ⟨bucket_inj h h', fun hroute hlegible hlegible' => ?_⟩
  rw [bucket_inj h h', route_key_of_legible hlegible, route_key_of_legible hlegible', hroute]
  exact and_iff_left rfl

/-! ### Two spellings of one organisation -/

/-- A URL on `localhost`. -/
def localhost : Origin where
  scheme := "http".toList
  host := "localhost".toList
  query_string := []
  http := .inl rfl
  authority := of_decide_eq_true rfl
  brackets := rfl

/-- The request to `/orgs/{org_id}/thing` with this spelling of the id. -/
def thing (org_id : List Char) (hslash : '/' ∉ org_id) (hne : org_id ≠ []) : Request where
  segments := [.literal "orgs".toList, .param "org_id".toList org_id, .literal "thing".toList]
  origin := localhost
  client := none
  names := List.nodup_singleton "org_id".toList
  slash := by
    intro segment hsegment
    simp only [List.mem_cons, List.not_mem_nil, or_false] at hsegment
    rcases hsegment with rfl | rfl | rfl
    · exact (by decide : '/' ∉ "orgs".toList)
    · exact hslash
    · exact (by decide : '/' ∉ "thing".toList)
  value := by
    intro item hitem
    obtain rfl := List.mem_singleton.mp hitem
    exact hne

/-- The request with the 32 digits of the id. -/
def plainThing : Request := thing Tenancy.sampleDigits.chars (by decide) (by decide)

/-- The request with the hyphenated id. -/
def hyphenatedThing : Request := thing Tenancy.sampleDigits.hyphenated (by decide) (by decide)

/-- The two example requests are legible. -/
theorem legible_things : plainThing.Legible ∧ hyphenatedThing.Legible :=
  ⟨⟨by decide +kernel, by decide, by decide +kernel⟩,
    ⟨by decide +kernel, by decide, by decide +kernel⟩⟩

/-- Both requests are legible and to one route, and their buckets differ. -/
theorem same_bucket_iff_things :
    plainThing.org_id = some Tenancy.sampleDigits.chars ∧
      hyphenatedThing.org_id = some Tenancy.sampleDigits.hyphenated ∧
      plainThing.route = hyphenatedThing.route ∧ plainThing.Legible ∧ hyphenatedThing.Legible ∧
      plainThing.bucket ≠ hyphenatedThing.bucket := by
  have hplain : plainThing.org_id = some Tenancy.sampleDigits.chars := rfl
  have hhyphenated : hyphenatedThing.org_id = some Tenancy.sampleDigits.hyphenated := rfl
  refine ⟨hplain, hhyphenated, rfl, legible_things.1, legible_things.2, fun hbucket => ?_⟩
  have hsame := ((same_bucket_iff hplain hhyphenated).2 rfl legible_things.1
    legible_things.2).mp hbucket
  exact absurd hsame (by decide)

/-- Two requests to one route, which takes their ids for the same UUID, use two buckets. -/
theorem two_buckets :
    ∃ (parse : List Char → Option Uuid) (U : Uuid) (request request' : Request)
      (org_id org_id' : List Char), Tenancy.AcceptsUuids parse ∧ request.route = request'.route ∧
        request.org_id = some org_id ∧ request'.org_id = some org_id' ∧
        parse org_id = some U ∧ parse org_id' = some U ∧ request.bucket ≠ request'.bucket := by
  refine ⟨Tenancy.convert, Tenancy.sampleDigits.uuid, plainThing, hyphenatedThing,
    Tenancy.sampleDigits.chars, Tenancy.sampleDigits.hyphenated, Tenancy.acceptsUuids_convert,
    rfl, rfl, rfl, ?_, ?_, fun hbucket => ?_⟩
  · exact (Tenancy.acceptsUuids_convert _ _).mpr
      ⟨Tenancy.sampleDigits, by simp [Tenancy.Digits.spellings], rfl⟩
  · exact (Tenancy.acceptsUuids_convert _ _).mpr
      ⟨Tenancy.sampleDigits, by simp [Tenancy.Digits.spellings], rfl⟩
  · have hplain : plainThing.org_id = some Tenancy.sampleDigits.chars := rfl
    have hhyphenated : hyphenatedThing.org_id = some Tenancy.sampleDigits.hyphenated := rfl
    exact absurd ((bucket_inj hplain hhyphenated).mp hbucket).1 (by decide)

end BackendManager.RateLimit
