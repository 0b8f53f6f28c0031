import BackendManager.RouteKeys
import Mathlib.Data.Finset.Card

/-!
# Route Keys and Templates

`_route_key` means to give the template of the route a request has been matched to. It replaces
the values of the path parameters in the whole path, one after the other, so that a value may
also be found in a literal segment, or in a placeholder that has been put in before. Whatever is
replaced leaves a placeholder behind that no later replacement removes without leaving another.

The path in which the values are replaced has been read off a URL. A value in which `urlsplit`
ends the path, or of which it removes a character, is not found there. The key is then no
template, with one exception: of a value such as `{name}?` just the placeholder is left.

## Main results

* `substitute_eq_self_iff`: a text without placeholders is kept exactly if no value occurs in it.
* `route_key_eq_route_iff`: for which requests the key is the template.
* `route_keys`: requests of this kind have at most as many keys in a scope as there are routes.
-/

namespace BackendManager.RateLimit

open Text
open Uri (free all_free_iff)
open Urllib (shown shown_eq_self_iff not_mem_shown shown_sublist shown_append)

variable {items : List (List Char × List Char)} {text : List Char} {texts : List (List Char)}
  {request : Request}

/-- The characters that do not occur in the name of a path parameter, which is an identifier. -/
def reserved : List Char := ['{', '}', '/', '?', '#', '\t', '\r', '\n']

/-- What a router makes sure of in a template: a name is an identifier, and a name in braces is a
parameter and no part of a literal. -/
structure Request.WellNamed (request : Request) : Prop where
  name : ∀ item ∈ request.path_params, ∀ c ∈ item.1, c ∉ reserved
  literal : ∀ text, .literal text ∈ request.segments →
    ∀ item ∈ request.path_params, ¬ placeholder item.1 <:+: text

/-- The values of the path parameters differ from each other, none occurs in a literal segment,
and none occurs in the placeholder of a parameter that is substituted before. Moreover `urlsplit`
leaves every segment as it is, or leaves of a value just its placeholder; and only the last segment
may have a `?` or a `#` in it. -/
structure Request.Apart (request : Request) : Prop where
  shown : ∀ segment ∈ request.segments,
    shown segment.text = segment.text ∨ shown segment.text = segment.template
  last : ∀ segment ∈ request.segments.dropLast, ∀ c ∈ segment.text, c ∉ ['?', '#']
  distinct : (request.path_params.map Prod.snd).Nodup
  literal : ∀ text, .literal text ∈ request.segments →
    ∀ item ∈ request.path_params, ¬ item.2 <:+: text
  placeholder : (longestFirst request.path_params).Pairwise fun a b => ¬ b.2 <:+: placeholder a.1

/-! ### Placeholders -/

/-- Different names are different placeholders. -/
theorem placeholder_injective : Function.Injective placeholder :=
  fun _ _ h => List.append_cancel_right (List.cons.inj h).2

/-- A placeholder holds no other one. -/
theorem eq_of_placeholder_infix {name name' : List Char} (hname : '}' ∉ name)
    (hopen : '{' ∉ name') (hclose : '}' ∉ name')
    (h : placeholder name <:+: placeholder name') : name = name' := by
  obtain ⟨front, back, heq⟩ := h
  cases front with
  | nil =>
      have htail : name ++ '}' :: back = name' ++ '}' :: [] := by
        simpa [placeholder] using heq
      exact (append_cons_inj hname hclose htail).1
  | cons c front =>
      -- the brace that opens would be in the name
      have hmem : '{' ∈ name' ++ ['}'] := by
        rw [← (List.cons.inj heq).2]
        exact List.mem_append_left _ (List.mem_append_right _ List.mem_cons_self)
      rcases List.mem_append.mp hmem with hmem | hmem
      · exact absurd hmem hopen
      · exact absurd (List.mem_singleton.mp hmem) (by decide)

/-- The placeholder of a parameter holds no other one. -/
theorem Request.WellNamed.name_eq (h : request.WellNamed) {item item' : List Char × List Char}
    (hitem : item ∈ request.path_params) (hitem' : item' ∈ request.path_params)
    (hin : placeholder item.1 <:+: placeholder item'.1) : item.1 = item'.1 :=
  eq_of_placeholder_infix (fun hc => h.name item hitem _ hc (by decide))
    (fun hc => h.name item' hitem' _ hc (by decide))
    (fun hc => h.name item' hitem' _ hc (by decide)) hin

/-- **What is left behind.** If a value is found, the outcome has a placeholder in it, of a value
whose characters come from the text or from placeholders. -/
theorem placeholder_infix_substitute (hne : ∀ item ∈ items, item.2 ≠ [])
    (h : ∃ item ∈ items, item.2 <:+: text) :
    ∃ item ∈ items, placeholder item.1 <:+: substitute items text ∧
      ∀ c ∈ item.2, c ∈ text ∨ ∃ i ∈ items, c ∈ placeholder i.1 := by
  -- the placeholder that counts is that of the last value which is found
  induction items generalizing text with
  | nil => exact absurd h (by simp)
  | cons item items ih =>
      have hstep : substitute (item :: items) text =
          substitute items (replace item.2 (placeholder item.1) text) := rfl
      have hitem : item.2 ≠ [] := hne item List.mem_cons_self
      have hrest : ∀ i ∈ items, i.2 ≠ [] := fun i hi => hne i (List.mem_cons_of_mem _ hi)
      rw [hstep]
      by_cases hlater : ∃ i ∈ items, i.2 <:+: replace item.2 (placeholder item.1) text
      · obtain ⟨i, hi, hin, hchars⟩ := ih hrest hlater
        refine ⟨i, List.mem_cons_of_mem _ hi, hin, fun c hc => ?_⟩
        rcases hchars c hc with hc | ⟨j, hj, hc⟩
        · rcases mem_of_mem_replace hitem hc with hc | hc
          · exact .inr ⟨item, List.mem_cons_self, hc⟩
          · exact .inl hc
        · exact .inr ⟨j, List.mem_cons_of_mem _ hj, hc⟩
      · have hkept := substitute_of_not_infix fun i hi =>
          ⟨hrest i hi, fun hin => hlater ⟨i, hi, hin⟩⟩
        have hfound : item.2 <:+: text := by
          by_contra hnot
          have hsame : replace item.2 (placeholder item.1) text = text :=
            replace_of_not_infix hitem hnot
          rw [hsame] at hlater
          obtain ⟨i, hi, hin⟩ := h
          rcases List.mem_cons.mp hi with rfl | hi
          · exact hnot hin
          · exact hlater ⟨i, hi, hin⟩
        rw [hkept]
        exact ⟨item, List.mem_cons_self, infix_replace hitem hfound,
          fun c hc => .inl (hfound.subset hc)⟩

/-- **A text without placeholders** is kept exactly if no value occurs in it. -/
theorem substitute_eq_self_iff (hne : ∀ item ∈ items, item.2 ≠ [])
    (htext : ∀ item ∈ items, ¬ placeholder item.1 <:+: text) :
    substitute items text = text ↔ ∀ item ∈ items, ¬ item.2 <:+: text := by
  constructor
  · intro h item hitem hin
    obtain ⟨i, hi, hplaceholder, -⟩ := placeholder_infix_substitute hne ⟨item, hitem, hin⟩
    rw [h] at hplaceholder
    exact htext i hi hplaceholder
  · exact fun h => substitute_of_not_infix fun item hitem => ⟨hne item hitem, h item hitem⟩

/-! ### Segments -/

/-- Substitution brings no slash about. -/
theorem slash_not_mem_substitute (hitems : ∀ item ∈ items, item.2 ≠ [] ∧ '/' ∉ item.1)
    (htext : '/' ∉ text) : '/' ∉ substitute items text := by
  induction items generalizing text with
  | nil => exact htext
  | cons item items ih =>
      obtain ⟨hne, hslash⟩ := hitems item List.mem_cons_self
      refine ih (fun i hi => hitems i (List.mem_cons_of_mem _ hi)) fun hmem => ?_
      rcases mem_of_mem_replace hne hmem with hmem | hmem
      · simp [placeholder, hslash] at hmem
      · exact htext hmem

/-- Segments can be read off a path. -/
theorem slashed_inj {l l' : List (List Char)} (hl : ∀ text ∈ l, '/' ∉ text)
    (hl' : ∀ text ∈ l', '/' ∉ text) (h : slashed l = slashed l') : l = l' := by
  induction l generalizing l' with
  | nil =>
      cases l' with
      | nil => rfl
      | cons text l' => cases h
  | cons text l ih =>
      cases l' with
      | nil => cases h
      | cons text' l' =>
          rw [slashed_cons, slashed_cons] at h
          have htail := (List.cons.inj h).2
          have hboth : text = text' ∧ slashed l = slashed l' := by
            have htext := hl text List.mem_cons_self
            have htext' := hl' text' List.mem_cons_self
            cases l with
            | nil =>
                cases l' with
                | nil => exact ⟨by simpa [slashed] using htail, rfl⟩
                | cons next l' =>
                    refine absurd ?_ htext
                    simp only [slashed, List.flatMap_nil, List.append_nil] at htail
                    rw [htail]
                    exact List.mem_append_right _ List.mem_cons_self
            | cons next l =>
                cases l' with
                | nil =>
                    refine absurd ?_ htext'
                    simp only [slashed, List.flatMap_nil, List.append_nil] at htail
                    rw [← htail]
                    exact List.mem_append_right _ List.mem_cons_self
                | cons next' l' =>
                    rw [slashed_cons, slashed_cons] at htail ⊢
                    obtain ⟨heq, hrest⟩ := append_cons_inj htext htext' htail
                    exact ⟨heq, by rw [hrest]⟩
          rw [hboth.1, ih (fun i hi => hl i (List.mem_cons_of_mem _ hi))
            (fun i hi => hl' i (List.mem_cons_of_mem _ hi)) hboth.2]

/-- What `urlsplit` leaves of the segments of a path: none behind the first one that has a `?` or
a `#` in it. -/
def shownSegments : List (List Char) → List (List Char)
  | [] => []
  | text :: texts =>
      if text.all (free ['?', '#']) then shown text :: shownSegments texts else [shown text]

/-- What `urlsplit` shows of a path, segment by segment. -/
theorem shown_slashed (texts : List (List Char)) :
    shown (slashed texts) = slashed (shownSegments texts) := by
  induction texts with
  | nil => rfl
  | cons text texts ih =>
      have hcons : shown ('/' :: (text ++ slashed texts)) =
          '/' :: shown (text ++ slashed texts) := rfl
      rw [slashed_cons, hcons, shown_append, shownSegments]
      split
      · rw [slashed_cons, ih]
      · rw [slashed_cons, slashed, List.flatMap_nil, List.append_nil]

/-- All segments are left if none but the last one ends the path. -/
theorem shownSegments_of_last (h : ∀ text ∈ texts.dropLast, ∀ c ∈ text, c ∉ ['?', '#']) :
    shownSegments texts = texts.map shown := by
  induction texts with
  | nil => rfl
  | cons text texts ih =>
      rw [shownSegments, List.map_cons]
      cases texts with
      | nil =>
          rw [shownSegments, List.map_nil]
          exact ite_self _
      | cons next texts =>
          rw [List.dropLast_cons_of_ne_nil (List.cons_ne_nil _ _)] at h
          rw [if_pos (all_free_iff.mpr (h text List.mem_cons_self)),
            ih fun i hi => h i (List.mem_cons_of_mem _ hi)]

/-- And only then as many segments are left. -/
theorem last_of_length (h : (shownSegments texts).length = texts.length) :
    ∀ text ∈ texts.dropLast, ∀ c ∈ text, c ∉ ['?', '#'] := by
  induction texts with
  | nil => exact fun text htext => nomatch htext
  | cons text texts ih =>
      cases texts with
      | nil => exact fun text htext => nomatch htext
      | cons next texts =>
          rw [List.dropLast_cons_of_ne_nil (List.cons_ne_nil _ _), List.forall_mem_cons]
          rw [shownSegments] at h
          split at h
          · rename_i hfree
            exact ⟨all_free_iff.mp hfree, ih (Nat.succ.inj h)⟩
          · cases h

/-- A segment that is shown is what is shown of one of the path. -/
theorem mem_shownSegments (h : text ∈ shownSegments texts) : ∃ t ∈ texts, text = shown t := by
  induction texts with
  | nil => exact absurd h List.not_mem_nil
  | cons first texts ih =>
      rw [shownSegments] at h
      split at h
      · rcases List.mem_cons.mp h with h | h
        · exact ⟨first, List.mem_cons_self, h⟩
        · obtain ⟨t, ht, heq⟩ := ih h
          exact ⟨t, List.mem_cons_of_mem _ ht, heq⟩
      · exact ⟨first, List.mem_cons_self, List.mem_singleton.mp h⟩

/-- The key is the template exactly if all segments are left, and each becomes that of the
template. -/
theorem route_key_eq_route_segments (h : request.WellNamed) :
    _route_key request = request.route ↔
      (∀ segment ∈ request.segments.dropLast, ∀ c ∈ segment.text, c ∉ ['?', '#']) ∧
        ∀ segment ∈ request.segments,
          substitute (longestFirst request.path_params) (shown segment.text) =
            segment.template := by
  have hitems : ∀ item ∈ longestFirst request.path_params,
      item.2 ≠ [] ∧ '/' ∉ item.2 ∧ '/' ∉ item.1 := by
    intro item hitem
    have hparam := mem_longestFirst.mp hitem
    obtain ⟨hne, hslash⟩ := value_of_mem request hparam
    exact ⟨hne, hslash, fun hmem => h.name item hparam _ hmem (by decide)⟩
  have htemplate : ∀ text ∈ request.segments.map Segment.template, '/' ∉ text := by
    intro text htext
    obtain ⟨segment, hsegment, rfl⟩ := List.mem_map.mp htext
    cases segment with
    | literal text => exact request.slash _ hsegment
    | param name value =>
        have hparam : (name, value) ∈ request.path_params :=
          List.mem_filterMap.mpr ⟨_, hsegment, rfl⟩
        have hname : '/' ∉ name := fun hmem => h.name _ hparam _ hmem (by decide)
        simp [Segment.template, placeholder, hname]
  have hkey : _route_key request = slashed ((shownSegments (request.segments.map
      Segment.text)).map (substitute (longestFirst request.path_params))) := by
    rw [_route_key, url_path_eq, Request.path, shown_slashed,
      substitute_slashed fun item hitem => ⟨(hitems item hitem).1, (hitems item hitem).2.1⟩]
  have hsubstituted : ∀ text ∈ (shownSegments (request.segments.map Segment.text)).map
      (substitute (longestFirst request.path_params)), '/' ∉ text := by
    intro text htext
    obtain ⟨left, hleft, rfl⟩ := List.mem_map.mp htext
    obtain ⟨t, ht, rfl⟩ := mem_shownSegments hleft
    obtain ⟨segment, hsegment, rfl⟩ := List.mem_map.mp ht
    exact slash_not_mem_substitute
      (fun item hitem => ⟨(hitems item hitem).1, (hitems item hitem).2.2⟩)
      fun hmem => request.slash segment hsegment ((shown_sublist _).subset hmem)
  have hlast : (∀ text ∈ (request.segments.map Segment.text).dropLast, ∀ c ∈ text,
        c ∉ ['?', '#']) ↔
      ∀ segment ∈ request.segments.dropLast, ∀ c ∈ segment.text, c ∉ ['?', '#'] := by
    rw [← List.map_dropLast, List.forall_mem_map]
  rw [hkey, Request.route, ← hlast]
  constructor
  · intro heq
    have hlists := slashed_inj hsubstituted htemplate heq
    have hlength := congrArg List.length hlists
    rw [List.length_map, List.length_map] at hlength
    have hall := last_of_length (hlength.trans (List.length_map _).symm)
    rw [shownSegments_of_last hall, List.map_map, List.map_map] at hlists
    exact ⟨hall, List.map_inj_left.mp hlists⟩
  · rintro ⟨hall, hsegments⟩
    rw [shownSegments_of_last hall, List.map_map, List.map_map]
    exact congrArg slashed (List.map_inj_left.mpr hsegments)

/-- A parameter of the request is a segment of its path. -/
theorem mem_segments_of_mem {item : List Char × List Char} (h : item ∈ request.path_params) :
    .param item.1 item.2 ∈ request.segments := by
  obtain ⟨segment, hsegment, hitem⟩ := List.mem_filterMap.mp h
  cases segment with
  | literal text => cases hitem
  | param name value =>
      obtain rfl := Option.some.inj hitem
      exact hsegment

/-- A relation holds pairwise if it holds between each element and those behind it. -/
theorem pairwise_of_splits {α : Type*} {R : α → α → Prop} {l : List α}
    (h : ∀ l₁ a l₂, l = l₁ ++ a :: l₂ → ∀ b ∈ l₂, R a b) : l.Pairwise R := by
  induction l with
  | nil => exact .nil
  | cons a l ih =>
      refine .cons (h [] a l rfl) (ih fun l₁ b l₂ hsplit => h (a :: l₁) b l₂ ?_)
      rw [hsplit, List.cons_append]

/-- What is behind a parameter that has been substituted. -/
theorem substitute_param_eq_iff (h : request.WellNamed)
    (hdistinct : (request.path_params.map Prod.snd).Nodup)
    {item : List Char × List Char} {longer shorter : List (List Char × List Char)}
    (hsplit : longestFirst request.path_params = longer ++ item :: shorter) :
    substitute (longestFirst request.path_params) item.2 = placeholder item.1 ↔
      ∀ i ∈ shorter, ¬ i.2 <:+: placeholder item.1 := by
  have hmem : ∀ i ∈ longer ++ item :: shorter, i ∈ request.path_params :=
    fun i hi => mem_longestFirst.mp (hsplit ▸ hi)
  have hbehind : ∀ i ∈ shorter, i ∈ request.path_params :=
    fun i hi => hmem i (List.mem_append_right _ (List.mem_cons_of_mem _ hi))
  have hitem := hmem item (List.mem_append_right _ List.mem_cons_self)
  rw [substitute_param hdistinct hsplit]
  refine substitute_eq_self_iff (fun i hi => (value_of_mem request (hbehind i hi)).1)
    fun i hi hin => ?_
  -- the names of two parameters differ
  have hnames : ((longestFirst request.path_params).map Prod.fst).Nodup :=
    ((List.perm_insertionSort _ _).map Prod.fst).nodup_iff.mpr request.names
  rw [hsplit, List.map_append, List.map_cons] at hnames
  have hname := h.name_eq (hbehind i hi) hitem hin
  exact (List.nodup_cons.mp (List.nodup_append.mp hnames).2.1).1
    (List.mem_map.mpr ⟨i, hi, hname⟩)

/-- Equal values cannot become different placeholders. -/
theorem nodup_values (h : ∀ segment ∈ request.segments,
      substitute (longestFirst request.path_params) (shown segment.text) = segment.template) :
    (request.path_params.map Prod.snd).Nodup := by
  refine (List.nodup_map_iff_inj_on (List.Nodup.of_map _ request.names)).mpr
    fun item hitem item' hitem' hvalue => ?_
  have hkey := h _ (mem_segments_of_mem hitem)
  have hkey' := h _ (mem_segments_of_mem hitem')
  rw [Segment.text, Segment.template] at hkey hkey'
  rw [hvalue] at hkey
  exact Prod.ext (placeholder_injective (hkey.symm.trans hkey')) hvalue

/-- A value of which `urlsplit` removes a character has no part in its own placeholder, so that
nothing is found in what is left of it. -/
theorem not_infix_of_shown_ne (h : request.WellNamed) {name value : List Char}
    (hparam : (name, value) ∈ request.path_params) (hne : shown value ≠ value)
    (hkey : substitute (longestFirst request.path_params) (shown value) = placeholder name) :
    ∀ item ∈ longestFirst request.path_params, ¬ item.2 <:+: shown value := by
  intro item hitem hin
  obtain ⟨i, hi, hleft, hchars⟩ := placeholder_infix_substitute
    (fun j hj => (value_of_mem request (mem_longestFirst.mp hj)).1) ⟨item, hitem, hin⟩
  rw [hkey] at hleft
  -- the value that has been found last is the value itself
  have hi' := mem_longestFirst.mp hi
  have hself : i = (name, value) := List.inj_on_of_nodup_map request.names hi' hparam
    (h.name_eq hi' hparam hleft)
  subst hself
  refine hne (shown_eq_self_iff.mpr fun c hc hspecial => ?_)
  rcases hchars c hc with hc | ⟨j, hj, hc⟩
  · exact not_mem_shown c hc hspecial
  · have hreserved : c ∈ reserved ∧ c ∉ ['{', '}'] := by
      simp only [List.mem_cons, List.not_mem_nil, or_false] at hspecial
      rcases hspecial with rfl | rfl | rfl | rfl | rfl <;> decide
    rcases List.mem_cons.mp hc with rfl | hc
    · exact hreserved.2 (by decide)
    · rcases List.mem_append.mp hc with hc | hc
      · exact h.name j (mem_longestFirst.mp hj) c hc hreserved.1
      · exact hreserved.2 (List.mem_cons_of_mem _ hc)

/-- A segment of the path that is to stay has no value in it, which would leave a placeholder
there. -/
theorem literal_of_substitute (h : request.WellNamed) (htext : .literal text ∈ request.segments)
    (hkey : substitute (longestFirst request.path_params) (shown text) = text) :
    shown text = text ∧ ∀ item ∈ request.path_params, ¬ item.2 <:+: text := by
  have hvalue : ∀ item ∈ longestFirst request.path_params, item.2 ≠ [] := fun item hitem =>
    (value_of_mem request (mem_longestFirst.mp hitem)).1
  have hnone : ∀ item ∈ longestFirst request.path_params, ¬ item.2 <:+: shown text := by
    intro item hitem hin
    obtain ⟨i, hi, hleft, -⟩ := placeholder_infix_substitute hvalue ⟨item, hitem, hin⟩
    exact h.literal text htext i (mem_longestFirst.mp hi) (hkey ▸ hleft)
  rw [ substitute_of_not_infix fun item hitem => ⟨hvalue item hitem, hnone item hitem⟩] at hkey
  exact ⟨hkey, fun item hitem => hkey ▸ hnone item (mem_longestFirst.mpr hitem)⟩

/-- Of a value that `urlsplit` does not leave as it is, its placeholder has to be left. -/
theorem shown_of_substitute (h : request.WellNamed) {name value : List Char}
    (hparam : (name, value) ∈ request.path_params) (hne : shown value ≠ value)
    (hkey : substitute (longestFirst request.path_params) (shown value) = placeholder name) :
    shown value = placeholder name ∧
      ∀ item ∈ longestFirst request.path_params, ¬ item.2 <:+: placeholder name := by
  have hnone := not_infix_of_shown_ne h hparam hne hkey
  rw [ substitute_of_not_infix fun item hitem =>
    ⟨(value_of_mem request (mem_longestFirst.mp hitem)).1, hnone item hitem⟩] at hkey
  exact ⟨hkey, fun item hitem => hkey ▸ hnone item hitem⟩

/-- A placeholder that is shorter than its value stays, if no value behind is found in it: those
before are longer. -/
theorem substitute_placeholder {name value : List Char}
    {longer shorter : List (List Char × List Char)}
    (hsplit : longestFirst request.path_params = longer ++ (name, value) :: shorter)
    (hlength : (placeholder name).length < value.length)
    (hbehind : ∀ i ∈ shorter, ¬ i.2 <:+: placeholder name) :
    substitute (longestFirst request.path_params) (placeholder name) = placeholder name := by
  have hsorted : (longestFirst request.path_params).Pairwise fun a b =>
      b.2.length ≤ a.2.length := List.pairwise_insertionSort _ _
  rw [hsplit] at hsorted
  refine substitute_of_not_infix fun i hi =>
    ⟨(value_of_mem request (mem_longestFirst.mp hi)).1, fun hin => ?_⟩
  have hshort := lt_of_le_of_lt hin.length_le hlength
  rw [hsplit] at hi
  rcases List.mem_append.mp hi with hi | hi
  · exact absurd ((List.pairwise_append.mp hsorted).2.2 i hi _ List.mem_cons_self)
      (not_le.mpr hshort)
  · rcases List.mem_cons.mp hi with rfl | hi
    · exact absurd hshort (lt_irrefl _)
    · exact hbehind i hi hin

/-! ### Keys -/

/-- Where each segment becomes that of the template, the values are apart. -/
theorem apart_of_segments (h : request.WellNamed)
    (hlast : ∀ segment ∈ request.segments.dropLast, ∀ c ∈ segment.text, c ∉ ['?', '#'])
    (hsegments : ∀ segment ∈ request.segments,
      substitute (longestFirst request.path_params) (shown segment.text) = segment.template) :
    request.Apart := by
  have hdistinct := nodup_values hsegments
  refine ⟨fun segment hsegment => ?_, hlast, hdistinct,
    fun text htext => (literal_of_substitute h htext (hsegments _ htext)).2,
    pairwise_of_splits fun longer item shorter hsplit => ?_⟩
  · cases segment with
    | literal text =>
        exact .inl (literal_of_substitute h hsegment (hsegments _ hsegment)).1
    | param name value =>
        have hparam : (name, value) ∈ request.path_params :=
          List.mem_filterMap.mpr ⟨_, hsegment, rfl⟩
        by_cases hne : shown value = value
        · exact .inl hne
        · exact .inr (shown_of_substitute h hparam hne (hsegments _ hsegment)).1
  · have hitem : item ∈ request.path_params :=
      mem_longestFirst.mp (hsplit ▸ List.mem_append_right _ List.mem_cons_self)
    have hkey := hsegments _ (mem_segments_of_mem hitem)
    rw [Segment.text, Segment.template] at hkey
    by_cases hne : shown item.2 = item.2
    · rw [hne] at hkey
      exact (substitute_param_eq_iff h hdistinct hsplit).mp hkey
    · intro i hi
      exact (shown_of_substitute h hitem hne hkey).2 i
        (hsplit ▸ List.mem_append_right _ (List.mem_cons_of_mem _ hi))

/-- Where the values are apart, each segment becomes that of the template. -/
theorem segments_of_apart (h : request.WellNamed) (hapart : request.Apart) :
    ∀ segment ∈ request.segments,
      substitute (longestFirst request.path_params) (shown segment.text) = segment.template := by
  intro segment hsegment
  cases segment with
  | literal text =>
      have hshown : shown text = text := (hapart.shown _ hsegment).elim id id
      rw [Segment.text, hshown]
      exact substitute_of_not_infix fun item hitem =>
        ⟨(value_of_mem request (mem_longestFirst.mp hitem)).1,
          hapart.literal text hsegment item (mem_longestFirst.mp hitem)⟩
  | param name value =>
      have hitem : (name, value) ∈ request.path_params :=
        List.mem_filterMap.mpr ⟨_, hsegment, rfl⟩
      obtain ⟨longer, shorter, hsplit⟩ := List.append_of_mem (mem_longestFirst.mpr hitem)
      have hbehind := hapart.placeholder
      rw [hsplit] at hbehind
      have hshorter := (List.pairwise_cons.mp (List.pairwise_append.mp hbehind).2.1).1
      rw [Segment.text, Segment.template]
      by_cases hne : shown value = value
      · rw [hne]
        exact (substitute_param_eq_iff h hapart.distinct hsplit).mpr hshorter
      · have hshown : shown value = placeholder name :=
          (hapart.shown _ hsegment).resolve_left hne
        have hlength : (placeholder name).length < value.length := by
          rw [← hshown]
          exact lt_of_le_of_ne (shown_sublist value).length_le
            fun heq => hne ((shown_sublist value).eq_of_length heq)
        rw [hshown]
        exact substitute_placeholder hsplit hlength hshorter

/-- **For which requests the key is the template of the route.** -/
theorem route_key_eq_route_iff (h : request.WellNamed) :
    _route_key request = request.route ↔ request.Apart := by
  rw [route_key_eq_route_segments h]
  exact ⟨fun ⟨hlast, hsegments⟩ => apart_of_segments h hlast hsegments,
    fun hapart => ⟨hapart.last, segments_of_apart h hapart⟩⟩

/-- The template `/orgs/{org_id}/thing` is one of a router. -/
theorem wellNamed_thing (org_id : List Char) (hslash : '/' ∉ org_id) (hne : org_id ≠ []) :
    (thing org_id hslash hne).WellNamed where
  name := by
    intro item hitem
    obtain rfl := List.mem_singleton.mp hitem
    exact all_free_iff.mp (rfl : "org_id".toList.all (free reserved) = true)
  literal := by
    intro text htext item hitem
    obtain rfl := List.mem_singleton.mp hitem
    simp only [thing, List.mem_cons, Segment.literal.injEq, reduceCtorEq, List.not_mem_nil,
      or_false, false_or] at htext
    rcases htext with rfl | rfl
    · exact (by decide : ¬ placeholder "org_id".toList <:+: "orgs".toList)
    · exact (by decide : ¬ placeholder "org_id".toList <:+: "thing".toList)

/-- The request to `/orgs/{org_id}/thing` with the id `acme`. -/
def acmeThing : Request := thing "acme".toList (by decide) (by decide)

/-- The request to `/orgs/{org_id}/thing` with the id `orgs`. -/
def orgsThing : Request := thing "orgs".toList (by decide) (by decide)

/-- The values of the example are apart. -/
theorem apart_acmeThing : acmeThing.Apart where
  shown := by decide
  last := by
    have hfree : (acmeThing.segments.dropLast.all fun segment =>
        segment.text.all (free ['?', '#'])) = true := rfl
    exact fun segment hsegment => all_free_iff.mp (List.all_eq_true.mp hfree segment hsegment)
  distinct := by decide
  literal := by
    intro text htext item hitem
    obtain rfl := List.mem_singleton.mp hitem
    simp only [acmeThing, thing, List.mem_cons, Segment.literal.injEq, reduceCtorEq,
      List.not_mem_nil, or_false, false_or] at htext
    rcases htext with rfl | rfl
    · exact (by decide : ¬ "acme".toList <:+: "orgs".toList)
    · exact (by decide : ¬ "acme".toList <:+: "thing".toList)
  placeholder := by decide

-- A value with a question mark ends the path, so that nothing is found in it.
example : _route_key (thing "a?b".toList (by decide) (by decide)) = "/orgs/a".toList := by
  rw [_route_key, url_path_eq]
  decide

end BackendManager.RateLimit
