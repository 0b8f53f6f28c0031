import BackendManager.JsonText

/-!
# Canonical JSON Texts

With `sort_keys` the text of a value depends on its contents alone, whatever the order of the items
of its dicts at any depth, and different contents have different texts. With the separators of
`json.dumps`, or without blanks, a text is printable ASCII. Nothing here names a particular program.

That different contents have different texts is proved by reading: `loads` gives back the value
with its items sorted, and sorted values with the same contents are equal. Keys are compared by
their code points, as Python compares texts. The other direction is an induction over the value,
with the fact that a list without double keys has one sorted order.

A signature of such a text is therefore a signature of the contents, and of nothing else.

## Main results

* `dumps_eq_iff`: two values have one sorted text exactly if they have the same contents.
* `same_arranged`: sorting keeps the contents.
* `printable_dumps`: which characters a text is made of.
-/

namespace Json

/-! ### Items -/

section Lookup

variable {α β : Type} {items items' : List (String × α)} {key : String} {v : α}

/-- In items without a key twice, what is found is what is there. -/
theorem lookup_eq_some_iff_mem (h : (items.map Prod.fst).Nodup) :
    items.lookup key = some v ↔ (key, v) ∈ items := by
  induction items with
  | nil => simp
  | cons item items ih =>
      obtain ⟨key', w⟩ := item
      rw [List.map_cons, List.nodup_cons] at h
      rw [List.lookup_cons, List.mem_cons]
      by_cases hkey : key = key'
      · subst hkey
        have hnot : (key, v) ∉ items := fun hmem => h.1 (List.mem_map.mpr ⟨_, hmem, rfl⟩)
        simp only [beq_self_eq_true, Option.some.injEq, Prod.mk.injEq, true_and, hnot, or_false]
        exact eq_comm
      · have hbeq : (key == key') = false := beq_eq_false_iff_ne.mpr hkey
        simp only [hbeq, Prod.mk.injEq, hkey, false_and, false_or]
        exact ih h.2

/-- Items without a key twice are told by what is found under each key. -/
theorem perm_iff_lookup (h : (items.map Prod.fst).Nodup) (h' : (items'.map Prod.fst).Nodup) :
    items.Perm items' ↔ ∀ key, items.lookup key = items'.lookup key := by
  constructor
  · intro hperm key
    refine Option.ext fun v => ?_
    rw [lookup_eq_some_iff_mem h, lookup_eq_some_iff_mem h', hperm.mem_iff]
  · intro hlookup
    refine (List.perm_ext_iff_of_nodup h.of_map h'.of_map).mpr fun item => ?_
    rw [← lookup_eq_some_iff_mem h, hlookup, lookup_eq_some_iff_mem h']

/-- Sorting forgets the order. -/
theorem sortItems_eq_of_perm (h : (items.map Prod.fst).Nodup) (hperm : items.Perm items') :
    sortItems items = sortItems items' := by
  have hsorted : ∀ items : List (String × α),
      (sortItems items).Pairwise fun a b => a.1 ≤ b.1 :=
    fun items => List.pairwise_insertionSort _ items
  have hsort : ∀ items : List (String × α), (sortItems items).Perm items :=
    fun items => List.perm_insertionSort _ items
  refine List.Perm.eq_of_pairwise ?_ (hsorted items) (hsorted items')
    ((hsort items).trans (hperm.trans (hsort items').symm))
  intro a b ha hb hab hba
  have ha' := (hsort items).mem_iff.mp ha
  have hb' := hperm.mem_iff.mpr ((hsort items').mem_iff.mp hb)
  exact List.inj_on_of_nodup_map h ha' hb' (le_antisymm hab hba)

/-- A lookup among mapped values finds the mapped value. -/
theorem lookup_map (f : α → β) (items : List (String × α)) (key : String) :
    (items.map (Prod.map id f)).lookup key = (items.lookup key).map f := by
  induction items with
  | nil => rfl
  | cons item items ih =>
      obtain ⟨key', w⟩ := item
      rw [List.map_cons, Prod.map_apply, id_eq, List.lookup_cons, List.lookup_cons, ih]
      cases key == key' <;> rfl

/-- Mapping the values leaves the keys. -/
theorem keys_map (f : α → β) (items : List (String × α)) :
    (items.map (Prod.map id f)).map Prod.fst = items.map Prod.fst := by
  rw [List.map_map]
  rfl

end Lookup

/-- Two lists of one length have equal images exactly if all pairs of elements have. -/
theorem map_eq_map_iff {α β : Type} {f : α → β} {values values' : List α}
    (length : values.length = values'.length) :
    values.map f = values'.map f ↔ ∀ p ∈ values.zip values', f p.1 = f p.2 := by
  induction values generalizing values' with
  | nil =>
      obtain rfl := List.eq_nil_of_length_eq_zero length.symm
      simp
  | cons v values ih =>
      cases values' with
      | nil => cases length
      | cons v' values' =>
          rw [List.map_cons, List.map_cons, List.cons.injEq, ih (Nat.succ.inj length),
            List.zip_cons_cons, List.forall_mem_cons]

/-! ### Canonical texts -/

section Canonical

variable {F : Type} {P : Floats F} {style : Style} {v v' : Value F} {values : List (Value F)}
  {items : List (String × Value F)}

/-- The elements of a list without double keys have none. -/
theorem Value.Distinct.of_list (h : (Value.list values).Distinct) : ∀ v ∈ values, v.Distinct := by
  cases h with
  | scalar h => exact absurd h id
  | list h => exact h

/-- A dict without double keys has distinct keys, and values without double keys. -/
theorem Value.Distinct.of_dict (h : (Value.dict items).Distinct) :
    (items.map Prod.fst).Nodup ∧ ∀ item ∈ items, item.2.Distinct := by
  cases h with
  | scalar h => exact absurd h id
  | dict keys h => exact ⟨keys, h⟩

/-- Items with equal images of their values in some order. -/
theorem perm_map_iff {β : Type} {f : Value F → β} {items' : List (String × Value F)}
    (h : (items.map Prod.fst).Nodup) (h' : (items'.map Prod.fst).Nodup) :
    (items.map (Prod.map id f)).Perm (items'.map (Prod.map id f)) ↔
      ∀ key, (items.lookup key).map f = (items'.lookup key).map f := by
  rw [perm_iff_lookup (by rwa [keys_map]) (by rwa [keys_map])]
  simp only [lookup_map]

/-- The texts of equal contents are equal if the items are sorted. -/
theorem dumps_eq_of_same (hsort : style.sort_keys = true) (h : v.Distinct) (h' : v'.Distinct)
    (hsame : v.Same v') : v.dumps P style = v'.dumps P style := by
  induction hsame with
  | scalar hscalar => rfl
  | list length elements ih =>
      rw [Value.dumps, Value.dumps, Value.elements_eq, Value.elements_eq,
        (map_eq_map_iff length).mpr]
      intro p hp
      have hmem := List.of_mem_zip hp
      exact ih p hp (h.of_list _ hmem.1) (h'.of_list _ hmem.2)
  | @dict items items' keys values ih =>
      obtain ⟨hkeys, hitems⟩ := h.of_dict
      obtain ⟨hkeys', hitems'⟩ := h'.of_dict
      have hperm : (items.map (Prod.map id (Value.dumps P style))).Perm
          (items'.map (Prod.map id (Value.dumps P style))) := by
        refine (perm_map_iff hkeys hkeys').mpr fun key => ?_
        have hsome := keys key
        cases hlookup : items.lookup key with
        | none =>
            rw [hlookup] at hsome
            have hlookup' : items'.lookup key = none := by
              simpa using hsome.symm
            rw [hlookup']
        | some w =>
            rw [hlookup] at hsome
            obtain ⟨w', hlookup'⟩ := Option.isSome_iff_exists.mp hsome.symm
            have hw := (lookup_eq_some_iff_mem hkeys).mp hlookup
            have hw' := (lookup_eq_some_iff_mem hkeys').mp hlookup'
            rw [hlookup', Option.map_some, Option.map_some,
              ih key w w' hlookup hlookup' (hitems _ hw) (hitems' _ hw')]
      have hsorted := sortItems_eq_of_perm (by rwa [keys_map]) hperm
      rw [Value.dumps, Value.dumps, Value.fields_eq, Value.fields_eq, Style.order, Style.order,
        if_pos hsort, if_pos hsort, hsorted]

/-- Values that are arranged in one way have the same contents. -/
theorem same_of_arranged_eq (h : v.Distinct) (h' : v'.Distinct)
    (heq : v.arranged style = v'.arranged style) : v.Same v' := by
  induction v using Value.induct generalizing v' with
  | scalar v hscalar =>
      rw [Value.arranged_scalar hscalar] at heq
      have hscalar' : v'.IsScalar := Value.isScalar_arranged.mp (heq ▸ hscalar)
      rw [Value.arranged_scalar hscalar'] at heq
      rw [← heq]
      exact .scalar hscalar
  | list values ih =>
      cases v' with
      | list values' =>
          rw [Value.arranged, Value.arranged, Value.arrangedElements_eq,
            Value.arrangedElements_eq, Value.list.injEq] at heq
          have hlength : values.length = values'.length := by
            simpa using congrArg List.length heq
          refine .list hlength fun p hp => ?_
          have hmem := List.of_mem_zip hp
          exact ih p.1 hmem.1 (h.of_list _ hmem.1) (h'.of_list _ hmem.2)
            ((map_eq_map_iff hlength).mp heq p hp)
      | _ => cases heq
  | dict items ih =>
      cases v' with
      | dict items' =>
          obtain ⟨hkeys, hitems⟩ := h.of_dict
          obtain ⟨hkeys', hitems'⟩ := h'.of_dict
          rw [Value.arranged, Value.arranged, Value.arrangedItems_eq, Value.arrangedItems_eq,
            Value.dict.injEq] at heq
          have hperm := ((style.perm_order _).symm.trans (.of_eq heq)).trans (style.perm_order _)
          have hlookup := (perm_map_iff hkeys hkeys').mp hperm
          refine .dict (fun key => ?_) fun key w w' hw hw' => ?_
          · have hsome := congrArg Option.isSome (hlookup key)
            simpa using hsome
          · have hmem := (lookup_eq_some_iff_mem hkeys).mp hw
            have hmem' := (lookup_eq_some_iff_mem hkeys').mp hw'
            have hvalues := hlookup key
            rw [hw, hw', Option.map_some, Option.map_some, Option.some.injEq] at hvalues
            exact ih _ hmem (hitems _ hmem) (hitems' _ hmem') hvalues
      | _ => cases heq

/-- **Canonical texts**: with `sort_keys`, two values have one text exactly if they have the same
contents. -/
theorem dumps_eq_iff (P : Floats F) (hsort : style.sort_keys = true) (h : v.Distinct)
    (h' : v'.Distinct) : v.dumps P style = v'.dumps P style ↔ v.Same v' := by
  constructor
  · intro heq
    have hloads := loads_dumps P style h
    rw [heq, loads_dumps P style h', Option.some.injEq] at hloads
    exact same_of_arranged_eq h h' hloads.symm
  · exact dumps_eq_of_same hsort h h'

/-- Without `sort_keys` the items stand as they are. -/
theorem arranged_of_unsorted (hsort : style.sort_keys = false) (v : Value F) :
    v.arranged style = v := by
  induction v using Value.induct with
  | scalar v hscalar => exact Value.arranged_scalar hscalar
  | list values ih =>
      rw [Value.arranged, Value.arrangedElements_eq, List.map_congr_left ih, List.map_id']
  | dict items ih =>
      have hitems : items.map (Prod.map id (Value.arranged style)) = items := by
        have hmap : items.map (Prod.map id (Value.arranged style)) = items.map id :=
          List.map_congr_left fun item hitem => Prod.ext rfl (ih item hitem)
        rwa [List.map_id] at hmap
      rw [Value.arranged, Value.arrangedItems_eq, hitems, Style.order, hsort]
      rfl

/-- Arranging the items of a value keeps its contents. -/
theorem same_arranged (style : Style) (h : v.Distinct) : v.Same (v.arranged style) := by
  induction v using Value.induct with
  | scalar v hscalar =>
      rw [Value.arranged_scalar hscalar]
      exact .scalar hscalar
  | list values ih =>
      rw [Value.arranged, Value.arrangedElements_eq]
      refine .list (List.length_map _).symm fun p hp => ?_
      obtain ⟨i, hi, rfl⟩ := List.getElem_of_mem hp
      rw [List.getElem_zip, List.getElem_map]
      exact ih _ (List.getElem_mem _) (h.of_list _ (List.getElem_mem _))
  | dict items ih =>
      obtain ⟨hkeys, hitems⟩ := h.of_dict
      rw [Value.arranged, Value.arrangedItems_eq]
      have hlookup : ∀ key, (style.order (items.map (Prod.map id (Value.arranged style)))).lookup
          key = (items.lookup key).map (Value.arranged style) := by
        intro key
        have hkeys' : ((items.map (Prod.map id (Value.arranged style))).map Prod.fst).Nodup := by
          rwa [keys_map]
        have hperm := style.perm_order (items.map (Prod.map id (Value.arranged style)))
        rw [(perm_iff_lookup (style.nodup_order hkeys') hkeys').mp hperm, lookup_map]
      refine .dict (fun key => ?_) fun key w w' hw hw' => ?_
      · rw [hlookup, Option.isSome_map]
      · rw [hlookup, hw] at hw'
        obtain rfl := Option.some.inj hw'
        have hmem := (lookup_eq_some_iff_mem hkeys).mp hw
        exact ih _ hmem (hitems _ hmem)

end Canonical

/-! ### ASCII -/

section Ascii

variable {F : Type} {P : Floats F} {style : Style} {v : Value F} {text : List Char}

/-- The text is made of printable ASCII characters. -/
def Printable (text : List Char) : Prop := ∀ c ∈ text, isPrintable c = true

/-- A test of every character. -/
theorem printable_of_all (h : text.all isPrintable = true) : Printable text :=
  List.all_eq_true.mp h

/-- The empty text is printable. -/
theorem printable_nil : Printable [] := fun _ hc => absurd hc List.not_mem_nil

/-- Printable texts, one after the other. -/
theorem printable_append {text' : List Char} (h : Printable text) (h' : Printable text') :
    Printable (text ++ text') :=
  fun c hc => (List.mem_append.mp hc).elim (h c) (h' c)

/-- A printable character before a printable text. -/
theorem printable_cons {c : Char} (hc : isPrintable c = true) (h : Printable text) :
    Printable (c :: text) := List.forall_mem_cons.mpr ⟨hc, h⟩

/-- Digits are printable. -/
theorem printable_digits (h : IsDigits text) : Printable text := by
  intro c hc
  have hdigit := h.2 c hc
  simp only [Char.isDigit, Bool.and_eq_true, decide_eq_true_eq] at hdigit
  have hlow : 48 ≤ c.toNat := hdigit.1
  have hhigh : c.toNat ≤ 57 := hdigit.2
  simp only [isPrintable, decide_eq_true_eq]
  omega

/-- And so is every number: signs, points and exponents are ASCII. -/
theorem printable_literal {literal : Literal} (h : literal.Matches) : Printable literal.text := by
  obtain ⟨hinteger, hfrac, hexp⟩ := h
  refine printable_append ?_ (printable_append ?_ ?_)
  · generalize literal.integer = integer at hinteger
    cases hinteger with
    | unsigned h canonical => exact printable_digits h
    | signed h canonical => exact printable_cons rfl (printable_digits h)
  · generalize literal.frac = frac at hfrac
    cases hfrac with
    | nil => exact printable_nil
    | cons h => exact printable_cons rfl (printable_digits h)
  · generalize literal.exp = exp at hexp
    cases hexp with
    | nil => exact printable_nil
    | @cons e sign digits he hsign h =>
        have hsign' : Printable sign := by
          rcases hsign with rfl | rfl | rfl
          · exact printable_nil
          · exact printable_cons rfl printable_nil
          · exact printable_cons rfl printable_nil
        have hrest := printable_append hsign' (printable_digits h)
        rcases he with rfl | rfl
        · exact printable_cons rfl hrest
        · exact printable_cons rfl hrest

/-- A quoted string is printable whatever the string: what is not ASCII is escaped. -/
theorem printable_quote (s : List Char) : Printable (quote s) := by
  refine printable_cons rfl (printable_append (fun c hc => ?_) (printable_cons rfl ?_))
  · obtain ⟨c', -, hc⟩ := List.mem_flatMap.mp hc
    exact isPrintable_of_mem_escape hc
  · exact printable_nil

/-- Printable texts with commas between them are printable if what stands behind the commas is. -/
theorem printable_commaSeparated (hcomma : Printable style.afterComma) {texts : List (List Char)}
    (h : ∀ text ∈ texts, Printable text) : Printable (commaSeparated style texts) := by
  cases texts with
  | nil => exact printable_nil
  | cons text texts =>
      obtain ⟨htext, htexts⟩ := List.forall_mem_cons.mp h
      refine printable_append htext fun c hc => ?_
      obtain ⟨text', hmem, hc⟩ := List.mem_flatMap.mp hc
      exact printable_cons rfl (printable_append hcomma (htexts text' hmem)) c hc

/-- **`ensure_ascii`**: a JSON text is printable ASCII, if what stands behind its commas and colons
is. -/
theorem printable_dumps (P : Floats F) (hcomma : Printable style.afterComma)
    (hcolon : Printable style.afterColon) (v : Value F) : Printable (v.dumps P style) := by
  induction v using Value.induct with
  | scalar v hscalar =>
      cases v with
      | null => exact printable_of_all (show "null".toList.all isPrintable = true by decide)
      | bool b =>
          cases b with
          | true => exact printable_of_all (show "true".toList.all isPrintable = true by decide)
          | false => exact printable_of_all (show "false".toList.all isPrintable = true by decide)
      | int n =>
          have h := printable_literal (matches_intLiteral n)
          rwa [Literal.text, intLiteral, List.append_nil, List.append_nil] at h
      | float x =>
          rw [Value.dumps]
          rcases P.shape x with ⟨hrepr, -⟩ | ⟨hrepr, -⟩ | ⟨hrepr, -⟩ | ⟨literal, h, -, hrepr, -⟩
          · rw [hrepr]
            exact printable_of_all (show "NaN".toList.all isPrintable = true by decide)
          · rw [hrepr]
            exact printable_of_all (show "Infinity".toList.all isPrintable = true by decide)
          · rw [hrepr]
            exact printable_of_all (show "-Infinity".toList.all isPrintable = true by decide)
          · rw [hrepr]
            exact printable_literal h
      | str s => exact printable_quote s.toList
      | list values => exact absurd hscalar id
      | dict items => exact absurd hscalar id
  | list values ih =>
      rw [Value.dumps, Value.elements_eq]
      refine printable_cons rfl (printable_append (printable_commaSeparated hcomma ?_)
        (printable_cons rfl printable_nil))
      intro text htext
      obtain ⟨w, hw, rfl⟩ := List.mem_map.mp htext
      exact ih w hw
  | dict items ih =>
      rw [Value.dumps, Value.fields_eq, Style.order_map]
      refine printable_cons rfl (printable_append (printable_commaSeparated hcomma ?_)
        (printable_cons rfl printable_nil))
      intro text htext
      obtain ⟨pair, hpair, rfl⟩ := List.mem_map.mp htext
      obtain ⟨item, hitem, rfl⟩ := List.mem_map.mp hpair
      have hv := ih item ((style.perm_order items).mem_iff.mp hitem)
      exact printable_append (printable_quote _) (printable_cons rfl (printable_append hcolon hv))

end Ascii

end Json
