import BackendManager.Json
import BackendManager.JsonLiterals
import Mathlib.Data.List.Sort
import Mathlib.Data.String.Basic

/-!
# JSON Texts in Python

`json.dumps` with any separators, with and without `sort_keys`, and `json.loads`. Nothing here
names a particular program.

`dumps` writes the items of a dict in their order; `sort_keys` sorts them by key at every level.
`loads` takes a text apart with fuel, of which the length of the text is enough for every text
that `dumps` has written. Both are for values whose dicts have `str` keys.

The scanners are those of Python's decoder: a value, the elements of a list after its bracket,
the items of a dict after its brace. Each takes one unit of fuel for one call, and consumes at
least one character. `Reads` states the round trip of one value in front of any text that does
not continue it, which is the form in which it can be used under a list or a dict; the theorem
is an induction over the value with this as its motive.

## Main results

* `loads_dumps`: what has been written is read back, its items sorted if they were.
-/

namespace Json

/-- Floats as `json` writes and reads them. -/
structure Floats (F : Type) where
  /-- `floatstr`. -/
  repr : F → List Char
  /-- `float`, of a text that the scanner has found. -/
  parse : List Char → F
  nan : F
  infinity : F
  negInfinity : F
  /-- The text of a float is a constant, or a decimal number that is parsed to the float. -/
  shape : ∀ x, repr x = "NaN".toList ∧ x = nan ∨ repr x = "Infinity".toList ∧ x = infinity ∨
    repr x = "-Infinity".toList ∧ x = negInfinity ∨
    ∃ literal : Literal, literal.Matches ∧ (literal.frac ≠ [] ∨ literal.exp ≠ []) ∧
      repr x = literal.text ∧ parse literal.text = x

/-- White space in a JSON text. -/
def isBlank (c : Char) : Bool :=
  c = ' ' || c = Char.ofNat 9 || c = Char.ofNat 10 || c = Char.ofNat 13

/-- The arguments of `dumps`: what stands behind a comma and behind a colon, and `sort_keys`. -/
structure Style where
  afterComma : List Char
  afterColon : List Char
  sort_keys : Bool
  comma_blank : ∀ c ∈ afterComma, isBlank c = true
  colon_blank : ∀ c ∈ afterColon, isBlank c = true

/-- Texts, with commas between them. -/
def commaSeparated (style : Style) : List (List Char) → List Char
  | [] => []
  | text :: texts => text ++ texts.flatMap fun text => ',' :: (style.afterComma ++ text)

/-- `sorted(dct.items())`: no two keys are equal, so that nothing but keys is compared. -/
def sortItems {α : Type} (items : List (String × α)) : List (String × α) :=
  items.insertionSort fun a b => a.1 ≤ b.1

/-- The order in which items are written. -/
def Style.order {α : Type} (style : Style) (items : List (String × α)) : List (String × α) :=
  if style.sort_keys then sortItems items else items

/-- An item of a dict, the value as its text. -/
def field (style : Style) (item : String × List Char) : List Char :=
  quote item.1.toList ++ ':' :: (style.afterColon ++ item.2)

namespace Value

variable {F : Type}

mutual
/-- `json.dumps`. -/
def dumps (P : Floats F) (style : Style) : Value F → List Char
  | .null => "null".toList
  | .bool true => "true".toList
  | .bool false => "false".toList
  | .int n => intText n
  | .float x => P.repr x
  | .str s => quote s.toList
  | .list values => '[' :: (commaSeparated style (elements P style values) ++ [']'])
  | .dict items =>
      '{' :: (commaSeparated style ((style.order (fields P style items)).map (field style)) ++
        ['}'])

/-- The texts of the elements of a list. -/
def elements (P : Floats F) (style : Style) : List (Value F) → List (List Char)
  | [] => []
  | v :: values => v.dumps P style :: elements P style values

/-- The items of a dict, the values as their texts. -/
def fields (P : Floats F) (style : Style) : List (String × Value F) → List (String × List Char)
  | [] => []
  | (key, v) :: items => (key, v.dumps P style) :: fields P style items
end

end Value

/-! ### The scanner -/

/-- The text behind white space. -/
def skipBlank (text : List Char) : List Char := text.dropWhile isBlank

/-- `dict(pairs)`: a key that comes again keeps its place and takes the new value. -/
def dictOf {α : Type} : List (String × α) → List (String × α) → List (String × α)
  | items, [] => items
  | items, (key, v) :: pairs =>
      if items.any fun item => item.1 = key then
        dictOf (items.map fun item => if item.1 = key then (key, v) else item) pairs
      else dictOf (items ++ [(key, v)]) pairs

section Scanner

variable {F : Type}

/-- The names of values, and the numbers. -/
def scanScalar (P : Floats F) (text : List Char) : Option (Value F × List Char) :=
  if "null".toList.isPrefixOf text then some (.null, text.drop 4)
  else if "true".toList.isPrefixOf text then some (.bool true, text.drop 4)
  else if "false".toList.isPrefixOf text then some (.bool false, text.drop 5)
  else
    match scanLiteral text with
    | some (literal, rest) =>
        if literal.frac ≠ [] ∨ literal.exp ≠ [] then some (.float (P.parse literal.text), rest)
        else some (.int (intValue literal.integer), rest)
    | none =>
        if "NaN".toList.isPrefixOf text then some (.float P.nan, text.drop 3)
        else if "Infinity".toList.isPrefixOf text then some (.float P.infinity, text.drop 8)
        else if "-Infinity".toList.isPrefixOf text then some (.float P.negInfinity, text.drop 9)
        else none

/-- The text behind a character that must come. -/
def expect (c : Char) : List Char → Option (List Char)
  | [] => none
  | c' :: rest => if c' = c then some rest else none

mutual
/-- `scan_once`. -/
def scanValue (P : Floats F) : ℕ → List Char → Option (Value F × List Char)
  | 0, _ | _ + 1, [] => none
  | fuel + 1, c :: rest =>
      if c = quotationMark then
        (scanString fuel rest).map fun (s, rest) => (.str (String.ofList s), rest)
      else if c = '{' then
        match skipBlank rest with
        | [] => none
        | c :: more =>
            if c = '}' then some (.dict [], more)
            else
              (scanPairs P fuel (c :: more)).map fun (pairs, rest) =>
                (.dict (dictOf [] pairs), rest)
      else if c = '[' then
        match skipBlank rest with
        | [] => none
        | c :: more =>
            if c = ']' then some (.list [], more)
            else (scanElements P fuel (c :: more)).map fun (values, rest) => (.list values, rest)
      else scanScalar P (c :: rest)

/-- The loop of `JSONArray`, from an element on. -/
def scanElements (P : Floats F) : ℕ → List Char → Option (List (Value F) × List Char)
  | 0, _ => none
  | fuel + 1, text => do
      let (v, rest) ← scanValue P fuel text
      match skipBlank rest with
      | [] => none
      | c :: rest =>
          if c = ']' then some ([v], rest)
          else if c = ',' then do
            let (values, rest) ← scanElements P fuel (skipBlank rest)
            some (v :: values, rest)
          else none

/-- The loop of `JSONObject`, from a key on. -/
def scanPairs (P : Floats F) : ℕ → List Char → Option (List (String × Value F) × List Char)
  | 0, _ => none
  | fuel + 1, text => do
      let text ← expect quotationMark text
      let (key, rest) ← scanString fuel text
      let rest ← expect ':' (skipBlank rest)
      let (v, rest) ← scanValue P fuel (skipBlank rest)
      match skipBlank rest with
      | [] => none
      | c :: rest =>
          if c = '}' then some ([(String.ofList key, v)], rest)
          else if c = ',' then do
            let (pairs, rest) ← scanPairs P fuel (skipBlank rest)
            some ((String.ofList key, v) :: pairs, rest)
          else none
end

/-- `json.loads`; `none` is a `JSONDecodeError`. -/
def loads (P : Floats F) (text : List Char) : Option (Value F) :=
  match scanValue P (text.length + 1) (skipBlank text) with
  | some (v, rest) => if skipBlank rest = [] then some v else none
  | none => none

end Scanner


/-! ### What is written -/

namespace Value

variable {F : Type} {P : Floats F} {style : Style}

/-- A property of all values, from what a container has it of. -/
theorem induct {motive : Value F → Prop} (scalar : ∀ v : Value F, v.IsScalar → motive v)
    (list : ∀ values, (∀ v ∈ values, motive v) → motive (.list values))
    (dict : ∀ items, (∀ item ∈ items, motive item.2) → motive (.dict items)) : ∀ v, motive v
  | .null | .bool _ | .int _ | .float _ | .str _ => scalar _ trivial
  | .list values => list values fun v _ => induct scalar list dict v
  | .dict items => dict items fun item _ => induct scalar list dict item.2
termination_by v => sizeOf v
decreasing_by
  · rename_i hmem
    have hlt := List.sizeOf_lt_of_mem hmem
    simp only [Value.list.sizeOf_spec]
    omega
  · rename_i hmem
    have hlt := List.sizeOf_lt_of_mem hmem
    cases item
    simp only [Prod.mk.sizeOf_spec, Value.dict.sizeOf_spec] at hlt ⊢
    omega

/-- The recursion over the elements of a list writes each of them by itself. -/
theorem elements_eq (P : Floats F) (style : Style) (values : List (Value F)) :
    elements P style values = values.map (dumps P style) := by
  induction values with
  | nil => rfl
  | cons v values ih => rw [elements, ih, List.map_cons]

/-- And that over the items of a dict writes each value, and leaves the keys. -/
theorem fields_eq (P : Floats F) (style : Style) (items : List (String × Value F)) :
    fields P style items = items.map (Prod.map id (dumps P style)) := by
  induction items with
  | nil => rfl
  | cons item items ih => rw [fields, ih, List.map_cons, Prod.map_apply, id_eq]

/-- The dicts of a value have no key twice. -/
inductive Distinct : Value F → Prop
  | scalar {v : Value F} (h : v.IsScalar) : Distinct v
  | list {values : List (Value F)} (h : ∀ v ∈ values, Distinct v) : Distinct (.list values)
  | dict {items : List (String × Value F)} (keys : (items.map Prod.fst).Nodup)
      (h : ∀ item ∈ items, Distinct item.2) : Distinct (.dict items)

mutual
/-- A value, its items in the order in which they are written. -/
def arranged (style : Style) : Value F → Value F
  | .list values => .list (arrangedElements style values)
  | .dict items => .dict (style.order (arrangedItems style items))
  | v => v

def arrangedElements (style : Style) : List (Value F) → List (Value F)
  | [] => []
  | v :: values => v.arranged style :: arrangedElements style values

def arrangedItems (style : Style) : List (String × Value F) → List (String × Value F)
  | [] => []
  | (key, v) :: items => (key, v.arranged style) :: arrangedItems style items
end

/-- A list is arranged element by element. -/
theorem arrangedElements_eq (style : Style) (values : List (Value F)) :
    arrangedElements style values = values.map (arranged style) := by
  induction values with
  | nil => rfl
  | cons v values ih => rw [arrangedElements, ih, List.map_cons]

/-- A dict is arranged value by value; `arranged` then orders the items. -/
theorem arrangedItems_eq (style : Style) (items : List (String × Value F)) :
    arrangedItems style items = items.map (Prod.map id (arranged style)) := by
  induction items with
  | nil => rfl
  | cons item items ih => rw [arrangedItems, ih, List.map_cons, Prod.map_apply, id_eq]

/-- There is nothing to arrange in a scalar. -/
theorem arranged_scalar {v : Value F} (h : v.IsScalar) : v.arranged style = v := by
  cases v with
  | list values => exact absurd h id
  | dict items => exact absurd h id
  | _ => rfl

/-- Arranging makes no scalar of a list or a dict. -/
theorem isScalar_arranged {v : Value F} : (v.arranged style).IsScalar ↔ v.IsScalar := by
  cases v <;> rfl

end Value

section Order

variable {α β : Type} {style : Style} {items : List (String × α)}

/-- Sorting looks at nothing but the keys. -/
theorem Style.order_map (style : Style) (f : α → β) (items : List (String × α)) :
    style.order (items.map (Prod.map id f)) = (style.order items).map (Prod.map id f) := by
  rw [order, order]
  split
  · rw [sortItems, sortItems]
    exact (List.map_insertionSort (fun a b : String × α => a.1 ≤ b.1)
      (fun a b : String × β => a.1 ≤ b.1) _ _ fun a _ b _ => Iff.rfl).symm
  · rfl

/-- With `sort_keys` or without, every item is written once. -/
theorem Style.perm_order (style : Style) (items : List (String × α)) :
    (style.order items).Perm items := by
  rw [order]
  split
  · exact List.perm_insertionSort _ _
  · exact .refl _

/-- Keys that are distinct are written as distinct keys. -/
theorem Style.nodup_order (h : (items.map Prod.fst).Nodup) :
    ((style.order items).map Prod.fst).Nodup :=
  ((style.perm_order items).map Prod.fst).nodup_iff.mpr h

/-- A dict of items with different keys has them in their order. -/
theorem dictOf_append {pairs : List (String × α)}
    (h : ((items ++ pairs).map Prod.fst).Nodup) : dictOf items pairs = items ++ pairs := by
  induction pairs generalizing items with
  | nil => rw [dictOf, List.append_nil]
  | cons pair pairs ih =>
      obtain ⟨key, v⟩ := pair
      have hnew : ¬ (items.any fun item => item.1 = key) = true := by
        rw [List.any_eq_true]
        rintro ⟨item, hitem, hkey⟩
        rw [List.map_append, List.map_cons, List.nodup_append] at h
        refine h.2.2 item.1 (List.mem_map_of_mem hitem) key List.mem_cons_self ?_
        exact of_decide_eq_true hkey
      have hassoc : items ++ (key, v) :: pairs = items ++ [(key, v)] ++ pairs := by
        rw [List.append_assoc, List.singleton_append]
      rw [dictOf, if_neg hnew, ih (by rwa [← hassoc]), hassoc]

end Order

/-! ### What is read -/

/-- A text that begins with something else than white space. -/
def Begins (text : List Char) : Prop :=
  ∃ c rest, text = c :: rest ∧ isBlank c = false ∧ c ≠ ']' ∧ c ≠ '}'

/-- White space ends at the first character that is not blank. -/
theorem skipBlank_cons {c : Char} (h : isBlank c = false) (rest : List Char) :
    skipBlank (c :: rest) = c :: rest := by
  rw [skipBlank, List.dropWhile_cons_of_neg (by simp [h])]

/-- In front of the text of a value there is no white space to skip. -/
theorem skipBlank_of_begins {text : List Char} (h : Begins text) (rest : List Char) :
    skipBlank (text ++ rest) = text ++ rest := by
  obtain ⟨c, tail, rfl, hc, -⟩ := h
  rw [List.cons_append, skipBlank_cons hc]

/-- Blanks that the style has put in front of a value are skipped, and no more. -/
theorem skipBlank_append {blanks text : List Char} (hblanks : ∀ c ∈ blanks, isBlank c = true)
    (h : Begins text) (rest : List Char) :
    skipBlank (blanks ++ (text ++ rest)) = text ++ rest := by
  rw [skipBlank, List.dropWhile_append_of_pos hblanks]
  exact skipBlank_of_begins h rest

/-- The text of a string begins with its quotation mark. -/
theorem begins_quote (s : List Char) : Begins (quote s) :=
  ⟨quotationMark, _, rfl, by decide, by decide, by decide⟩

section Literals

variable {literal : Literal}

/-- A number begins with a digit or a sign. -/
theorem exists_text_eq_cons (h : literal.Matches) :
    ∃ c rest, literal.text = c :: rest ∧ (c.isDigit = true ∨ c = '-') := by
  have hinteger := h.integer
  rw [Literal.text]
  generalize literal.integer = integer at hinteger ⊢
  cases hinteger with
  | unsigned h canonical =>
      obtain ⟨c, tail, rfl, hc⟩ := exists_of_isDigits h
      exact ⟨c, _, rfl, .inl hc⟩
  | signed h canonical => exact ⟨'-', _, rfl, .inr rfl⟩

/-- A digit or a sign opens neither a name nor a container. -/
theorem number_head {c : Char} (h : c.isDigit = true ∨ c = '-') :
    c ∉ [' ', Char.ofNat 9, Char.ofNat 10, Char.ofNat 13, quotationMark, '{', '}', '[', ']',
      'n', 't', 'f'] := by
  intro hmem
  rcases h with h | rfl
  · simp only [List.mem_cons, List.not_mem_nil, or_false] at hmem
    rcases hmem with rfl | rfl | rfl | rfl | rfl | rfl | rfl | rfl | rfl | rfl | rfl | rfl <;>
      cases h
  · revert hmem
    decide

/-- The text of a number begins with a digit or a sign. -/
theorem begins_literal (h : literal.Matches) : Begins literal.text := by
  obtain ⟨c, tail, htext, hc⟩ := exists_text_eq_cons h
  have hhead := number_head hc
  simp only [List.mem_cons, List.not_mem_nil, or_false, not_or] at hhead
  obtain ⟨hspace, htab, hline, hreturn, -, -, hbrace, -, hbracket, -⟩ := hhead
  refine ⟨c, tail, htext, ?_, hbracket, hbrace⟩
  simp [isBlank, hspace, htab, hline, hreturn]

end Literals

section Scanning

variable {F : Type} {P : Floats F} {style : Style} {literal : Literal} {v : Value F}
  {values : List (Value F)} {items : List (String × Value F)} {fuel : ℕ} {rest text : List Char}

/-- A value is read back from the front of a text, and `arranged` is what is read. -/
structure Reads (P : Floats F) (style : Style) (v : Value F) : Prop where
  begins : Begins (v.dumps P style)
  scan : ∀ {fuel : ℕ} (rest : List Char), Stops rest → (v.dumps P style).length < fuel →
    scanValue P fuel (v.dumps P style ++ rest) = some (v.arranged style, rest)

/-- Neither a name nor a container begins with this character. -/
theorem scanValue_number {c : Char} (h : c.isDigit = true ∨ c = '-') :
    scanValue P (fuel + 1) (c :: rest) = scanScalar P (c :: rest) := by
  have hhead := number_head h
  simp only [List.mem_cons, List.not_mem_nil, or_false, not_or] at hhead
  obtain ⟨-, -, -, -, hquote, hbrace, -, hbracket, -⟩ := hhead
  rw [scanValue, if_neg hquote, if_neg hbrace, if_neg hbracket]

/-- A text that begins as a number is none of the names, so that the scanner of numbers decides. -/
theorem scanScalar_number {c : Char} (h : c.isDigit = true ∨ c = '-') :
    scanScalar P (c :: rest) =
      match scanLiteral (c :: rest) with
      | some (literal, rest) =>
          if literal.frac ≠ [] ∨ literal.exp ≠ [] then some (.float (P.parse literal.text), rest)
          else some (.int (intValue literal.integer), rest)
      | none =>
          if "NaN".toList.isPrefixOf (c :: rest) then some (.float P.nan, (c :: rest).drop 3)
          else if "Infinity".toList.isPrefixOf (c :: rest) then
            some (.float P.infinity, (c :: rest).drop 8)
          else if "-Infinity".toList.isPrefixOf (c :: rest) then
            some (.float P.negInfinity, (c :: rest).drop 9)
          else none := by
  have hhead := number_head h
  simp only [List.mem_cons, List.not_mem_nil, or_false, not_or] at hhead
  obtain ⟨-, -, -, -, -, -, -, -, -, hn, ht, hf⟩ := hhead
  have hnull : "null".toList.isPrefixOf (c :: rest) = false := by
    simp [List.isPrefixOf, Ne.symm hn]
  have htrue : "true".toList.isPrefixOf (c :: rest) = false := by
    simp [List.isPrefixOf, Ne.symm ht]
  have hfalse : "false".toList.isPrefixOf (c :: rest) = false := by
    simp [List.isPrefixOf, Ne.symm hf]
  rw [scanScalar, hnull, htrue, hfalse]
  rfl

/-- A number is read as the float or the integer that its text stands for. -/
theorem scanValue_literal (h : literal.Matches) (hrest : Stops rest) :
    scanValue P (fuel + 1) (literal.text ++ rest) =
      if literal.frac ≠ [] ∨ literal.exp ≠ [] then some (.float (P.parse literal.text), rest)
      else some (.int (intValue literal.integer), rest) := by
  have hscan := scanLiteral_append h hrest
  obtain ⟨c, tail, htext, hc⟩ := exists_text_eq_cons h
  rw [htext, List.cons_append] at hscan ⊢
  rw [scanValue_number hc, scanScalar_number hc, hscan]
  simp only [htext]

/-- An integer is read back from its digits. -/
theorem reads_int (n : ℤ) : Reads P style (.int n) where
  begins := by
    have h := begins_literal (matches_intLiteral n)
    rwa [Literal.text, intLiteral, List.append_nil, List.append_nil] at h
  scan {fuel} rest hrest hfuel := by
    obtain ⟨fuel, rfl⟩ : ∃ k, fuel = k + 1 := ⟨fuel - 1, by omega⟩
    have h : scanValue P (fuel + 1) ((intLiteral n).text ++ rest) = _ :=
      scanValue_literal (matches_intLiteral n) hrest
    rw [Literal.text, intLiteral] at h
    simp only [List.append_nil, ne_eq, not_true_eq_false, or_self, if_false,
      intValue_intText] at h
    exact h

/-- The constants are no numbers, so that they are tried after them. -/
theorem reads_float (x : F) : Reads P style (.float x) := by
  rcases P.shape x with ⟨hrepr, rfl⟩ | ⟨hrepr, rfl⟩ | ⟨hrepr, rfl⟩ |
    ⟨literal, hmatches, hfloat, hrepr, hparse⟩
  · refine ⟨?_, fun {fuel} rest hrest hfuel => ?_⟩
    · rw [Value.dumps, hrepr]
      exact ⟨'N', ['a', 'N'], rfl, by decide, by decide, by decide⟩
    · obtain ⟨fuel, rfl⟩ : ∃ k, fuel = k + 1 := ⟨fuel - 1, by omega⟩
      rw [Value.dumps, hrepr]
      rfl
  · refine ⟨?_, fun {fuel} rest hrest hfuel => ?_⟩
    · rw [Value.dumps, hrepr]
      exact ⟨'I', "nfinity".toList, rfl, by decide, by decide, by decide⟩
    · obtain ⟨fuel, rfl⟩ : ∃ k, fuel = k + 1 := ⟨fuel - 1, by omega⟩
      rw [Value.dumps, hrepr]
      rfl
  · refine ⟨?_, fun {fuel} rest hrest hfuel => ?_⟩
    · rw [Value.dumps, hrepr]
      exact ⟨'-', "Infinity".toList, rfl, by decide, by decide, by decide⟩
    · obtain ⟨fuel, rfl⟩ : ∃ k, fuel = k + 1 := ⟨fuel - 1, by omega⟩
      rw [Value.dumps, hrepr]
      rfl
  · refine ⟨?_, fun {fuel} rest hrest hfuel => ?_⟩
    · rw [Value.dumps, hrepr]
      exact begins_literal hmatches
    · obtain ⟨fuel, rfl⟩ : ∃ k, fuel = k + 1 := ⟨fuel - 1, by omega⟩
      rw [Value.dumps, hrepr, scanValue_literal hmatches hrest, if_pos hfloat, hparse]
      rfl

/-- A string is read back from its quoted text, whatever follows. -/
theorem reads_str (s : String) : Reads P style (.str s) where
  begins := begins_quote s.toList
  scan {fuel} rest hrest hfuel := by
    have hlength := length_le_flatMap_escape s.toList
    rw [Value.dumps, quote, List.length_cons, List.length_append] at hfuel
    obtain ⟨fuel, rfl⟩ : ∃ k, fuel = k + 1 := ⟨fuel - 1, by omega⟩
    rw [Value.dumps, quote, List.cons_append, List.append_assoc, List.singleton_append, scanValue,
      if_pos rfl, scanString_quote (by omega), Option.map_some]
    simp only [String.ofList_toList]
    rfl

/-- **Scalars** are read back. -/
theorem reads_scalar (h : v.IsScalar) : Reads P style v := by
  cases v with
  | int n => exact reads_int n
  | float x => exact reads_float x
  | str s => exact reads_str s
  | list values => exact absurd h id
  | dict items => exact absurd h id
  | null =>
      refine ⟨⟨'n', "ull".toList, rfl, by decide, by decide, by decide⟩, fun {fuel} rest _ h => ?_⟩
      obtain ⟨fuel, rfl⟩ : ∃ k, fuel = k + 1 := ⟨fuel - 1, by omega⟩
      rfl
  | bool b =>
      cases b with
      | true =>
          refine ⟨⟨'t', "rue".toList, rfl, by decide, by decide, by decide⟩,
            fun {fuel} rest _ h => ?_⟩
          obtain ⟨fuel, rfl⟩ : ∃ k, fuel = k + 1 := ⟨fuel - 1, by omega⟩
          rfl
      | false =>
          refine ⟨⟨'f', "alse".toList, rfl, by decide, by decide, by decide⟩,
            fun {fuel} rest _ h => ?_⟩
          obtain ⟨fuel, rfl⟩ : ∃ k, fuel = k + 1 := ⟨fuel - 1, by omega⟩
          rfl

/-! ### Lists -/

/-- What stands behind an element or an item. -/
theorem stops_cons {c : Char} (h : c = ',' ∨ c = ']' ∨ c = '}') : Stops (c :: rest) := by
  intro c' hc'
  obtain rfl := Option.some.inj hc'
  rcases h with rfl | rfl | rfl <;> decide

/-- One text alone has no comma. -/
theorem commaSeparated_singleton (style : Style) (text : List Char) :
    commaSeparated style [text] = text := List.append_nil text

/-- Between two texts stands a comma, with what the style puts behind it. -/
theorem commaSeparated_cons_cons (style : Style) (text text' : List Char)
    (texts : List (List Char)) :
    commaSeparated style (text :: text' :: texts) =
      text ++ ',' :: (style.afterComma ++ commaSeparated style (text' :: texts)) := by
  rw [commaSeparated, commaSeparated, List.flatMap_cons, List.cons_append, List.append_assoc]

/-- Texts with commas between them begin as the first one does. -/
theorem begins_commaSeparated {text : List Char} (h : Begins text) (texts : List (List Char)) :
    Begins (commaSeparated style (text :: texts)) := by
  obtain ⟨c, tail, rfl, hc⟩ := h
  exact ⟨c, _, rfl, hc⟩

/-- The loop over the elements of a list. -/
theorem scanElements_append (hv : Reads P style v) (h : ∀ w ∈ values, Reads P style w)
    (hfuel : (commaSeparated style ((v :: values).map (Value.dumps P style))).length + 1 < fuel)
    (rest : List Char) :
    scanElements P fuel
        (commaSeparated style ((v :: values).map (Value.dumps P style)) ++ ']' :: rest) =
      some ((v :: values).map (Value.arranged style), rest) := by
  induction values generalizing v fuel with
  | nil =>
      simp only [List.map_cons, List.map_nil, commaSeparated_singleton] at hfuel ⊢
      obtain ⟨fuel, rfl⟩ : ∃ k, fuel = k + 1 := ⟨fuel - 1, by omega⟩
      have hscan := hv.scan (']' :: rest) (stops_cons (.inr (.inl rfl))) (show _ < fuel by omega)
      rw [scanElements, hscan]
      rfl
  | cons w values ih =>
      obtain ⟨fuel, rfl⟩ : ∃ k, fuel = k + 1 := ⟨fuel - 1, by omega⟩
      have hw := h w List.mem_cons_self
      have hvalues := fun u hu => h u (List.mem_cons_of_mem w hu)
      simp only [List.map_cons, commaSeparated_cons_cons, List.length_append,
        List.length_cons] at hfuel
      have hmore := ih hw hvalues (show _ < fuel by simp only [List.map_cons]; omega)
      have hbegins : Begins (commaSeparated style ((w :: values).map (Value.dumps P style))) :=
        begins_commaSeparated hw.begins _
      have hskip := skipBlank_append style.comma_blank hbegins (']' :: rest)
      have hscan := fun rest => hv.scan (',' :: rest) (stops_cons (.inl rfl))
        (show _ < fuel by omega)
      rw [List.map_cons, List.map_cons, commaSeparated_cons_cons, ← List.map_cons,
        List.append_assoc, List.cons_append, List.append_assoc, scanElements, hscan]
      simp only [Option.bind_eq_bind, Option.bind_some]
      rw [skipBlank_cons (by decide)]
      simp only [hskip, hmore]
      rfl

/-! ### Dicts -/

/-- The text of an item of a dict. -/
def itemText (P : Floats F) (style : Style) (item : String × Value F) : List Char :=
  field style (item.1, item.2.dumps P style)

/-- The text of an item begins with the quotation mark of its key. -/
theorem begins_itemText (item : String × Value F) : Begins (itemText P style item) :=
  ⟨quotationMark, _, rfl, by decide, by decide, by decide⟩

/-- An item is read, and then what stands behind it. -/
theorem scanPairs_itemText {item : String × Value F} (h : Reads P style item.2)
    (hrest : Stops rest) (hfuel : (itemText P style item).length < fuel) :
    scanPairs P (fuel + 1) (itemText P style item ++ rest) =
      match skipBlank rest with
      | [] => none
      | c :: rest =>
          if c = '}' then some ([(item.1, item.2.arranged style)], rest)
          else if c = ',' then do
            let (pairs, rest) ← scanPairs P fuel (skipBlank rest)
            some ((item.1, item.2.arranged style) :: pairs, rest)
          else none := by
  have hlength := length_le_flatMap_escape item.1.toList
  simp only [itemText, field, quote, List.cons_append, List.append_assoc, List.length_cons,
    List.length_append, List.nil_append] at hfuel ⊢
  have hkey : ∀ rest, scanString fuel (item.1.toList.flatMap escape ++ quotationMark :: rest) =
      some (item.1.toList, rest) := fun rest => scanString_quote (by omega) rest
  have hskip := skipBlank_append style.colon_blank h.begins rest
  have hscan := h.scan rest hrest (show _ < fuel by omega)
  rw [scanPairs, expect, if_pos rfl]
  simp only [Option.bind_eq_bind, Option.bind_some]
  rw [hkey]
  simp only [Option.bind_some]
  rw [skipBlank_cons (by decide), expect, if_pos rfl]
  simp only [Option.bind_some]
  rw [hskip, hscan]
  simp only [Option.bind_some, String.ofList_toList]

/-- The loop over the items of a dict. -/
theorem scanPairs_append {item : String × Value F} (hitem : Reads P style item.2)
    (h : ∀ item ∈ items, Reads P style item.2)
    (hfuel : (commaSeparated style ((item :: items).map (itemText P style))).length + 1 < fuel)
    (rest : List Char) :
    scanPairs P fuel
        (commaSeparated style ((item :: items).map (itemText P style)) ++ '}' :: rest) =
      some ((item :: items).map (Prod.map id (Value.arranged style)), rest) := by
  induction items generalizing item fuel with
  | nil =>
      simp only [List.map_cons, List.map_nil, commaSeparated_singleton] at hfuel ⊢
      obtain ⟨fuel, rfl⟩ : ∃ k, fuel = k + 1 := ⟨fuel - 1, by omega⟩
      rw [scanPairs_itemText hitem (stops_cons (.inr (.inr rfl))) (by omega)]
      rfl
  | cons item' items ih =>
      obtain ⟨fuel, rfl⟩ : ∃ k, fuel = k + 1 := ⟨fuel - 1, by omega⟩
      have hitem' := h item' List.mem_cons_self
      have hitems := fun item hitem => h item (List.mem_cons_of_mem item' hitem)
      simp only [List.map_cons, commaSeparated_cons_cons, List.length_append,
        List.length_cons] at hfuel
      have hmore := ih hitem' hitems (show _ < fuel by simp only [List.map_cons]; omega)
      have hbegins : Begins (commaSeparated style ((item' :: items).map (itemText P style))) :=
        begins_commaSeparated (begins_itemText item') _
      have hskip := skipBlank_append style.comma_blank hbegins ('}' :: rest)
      rw [List.map_cons, List.map_cons, commaSeparated_cons_cons, ← List.map_cons,
        List.append_assoc, List.cons_append, List.append_assoc,
        scanPairs_itemText hitem (stops_cons (.inl rfl)) (by omega),
        skipBlank_cons (by decide)]
      simp only [hskip, hmore]
      rfl

/-! ### Values -/

/-- A list is read back if its elements are. The loop of the scanner consumes one text and one
comma after the other. -/
theorem reads_list (h : ∀ v ∈ values, Reads P style v) : Reads P style (.list values) where
  begins := ⟨'[', _, rfl, by decide, by decide, by decide⟩
  scan {fuel} rest hrest hfuel := by
    rw [Value.dumps, Value.elements_eq, List.length_cons, List.length_append,
      List.length_singleton] at hfuel
    obtain ⟨fuel, rfl⟩ : ∃ k, fuel = k + 1 := ⟨fuel - 1, by omega⟩
    rw [Value.dumps, Value.elements_eq, Value.arranged, Value.arrangedElements_eq,
      List.cons_append, List.append_assoc, List.singleton_append, scanValue,
      if_neg (by decide), if_neg (by decide), if_pos rfl]
    cases values with
    | nil =>
        rw [List.map_nil, commaSeparated, List.nil_append, skipBlank_cons (by decide)]
        rfl
    | cons v values =>
        have hv := h v List.mem_cons_self
        have hvalues := fun w hw => h w (List.mem_cons_of_mem v hw)
        have hbegins : Begins (commaSeparated style ((v :: values).map (Value.dumps P style))) :=
          begins_commaSeparated hv.begins _
        have hloop := scanElements_append hv hvalues (show _ < fuel by omega) rest
        rw [skipBlank_of_begins hbegins]
        obtain ⟨c, tail, htext, -, hc, -⟩ := hbegins
        rw [htext, List.cons_append] at hloop ⊢
        simp only [if_neg hc, hloop, Option.map_some]

/-- A dict is read back if its values are. Its keys are distinct, so that `dict` keeps each pair,
in the order in which it was written. -/
theorem reads_dict (keys : (items.map Prod.fst).Nodup)
    (h : ∀ item ∈ items, Reads P style item.2) : Reads P style (.dict items) where
  begins := ⟨'{', _, rfl, by decide, by decide, by decide⟩
  scan {fuel} rest hrest hfuel := by
    have htexts : (style.order (Value.fields P style items)).map (field style) =
        (style.order items).map (itemText P style) := by
      rw [Value.fields_eq, Style.order_map, List.map_map]
      rfl
    have hkeys := style.nodup_order keys
    have hitems : ∀ item ∈ style.order items, Reads P style item.2 :=
      fun item hitem => h item ((style.perm_order items).mem_iff.mp hitem)
    rw [Value.dumps, htexts, List.length_cons, List.length_append, List.length_singleton] at hfuel
    obtain ⟨fuel, rfl⟩ : ∃ k, fuel = k + 1 := ⟨fuel - 1, by omega⟩
    rw [Value.dumps, htexts, Value.arranged, Value.arrangedItems_eq, Style.order_map,
      List.cons_append, List.append_assoc, List.singleton_append, scanValue,
      if_neg (by decide), if_pos rfl]
    generalize style.order items = ordered at hkeys hitems hfuel
    cases ordered with
    | nil =>
        rw [List.map_nil, commaSeparated, List.nil_append, skipBlank_cons (by decide)]
        rfl
    | cons item ordered =>
        have hitem := hitems item List.mem_cons_self
        have hordered := fun other hother => hitems other (List.mem_cons_of_mem item hother)
        have hbegins : Begins (commaSeparated style ((item :: ordered).map (itemText P style))) :=
          begins_commaSeparated (begins_itemText item) _
        have hloop := scanPairs_append hitem hordered (show _ < fuel by omega) rest
        have hkeys' : (([] ++ (item :: ordered).map
            (Prod.map id (Value.arranged style))).map Prod.fst).Nodup := by
          rw [List.nil_append, List.map_map]
          exact hkeys
        rw [skipBlank_of_begins hbegins]
        obtain ⟨c, tail, htext, -, -, hc⟩ := hbegins
        rw [htext, List.cons_append] at hloop ⊢
        simp only [if_neg hc, hloop, Option.map_some]
        rw [dictOf_append hkeys', List.nil_append]

/-- Values are read back, whatever stands behind them. -/
theorem reads_of_distinct (P : Floats F) (style : Style) (h : v.Distinct) : Reads P style v := by
  induction v using Value.induct with
  | scalar v hscalar => exact reads_scalar hscalar
  | list values ih =>
      cases h with
      | scalar h => exact absurd h id
      | list h => exact reads_list fun v hv => ih v hv (h v hv)
  | dict items ih =>
      cases h with
      | scalar h => exact absurd h id
      | dict keys h => exact reads_dict keys fun item hitem => ih item hitem (h item hitem)

/-- **What has been written is read back**, with its items as they were written. -/
theorem loads_dumps (P : Floats F) (style : Style) (h : v.Distinct) :
    loads P (v.dumps P style) = some (v.arranged style) := by
  have hreads := reads_of_distinct P style h
  have hskip := skipBlank_of_begins hreads.begins []
  have hscan := hreads.scan [] (fun c hc => by cases hc) (Nat.lt_succ_self _)
  rw [List.append_nil] at hskip hscan
  rw [loads, hskip, hscan]
  rfl

end Scanning

end Json
