import Mathlib.Data.List.Basic

/-!
# Text, Bytes and Separators

Characters as bytes in the two codecs that web services use, and the splitting of a text at
a separator. Nothing here names a particular service.

## Main results

* `latin1_injective`, `utf8_injective`: both codecs are faithful.
* `encodeLatin1_latin1`: bytes that have been decoded as Latin-1 are encoded to themselves.
* `decodeUtf8_eq_some_iff`: which bytes are the UTF-8 encoding of a text.
* `exists_of_mem_utf8`: an ASCII byte in a UTF-8 text is an ASCII character of it.
* `exists_of_utf8_append`: UTF-8 is a prefix code.
* `append_cons_eq_iff`, `append_cons_inj`: in how many ways a separator splits a text.
* `replace_append_cons`: a replacement that cannot reach across a separator is made on either
  side of it.

`Storable` says which texts a column of a database can hold.
-/

namespace Text

/-- A column of type `VARCHAR(n)` holds the text: it is of at most `n` characters, none of which is
NUL. -/
def Storable (n : ℕ) (s : String) : Prop := s.length ≤ n ∧ '\x00' ∉ s.toList

instance (n : ℕ) (s : String) : Decidable (Storable n s) := inferInstanceAs (Decidable (_ ∧ _))

/-- `bytes.decode("latin-1")`. -/
def latin1 (raw : List UInt8) : String := String.ofList (raw.map Char.ofUInt8)

/-- `str.encode("utf-8")`, and on ASCII text `str.encode("ascii")`. -/
def utf8 (s : String) : List UInt8 := s.toList.flatMap String.utf8EncodeChar

/-- A header value can be read back from its text. -/
theorem latin1_injective : Function.Injective latin1 := by
  have hchar : Function.Injective Char.ofUInt8 := by
    intro a b h
    exact UInt8.toUInt32_inj.mp (congrArg Char.val h)
  intro a b h
  exact hchar.list_map (String.ofList_injective h)

/-- `str.encode("latin-1")`, which fails beyond the first 256 characters. -/
def encodeLatin1 (s : String) : Option (List UInt8) :=
  s.toList.mapM fun c => if c.toNat < 256 then some (UInt8.ofNat c.toNat) else none

/-- Every byte string survives Latin-1. -/
theorem encodeLatin1_latin1 (raw : List UInt8) : encodeLatin1 (latin1 raw) = some raw := by
  rw [encodeLatin1, latin1, String.toList_ofList]
  induction raw with
  | nil => rfl
  | cons b raw ih =>
      have hlt : (Char.ofUInt8 b).toNat < 256 := b.toNat_lt
      have hb : UInt8.ofNat (Char.ofUInt8 b).toNat = b := UInt8.ofNat_toNat
      simp [List.mapM_cons, hlt, hb, ih]

/-- Text can be read back from its UTF-8 encoding. -/
theorem utf8_injective : Function.Injective utf8 := by
  intro s t h
  have hlist : s.toList.utf8Encode = t.toList.utf8Encode := by
    rw [List.utf8Encode, List.utf8Encode]
    exact congrArg List.toByteArray h
  rw [← String.toByteArray_ofList, ← String.toByteArray_ofList, String.ofList_toList,
    String.ofList_toList] at hlist
  exact String.toByteArray_inj.mp hlist

/-- Texts are encoded one after the other. -/
theorem utf8_append (s t : String) : utf8 (s ++ t) = utf8 s ++ utf8 t := by
  rw [utf8, String.toList_append, List.flatMap_append, utf8, utf8]

/-- A text whose encoding begins with that of another text begins with that text. -/
theorem exists_of_utf8_append {s t : String} {raw : List UInt8} (h : utf8 s ++ raw = utf8 t) :
    ∃ u, t = s ++ u ∧ raw = utf8 u := by
  have hbytes : s.toList.utf8Encode ++ raw.toByteArray = t.toList.utf8Encode := by
    rw [List.utf8Encode, List.utf8Encode, ← List.toByteArray_append]
    exact congrArg List.toByteArray h
  obtain ⟨rest, hrest⟩ := List.isPrefix_of_utf8Encode_append_eq_utf8Encode _ hbytes
  have ht : t = s ++ String.ofList rest := by
    rw [← String.toList_inj, String.toList_append, String.toList_ofList, hrest]
  refine ⟨String.ofList rest, ht, ?_⟩
  rw [ht, utf8_append] at h
  exact List.append_cancel_left h

/-- The bytes of a character beyond ASCII have their high bit set. -/
theorem toNat_eq_of_mem_utf8EncodeChar {c : Char} {b : UInt8} (hb : b.toNat < 128)
    (h : b ∈ String.utf8EncodeChar c) : c.toNat = b.toNat := by
  have hc : c.val.toNat = c.toNat := rfl
  rw [String.utf8EncodeChar, hc] at h
  split at h
  · obtain rfl := List.mem_singleton.mp h
    rw [UInt8.toNat_ofNat']
    omega
  · exfalso
    split at h
    · simp only [List.mem_cons, List.not_mem_nil, or_false] at h
      rcases h with rfl | rfl <;> rw [UInt8.toNat_ofNat'] at hb <;> omega
    · split at h
      · simp only [List.mem_cons, List.not_mem_nil, or_false] at h
        rcases h with rfl | rfl | rfl <;> rw [UInt8.toNat_ofNat'] at hb <;> omega
      · simp only [List.mem_cons, List.not_mem_nil, or_false] at h
        rcases h with rfl | rfl | rfl | rfl <;> rw [UInt8.toNat_ofNat'] at hb <;> omega

/-- An ASCII byte in an encoding is a character of the text. -/
theorem exists_of_mem_utf8 {s : String} {b : UInt8} (hb : b.toNat < 128) (h : b ∈ utf8 s) :
    ∃ c ∈ s.toList, c.toNat = b.toNat := by
  obtain ⟨c, hc, hbc⟩ := List.mem_flatMap.mp h
  exact ⟨c, hc, toNat_eq_of_mem_utf8EncodeChar hb hbc⟩

/-- `bytes.decode("utf-8")`; `none` is a `UnicodeDecodeError`. -/
def decodeUtf8 (raw : List UInt8) : Option String := String.fromUTF8? raw.toByteArray

/-- A list of bytes is known by the array. -/
theorem toByteArray_injective : Function.Injective List.toByteArray := by
  intro raw raw' h
  have hdata := congrArg (fun b : ByteArray => b.data.toList) h
  simpa using hdata

/-- The bytes of a text are those that Lean stores it as. -/
theorem toByteArray_utf8 (s : String) : (utf8 s).toByteArray = s.toByteArray := by
  rw [← String.utf8Encode_toList]
  rfl

/-- **Decoding undoes encoding**, and fails on everything else. -/
theorem decodeUtf8_eq_some_iff {raw : List UInt8} {s : String} :
    decodeUtf8 raw = some s ↔ utf8 s = raw := by
  rw [decodeUtf8, String.fromUTF8?]
  constructor
  · intro h
    split at h
    · apply toByteArray_injective
      rw [toByteArray_utf8, ← Option.some.inj h]
      rfl
    · cases h
  · rintro rfl
    have hvalid : (utf8 s).toByteArray.IsValidUTF8 := ⟨s.toList, rfl⟩
    rw [dif_pos hvalid, Option.some.injEq, ← String.toByteArray_inj]
    exact toByteArray_utf8 s

/-! ### Separators -/

/-- Two ways to split a text at a separator: they are the same, or one of them splits it further
behind, at a separator that the other one has in its second part. -/
theorem append_cons_eq_iff {α : Type*} {sep : α} {x y z w : List α} :
    x ++ sep :: z = y ++ sep :: w ↔ x = y ∧ z = w ∨
      (∃ m, y = x ++ sep :: m ∧ z = m ++ sep :: w) ∨
        ∃ m, x = y ++ sep :: m ∧ w = m ++ sep :: z := by
  constructor
  · intro h
    rcases List.append_eq_append_iff.mp h with ⟨m, rfl, hm⟩ | ⟨m, rfl, hm⟩
    · rcases List.cons_eq_append_iff.mp hm with ⟨rfl, hw⟩ | ⟨m, rfl, rfl⟩
      · exact .inl ⟨(List.append_nil x).symm, (List.cons.inj hw).2.symm⟩
      · exact .inr (.inl ⟨m, rfl, rfl⟩)
    · rcases List.cons_eq_append_iff.mp hm with ⟨rfl, hz⟩ | ⟨m, rfl, rfl⟩
      · exact .inl ⟨List.append_nil y, (List.cons.inj hz).2⟩
      · exact .inr (.inr ⟨m, rfl, rfl⟩)
  · rintro (⟨rfl, rfl⟩ | ⟨m, rfl, rfl⟩ | ⟨m, rfl, rfl⟩)
    · rfl
    · rw [List.append_assoc, List.cons_append]
    · rw [List.append_assoc, List.cons_append]

/-- A separator that occurs in neither of two prefixes splits both texts in one way. -/
theorem append_cons_inj {α : Type*} {sep : α} {x y z w : List α} (hx : sep ∉ x) (hy : sep ∉ y)
    (h : x ++ sep :: z = y ++ sep :: w) : x = y ∧ z = w := by
  rcases append_cons_eq_iff.mp h with heq | ⟨m, rfl, -⟩ | ⟨m, rfl, -⟩
  · exact heq
  · exact absurd List.mem_append_cons_self hy
  · exact absurd List.mem_append_cons_self hx

/-! ### Replacement -/

variable {α : Type*} [DecidableEq α] {old new text x y : List α} {sep : α}

/-- The replacements from the left, after `skip` more elements of an occurrence. -/
def replaceFrom (old new : List α) : ℕ → List α → List α
  | _, [] => []
  | skip + 1, _ :: rest => replaceFrom old new skip rest
  | 0, a :: rest =>
      if old.isPrefixOf (a :: rest) then new ++ replaceFrom old new (old.length - 1) rest
      else a :: replaceFrom old new 0 rest

/-- `str.replace`: every occurrence of `old`, from the left and without overlap; an empty `old`
occurs around every element. -/
def replace (old new text : List α) : List α :=
  if old = [] then new ++ text.flatMap fun a => a :: new else replaceFrom old new 0 text

/-- A text without an occurrence. -/
theorem replace_of_not_infix (hne : old ≠ []) (h : ¬ old <:+: text) :
    replace old new text = text := by
  rw [replace, if_neg hne]
  induction text with
  | nil => rfl
  | cons a rest ih =>
      have hhead : old.isPrefixOf (a :: rest) = false :=
        Bool.eq_false_iff.mpr fun hp => h (List.isPrefixOf_iff_prefix.mp hp).isInfix
      rw [replaceFrom, hhead, if_neg Bool.false_ne_true,
        ih fun hin => h (hin.trans (List.suffix_cons a rest).isInfix)]

/-- When everything is skipped, nothing is left. -/
theorem replaceFrom_all (old new : List α) : ∀ text, replaceFrom old new text.length text = []
  | [] => rfl
  | _ :: rest => replaceFrom_all old new rest

/-- A text that is the occurrence. -/
theorem replace_self (hne : old ≠ []) : replace old new old = new := by
  rw [replace, if_neg hne]
  obtain ⟨a, rest, rfl⟩ := List.exists_cons_of_ne_nil hne
  have hhead : (a :: rest).isPrefixOf (a :: rest) = true :=
    List.isPrefixOf_iff_prefix.mpr List.prefix_rfl
  rw [replaceFrom, if_pos hhead, List.length_cons, Nat.add_sub_cancel, replaceFrom_all,
    List.append_nil]

/-- A text with an occurrence has one of the replacement afterwards. -/
theorem infix_replace (hne : old ≠ []) (h : old <:+: text) : new <:+: replace old new text := by
  rw [replace, if_neg hne]
  induction text with
  | nil => exact absurd (List.infix_nil.mp h) hne
  | cons a rest ih =>
      rw [replaceFrom]
      split
      · exact (List.prefix_append _ _).isInfix
      · rename_i hhead
        rcases List.infix_cons_iff.mp h with hprefix | hrest
        · exact absurd (List.isPrefixOf_iff_prefix.mpr hprefix) hhead
        · exact (ih hrest).trans (List.suffix_cons a _).isInfix

/-- A replacement brings in no element but those of the new text. -/
theorem mem_of_mem_replaceFrom {a : α} {skip : ℕ} (h : a ∈ replaceFrom old new skip text) :
    a ∈ new ∨ a ∈ text := by
  induction text generalizing skip with
  | nil => exact absurd h (by simp [replaceFrom])
  | cons b rest ih =>
      cases skip with
      | succ skip => exact (ih h).imp_right (List.mem_cons_of_mem b)
      | zero =>
          rw [replaceFrom] at h
          split at h
          · rcases List.mem_append.mp h with h | h
            · exact .inl h
            · exact (ih h).imp_right (List.mem_cons_of_mem b)
          · rcases List.mem_cons.mp h with rfl | h
            · exact .inr List.mem_cons_self
            · exact (ih h).imp_right (List.mem_cons_of_mem b)

/-- The elements of a text after a replacement. -/
theorem mem_of_mem_replace {a : α} (hne : old ≠ []) (h : a ∈ replace old new text) :
    a ∈ new ∨ a ∈ text := by
  rw [replace, if_neg hne] at h
  exact mem_of_mem_replaceFrom h

/-- An occurrence at the front of a text ends before the first separator. -/
theorem isPrefixOf_append_cons (hsep : sep ∉ old) :
    old.isPrefixOf (x ++ sep :: y) = old.isPrefixOf x := by
  induction old generalizing x with
  | nil => simp
  | cons a old ih =>
      cases x with
      | nil =>
          have hne : (a == sep) = false :=
            beq_eq_false_iff_ne.mpr fun h => hsep (h ▸ List.mem_cons_self)
          rw [List.nil_append, List.isPrefixOf_cons_cons, hne]
          rfl
      | cons b x =>
          rw [List.cons_append, List.isPrefixOf_cons_cons, List.isPrefixOf_cons_cons,
            ih fun hmem => hsep (List.mem_cons_of_mem _ hmem)]

/-- A replacement stops at an element that the old text does not contain, and begins anew behind
it. -/
theorem replaceFrom_append_cons (hne : old ≠ []) (hsep : sep ∉ old) {skip : ℕ}
    (hskip : skip ≤ x.length) :
    replaceFrom old new skip (x ++ sep :: y) =
      replaceFrom old new skip x ++ sep :: replaceFrom old new 0 y := by
  induction x generalizing skip with
  | nil =>
      obtain rfl : skip = 0 := Nat.le_zero.mp hskip
      have hnil : old.isPrefixOf (sep :: y) = false := by
        rw [← List.nil_append (sep :: y), isPrefixOf_append_cons hsep]
        obtain ⟨a, rest, rfl⟩ := List.exists_cons_of_ne_nil hne
        rfl
      rw [List.nil_append, replaceFrom, replaceFrom, hnil]
      rfl
  | cons a x ih =>
      cases skip with
      | succ skip => exact ih (Nat.le_of_succ_le_succ hskip)
      | zero =>
          rw [List.cons_append, replaceFrom, replaceFrom, ← List.cons_append,
            isPrefixOf_append_cons hsep]
          split
          · rename_i hfound
            have hlen := (List.isPrefixOf_iff_prefix.mp hfound).length_le
            rw [ih (by rw [List.length_cons] at hlen; omega), List.append_assoc]
          · rw [ih (Nat.zero_le _), List.cons_append]

/-- **Separators.** An occurrence that has no separator lies on one side of it. -/
theorem replace_append_cons (hne : old ≠ []) (hsep : sep ∉ old) :
    replace old new (x ++ sep :: y) = replace old new x ++ sep :: replace old new y := by
  simp only [replace, if_neg hne]
  exact replaceFrom_append_cons hne hsep (Nat.zero_le _)

end Text
