import Mathlib.Data.Int.Notation
import Mathlib.Data.List.Basic

/-!
# JSON Literals in Python

Strings and numbers as `json.dumps` writes them, and the scanners of `json.loads` that read them.
`ensure_ascii` leaves no character beyond ASCII in a text: such a character is escaped, as a pair
of surrogates if it has more than 16 bits. Nothing here names a particular program.

A `str` is a list of Unicode scalar values, so that the escape of a lone surrogate is read as an
error. An `int` is one that Python converts from and to text, that is, of 4300 digits at most.
What a float is stays open.

The scanners are greedy: a number ends where no further character can belong to it. That a
number is read back in front of any text therefore needs to know that the text does not begin
with such a character, which is the hypothesis of the lemmas about numbers; behind a string
there is no such condition, because a string ends with its own quotation mark.

## Main results

* `scanString_quote`: a string that has been written is read back.
* `scanLiteral_append`, `intValue_intText`: so is a number.
* `isPrintable_of_mem_escape`: which characters a string is written with.
-/

namespace Json

/-! ### Strings -/

/-- The character `"`. -/
def quotationMark : Char := Char.ofNat 0x22

/-- The character `\`. -/
def backslash : Char := Char.ofNat 0x5c

/-- `ESCAPE_DCT`, with the letters behind the backslash. -/
def escapeDict : List (Char × Char) :=
  [(backslash, backslash), (quotationMark, quotationMark), (Char.ofNat 8, 'b'),
    (Char.ofNat 12, 'f'), (Char.ofNat 10, 'n'), (Char.ofNat 13, 'r'), (Char.ofNat 9, 't')]

/-- `BACKSLASH`: what a letter behind a backslash stands for. -/
def backslashDict : List (Char × Char) :=
  [(quotationMark, quotationMark), (backslash, backslash), ('/', '/'), ('b', Char.ofNat 8),
    ('f', Char.ofNat 12), ('n', Char.ofNat 10), ('r', Char.ofNat 13), ('t', Char.ofNat 9)]

/-- Four hexadecimal digits. -/
def hex4 (n : ℕ) : List Char :=
  [n / 4096 % 16, n / 256 % 16, n / 16 % 16, n % 16].map Nat.digitChar

/-- The escape of a code unit. -/
def unitEscape (n : ℕ) : List Char := backslash :: 'u' :: hex4 n

/-- `py_encode_basestring_ascii`, for one character. -/
def escape (c : Char) : List Char :=
  match escapeDict.lookup c with
  | some letter => [backslash, letter]
  | none =>
      if 0x20 ≤ c.toNat ∧ c.toNat ≤ 0x7e then [c]
      else if c.toNat < 0x10000 then unitEscape c.toNat
      else
        -- surrogate pair
        let n := c.toNat - 0x10000
        unitEscape (0xd800 + n / 0x400) ++ unitEscape (0xdc00 + n % 0x400)

/-- A string literal. -/
def quote (s : List Char) : List Char := quotationMark :: (s.flatMap escape ++ [quotationMark])

/-- The value of a hexadecimal digit. -/
def hexDigit (c : Char) : Option ℕ :=
  if '0' ≤ c ∧ c ≤ '9' then some (c.toNat - 48)
  else if 'a' ≤ c ∧ c ≤ 'f' then some (c.toNat - 87)
  else if 'A' ≤ c ∧ c ≤ 'F' then some (c.toNat - 55)
  else none

/-- `_decode_uXXXX`: the code unit, and the text behind it. -/
def scanHex4 : List Char → Option (ℕ × List Char)
  | a :: b :: c :: d :: rest => do
      let a ← hexDigit a
      let b ← hexDigit b
      let c ← hexDigit c
      let d ← hexDigit d
      some (4096 * a + 256 * b + 16 * c + d, rest)
  | _ => none

/-- The second half of a surrogate pair. -/
def scanLow (high : ℕ) : List Char → Option (Char × List Char)
  | b :: u :: rest =>
      if b = backslash ∧ u = 'u' then do
        let (low, rest) ← scanHex4 rest
        if 0xdc00 ≤ low ∧ low ≤ 0xdfff then
          some (Char.ofNat (0x10000 + ((high - 0xd800) * 0x400 + (low - 0xdc00))), rest)
        else none
      else none
  | _ => none

/-- The character of an escaped code unit, or of two. -/
def scanUnit (text : List Char) : Option (Char × List Char) := do
  let (unit, rest) ← scanHex4 text
  if 0xd800 ≤ unit ∧ unit ≤ 0xdbff then scanLow unit rest
  else if 0xdc00 ≤ unit ∧ unit ≤ 0xdfff then none
  else some (Char.ofNat unit, rest)

/-- One character of a string literal, plain or escaped. -/
def scanChar : List Char → Option (Char × List Char)
  | [] => none
  | c :: rest =>
      if c = backslash then
        match rest with
        | [] => none
        | letter :: rest =>
            if letter = 'u' then scanUnit rest
            else (backslashDict.lookup letter).map fun c => (c, rest)
      else if c.toNat < 0x20 then none
      else some (c, rest)

/-- `py_scanstring`, for a literal of less than `fuel` characters: its characters, and the text
behind it. -/
def scanString : ℕ → List Char → Option (List Char × List Char)
  | 0, _ | _ + 1, [] => none
  | fuel + 1, c :: rest =>
      if c = quotationMark then some ([], rest)
      else do
        let (c, rest) ← scanChar (c :: rest)
        let (s, rest) ← scanString fuel rest
        some (c :: s, rest)

variable {c : Char} {s rest : List Char} {n fuel : ℕ}

/-- A digit is read as what was written. -/
theorem hexDigit_digitChar (h : n < 16) : hexDigit (Nat.digitChar n) = some n := by
  have hall : ∀ i : Fin 16, hexDigit (Nat.digitChar i) = some (i : ℕ) := by
    decide
  exact hall ⟨n, h⟩

/-- Four digits are read as the number that they were written for. -/
theorem scanHex4_hex4 (h : n < 0x10000) (rest : List Char) :
    scanHex4 (hex4 n ++ rest) = some (n, rest) := by
  have hdigit : ∀ m, hexDigit (Nat.digitChar (m % 16)) = some (m % 16) :=
    fun m => hexDigit_digitChar (Nat.mod_lt m (by decide))
  have hvalue :
      4096 * (n / 4096 % 16) + 256 * (n / 256 % 16) + 16 * (n / 16 % 16) + n % 16 = n := by
    omega
  simp only [hex4, List.map_cons, List.map_nil, List.cons_append, List.nil_append, scanHex4,
    hdigit, Option.bind_eq_bind, Option.bind_some, hvalue]

/-- The code of a character is no surrogate. -/
theorem toNat_cases (c : Char) :
    c.toNat < 0xd800 ∨ 0xe000 ≤ c.toNat ∧ c.toNat < 0x110000 := by
  rcases c.valid with h | ⟨hlow, hhigh⟩
  · exact .inl h
  · exact .inr ⟨hlow, hhigh⟩

/-- The escape of a character with at most 16 bits is read as that character: it is no surrogate.
-/
theorem scanUnit_hex4 (hlt : c.toNat < 0x10000) (rest : List Char) :
    scanUnit (hex4 c.toNat ++ rest) = some (c, rest) := by
  have hvalid := toNat_cases c
  rw [scanUnit, scanHex4_hex4 hlt]
  simp only [Option.bind_eq_bind, Option.bind_some]
  rw [if_neg (by omega), if_neg (by omega), Char.ofNat_toNat]

/-- Two halves are put together to the character that they encode. -/
theorem scanUnit_pair {high low : ℕ} (hhigh : 0xd800 ≤ high ∧ high ≤ 0xdbff)
    (hlow : 0xdc00 ≤ low ∧ low ≤ 0xdfff)
    (hcode : 0x10000 + ((high - 0xd800) * 0x400 + (low - 0xdc00)) = c.toNat)
    (rest : List Char) :
    scanUnit (hex4 high ++ (unitEscape low ++ rest)) = some (c, rest) := by
  have hhigh' : high < 0x10000 := by
    omega
  have hlow' : low < 0x10000 := by
    omega
  rw [scanUnit, scanHex4_hex4 hhigh']
  simp only [Option.bind_eq_bind, Option.bind_some]
  rw [if_pos hhigh, unitEscape, List.cons_append, List.cons_append, scanLow,
    if_pos ⟨rfl, rfl⟩, scanHex4_hex4 hlow']
  simp only [Option.bind_eq_bind, Option.bind_some]
  rw [if_pos hlow, hcode, Char.ofNat_toNat]

/-- What has a short escape is read back from it. -/
theorem scanChar_short {letter : Char} (h : escapeDict.lookup c = some letter)
    (rest : List Char) : scanChar (backslash :: letter :: rest) = some (c, rest) := by
  obtain ⟨before, after, hdict, -⟩ := List.lookup_eq_some_iff.mp h
  have hmem : (c, letter) ∈ escapeDict := by
    rw [hdict]
    exact List.mem_append_right _ List.mem_cons_self
  simp only [escapeDict, List.mem_cons, Prod.mk.injEq, List.not_mem_nil, or_false] at hmem
  rcases hmem with ⟨rfl, rfl⟩ | ⟨rfl, rfl⟩ | ⟨rfl, rfl⟩ | ⟨rfl, rfl⟩ | ⟨rfl, rfl⟩ |
    ⟨rfl, rfl⟩ | ⟨rfl, rfl⟩ <;> rfl

/-- **A character** is read back from its escape. -/
theorem scanChar_escape (c : Char) (rest : List Char) :
    scanChar (escape c ++ rest) = some (c, rest) := by
  rw [escape]
  cases hshort : escapeDict.lookup c with
  | some letter => exact scanChar_short hshort rest
  | none =>
      have hne : c ≠ backslash := by
        rintro rfl
        cases hshort
      by_cases hplain : 0x20 ≤ c.toNat ∧ c.toNat ≤ 0x7e
      · simp only [if_pos hplain, List.cons_append, List.nil_append, scanChar, if_neg hne]
        rw [if_neg (by omega)]
      · by_cases hlt : c.toNat < 0x10000
        · simp only [if_neg hplain, if_pos hlt, unitEscape, List.cons_append, scanChar, if_true]
          exact scanUnit_hex4 hlt rest
        · have hvalid := toNat_cases c
          simp only [if_neg hplain, if_neg hlt, List.append_assoc]
          exact scanUnit_pair (by omega) (by omega) (by omega) rest

/-- No escape begins with a quotation mark. -/
theorem exists_escape_eq_cons (c : Char) :
    ∃ c' rest, escape c = c' :: rest ∧ c' ≠ quotationMark := by
  rw [escape]
  cases hshort : escapeDict.lookup c with
  | some letter => exact ⟨backslash, [letter], rfl, by decide⟩
  | none =>
      have hne : c ≠ quotationMark := by
        rintro rfl
        cases hshort
      by_cases hplain : 0x20 ≤ c.toNat ∧ c.toNat ≤ 0x7e
      · simp only [if_pos hplain]
        exact ⟨c, [], rfl, hne⟩
      · by_cases hlt : c.toNat < 0x10000
        · simp only [if_neg hplain, if_pos hlt]
          exact ⟨backslash, _, rfl, by decide⟩
        · simp only [if_neg hplain, if_neg hlt]
          exact ⟨backslash, _, rfl, by decide⟩

/-- **A string** is read back from its literal. -/
theorem scanString_quote (hfuel : s.length < fuel) (rest : List Char) :
    scanString fuel (s.flatMap escape ++ quotationMark :: rest) = some (s, rest) := by
  induction s generalizing fuel with
  | nil =>
      obtain ⟨fuel, rfl⟩ : ∃ k, fuel = k + 1 := ⟨fuel - 1, by simp at hfuel; omega⟩
      rw [List.flatMap_nil, List.nil_append, scanString, if_pos rfl]
  | cons c s ih =>
      obtain ⟨fuel, rfl⟩ : ∃ k, fuel = k + 1 := ⟨fuel - 1, by simp at hfuel; omega⟩
      obtain ⟨c', tail, hescape, hne⟩ := exists_escape_eq_cons c
      have hchar := scanChar_escape c (s.flatMap escape ++ quotationMark :: rest)
      rw [List.flatMap_cons, List.append_assoc, hescape, List.cons_append, scanString, if_neg hne]
      rw [hescape, List.cons_append] at hchar
      rw [hchar]
      simp only [Option.bind_eq_bind, Option.bind_some]
      rw [ih (by simpa using hfuel)]
      rfl

/-- A text does not become shorter by being escaped. -/
theorem length_le_flatMap_escape (s : List Char) : s.length ≤ (s.flatMap escape).length := by
  induction s with
  | nil => exact Nat.le_refl _
  | cons c s ih =>
      obtain ⟨c', tail, hescape, -⟩ := exists_escape_eq_cons c
      rw [List.flatMap_cons, hescape, List.length_append, List.length_cons, List.length_cons]
      omega

/-- A printable ASCII character. -/
def isPrintable (c : Char) : Bool := 0x20 ≤ c.toNat ∧ c.toNat ≤ 0x7e

/-- Digits are printable. -/
theorem isPrintable_hex4 (n : ℕ) : ∀ c ∈ hex4 n, isPrintable c = true := by
  have hdigit : ∀ i : Fin 16, isPrintable (Nat.digitChar i) = true := by
    decide
  intro c hc
  obtain ⟨i, hi, rfl⟩ := List.mem_map.mp hc
  have hlt : i < 16 := by
    simp only [List.mem_cons, List.not_mem_nil, or_false] at hi
    omega
  exact hdigit ⟨i, hlt⟩

/-- And so is an escape. -/
theorem isPrintable_unitEscape (n : ℕ) : ∀ c ∈ unitEscape n, isPrintable c = true := by
  intro c hc
  rw [unitEscape, List.mem_cons, List.mem_cons] at hc
  rcases hc with rfl | rfl | hc
  · rfl
  · rfl
  · exact isPrintable_hex4 n c hc

/-- **`ensure_ascii`**: an escape is made of printable ASCII characters. -/
theorem isPrintable_of_mem_escape {c' : Char} (h : c' ∈ escape c) : isPrintable c' = true := by
  rw [escape] at h
  cases hshort : escapeDict.lookup c with
  | some letter =>
      have hletters : ∀ p ∈ escapeDict, isPrintable p.2 = true := by
        decide
      obtain ⟨before, after, hdict, -⟩ := List.lookup_eq_some_iff.mp hshort
      rw [hshort] at h
      rcases List.mem_cons.mp h with rfl | h
      · rfl
      · rw [List.mem_singleton.mp h]
        refine hletters (c, letter) ?_
        rw [hdict]
        exact List.mem_append_right _ List.mem_cons_self
  | none =>
      simp only [hshort] at h
      split at h
      · rename_i hplain
        rw [List.mem_singleton.mp h]
        simpa [isPrintable] using hplain
      · split at h
        · exact isPrintable_unitEscape _ _ h
        · rcases List.mem_append.mp h with h | h
          · exact isPrintable_unitEscape _ _ h
          · exact isPrintable_unitEscape _ _ h

/-! ### Numbers -/

/-- The groups of `NUMBER_RE`, which may be empty but for the first. -/
structure Literal where
  integer : List Char
  frac : List Char
  exp : List Char
deriving DecidableEq

/-- `0|[1-9]\d*`. -/
def scanUnsigned : List Char → Option (List Char × List Char)
  | [] => none
  | c :: rest =>
      if c = '0' then some (['0'], rest)
      else if c.isDigit then
        some ((c :: rest).takeWhile Char.isDigit, (c :: rest).dropWhile Char.isDigit)
      else none

/-- `-?(?:0|[1-9]\d*)`. -/
def scanInteger (text : List Char) : Option (List Char × List Char) :=
  if text.head? = some '-' then
    (scanUnsigned text.tail).map fun (digits, rest) => ('-' :: digits, rest)
  else scanUnsigned text

/-- `(\.\d+)?`. -/
def scanFrac : List Char → List Char × List Char
  | [] => ([], [])
  | c :: rest =>
      if c = '.' ∧ rest.takeWhile Char.isDigit ≠ [] then
        (c :: rest.takeWhile Char.isDigit, rest.dropWhile Char.isDigit)
      else ([], c :: rest)

/-- `[-+]?`. -/
def scanSign : List Char → List Char × List Char
  | [] => ([], [])
  | c :: rest => if c = '-' ∨ c = '+' then ([c], rest) else ([], c :: rest)

/-- `([eE][-+]?\d+)?`. -/
def scanExp : List Char → List Char × List Char
  | [] => ([], [])
  | c :: rest =>
      let (sign, digits) := scanSign rest
      if (c = 'e' ∨ c = 'E') ∧ digits.takeWhile Char.isDigit ≠ [] then
        (c :: (sign ++ digits.takeWhile Char.isDigit), digits.dropWhile Char.isDigit)
      else ([], c :: rest)

/-- A match of `NUMBER_RE`, and the text behind it. -/
def scanLiteral (text : List Char) : Option (Literal × List Char) := do
  let (integer, text) ← scanInteger text
  let (frac, text) := scanFrac text
  let (exp, text) := scanExp text
  some (⟨integer, frac, exp⟩, text)

/-- `int.__repr__`. -/
def intText : ℤ → List Char
  | .ofNat n => Nat.toDigits 10 n
  | .negSucc n => '-' :: Nat.toDigits 10 (n + 1)

/-- `int`, of a text that the scanner has found. -/
def intValue (text : List Char) : ℤ :=
  if text.head? = some '-' then -(Nat.ofDigitChars 10 text.tail 0 : ℤ)
  else (Nat.ofDigitChars 10 text 0 : ℤ)

/-- Digits, at least one. -/
def IsDigits (text : List Char) : Prop := text ≠ [] ∧ ∀ c ∈ text, c.isDigit = true

/-- What `scanInteger` matches. -/
inductive IsInteger : List Char → Prop
  | unsigned {digits : List Char} (h : IsDigits digits)
      (canonical : digits = ['0'] ∨ digits.head? ≠ some '0') : IsInteger digits
  | signed {digits : List Char} (h : IsDigits digits)
      (canonical : digits = ['0'] ∨ digits.head? ≠ some '0') : IsInteger ('-' :: digits)

/-- What `scanFrac` matches. -/
inductive IsFrac : List Char → Prop
  | nil : IsFrac []
  | cons {digits : List Char} (h : IsDigits digits) : IsFrac ('.' :: digits)

/-- What `scanExp` matches. -/
inductive IsExp : List Char → Prop
  | nil : IsExp []
  | cons {c : Char} {sign digits : List Char} (hc : c = 'e' ∨ c = 'E')
      (hsign : sign = [] ∨ sign = ['-'] ∨ sign = ['+']) (h : IsDigits digits) :
      IsExp (c :: (sign ++ digits))

/-- The groups of a literal match the pattern. -/
structure Literal.Matches (literal : Literal) : Prop where
  integer : IsInteger literal.integer
  frac : IsFrac literal.frac
  exp : IsExp literal.exp

/-- The text of a literal. -/
def Literal.text (literal : Literal) : List Char :=
  literal.integer ++ (literal.frac ++ literal.exp)

/-- No number goes on with this text. -/
def Stops (rest : List Char) : Prop :=
  ∀ c, rest.head? = some c → c.isDigit = false ∧ c ≠ '.' ∧ c ≠ 'e' ∧ c ≠ 'E'

variable {digits text : List Char} {literal : Literal}

/-- A run of digits ends where the digits end. -/
theorem takeWhile_digits (h : IsDigits digits)
    (hrest : ∀ c, rest.head? = some c → c.isDigit = false) :
    (digits ++ rest).takeWhile Char.isDigit = digits ∧
      (digits ++ rest).dropWhile Char.isDigit = rest := by
  rw [List.takeWhile_append_of_pos h.2, List.dropWhile_append_of_pos h.2]
  cases rest with
  | nil => simp
  | cons c rest =>
      have hc := hrest c rfl
      simp [hc]

/-- A text of digits begins with one. -/
theorem exists_of_isDigits (h : IsDigits digits) :
    ∃ c rest, digits = c :: rest ∧ c.isDigit = true := by
  obtain ⟨hne, hall⟩ := h
  obtain ⟨c, rest, rfl⟩ := List.exists_cons_of_ne_nil hne
  exact ⟨c, rest, rfl, hall c List.mem_cons_self⟩

/-- A digit is no character that has a meaning of its own in a number. -/
theorem isDigit_ne {c : Char} (h : c.isDigit = true) : c ∉ ['-', '+', '.', 'e', 'E'] := by
  intro hmem
  simp only [List.mem_cons, List.not_mem_nil, or_false] at hmem
  rcases hmem with rfl | rfl | rfl | rfl | rfl <;> cases h

/-- An unsigned integer is matched to its end. -/
theorem scanUnsigned_append (h : IsDigits digits)
    (canonical : digits = ['0'] ∨ digits.head? ≠ some '0')
    (hrest : ∀ c, rest.head? = some c → c.isDigit = false) :
    scanUnsigned (digits ++ rest) = some (digits, rest) := by
  obtain ⟨htake, hdrop⟩ := takeWhile_digits h hrest
  obtain ⟨c, tail, rfl, hc⟩ := exists_of_isDigits h
  rw [List.cons_append] at htake hdrop ⊢
  rw [scanUnsigned, htake, hdrop]
  by_cases hzero : c = '0'
  · subst hzero
    rcases canonical with hone | hhead
    · obtain rfl := (List.cons.inj hone).2
      rfl
    · exact absurd rfl hhead
  · rw [if_neg hzero, if_pos hc]

/-- Digits do not begin with a sign. -/
theorem head_digits_ne (h : IsDigits digits) (rest : List Char) :
    (digits ++ rest).head? ≠ some '-' := by
  obtain ⟨c, tail, rfl, hc⟩ := exists_of_isDigits h
  intro hminus
  obtain rfl := Option.some.inj hminus
  cases hc

/-- The integer part ends where no digit follows. -/
theorem scanInteger_append (h : IsInteger text)
    (hrest : ∀ c, rest.head? = some c → c.isDigit = false) :
    scanInteger (text ++ rest) = some (text, rest) := by
  cases h with
  | unsigned h canonical =>
      rw [scanInteger, if_neg (head_digits_ne h _), scanUnsigned_append h canonical hrest]
  | signed h canonical =>
      rw [scanInteger, List.cons_append, List.head?_cons, if_pos rfl, List.tail_cons,
        scanUnsigned_append h canonical hrest]
      rfl

/-- The fraction ends where no digit follows; if there is none, no point follows. -/
theorem scanFrac_append (h : IsFrac text)
    (hrest : ∀ c, rest.head? = some c → c.isDigit = false ∧ c ≠ '.') :
    scanFrac (text ++ rest) = (text, rest) := by
  cases h with
  | nil =>
      cases rest with
      | nil => rfl
      | cons c rest =>
          rw [List.nil_append, scanFrac, if_neg]
          exact fun hc => (hrest c rfl).2 hc.1
  | cons h =>
      obtain ⟨htake, hdrop⟩ := takeWhile_digits h fun c hc => (hrest c hc).1
      rw [List.cons_append, scanFrac, htake, hdrop, if_pos ⟨rfl, h.1⟩]

/-- The sign of an exponent is read before its digits. -/
theorem scanSign_append {sign : List Char} (hsign : sign = [] ∨ sign = ['-'] ∨ sign = ['+'])
    (h : IsDigits digits) : scanSign (sign ++ (digits ++ rest)) = (sign, digits ++ rest) := by
  obtain ⟨c, tail, rfl, hc⟩ := exists_of_isDigits h
  have hne := isDigit_ne hc
  rcases hsign with rfl | rfl | rfl
  · rw [List.nil_append, List.cons_append, scanSign, if_neg]
    rintro (rfl | rfl)
    · exact hne (by decide)
    · exact hne (by decide)
  · rfl
  · rfl

/-- The exponent ends where no digit follows; if there is none, no `e` follows. -/
theorem scanExp_append (h : IsExp text)
    (hrest : ∀ c, rest.head? = some c → c.isDigit = false ∧ c ≠ 'e' ∧ c ≠ 'E') :
    scanExp (text ++ rest) = (text, rest) := by
  cases h with
  | nil =>
      cases rest with
      | nil => rfl
      | cons c rest =>
          obtain ⟨-, hlower, hupper⟩ := hrest c rfl
          rw [List.nil_append, scanExp]
          simp [hlower, hupper]
  | cons hc hsign h =>
      obtain ⟨htake, hdrop⟩ := takeWhile_digits h fun c hc => (hrest c hc).1
      rw [List.cons_append, List.append_assoc, scanExp, scanSign_append hsign h]
      simp only [htake, hdrop]
      rw [if_pos ⟨hc, h.1⟩]

/-- What follows the integer part begins with a point, or with what follows the fraction. -/
theorem IsFrac.head_append (h : IsFrac text) {c : Char} (hc : (text ++ rest).head? = some c) :
    c = '.' ∨ text = [] ∧ rest.head? = some c := by
  cases h with
  | nil => exact .inr ⟨rfl, hc⟩
  | cons h => exact .inl (Option.some.inj hc).symm

/-- What follows the fraction begins with an `e`, or with what follows the number. -/
theorem IsExp.head_append (h : IsExp text) {c : Char} (hc : (text ++ rest).head? = some c) :
    (c = 'e' ∨ c = 'E') ∨ text = [] ∧ rest.head? = some c := by
  cases h with
  | nil => exact .inr ⟨rfl, hc⟩
  | cons he hsign h =>
      obtain rfl := Option.some.inj hc
      exact .inl he

/-- **A number** is matched to its end. -/
theorem scanLiteral_append (h : literal.Matches) (hrest : Stops rest) :
    scanLiteral (literal.text ++ rest) = some (literal, rest) := by
  have hexp : ∀ c, (literal.exp ++ rest).head? = some c → c.isDigit = false ∧ c ≠ '.' := by
    intro c hc
    rcases h.exp.head_append hc with (rfl | rfl) | ⟨-, hc⟩
    · exact ⟨rfl, by decide⟩
    · exact ⟨rfl, by decide⟩
    · exact ⟨(hrest c hc).1, (hrest c hc).2.1⟩
  have hfrac : ∀ c, (literal.frac ++ (literal.exp ++ rest)).head? = some c →
      c.isDigit = false := by
    intro c hc
    rcases h.frac.head_append hc with rfl | ⟨-, hc⟩
    · rfl
    · exact (hexp c hc).1
  have hstop : ∀ c, rest.head? = some c → c.isDigit = false ∧ c ≠ 'e' ∧ c ≠ 'E' :=
    fun c hc => ⟨(hrest c hc).1, (hrest c hc).2.2⟩
  rw [Literal.text, List.append_assoc, List.append_assoc, scanLiteral,
    scanInteger_append h.integer hfrac]
  simp only [Option.bind_eq_bind, Option.bind_some]
  rw [scanFrac_append h.frac hexp]
  simp only []
  rw [scanExp_append h.exp hstop]

/-- The digits of a number are a text of digits. -/
theorem isDigits_toDigits (n : ℕ) : IsDigits (Nat.toDigits 10 n) :=
  ⟨Nat.toDigits_ne_nil, fun _ hc => Nat.isDigit_of_mem_toDigits (by decide) (by decide) hc⟩

/-- Decimal digits have no leading zero. -/
theorem toDigits_canonical (n : ℕ) :
    Nat.toDigits 10 n = ['0'] ∨ (Nat.toDigits 10 n).head? ≠ some '0' := by
  induction n using Nat.strongRecOn with
  | ind n ih =>
      by_cases hlt : n < 10
      · rw [Nat.toDigits_of_lt_base hlt]
        have hall : ∀ i : Fin 10, [Nat.digitChar i] = ['0'] ∨
            [Nat.digitChar i].head? ≠ some '0' := by
          decide
        exact hall ⟨n, hlt⟩
      · have hle := Nat.le_of_not_lt hlt
        rw [Nat.toDigits_of_base_le (by decide) hle]
        rcases ih (n / 10) (by omega) with hzero | hhead
        · have hvalue := congrArg (fun text => Nat.ofDigitChars 10 text 0) hzero
          simp only [Nat.ofDigitChars_ten_toDigits] at hvalue
          have hten : n / 10 = 0 := hvalue
          omega
        · right
          rwa [List.head?_append_of_ne_nil _ Nat.toDigits_ne_nil]

/-- The text of an integer as a literal. -/
def intLiteral (n : ℤ) : Literal := ⟨intText n, [], []⟩

/-- The text of an integer is a literal of the grammar. -/
theorem matches_intLiteral (n : ℤ) : (intLiteral n).Matches := by
  refine ⟨?_, .nil, .nil⟩
  cases n with
  | ofNat n => exact .unsigned (isDigits_toDigits n) (toDigits_canonical n)
  | negSucc n => exact .signed (isDigits_toDigits (n + 1)) (toDigits_canonical (n + 1))

/-- **An integer** has the value of its text. -/
theorem intValue_intText (n : ℤ) : intValue (intText n) = n := by
  cases n with
  | ofNat n =>
      have hsign : (Nat.toDigits 10 n).head? ≠ some '-' := by
        simpa using head_digits_ne (isDigits_toDigits n) []
      rw [intText, intValue, if_neg hsign, Nat.ofDigitChars_ten_toDigits]
      rfl
  | negSucc n =>
      rw [intText, intValue, List.head?_cons, if_pos rfl, List.tail_cons,
        Nat.ofDigitChars_ten_toDigits]
      rfl

end Json
