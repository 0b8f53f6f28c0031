import Mathlib.Data.Int.Notation
import Mathlib.Data.List.Basic

/-!
# JSON Values in Python

What `json.loads` returns, and what programs do with it: `.get` and subscripts with their
exceptions, truth values, `str`, and `int`. Floats and the escapes of `repr` are parameters.
Nothing here names a particular program.

A dict is the list of its items in order. The order shows in `str` and nowhere else; `Same` is
equality of contents up to it.

The exceptions are those of Python's accesses: a subscript on a value that is no dict, a key
that is missing, a text that is no number. They are values of `PyError`, so that a function that
may raise is one into `Except`. Truth is Python's as well: `None`, zero, and empty texts, lists
and dicts are false.

## Main results

* `Same.get`: equal contents have equal items.
* `Same.eq_of_isScalar`: where a scalar is, equal contents are equal.
-/

namespace Json

/-- A parsed value; `F` is the type of floats. -/
inductive Value (F : Type)
  | null
  | bool (b : Bool)
  | int (n : ℤ)
  | float (x : F)
  | str (s : String)
  | list (values : List (Value F))
  | dict (items : List (String × Value F))

/-- What is not modelled of the scalars. -/
structure Scalars (F : Type) where
  /-- `repr` of a float. -/
  reprFloat : F → String
  /-- `repr` of a text. -/
  reprStr : String → String
  /-- The float is zero. -/
  isZero : F → Bool
  /-- `int` of a float; `none` is an exception. -/
  intFloat : F → Option ℤ
  /-- `int` of a text; `none` is an exception. -/
  intStr : String → Option ℤ
  /-- `str.lower`. -/
  lower : String → String
  lower_empty : lower "" = ""

/-- The exceptions of what is done here. -/
inductive PyError
  | attributeError
  | typeError
  | keyError
  | indexError
  | valueError
deriving DecidableEq

namespace Value

variable {F : Type} {S : Scalars F} {key : String} {default v v' d d' : Value F}

/-! ### Text -/

mutual
/-- `repr`. -/
def repr (S : Scalars F) : Value F → String
  | .null => "None"
  | .bool true => "True"
  | .bool false => "False"
  | .int n => toString n
  | .float x => S.reprFloat x
  | .str s => S.reprStr s
  | .list values => "[" ++ ", ".intercalate (reprs S values) ++ "]"
  | .dict items => "\x7b" ++ ", ".intercalate (reprItems S items) ++ "\x7d"

/-- The texts of the elements of a list. -/
def reprs (S : Scalars F) : List (Value F) → List String
  | [] => []
  | v :: values => v.repr S :: reprs S values

/-- The texts of the items of a dict. -/
def reprItems (S : Scalars F) : List (String × Value F) → List String
  | [] => []
  | (key, v) :: items => (S.reprStr key ++ ": " ++ v.repr S) :: reprItems S items
end

/-- `str`. -/
def text (S : Scalars F) : Value F → String
  | .str s => s
  | v => v.repr S

/-! ### Truth, items and numbers -/

/-- `bool`. -/
def truthy (S : Scalars F) : Value F → Bool
  | .null => false
  | .bool b => b
  | .int n => n ≠ 0
  | .float x => !S.isZero x
  | .str s => s ≠ ""
  | .list values => !values.isEmpty
  | .dict items => !items.isEmpty

/-- `v.get(key, default)`. -/
def get (v : Value F) (key : String) (default : Value F) : Except PyError (Value F) :=
  match v with
  | .dict items => .ok ((items.lookup key).getD default)
  | _ => .error .attributeError

/-- `v[key]`. -/
def item (v : Value F) (key : String) : Except PyError (Value F) :=
  match v with
  | .dict items => (items.lookup key).elim (.error .keyError) .ok
  | _ => .error .typeError

/-- `v[0]`. -/
def first : Value F → Except PyError (Value F)
  | .list (v :: _) => .ok v
  | .list [] => .error .indexError
  | .str s =>
      match s.toList with
      | c :: _ => .ok (.str (String.ofList [c]))
      | [] => .error .indexError
  | .dict _ => .error .keyError
  | _ => .error .typeError

/-- `int`. -/
def toInt (S : Scalars F) : Value F → Except PyError ℤ
  | .bool b => .ok b.toNat
  | .int n => .ok n
  | .float x => (S.intFloat x).elim (.error .valueError) .ok
  | .str s => (S.intStr s).elim (.error .valueError) .ok
  | _ => .error .typeError

/-- A value without parts. -/
def IsScalar : Value F → Prop
  | .list _ | .dict _ => False
  | _ => True

/-- A computation succeeds exactly if both of its parts do. -/
theorem bind_eq_ok {α β : Type} {x : Except PyError α} {f : α → Except PyError β} {b : β} :
    x >>= f = .ok b ↔ ∃ a, x = .ok a ∧ f a = .ok b := by
  cases x with
  | error error => simp [bind, Except.bind]
  | ok a => simp [bind, Except.bind]

/-! ### Contents -/

/-- Equal contents: the items of a dict may stand in any order. -/
inductive Same : Value F → Value F → Prop
  | scalar {v : Value F} (h : v.IsScalar) : Same v v
  | list {values values' : List (Value F)} (length : values.length = values'.length)
      (elements : ∀ p ∈ values.zip values', Same p.1 p.2) : Same (.list values) (.list values')
  | dict {items items' : List (String × Value F)}
      (keys : ∀ key, (items.lookup key).isSome = (items'.lookup key).isSome)
      (values : ∀ key v v', items.lookup key = some v → items'.lookup key = some v' → Same v v') :
      Same (.dict items) (.dict items')

/-- A value has the contents that it has. -/
theorem Same.refl : ∀ v : Value F, Same v v
  | .null | .bool _ | .int _ | .float _ | .str _ => .scalar trivial
  | .list values => by
      refine .list rfl fun p hp => ?_
      obtain ⟨i, hi, rfl⟩ := List.getElem_of_mem hp
      rw [List.getElem_zip]
      exact Same.refl _
  | .dict items => by
      refine .dict (fun _ => rfl) fun key v v' hv hv' => ?_
      obtain rfl := Option.some.inj (hv.symm.trans hv')
      exact Same.refl v
termination_by v => sizeOf v
decreasing_by
  · have hlength : i < values.length := by simpa using hi
    have hlt := List.sizeOf_lt_of_mem (List.getElem_mem hlength)
    simp only [Value.list.sizeOf_spec]
    omega
  · obtain ⟨before, after, hitems, -⟩ := List.lookup_eq_some_iff.mp hv
    have hmem : (key, v) ∈ items := by simp [hitems]
    have hlt := List.sizeOf_lt_of_mem hmem
    simp only [Prod.mk.sizeOf_spec, Value.dict.sizeOf_spec] at hlt ⊢
    omega

/-- Equal contents that are scalars. -/
theorem Same.eq_of_isScalar (h : Same v v') (hv : v.IsScalar) : v = v' := by
  cases h with
  | scalar h => rfl
  | list length elements => exact absurd hv id
  | dict keys values => exact absurd hv id

/-- **Equal contents have equal items.** -/
theorem Same.get (h : Same d d') (hdefault : Same default default)
    (hv : d.get key default = .ok v) : ∃ v', d'.get key default = .ok v' ∧ Same v v' := by
  cases h with
  | scalar h =>
      cases d with
      | dict items => exact absurd h id
      | _ => cases hv
  | list length elements => cases hv
  | @dict items items' keys values =>
      obtain rfl := Except.ok.inj hv
      refine ⟨_, rfl, ?_⟩
      have hkey := keys key
      cases hlookup : items.lookup key with
      | none =>
          rw [hlookup] at hkey
          have hlookup' : items'.lookup key = none := by simpa using hkey.symm
          rw [hlookup']
          exact hdefault
      | some w =>
          rw [hlookup] at hkey
          obtain ⟨w', hlookup'⟩ := Option.isSome_iff_exists.mp hkey.symm
          rw [hlookup']
          exact values key w w' hlookup hlookup'

end Value

end Json
