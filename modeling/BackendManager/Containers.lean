import Mathlib.Data.List.Basic

/-!
# Nested Containers

Values built from dicts, lists, tuples and scalars, at any depth. Given which names of fields are
secret, two values are alike if they differ only in what is stored under secret names. Nothing
here names a particular program.

Two values are compared at every place that a path of keys and indices leads to. Since dicts are
kept as lists of items, alikeness asks for the same keys in the same order, and for alike values
under those of them that are not secret; under a secret key nothing is asked. The shape of a
value is its scalar, its length or its keys: what can be seen of it at one place without going
further down.

## Main results

* `Value.induct`: induction over values of any nesting.
* `Alike.symm`, `Alike.trans`: alikeness is an equivalence.
* `Alike.shape_find`: alike values have the same shape wherever no secret name leads.
-/

namespace Containers

variable {K A : Type}

/-- A value with names in `K` and scalars in `A`. A dict is the list of its items, in order. -/
inductive Value (K A : Type)
  | scalar (a : A)
  | list (values : List (Value K A))
  | tuple (values : List (Value K A))
  | dict (items : List (K × Value K A))

namespace Value

/-- A property of all values, from what a container has it of. -/
theorem induct {motive : Value K A → Prop} (scalar : ∀ a, motive (.scalar a))
    (list : ∀ values, (∀ v ∈ values, motive v) → motive (.list values))
    (tuple : ∀ values, (∀ v ∈ values, motive v) → motive (.tuple values))
    (dict : ∀ items, (∀ key v, (key, v) ∈ items → motive v) → motive (.dict items)) :
    ∀ v, motive v
  | .scalar a => scalar a
  | .list values => list values fun v _ => induct scalar list tuple dict v
  | .tuple values => tuple values fun v _ => induct scalar list tuple dict v
  | .dict items => dict items fun _ v _ => induct scalar list tuple dict v
termination_by v => sizeOf v
decreasing_by
  · rename_i hmem
    have hlt := List.sizeOf_lt_of_mem hmem
    simp only [Value.list.sizeOf_spec]
    omega
  · rename_i hmem
    have hlt := List.sizeOf_lt_of_mem hmem
    simp only [Value.tuple.sizeOf_spec]
    omega
  · rename_i hmem
    have hlt := List.sizeOf_lt_of_mem hmem
    simp only [Prod.mk.sizeOf_spec, Value.dict.sizeOf_spec] at hlt ⊢
    omega

/-! ### Paths -/

/-- A step into a container. -/
inductive Step (K : Type)
  | index (i : ℕ)
  | key (key : K)
deriving DecidableEq

/-- What a value is without its parts: a scalar itself, the length of a list or a tuple, the names
of a dict. -/
inductive Shape (K A : Type)
  | scalar (a : A)
  | list (length : ℕ)
  | tuple (length : ℕ)
  | dict (keys : List K)
deriving DecidableEq

def shape : Value K A → Shape K A
  | .scalar a => .scalar a
  | .list values => .list values.length
  | .tuple values => .tuple values.length
  | .dict items => .dict (items.map Prod.fst)

variable [DecidableEq K]

/-- The part that a step leads to. -/
def child : Value K A → Step K → Option (Value K A)
  | .list values, .index i => values[i]?
  | .tuple values, .index i => values[i]?
  | .dict items, .key key => items.lookup key
  | _, _ => none

/-- The part that a path leads to. -/
def find : Value K A → List (Step K) → Option (Value K A)
  | v, [] => some v
  | v, step :: path => (v.child step).bind fun part => part.find path

end Value

/-! ### Alike values -/

/-- The values differ only in what is stored under secret names. -/
inductive Alike (secret : K → Prop) : Value K A → Value K A → Prop
  | scalar (a : A) : Alike secret (.scalar a) (.scalar a)
  | list {values values' : List (Value K A)} (length : values.length = values'.length)
      (elements : ∀ (i : ℕ) (v v' : Value K A), values[i]? = some v → values'[i]? = some v' →
        Alike secret v v') :
      Alike secret (.list values) (.list values')
  | tuple {values values' : List (Value K A)} (length : values.length = values'.length)
      (elements : ∀ (i : ℕ) (v v' : Value K A), values[i]? = some v → values'[i]? = some v' →
        Alike secret v v') :
      Alike secret (.tuple values) (.tuple values')
  | dict {items items' : List (K × Value K A)}
      (keys : items.map Prod.fst = items'.map Prod.fst)
      (values : ∀ (i : ℕ) (key : K) (v v' : Value K A), items[i]? = some (key, v) →
        items'[i]? = some (key, v') → ¬ secret key → Alike secret v v') :
      Alike secret (.dict items) (.dict items')

variable {secret : K → Prop} {v v' v'' : Value K A} {values values' : List (Value K A)}
  {items items' : List (K × Value K A)}

/-- Two values that are alike are so in either order. -/
theorem Alike.symm (h : Alike secret v v') : Alike secret v' v := by
  induction h with
  | scalar a => exact .scalar a
  | list length elements ih => exact .list length.symm fun i v v' hv hv' => ih i v' v hv' hv
  | tuple length elements ih => exact .tuple length.symm fun i v v' hv hv' => ih i v' v hv' hv
  | dict keys values ih =>
      exact .dict keys.symm fun i key v v' hv hv' hkey => ih i key v' v hv' hv hkey

/-- Lists of one length have elements at the same places. -/
theorem getElem?_of_length (h : values.length = values'.length) {i : ℕ}
    (hv : values[i]? = some v) : ∃ v', values'[i]? = some v' := by
  obtain ⟨hlt, -⟩ := List.getElem?_eq_some_iff.mp hv
  exact ⟨values'[i], List.getElem?_eq_getElem (h ▸ hlt)⟩

/-- Dicts with the same names have them at the same places. -/
theorem getElem?_of_keys (h : items.map Prod.fst = items'.map Prod.fst) {i : ℕ} {key : K}
    (hv : items[i]? = some (key, v)) : ∃ v', items'[i]? = some (key, v') := by
  have hkey := congrArg (fun keys => keys[i]?) h
  simp only [List.getElem?_map, hv, Option.map_some] at hkey
  obtain ⟨⟨key', v'⟩, hv', hkey'⟩ := Option.map_eq_some_iff.mp hkey.symm
  obtain rfl : key' = key := hkey'
  exact ⟨v', hv'⟩

/-- Elements that are alike one by one, in two steps. -/
theorem elements_trans {values'' : List (Value K A)} (length : values.length = values'.length)
    (ih : ∀ (i : ℕ) (v v' : Value K A), values[i]? = some v → values'[i]? = some v' →
      ∀ {v''}, Alike secret v' v'' → Alike secret v v'')
    (elements : ∀ (i : ℕ) (v' v'' : Value K A), values'[i]? = some v' → values''[i]? = some v'' →
      Alike secret v' v'') (i : ℕ) (v v'' : Value K A) (hv : values[i]? = some v)
    (hv'' : values''[i]? = some v'') : Alike secret v v'' := by
  obtain ⟨v', hv'⟩ := getElem?_of_length length hv
  exact ih i v v' hv hv' (elements i v' v'' hv' hv'')

/-- And one after the other. -/
theorem Alike.trans (h : Alike secret v v') (h' : Alike secret v' v'') : Alike secret v v'' := by
  induction h generalizing v'' with
  | scalar a => exact h'
  | list length elements ih =>
      cases h' with
      | list length' elements' =>
          exact .list (length.trans length') (elements_trans length ih elements')
  | tuple length elements ih =>
      cases h' with
      | tuple length' elements' =>
          exact .tuple (length.trans length') (elements_trans length ih elements')
  | dict keys values ih =>
      cases h' with
      | dict keys' values' =>
          refine .dict (keys.trans keys') fun i key w w'' hw hw'' hkey => ?_
          obtain ⟨w', hw'⟩ := getElem?_of_keys keys hw
          exact ih i key w w' hw hw' hkey (values' i key w' w'' hw' hw'' hkey)

/-- Values that are alike have one shape. -/
theorem Alike.shape_eq (h : Alike secret v v') : v.shape = v'.shape := by
  cases h with
  | scalar a => rfl
  | list length elements => exact congrArg Value.Shape.list length
  | tuple length elements => exact congrArg Value.Shape.tuple length
  | dict keys values => exact congrArg Value.Shape.dict keys

/-! ### Where no secret name leads -/

/-- The step does not lead into a secret field. -/
def Open (secret : K → Prop) : Value.Step K → Prop
  | .index _ => True
  | .key key => ¬ secret key

/-- Both values have no such part, or both have alike ones. -/
inductive Match (secret : K → Prop) : Option (Value K A) → Option (Value K A) → Prop
  | none : Match secret none none
  | some {v v' : Value K A} (h : Alike secret v v') : Match secret (some v) (some v')

/-- Lists that are alike have elements that are alike, at every index. -/
theorem match_getElem? (length : values.length = values'.length)
    (elements : ∀ (i : ℕ) (v v' : Value K A), values[i]? = some v → values'[i]? = some v' →
      Alike secret v v') (i : ℕ) : Match secret values[i]? values'[i]? := by
  cases hv : values[i]? with
  | none =>
      have hle := List.getElem?_eq_none_iff.mp hv
      rw [List.getElem?_eq_none_iff.mpr (length ▸ hle)]
      exact .none
  | some v =>
      obtain ⟨v', hv'⟩ := getElem?_of_length length hv
      rw [hv']
      exact .some (elements i v v' hv hv')

variable [DecidableEq K]

/-- Dicts that are alike have values that are alike, under every key that is not secret. -/
theorem match_lookup {key : K} (hkey : ¬ secret key)
    (keys : items.map Prod.fst = items'.map Prod.fst)
    (values : ∀ (i : ℕ) (key : K) (v v' : Value K A), items[i]? = some (key, v) →
      items'[i]? = some (key, v') → ¬ secret key → Alike secret v v') :
    Match secret (items.lookup key) (items'.lookup key) := by
  induction items generalizing items' with
  | nil =>
      obtain rfl : items' = [] := List.map_eq_nil_iff.mp keys.symm
      exact .none
  | cons item items ih =>
      cases items' with
      | nil => cases keys
      | cons item' items' =>
          obtain ⟨name, v⟩ := item
          obtain ⟨name', v'⟩ := item'
          obtain ⟨rfl, htail⟩ := List.cons.inj keys
          by_cases hname : key = name
          · subst hname
            rw [List.lookup_cons_self, List.lookup_cons_self]
            exact .some (values 0 key v v' rfl rfl hkey)
          · have hfalse : (key == name) = false := beq_false_of_ne hname
            rw [List.lookup_cons, List.lookup_cons, hfalse]
            exact ih htail fun i => values (i + 1)

/-- A step that leads into no secret field leads to alike parts. -/
theorem Alike.child (h : Alike secret v v') {step : Value.Step K} (hstep : Open secret step) :
    Match secret (v.child step) (v'.child step) := by
  cases h with
  | scalar a => exact .none
  | list length elements | tuple length elements =>
      cases step with
      | index i => exact match_getElem? length elements i
      | key key => exact .none
  | dict keys values =>
      cases step with
      | index i => exact .none
      | key key => exact match_lookup hstep keys values

/-- **Alike values have the same shape** wherever no secret name leads. -/
theorem Alike.shape_find (h : Alike secret v v') {path : List (Value.Step K)}
    (hpath : ∀ step ∈ path, Open secret step) :
    (v.find path).map Value.shape = (v'.find path).map Value.shape := by
  induction path generalizing v v' with
  | nil => exact congrArg some h.shape_eq
  | cons step path ih =>
      have hmatch := h.child (hpath step List.mem_cons_self)
      rw [Value.find, Value.find]
      generalize v.child step = part, v'.child step = part' at hmatch ⊢
      cases hmatch with
      | none => rfl
      | some hparts => exact ih hparts fun step hstep => hpath step (List.mem_cons_of_mem _ hstep)

end Containers
