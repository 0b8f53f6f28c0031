import BackendManager.Containers
import Mathlib.Data.List.Infix

/-!
# Log Scrubbing

The model of `scrub_sensitive` of `app/core/logging.py`, the processor that masks the values
stored under sensitive names before an event is rendered.

The loop over `value.items()` meets each key of a dict once, so that setting the items of the new
dict appends them. The texts of keys, and `str.lower`, are parameters.

Masking is recursive through dicts, lists and tuples, and stops at a masked key: what stands
below it is replaced as a whole. A key is masked if its lower-case text contains one of the
configured names. Two events that differ under masked keys only are therefore written alike, and
everything else about an event is written as it is; both are statements about all events, of any
nesting.

The names are fixed when the processor is configured; that they are compared in lower case on
both sides is `masked_lower`.

## Main results

* `scrub_eq_iff`: which events are scrubbed to one.
* `scrub_sensitive_spec`: an event is scrubbed of what is under sensitive names, and keeps the
  rest.
-/

namespace BackendManager.Logging

open Containers

variable {K A : Type}

/-- A leaf of an event. -/
inductive Scalar (A : Type)
  | str (s : String)
  | other (a : A)
deriving DecidableEq

def REDACTED : Scalar A := .str "[REDACTED]"

/-- `str` of a key, and `str.lower`. -/
structure Naming (K : Type) where
  str : K → String
  lower : String → String

/-- `any(sentinel in name for sentinel in keys)`. -/
def anyIn (keys : List String) (name : String) : Bool :=
  keys.any fun sentinel => sentinel.toList <:+: name.toList

mutual
def _scrub (N : Naming K) (keys : List String) : Value K (Scalar A) → Value K (Scalar A)
  | .dict items => .dict (scrubItems N keys items)
  | .list values => .list (scrubAll N keys values)
  | .tuple values => .tuple (scrubAll N keys values)
  | .scalar a => .scalar a

/-- The loop over the elements of a list or a tuple. -/
def scrubAll (N : Naming K) (keys : List String) :
    List (Value K (Scalar A)) → List (Value K (Scalar A))
  | [] => []
  | item :: rest => _scrub N keys item :: scrubAll N keys rest

/-- The loop over the items of a dict. -/
def scrubItems (N : Naming K) (keys : List String) :
    List (K × Value K (Scalar A)) → List (K × Value K (Scalar A))
  | [] => []
  | (key, item) :: rest =>
      let name := N.lower (N.str key)
      (if anyIn keys name then (key, .scalar REDACTED) else (key, _scrub N keys item)) ::
        scrubItems N keys rest
end

def scrub_sensitive (N : Naming K) (log_scrub_keys : List String)
    (event_dict : Value K (Scalar A)) : Value K (Scalar A) :=
  let keys := log_scrub_keys.map N.lower
  if keys = [] then event_dict else _scrub N keys event_dict

/-! ### One step of the recursion -/

variable {N : Naming K} {keys : List String} {event event' : Value K (Scalar A)}
  {values values' : List (Value K (Scalar A))} {items items' : List (K × Value K (Scalar A))}

/-- The name is masked. -/
def Masked (N : Naming K) (keys : List String) (key : K) : Prop :=
  anyIn keys (N.lower (N.str key)) = true

/-- The item of the new dict. -/
def scrubItem (N : Naming K) (keys : List String) (item : K × Value K (Scalar A)) :
    K × Value K (Scalar A) :=
  if anyIn keys (N.lower (N.str item.1)) then (item.1, .scalar REDACTED)
  else (item.1, _scrub N keys item.2)

/-- A list is scrubbed element by element. -/
theorem scrubAll_eq_map (values : List (Value K (Scalar A))) :
    scrubAll N keys values = values.map (_scrub N keys) := by
  induction values with
  | nil => rfl
  | cons item rest ih => rw [scrubAll, ih, List.map_cons]

/-- And a dict item by item. -/
theorem scrubItems_eq_map (items : List (K × Value K (Scalar A))) :
    scrubItems N keys items = items.map (scrubItem N keys) := by
  induction items with
  | nil => rfl
  | cons item rest ih =>
      rw [scrubItems, ih, List.map_cons]
      rfl

/-- The value under a masked key is replaced, whatever it is. -/
theorem scrubItem_of_masked {key : K} (h : Masked N keys key) (v : Value K (Scalar A)) :
    scrubItem N keys (key, v) = (key, .scalar REDACTED) := if_pos h

/-- Under any other key it is scrubbed in turn. -/
theorem scrubItem_of_not_masked {key : K} (h : ¬ Masked N keys key) (v : Value K (Scalar A)) :
    scrubItem N keys (key, v) = (key, _scrub N keys v) := if_neg h

/-- Keys are left as they are. -/
theorem fst_scrubItem (item : K × Value K (Scalar A)) :
    (scrubItem N keys item).1 = item.1 := by
  rw [scrubItem]
  split <;> rfl

/-! ### Scrubbed events -/

/-- Elements are alike if each of them is. -/
theorem alike_elements (ih : ∀ v ∈ values, Alike (Masked N keys) v (_scrub N keys v)) (i : ℕ)
    (v v' : Value K (Scalar A)) (hv : values[i]? = some v)
    (hv' : (values.map (_scrub N keys))[i]? = some v') : Alike (Masked N keys) v v' := by
  rw [List.getElem?_map, hv] at hv'
  obtain rfl := Option.some.inj hv'
  exact ih v (List.mem_of_getElem? hv)

/-- Scrubbing changes nothing but what is under masked names. -/
theorem alike_scrub (N : Naming K) (keys : List String) (v : Value K (Scalar A)) :
    Alike (Masked N keys) v (_scrub N keys v) := by
  induction v using Value.induct with
  | scalar a =>
      rw [_scrub]
      exact .scalar a
  | list values ih =>
      rw [_scrub, scrubAll_eq_map]
      exact .list (List.length_map _).symm (alike_elements ih)
  | tuple values ih =>
      rw [_scrub, scrubAll_eq_map]
      exact .tuple (List.length_map _).symm (alike_elements ih)
  | dict items ih =>
      rw [_scrub, scrubItems_eq_map]
      refine .dict ?_ fun i key v v' hv hv' hkey => ?_
      · rw [List.map_map]
        exact List.map_congr_left fun item _ => (fst_scrubItem item).symm
      · rw [List.getElem?_map, hv, Option.map_some, scrubItem_of_not_masked hkey] at hv'
        obtain rfl := (Prod.mk.inj (Option.some.inj hv')).2
        exact ih key v (List.mem_of_getElem? hv)

/-- Elements with equal results have equal lists of results. -/
theorem scrubAll_congr (length : values.length = values'.length)
    (ih : ∀ (i : ℕ) (v v' : Value K (Scalar A)), values[i]? = some v → values'[i]? = some v' →
      _scrub N keys v = _scrub N keys v') :
    scrubAll N keys values = scrubAll N keys values' := by
  rw [scrubAll_eq_map, scrubAll_eq_map]
  refine List.ext_getElem? fun i => ?_
  rw [List.getElem?_map, List.getElem?_map]
  cases hv : values[i]? with
  | none =>
      have hle := List.getElem?_eq_none_iff.mp hv
      rw [List.getElem?_eq_none_iff.mpr (length ▸ hle)]
  | some v =>
      obtain ⟨v', hv'⟩ := getElem?_of_length length hv
      rw [hv', Option.map_some, Option.map_some, ih i v v' hv hv']

/-- Nothing of what is under masked names is left. -/
theorem scrub_eq_of_alike (h : Alike (Masked N keys) event event') :
    _scrub N keys event = _scrub N keys event' := by
  induction h with
  | scalar a => rfl
  | list length elements ih => rw [_scrub, _scrub, scrubAll_congr length ih]
  | tuple length elements ih => rw [_scrub, _scrub, scrubAll_congr length ih]
  | @dict items items' names values ih =>
      rw [_scrub, _scrub, scrubItems_eq_map, scrubItems_eq_map]
      refine congrArg Value.dict (List.ext_getElem? fun i => ?_)
      rw [List.getElem?_map, List.getElem?_map]
      cases hv : items[i]? with
      | none =>
          have hle := List.getElem?_eq_none_iff.mp hv
          have hlength : items.length = items'.length := by
            simpa using congrArg List.length names
          rw [List.getElem?_eq_none_iff.mpr (hlength ▸ hle)]
      | some item =>
          obtain ⟨key, v⟩ := item
          obtain ⟨v', hv'⟩ := getElem?_of_keys names hv
          rw [hv', Option.map_some, Option.map_some]
          by_cases hkey : Masked N keys key
          · rw [scrubItem_of_masked hkey, scrubItem_of_masked hkey]
          · rw [scrubItem_of_not_masked hkey, scrubItem_of_not_masked hkey,
              ih i key v v' hv hv' hkey]

/-- **Which values are scrubbed to one**: those that differ only under masked names. -/
theorem scrub_eq_iff :
    _scrub N keys event = _scrub N keys event' ↔ Alike (Masked N keys) event event' := by
  refine ⟨fun h => ?_, scrub_eq_of_alike⟩
  have hleft := alike_scrub N keys event
  have hright := alike_scrub N keys event'
  rw [h] at hleft
  exact hleft.trans hright.symm

/-! ### The processor -/

/-- The name contains a sentinel, in whatever case. -/
def Sensitive (N : Naming K) (log_scrub_keys : List String) (key : K) : Prop :=
  ∃ sentinel ∈ log_scrub_keys,
    (N.lower sentinel).toList <:+: (N.lower (N.str key)).toList

/-- Names are compared in lower case, on both sides. -/
theorem masked_lower (N : Naming K) (log_scrub_keys : List String) :
    Masked N (log_scrub_keys.map N.lower) = Sensitive N log_scrub_keys := by
  funext key
  simp only [Masked, anyIn, Sensitive, List.any_map, List.any_eq_true, Function.comp_apply,
    decide_eq_true_iff]

/-- Without names to look for, nothing is replaced. -/
theorem scrub_nil (v : Value K (Scalar A)) : _scrub N [] v = v := by
  induction v using Value.induct with
  | scalar a => rw [_scrub]
  | list values ih =>
      rw [_scrub, scrubAll_eq_map, List.map_congr_left ih, List.map_id']
  | tuple values ih =>
      rw [_scrub, scrubAll_eq_map, List.map_congr_left ih, List.map_id']
  | dict items ih =>
      have hitems : ∀ item ∈ items, scrubItem N [] item = item := by
        rintro ⟨key, v⟩ hv
        have hname : ¬ Masked N [] key := Bool.false_ne_true
        rw [scrubItem_of_not_masked hname, ih key v hv]
      rw [_scrub, scrubItems_eq_map, List.map_congr_left hitems, List.map_id']

/-- Without sentinels nothing is masked. -/
theorem scrub_sensitive_eq (N : Naming K) (log_scrub_keys : List String)
    (event : Value K (Scalar A)) :
    scrub_sensitive N log_scrub_keys event = _scrub N (log_scrub_keys.map N.lower) event := by
  rw [scrub_sensitive]
  split
  · rename_i hnone
    rw [hnone, scrub_nil]
  · rfl

/-- **Scrubbing.** Two events that differ only under sensitive names are scrubbed to one, and no
others are; what no sensitive name leads to keeps its shape, and a scalar is its own shape; and to
scrub twice is to scrub once. -/
theorem scrub_sensitive_spec [DecidableEq K] (N : Naming K) (log_scrub_keys : List String) :
    (∀ event event' : Value K (Scalar A),
      Alike (Sensitive N log_scrub_keys) event event' ↔
        scrub_sensitive N log_scrub_keys event = scrub_sensitive N log_scrub_keys event') ∧
    (∀ (event : Value K (Scalar A)) (path : List (Value.Step K)),
      (∀ step ∈ path, Open (Sensitive N log_scrub_keys) step) →
      ((scrub_sensitive N log_scrub_keys event).find path).map Value.shape =
        (event.find path).map Value.shape) ∧
    ∀ event : Value K (Scalar A),
      scrub_sensitive N log_scrub_keys (scrub_sensitive N log_scrub_keys event) =
        scrub_sensitive N log_scrub_keys event := by
  simp only [scrub_sensitive_eq, ← masked_lower]
  refine ⟨fun event event' => scrub_eq_iff.symm, fun event path hpath => ?_, fun event => ?_⟩
  · exact ((alike_scrub N _ event).shape_find hpath).symm
  · exact (scrub_eq_iff.mpr (alike_scrub N _ event)).symm

/-! ### An event of two levels -/

/-- Names that are texts; letters of ASCII are lowered. -/
def texts : Naming String where
  str key := key
  lower s := .ofList (s.toList.map Char.toLower)

/-- A user with a token, and the number of an order. -/
def userEvent (token : String) : Value String (Scalar ℕ) :=
  .dict [("user", .dict [("Access_Token", .scalar (.str token)), ("id", .scalar (.other 7))]),
    ("order", .list [.scalar (.other 9)])]

example : scrub_sensitive texts ["TOKEN"] (userEvent "abc") = userEvent "[REDACTED]" := rfl

/-- Two events that differ in the token only. -/
theorem alike_userEvent (token token' : String) :
    Alike (Sensitive texts ["TOKEN"]) (userEvent token) (userEvent token') := by
  rw [← masked_lower]
  exact scrub_eq_iff.mp rfl

/-- They are written alike, and the order number is still there. -/
theorem scrub_sensitive_spec_user :
    scrub_sensitive texts ["TOKEN"] (userEvent "abc") =
        scrub_sensitive texts ["TOKEN"] (userEvent "xyz") ∧
      ((scrub_sensitive texts ["TOKEN"] (userEvent "abc")).find [.key "order", .index 0]).map
        Value.shape = some (.scalar (.other 9)) := by
  have horder : ∀ step ∈ [Value.Step.key "order", .index 0],
      Open (Sensitive texts ["TOKEN"]) step := by
    rw [← masked_lower]
    intro step hstep
    rcases List.mem_cons.mp hstep with rfl | hstep
    · exact (by decide : ¬ anyIn [texts.lower "TOKEN"] (texts.lower (texts.str "order")) = true)
    · rw [List.mem_singleton.mp hstep]
      trivial
  obtain ⟨hsame, hkept, -⟩ := scrub_sensitive_spec (A := ℕ) texts ["TOKEN"]
  exact ⟨(hsame _ _).mp (alike_userEvent "abc" "xyz"), hkept _ _ horder⟩

end BackendManager.Logging
