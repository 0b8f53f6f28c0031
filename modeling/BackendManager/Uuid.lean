import Mathlib.Algebra.Group.Nat.Defs

/-!
# UUIDs and Their Canonical Text

The primary keys and organisation ids of the service are UUIDs, that is, 128-bit
integers with a canonical text of 32 lower-case hexadecimal digits in groups of
8-4-4-4-12. The text enters the program wherever an id is spliced into a string, such as
the ledger key of an invoice debit or the path of an org-scoped route.

Different UUIDs have different texts (`BackendManager.TenantContext` reads a text back), which
is what the ledger keys and the parts of the bucket rely on. Ids that the database or the
service draws at random are parameters of the models that draw them; no model relies on their
being fresh unless it says so.
-/

namespace BackendManager

/-- A UUID, represented as its 128-bit integer. -/
structure Uuid where
  /-- The 128-bit value. -/
  int : Fin (2 ^ 128)
deriving DecidableEq

namespace Uuid

/-- The UUID with a given integer value, modulo `2 ^ 128`. -/
def ofNat (n : ℕ) : Uuid := ⟨Fin.ofNat (2 ^ 128) n⟩

/-- The `w` low hexadecimal digits of `n`, most significant first. -/
def hexDigits : ℕ → ℕ → List Char
  | 0, _ => []
  | w + 1, n => hexDigits w (n / 16) ++ [Nat.digitChar (n % 16)]

/-- `UUID.hex`: the 32 hexadecimal digits. -/
def hex (u : Uuid) : List Char := hexDigits 32 u.int

/-- `str(uuid)`: the digits in groups of 8-4-4-4-12 separated by hyphens. -/
def str (u : Uuid) : String :=
  String.ofList (u.hex.take 8 ++ '-' :: ((u.hex.drop 8).take 4 ++ '-' ::
    ((u.hex.drop 12).take 4 ++ '-' :: ((u.hex.drop 16).take 4 ++ '-' :: u.hex.drop 20))))

theorem ofNat_int (u : Uuid) : ofNat u.int = u := by
  rw [ofNat, Fin.ofNat_val_eq_self]

theorem length_hexDigits (w n : ℕ) : (hexDigits w n).length = w := by
  induction w generalizing n with
  | zero => rfl
  | succ w ih => rw [hexDigits, List.length_append, ih, List.length_singleton]

example : (ofNat 0x123).str = "00000000-0000-0000-0000-000000000123" := by decide

end Uuid

end BackendManager
