import Mathlib.Data.List.Basic

/-!
# UUID strings
-/

namespace Novon

/-- A hexadecimal digit or a hyphen. -/
def isUuidChar (c : Char) : Bool :=
  ('0' ≤ c ∧ c ≤ '9') || ('a' ≤ c ∧ c ≤ 'f') || c == '-'

/-- A value of `str(uuid4())`: 36 hexadecimal digits and hyphens. -/
structure Uuid where
  text : String
  length_text : text.length = 36
  isUuidChar_text : ∀ c ∈ text.toList, isUuidChar c
  deriving DecidableEq

/-- An identifier for concrete runs. -/
def Uuid.one : Uuid := ⟨"7d1e4a52-9c0b-4f36-8a17-c2d90b5e6f01", by decide, List.all_eq_true.mp rfl⟩

def Uuid.two : Uuid := ⟨"0b6f93ce-21d8-4e75-b3a4-58f7e1c06d92", by decide, List.all_eq_true.mp rfl⟩

end Novon
