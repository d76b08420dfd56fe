import Novon.Core.TypeHints
import Novon.Data.Dict
import Mathlib.Data.Int.Notation

/-!
# Model instances

The part of Pydantic that the services use: field values, strings with length bounds, optional
fields with their record of what was explicitly set, `model_dump` and the parsing of a request
body.  A bounded string carries the proof of its bounds, so a payload that exists has passed
validation.  A stored record holds unconstrained `FieldValue`s, because `model_copy(update=...)`
does not validate.
-/

namespace Novon

/-- A clock reading in microseconds. -/
abbrev Datetime : Type := ℤ

inductive FieldValue where
  | null
  | str (s : String)
  | datetime (t : Datetime)
  deriving DecidableEq, Repr

/-- A string of length `lo` to `hi`: `Field(min_length=lo, max_length=hi)`. -/
structure BoundedStr (lo hi : ℕ) where
  val : String
  min_length : lo ≤ val.length
  max_length : val.length ≤ hi
  deriving DecidableEq

/-- Validates the length of a string. -/
def BoundedStr.ofString? (lo hi : ℕ) (s : String) : Option (BoundedStr lo hi) :=
  if h : lo ≤ s.length ∧ s.length ≤ hi then some ⟨s, h.1, h.2⟩ else none

@[simp] theorem BoundedStr.ofString?_val {lo hi : ℕ} (b : BoundedStr lo hi) :
    BoundedStr.ofString? lo hi b.val = some b := by
  simp [ofString?, b.min_length, b.max_length]

/-- A field declared `X | None = None`: absent from `model_fields_set`, explicitly `None`, or
explicitly a value. -/
inductive OptField (α : Type) where
  | unset
  | null
  | value (a : α)
  deriving DecidableEq

namespace OptField

variable {α : Type}

/-- The field with its value as a field value. -/
def toField (text : α → String) : OptField α → OptField FieldValue
  | unset => unset
  | null => null
  | value a => value (.str (text a))

/-- The attribute: the default `None` when unset. -/
def get? : OptField α → Option α
  | value a => some a
  | _ => none

/-- The field in `model_dump(exclude_unset=excludeUnset)`, if it is there. -/
def dump (excludeUnset : Bool) : OptField FieldValue → Option FieldValue
  | unset => if excludeUnset then none else some .null
  | null => some .null
  | value v => some v

/-- Parses the body's entry for an optional field. -/
def parse (ofString? : String → Option α) : Option FieldValue → Option (OptField α)
  | none => some unset
  | some .null => some null
  | some (.str s) => (ofString? s).map value
  | some (.datetime _) => none

/-- Parsing an explicitly dumped field gives the field back. -/
theorem parse_dump (ofString? : String → Option α) (text : α → String)
    (h : ∀ a, ofString? (text a) = some a) (f : OptField α) :
    parse ofString? ((f.toField text).dump true) = some f := by
  cases f <;> simp [toField, dump, parse, h]

end OptField

/-- Parses the body's entry for a required string field. -/
def requireStr {α : Type} (ofString? : String → Option α) : Option FieldValue → Option α
  | some (.str s) => ofString? s
  | _ => none

/-- `model_dump(exclude_unset=excludeUnset)` of a model with the given fields, in declaration
order.  Strings and `None` are their own JSON form, so this is also `mode="json"`. -/
def modelDump (excludeUnset : Bool) (fields : List (String × OptField FieldValue)) :
    Dict String FieldValue :=
  Dict.ofList <| fields.filterMap fun f => (f.2.dump excludeUnset).map (f.1, ·)

end Novon
