import Novon.Core.ModelUtils

/-!
# What a partial update does to one field

An explicit value replaces the stored one.  An explicit null leaves a field that admits no null as
it is (`overlay`) and clears one that does (`overlayNullable`).  `patchedField` says it of a field
by its name, `effective` what of a payload counts.
-/

namespace Novon

/-- The new value of a field that admits no null: an explicit value replaces the old one. -/
def OptField.overlay (f : OptField FieldValue) (old : FieldValue) : FieldValue :=
  match f with
  | value v => v
  | _ => old

/-- An explicit null clears a nullable field. -/
def OptField.overlayNullable (old : FieldValue) : OptField FieldValue → FieldValue
  | unset => old
  | null => .null
  | value v => v

/-- Dropping nulls from a dumped string field leaves its explicit value. -/
theorem getD_filter_dump {α : Type} (f : OptField α) (text : α → String) (old : FieldValue) :
    (((f.toField text).dump true).filter fun v => !v.isNone).getD old =
      (f.toField text).overlay old := by
  cases f <;> simp [OptField.toField, OptField.dump, OptField.overlay, Option.filter]

/-- Nothing is dropped from a dumped nullable field. -/
theorem getD_dump {α : Type} (f : OptField α) (text : α → String) (old : FieldValue) :
    ((f.toField text).dump true).getD old = (f.toField text).overlayNullable old := by
  cases f <;> rfl

/-! ### The fields of a record after a `PATCH` -/

/-- The value of a field after a `PATCH`: the payload's if the field is explicitly set, and not to
null unless the response model admits it. -/
def patchedField (nullable : List String) (payload : List (String × OptField FieldValue))
    (name : String) (old : FieldValue) : FieldValue :=
  match Dict.lookup name payload with
  | some (.value v) => v
  | some .null => if name ∈ nullable then .null else old
  | _ => old

/-- The fields of a record after a `PATCH`. -/
def patchedFields (nullable : List String) (payload : List (String × OptField FieldValue))
    (now : Datetime) (record : List (String × FieldValue)) : List (String × FieldValue) :=
  record.map fun f =>
    (f.1, if f.1 = "updated_at" then .datetime now else patchedField nullable payload f.1 f.2)

/-- What a payload effectively sets a field to: an explicit value, or an explicit null where the
response model admits it. -/
def effective (nullable : List String) (payload : List (String × OptField FieldValue))
    (name : String) : Option FieldValue :=
  match Dict.lookup name payload with
  | some (.value v) => some v
  | some .null => if name ∈ nullable then some .null else none
  | _ => none

theorem patchedField_eq_getD (nullable : List String)
    (payload : List (String × OptField FieldValue)) (name : String) (old : FieldValue) :
    patchedField nullable payload name old = (effective nullable payload name).getD old := by
  rw [patchedField, effective]
  rcases Dict.lookup name payload with _ | (_ | _ | v)
  · rfl
  · rfl
  · show (if name ∈ nullable then FieldValue.null else old) = _
    split <;> rfl
  · rfl

theorem patchedField_of_lookup {nullable : List String}
    {payload : List (String × OptField FieldValue)} {name : String} {f : OptField FieldValue}
    (h : Dict.lookup name payload = some f) (old : FieldValue) :
    patchedField nullable payload name old =
      if name ∈ nullable then f.overlayNullable old else f.overlay old := by
  rw [patchedField, h]
  cases f with
  | unset => by_cases hn : name ∈ nullable <;> simp [hn, OptField.overlay, OptField.overlayNullable]
  | null => rfl
  | value v =>
    by_cases hn : name ∈ nullable <;> simp [hn, OptField.overlay, OptField.overlayNullable]

theorem patchedField_of_lookup_eq_none {nullable : List String}
    {payload : List (String × OptField FieldValue)} {name : String}
    (h : Dict.lookup name payload = none) (old : FieldValue) :
    patchedField nullable payload name old = old := by
  rw [patchedField, h]

end Novon
