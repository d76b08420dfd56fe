import Novon.Core.Pydantic

/-!
# Partial updates

`model_utils.py`: a partial update overlays the explicitly set fields of a payload, except that an
explicit null is kept only where the stored model admits one.
-/

namespace Novon

/-- The names of the fields of `target` that admit `None`. -/
def targetNullable (target : Dict String TypeHint) : List String :=
  (target.entries.filter fun f => (TypeHint.unwrapOptional f.2).2).map Prod.fst

/-- `partial_update_dict`, from the payload's `model_dump(exclude_unset=True)` and the target's
`model_fields`. -/
def partialUpdateDict {V : Type} (isNone : V → Bool) (payloadDump : Dict String V)
    (target : Dict String TypeHint) : Dict String V :=
  payloadDump.filter fun key value => !isNone value || key ∈ targetNullable target

/-- `value is None`. -/
def FieldValue.isNone : FieldValue → Bool
  | null => true
  | _ => false

@[simp] theorem FieldValue.isNone_null : FieldValue.null.isNone = true := rfl

@[simp] theorem FieldValue.isNone_str (s : String) : (FieldValue.str s).isNone = false := rfl

theorem get?_partialUpdateDict {V : Type} (isNone : V → Bool) (payloadDump : Dict String V)
    (target : Dict String TypeHint) (key : String) :
    (partialUpdateDict isNone payloadDump target).get? key =
      (payloadDump.get? key).filter fun value => !isNone value || key ∈ targetNullable target :=
  Dict.get?_filter _ _ _

/-! ### `model_dump` -/

variable {fields : List (String × OptField FieldValue)}

/-- Dumping drops fields and keeps the order of the rest. -/
theorem map_fst_dump_sublist (excludeUnset : Bool) :
    ((fields.filterMap fun f => (f.2.dump excludeUnset).map (f.1, ·)).map Prod.fst).Sublist
      (fields.map Prod.fst) := by
  induction fields with
  | nil => exact List.Sublist.slnil
  | cons f fields ih =>
    cases h : f.2.dump excludeUnset with
    | none => simpa [h] using ih.cons f.1
    | some v => simpa [h] using ih

theorem lookup_dump (excludeUnset : Bool) (h : (fields.map Prod.fst).Nodup) (key : String) :
    Dict.lookup key (fields.filterMap fun f => (f.2.dump excludeUnset).map (f.1, ·)) =
      (Dict.lookup key fields).bind (OptField.dump excludeUnset) := by
  induction fields with
  | nil => rfl
  | cons f fields ih =>
    rw [List.map_cons, List.nodup_cons] at h
    by_cases hf : f.1 = key
    · subst hf
      cases hd : f.2.dump excludeUnset with
      | none =>
        -- the dropped field's name does not come back later
        have hnone : Dict.lookup f.1 fields = none := Dict.lookup_eq_none_iff.mpr h.1
        simp [hd, Dict.lookup, ih h.2, hnone]
      | some v => simp [hd, Dict.lookup]
    · cases hd : f.2.dump excludeUnset with
      | none => simp [hd, Dict.lookup, hf, ih h.2]
      | some v => simp [hd, Dict.lookup, hf, ih h.2]

/-- A dumped model has the entry of the field of that name, if the field is dumped at all. -/
theorem get?_modelDump (excludeUnset : Bool) (h : (fields.map Prod.fst).Nodup) (key : String) :
    (modelDump excludeUnset fields).get? key =
      (Dict.lookup key fields).bind (OptField.dump excludeUnset) := by
  rw [modelDump, Dict.get?_ofList (h.sublist (map_fst_dump_sublist excludeUnset)),
    lookup_dump excludeUnset h]

end Novon
