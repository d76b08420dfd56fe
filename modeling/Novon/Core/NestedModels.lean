import Novon.Core.ModelUtils

/-!
# Models with nested models

Instances of model classes whose fields hold scalars, `None` or instances of other model classes,
with `model_dump(exclude_unset=True)`, which turns nested instances into dictionaries, and
`model_copy(update=...)`, which does not validate.  What the scalar classes are is left open.
-/

namespace Novon

/-- A value of a field, with the scalars of `S`. -/
inductive ModelValue (S : Type) where
  | none
  | scalar (s : S)
  /-- An instance of a model class, with its fields and its `model_fields_set`. -/
  | model (cls : String) (fields : List (String × ModelValue S)) (fieldsSet : List String)
  | dict (entries : List (String × ModelValue S))

namespace ModelValue

variable {S : Type}

/-- `value is None`. -/
def isNone : ModelValue S → Bool
  | none => true
  | _ => false

/-- `isinstance(value, BaseModel)`. -/
def isModel : ModelValue S → Bool
  | model _ _ _ => true
  | _ => false

mutual

/-- A value in `model_dump(exclude_unset=True)`. -/
def dump : ModelValue S → ModelValue S
  | model _ fields fieldsSet => dict (dumpFields fieldsSet fields)
  | value => value

/-- The fields of an instance in `model_dump(exclude_unset=True)`, in declaration order. -/
def dumpFields (fieldsSet : List String) :
    List (String × ModelValue S) → List (String × ModelValue S)
  | [] => []
  | (name, value) :: fields =>
    if name ∈ fieldsSet then (name, dump value) :: dumpFields fieldsSet fields
    else dumpFields fieldsSet fields

end

/-- The fields that are dumped are those that were set. -/
theorem map_fst_dumpFields (fieldsSet : List String) (fields : List (String × ModelValue S)) :
    (dumpFields fieldsSet fields).map Prod.fst =
      (fields.map Prod.fst).filter fun name => name ∈ fieldsSet := by
  induction fields with
  | nil => simp [dumpFields]
  | cons f fields ih =>
    by_cases h : f.1 ∈ fieldsSet
    · simp [dumpFields, h, ih]
    · simp [dumpFields, h, ih]

theorem lookup_dumpFields (fieldsSet : List String) (fields : List (String × ModelValue S))
    (name : String) :
    Dict.lookup name (dumpFields fieldsSet fields) =
      if name ∈ fieldsSet then (Dict.lookup name fields).map dump else Option.none := by
  induction fields with
  | nil => simp [dumpFields, Dict.lookup]
  | cons f fields ih =>
    by_cases hset : f.1 ∈ fieldsSet <;> by_cases hname : f.1 = name
    · subst hname
      simp [dumpFields, Dict.lookup, hset]
    · simp [dumpFields, Dict.lookup, hset, hname, ih]
    · subst hname
      simp [dumpFields, hset, ih]
    · simp [dumpFields, Dict.lookup, hset, hname, ih]

end ModelValue

/-- An instance of a model class: its fields and its `model_fields_set`. -/
structure Instance (S : Type) where
  fields : Dict String (ModelValue S)
  fieldsSet : List String

namespace Instance

variable {S : Type}

/-- `model_dump(exclude_unset=True)`. -/
def modelDump (instance' : Instance S) : Dict String (ModelValue S) where
  entries := ModelValue.dumpFields instance'.fieldsSet instance'.fields.entries
  nodup_keys := by
    rw [ModelValue.map_fst_dumpFields]
    exact instance'.fields.nodup_keys.filter _

/-- `model_copy(update=update)`. -/
def modelCopy (instance' : Instance S) (update : Dict String (ModelValue S)) : Instance S where
  fields := instance'.fields.merge update
  fieldsSet := instance'.fieldsSet ++ update.keys

end Instance

/-- The classes that field types name. -/
structure Schemas (S : Type) where
  /-- `model_fields` of a model class, `none` for a scalar class. -/
  modelFields : String → Option (Dict String TypeHint)
  /-- `isinstance` of a scalar. -/
  isInstance : S → String → Bool

namespace Schemas

variable {S : Type} (schemas : Schemas S)

/-- The values of a field type. -/
inductive Has : ModelValue S → TypeHint → Prop
  | none : Has .none .noneType
  | scalar {s : S} {c : String} (hc : schemas.modelFields c = .none)
      (hs : schemas.isInstance s c = true) : Has (.scalar s) (.cls c)
  | model {c : String} {values : List (String × ModelValue S)} {fieldsSet : List String}
      {declared : Dict String TypeHint} (hc : schemas.modelFields c = some declared)
      (hkeys : ∀ name, declared.contains name = (Dict.lookup name values).isSome)
      (hvalues : ∀ name hint v, declared.get? name = some hint →
        Dict.lookup name values = some v → Has v hint) :
      Has (.model c values fieldsSet) (.cls c)
  | union {v : ModelValue S} {members : List TypeHint} {m : TypeHint} (hm : m ∈ members)
      (hv : Has v m) : Has v (.union members)

/-- An instance of the model with these fields, each holding a value of its declared type. -/
structure Valid (declared : Dict String TypeHint) (instance' : Instance S) : Prop where
  keys : ∀ name, instance'.fields.contains name = declared.contains name
  types : ∀ name hint v, declared.get? name = some hint →
    instance'.fields.get? name = some v → schemas.Has v hint

end Schemas

/-- A field type with its class, with or without an added `| None`. -/
inductive TypeHint.FieldOf : TypeHint → String → Prop
  | plain (c : String) : FieldOf (.cls c) c
  | optional (c : String) : FieldOf (.union [.cls c, .noneType]) c
  | noneFirst (c : String) : FieldOf (.union [.noneType, .cls c]) c

/-- Every field of the payload model is a field of the target model, of the same type up to an
added `| None`. -/
def Overlays (payload target : Dict String TypeHint) : Prop :=
  ∀ name p, payload.get? name = some p →
    ∃ t c, target.get? name = some t ∧ p.FieldOf c ∧ t.FieldOf c

end Novon
