/-!
# Type annotations

The annotations that `typehints.py` inspects.  `unwrapOptional` looks at the outermost constructor
only: it neither opens an `Annotated` nor follows a `type` alias.
-/

namespace Novon

/-- A type hint, as `unwrap_optional` and the decorators get it. -/
inductive TypeHint where
  /-- A class: `str`, `datetime`, a Pydantic model. -/
  | cls (name : String)
  /-- `type(None)`. -/
  | noneType
  /-- `Any`. -/
  | any
  /-- `A | B` or `Union[A, B]`. -/
  | union (members : List TypeHint)
  /-- `list[A]`. -/
  | listOf (item : TypeHint)
  /-- `Annotated[A, ...]`, which may be in the annotation of a model's field or in a response model.
  `typing.get_type_hints` leaves none, at whatever depth. -/
  | annotated (inner : TypeHint)
  /-- `type X = A`. -/
  | typeAlias (target : TypeHint)

namespace TypeHint

/-- `a is NONE_TYPE`. -/
def isNoneType : TypeHint → Bool
  | noneType => true
  | _ => false

/-- `unwrap_optional`: the inner type of a `Model | None` annotation, and whether the annotation
admits an absent value.  A union has a member other than `None`, so the first such member
exists; the default is never taken. -/
def unwrapOptional : TypeHint → TypeHint × Bool
  | union members =>
    if members.any isNoneType then
      ((members.find? fun a => !a.isNoneType).getD (union members), true)
    else (union members, false)
  | hint => (hint, false)

end TypeHint

end Novon
