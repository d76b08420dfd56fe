import Novon.Core.TypeHints
import Novon.Data.EraseDups
import Mathlib.Data.Set.Insert

/-!
# Annotations as they are spelled

An `AnnotationExpr` is written in the source, a `TypeHint` is the object that it evaluates to.
Python flattens a union of unions, drops the members that compare equal to an earlier one, takes a
union of one member for that member, and joins the metadata of an `Annotated` in an `Annotated`
(`build`).  It does none of this across an `Annotated`, a `list[...]` or a `type` alias.
The field of a Pydantic model hands its annotation on without an outermost `Annotated`, and
`typing.get_type_hints` without any; what is left is an annotation again.

What the values of a type are is said by a `Universe`.  Metadata and the name of an alias do not
change them.
-/

namespace Novon

/-- A type annotation as it is spelled, with the metadata of `M`. -/
inductive AnnotationExpr (M : Type) where
  | cls (name : String)
  /-- `None`. -/
  | noneType
  | any
  /-- `Union[A, ...]`, `A | ...` or `Optional[A]`. -/
  | union (args : List (AnnotationExpr M))
  | listOf (item : AnnotationExpr M)
  /-- `Annotated[A, ...]`. -/
  | annotated (inner : AnnotationExpr M) (metadata : List M)
  /-- The name of a statement `type X = A`. -/
  | typeAlias (name : String) (target : AnnotationExpr M)

namespace AnnotationExpr

variable {M : Type}

/-- Induction over the arguments of unions. -/
theorem induct {P : AnnotationExpr M → Prop} (hcls : ∀ name, P (cls name)) (hnone : P noneType)
    (hany : P any) (hunion : ∀ args, (∀ a ∈ args, P a) → P (union args))
    (hlist : ∀ item, P item → P (listOf item))
    (hannotated : ∀ inner metadata, P inner → P (annotated inner metadata))
    (halias : ∀ name target, P target → P (typeAlias name target)) (a : AnnotationExpr M) : P a :=
  @AnnotationExpr.rec M P (fun as => ∀ a ∈ as, P a) hcls hnone hany hunion hlist hannotated halias
    (fun _ ha => absurd ha List.not_mem_nil)
    (fun _ _ hhead htail => List.forall_mem_cons.mpr ⟨hhead, htail⟩) a

/-- `a is NONE_TYPE`. -/
def isNoneType : AnnotationExpr M → Bool
  | noneType => true
  | _ => false

mutual

/-- The annotation as a type hint, without what no type hint is inspected for. -/
def toHint : AnnotationExpr M → TypeHint
  | cls name => .cls name
  | noneType => .noneType
  | any => .any
  | union args => .union (toHints args)
  | listOf item => .listOf (toHint item)
  | annotated inner _ => .annotated (toHint inner)
  | typeAlias _ target => .typeAlias (toHint target)

def toHints : List (AnnotationExpr M) → List TypeHint
  | [] => []
  | a :: as => toHint a :: toHints as

end

/-! ### What Python builds -/

section Build

variable [BEq M]

mutual

/-- `a == b`: unions are compared as sets of members, aliases by the statement. -/
def same : AnnotationExpr M → AnnotationExpr M → Bool
  | cls m, cls n => m == n
  | noneType, noneType => true
  | any, any => true
  | union as, union bs => eachIn as bs && bs.all (oneIs as)
  | listOf a, listOf b => same a b
  | annotated a as, annotated b bs => same a b && as == bs
  | typeAlias m a, typeAlias n b => m == n && same a b
  | _, _ => false

/-- Every one of `as` is equal to one of `bs`. -/
def eachIn : List (AnnotationExpr M) → List (AnnotationExpr M) → Bool
  | [], _ => true
  | a :: as, bs => bs.any (same a) && eachIn as bs

/-- One of `as` is equal to `b`. -/
def oneIs : List (AnnotationExpr M) → AnnotationExpr M → Bool
  | [], _ => false
  | a :: as, b => same a b || oneIs as b

end

/-- What an annotation that is built already is to a union around it. -/
def members : AnnotationExpr M → List (AnnotationExpr M)
  | union args => args
  | a => [a]

/-- `Union[...]` of arguments that are no unions. -/
def unionOf (args : List (AnnotationExpr M)) : AnnotationExpr M :=
  match args.eraseDupsBy same with
  | [a] => a
  | as => union as

/-- `Annotated[...]` of an annotation that is built already. -/
def annotate : AnnotationExpr M → List M → AnnotationExpr M
  | annotated inner earlier, metadata => annotated inner (earlier ++ metadata)
  | inner, metadata => annotated inner metadata

mutual

/-- The annotation that Python builds from its parts. -/
def build : AnnotationExpr M → AnnotationExpr M
  | cls name => cls name
  | noneType => noneType
  | any => any
  | union args => unionOf (buildArgs args)
  | listOf item => listOf (build item)
  | annotated inner metadata => annotate (build inner) metadata
  | typeAlias name target => typeAlias name (build target)

/-- The arguments of a union, built and flattened. -/
def buildArgs : List (AnnotationExpr M) → List (AnnotationExpr M)
  | [] => []
  | a :: as => members (build a) ++ buildArgs as

end

/-- The type hint that the annotation evaluates to. -/
def evaluate (a : AnnotationExpr M) : TypeHint := a.build.toHint

end Build

/-! ### The parts of a union -/

mutual

/-- The arguments of a union and of the unions directly in it, from left to right. -/
def parts : AnnotationExpr M → List (AnnotationExpr M)
  | union args => partsOf args
  | a => [a]

def partsOf : List (AnnotationExpr M) → List (AnnotationExpr M)
  | [] => []
  | a :: as => parts a ++ partsOf as

end

/-- `None` is one of the parts. -/
def listsNone (a : AnnotationExpr M) : Bool := a.parts.any isNoneType

/-- The first part that is not `None`. -/
def firstOther (a : AnnotationExpr M) : Option (AnnotationExpr M) :=
  a.parts.find? fun b => !b.isNoneType

end AnnotationExpr

/-! ### Values -/

/-- The values of a program. -/
structure Universe (V : Type) where
  none : V
  /-- The instances of a class. -/
  instances : String → Set V
  /-- The items of a list. -/
  items : V → Option (List V)
  items_none : items none = Option.none

namespace Universe

variable {V M : Type} (U : Universe V)

mutual

/-- The values of a type. -/
def values : TypeHint → Set V
  | .cls name => U.instances name
  | .noneType => {U.none}
  | .any => Set.univ
  | .union members => valuesOfAny members
  | .listOf item => {v | ∃ vs, U.items v = some vs ∧ ∀ w ∈ vs, w ∈ values item}
  | .annotated inner => values inner
  | .typeAlias target => values target

def valuesOfAny : List TypeHint → Set V
  | [] => ∅
  | m :: ms => values m ∪ valuesOfAny ms

end

mutual

/-- Through unions, `Annotated` and aliases the annotation reaches no `None`, no `Any` and no
class that `None` is an instance of. -/
def NoneFree : AnnotationExpr M → Prop
  | .cls name => U.none ∉ U.instances name
  | .noneType => False
  | .any => False
  | .union args => AllNoneFree args
  | .listOf _ => True
  | .annotated inner _ => NoneFree inner
  | .typeAlias _ target => NoneFree target

def AllNoneFree : List (AnnotationExpr M) → Prop
  | [] => True
  | a :: as => NoneFree a ∧ AllNoneFree as

end

/-- `None` is one of the parts, and the first other part is free of `None` and has all the values
of the others. -/
structure Optional (a first : AnnotationExpr M) : Prop where
  listsNone : a.listsNone = true
  firstOther : a.firstOther = some first
  noneFree : U.NoneFree first
  covers : ∀ part ∈ a.parts, U.values part.toHint ⊆ insert U.none (U.values first.toHint)

/-- What `unwrap_optional` promises: whether `None` is a value of the annotation and, where it is,
a type of the other values. -/
structure Unwrapped [BEq M] (a : AnnotationExpr M) : Prop where
  admits : a.evaluate.unwrapOptional.2 = true ↔ U.none ∈ U.values a.toHint
  inner : a.evaluate.unwrapOptional.2 = true →
    U.values a.evaluate.unwrapOptional.1 = U.values a.toHint \ {U.none}

end Universe

end Novon
