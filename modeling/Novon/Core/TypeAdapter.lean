import Novon.Core.BaseClient
import Novon.Data.Cache
import Mathlib.Data.List.MinMax

/-!
# The cache of type adapters

`_type_adapter` and `_parse_response` of `base_client.py` with the cache that `@cache` keeps
between calls.  `BaseServiceClient.parseResponse` builds every adapter afresh.  A cached adapter
is represented by the response model it was built for.

`@cache` compares its argument with `==`, and a union compares equal to one with the same members
in another order (`same`).  Validation takes the leftmost of the members that match best
(`Matching.validate`).
-/

namespace Novon

/-- A response model: a class, a union, or a list of response models. -/
inductive ResponseModel where
  | cls (name : String)
  | noneType
  | union (members : List ResponseModel)
  | listOf (item : ResponseModel)

namespace ResponseModel

/-- Induction over the members of unions and the items of lists. -/
theorem induct {P : ResponseModel → Prop} (hcls : ∀ name, P (cls name)) (hnone : P noneType)
    (hunion : ∀ members, (∀ m ∈ members, P m) → P (union members))
    (hlist : ∀ item, P item → P (listOf item)) (m : ResponseModel) : P m :=
  @ResponseModel.rec P (fun ms => ∀ m ∈ ms, P m) hcls hnone hunion hlist
    (fun _ hm => absurd hm List.not_mem_nil)
    (fun _ _ hhead htail => List.forall_mem_cons.mpr ⟨hhead, htail⟩) m

mutual

/-- The model as a type hint. -/
def toHint : ResponseModel → TypeHint
  | cls name => .cls name
  | noneType => .noneType
  | union members => .union (toHints members)
  | listOf item => .listOf (toHint item)

def toHints : List ResponseModel → List TypeHint
  | [] => []
  | m :: ms => toHint m :: toHints ms

end

mutual

/-- The response model that a type hint is. -/
def ofHint : TypeHint → Option ResponseModel
  | .cls name => some (cls name)
  | .noneType => some noneType
  | .union members => (ofHints members).map union
  | .listOf item => (ofHint item).map listOf
  | .any | .annotated _ | .typeAlias _ => none

def ofHints : List TypeHint → Option (List ResponseModel)
  | [] => some []
  | m :: ms => (ofHint m).bind fun n => (ofHints ms).map (n :: ·)

end

theorem ofHint_toHint (m : ResponseModel) : ofHint m.toHint = some m := by
  induction m using induct with
  | hcls name => rfl
  | hnone => rfl
  | hunion members ih =>
    have h : ofHints (toHints members) = some members := by
      induction members with
      | nil => rfl
      | cons m ms ihms =>
        rw [toHints, ofHints, ih m (List.mem_cons_self ..),
          ihms fun m' hm' => ih m' (List.mem_cons_of_mem _ hm')]
        rfl
    rw [toHint, ofHint, h]
    rfl
  | hlist item ih =>
    rw [toHint, ofHint, ih]
    rfl

mutual

/-- `a == b`: unions are compared as sets of members. -/
def same : ResponseModel → ResponseModel → Bool
  | cls a, cls b => a == b
  | noneType, noneType => true
  | union ms, union ns => eachIn ms ns && ns.all (oneIs ms)
  | listOf a, listOf b => same a b
  | _, _ => false

/-- Every one of `ms` is equal to one of `ns`. -/
def eachIn : List ResponseModel → List ResponseModel → Bool
  | [], _ => true
  | m :: ms, ns => ns.any (same m) && eachIn ms ns

/-- One of `ms` is equal to `n`. -/
def oneIs : List ResponseModel → ResponseModel → Bool
  | [], _ => false
  | m :: ms, n => same m n || oneIs ms n

end

end ResponseModel

/-- How validation matches a JSON value against a class or `None`: how well, and to which value.
Of the members of a union the best match wins, and the leftmost of equally good ones. -/
structure Matching (J V Rank : Type) where
  cls : String → J → Option (Rank × V)
  noneType : J → Option (Rank × V)
  /-- The items of a JSON array. -/
  items : J → Option (List J)
  /-- How well a list is matched whose items are matched so well. -/
  listRank : List Rank → Rank
  ofList : List V → V
  ofList_injective : Function.Injective ofList

namespace Matching

variable {J V Rank : Type} [LinearOrder Rank] (M : Matching J V Rank)

mutual

/-- `TypeAdapter(model).validate_python(value)` with how well the value matches. -/
def validate : ResponseModel → J → Option (Rank × V)
  | .cls name, value => M.cls name value
  | .noneType, value => M.noneType value
  | .union members, value =>
    ((candidates members value).argmax fun c => c.2.1).map Prod.snd
  | .listOf item, value =>
    (M.items value).bind fun values =>
      (values.mapM (validate item)).map fun rs =>
        (M.listRank (rs.map Prod.fst), M.ofList (rs.map Prod.snd))

/-- The members that match, each with its match, from left to right. -/
def candidates : List ResponseModel → J → List (ResponseModel × Rank × V)
  | [], _ => []
  | m :: ms, value => ((validate m value).map (m, ·)).toList ++ candidates ms value

end

/-- The member of a union that is taken, with its match: the leftmost of the best. -/
def leader (members : List ResponseModel) (value : J) : Option (ResponseModel × Rank × V) :=
  (M.candidates members value).argmax fun c => c.2.1

/-- Two models that differ in the order of union members disagree on this value: in some union
that the value reaches, two members match best with different values, and each comes first in one
of the two orders. -/
inductive Contested : ResponseModel → ResponseModel → J → Prop
  | tie {ms ns : List ResponseModel} {value : J} {c d : ResponseModel × Rank × V}
      (hc : M.leader ms value = some c) (hd : M.leader ns value = some d)
      (hother : c.1.same d.1 = false) (hne : c.2.2 ≠ d.2.2) :
      Contested (.union ms) (.union ns) value
  | member {ms ns : List ResponseModel} {value : J} {c d : ResponseModel × Rank × V}
      (hc : M.leader ms value = some c) (hd : M.leader ns value = some d)
      (hsame : c.1.same d.1 = true) (h : Contested c.1 d.1 value) :
      Contested (.union ms) (.union ns) value
  | item {s t : ResponseModel} {value item : J} {values : List J}
      (hvalues : M.items value = some values)
      (hmatch : ∀ v ∈ values, (M.validate s v).isSome = true)
      (hitem : item ∈ values) (h : Contested s t item) :
      Contested (.listOf s) (.listOf t) value

/-- A codec whose adapters for response models validate by this matching. -/
def codec (decoder : TextDecoder) (loads : Bytes → Except DecodeError J) : Codec J V where
  toTextDecoder := decoder
  loads := loads
  validatePython hint value :=
    (ResponseModel.ofHint hint).bind fun m => (M.validate m value).map Prod.snd

end Matching

/-- What a concrete validation gives: an instance of a class, `None`, or a list. -/
inductive Parsed where
  | ofClass (name : String)
  | none
  | list (items : List Parsed)

/-- A matching in which every JSON value is an object that all classes match equally well. -/
def Matching.sample : Matching Unit Parsed ℕ where
  cls := fun name _ => some (0, .ofClass name)
  noneType := fun _ => none
  items := fun _ => none
  listRank := fun _ => 0
  ofList := .list
  ofList_injective := fun _ _ h => Parsed.list.inj h

/-- The adapters of the codec validate by the matching. -/
def Codec.Follows {J V Rank : Type} [LinearOrder Rank] (codec : Codec J V)
    (M : Matching J V Rank) : Prop :=
  ∀ (m : ResponseModel) (value : J),
    codec.validatePython m.toHint value = (M.validate m value).map Prod.snd

theorem Matching.codec_follows {J V Rank : Type} [LinearOrder Rank] (M : Matching J V Rank)
    (decoder : TextDecoder) (loads : Bytes → Except DecodeError J) :
    (M.codec decoder loads).Follows M := by
  intro m value
  show ((ResponseModel.ofHint m.toHint).bind fun m => (M.validate m value).map Prod.snd) = _
  rw [ResponseModel.ofHint_toHint, Option.bind_some]

namespace BaseServiceClient

variable {J V : Type} (codec : Codec J V)

/-- `_type_adapter`: the model whose adapter is returned, and the models adapted so far. -/
def typeAdapter (model : ResponseModel) (adapters : List ResponseModel) :
    ResponseModel × List ResponseModel :=
  Cache.fetch ResponseModel.same model adapters

/-- One call of `_parse_response`. -/
structure Parse where
  response : Response
  responseModel : Option ResponseModel

/-- `_parse_response`, with the models adapted so far. -/
def parseResponseCached (call : Parse) (adapters : List ResponseModel) :
    Except Raised (Result V) × List ResponseModel :=
  match call.responseModel with
  | none => (.ok (.response call.response), adapters)
  | some .noneType => (.ok .none, adapters)
  | some model =>
    if (TypeHint.unwrapOptional model.toHint).2 && call.response.content.isEmpty then
      (.ok .none, adapters)
    else
      -- the adapter is fetched before the body is decoded
      let fetched := typeAdapter model adapters
      (validateJson codec fetched.1.toHint call.response, fetched.2)

/-- `_parse_response` with an adapter built for this call. -/
def parseResponseFresh (call : Parse) : Except Raised (Result V) :=
  parseResponse codec call.response (call.responseModel.map ResponseModel.toHint)

/-- The model whose adapter a call asks for. -/
def consulted (call : Parse) : Option ResponseModel :=
  match call.responseModel with
  | none => none
  | some .noneType => none
  | some model =>
    if (TypeHint.unwrapOptional model.toHint).2 && call.response.content.isEmpty then none
    else some model

/-- The first model equal to this one that was adapted in the earlier calls. -/
def firstAdapted (earlier : List Parse) (model : ResponseModel) : Option ResponseModel :=
  (earlier.filterMap consulted).find? model.same

/-- An equal model was adapted before, and this call's body makes the order of the members
matter between the two. -/
def Disturbed {Rank : Type} [LinearOrder Rank] (M : Matching J V Rank) (earlier : List Parse)
    (call : Parse) : Prop :=
  ∃ model first value, consulted call = some model ∧ firstAdapted earlier model = some first ∧
    codec.loads call.response.content = .ok value ∧ M.Contested model first value

end BaseServiceClient

end Novon
