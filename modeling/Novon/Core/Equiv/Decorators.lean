import Novon.Core.Decorators
import Novon.Core.Equiv.Signature
import Novon.Data.Equiv.Format

/-!
# What a decorated method does

`buildSpec_eq_ok_iff` says when a method is accepted and with which specification.
`wrapper_eq_ok_iff` says when a call of an accepted method reaches `self.request` and with what:
the destructive pops of the wrapper come to plain lookups in the bound arguments (`requestCall`),
because the parameters that they take are distinct.
-/

namespace Novon.Decorators

variable (python : Python) (classes : Classes)

/-! ### Decoration -/

/-- The specification of an accepted method. -/
def specOf (method path : String) (func : Func) (hints : Dict String TypeHint)
    (returns : TypeHint) : EndpointSpec where
  method
  pathTemplate := path
  pathParams := placeholders python path.toList
  bodyParam := (bodyParams python classes path func hints).head?
  queryParams := (wireParams func).filter fun name =>
    name ∉ placeholders python path.toList &&
      some name ≠ (bodyParams python classes path func hints).head?
  responseType := returns
  partialUpdate := method ∈ partialUpdateMethods

/-- What an accepted method satisfies. -/
structure Accepted (method path : String) (func : Func) (hints : Dict String TypeHint) :
    Prop where
  supported : method ∈ supportedMethods
  resolved : func.hints = .ok hints
  declared : ∀ name ∈ placeholders python path.toList, name ∈ wireParams func
  one_body : (bodyParams python classes path func hints).length ≤ 1
  body_iff : method ∈ bodyMethods ↔ (bodyParams python classes path func hints).head? ≠ none

/-- **Inversion of `_build_spec`.** -/
theorem buildSpec_eq_ok_iff {method path : String} {func : Func} {spec : EndpointSpec} :
    buildSpec python classes method path func = .ok spec ↔
      ∃ hints returns, Accepted python classes method path func hints ∧
        hints.get? "return" = some returns ∧
        spec = specOf python classes method path func hints returns := by
  constructor
  · intro h
    unfold buildSpec at h
    -- one split for each check, in the order of the source
    split at h
    · cases h
    next hmethod =>
    split at h
    · cases h
    next hints hhints =>
    split at h
    · cases h
    next returns hreturns =>
    dsimp only at h
    split at h
    · cases h
    next hmissing =>
    split at h
    · cases h
    next hone =>
    split at h
    · cases h
    next hbody =>
    split at h
    · cases h
    next hnobody =>
    refine ⟨hints, returns, ⟨not_not.mp hmethod, hhints, ?_, not_lt.mp hone, ?_⟩, hreturns,
      (Except.ok.inj h).symm⟩
    · intro name hname
      by_contra hwire
      have hmem : name ∈ (placeholders python path.toList).filter (· ∉ wireParams func) :=
        List.mem_filter.mpr ⟨hname, by simpa using hwire⟩
      exact hmissing (List.ne_nil_of_mem hmem)
    · constructor
      · intro hmem hnone
        exact hbody ⟨hmem, hnone⟩
      · intro hsome
        by_contra hmem
        exact hnobody ⟨hmem, hsome⟩
  · rintro ⟨hints, returns, ⟨hmethod, hhints, hdeclared, hone, hbody⟩, hreturns, rfl⟩
    have hmissing : (placeholders python path.toList).filter (· ∉ wireParams func) = [] := by
      rw [List.filter_eq_nil_iff]
      intro name hname
      simpa using hdeclared name hname
    have hnone : ¬(method ∈ bodyMethods ∧
        (bodyParams python classes path func hints).head? = none) := by
      rintro ⟨hmem, hnone⟩
      exact hbody.mp hmem hnone
    have hsome : ¬(method ∉ bodyMethods ∧
        (bodyParams python classes path func hints).head? ≠ none) := by
      rintro ⟨hmem, hsome⟩
      exact hmem (hbody.mpr hsome)
    unfold buildSpec
    rw [if_neg (not_not.mpr hmethod), hhints]
    simp only [hreturns, hmissing, ne_eq, not_true_eq_false, ↓reduceIte, not_lt.mpr hone]
    rw [if_neg hnone, if_neg hsome]
    rfl

/-- The body parameter is the only one whose annotation is a model class, placeholders apart. -/
theorem head?_bodyParams {method path : String} {func : Func} {hints : Dict String TypeHint}
    (h : Accepted python classes method path func hints) {name : String} :
    (bodyParams python classes path func hints).head? = some name ↔
      name ∈ wireParams func ∧ name ∉ placeholders python path.toList ∧
        isModelClass classes (hints.get? name) = true := by
  have hmem : name ∈ bodyParams python classes path func hints ↔
      name ∈ wireParams func ∧ name ∉ placeholders python path.toList ∧
        isModelClass classes (hints.get? name) = true := by
    rw [bodyParams, List.mem_filter, Bool.and_eq_true_iff, decide_eq_true_iff]
  -- there is at most one, so the first is each of them
  have hone := h.one_body
  rw [← hmem]
  match hbodies : bodyParams python classes path func hints, hone with
  | [], _ => simp
  | [b], _ => simp [eq_comm]

/-- How the parameters of an accepted method are classified. -/
structure Classified (func : Func) (spec : EndpointSpec) : Prop where
  path_mem : ∀ name ∈ spec.pathParams, name ∈ wireParams func
  body_mem : ∀ name, spec.bodyParam = some name →
    name ∈ wireParams func ∧ name ∉ spec.pathParams
  query_eq : spec.queryParams = (wireParams func).filter fun name =>
    name ∉ spec.pathParams && some name ≠ spec.bodyParam

theorem pathParams_of_buildSpec {method path : String} {func : Func} {spec : EndpointSpec}
    (h : buildSpec python classes method path func = .ok spec) :
    spec.pathParams = placeholders python path.toList := by
  obtain ⟨hints, returns, -, -, rfl⟩ := (buildSpec_eq_ok_iff python classes).mp h
  rfl

theorem pathTemplate_of_buildSpec {method path : String} {func : Func} {spec : EndpointSpec}
    (h : buildSpec python classes method path func = .ok spec) : spec.pathTemplate = path := by
  obtain ⟨hints, returns, -, -, rfl⟩ := (buildSpec_eq_ok_iff python classes).mp h
  rfl

theorem classified_of_buildSpec {method path : String} {func : Func} {spec : EndpointSpec}
    (h : buildSpec python classes method path func = .ok spec) : Classified func spec := by
  obtain ⟨hints, returns, haccepted, -, rfl⟩ := (buildSpec_eq_ok_iff python classes).mp h
  refine ⟨haccepted.declared, ?_, rfl⟩
  intro name hname
  have hmem : name ∈ bodyParams python classes path func hints := List.mem_of_head? hname
  have hfilter := List.mem_filter.mp hmem
  exact ⟨hfilter.1, of_decide_eq_true (Bool.and_eq_true_iff.mp hfilter.2).1⟩

/-! ### Path arguments -/

variable {python}

/-- The text of an argument that the wrapper accepts in the path. -/
def pathText (arguments : Dict String Value) (name : String) : Option String :=
  (arguments.get? name).bind fun value => if value.isNone then none else value.text.toOption

/-- What is substituted for the placeholders. -/
def encodedArguments (arguments : Dict String Value) (names : List String) :
    List (String × String) :=
  names.filterMap fun name =>
    (pathText arguments name).map fun text => (name, Percent.quote text)

theorem pathText_pop (arguments : Dict String Value) (k name : String) :
    pathText (arguments.pop k) name = if name = k then none else pathText arguments name := by
  rw [pathText, Dict.get?_pop]
  split
  · rfl
  · rfl

theorem encodedArguments_pop {arguments : Dict String Value} {k : String} {names : List String}
    (h : k ∉ names) :
    encodedArguments (arguments.pop k) names = encodedArguments arguments names := by
  apply List.filterMap_congr
  intro name hname
  have hne : name ≠ k := fun he => h (he ▸ hname)
  rw [pathText_pop, if_neg hne]

theorem get?_foldl_pop (names : List String) (arguments : Dict String Value) (k : String) :
    (names.foldl Dict.pop arguments).get? k = if k ∈ names then none else arguments.get? k := by
  induction names generalizing arguments with
  | nil => simp
  | cons name names ih =>
    rw [List.foldl_cons, ih, Dict.get?_pop]
    by_cases hk : k = name
    · simp [hk]
    · simp [hk]

theorem pathText_of_get? {arguments : Dict String Value} {name : String} {value : Value}
    (hvalue : arguments.get? name = some value) (hne : value ≠ .none) :
    pathText arguments name = value.text.toOption := by
  cases value with
  | none => exact absurd rfl hne
  | object text dump => rw [pathText, hvalue]; rfl
  | model text fields unserialisable => rw [pathText, hvalue]; rfl
  | container text items => rw [pathText, hvalue]; rfl

/-- The first argument is encoded, and taken away before the others are. -/
theorem encodedArguments_cons {arguments : Dict String Value} {name text : String}
    {names : List String} (htext : pathText arguments name = some text) (hname : name ∉ names) :
    encodedArguments arguments (name :: names) =
      (name, Percent.quote text) :: encodedArguments (arguments.pop name) names := by
  rw [encodedArguments_pop hname, encodedArguments, List.filterMap_cons, htext]
  rfl

theorem forall_pathText_pop_iff {arguments : Dict String Value} {name : String}
    {names : List String} (hname : name ∉ names) :
    (∀ k ∈ names, (pathText (arguments.pop name) k).isSome) ↔
      ∀ k ∈ names, (pathText arguments k).isSome := by
  refine forall₂_congr fun k hk => ?_
  have hkname : k ≠ name := fun he => hname (he ▸ hk)
  rw [pathText_pop, if_neg hkname]

/-- **The path loop.** It takes each path argument once, so a placeholder that occurs twice fails
the second time. -/
theorem bindPath_eq_ok_iff {func : Func} {names : List String} {arguments : Dict String Value}
    {vars : Dict String String} {result : Dict String String × Dict String Value} :
    bindPath python func names arguments vars = .ok result ↔
      names.Nodup ∧ (∀ name ∈ names, (pathText arguments name).isSome) ∧
        result = ((encodedArguments arguments names).foldl (fun d e => d.set e.1 e.2) vars,
          names.foldl Dict.pop arguments) := by
  induction names generalizing arguments vars with
  | nil =>
    rw [bindPath, Except.ok.injEq]
    constructor
    · rintro rfl
      exact ⟨List.nodup_nil, by simp, rfl⟩
    · rintro ⟨-, -, rfl⟩
      rfl
  | cons name names ih =>
    rw [List.nodup_cons, List.forall_mem_cons, bindPath]
    split
    · next hvalue =>
      have hnone : pathText arguments name = none := by simp [pathText, hvalue]
      simp [hnone]
    · next hvalue =>
      have hnone : pathText arguments name = none := by simp [pathText, hvalue, Value.isNone]
      simp [hnone]
    · next value hne hvalue =>
      have hpath := pathText_of_get? hvalue hne
      cases htext : value.text with
      | error exc => simp [hpath, htext, Except.toOption]
      | ok text =>
        rw [ih]
        have hpath : pathText arguments name = some text := by rw [hpath, htext]; rfl
        have hsome : (pathText arguments name).isSome := by rw [hpath]; rfl
        constructor
        · rintro ⟨hnodup, hpresent, rfl⟩
          -- the argument is gone after its first use, so the name does not occur again
          have hname : name ∉ names := by
            intro hmem
            have hpop := hpresent name hmem
            rw [pathText_pop, if_pos rfl] at hpop
            cases hpop
          refine ⟨⟨hname, hnodup⟩, ⟨hsome, (forall_pathText_pop_iff hname).mp hpresent⟩, ?_⟩
          rw [encodedArguments_cons hpath hname, List.foldl_cons, List.foldl_cons]
        · rintro ⟨⟨hname, hnodup⟩, ⟨-, hpresent⟩, rfl⟩
          refine ⟨hnodup, (forall_pathText_pop_iff hname).mpr hpresent, ?_⟩
          rw [encodedArguments_cons hpath hname, List.foldl_cons, List.foldl_cons]

/-- What formatting looks names up in. -/
def pathVars (arguments : Dict String Value) (names : List String) : Dict String String :=
  .ofList (encodedArguments arguments names)

theorem map_fst_encodedArguments {arguments : Dict String Value} {names : List String}
    (h : ∀ name ∈ names, (pathText arguments name).isSome) :
    (encodedArguments arguments names).map Prod.fst = names := by
  induction names with
  | nil => rfl
  | cons name names ih =>
    obtain ⟨hname, hnames⟩ := List.forall_mem_cons.mp h
    obtain ⟨text, htext⟩ := Option.isSome_iff_exists.mp hname
    rw [encodedArguments, List.filterMap_cons, htext]
    show name :: (encodedArguments arguments names).map Prod.fst = _
    rw [ih hnames]

theorem get?_pathVars {arguments : Dict String Value} {names : List String}
    (hnodup : names.Nodup) (h : ∀ name ∈ names, (pathText arguments name).isSome) (name : String) :
    (pathVars arguments names).get? name =
      if name ∈ names then (pathText arguments name).map Percent.quote else none := by
  have hkeys := map_fst_encodedArguments h
  rw [pathVars, Dict.get?_ofList (hkeys.symm ▸ hnodup)]
  by_cases hname : name ∈ names
  · obtain ⟨text, htext⟩ := Option.isSome_iff_exists.mp (h name hname)
    rw [if_pos hname, htext, Option.map_some, Dict.lookup_eq_some_iff (hkeys.symm ▸ hnodup),
      encodedArguments, List.mem_filterMap]
    exact ⟨name, hname, by rw [htext]; rfl⟩
  · rw [if_neg hname, Dict.lookup_eq_none_iff, hkeys]
    exact hname

/-! ### Body and query -/

/-- The query arguments that are sent. -/
def queryArguments (arguments : Dict String Value) (names : List String) :
    List (String × Value) :=
  names.filterMap fun name =>
    ((arguments.get? name).filter fun value => !value.isNone).map (name, ·)

theorem queryArguments_congr {arguments arguments' : Dict String Value} {names : List String}
    (h : ∀ name ∈ names, arguments.get? name = arguments'.get? name) :
    queryArguments arguments names = queryArguments arguments' names := by
  apply List.filterMap_congr
  intro name hname
  rw [h name hname]

theorem bindQuery_eq {names : List String} (hnodup : names.Nodup)
    (arguments : Dict String Value) :
    bindQuery names arguments = queryArguments arguments names := by
  induction names generalizing arguments with
  | nil => rfl
  | cons name names ih =>
    obtain ⟨hname, hnodup⟩ := List.nodup_cons.mp hnodup
    rw [bindQuery, queryArguments, List.filterMap_cons, ← queryArguments]
    split
    · next hvalue =>
      rw [ih hnodup, hvalue]
      rfl
    · next hvalue =>
      rw [ih hnodup, hvalue]
      rfl
    · next value hne hvalue =>
      have hpop : queryArguments (arguments.pop name) names = queryArguments arguments names := by
        apply queryArguments_congr
        intro k hk
        have hkname : k ≠ name := fun he => hname (he ▸ hk)
        rw [Dict.get?_pop, if_neg hkname]
      have hsome : value.isNone = false := by
        cases value with
        | none => exact absurd rfl hne
        | object text dump => rfl
        | model text fields unserialisable => rfl
        | container text items => rfl
      have hkept : (some value).filter (fun value => !value.isNone) = some value := by
        rw [Option.filter, hsome]
        rfl
      rw [ih hnodup, hpop, hvalue, hkept]
      rfl

theorem mem_queryArguments {arguments : Dict String Value} {names : List String} {name : String}
    {v : Value} :
    (name, v) ∈ queryArguments arguments names ↔
      name ∈ names ∧ arguments.get? name = some v ∧ v.isNone = false := by
  rw [queryArguments, List.mem_filterMap]
  constructor
  · rintro ⟨k, hk, heq⟩
    obtain ⟨value, hvalue, hpair⟩ := Option.map_eq_some_iff.mp heq
    cases hpair
    obtain ⟨hget, hsome⟩ := Option.filter_eq_some_iff.mp hvalue
    exact ⟨hk, hget, by simpa using hsome⟩
  · rintro ⟨hname, hget, hsome⟩
    refine ⟨name, hname, Option.map_eq_some_iff.mpr ⟨v, ?_, rfl⟩⟩
    exact Option.filter_eq_some_iff.mpr ⟨hget, by simpa using hsome⟩

/-- The query arguments are in the order of their parameters. -/
theorem map_fst_queryArguments_sublist (arguments : Dict String Value) (names : List String) :
    ((queryArguments arguments names).map Prod.fst).Sublist names := by
  induction names with
  | nil => exact List.Sublist.slnil
  | cons name names ih =>
    rw [queryArguments, List.filterMap_cons, ← queryArguments]
    cases (arguments.get? name).filter fun value => !value.isNone with
    | none => exact ih.cons name
    | some v => exact ih.cons_cons name

/-- The body of a call, or what `model_dump` raises on it. -/
def bodyArgument (spec : EndpointSpec) (arguments : Dict String Value) :
    Except Raised (Option Body) :=
  match spec.bodyParam.bind arguments.get? with
  | none => .ok none
  | some value => jsonBody spec.partialUpdate value

/-- The body argument can be dumped, if there is one. -/
def BodyDumps (spec : EndpointSpec) (arguments : Dict String Value) : Prop :=
  ∃ json, bodyArgument spec arguments = .ok json

theorem bodyArgument_of_get? {spec : EndpointSpec} {arguments : Dict String Value} {name : String}
    {value : Value} (hname : spec.bodyParam = some name) (hget : arguments.get? name = some value) :
    bodyArgument spec arguments = jsonBody spec.partialUpdate value := by
  rw [bodyArgument, hname, Option.bind_some, hget]

/-- The body of a model that can be dumped. -/
theorem eq_of_jsonBody_model {partialUpdate : Bool} {text : Except Raised String}
    {fields : Dict String (OptField FieldValue)} {unserialisable : Bool → Option Raised}
    {json : Option Body}
    (h : jsonBody partialUpdate (.model text fields unserialisable) = .ok json) :
    json = some (.dumped (.object (modelDump partialUpdate fields.entries))) := by
  simp only [jsonBody, Value.modelDump?] at h
  cases hraises : unserialisable partialUpdate with
  | some exc =>
    rw [hraises] at h
    cases h
  | none =>
    rw [hraises] at h
    exact (Except.ok.inj h).symm

theorem bodyDumps_of_bodyParam_eq_none {spec : EndpointSpec} {arguments : Dict String Value}
    (h : spec.bodyParam = none) : BodyDumps spec arguments := by
  refine ⟨none, ?_⟩
  rw [bodyArgument, h]
  rfl

/-- The call of `self.request` with the bound arguments, the formatted path and the body. -/
def requestCall (func : Func) (spec : EndpointSpec) (arguments : Dict String Value)
    (path : String) (json : Option Body) : RequestCall where
  method := spec.method
  path
  ctx := arguments.getD "ctx" .none
  json
  params :=
    if (queryArguments arguments spec.queryParams).isEmpty then none
    else some (.ofList (queryArguments arguments spec.queryParams))
  responseModel := (resolveReturnContract func).2
  expectsNone := (resolveReturnContract func).1

/-! ### The whole wrapper -/

/-- The call binds to the signature, with the given arguments. -/
def Binds (python : Python) (func : Func) (call : Call) (arguments : Dict String Value) : Prop :=
  call.kwargs.contains "self" = false ∧
    func.bind python (call.receiver :: call.args) call.kwargs = some arguments

theorem mem_wireParams {func : Func} {name : String} :
    name ∈ wireParams func ↔
      name ∈ func.parameters.map Parameter.name ∧ name ≠ "self" ∧ name ≠ "ctx" := by
  simp [wireParams]

/-- The sent query parameters are the query arguments. -/
theorem entries_params {func : Func} {spec : EndpointSpec} (hnodup : spec.queryParams.Nodup)
    {arguments params : Dict String Value} {path : String} {json : Option Body}
    (h : (requestCall func spec arguments path json).params = some params) :
    params.entries = queryArguments arguments spec.queryParams := by
  have hkeys := hnodup.sublist (map_fst_queryArguments_sublist arguments spec.queryParams)
  unfold requestCall at h
  dsimp only at h
  split at h
  · cases h
  · obtain rfl := Option.some.inj h
    exact Dict.entries_ofList hkeys

/-- What the wrapper takes out of the arguments before the path. -/
def wireArguments (arguments : Dict String Value) : Dict String Value :=
  (arguments.pop "self").pop "ctx"

theorem get?_wireArguments {func : Func} (arguments : Dict String Value) {name : String}
    (h : name ∈ wireParams func) : (wireArguments arguments).get? name = arguments.get? name := by
  obtain ⟨-, hself, hctx⟩ := mem_wireParams.mp h
  rw [wireArguments, Dict.get?_pop, if_neg hctx, Dict.get?_pop, if_neg hself]

/-- The arguments that the path loop leaves. -/
def afterPath (spec : EndpointSpec) (arguments : Dict String Value) : Dict String Value :=
  spec.pathParams.foldl Dict.pop (wireArguments arguments)

theorem get?_afterPath {func : Func} {spec : EndpointSpec} (arguments : Dict String Value)
    {name : String} (hwire : name ∈ wireParams func) (hpath : name ∉ spec.pathParams) :
    (afterPath spec arguments).get? name = arguments.get? name := by
  rw [afterPath, get?_foldl_pop, if_neg hpath, get?_wireArguments arguments hwire]

theorem nodup_queryParams {func : Func} {spec : EndpointSpec} (h : Classified func spec) :
    spec.queryParams.Nodup := by
  rw [h.query_eq]
  exact (func.nodup_names.filter _).filter _

theorem mem_queryParams {func : Func} {spec : EndpointSpec} (h : Classified func spec)
    {name : String} :
    name ∈ spec.queryParams ↔
      name ∈ wireParams func ∧ name ∉ spec.pathParams ∧ some name ≠ spec.bodyParam := by
  rw [h.query_eq, List.mem_filter, Bool.and_eq_true_iff, decide_eq_true_iff, decide_eq_true_iff]

variable {func : Func} {spec : EndpointSpec} {arguments : Dict String Value}

/-- After the path and the body are taken, the query arguments are all there. -/
theorem bindQuery_afterPath (h : Classified func spec) (rest : Dict String Value)
    (hrest : ∀ name ∈ spec.queryParams,
      rest.get? name = (afterPath spec arguments).get? name) :
    bindQuery spec.queryParams rest = queryArguments arguments spec.queryParams := by
  rw [bindQuery_eq (nodup_queryParams h)]
  apply queryArguments_congr
  intro name hname
  obtain ⟨hwire, hpath, -⟩ := (mem_queryParams h).mp hname
  rw [hrest name hname, get?_afterPath arguments hwire hpath]

/-- The body is taken without a `KeyError`. -/
theorem bindBody_afterPath (h : Classified func spec)
    (hbound : ∀ name ∈ func.parameters.map Parameter.name, arguments.contains name = true) :
    ∃ rest, bindBody spec (afterPath spec arguments) =
        ((bodyArgument spec arguments).mapError .dump).map (·, rest) ∧
      ∀ name ∈ spec.queryParams, rest.get? name = (afterPath spec arguments).get? name := by
  unfold bindBody
  cases hbody : spec.bodyParam with
  | none =>
    refine ⟨afterPath spec arguments, ?_, fun _ _ => rfl⟩
    rw [bodyArgument, hbody]
    rfl
  | some b =>
    -- the body parameter is no placeholder, so the path loop has left its argument
    obtain ⟨hwire, hpath⟩ := h.body_mem b hbody
    obtain ⟨value, hvalue⟩ := Dict.contains_iff.mp (hbound b (mem_wireParams.mp hwire).1)
    have hafter := get?_afterPath arguments hwire hpath
    refine ⟨(afterPath spec arguments).pop b, ?_, ?_⟩
    · simp only [hafter, hvalue, bodyArgument_of_get? hbody hvalue]
      rfl
    · intro name hname
      have hne : name ≠ b := by
        rintro rfl
        exact ((mem_queryParams h).mp hname).2.2 hbody.symm
      rw [Dict.get?_pop, if_neg hne]

theorem pathText_wireArguments (h : Classified func spec) {name : String}
    (hname : name ∈ spec.pathParams) :
    pathText (wireArguments arguments) name = pathText arguments name := by
  rw [pathText, get?_wireArguments arguments (h.path_mem name hname), ← pathText]

theorem encodedArguments_wireArguments (h : Classified func spec) :
    encodedArguments (wireArguments arguments) spec.pathParams =
      encodedArguments arguments spec.pathParams := by
  apply List.filterMap_congr
  intro name hname
  rw [pathText_wireArguments h hname]

/-- The path of a call with the given arguments: the path loop and the formatting. -/
def formattedPath (python : Python) (func : Func) (spec : EndpointSpec)
    (arguments : Dict String Value) : Except CallError String :=
  bindPath python func spec.pathParams (wireArguments arguments) .empty >>= fun r =>
    formatPath python spec r.1

theorem formattedPath_eq_ok_iff (h : Classified func spec) {path : String} :
    formattedPath python func spec arguments = .ok path ↔
      spec.pathParams.Nodup ∧ (∀ name ∈ spec.pathParams, (pathText arguments name).isSome) ∧
        Format.formatMap python.toLib (pathVars arguments spec.pathParams) spec.pathTemplate =
          .ok path := by
  have hpresent : (∀ name ∈ spec.pathParams,
      (pathText (wireArguments arguments) name).isSome) ↔
        ∀ name ∈ spec.pathParams, (pathText arguments name).isSome := by
    refine forall₂_congr fun name hname => ?_
    rw [pathText_wireArguments h hname]
  have hformat : formatPath python spec ((encodedArguments (wireArguments arguments)
      spec.pathParams).foldl (fun d e => d.set e.1 e.2) .empty) = .ok path ↔
        Format.formatMap python.toLib (pathVars arguments spec.pathParams) spec.pathTemplate =
          .ok path := by
    rw [formatPath, mapError_eq_ok_iff, encodedArguments_wireArguments h, ← Dict.ofList,
      ← pathVars]
  rw [formattedPath, bind_eq_ok_iff]
  constructor
  · rintro ⟨r, hpath, hformatted⟩
    obtain ⟨hnodup, htexts, rfl⟩ := bindPath_eq_ok_iff.mp hpath
    exact ⟨hnodup, hpresent.mp htexts, hformat.mp hformatted⟩
  · rintro ⟨hnodup, htexts, hformatted⟩
    exact ⟨_, bindPath_eq_ok_iff.mpr ⟨hnodup, hpresent.mpr htexts, rfl⟩, hformat.mpr hformatted⟩

/-- A call that binds formats the path, dumps the body and makes one call of `self.request`. -/
theorem wrapper_eq (h : Classified func spec) {call : Call}
    (hbinds : Binds python func call arguments) :
    wrapper python func spec call =
      (formattedPath python func spec arguments >>= fun path =>
        (bodyArgument spec arguments).mapError .dump >>= fun json =>
          .ok (requestCall func spec arguments path json)) := by
  obtain ⟨hself, hbind⟩ := hbinds
  have hbound : ∀ name ∈ func.parameters.map Parameter.name, arguments.contains name = true :=
    fun name hname => (Func.contains_bind hbind).mpr hname
  obtain ⟨rest, hbody, hrest⟩ := bindBody_afterPath h hbound
  have hctx : (arguments.pop "self").getD "ctx" Value.none = arguments.getD "ctx" Value.none := by
    rw [Dict.getD, Dict.get?_pop, if_neg (by decide)]
    rfl
  unfold wrapper
  rw [hself, hbind]
  simp only [Bool.false_eq_true, ↓reduceIte]
  show (bindPath python func spec.pathParams (wireArguments arguments) .empty >>= _) = _
  rw [formattedPath]
  cases hpath : bindPath python func spec.pathParams (wireArguments arguments) .empty with
  | error e => rfl
  | ok r =>
    obtain ⟨-, -, rfl⟩ := bindPath_eq_ok_iff.mp hpath
    show (formatPath python spec _ >>= _) = (formatPath python spec _ >>= _)
    congr 1
    funext path
    show (bindBody spec (afterPath spec arguments) >>= _) = _
    rw [hbody]
    cases bodyArgument spec arguments with
    | error exc => rfl
    | ok json =>
      show Except.ok _ = _
      rw [bindQuery_afterPath h rest hrest, hctx]
      rfl

/-- The arguments for the path are not `None`, and each has a text that can be encoded. -/
def PathArgumentsValid (spec : EndpointSpec) (arguments : Dict String Value) : Prop :=
  ∀ name ∈ spec.pathParams, ∀ value, arguments.get? name = some value →
    value.isNone = false ∧ ∃ text, value.text = .ok text

/-- A valid path argument has a text. -/
theorem isSome_pathText (h : Classified func spec) {call : Call}
    (hbinds : Binds python func call arguments)
    (hvalid : PathArgumentsValid spec arguments) :
    ∀ name ∈ spec.pathParams, (pathText arguments name).isSome := by
  intro name hname
  have hparam := (mem_wireParams.mp (h.path_mem name hname)).1
  obtain ⟨value, hvalue⟩ := Dict.contains_iff.mp ((Func.contains_bind hbinds.2).mpr hparam)
  obtain ⟨hnone, text, htext⟩ := hvalid name hname value hvalue
  rw [pathText, hvalue, Option.bind_some, hnone, htext]
  rfl

theorem wrapper_of_not_binds {call : Call} (h : ∀ arguments, ¬Binds python func call arguments) :
    wrapper python func spec call = .error .bind := by
  unfold wrapper
  cases hself : call.kwargs.contains "self" with
  | true => rfl
  | false =>
    cases hbind : func.bind python (call.receiver :: call.args) call.kwargs with
    | none => rfl
    | some arguments => exact absurd ⟨hself, hbind⟩ (h arguments)

theorem Binds.unique {call : Call} {arguments' : Dict String Value}
    (h : Binds python func call arguments) (h' : Binds python func call arguments') :
    arguments = arguments' := Option.some.inj (h.2.symm.trans h'.2)

/-- **What a call of an accepted method comes to.** -/
theorem wrapper_eq_ok_iff (h : Classified func spec) {call : Call} {out : RequestCall} :
    wrapper python func spec call = .ok out ↔
      ∃ arguments, Binds python func call arguments ∧
        ∃ path json, formattedPath python func spec arguments = .ok path ∧
          bodyArgument spec arguments = .ok json ∧
          out = requestCall func spec arguments path json := by
  constructor
  · intro hok
    by_cases hbinds : ∃ arguments, Binds python func call arguments
    · obtain ⟨arguments, hbinds⟩ := hbinds
      rw [wrapper_eq h hbinds] at hok
      obtain ⟨path, hpath, hrest⟩ := bind_eq_ok_iff.mp hok
      obtain ⟨json, hjson, heq⟩ := bind_eq_ok_iff.mp hrest
      exact ⟨arguments, hbinds, path, json, hpath, mapError_eq_ok_iff.mp hjson,
        (Except.ok.inj heq).symm⟩
    · rw [wrapper_of_not_binds fun arguments ha => hbinds ⟨arguments, ha⟩] at hok
      cases hok
  · rintro ⟨arguments, hbinds, path, json, hpath, hjson, rfl⟩
    rw [wrapper_eq h hbinds, bind_eq_ok_iff]
    refine ⟨path, hpath, bind_eq_ok_iff.mpr ⟨json, ?_, rfl⟩⟩
    exact mapError_eq_ok_iff.mpr hjson

end Novon.Decorators
