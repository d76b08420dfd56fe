import Novon.Core.Equiv.Decorators

/-!
# Models on the wire

A body is identified by the annotation, but what leaks is decided by the argument.
`leaks_nothing_iff` says on which well-typed calls no model gets into the URL and every model is
the JSON body: exactly those whose models are all given to parameters that are annotated with a
model class itself.  `Filter | None` is no such annotation (`not_body_by_type`).
-/

namespace Novon.Decorators

variable {python : Python} {classes : Classes} {method path : String} {func : Func}
  {spec : EndpointSpec} {call : Call} {arguments : Dict String Value} {out : RequestCall}

/-- No model gets into the URL, and every model is sent as the JSON body. -/
structure LeaksNothing (spec : EndpointSpec) (arguments : Dict String Value)
    (out : RequestCall) : Prop where
  path : ∀ name ∈ spec.pathParams, ∀ v, arguments.get? name = some v → v.hasModel = false
  query : ∀ params, out.params = some params → ∀ v ∈ params.values, v.hasModel = false
  body : ∀ name v, name ≠ "self" → arguments.get? name = some v → v.hasModel = true →
    spec.bodyParam = some name ∧ out.method ∈ bodyMethods ∧
      ∃ text fields unserialisable, v = .model text fields unserialisable ∧
        out.json = some (.dumped (.object (modelDump spec.partialUpdate fields.entries)))

/-- Every model is the argument of a parameter annotated with a model class. -/
def ModelsAnnotated (classes : Classes) (func : Func) (hints : Dict String TypeHint)
    (spec : EndpointSpec) (arguments : Dict String Value) : Prop :=
  ∀ p ∈ func.parameters, p.name ≠ "self" → ∀ v, arguments.get? p.name = some v →
    v.hasModel = true →
      isModelClass classes (hints.get? p.name) = true ∧ p.kind.isVariadic = false ∧
        p.name ∉ spec.pathParams ∧ p.name ≠ "ctx"

/-- A value of a model class is a model. -/
theorem isModel_of_hasType {hint : TypeHint} {v : Value}
    (hmodel : isModelClass classes (some hint) = true) (h : HasType classes hint v) :
    v.isModel = true := by
  cases h with
  | cls hinstance => exact classes.isInstance_model _ _ hmodel hinstance
  | noneType => cases hmodel
  | any v => cases hmodel
  | union hmem hv => cases hmodel
  | listOf hitems => cases hmodel
  | annotated hv => cases hmodel
  | typeAlias hv => cases hmodel

theorem exists_eq_model {v : Value} (h : v.isModel = true) :
    ∃ text fields unserialisable, v = .model text fields unserialisable := by
  cases v with
  | model text fields unserialisable => exact ⟨text, fields, unserialisable, rfl⟩
  | none => cases h
  | object text dump => cases h
  | container text items => cases h

theorem exists_hint {hints : Dict String TypeHint} {name : String}
    (h : isModelClass classes (hints.get? name) = true) :
    ∃ hint, hints.get? name = some hint ∧ isModelClass classes (some hint) = true := by
  cases hhint : hints.get? name with
  | none =>
    rw [hhint] at h
    cases h
  | some hint => exact ⟨hint, rfl, hhint ▸ h⟩

/-- An argument belongs to a parameter. -/
theorem exists_parameter (hbinds : Binds python func call arguments) {name : String} {v : Value}
    (h : arguments.get? name = some v) : ∃ p ∈ func.parameters, p.name = name := by
  have hmem := (Func.contains_bind hbinds.2).mp (Dict.contains_iff.mpr ⟨v, h⟩)
  exact List.mem_map.mp hmem

/-- The sent query arguments are query arguments. -/
theorem mem_of_mem_params (hclass : Classified func spec) {params : Dict String Value}
    {json : Option Body} (h : (requestCall func spec arguments path json).params = some params)
    {v : Value}
    (hv : v ∈ params.values) :
    ∃ name ∈ spec.queryParams, arguments.get? name = some v := by
  obtain ⟨⟨name, u⟩, hmem, rfl⟩ := List.mem_map.mp hv
  rw [entries_params (nodup_queryParams hclass) h] at hmem
  obtain ⟨hname, hget, -⟩ := mem_queryArguments.mp hmem
  exact ⟨name, hname, hget⟩

variable {hints : Dict String TypeHint} {returns : TypeHint}

/-- A model is not what a variadic parameter holds. -/
theorem not_variadic_of_model (htyped : WellTyped classes func hints arguments) {p : Parameter}
    (hp : p ∈ func.parameters) {text : Except Raised String}
    {fields : Dict String (OptField FieldValue)} {unserialisable : Bool → Option Raised}
    (hget : arguments.get? p.name = some (.model text fields unserialisable))
    (hannotated : isModelClass classes (hints.get? p.name) = true) :
    p.kind.isVariadic = false := by
  obtain ⟨hint, hhint, -⟩ := exists_hint hannotated
  have hadmits := htyped p hp hint _ hhint hget
  unfold Parameter.Admits at hadmits
  split at hadmits
  · -- it holds a collection of values
    obtain ⟨_, _, heq, -⟩ := hadmits
    cases heq
  · next hkind => simpa using hkind

/-- What a parameter annotated with a model class holds is a model. -/
theorem isModel_of_wellTyped (htyped : WellTyped classes func hints arguments) {p : Parameter}
    (hp : p ∈ func.parameters) {v : Value} (hget : arguments.get? p.name = some v)
    (hannotated : isModelClass classes (hints.get? p.name) = true)
    (hkind : p.kind.isVariadic = false) : v.isModel = true := by
  obtain ⟨hint, hhint, hmodel⟩ := exists_hint hannotated
  have hadmits := htyped p hp hint v hhint hget
  rw [Parameter.Admits, hkind] at hadmits
  exact isModel_of_hasType hmodel hadmits

/-- A model in its place is the body argument. -/
theorem bodyParam_of_modelsAnnotated (haccepted : Accepted python classes method path func hints)
    (hbinds : Binds python func call arguments)
    (hannotated : ModelsAnnotated classes func hints
      (specOf python classes method path func hints returns) arguments)
    {name : String} {v : Value} (hself : name ≠ "self") (hget : arguments.get? name = some v)
    (hmodel : v.hasModel = true) :
    (specOf python classes method path func hints returns).bodyParam = some name := by
  obtain ⟨p, hp, rfl⟩ := exists_parameter hbinds hget
  obtain ⟨hclass, -, hpath, hctx⟩ := hannotated p hp hself v hget hmodel
  have hwire : p.name ∈ wireParams func :=
    mem_wireParams.mpr ⟨List.mem_map_of_mem hp, hself, hctx⟩
  exact (head?_bodyParams python classes haccepted).mpr ⟨hwire, hpath, hclass⟩

/-- **Which well-typed calls leak no model.** -/
theorem leaks_nothing_iff (hspec : buildSpec python classes method path func = .ok spec)
    (hbinds : Binds python func call arguments)
    (htyped : ∀ hints, func.hints = .ok hints → WellTyped classes func hints arguments)
    (hok : wrapper python func spec call = .ok out) :
    LeaksNothing spec arguments out ↔
      ∀ hints, func.hints = .ok hints → ModelsAnnotated classes func hints spec arguments := by
  have hclass := classified_of_buildSpec python classes hspec
  obtain ⟨arguments', hbinds', formatted, json, -, hjson, rfl⟩ :=
    (wrapper_eq_ok_iff hclass).mp hok
  obtain rfl := hbinds.unique hbinds'
  obtain ⟨hints, returns, haccepted, -, rfl⟩ := (buildSpec_eq_ok_iff python classes).mp hspec
  have htyped := htyped hints haccepted.resolved
  constructor
  · intro hleaks hints' hhints' p hp hself v hget hmodel
    obtain rfl := Except.ok.inj (haccepted.resolved.symm.trans hhints')
    obtain ⟨hbody, -, text, fields, unserialisable, rfl, -⟩ :=
      hleaks.body p.name v hself hget hmodel
    obtain ⟨hwire, hpath, hannotated⟩ := (head?_bodyParams python classes haccepted).mp hbody
    exact ⟨hannotated, not_variadic_of_model htyped hp hget hannotated, hpath,
      (mem_wireParams.mp hwire).2.2⟩
  · intro hannotated
    have hannotated := hannotated hints haccepted.resolved
    refine ⟨?_, ?_, ?_⟩
    · intro name hname v hget
      by_contra hmodel
      have hself : name ≠ "self" := (mem_wireParams.mp (hclass.path_mem name hname)).2.1
      have hparam := bodyParam_of_modelsAnnotated haccepted hbinds hannotated hself hget
        (by simpa using hmodel)
      exact (hclass.body_mem name hparam).2 hname
    · -- a model in the query would be at the body parameter, which is no query parameter
      intro params hparams v hv
      by_contra hmodel
      obtain ⟨name, hname, hget⟩ := mem_of_mem_params hclass hparams hv
      obtain ⟨hwire, -, hnot⟩ := (mem_queryParams hclass).mp hname
      have hself : name ≠ "self" := (mem_wireParams.mp hwire).2.1
      have hparam := bodyParam_of_modelsAnnotated haccepted hbinds hannotated hself hget
        (by simpa using hmodel)
      exact hnot hparam.symm
    · intro name v hself hget hmodel
      have hparam := bodyParam_of_modelsAnnotated haccepted hbinds hannotated hself hget hmodel
      have hmethod : method ∈ bodyMethods := by
        rw [haccepted.body_iff]
        intro hnone
        cases hnone.symm.trans hparam
      obtain ⟨p, hp, rfl⟩ := exists_parameter hbinds hget
      obtain ⟨hmodelClass, hkind, -, -⟩ := hannotated p hp hself v hget hmodel
      have hisModel := isModel_of_wellTyped htyped hp hget hmodelClass hkind
      obtain ⟨text, fields, unserialisable, rfl⟩ := exists_eq_model hisModel
      refine ⟨hparam, hmethod, text, fields, unserialisable, rfl, ?_⟩
      rw [bodyArgument_of_get? hparam hget] at hjson
      exact eq_of_jsonBody_model hjson

/-! ### A model in the query string -/

/-- `async def search(self, q: Filter | None = None) -> Item`. -/
def search : Func where
  qualname := "ItemClient.search"
  parameters :=
    [⟨"self", .positionalOrKeyword, none⟩, ⟨"q", .positionalOrKeyword, some .none⟩]
  nodup_names := by decide
  hints := .ok (.ofList [("q", .union [.cls "Filter", .noneType]), ("return", .cls "Item")])

/-- The specification of `@get("/search")` on `search`. -/
def searchSpec : EndpointSpec where
  method := "GET"
  pathTemplate := "/search"
  pathParams := []
  bodyParam := none
  queryParams := ["q"]
  responseType := .cls "Item"
  partialUpdate := false

/-- `client.search(q)`. -/
def searchCall (q : Value) : Call where
  receiver := .object (.ok "<ItemClient>") none
  args := [q]
  kwargs := .empty

def searchArguments (q : Value) : Dict String Value :=
  .ofList [("self", .object (.ok "<ItemClient>") none), ("q", q)]

/-- The request of a search. -/
def searchRequest (params : Option (Dict String Value)) : RequestCall where
  method := "GET"
  path := "/search"
  ctx := .none
  json := none
  params
  responseModel := some (.cls "Item")
  expectsNone := false

theorem buildSpec_search :
    buildSpec Python.sample Classes.sample "GET" "/search" search = .ok searchSpec := rfl

theorem binds_searchCall (q : Value) :
    Binds Python.sample search (searchCall q) (searchArguments q) := ⟨rfl, rfl⟩

/-- A search is well typed if its argument is. -/
theorem wellTyped_search {q : Value}
    (h : HasType Classes.sample (.union [.cls "Filter", .noneType]) q) :
    ∀ hints, search.hints = .ok hints →
      WellTyped Classes.sample search hints (searchArguments q) := by
  intro hints hhints p hp hint v hhint hv
  obtain rfl := Except.ok.inj hhints
  rcases List.mem_cons.mp hp with rfl | hp
  · cases hhint
  · obtain rfl := List.mem_singleton.mp hp
    obtain rfl := Option.some.inj hhint
    obtain rfl := Option.some.inj hv
    exact h

theorem leaks_nothing_iff_sample :
    LeaksNothing searchSpec (searchArguments .none) (searchRequest none) := by
  have htyped := wellTyped_search (.union (by simp) .noneType)
  refine (leaks_nothing_iff buildSpec_search (binds_searchCall .none) htyped rfl).mpr ?_
  intro hints _ p hp hself v hv hmodel
  rcases List.mem_cons.mp hp with rfl | hp
  · exact absurd rfl hself
  · obtain rfl := List.mem_singleton.mp hp
    obtain rfl := Option.some.inj hv
    cases hmodel

/-- `client.search(Filter(...))` puts the filter into the query string. -/
theorem not_body_by_type :
    ¬∀ (method path : String) (func : Func) (spec : EndpointSpec) (call : Call)
        (arguments : Dict String Value) (out : RequestCall),
      buildSpec Python.sample Classes.sample method path func = .ok spec →
        Binds Python.sample func call arguments →
        (∀ hints, func.hints = .ok hints → WellTyped Classes.sample func hints arguments) →
        wrapper Python.sample func spec call = .ok out → LeaksNothing spec arguments out := by
  intro h
  let filter : Value :=
    .model (.ok "name='x'") (.ofList [("name", .value (.str "x"))]) (fun _ => none)
  have htyped := wellTyped_search (.union (by simp) (.cls (c := "Filter") (v := filter) rfl))
  have hleaks := h _ _ _ _ _ _ (searchRequest (some (.ofList [("q", filter)]))) buildSpec_search
    (binds_searchCall filter) htyped rfl
  have hquery := hleaks.query _ rfl filter (List.mem_singleton.mpr rfl)
  cases hquery

end Novon.Decorators
