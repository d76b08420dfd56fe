import Novon.Core.Endpoints
import Novon.Core.Equiv.PathSubstitution
import Novon.Core.Feign

/-!
# Decorating a client's methods

What `_build_spec` makes of a method of the clients' shape (`buildSpec_clientMethod`): the endpoint
that the clients' model declares for it (`buildSpec_declares`).  What a call of it sends is
`wrapper_eq_ok`.
-/

namespace Novon.Decorators

variable {python : Python} {classes : Classes} {method qualname : String}
  {params : List (String × String)} {returns : TypeHint} {parts : List Segment}

theorem names_clientParameters (params : List (String × String)) :
    (clientParameters params).map Parameter.name = "self" :: params.map Prod.fst ++ ["ctx"] := by
  simp [clientParameters, Function.comp_def]

theorem wireParams_clientMethod (h : ((clientParameters params).map Parameter.name).Nodup) :
    wireParams (clientMethod qualname params returns h) = params.map Prod.fst := by
  have hnames := h
  rw [names_clientParameters, List.cons_append, List.nodup_cons, List.nodup_append] at hnames
  obtain ⟨hself, -, -, hctx⟩ := hnames
  -- the names are distinct, so none of the method's own is dropped with the two
  have hkept : ∀ name ∈ params.map Prod.fst, (name ≠ "self" && name ≠ "ctx") = true := by
    intro name hname
    have hne : name ≠ "self" := fun he => hself (List.mem_append_left _ (he ▸ hname))
    have hne' : name ≠ "ctx" := hctx name hname "ctx" List.mem_cons_self
    simp [hne, hne']
  show ((clientParameters params).map Parameter.name).filter _ = _
  rw [names_clientParameters, List.cons_append, List.filter_cons_of_neg (by simp),
    List.filter_append, List.filter_eq_self.mpr hkept]
  simp

theorem get?_clientHints (h : (params.map Prod.fst ++ ["ctx", "return"]).Nodup)
    (name : String) (hint : TypeHint) :
    (clientHints params returns).get? name = some hint ↔
      (∃ p ∈ params, p.1 = name ∧ .cls p.2 = hint) ∨
        (name, hint) ∈
          [("ctx", .union [.cls "RequestContext", .noneType]), ("return", returns)] := by
  have hkeys : ((params.map fun p => (p.1, TypeHint.cls p.2)) ++
      [("ctx", .union [.cls "RequestContext", .noneType]), ("return", returns)]).map Prod.fst =
        params.map Prod.fst ++ ["ctx", "return"] := by
    simp [Function.comp_def]
  rw [clientHints, Dict.get?_ofList (hkeys ▸ h), Dict.lookup_eq_some_iff (hkeys ▸ h),
    List.mem_append, List.mem_map]
  simp only [Prod.mk.injEq]

/-- The parameters of a model class that the template does not name. -/
def clientBodies (classes : Classes) (params : List (String × String)) (parts : List Segment) :
    List String :=
  (params.filter fun p => p.1 ∉ paramNames parts && classes.isModel p.2).map Prod.fst

/-- Parameters of no model class carry no body. -/
theorem clientBodies_eq_nil {classes : Classes} {params : List (String × String)}
    {parts : List Segment} (h : ∀ p ∈ params, classes.isModel p.2 = false) :
    clientBodies classes params parts = [] := by
  rw [clientBodies, List.map_eq_nil_iff, List.filter_eq_nil_iff]
  intro p hp
  simp [h p hp]

theorem bodyParams_clientMethod (hparts : PlainSegments python parts)
    (hnames : ((clientParameters params).map Parameter.name).Nodup)
    (hkeys : (params.map Prod.fst ++ ["ctx", "return"]).Nodup) :
    bodyParams python classes (templateOf parts) (clientMethod qualname params returns hnames)
        (clientHints params returns) = clientBodies classes params parts := by
  rw [bodyParams, wireParams_clientMethod, placeholders_templateOf hparts, List.filter_map,
    clientBodies]
  congr 1
  apply List.filter_congr
  intro p hp
  have hhint : (clientHints params returns).get? p.1 = some (.cls p.2) :=
    (get?_clientHints hkeys p.1 (.cls p.2)).mpr (.inl ⟨p, hp, rfl, rfl⟩)
  simp only [Function.comp_apply, hhint]
  rfl

/-- The specification of a client's method. -/
def clientSpec (classes : Classes) (method : String) (params : List (String × String))
    (returns : TypeHint) (parts : List Segment) : EndpointSpec where
  method
  pathTemplate := templateOf parts
  pathParams := paramNames parts
  bodyParam := (clientBodies classes params parts).head?
  queryParams := (params.map Prod.fst).filter fun name =>
    name ∉ paramNames parts && some name ≠ (clientBodies classes params parts).head?
  responseType := returns
  partialUpdate := method ∈ partialUpdateMethods

/-- **What decoration makes of a client's method.** -/
theorem buildSpec_clientMethod (hparts : PlainSegments python parts)
    (hnames : ((clientParameters params).map Parameter.name).Nodup)
    (hkeys : (params.map Prod.fst ++ ["ctx", "return"]).Nodup)
    (hmethod : method ∈ supportedMethods)
    (hdeclared : ∀ name ∈ paramNames parts, name ∈ params.map Prod.fst)
    (hone : (clientBodies classes params parts).length ≤ 1)
    (hbody : method ∈ bodyMethods ↔ (clientBodies classes params parts).head? ≠ none) :
    buildSpec python classes method (templateOf parts)
        (clientMethod qualname params returns hnames) =
      .ok (clientSpec classes method params returns parts) := by
  have hbodies : bodyParams python classes (templateOf parts)
      (clientMethod qualname params returns hnames) (clientHints params returns) =
        clientBodies classes params parts := bodyParams_clientMethod hparts hnames hkeys
  have hwire : wireParams (clientMethod qualname params returns hnames) = params.map Prod.fst :=
    wireParams_clientMethod hnames
  have hplaceholders := placeholders_templateOf hparts
  have hreturn : (clientHints params returns).get? "return" = some returns :=
    (get?_clientHints hkeys _ _).mpr (.inr (by simp))
  rw [buildSpec_eq_ok_iff]
  refine ⟨clientHints params returns, returns, ⟨hmethod, rfl, ?_, ?_, ?_⟩, hreturn, ?_⟩
  · rw [hplaceholders, hwire]
    exact hdeclared
  · rw [hbodies]
    exact hone
  · rw [hbodies]
    exact hbody
  · rw [specOf, hbodies, hwire, hplaceholders]
    rfl

/-- What an endpoint of the clients' model declares of a method. -/
structure Declares (endpoint : Novon.EndpointSpec) (params : List (String × String))
    (parts : List Segment) : Prop where
  supported : endpoint.method ∈ supportedMethods
  nodup_keys : (params.map Prod.fst ++ ["ctx", "return"]).Nodup
  path_eq : paramNames parts = endpoint.pathParams
  path_mem : ∀ name ∈ endpoint.pathParams, name ∈ params.map Prod.fst
  body_iff : endpoint.method ∈ bodyMethods ↔ endpoint.bodyParam ≠ none
  query_eq : endpoint.queryParams = (params.map Prod.fst).filter fun name =>
    name ∉ endpoint.pathParams && some name ≠ endpoint.bodyParam
  partial_eq : endpoint.partialUpdate = decide (endpoint.method ∈ partialUpdateMethods)

/-- The specification that an endpoint declares. -/
def declaredSpec (endpoint : Novon.EndpointSpec) (parts : List Segment) : EndpointSpec where
  method := endpoint.method
  pathTemplate := templateOf parts
  pathParams := endpoint.pathParams
  bodyParam := endpoint.bodyParam
  queryParams := endpoint.queryParams
  responseType := endpoint.responseType
  partialUpdate := endpoint.partialUpdate

/-- **Decoration gives the declared endpoint.** -/
theorem buildSpec_declares {endpoint : Novon.EndpointSpec}
    (hparts : PlainSegments python parts)
    (hnames : ((clientParameters params).map Parameter.name).Nodup)
    (hdeclares : Declares endpoint params parts)
    (hbodies : clientBodies classes params parts = endpoint.bodyParam.toList) :
    buildSpec python classes endpoint.method (templateOf parts)
        (clientMethod qualname params endpoint.responseType hnames) =
      .ok (declaredSpec endpoint parts) := by
  have hhead : (clientBodies classes params parts).head? = endpoint.bodyParam := by
    rw [hbodies]
    cases endpoint.bodyParam with
    | none => rfl
    | some name => rfl
  have hone : (clientBodies classes params parts).length ≤ 1 := by
    rw [hbodies]
    cases endpoint.bodyParam with
    | none => exact Nat.zero_le 1
    | some name => exact Nat.le_refl 1
  rw [buildSpec_clientMethod hparts hnames hdeclares.nodup_keys hdeclares.supported
    (hdeclares.path_eq ▸ hdeclares.path_mem) hone (hhead ▸ hdeclares.body_iff), clientSpec,
    hhead, hdeclares.path_eq, ← hdeclares.query_eq, ← hdeclares.partial_eq]
  rfl

/-! ### Calls -/

/-- The value of an argument. -/
def valueOf (lib : HttpLib) : Arg → Value
  | .none => .none
  | .str s => .object (.ok s) none
  -- the payloads have string fields only, which are always serialisable
  | .model fields => .model (.ok (lib.strModel fields)) (.ofList fields) fun _ => none

/-- A call of a method: its own arguments by position, the context by name. -/
def methodCall (lib : HttpLib) (receiver ctx : Value) (arguments : Dict String Arg) : Call where
  receiver
  args := arguments.values.map (valueOf lib)
  kwargs := .ofList [("ctx", ctx)]

/-- The arguments that such a call binds. -/
def boundArguments (lib : HttpLib) (receiver ctx : Value) (arguments : Dict String Arg) :
    Dict String Value :=
  .ofList (("self", receiver) :: (arguments.entries.map fun e => (e.1, valueOf lib e.2)) ++
    [("ctx", ctx)])

/-- A request as the clients' model has it. -/
structure SameRequest (lib : HttpLib) (call : OutboundCall) (out : RequestCall) : Prop where
  method : out.method = call.method
  path : out.path = call.path
  json : out.json = call.json.map .dumped
  params : out.params.map Dict.entries =
    call.params.map fun d => d.entries.map fun e => (e.1, valueOf lib e.2)
  responseModel : out.responseModel = call.responseModel
  expectsNone : out.expectsNone = call.expectsNone

/-- **What a call of a decorated method sends.** -/
theorem wrapper_eq_ok {func : Func} {spec : EndpointSpec} {call : Call}
    {arguments : Dict String Value} (h : PlainSegments python parts)
    (hspec : buildSpec python classes method (templateOf parts) func = .ok spec)
    (hbinds : Binds python func call arguments) (hnodup : (paramNames parts).Nodup)
    (hvalid : PathArgumentsValid spec arguments) {json : Option Body}
    (hjson : bodyArgument spec arguments = .ok json) :
    wrapper python func spec call = .ok
      (requestCall func spec arguments (Router.join (parts.map (pathSegment arguments))) json) := by
  have hpath := formattedPath_eq_ok h hnodup hspec hbinds hvalid
  exact (wrapper_eq_ok_iff (classified_of_buildSpec python classes hspec)).mpr
    ⟨arguments, hbinds, _, json, hpath, hjson, rfl⟩

end Novon.Decorators
