import Novon.Core.Signature
import Novon.Data.Percent

/-!
# The endpoint decorators

`feign.py` for any method, path template and signature: `_build_spec` classifies the parameters
when a method is decorated, and the `wrapper` binds the arguments of each call, takes them apart as
the specification says and makes one call of `self.request`.
-/

namespace Novon.Decorators

/-- `_BODY_METHODS`. -/
def bodyMethods : List String := ["POST", "PUT", "PATCH"]

/-- `_PARTIAL_UPDATE_METHODS`. -/
def partialUpdateMethods : List String := ["PATCH"]

/-- `_SUPPORTED_METHODS`. -/
def supportedMethods : List String :=
  ["GET", "HEAD", "OPTIONS", "POST", "PUT", "PATCH", "DELETE"]

/-- Validated description of one declared endpoint. -/
structure EndpointSpec where
  method : String
  pathTemplate : String
  pathParams : List String
  bodyParam : Option String
  queryParams : List String
  responseType : TypeHint
  partialUpdate : Bool

/-- What the decorator raises. -/
structure TypeError where
  message : String

variable (python : Python) (classes : Classes)

/-! ### Decoration -/

/-- The matches of `{(\w+)}`, with what has been matched since the last brace. -/
def findall : Option (List Char) → List Char → List String
  | _, [] => []
  | matched, c :: cs =>
    if c = '{' then findall (some []) cs
    else match matched with
      | none => findall none cs
      | some name =>
        if python.isWord c then findall (some (name ++ [c])) cs
        else if c = '}' ∧ name ≠ [] then String.ofList name :: findall none cs
        else findall none cs

/-- `_PATH_PLACEHOLDER_RE.findall(path)`. -/
def placeholders (path : List Char) : List String := findall python none path

/-- The names of the parameters that may go on the wire. -/
def wireParams (func : Func) : List String :=
  (func.parameters.map Parameter.name).filter fun name => name ≠ "self" && name ≠ "ctx"

/-- Whether an annotation is a `BaseModel` class. -/
def isModelClass : Option TypeHint → Bool
  | some (.cls c) => classes.isModel c
  | _ => false

/-- The parameters that are identified as the body, by type. -/
def bodyParams (path : String) (func : Func) (hints : Dict String TypeHint) : List String :=
  (wireParams func).filter fun name =>
    name ∉ placeholders python path.toList && isModelClass classes (hints.get? name)

/-- `_build_spec`. -/
def buildSpec (method path : String) (func : Func) : Except TypeError EndpointSpec :=
  if method ∉ supportedMethods then
    .error ⟨func.qualname ++ ": unsupported HTTP method " ++ python.repr method⟩
  else match func.hints with
  | .error exc => .error ⟨func.qualname ++ ": cannot resolve type annotations: " ++ exc⟩
  | .ok hints =>
    match hints.get? "return" with
    | none =>
      .error ⟨func.qualname ++ ": missing return type annotation; annotate the response model, " ++
        "or `-> None` for no-content (204) endpoints"⟩
    | some returns =>
      let wire := wireParams func
      let pathParams := placeholders python path.toList
      let missing := pathParams.filter (· ∉ wire)
      if missing ≠ [] then
        .error ⟨func.qualname ++ ": path template " ++ python.repr path ++
          " references undeclared parameter(s) " ++ python.reprList missing⟩
      else
        let bodies := bodyParams python classes path func hints
        if 1 < bodies.length then
          .error ⟨func.qualname ++ ": multiple BaseModel parameters " ++
            python.reprList bodies ++ "; exactly one body parameter is allowed"⟩
        else
          let bodyParam := bodies.head?
          if method ∈ bodyMethods ∧ bodyParam = none then
            .error ⟨func.qualname ++ ": " ++ method ++
              " endpoint must declare exactly one BaseModel body parameter"⟩
          else if method ∉ bodyMethods ∧ bodyParam ≠ none then
            .error ⟨func.qualname ++ ": " ++ method ++
              " endpoint must not declare a body parameter (" ++
              python.repr (bodyParam.getD "") ++
              "); bodies are only allowed on POST/PUT/PATCH"⟩
          else .ok {
            method
            pathTemplate := path
            pathParams
            bodyParam
            queryParams := wire.filter fun name => name ∉ pathParams && some name ≠ bodyParam
            responseType := returns
            partialUpdate := method ∈ partialUpdateMethods }

/-! ### The call -/

/-- What the wrapper raises. -/
inductive CallError where
  /-- The arguments do not fit the signature: a `TypeError`. -/
  | bind
  /-- A `TypeError` about a path parameter. -/
  | noneInPath (message : String)
  /-- What `str` or `quote` raises on a path argument. -/
  | text (exc : Raised)
  | keyError (name : String)
  | format (e : Format.FormatError)
  /-- What `model_dump` raises on the body argument. -/
  | dump (exc : Raised)

/-- What is passed as the JSON body. -/
inductive Body where
  | dumped (json : Json)
  | raw (value : Value)

/-- The arguments of `self.request`, with what the wrapper does to its result. -/
structure RequestCall where
  method : String
  path : String
  ctx : Value
  json : Option Body
  params : Option (Dict String Value)
  responseModel : Option TypeHint
  expectsNone : Bool

/-- `_resolve_return_contract`. -/
def resolveReturnContract (func : Func) : Bool × Option TypeHint :=
  match func.hints with
  | .error _ => (false, none)
  | .ok hints =>
    match hints.get? "return" with
    | none => (false, none)
    | some .noneType => (true, none)
    | some declared => (false, some declared)

/-- Percent-encodes the path arguments. -/
def bindPath (func : Func) : List String → Dict String Value → Dict String String →
    Except CallError (Dict String String × Dict String Value)
  | [], arguments, pathVars => .ok (pathVars, arguments)
  | name :: names, arguments, pathVars =>
    match arguments.get? name with
    | none => .error (.keyError name)
    | some .none =>
      .error (.noneInPath (func.qualname ++ ": path parameter " ++ python.repr name ++
        " must not be None"))
    | some value =>
      match value.text with
      | .error exc => .error (.text exc)
      | .ok text =>
        bindPath func names (arguments.pop name) (pathVars.set name (Percent.quote text))

/-- `spec.path_template.format_map(path_vars)`. -/
def formatPath (spec : EndpointSpec) (pathVars : Dict String String) : Except CallError String :=
  (Format.formatMap python.toLib pathVars spec.pathTemplate).mapError .format

/-- The body of a call with the body argument `value`. -/
def jsonBody (partialUpdate : Bool) (value : Value) : Except Raised (Option Body) :=
  match value.modelDump? with
  | some dump => (dump partialUpdate).map fun json => some (.dumped json)
  | none => .ok (if value.isNone then none else some (.raw value))

/-- Takes the body argument, if the endpoint has one. -/
def bindBody (spec : EndpointSpec) (arguments : Dict String Value) :
    Except CallError (Option Body × Dict String Value) :=
  match spec.bodyParam with
  | none => .ok (none, arguments)
  | some name =>
    match arguments.get? name with
    | none => .error (.keyError name)
    | some value => do
      let json ← (jsonBody spec.partialUpdate value).mapError .dump
      return (json, arguments.pop name)

/-- Takes the query arguments that are not `None`. -/
def bindQuery : List String → Dict String Value → List (String × Value)
  | [], _ => []
  | name :: names, arguments =>
    match arguments.get? name with
    -- `None` stands for a parameter that is not sent
    | none | some .none => bindQuery names arguments
    | some value => (name, value) :: bindQuery names (arguments.pop name)

/-- The wrapper of an endpoint. -/
def wrapper (func : Func) (spec : EndpointSpec) (call : Call) : Except CallError RequestCall := do
  let (expectsNone, responseModel) := resolveReturnContract func
  -- the wrapper has a parameter `self` of its own
  if call.kwargs.contains "self" then .error .bind
  let arguments ← match func.bind python (call.receiver :: call.args) call.kwargs with
    | none => Except.error CallError.bind
    | some arguments => .ok arguments
  let arguments := arguments.pop "self"
  let ctx := arguments.getD "ctx" .none
  let arguments := arguments.pop "ctx"
  let (pathVars, arguments) ← bindPath python func spec.pathParams arguments .empty
  let formattedPath ← formatPath python spec pathVars
  let (json, arguments) ← bindBody spec arguments
  let queryParams := bindQuery spec.queryParams arguments
  return {
    method := spec.method
    path := formattedPath
    ctx
    json
    params := if queryParams.isEmpty then none else some (.ofList queryParams)
    responseModel
    expectsNone }

end Novon.Decorators
