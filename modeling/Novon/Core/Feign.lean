import Novon.Core.TypeHints
import Novon.Data.Percent
import Novon.Http.Message

/-!
# Declarative endpoints

`feign.py`: `EndpointSpec` and the `wrapper` that turns the bound arguments of a call into one
call of `self.request`.
-/

namespace Novon

/-- A bound argument of an endpoint method. -/
inductive Arg where
  | none
  | str (s : String)
  | model (fields : List (String × OptField FieldValue))

inductive TemplatePart where
  | literal (text : String)
  | placeholder (name : String)

/-- What the wrapper itself raises. -/
inductive WrapperError where
  /-- `TypeError`: the path parameter must not be `None`. -/
  | noneInPath (name : String)
  | keyError (name : String)

/-- Validated description of one declared endpoint. -/
structure EndpointSpec where
  method : String
  pathTemplate : List TemplatePart
  pathParams : List String
  bodyParam : Option String
  queryParams : List String
  responseType : TypeHint
  partialUpdate : Bool

/-- The arguments of `self.request`, with what the wrapper does to its result. -/
structure OutboundCall where
  method : String
  path : String
  json : Option Json
  params : Option (Dict String Arg)
  responseModel : Option TypeHint
  expectsNone : Bool

/-- `str(value)`, unless the value is `None`. -/
def Arg.str? (lib : HttpLib) : Arg → Option String
  | none => Option.none
  | str s => some s
  | model fields => some (lib.strModel fields)

namespace Feign

variable (lib : HttpLib)

/-- Percent-encodes the path arguments. -/
def bindPath : List String → Dict String Arg → Dict String String →
    Except WrapperError (Dict String String × Dict String Arg)
  | [], arguments, pathVars => .ok (pathVars, arguments)
  | name :: names, arguments, pathVars =>
    match arguments.get? name with
    | none => .error (.keyError name)
    | some value =>
      match value.str? lib with
      -- a `None` would be the text "None" in the path
      | none => .error (.noneInPath name)
      | some text => bindPath names (arguments.pop name) (pathVars.set name (Percent.quote text))

/-- `path_template.format_map(path_vars)`. -/
def formatMap (pathVars : Dict String String) : List TemplatePart → Except WrapperError String
  | [] => .ok ""
  | .literal text :: parts => (formatMap pathVars parts).map (text ++ ·)
  | .placeholder name :: parts =>
    match pathVars.get? name with
    | none => .error (.keyError name)
    | some text => (formatMap pathVars parts).map (text ++ ·)

/-- The body of a call with the body argument `value`. -/
def jsonBody (partialUpdate : Bool) : Arg → Option Json
  | .none => none
  | .str s => some (.str s)
  | .model fields => some (.object (modelDump partialUpdate fields))

/-- Takes the body argument, if the endpoint has one. -/
def bindBody (spec : EndpointSpec) (arguments : Dict String Arg) :
    Except WrapperError (Option Json × Dict String Arg) :=
  match spec.bodyParam with
  | none => .ok (none, arguments)
  | some name =>
    match arguments.get? name with
    | none => .error (.keyError name)
    | some value => .ok (jsonBody spec.partialUpdate value, arguments.pop name)

/-- The query arguments that are not `None`, or nothing. -/
def bindQuery (names : List String) (arguments : Dict String Arg) : Option (Dict String Arg) :=
  let queryParams := names.filterMap fun name =>
    match arguments.get? name with
    -- `None` stands for a parameter that is not sent
    | none | some .none => none
    | some value => some (name, value)
  if queryParams.isEmpty then none else some (.ofList queryParams)

/-- `_resolve_return_contract`. -/
def resolveReturnContract (responseType : TypeHint) : Bool × Option TypeHint :=
  match responseType with
  | .noneType => (true, none)
  | declared => (false, some declared)

/-- The wrapper of an endpoint, on the bound arguments without `self` and `ctx`. -/
def wrapper (spec : EndpointSpec) (arguments : Dict String Arg) :
    Except WrapperError OutboundCall := do
  let (expectsNone, responseModel) := resolveReturnContract spec.responseType
  let (pathVars, arguments) ← bindPath lib spec.pathParams arguments .empty
  let formattedPath ← formatMap pathVars spec.pathTemplate
  let (json, arguments) ← bindBody spec arguments
  return {
    method := spec.method
    path := formattedPath
    json
    params := bindQuery spec.queryParams arguments
    responseModel
    expectsNone }

def queryString (params : Option (Dict String Arg)) : List (String × String) :=
  match params with
  | none => []
  | some params => params.entries.map fun p => (p.1, (p.2.str? lib).getD "")

/-- The request that the HTTP library sends for a call. -/
def send (headers : Dict String String) (call : OutboundCall) : Request where
  method := call.method
  path := Router.join (lib.removeDotSegments (Router.segments call.path))
  headers
  json := call.json
  query := queryString lib call.params

end Feign

end Novon
