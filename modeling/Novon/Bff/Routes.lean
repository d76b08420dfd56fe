import Novon.Core.BaseClient
import Novon.Core.ServiceErrorHandlers
import Novon.FlowApi.Client
import Novon.Http.Headers
import Novon.UcApi.Client

/-!
# The routes of the BFF

`apps/bff`, `routes.py`: the route table in declaration order, the arguments that a request gives to
a handler, and the call of a downstream service that the handler makes.
-/

namespace Novon.Bff

inductive Endpoint where
  | healthz
  | me
  | listFlows
  | getFlow
  | createFlow
  | getUser
  | getUserByUsername
  | getFlowWithOwner
  deriving DecidableEq, Repr

/-- The decorated handlers, in declaration order. -/
def routeTable : List (Route Endpoint) :=
  [⟨"GET", [.lit "", .lit "healthz"], .healthz⟩,
    ⟨"GET", [.lit "", .lit "me"], .me⟩,
    ⟨"GET", [.lit "", .lit "flows"], .listFlows⟩,
    ⟨"GET", [.lit "", .lit "flows", .param "flow_id"], .getFlow⟩,
    ⟨"POST", [.lit "", .lit "flows"], .createFlow⟩,
    ⟨"GET", [.lit "", .lit "users", .param "user_id"], .getUser⟩,
    ⟨"GET", [.lit "", .lit "users", .lit "by-username", .param "username"], .getUserByUsername⟩,
    ⟨"GET", [.lit "", .lit "flows", .param "flow_id", .lit "with-owner"], .getFlowWithOwner⟩]

/-- A call of a proxied endpoint. -/
inductive BffCall where
  | listFlows
  | getFlow (flowId : String)
  | createFlow (payload : FlowCreate)
  | getUser (userId : String)
  | getUserByUsername (username : String)
  | getFlowWithOwner (flowId : String)
  deriving DecidableEq

inductive Body (V : Type) where
  /-- What the downstream call returned. -/
  | result (result : Result V)
  /-- `{"flow": flow.model_dump(), "owner": None}`. -/
  | flowWithOwner (flow : Result V)
  /-- The answer to a `ServiceCallError`. -/
  | error (content : ErrorContent)
  | mapping (content : List (String × String))
  /-- An answer of the web framework itself. -/
  | detail (text : String)

/-- How the web framework reads bodies, and how it answers when there is no route or when the
validation of the arguments fails. -/
structure WebFramework (V : Type) where
  /-- Whether a body with this `Content-Type` is parsed as JSON. -/
  parsesJson : Option String → Bool
  /-- The JSON object that a body is parsed to. -/
  jsonObject : List UInt8 → Option (Dict String FieldValue)
  unrouted : InboundRequest → OutboundResponse (Body V)
  invalid : InboundRequest → OutboundResponse (Body V)

variable {V : Type} (framework : WebFramework V)

/-- The body of a create, validated. -/
def parseFlowCreate (request : InboundRequest) : Option FlowCreate :=
  if framework.parsesJson (request.headers.get "Content-Type") then
    -- otherwise the body stays bytes, which are no valid payload
    (framework.jsonObject request.body).bind FlowCreate.validate
  else none

/-- Binds the arguments of a handler, for the user that the auth dependency has found. -/
def bind (user : String) (request : InboundRequest) : Endpoint → List String → Routed BffCall
  | .healthz, _ => .static [("status", "ok")]
  | .me, _ => .static [("user", user)]
  | .listFlows, _ => .call .listFlows
  | .getFlow, [flowId] => .call (.getFlow flowId)
  | .createFlow, _ =>
    match parseFlowCreate framework request with
    | some payload => .call (.createFlow payload)
    | none => .invalid
  | .getUser, [userId] => .call (.getUser userId)
  | .getUserByUsername, [username] => .call (.getUserByUsername username)
  | .getFlowWithOwner, [flowId] => .call (.getFlowWithOwner flowId)
  -- never reached: a match has as many arguments as parameters
  | _, _ => .invalid

/-- Finds what a request asks for. -/
def route (user : String) (request : InboundRequest) : Routed BffCall :=
  match Router.dispatch routeTable request.method request.path with
  | some (endpoint, args) => bind framework user request endpoint args
  | none => .unrouted

end Novon.Bff
