import Novon.Auth
import Novon.Flow.Routes
import Novon.Data.Percent
import Novon.Http.Message

/-!
# The Flow service on the wire

The route table of `routes.py` in declaration order, and the binding of a request's path and body
to the arguments of the handler it is dispatched to.
-/

namespace Novon.Flow

inductive Endpoint where
  | healthz
  | me
  | listFlows
  | getFlow
  | createFlow
  | updateFlow
  | deleteFlow
  deriving DecidableEq, Repr

/-- The decorated handlers, in declaration order. -/
def routeTable : List (Route Endpoint) :=
  [⟨"GET", [.lit "", .lit "healthz"], .healthz⟩,
    ⟨"GET", [.lit "", .lit "me"], .me⟩,
    ⟨"GET", [.lit "", .lit "flows"], .listFlows⟩,
    ⟨"GET", [.lit "", .lit "flows", .param "flow_id"], .getFlow⟩,
    ⟨"POST", [.lit "", .lit "flows"], .createFlow⟩,
    ⟨"PATCH", [.lit "", .lit "flows", .param "flow_id"], .updateFlow⟩,
    ⟨"DELETE", [.lit "", .lit "flows", .param "flow_id"], .deleteFlow⟩]

/-- Binds the arguments of a handler.  Path arguments are as many as the route has parameters. -/
def bind (request : Request) : Endpoint → List String → Routed FlowCall
  | .healthz, _ => .static [("status", "ok")]
  | .me, _ => .static [("user", getCurrentUser)]
  | .listFlows, _ => .call .listFlows
  | .getFlow, [flowId] => .call (.getFlow flowId)
  | .createFlow, _ =>
    match request.parseBody FlowCreate.validate with
    | some payload => .call (.createFlow payload)
    | none => .invalid
  | .updateFlow, [flowId] =>
    match request.parseBody FlowUpdate.validate with
    | some payload => .call (.updateFlow flowId payload)
    | none => .invalid
  | .deleteFlow, [flowId] => .call (.deleteFlow flowId)
  | _, _ => .invalid

/-- The handler that a request is dispatched to, with its path arguments. -/
def target (request : Request) : Option (Endpoint × List String) :=
  (Percent.unquote request.path).bind (Router.dispatch routeTable request.method)

/-- Finds what a request asks for. -/
def route (request : Request) : Routed FlowCall :=
  match target request with
  | some (endpoint, args) => bind request endpoint args
  | none => .unrouted

def serve (framework : Framework FlowResponse) (request : Request) (env : Env) (s : Store) :
    Reply FlowResponse × Store :=
  (route request).serve framework handle request env s

end Novon.Flow
