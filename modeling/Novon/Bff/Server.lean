import Novon.Bff.Routes

/-!
# The BFF as an application

From an inbound request through the middleware, the dependencies and the handler to the requests
that the clients hand to the HTTP library, with its retries.  How the downstream services and the
network answer is a function of all requests so far.
-/

namespace Novon.Bff

inductive Service where
  | flow
  | uc
  deriving DecidableEq

/-- A request that a client has handed to the HTTP library, one for each attempt. -/
structure Sent where
  service : Service
  request : Request

structure AppClients where
  flow : BaseServiceClient
  uc : BaseServiceClient

/-- What the HTTP layer does at the attempt that is the last of the list. -/
abbrev Downstream : Type := List Sent → Except LibraryError Response

/-- The application: the libraries that it runs on, and its clients. -/
structure App (J V : Type) where
  lib : HttpLib
  codec : Codec J V
  framework : WebFramework V
  clients : AppClients

/-- What a handler raises. -/
inductive Fault where
  | raised (exc : Raised)
  | wrapper (exc : WrapperError)

def send (downstream : Downstream) (sent : Sent) (s : Runtime Sent) :
    Except LibraryError Response × Runtime Sent :=
  (downstream (s.events ++ [sent]), { s with events := s.events ++ [sent] })

variable {J V : Type} (app : App J V) (downstream : Downstream)

/-- An endpoint method of a client, from what its wrapper makes of the arguments. -/
def invoke (service : Service) (client : BaseServiceClient) (ctx : RequestContext)
    (outbound : Except WrapperError OutboundCall) : Handler Fault (Runtime Sent) (Result V) :=
  match outbound with
  | .error exc => .raise (.wrapper exc)
  | .ok call => fun s =>
    let headers := BaseServiceClient.mergedHeaders (some ctx) none
    let sent := ⟨service, Feign.send app.lib headers call⟩
    let (result, s') := BaseServiceClient.request app.codec client (send downstream sent)
      call.method call.responseModel s
    (((if call.expectsNone then result.map fun _ => .none else result)).mapError .raised, s')

def flowClient (ctx : RequestContext) (call : FlowCall) : Handler Fault (Runtime Sent) (Result V) :=
  invoke app downstream .flow app.clients.flow ctx (FlowServiceClient.outbound app.lib call)

def ucClient (ctx : RequestContext) (call : UcCall) : Handler Fault (Runtime Sent) (Result V) :=
  invoke app downstream .uc app.clients.uc ctx (UcServiceClient.outbound app.lib call)

/-- The handlers of the proxied endpoints. -/
def handle (ctx : RequestContext) :
    BffCall → Handler Fault (Runtime Sent) (OutboundResponse (Body V))
  | .listFlows => do
    let flows ← flowClient app downstream ctx .listFlows
    return ⟨200, [], .result flows⟩
  | .getFlow flowId => do
    let flow ← flowClient app downstream ctx (.getFlow flowId)
    return ⟨200, [], .result flow⟩
  | .createFlow payload => do
    let flow ← flowClient app downstream ctx (.createFlow payload)
    return ⟨201, [], .result flow⟩
  | .getUser userId => do
    let user ← ucClient app downstream ctx (.getUser userId)
    return ⟨200, [], .result user⟩
  | .getUserByUsername username => do
    let user ← ucClient app downstream ctx (.getUserByUsername username)
    return ⟨200, [], .result user⟩
  | .getFlowWithOwner flowId => do
    let flow ← flowClient app downstream ctx (.getFlow flowId)
    return ⟨200, [], .flowWithOwner flow⟩

/-- The router, with the dependencies of the handlers. -/
def callNext (user : String) (request : InboundRequest) (state : RequestState) :
    Handler Fault (Runtime Sent) (OutboundResponse (Body V)) :=
  match route app.framework user request with
  | .unrouted => pure (app.framework.unrouted request)
  | .static content => pure ⟨200, [], .mapping content⟩
  | .invalid => pure (app.framework.invalid request)
  | .call call => do
    let ctx ← RequestContext.fromRequest request.headers state (some user)
    handle app downstream ctx call

/-- The registered exception handler. -/
def handleServiceCallError (x : Handler Fault (Runtime Sent) (OutboundResponse (Body V))) :
    Handler Fault (Runtime Sent) (OutboundResponse (Body V)) := do
  match ← x.attempt with
  | .error (.raised (.service exc)) =>
    let response := serviceCallErrorHandler exc
    return ⟨response.statusCode, [], .error response.content⟩
  | outcome => .ofExcept outcome

/-- An inbound request, for the user that the auth dependency has found. -/
def serve (user : String) (request : InboundRequest) :
    Handler Fault (Runtime Sent) (OutboundResponse (Body V)) :=
  RequestIDMiddleware.dispatch false
    (fun state => handleServiceCallError (callNext app downstream user request state))
    request.headers

end Novon.Bff
