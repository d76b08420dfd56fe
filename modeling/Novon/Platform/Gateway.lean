import Novon.Flow.Equiv.Routes
import Novon.Platform.Traffic
import Novon.Uc.Equiv.Routes

/-!
# What the BFF is for

The BFF as a gateway: a proxied call reads or extends the stores themselves, and what its caller
sees follows from the stores alone.  Nothing here mentions clients, headers, paths, bodies or their
encodings.
-/

namespace Novon.Platform

open Bff

/-- The values that the response models give to records. -/
structure Decoding (V : Type) where
  user : UserResponse → V
  flow : FlowResponse → V
  flows : List FlowResponse → V

namespace Gateway

variable {J V : Type}

/-- The service that a call is for. -/
def service : BffCall → Service
  | .listFlows | .getFlow _ | .createFlow _ | .getFlowWithOwner _ => .flow
  | .getUser _ | .getUserByUsername _ => .uc

def client (clients : AppClients) (call : BffCall) : BaseServiceClient :=
  match service call with
  | .flow => clients.flow
  | .uc => clients.uc

/-- The record is not there. -/
def notFound (client : BaseServiceClient) : Answer V :=
  .bff 404 (.error ⟨"ServiceNotFoundError", "Resource not found from " ++ client.serviceName,
    client.serviceName, some 404⟩)

/-- The service has no use for the arguments. -/
def unprocessable (client : BaseServiceClient) : Answer V :=
  .bff 422 (.error ⟨"ServiceBadRequestError", client.serviceName ++ " returned 422",
    client.serviceName, some 422⟩)

/-- The service has not answered. -/
def unreached (client : BaseServiceClient) (exc : TransportError) : Answer V :=
  if exc.cls.isSubclass [.timeoutException] then
    .bff 504 (.error ⟨"ServiceTimeoutError", "Call to " ++ client.serviceName ++ " timed out",
      client.serviceName, some 504⟩)
  else
    .bff 502 (.error ⟨"ServiceUnavailableError",
      "Cannot reach " ++ client.serviceName ++ ": " ++ exc.text, client.serviceName, some 502⟩)

/-- A call on the stores. -/
def answer (v : Decoding V) (clients : AppClients) (env : Env) (s : Stores) :
    BffCall → Answer V × Stores
  | .listFlows => (.bff 200 (.result (.value (v.flows s.flow.values))), s)
  | .getFlow flowId =>
    match s.flow.get? flowId with
    | some flow => (.bff 200 (.result (.value (v.flow flow))), s)
    | none => (notFound clients.flow, s)
  | .createFlow payload =>
    (.bff 201 (.result (.value (v.flow (Flow.newFlow payload env)))),
      { s with flow := s.flow.set (Flow.flowIdOf env.uuid) (Flow.newFlow payload env) })
  | .getUser userId =>
    -- the UC service takes these ids for a lookup by name without a name
    if userId ∈ Uc.staticIds then (unprocessable clients.uc, s)
    else match s.uc.users.get? userId with
      | some user => (.bff 200 (.result (.value (v.user user))), s)
      | none => (notFound clients.uc, s)
  | .getUserByUsername username =>
    match (s.uc.usersByUsername.get? (.str username)).bind s.uc.users.get? with
    | some user => (.bff 200 (.result (.value (v.user user))), s)
    | none => (notFound clients.uc, s)
  | .getFlowWithOwner flowId =>
    match s.flow.get? flowId with
    | some flow => (.bff 200 (.flowWithOwner (.value (v.flow flow))), s)
    | none => (notFound clients.flow, s)

/-- A call as its caller sees it. -/
def operation (v : Decoding V) (clients : AppClients) (call : BffCall) :
    Operation Stores (Answer V) where
  perform := fun env s => answer v clients env s call
  unreached := unreached (client clients call)

/-- The attempts after the first: a create is never repeated. -/
def retries (clients : AppClients) (call : BffCall) : ℕ :=
  match call with
  | .createFlow _ => 0
  | _ => (client clients call).maxRetries.toNat - 1

/-- What an inbound request asks for: an answer without a service, or a call. -/
def arrival (d : Deployment J V) (user : String) (request : InboundRequest) : Answer V ⊕ BffCall :=
  match route d.bff.framework user request with
  | .unrouted => .inl (shown (d.bff.framework.unrouted request))
  | .static content => .inl (.bff 200 (.mapping content))
  | .invalid => .inl (shown (d.bff.framework.invalid request))
  | .call call => .inr call

/-- One input, for the routing and the services of a deployment. -/
def step (d : Deployment J V) (v : Decoding V) : Input → Stores → Answer V × Stores
  | .bff user request _ deliveries, s =>
    match arrival d user request with
    | .inl answer => (answer, s)
    | .inr call =>
      (operation v d.bff.clients call).conduct deliveries (retries d.bff.clients call) 0 s
  | i, s => d.step i s

/-! ### Calls in flight -/

inductive Flight where
  | waiting (call : BffCall) (left : ℕ)
  | answered

structure Traffic where
  stores : Stores
  flights : List Flight

def Traffic.empty : Traffic := ⟨.empty, []⟩

/-- One move: a call acts on the stores as its attempt finds them. -/
def move (d : Deployment J V) (v : Decoding V) : Move → Traffic → Option (Answer V) × Traffic
  | .inbound user request _, t =>
    match arrival d user request with
    | .inl answer => (some answer, { t with flights := t.flights ++ [.answered] })
    | .inr call =>
      (none, { t with flights := t.flights ++ [.waiting call (retries d.bff.clients call)] })
  | .attempt k delivery, t =>
    match t.flights[k]? with
    | some (.waiting call left) =>
      match (operation v d.bff.clients call).attempt left t.stores delivery with
      | (.inl answer, s) => (some answer, ⟨s, t.flights.set k .answered⟩)
      | (.inr left, s) => (none, ⟨s, t.flights.set k (.waiting call left)⟩)
    | _ => (none, t)
  | .uc request env, t =>
    let r := d.step (.uc request env) t.stores
    (some r.1, { t with stores := r.2 })
  | .flow request env, t =>
    let r := d.step (.flow request env) t.stores
    (some r.1, { t with stores := r.2 })

end Gateway

end Novon.Platform
