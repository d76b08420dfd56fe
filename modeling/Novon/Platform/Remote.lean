import Novon.Platform.Deployment

/-!
# Methods of the typed clients in flight

Many callers use the two clients at once, on a network that may lose any request or response.  A
call of a method is kept with the outcomes of its attempts; what it does next is what the method's
wrapper and the base client do when its attempts are answered with these.
-/

namespace Novon.Platform.Remote

open Bff

/-- A call of a method of one of the clients. -/
inductive Call where
  | uc (call : UcCall)
  | flow (call : FlowCall)

def Call.service : Call → Service
  | .uc _ => .uc
  | .flow _ => .flow

def Call.client (clients : AppClients) : Call → BaseServiceClient
  | .uc _ => clients.uc
  | .flow _ => clients.flow

/-- What the wrapper makes of the arguments. -/
def Call.outbound (lib : HttpLib) : Call → Except WrapperError OutboundCall
  | .uc call => UcServiceClient.outbound lib call
  | .flow call => FlowServiceClient.outbound lib call

/-- A call with its context, and the outcomes of its attempts so far. -/
structure Flight where
  call : Call
  ctx : RequestContext
  uuids : Stream' Uuid
  outcomes : List (Except LibraryError Response)

variable {J V : Type}

namespace Flight

variable (app : App J V) (flight : Flight)

/-- The method, answered with the outcomes so far. -/
def run : Except Fault (Result V) × Runtime Sent :=
  (invoke app (replay fun k => flight.outcomes.getD k (.ok ⟨0, [], []⟩)) flight.call.service
    (flight.call.client app.clients) flight.ctx (flight.call.outbound app.lib)).run
      ⟨flight.uuids, []⟩

/-- The attempt that the call waits for. -/
def pending : Option Sent := (flight.run app).2.events[flight.outcomes.length]?

/-- What the method returns or raises, once there is no attempt to wait for. -/
def result : Option (Except Fault (Result V)) :=
  match flight.pending app with
  | some _ => none
  | none => some (flight.run app).1

/-- The call after a further attempt. -/
def record (outcome : Except LibraryError Response) : Flight :=
  { flight with outcomes := flight.outcomes ++ [outcome] }

end Flight

structure Traffic where
  stores : Stores
  flights : List Flight

def Traffic.empty : Traffic := ⟨.empty, []⟩

inductive Move where
  /-- A method is called. -/
  | call (call : Call) (ctx : RequestContext) (uuids : Stream' Uuid)
  /-- The attempt that a call in flight waits for is made. -/
  | attempt (flight : ℕ) (delivery : Delivery)
  /-- A request of somebody who does not use the client of the UC service. -/
  | uc (request : Request) (env : Env)
  /-- A request of somebody who does not use the client of the Flow service. -/
  | flow (request : Request) (env : Env)

/-- One move, with what a method returns or raises at it, if one does. -/
def move (d : Deployment J V) : Move → Traffic → Option (Except Fault (Result V)) × Traffic
  | .call call ctx uuids, t =>
    let flight : Flight := ⟨call, ctx, uuids, []⟩
    (flight.result d.bff, { t with flights := t.flights ++ [flight] })
  | .attempt k delivery, t =>
    match t.flights[k]? with
    | none => (none, t)
    | some flight =>
      match flight.pending d.bff with
      -- it has returned or raised
      | none => (none, t)
      | some sent =>
        let r := d.deliver sent t.stores delivery
        let flight := flight.record r.1
        (flight.result d.bff, ⟨r.2, t.flights.set k flight⟩)
  | .uc request env, t => (none, { t with stores := (d.step (.uc request env) t.stores).2 })
  | .flow request env, t => (none, { t with stores := (d.step (.flow request env) t.stores).2 })

end Novon.Platform.Remote
