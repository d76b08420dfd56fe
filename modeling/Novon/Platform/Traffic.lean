import Novon.Platform.Deployment

/-!
# Inbound requests in flight

The event loop of the BFF serves many inbound requests at once.  While one of them waits for an
attempt others go on, so that the stores may change between two attempts of one request.  A request
in flight is kept with the outcomes of its attempts; what it does next is what the application does
when its attempts are answered with these.
-/

namespace Novon.Platform

open Bff

/-- An inbound request and the outcomes of its attempts so far. -/
structure Flight where
  user : String
  request : InboundRequest
  uuids : Stream' Uuid
  outcomes : List (Except LibraryError Response)

variable {J V : Type}

namespace Flight

variable (app : App J V) (flight : Flight)

/-- The application, answered with the outcomes so far. -/
def run : Except Fault (OutboundResponse (Body V)) × Runtime Sent :=
  -- the outcome of an attempt that has not been made is not looked at
  (application app (replay fun k => flight.outcomes.getD k (.ok ⟨0, [], []⟩)) flight.user
    flight.request).run ⟨flight.uuids, []⟩

/-- The attempt that the request waits for. -/
def pending : Option Sent := (flight.run app).2.events[flight.outcomes.length]?

/-- The response, once there is no attempt to wait for. -/
def answer : Option (Answer V) :=
  match flight.pending app with
  | some _ => none
  | none => some (.ofResult (flight.run app).1)

/-- The request after a further attempt. -/
def record (outcome : Except LibraryError Response) : Flight :=
  { flight with outcomes := flight.outcomes ++ [outcome] }

end Flight

/-- The stores and the requests in flight. -/
structure Traffic where
  stores : Stores
  flights : List Flight

def Traffic.empty : Traffic := ⟨.empty, []⟩

inductive Move where
  /-- An inbound request of the BFF arrives. -/
  | inbound (user : String) (request : InboundRequest) (uuids : Stream' Uuid)
  /-- The attempt that a request in flight waits for is made. -/
  | attempt (flight : ℕ) (delivery : Delivery)
  /-- A request of another client of the UC service. -/
  | uc (request : Request) (env : Env)
  /-- A request of another client of the Flow service. -/
  | flow (request : Request) (env : Env)

/-- One move, with the answer that it leads to, if it does. -/
def Deployment.move (d : Deployment J V) : Move → Traffic → Option (Answer V) × Traffic
  | .inbound user request uuids, t =>
    let flight : Flight := ⟨user, request, uuids, []⟩
    (flight.answer d.bff, { t with flights := t.flights ++ [flight] })
  | .attempt k delivery, t =>
    match t.flights[k]? with
    | none => (none, t)
    | some flight =>
      match flight.pending d.bff with
      -- it has been answered
      | none => (none, t)
      | some sent =>
        let r := d.deliver sent t.stores delivery
        let flight := flight.record r.1
        (flight.answer d.bff, ⟨r.2, t.flights.set k flight⟩)
  | .uc request env, t =>
    let r := d.step (.uc request env) t.stores
    (some r.1, { t with stores := r.2 })
  | .flow request env, t =>
    let r := d.step (.flow request env) t.stores
    (some r.1, { t with stores := r.2 })

end Novon.Platform
