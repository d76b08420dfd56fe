import Novon.Flow.Threads
import Novon.Platform.Traffic
import Novon.Uc.Threads

/-!
# The services on their thread pools

The handlers of both services run on threads, one dictionary operation at a time, while the event
loop of the BFF serves its requests attempt by attempt.  A request that reaches a service starts a
thread if it is routed to a handler.  The BFF may hear the reply, long after the handler has run, or
give the attempt up, whether or not the handler has run or ever will.
-/

namespace Novon.Platform.Threads

open Bff

/-- The two services, each with its store, its lock and its threads. -/
structure Hosts where
  uc : Pool Uc.Step Uc.Store (Reply UserResponse)
  flow : Pool Flow.Threads.Request Flow.Store (Reply FlowResponse)

def Hosts.empty : Hosts := ⟨Pool.init .empty, Pool.init .empty⟩

/-- How far the attempt is that a request in flight waits for. -/
inductive Progress where
  /-- It has not reached its service. -/
  | outstanding
  | served (service : Service) (thread : ℕ)
  /-- It has been answered without a handler. -/
  | replied (response : Response)

/-- An inbound request in flight. -/
structure Inbound where
  flight : Flight
  progress : Progress

structure Traffic where
  hosts : Hosts
  flights : List Inbound

def Traffic.empty : Traffic := ⟨.empty, []⟩

inductive Move where
  /-- An inbound request of the BFF arrives. -/
  | inbound (user : String) (request : InboundRequest) (uuids : Stream' Uuid)
  /-- The attempt that a request in flight waits for reaches its service. -/
  | reach (flight : ℕ) (env : Env)
  /-- A request of another client reaches a service. -/
  | client (service : Service) (request : Request) (env : Env)
  /-- A thread makes its next step, unless it waits for the lock. -/
  | run (service : Service) (thread : ℕ)
  /-- The reply reaches the BFF. -/
  | receive (flight : ℕ)
  /-- The HTTP library gives the attempt up. -/
  | giveUp (flight : ℕ) (exc : TransportError)

variable {J V : Type} (d : Deployment J V)

/-- A request reaches its service. -/
def accept (sent : Sent) (env : Env) (h : Hosts) : Progress × Hosts :=
  match sent.service with
  | .uc =>
    match Uc.route sent.request with
    | .call call =>
      (.served .uc h.uc.threads.length,
        { h with uc := (Pool.step (Pool.underLock Uc.Threads.script) (.start ⟨call, env⟩) h.uc).2 })
    -- there is no handler to look at the store
    | _ => (.replied (d.serve sent env .empty).1, h)
  | .flow =>
    match Flow.route sent.request with
    | .call call =>
      (.served .flow h.flow.threads.length,
        { h with
          flow := (Pool.step (Pool.underLock Flow.Threads.script) (.start ⟨call, env⟩) h.flow).2 })
    | _ => (.replied (d.serve sent env .empty).1, h)

/-- A thread makes its next step. -/
def advance (service : Service) (thread : ℕ) (h : Hosts) : Hosts :=
  match service with
  | .uc =>
    { h with uc := (Pool.step (Pool.underLock Uc.Threads.script) (.run thread) h.uc).2 }
  | .flow =>
    { h with flow := (Pool.step (Pool.underLock Flow.Threads.script) (.run thread) h.flow).2 }

/-- The response of a thread that has returned. -/
def response? (h : Hosts) : Service → ℕ → Option Response
  | .uc, thread => (h.uc.reply? thread).map (Lossy.render d.ucBody)
  | .flow, thread => (h.flow.reply? thread).map (Lossy.render d.flowBody)

/-- The response to an attempt, if there is one to be received. -/
def Progress.response? (h : Hosts) : Progress → Option Response
  | .outstanding => none
  | .served service thread => Threads.response? d h service thread
  | .replied response => some response

/-- The attempt has an outcome. -/
def Traffic.conclude (t : Traffic) (k : ℕ) (flight : Flight)
    (outcome : Except LibraryError Response) : Option (Answer V) × Traffic :=
  let flight := flight.record outcome
  (flight.answer d.bff, { t with flights := t.flights.set k ⟨flight, .outstanding⟩ })

/-- One move, with the answer of the BFF that it leads to, if it does. -/
def move : Move → Traffic → Option (Answer V) × Traffic
  | .inbound user request uuids, t =>
    let flight : Flight := ⟨user, request, uuids, []⟩
    (flight.answer d.bff, { t with flights := t.flights ++ [⟨flight, .outstanding⟩] })
  | .reach k env, t =>
    match t.flights[k]? with
    | some ⟨flight, .outstanding⟩ =>
      match flight.pending d.bff with
      | some sent =>
        let r := accept d sent env t.hosts
        (none, ⟨r.2, t.flights.set k ⟨flight, r.1⟩⟩)
      | none => (none, t)
    | _ => (none, t)
  | .client service request env, t =>
    (none, { t with hosts := (accept d ⟨service, request⟩ env t.hosts).2 })
  | .run service thread, t => (none, { t with hosts := advance service thread t.hosts })
  | .receive k, t =>
    match t.flights[k]? with
    | some ⟨flight, progress⟩ =>
      match progress.response? d t.hosts with
      | some response => t.conclude d k flight (.ok response)
      | none => (none, t)
    | none => (none, t)
  | .giveUp k exc, t =>
    match t.flights[k]? with
    | some ⟨flight, _⟩ =>
      match flight.pending d.bff with
      | some _ => t.conclude d k flight (.error exc.toLibraryError)
      | none => (none, t)
    | none => (none, t)

end Novon.Platform.Threads
