import Novon.Bff.Application
import Novon.Data.Run
import Novon.Flow.Server
import Novon.Network.Attempts
import Novon.Uc.Server

/-!
# The three services together

The BFF in front of the UC and the Flow service, each with its store, on a network that may lose
the request or the response of any attempt.  The services have other clients as well, which talk to
them directly.
-/

namespace Novon.Platform

open Bff

/-- The stores of the two services. -/
structure Stores where
  uc : Uc.Store
  flow : Flow.Store

def Stores.empty : Stores := ⟨.empty, .empty⟩

/-- The services with the libraries that they run on and the way in which they write bodies. -/
structure Deployment (J V : Type) where
  bff : App J V
  ucFramework : Framework UserResponse
  flowFramework : Framework FlowResponse
  ucBody : ReplyBody UserResponse → Bytes
  flowBody : ReplyBody FlowResponse → Bytes

variable {J V : Type} (d : Deployment J V)

namespace Deployment

/-- A request that has reached its service. -/
def serve (sent : Sent) (env : Env) (s : Stores) : Response × Stores :=
  match sent.service with
  | .uc =>
    let r := Uc.serve d.ucFramework sent.request env s.uc
    (Lossy.render d.ucBody r.1, { s with uc := r.2 })
  | .flow =>
    let r := Flow.serve d.flowFramework sent.request env s.flow
    (Lossy.render d.flowBody r.1, { s with flow := r.2 })

/-- One attempt: what the HTTP library returns or raises, and the stores it leaves. -/
def deliver (sent : Sent) (s : Stores) : Delivery → Except LibraryError Response × Stores
  | .answered env => let r := d.serve sent env s; (.ok r.1, r.2)
  | .lost (.request exc) => (.error exc.toLibraryError, s)
  | .lost (.response env exc) => (.error exc.toLibraryError, (d.serve sent env s).2)

/-- The stores after the attempts of one inbound request. -/
def after (deliveries : ℕ → Delivery) (s : Stores) (sents : List Sent) : Stores :=
  sents.zipIdx.foldl (fun s x => (d.deliver x.1 s (deliveries x.2)).2) s

/-- What the BFF sees of the services, from stores `s` on. -/
def downstream (deliveries : ℕ → Delivery) (s : Stores) : Downstream := fun sents =>
  match sents.getLast? with
  | some sent =>
    (d.deliver sent (d.after deliveries s sents.dropLast) (deliveries (sents.length - 1))).1
  -- never reached: it is asked about the last of some requests
  | none => .ok ⟨0, [], []⟩

end Deployment

/-- Something that reaches one of the services from outside. -/
inductive Input where
  /-- An inbound request of the BFF, for the user that the auth dependency has found. -/
  | bff (user : String) (request : InboundRequest) (uuids : Stream' Uuid)
      (deliveries : ℕ → Delivery)
  /-- A request of another client of the UC service. -/
  | uc (request : Request) (env : Env)
  /-- A request of another client of the Flow service. -/
  | flow (request : Request) (env : Env)

/-- What the sender sees; of a response of the BFF, status and body. -/
inductive Answer (V : Type) where
  | bff (statusCode : ℤ) (body : Body V)
  | raised
  | uc (reply : Reply UserResponse)
  | flow (reply : Reply FlowResponse)

/-- Status and body of a response. -/
def shown (response : OutboundResponse (Body V)) : Answer V :=
  .bff response.statusCode response.body

def Answer.ofResult : Except Fault (OutboundResponse (Body V)) → Answer V
  | .ok response => shown response
  | .error _ => .raised

namespace Deployment

/-- One inbound request from its arrival to its response. -/
def serveInbound (user : String) (request : InboundRequest) (uuids : Stream' Uuid)
    (deliveries : ℕ → Delivery) (s : Stores) : Answer V × Stores :=
  let r := (application d.bff (d.downstream deliveries s) user request).run ⟨uuids, []⟩
  (.ofResult r.1, d.after deliveries s r.2.events)

def step : Input → Stores → Answer V × Stores
  | .bff user request uuids deliveries, s => d.serveInbound user request uuids deliveries s
  | .uc request env, s =>
    let r := Uc.serve d.ucFramework request env s.uc
    (.uc r.1, { s with uc := r.2 })
  | .flow request env, s =>
    let r := Flow.serve d.flowFramework request env s.flow
    (.flow r.1, { s with flow := r.2 })

end Deployment

end Novon.Platform
