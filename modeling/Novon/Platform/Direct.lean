import Novon.Platform.Gateway
import Novon.Platform.Remote

/-!
# The services, called directly

What the typed clients stand for: a method that acts on the stores as its handler does, returns the
record, the records or nothing, and raises for a refusal.  Requests, paths, bodies and their
encodings are not seen any more, and of the network only that an attempt may be lost.
-/

namespace Novon.Platform.Direct

open Bff Remote

/-- The values that the response models give to records and lists of them. -/
structure Views (V : Type) extends Decoding V where
  users : List UserResponse → V

variable {J V ρ : Type}

/-- What a method raises for a refusal: the record is not there, or the request conflicts. -/
def refusal (client : BaseServiceClient) (statusCode : ℤ) (text : String) : ServiceCallError :=
  if statusCode = 404 then
    .notFound ("Resource not found from " ++ client.serviceName) client.serviceName (some text)
  else
    .badRequest (client.serviceName ++ " returned " ++ toString statusCode) client.serviceName
      statusCode (some text)

/-- What a method returns or raises for the reply of its handler. -/
def seen (client : BaseServiceClient) (text : ReplyBody ρ → String) (value : ρ → V)
    (values : List ρ → V) (reply : Reply ρ) : Except Fault (Result V) :=
  match reply.body with
  | .record r => .ok (.value (value r))
  | .records rs => .ok (.value (values rs))
  | .empty => .ok .none
  | body => .error (.raised (.service (refusal client reply.statusCode (text body))))

/-- The handler of a method, on the stores. -/
def perform (d : Deployment J V) (v : Views V) (call : Remote.Call) (env : Env) (s : Stores) :
    Except Fault (Result V) × Stores :=
  match call with
  | .uc call =>
    let r := Uc.handle call env s.uc
    (seen d.bff.clients.uc (d.bff.codec.utf8 ∘ d.ucBody) v.user v.users r.1, { s with uc := r.2 })
  | .flow call =>
    let r := Flow.handle call env s.flow
    (seen d.bff.clients.flow (d.bff.codec.utf8 ∘ d.flowBody) v.flow v.flows r.1,
      { s with flow := r.2 })

/-- What a method raises when no attempt is answered. -/
def unreached (client : BaseServiceClient) (exc : TransportError) : ServiceCallError :=
  if exc.cls.isSubclass [.timeoutException] then
    .timeout ("Call to " ++ client.serviceName ++ " timed out") client.serviceName
  else
    .unavailable ("Cannot reach " ++ client.serviceName ++ ": " ++ exc.text) client.serviceName

/-- A call of a method as its caller sees it. -/
def operation (d : Deployment J V) (v : Views V) (call : Remote.Call) :
    Operation Stores (Except Fault (Result V)) where
  perform := perform d v call
  unreached := fun exc => .error (.raised (.service (unreached (call.client d.bff.clients) exc)))

/-- The attempts after the first: creates and updates are never repeated. -/
def retries (clients : AppClients) : Remote.Call → ℕ
  | .uc (.createUser _) | .uc (.updateUser _ _) => 0
  | .flow (.createFlow _) | .flow (.updateFlow _ _) => 0
  | call => (call.client clients).maxRetries.toNat - 1

inductive Flight where
  | waiting (call : Remote.Call) (left : ℕ)
  | returned

structure Traffic where
  stores : Stores
  flights : List Flight

def Traffic.empty : Traffic := ⟨.empty, []⟩

/-- One move: a method acts on the stores as its attempt finds them. -/
def move (d : Deployment J V) (v : Views V) :
    Remote.Move → Traffic → Option (Except Fault (Result V)) × Traffic
  | .call call _ _, t =>
    (none, { t with flights := t.flights ++ [.waiting call (retries d.bff.clients call)] })
  | .attempt k delivery, t =>
    match t.flights[k]? with
    | some (.waiting call left) =>
      match (operation d v call).attempt left t.stores delivery with
      | (.inl result, s) => (some result, ⟨s, t.flights.set k .returned⟩)
      | (.inr left, s) => (none, ⟨s, t.flights.set k (.waiting call left)⟩)
    | _ => (none, t)
  | .uc request env, t => (none, { t with stores := (d.step (.uc request env) t.stores).2 })
  | .flow request env, t => (none, { t with stores := (d.step (.flow request env) t.stores).2 })

end Novon.Platform.Direct
