import Novon.Core.BaseClient
import Novon.Core.Feign

/-!
# One call over a lossy network

The attempts of a call before the one that is answered: each loses its request or its response, and
the client sees a transport error.  A lost response leaves the effect of its request behind.
-/

namespace Novon

/-- `httpx2.TransportError` and its subclasses. -/
structure TransportError extends LibraryError where
  isTransportError : cls.isSubclass [.transportError]

/-- What becomes of an attempt that gets no answer. -/
inductive Loss where
  /-- The server never sees the request. -/
  | request (exc : TransportError)
  /-- The server has served the request. -/
  | response (env : Env) (exc : TransportError)

/-- The request has reached the server. -/
def Loss.isResponse : Loss → Bool
  | request _ => false
  | response _ _ => true

namespace Lossy

variable {ρ σ J V : Type}

/-- The headers about a body: what the services write is JSON. -/
def contentHeaders : ReplyBody ρ → Headers
  | .empty => []
  | _ => [("content-type", "application/json")]

theorem contentType_mem (body : ReplyBody ρ) :
    (contentHeaders body).get "content-type" ∈ [none, some "application/json"] := by
  have hjson : Headers.get [("content-type", "application/json")] "content-type" ∈
      [none, some "application/json"] := by decide
  cases body with
  | empty => exact List.mem_cons_self
  | record _ | records _ | detail _ | mapping _ => exact hjson

/-- The response that carries a reply, given how bodies are written. -/
def render (body : ReplyBody ρ → Bytes) (reply : Reply ρ) : Response :=
  ⟨reply.statusCode, contentHeaders reply.body, body reply.body⟩

/-- The HTTP library on a network that loses the next attempts as listed and then none. -/
def send (serve : Env → σ → Reply ρ × σ) (body : ReplyBody ρ → Bytes) (env : Env) :
    σ × List Loss → Except LibraryError Response × (σ × List Loss)
  | (s, []) => (.ok (render body (serve env s).1), ((serve env s).2, []))
  | (s, .request exc :: losses) => (.error exc.toLibraryError, (s, losses))
  | (s, .response env' exc :: losses) =>
    (.error exc.toLibraryError, ((serve env' s).2, losses))

/-- What the caller of an endpoint sees: the wrapper's call of `request` on a server in state `s`,
when the attempts are lost as listed and `env` is what the answered one finds. -/
def perform (lib : HttpLib) (headers : Dict String String) (codec : Codec J V)
    (client : BaseServiceClient) (serve : Request → Env → σ → Reply ρ × σ)
    (body : ReplyBody ρ → Bytes) (env : Env) (losses : List Loss) (s : σ) (call : OutboundCall) :
    Except Raised (Result V) :=
  let request := Feign.send lib headers call
  let result := (BaseServiceClient.request codec client (send (serve request) body env) call.method
    call.responseModel (s, losses)).1
  if call.expectsNone then result.map fun _ => .none else result

end Lossy

end Novon
