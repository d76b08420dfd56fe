import Novon.Core.Context

/-!
# Chains of services

Every service runs `RequestIDMiddleware`, builds its context with `RequestContext.from_request`, and
calls the next one with `to_headers()`.  The first is the edge and does not trust the trace id that
it is called with; the others do.  What a service answers, and whether it raises, may depend on its
own context and on what became of its call.
-/

namespace Novon.Chain

open RequestIDMiddleware

/-- What is seen of a run. -/
inductive Event (β : Type) where
  /-- A service handles a request, with the ids in `request.state` and the context built of them. -/
  | handled (state : RequestState) (ctx : RequestContext)
  /-- A service has returned a response. -/
  | returned (response : OutboundResponse β)

/-- A service: the identity of its caller, and what it answers, given what became of the call that
it made, if it made one. -/
structure Hop (ε β : Type) where
  userId : Option String
  answer : RequestContext → Option (Except ε (OutboundResponse β)) → Except ε (OutboundResponse β)

/-- The way from a client to a server: the headers that arrive for those that are set.  Values that
are tokens arrive unchanged. -/
structure Transport where
  deliver : Dict String String → Headers
  deliver_token : ∀ (ctx : RequestContext) (name value : String), fullmatch value = true →
    ctx.toHeaders.get? name = some value → (deliver ctx.toHeaders).get name = some value

abbrev Handling (ε β : Type) : Type := Handler ε (Runtime (Event β)) (OutboundResponse β)

variable {ε β : Type}

/-- A service calls the next one of the chain, if there is one. -/
def handle (hop : Hop ε β) (next : Option (Dict String String → Handling ε β)) (headers : Headers)
    (state : RequestState) : Handler ε (Runtime (Event β)) (OutboundResponse β) := do
  let ctx ← RequestContext.fromRequest headers state hop.userId
  Runtime.emit (.handled state ctx)
  match next with
  | none => .ofExcept (hop.answer ctx none)
  | some call => do
    let outcome ← (call ctx.toHeaders).attempt
    .ofExcept (hop.answer ctx (some outcome))

/-- A service behind its middleware. -/
def visit (trustInboundTrace : Bool) (hop : Hop ε β)
    (next : Option (Dict String String → Handling ε β)) (headers : Headers) :
    Handler ε (Runtime (Event β)) (OutboundResponse β) := do
  let response ← dispatch trustInboundTrace (handle hop next headers) headers
  Runtime.emit (.returned response)
  return response

/-- The call that a service makes, if the services after it are these. -/
def call : List (Transport × Hop ε β) → Option (Dict String String → Handling ε β)
  | [] => none
  | (transport, hop) :: later =>
    some fun sent => visit true hop (call later) (transport.deliver sent)

/-- A request to the edge, with the services after it. -/
def serve (edge : Hop ε β) (later : List (Transport × Hop ε β)) (headers : Headers) :
    Handling ε β :=
  visit false edge (call later) headers

end Novon.Chain
