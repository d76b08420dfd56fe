import Novon.Core.Context

/-!
# Where exceptions are answered

An application of `create_basic_app`: the framework runs the registered exception handlers inside
`RequestIDMiddleware`, and answers what is still raised outside of it.
-/

namespace Novon

/-- How exceptions are answered. -/
structure ExceptionHandlers (ε β : Type) where
  /-- The response of the handler that is registered for an exception, if one is. -/
  registered : ε → Option (OutboundResponse β)
  /-- The framework's response to any other exception. -/
  serverError : ε → OutboundResponse β
  serverError_requestId : ∀ exc, (serverError exc).headers.get "X-Request-ID" = none

namespace ExceptionHandlers

variable {ε ω β : Type} (handlers : ExceptionHandlers ε β)

/-- Answers an exception that a handler is registered for. -/
def handle (x : Handler ε (Runtime ω) (OutboundResponse β)) :
    Handler ε (Runtime ω) (OutboundResponse β) := do
  match ← x.attempt with
  | .ok response => return response
  | .error exc =>
    match handlers.registered exc with
    | some response => return response
    | none => .raise exc

/-- Answers any exception. -/
def catchAll (x : Handler ε (Runtime ω) (OutboundResponse β)) :
    Handler ε (Runtime ω) (OutboundResponse β) := do
  match ← x.attempt with
  | .ok response => return response
  | .error exc => return handlers.serverError exc

/-- The application, from what the router and its endpoint do with a request in a state. -/
def serve (trustInboundTrace : Bool)
    (endpoint : RequestState → Handler ε (Runtime ω) (OutboundResponse β)) (headers : Headers) :
    Handler ε (Runtime ω) (OutboundResponse β) :=
  handlers.catchAll <| RequestIDMiddleware.dispatch trustInboundTrace
    (fun state => handlers.handle (endpoint state)) headers

/-- The framework's defaults, with a handler for the exceptions of one text. -/
def sample : ExceptionHandlers String String where
  registered := fun exc => if exc = "not found" then some ⟨404, [], exc⟩ else none
  serverError := fun _ =>
    ⟨500, [("content-type", "text/plain; charset=utf-8")], "Internal Server Error"⟩
  serverError_requestId := fun _ => by decide

end ExceptionHandlers

end Novon
