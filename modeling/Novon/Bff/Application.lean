import Novon.Bff.Server
import Novon.Core.Application

/-!
# The BFF behind the framework

The BFF with the framework's answer to an exception that is no `ServiceCallError`.
-/

namespace Novon.Bff

variable {J V : Type}

/-- The handler of `register_service_error_handlers`, and the framework's own response. -/
def exceptionHandlers : ExceptionHandlers Fault (Body V) where
  registered
    | .raised (.service exc) =>
      let response := serviceCallErrorHandler exc
      some ⟨response.statusCode, [], .error response.content⟩
    | _ => none
  serverError := fun _ =>
    ⟨500, [("content-type", "text/plain; charset=utf-8")], .detail "Internal Server Error"⟩
  serverError_requestId := fun _ => rfl

/-- The application. -/
def application (app : App J V) (downstream : Downstream) (user : String)
    (request : InboundRequest) : Handler Fault (Runtime Sent) (OutboundResponse (Body V)) :=
  exceptionHandlers.serve false (callNext app downstream user request) request.headers

/-- The downstream services answer attempt by attempt, whatever they are sent. -/
def replay (outcomes : ℕ → Except LibraryError Response) : Downstream := fun sents =>
  outcomes (sents.length - 1)

end Novon.Bff
