import Novon.Core.Exceptions

/-!
# Error responses

`service_error_handlers.py`: the response of a service whose downstream call failed.
-/

namespace Novon

structure ErrorContent where
  error : String
  message : String
  service : String
  statusCode : Option ℤ
  deriving DecidableEq

/-- The response to a request that ended in a `ServiceCallError`. -/
structure ErrorResponse where
  statusCode : ℤ
  content : ErrorContent
  deriving DecidableEq

/-- `exc.__class__.__name__`. -/
def ServiceCallError.className (exc : ServiceCallError) : String :=
  match exc.cls with
  | .serviceTimeoutError => "ServiceTimeoutError"
  | .serviceUnavailableError => "ServiceUnavailableError"
  | .serviceResponseError => "ServiceResponseError"
  | .serviceBadRequestError => "ServiceBadRequestError"
  | .serviceNotFoundError => "ServiceNotFoundError"
  | _ => "ServiceCallError"

/-- `exc.status_code or 400`. -/
def statusOr400 : Option ℤ → ℤ
  | none => 400
  | some status => if status = 0 then 400 else status

/-- `map_service_error_to_status`. -/
def mapServiceErrorToStatus (exc : ServiceCallError) : ℤ :=
  if exc.isInstance [.serviceTimeoutError] then 504
  else if exc.isInstance [.serviceUnavailableError] then 502
  else if exc.isInstance [.serviceNotFoundError] then 404
  else if exc.isInstance [.serviceBadRequestError] then statusOr400 exc.statusCode
  else if exc.isInstance [.serviceResponseError] then 502
  else 502

/-- `service_call_error_handler`. -/
def serviceCallErrorHandler (exc : ServiceCallError) : ErrorResponse where
  statusCode := mapServiceErrorToStatus exc
  content := {
    error := exc.className
    message := exc.message
    service := exc.serviceName
    statusCode := exc.statusCode }

end Novon
