import Novon.Core.Middleware

/-!
# The request context

`packages/core`, `http/context.py`.
-/

namespace Novon

/-- `RequestContext`. -/
structure RequestContext where
  authToken : Option String
  requestId : Option String
  traceId : Option String
  userId : Option String
  deriving DecidableEq

namespace RequestContext

variable {ε ω : Type}

/-- `value or str(uuid4())`. -/
def orUuid4 (value : Option String) : Handler ε (Runtime ω) String :=
  match value with
  | some text => if text ≠ "" then pure text else Runtime.uuid4
  | none => Runtime.uuid4

/-- `RequestContext.from_request`. -/
def fromRequest (headers : Headers) (state : RequestState) (userId : Option String) :
    Handler ε (Runtime ω) RequestContext := do
  let requestId ← orUuid4 state.requestId
  let traceId ← orUuid4 state.traceId
  -- of the inbound headers only `Authorization` is read
  return ⟨headers.get "Authorization", some requestId, some traceId, userId⟩

/-- `if value: headers[name] = value`. -/
def addHeader (name : String) (value : Option String) (headers : Dict String String) :
    Dict String String :=
  match value with
  | some text => if text ≠ "" then headers.set name text else headers
  | none => headers

/-- `to_headers`. -/
def toHeaders (ctx : RequestContext) : Dict String String :=
  addHeader "X-User-ID" ctx.userId <|
    addHeader "X-Trace-ID" ctx.traceId <|
      addHeader "X-Request-ID" ctx.requestId <|
        addHeader "Authorization" ctx.authToken .empty

end RequestContext

end Novon
