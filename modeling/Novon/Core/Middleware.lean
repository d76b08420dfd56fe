import Novon.Core.Runtime
import Novon.Http.Headers

/-!
# Request id and trace id

`packages/core`, `middleware.py`.  The logging of replaced ids is left out.
-/

namespace Novon

/-- `request.state`, as far as the middleware sets it. -/
structure RequestState where
  requestId : Option String
  traceId : Option String
  deriving DecidableEq

namespace RequestIDMiddleware

/-- The character class of `_TOKEN_PATTERN`, without its ranges. -/
def tokenPunctuation : List Char := "!#$%&'*+.=:^_`|~-".toList

/-- The character class of `_TOKEN_PATTERN`. -/
def tokenClass (c : Char) : Bool :=
  tokenPunctuation.contains c || ('A' ≤ c ∧ c ≤ 'Z') || ('a' ≤ c ∧ c ≤ 'z') || ('0' ≤ c ∧ c ≤ '9')

/-- `_TOKEN_PATTERN.fullmatch(raw)`. -/
def fullmatch (raw : String) : Bool :=
  (1 ≤ raw.length ∧ raw.length ≤ 512) && raw.toList.all tokenClass

variable {ε ω β : Type}

/-- `sanitize_header_token`. -/
def sanitizeHeaderToken : Option String → Handler ε (Runtime ω) String
  | some raw => if raw ≠ "" && fullmatch raw then pure raw else Runtime.uuid4
  | none => Runtime.uuid4

/-- The trace id: continued from a trusted caller, else minted. -/
def traceIdOf (trustInboundTrace : Bool) (headers : Headers) : Handler ε (Runtime ω) String :=
  if trustInboundTrace then sanitizeHeaderToken (headers.get "X-Trace-ID") else Runtime.uuid4

/-- What `dispatch` stores in `request.state`. -/
def storedState (trustInboundTrace : Bool) (headers : Headers) :
    Handler ε (Runtime ω) RequestState := do
  let requestId ← sanitizeHeaderToken (headers.get "X-Request-ID")
  let traceId ← traceIdOf trustInboundTrace headers
  return ⟨some requestId, some traceId⟩

/-- `RequestIDMiddleware.dispatch`. -/
def dispatch (trustInboundTrace : Bool)
    (callNext : RequestState → Handler ε (Runtime ω) (OutboundResponse β)) (headers : Headers) :
    Handler ε (Runtime ω) (OutboundResponse β) := do
  let requestId ← sanitizeHeaderToken (headers.get "X-Request-ID")
  let traceId ← traceIdOf trustInboundTrace headers
  let response ← callNext ⟨some requestId, some traceId⟩
  return { response with headers := response.headers.set "X-Request-ID" requestId }

end RequestIDMiddleware

end Novon
