import Novon.Core.Pydantic
import Novon.Core.Uuid
import Novon.Data.Handler

/-!
# What a route handler answers

A handler returns a value or raises: an `HTTPException`, which the framework turns into a response
with the exception's status and detail, or a `KeyError`, which nobody catches and which becomes a
500.
-/

namespace Novon

/-- What a handler raises. -/
inductive HandlerError where
  /-- `HTTPException(status_code=..., detail=...)`. -/
  | httpException (statusCode : ℤ) (detail : String)
  /-- `d[k]`, `d.pop(k)` or `del d[k]` with `k` not in `d`. -/
  | keyError
  deriving DecidableEq, Repr

/-- `d[k]`. -/
def Dict.item {κ β : Type} [DecidableEq κ] (d : Dict κ β) (k : κ) : Except HandlerError β :=
  match d.get? k with
  | some v => .ok v
  | none => .error .keyError

/-- The body of a reply of a service whose records are `ρ`. -/
inductive ReplyBody (ρ : Type) where
  | empty
  | record (r : ρ)
  | records (rs : List ρ)
  | detail (text : String)
  | mapping (content : List (String × String))
  deriving DecidableEq, Repr

/-- A reply: HTTP status and body. -/
structure Reply (ρ : Type) where
  statusCode : ℤ
  body : ReplyBody ρ
  deriving DecidableEq, Repr

/-- The reply to what a handler returned or raised, for a route with success status
`statusCode`. -/
def Reply.ofResult {ρ α : Type} (statusCode : ℤ) (body : α → ReplyBody ρ) :
    Except HandlerError α → Reply ρ
  | .ok a => ⟨statusCode, body a⟩
  | .error (.httpException status text) => ⟨status, .detail text⟩
  | .error .keyError => ⟨500, .detail "Internal Server Error"⟩

/-- What `uuid4()` and `datetime.now(UTC)` return, should the handler ask. -/
structure Env where
  uuid : Uuid
  now : Datetime

end Novon
