import Novon.TestUtils.MockRouter

/-!
# A client on the mock

A service client whose `transport` is a `MockRouter`.  What the router answers or raises reaches the
client as it would from the network; the exceptions by which the mock tells that a test is wrong are
raised like those of the HTTP library.
-/

namespace Novon.TestUtils

/-- A call of a client, with the request that it sends. -/
structure ClientCall (D : Type) where
  client : BaseServiceClient
  responseModel : Option TypeHint
  request : Request D

/-- `AssertionError(message)`. -/
def assertionError (message : String) : LibraryError := ⟨.assertionError, message, rfl⟩

/-- `TypeError(message)`. -/
def typeError (message : String) : LibraryError := ⟨.typeError, message, rfl⟩

/-- What a transport returns or raises when the mock answers. -/
def outcomeOf : Answer Response LibraryError → BaseServiceClient.Outcome
  | .response response => .ok response
  | .raised exc => .error exc
  | .assertionError message => .error (assertionError message)
  | .typeError message => .error (typeError message)

variable {J V D W : Type}

namespace MockRouter

/-- `handle_async_request`. -/
def send (lib : UrlLib) (request : Request D) (s : MockRouter Response LibraryError D W) :
    BaseServiceClient.Outcome × MockRouter Response LibraryError D W :=
  (s.handle lib request).map outcomeOf id

/-- A call on the mock. -/
def perform (codec : Codec J V) (lib : UrlLib) (call : ClientCall D)
    (s : MockRouter Response LibraryError D W) :
    Except Raised (Result V) × MockRouter Response LibraryError D W :=
  call.client.request codec (send lib call.request) call.request.method call.responseModel s

end MockRouter

end Novon.TestUtils
