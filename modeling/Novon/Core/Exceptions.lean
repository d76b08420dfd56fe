import Mathlib.Data.Int.Notation
import Mathlib.Data.List.Basic

/-!
# Exception classes

The classes that the client and its callers name in `except` clauses and `isinstance` tests, with
the rest of the families that the HTTP library and the decoders of bodies raise.  `isinstance` is
membership in the list of a class and its bases.
-/

namespace Novon

inductive ExcClass where
  | exception
  -- the language and its decoders
  | valueError
  | runtimeError
  | typeError
  | lookupError
  | assertionError
  | recursionError
  | unicodeError
  | unicodeDecodeError
  | unicodeEncodeError
  | jsonDecodeError
  -- Pydantic
  | validationError
  | pydanticSerializationError
  -- httpx2
  | httpError
  | requestError
  | transportError
  | timeoutException
  | connectTimeout
  | readTimeout
  | writeTimeout
  | poolTimeout
  | networkError
  | connectError
  | readError
  | writeError
  | closeError
  | protocolError
  | localProtocolError
  | remoteProtocolError
  | proxyError
  | unsupportedProtocol
  | decodingError
  | tooManyRedirects
  -- `errors.py`
  | appError
  | serviceCallError
  | serviceTimeoutError
  | serviceUnavailableError
  | serviceResponseError
  | serviceBadRequestError
  | serviceNotFoundError
  deriving DecidableEq, Repr

namespace ExcClass

def base : ExcClass → Option ExcClass
  | exception => none
  | valueError | runtimeError | typeError | lookupError | assertionError | httpError | appError =>
    some exception
  | recursionError => some runtimeError
  | unicodeError | jsonDecodeError | validationError | pydanticSerializationError =>
    some valueError
  | unicodeDecodeError | unicodeEncodeError => some unicodeError
  | requestError => some httpError
  | transportError | decodingError | tooManyRedirects => some requestError
  | timeoutException | networkError | protocolError | proxyError | unsupportedProtocol =>
    some transportError
  | connectTimeout | readTimeout | writeTimeout | poolTimeout => some timeoutException
  | connectError | readError | writeError | closeError => some networkError
  | localProtocolError | remoteProtocolError => some protocolError
  | serviceCallError => some appError
  | serviceTimeoutError | serviceUnavailableError | serviceResponseError |
    serviceBadRequestError | serviceNotFoundError => some serviceCallError

/-- A class and its bases up to the given distance. -/
def basesUpTo : ℕ → ExcClass → List ExcClass
  | 0, c => [c]
  | n + 1, c => c :: match c.base with
    | some b => basesUpTo n b
    | none => []

/-- A class and all its bases: no class is further than five from `Exception`. -/
def mro (c : ExcClass) : List ExcClass := basesUpTo 5 c

/-- `issubclass(c, classes)`. -/
def isSubclass (c : ExcClass) (classes : List ExcClass) : Bool := classes.any (· ∈ c.mro)

end ExcClass

/-- An exception that a library raises: it is none of those of `errors.py`. -/
structure LibraryError where
  cls : ExcClass
  /-- `str(exc)`. -/
  text : String
  isForeign : cls.isSubclass [.appError] = false

/-- An exception that `json.loads` raises on the bytes of a body. -/
structure DecodeError where
  cls : ExcClass
  text : String
  isDecodeError : cls ∈ [.jsonDecodeError, .unicodeDecodeError, .valueError, .recursionError]

theorem jsonDecodeError_isDecodeError :
    ExcClass.jsonDecodeError ∈
      [.jsonDecodeError, .unicodeDecodeError, .valueError, .recursionError] := by
  decide

/-- `ServiceCallError` and its subclasses. -/
structure ServiceCallError where
  cls : ExcClass
  message : String
  serviceName : String
  statusCode : Option ℤ
  responseBody : Option String
  isServiceCallError : cls.isSubclass [.serviceCallError]

namespace ServiceCallError

/-- `isinstance(exc, classes)`. -/
def isInstance (exc : ServiceCallError) (classes : List ExcClass) : Bool :=
  exc.cls.isSubclass classes

def plain (message serviceName : String) (statusCode : Option ℤ) (responseBody : Option String) :
    ServiceCallError :=
  ⟨.serviceCallError, message, serviceName, statusCode, responseBody, by decide⟩

def timeout (message serviceName : String) : ServiceCallError :=
  ⟨.serviceTimeoutError, message, serviceName, some 504, none, by decide⟩

def unavailable (message serviceName : String) : ServiceCallError :=
  ⟨.serviceUnavailableError, message, serviceName, some 502, none, by decide⟩

def response (message serviceName : String) (responseBody : Option String) : ServiceCallError :=
  ⟨.serviceResponseError, message, serviceName, some 502, responseBody, by decide⟩

def badRequest (message serviceName : String) (statusCode : ℤ) (responseBody : Option String) :
    ServiceCallError :=
  ⟨.serviceBadRequestError, message, serviceName, some statusCode, responseBody, by decide⟩

def notFound (message serviceName : String) (responseBody : Option String) : ServiceCallError :=
  ⟨.serviceNotFoundError, message, serviceName, some 404, responseBody, by decide⟩

end ServiceCallError

/-- What a caller of the client may see raised. -/
inductive Raised where
  | service (exc : ServiceCallError)
  | other (cls : ExcClass) (text : String)

namespace Raised

def cls : Raised → ExcClass
  | service exc => exc.cls
  | other c _ => c

/-- `isinstance(exc, classes)`. -/
def isInstance (exc : Raised) (classes : List ExcClass) : Bool := exc.cls.isSubclass classes

end Raised

end Novon
