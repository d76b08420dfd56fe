import Novon.Core.Context
import Novon.Core.Exceptions
import Novon.Core.TypeHints
import Novon.Http.Headers

/-!
# The base client

`base_client.py`: one attempt of a request with its error mapping, and the retry loop.  The HTTP
library is a function from its state to a response or an exception.  The decoders of bodies and the
validation against a response model are those of a `Codec`.

An error carries the text of its response, so mapping it reads the text, and that fails where the
decoder of the charset in the `Content-Type` does.
-/

namespace Novon

abbrev Bytes : Type := List UInt8

/-- `httpx2.Response`. -/
structure Response where
  statusCode : ℤ
  headers : Headers
  content : Bytes

/-- `response.is_success`. -/
def Response.isSuccess (response : Response) : Bool :=
  200 ≤ response.statusCode ∧ response.statusCode ≤ 299

/-- How the texts of responses are read. -/
structure TextDecoder where
  /-- The charset in the `Content-Type`, if there is one that Python knows. -/
  charset : Headers → Option String
  charset_json : ∀ headers : Headers,
    headers.get "content-type" ∈ [none, some "application/json"] → charset headers = none
  /-- The text of UTF-8 bytes, with replacement characters where they are not. -/
  utf8 : Bytes → String
  /-- The text of bytes in a charset, by its decoder with `errors="replace"`. -/
  decode : String → Bytes → Except LibraryError String

namespace TextDecoder

variable (decoder : TextDecoder)

/-- `response.text`. -/
def text (response : Response) : Except LibraryError String :=
  match decoder.charset response.headers with
  | none => .ok (decoder.utf8 response.content)
  | some charset =>
    if response.content.isEmpty then .ok "" else decoder.decode charset response.content

/-- The charset of a response decodes its body. -/
def hasText (response : Response) : Bool := (decoder.text response).isOk

variable {decoder}

/-- A response without a charset has a text. -/
theorem text_of_charset {response : Response} (h : decoder.charset response.headers = none) :
    decoder.text response = .ok (decoder.utf8 response.content) := by
  rw [text, h]

theorem hasText_of_ok {response : Response} {body : String}
    (h : decoder.text response = .ok body) : decoder.hasText response = true := by
  rw [hasText, h]
  rfl

theorem hasText_of_error {response : Response} {exc : LibraryError}
    (h : decoder.text response = .error exc) : decoder.hasText response = false := by
  rw [hasText, h]
  rfl

end TextDecoder

/-- A `Content-Type` whose charset decodes nothing. -/
def undefinedCharset : Headers := [("content-type", "text/plain; charset=undefined")]

/-- A decoder for concrete runs, which knows this one charset besides UTF-8. -/
def TextDecoder.sample : TextDecoder where
  charset := fun headers => if headers = undefinedCharset then some "undefined" else none
  charset_json := by
    intro headers h
    split
    · next he =>
      subst he
      exact absurd h (by decide)
    · rfl
  utf8 := fun content => String.ofList (content.map fun b => Char.ofNat b.toNat)
  decode := fun _ _ => .error ⟨.unicodeError, "undefined encoding", rfl⟩

/-- How bodies are read, for JSON values `J` and validated values `V`. -/
structure Codec (J V : Type) extends TextDecoder where
  /-- `json.loads(response.content)`. -/
  loads : Bytes → Except DecodeError J
  /-- `TypeAdapter(model).validate_python(value)`, `none` for a `ValidationError`. -/
  validatePython : TypeHint → J → Option V

/-- A codec for concrete runs, whose only JSON value and only model instance is `()`. -/
def Codec.sample : Codec Unit Unit where
  toTextDecoder := .sample
  loads := fun _ => .ok ()
  validatePython := fun _ _ => some ()

inductive Result (V : Type) where
  | response (r : Response)
  | none
  | value (v : V)

/-- The settings of a client that its calls read. -/
structure BaseServiceClient where
  serviceName : String
  maxRetries : ℤ

namespace BaseServiceClient

/-- HTTP methods that are safe to retry (idempotent). -/
def idempotentMethods : List String := ["GET", "HEAD", "OPTIONS", "PUT", "DELETE"]

/-- One character of `str.upper`.  Besides the small Latin letters, the dotless i and the long s
are all whose capital is an ASCII letter on its own. -/
def upperChar (c : Char) : Char :=
  if c = 'ı' then 'I' else if c = 'ſ' then 'S' else c.toUpper

/-- `method.upper()`. -/
def upper (method : String) : String := String.ofList (method.toList.map upperChar)

variable {J V σ : Type} (codec : Codec J V) (client : BaseServiceClient)

/-- The error for a status, with the text of the response. -/
def httpError (status : ℤ) (body : String) : ServiceCallError :=
  if status = 404 then
    .notFound ("Resource not found from " ++ client.serviceName) client.serviceName (some body)
  else if 400 ≤ status ∧ status < 500 then
    .badRequest (client.serviceName ++ " returned " ++ toString status) client.serviceName status
      (some body)
  else if 500 ≤ status then
    .unavailable (client.serviceName ++ " returned " ++ toString status) client.serviceName
  else
    .plain (client.serviceName ++ " returned " ++ toString status) client.serviceName (some status)
      (some body)

/-- `_map_http_error`. -/
def mapHttpError (response : Response) : Except LibraryError ServiceCallError :=
  (codec.text response).map (httpError client response.statusCode)

/-- `raise _map_...(exc)`: the mapped exception, or the one in whose place it would have been. -/
def raising : Except LibraryError ServiceCallError → Raised
  | .ok exc => .service exc
  | .error exc => .other exc.cls exc.text

/-- `_map_transport_error`. -/
def mapTransportError (exc : LibraryError) : ServiceCallError :=
  if exc.cls.isSubclass [.timeoutException] then
    .timeout ("Call to " ++ client.serviceName ++ " timed out") client.serviceName
  else
    .unavailable ("Cannot reach " ++ client.serviceName ++ ": " ++ exc.text) client.serviceName

/-- `_type_adapter(model).validate_python(response.json())`. -/
def validateJson (model : TypeHint) (response : Response) : Except Raised (Result V) :=
  match codec.loads response.content with
  | .error exc => .error (.other exc.cls exc.text)
  | .ok value =>
    match codec.validatePython model value with
    | none => .error (.other .validationError "")
    | some v => .ok (.value v)

/-- `_parse_response`. -/
def parseResponse (response : Response) (responseModel : Option TypeHint) :
    Except Raised (Result V) :=
  match responseModel with
  | none => .ok (.response response)
  | some .noneType => .ok .none
  | some model =>
    -- an empty body satisfies an Optional contract without being parsed
    if (TypeHint.unwrapOptional model).2 && response.content.isEmpty then
      .ok .none
    else
      validateJson codec model response

/-- The error for a body that cannot be read, with its text. -/
def unreadableBody (body : String) : ServiceCallError :=
  .response (client.serviceName ++ " returned an unreadable response body") client.serviceName
    (some body)

/-- `_request_once`, from what the HTTP library returned or raised. -/
def requestOnce (responseModel : Option TypeHint) :
    Except LibraryError Response → Except Raised (Result V)
  | .error exc =>
    if exc.cls.isSubclass [.transportError] then
      .error (.service (mapTransportError client exc))
    else
      .error (.other exc.cls exc.text)
  | .ok response =>
    if !response.isSuccess then
      .error (raising (mapHttpError codec client response))
    else
      match parseResponse codec response responseModel with
      | .ok result => .ok result
      | .error exc =>
        if exc.isInstance [.jsonDecodeError, .unicodeDecodeError, .validationError] then
          -- the body is unreadable; whatever else parsing raises propagates
          .error (raising ((codec.text response).map (unreadableBody client)))
        else
          .error exc

/-- `_should_retry`. -/
def shouldRetry (method : String) : Bool :=
  upper method ∈ idempotentMethods ∧ 0 < client.maxRetries

/-- `retry_if_exception_type((ServiceUnavailableError, ServiceTimeoutError))`. -/
def retriable (exc : Raised) : Bool :=
  exc.isInstance [.serviceUnavailableError, .serviceTimeoutError]

/-- The loop of `_request_with_retry` with `n` attempts left. -/
def requestWithRetry (attempt : σ → Except Raised (Result V) × σ) :
    ℕ → σ → Except Raised (Result V) × σ
  | 0, s => (.error (.service (.plain "retry loop exited without a result" "unknown" none none)), s)
  | n + 1, s =>
    match attempt s with
    | (.ok result, s') => (.ok result, s')
    | (.error exc, s') =>
      -- the last failure is raised again as it is, not as a retry error
      if retriable exc && n != 0 then requestWithRetry attempt n s' else (.error exc, s')

/-- One attempt: the HTTP library sends the request, its answer is mapped. -/
def attempt (send : σ → Except LibraryError Response × σ) (responseModel : Option TypeHint)
    (s : σ) : Except Raised (Result V) × σ :=
  (requestOnce codec client responseModel (send s).1, (send s).2)

/-- The headers of a request: those of its context, and the additional ones. -/
def mergedHeaders (ctx : Option RequestContext) (headers : Option (Dict String String)) :
    Dict String String :=
  ((ctx.map RequestContext.toHeaders).getD .empty).merge (headers.getD .empty)

/-- `request`, for an HTTP library that sends this request by `send`. -/
def request (send : σ → Except LibraryError Response × σ) (method : String)
    (responseModel : Option TypeHint) (s : σ) : Except Raised (Result V) × σ :=
  if shouldRetry client method then
    requestWithRetry (attempt codec client send responseModel) client.maxRetries.toNat s
  else
    attempt codec client send responseModel s

/-- What `self._client.request` is called with, for JSON bodies `B` and query parameters `P`. -/
structure HttpRequest (B P : Type) where
  method : String
  path : String
  headers : Dict String String
  json : Option B
  params : Option P

variable {B P : Type}

/-- `request` with its arguments: every attempt calls the HTTP library with the same ones. -/
def requestCall (httpRequest : HttpRequest B P → σ → Except LibraryError Response × σ)
    (method path : String) (ctx : Option RequestContext) (responseModel : Option TypeHint)
    (json : Option B) (params : Option P) (headers : Option (Dict String String)) (s : σ) :
    Except Raised (Result V) × σ :=
  request codec client (httpRequest ⟨method, path, mergedHeaders ctx headers, json, params⟩) method
    responseModel s

/-! ### HTTP layers that answer attempt by attempt -/

/-- What the HTTP layer does at one attempt. -/
abbrev Outcome : Type := Except LibraryError Response

/-- The HTTP library that answers attempt `k` with `outcomes k`. -/
def streamSend (outcomes : ℕ → Outcome) (k : ℕ) : Outcome × ℕ := (outcomes k, k + 1)

/-- The HTTP library that answers request number `k` with `outcomes k` and keeps a log. -/
def logged (outcomes : ℕ → Outcome) (request : HttpRequest B P) (log : List (HttpRequest B P)) :
    Outcome × List (HttpRequest B P) :=
  (outcomes (log.length + 1), log ++ [request])

end BaseServiceClient

end Novon
