import Novon.Core.Pydantic
import Novon.Http.Reply
import Novon.Http.Router
import Novon.Http.Url

/-!
# Requests on the wire

What a client sends, and what the services rely on of the libraries between a client and a
handler.  The libraries are parameters: `HttpLib` is what the client's side uses of httpx2 and
Pydantic, `Framework` is how the web framework answers a request that no handler takes.
-/

namespace Novon

inductive Json where
  | str (s : String)
  | object (d : Dict String FieldValue)

/-- A request as it travels: the path is percent-encoded. -/
structure Request where
  method : String
  path : String
  headers : Dict String String
  json : Option Json
  query : List (String × String)

namespace Request

/-- The last value that a query parameter is given. -/
def queryParam (request : Request) (name : String) : Option String :=
  Dict.lookup name request.query.reverse

def parseBody {α : Type} (request : Request) (validate : Dict String FieldValue → Option α) :
    Option α :=
  match request.json with
  | some (.object body) => validate body
  | _ => none

end Request

/-- The HTTP client library and the model library. -/
structure HttpLib where
  /-- `str(model)` of a model instance with these fields. -/
  strModel : List (String × OptField FieldValue) → String
  /-- The removal of dot segments, and that alone.  A path that starts with `//` the library reads
  as one with an authority, whatever its segments; no template of the clients starts so. -/
  removeDotSegments : List String → List String
  removeDotSegments_eq_self : ∀ parts, (∀ s ∈ parts, isDotSegment s = false) →
    removeDotSegments parts = parts
  /-- What is left are segments of the path, with a trailing slash where RFC 3986 puts one. -/
  removeDotSegments_kept : ∀ parts, ∃ kept : List String,
    kept.Sublist (parts.filter fun s => !isDotSegment s) ∧
      (removeDotSegments parts = kept ∨ removeDotSegments parts = kept ++ [""])

/-- A client library, for concrete runs. -/
def HttpLib.sample : HttpLib where
  strModel := fun fields => " ".intercalate (fields.map Prod.fst)
  removeDotSegments := Url.removeDotSegments
  removeDotSegments_eq_self := Url.removeDotSegments_eq_self
  removeDotSegments_kept := Url.removeDotSegments_kept

/-- How the web framework answers when there is no route or when the validation of the arguments
fails. -/
structure Framework (ρ : Type) where
  unrouted : Request → Reply ρ
  unrouted_status : ∀ request, (unrouted request).statusCode ∈ [307, 404, 405]
  invalid : Request → Reply ρ
  invalid_status : ∀ request, (invalid request).statusCode = 422

/-- A framework, for concrete runs. -/
def Framework.sample (ρ : Type) : Framework ρ where
  unrouted := fun _ => ⟨404, .detail "Not Found"⟩
  unrouted_status := by simp
  invalid := fun _ => ⟨422, .detail "Unprocessable Content"⟩
  invalid_status := fun _ => rfl

/-- What the framework finds a request to ask for. -/
inductive Routed (κ : Type) where
  | unrouted
  /-- A route that answers the same mapping always. -/
  | static (content : List (String × String))
  /-- A route whose arguments do not validate. -/
  | invalid
  | call (c : κ)

/-- Serves a routed request, given how operations are handled. -/
def Routed.serve {κ ρ σ : Type} (framework : Framework ρ) (handle : κ → Env → σ → Reply ρ × σ)
    (request : Request) (routed : Routed κ) (env : Env) (s : σ) : Reply ρ × σ :=
  match routed with
  | .unrouted => (framework.unrouted request, s)
  | .static content => (⟨200, .mapping content⟩, s)
  | .invalid => (framework.invalid request, s)
  | .call c => handle c env s

end Novon
