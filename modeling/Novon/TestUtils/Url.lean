import Novon.Data.Percent
import Novon.Http.Headers

/-!
# URLs of the mock transport

`Url` is a URL as `httpx2.URL` presents it, component by component, whatever text it was parsed
from.  What the library promises of the components is `Url.Normalised`; `rawPath` is the path that
goes over the wire.
-/

namespace Novon.TestUtils

/-- The components of an `httpx2.URL`. -/
structure Url where
  scheme : String
  host : String
  port : Option ℕ
  path : String
  /-- `raw_path` without the query string. -/
  rawPath : String
  query : Option String

/-- The URL library. -/
structure UrlLib where
  /-- The port that a scheme implies. -/
  defaultPort : String → Option ℕ
  /-- The text of decoded bytes, whatever stands for those that are not UTF-8. -/
  decode : List UInt8 → String
  decode_encode : ∀ s : String, decode (s.toList.flatMap String.utf8EncodeChar) = s
  /-- `str(url)`. -/
  str : Url → String

/-- A request as it reaches a transport. -/
structure Request (D : Type) where
  method : String
  url : Url
  /-- The headers, the content and whatever else it carries. -/
  data : D

/-- The URL library, as far as concrete runs use it. -/
def UrlLib.sample : UrlLib where
  defaultPort := fun scheme =>
    Dict.lookup scheme [("ftp", 21), ("http", 80), ("https", 443), ("ws", 80), ("wss", 443)]
  decode := fun bytes =>
    match bytes.toByteArray.utf8Decode? with
    | some chars => String.ofList chars.toList
    | none => ""
  decode_encode := fun s => by
    have h := List.utf8Decode?_utf8Encode (l := s.toList)
    rw [List.utf8Encode] at h
    rw [h]
    simp
  str := fun url => url.scheme ++ "://" ++ url.host ++ url.rawPath

/-- A request for concrete runs. -/
def Request.sample : Request Unit :=
  ⟨"GET", ⟨"https", "uc.test", none, "/users/1", "/users/1", none⟩, ()⟩

namespace Url

variable (lib : UrlLib) (url : Url)

/-- The text that a path on the wire stands for. -/
def decodedPath (rawPath : String) : String :=
  lib.decode (Percent.unquoteBytes rawPath.toList)

/-- What is assumed of the components: `host` is in lower case, `port` is `None` where the scheme
implies it, and `path` is the percent-decoded `raw_path`. -/
structure Normalised : Prop where
  host : lower url.host = url.host
  port : ∀ d, lib.defaultPort url.scheme = some d → url.port ≠ some d
  path : url.path = decodedPath lib url.rawPath

/-- The port that is connected to. -/
def effectivePort : Option ℕ := url.port.or (lib.defaultPort url.scheme)

variable {lib} {url} {url' : Url}

/-- Under one scheme, leaving out the implied port loses nothing. -/
theorem Normalised.port_eq_iff (h : url.Normalised lib) (h' : url'.Normalised lib)
    (hscheme : url.scheme = url'.scheme) :
    url.port = url'.port ↔ url.effectivePort lib = url'.effectivePort lib := by
  have hport := h.port
  have hport' := h'.port
  unfold effectivePort
  rw [hscheme] at hport ⊢
  cases hdefault : lib.defaultPort url'.scheme with
  | none => simp
  | some d =>
    have hne := hport d hdefault
    have hne' := hport' d hdefault
    cases hp : url.port with
    | none =>
      cases hq : url'.port with
      | none => simp
      | some q => simpa [hq, eq_comm] using hne'
    | some p =>
      cases hq : url'.port with
      | none => simpa [hp] using hne
      | some q => simp

/-- A path that ends in a quoted value stands for the path that ends in the value itself. -/
theorem decodedPath_quote {p : String} (hp : '%' ∉ p.toList) (s : String) :
    decodedPath lib (p ++ Percent.quote s) = p ++ s := by
  rw [decodedPath, Percent.unquoteBytes_append_quote hp, lib.decode_encode]

/-- A path without percent signs stands for itself. -/
theorem decodedPath_of_not_mem {p : String} (h : '%' ∉ p.toList) : decodedPath lib p = p := by
  rw [decodedPath, Percent.unquoteBytes_of_not_mem h, lib.decode_encode]

end Url

end Novon.TestUtils
