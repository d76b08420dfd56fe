import Mathlib.Data.Int.Notation
import Novon.Data.Dict

/-!
# Header lists

Starlette's `Headers`: names and values in the order of arrival, the names in lower case.
-/

namespace Novon

/-- `name.lower()`, for names of ASCII characters. -/
def lower (name : String) : String := String.ofList (name.toList.map Char.toLower)

abbrev Headers : Type := List (String × String)

namespace Headers

/-- `headers.get(name)`: the first value. -/
def get (headers : Headers) (name : String) : Option String := Dict.lookup (lower name) headers

/-- Sets the header with the lower-case name `key`: its first occurrence changes, others go. -/
def setKey (key value : String) : Headers → Headers
  | [] => [(key, value)]
  | (k, v) :: rest =>
    if k = key then (key, value) :: rest.filter fun h => h.1 ≠ key
    else (k, v) :: setKey key value rest

/-- `headers[name] = value`. -/
def set (headers : Headers) (name value : String) : Headers := setKey (lower name) value headers

@[simp] theorem get_set_self (headers : Headers) (name value : String) :
    (headers.set name value).get name = some value := by
  unfold get set
  induction headers with
  | nil => simp [setKey, Dict.lookup]
  | cons h rest ih =>
    obtain ⟨k, v⟩ := h
    by_cases hk : k = lower name
    · simp [setKey, Dict.lookup, hk]
    · simp [setKey, Dict.lookup, hk, ih]

end Headers

/-- A request as it comes in: the path is decoded. -/
structure InboundRequest where
  method : String
  path : String
  queryString : String
  headers : Headers
  body : List UInt8

/-- A response on its way out. -/
structure OutboundResponse (β : Type) where
  statusCode : ℤ
  headers : Headers
  body : β

end Novon
