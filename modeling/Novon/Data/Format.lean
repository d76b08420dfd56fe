import Mathlib.Data.List.Basic
import Novon.Data.Dict

/-!
# Format strings

`str.format_map`: a template is read one character at a time into literal characters and
replacement fields `{name!conversion:spec}`, and each field is replaced by a value from a mapping.
A doubled brace stands for itself, a format specification may hold further fields, and no
specification inside a specification may.

What a field does with the value beyond inserting it, by an attribute, an index, a conversion or a
specification, is a parameter.
-/

namespace Novon.Format

/-- A replacement field as it is written. -/
structure Field where
  name : List Char
  conversion : Option Char
  spec : List Char
  deriving DecidableEq

inductive Token where
  | lit (c : Char)
  | field (f : Field)
  /-- Markup that ends here with a `ValueError`. -/
  | malformed
  deriving DecidableEq

/-! ### Reading a template -/

/-- Where in the markup the reader stands. -/
inductive Mode where
  | text
  /-- After a `}` in the text. -/
  | closing
  | name (read : List Char)
  /-- After a `[` in a name, where braces mean nothing. -/
  | bracket (read : List Char)
  /-- After the `!`. -/
  | conversion (name : List Char)
  | converted (name : List Char) (conversion : Char)
  /-- In a specification, with so many braces open in it. -/
  | spec (name : List Char) (conversion : Option Char) (opened : ℕ) (read : List Char)

/-- Reads one character: the token that it completes, if any, and the next mode. -/
def step : Mode → Char → Option (Option Token × Mode)
  | .text, c =>
    if c = '{' then some (none, .name [])
    else if c = '}' then some (none, .closing)
    else some (some (.lit c), .text)
  | .closing, c => if c = '}' then some (some (.lit c), .text) else none
  | .name read, c =>
    -- only right after the opening brace is a second one an escape
    if c = '{' then if read = [] then some (some (.lit c), .text) else none
    else if c = '}' then some (some (.field ⟨read, none, []⟩), .text)
    else if c = '[' then some (none, .bracket (read ++ [c]))
    else if c = '!' then some (none, .conversion read)
    else if c = ':' then some (none, .spec read none 0 [])
    else some (none, .name (read ++ [c]))
  | .bracket read, c =>
    if c = ']' then some (none, .name (read ++ [c])) else some (none, .bracket (read ++ [c]))
  | .conversion name, c => some (none, .converted name c)
  | .converted name conversion, c =>
    if c = '}' then some (some (.field ⟨name, some conversion, []⟩), .text)
    else if c = ':' then some (none, .spec name (some conversion) 0 [])
    else none
  | .spec name conversion opened read, c =>
    if c = '{' then some (none, .spec name conversion (opened + 1) (read ++ [c]))
    else if c = '}' then
      match opened with
      | 0 => some (some (.field ⟨name, conversion, read⟩), .text)
      | opened + 1 => some (none, .spec name conversion opened (read ++ [c]))
    else some (none, .spec name conversion opened (read ++ [c]))

/-- The tokens of a template.  They end at malformed markup. -/
def scan : Mode → List Char → List Token
  | .text, [] => []
  | _, [] => [.malformed]
  | mode, c :: cs =>
    match step mode c with
    | none => [.malformed]
    | some (token, mode) => token.toList ++ scan mode cs

def tokens (template : List Char) : List Token := scan .text template

/-! ### Looking values up -/

/-- What a field may do with a string: the parts of Python that a template depends on. -/
structure Lib where
  /-- The value of a decimal digit. -/
  decimal : Char → Option ℕ
  decimal_ascii : ∀ c : Char, c.toNat < 128 → (decimal c).isSome = c.isDigit
  /-- What attributes, indices and conversions lead to. -/
  Obj : Type
  /-- The object that a field selects: the attributes and indices after its name, then its
  conversion. -/
  select : String → List Char → Option Char → Option Obj
  /-- `format(obj, spec)`. -/
  render : Obj → String → Option String
  render_select : ∀ value, (select value [] none).bind (render · "") = some value

/-- What formatting raises. -/
inductive FormatError where
  | keyError (name : String)
  | valueError
  /-- What selecting from a value or rendering it raises: `AttributeError`, `TypeError`,
  `IndexError` or `ValueError`. -/
  | fieldError
  deriving DecidableEq

/-- The largest index, `sys.maxsize` of a 64-bit build. -/
def maxSize : ℕ := 9223372036854775807

/-- The part of a field's name that is looked up. -/
def Field.base (f : Field) : List Char := f.name.takeWhile fun c => c ≠ '.' && c ≠ '['

/-- The attributes and indices after it. -/
def Field.rest (f : Field) : List Char := f.name.dropWhile fun c => c ≠ '.' && c ≠ '['

variable (lib : Lib)

/-- Whether a name stands for a position, with the number `n` read so far.  An empty name is
numbered automatically, and a number out of range is an error of the same kind. -/
def isPosition : ℕ → List Char → Bool
  | _, [] => true
  | n, c :: cs =>
    match lib.decimal c with
    | none => false
    | some d => decide ((maxSize - d) / 10 < n) || isPosition (n * 10 + d) cs

/-- The name under which a field looks its value up, if it is no position. -/
def Field.key? (f : Field) : Option String :=
  if isPosition lib 0 f.base then none else some (String.ofList f.base)

/-- The object that a field renders. -/
def Field.lookup (vars : Dict String String) (f : Field) : Except FormatError lib.Obj :=
  match f.key? lib with
  | none => .error .valueError
  | some key =>
    match vars.get? key with
    | none => .error (.keyError key)
    | some value =>
      match lib.select value f.rest f.conversion with
      | none => .error .fieldError
      | some obj => .ok obj

/-- Renders an object. -/
def renderObj (obj : lib.Obj) (spec : String) : Except FormatError String :=
  match lib.render obj spec with
  | none => .error .fieldError
  | some text => .ok text

/-! ### Formatting -/

/-- The text of a token, given how a specification with fields in it is expanded. -/
def formatToken (expand : List Char → Except FormatError String) (vars : Dict String String) :
    Token → Except FormatError String
  | .lit c => .ok (String.singleton c)
  | .malformed => .error .valueError
  | .field f => do
    let obj ← f.lookup lib vars
    let spec ← if '{' ∈ f.spec then expand f.spec else .ok (String.ofList f.spec)
    renderObj lib obj spec

def formatTokens (expand : List Char → Except FormatError String) (vars : Dict String String) :
    List Token → Except FormatError String
  | [] => .ok ""
  | token :: rest => do
    let text ← formatToken lib expand vars token
    let texts ← formatTokens expand vars rest
    return text ++ texts

/-- Formats a template whose specifications may nest so deep. -/
def build (vars : Dict String String) : ℕ → List Char → Except FormatError String
  | 0, _ => .error .valueError
  | depth + 1, template => formatTokens lib (build vars depth) vars (tokens template)

/-- `template.format_map(vars)`. -/
def formatMap (vars : Dict String String) (template : String) : Except FormatError String :=
  build lib vars 2 template.toList

end Novon.Format
