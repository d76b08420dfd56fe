import Novon.Core.Exceptions
import Novon.Core.TypeHints
import Novon.Data.Format
import Novon.Http.Message

/-!
# Signatures and calls

What a decorator sees of a method (`inspect.signature`, `typing.get_type_hints`), and how the
arguments of a call are bound to its parameters (`Signature.bind` and `apply_defaults`).

An annotation that no other constructor of `TypeHint` describes, say `dict[str, int]` or a type
variable, is a `cls` of that text which is no model class.
-/

namespace Novon

/-- A Python value, as far as the decorators can tell values apart. -/
inductive Value where
  | none
  /-- The text of the value, and what `value.model_dump(mode="json", exclude_unset=...)` gives
  where the object has such a method without being a model. -/
  | object (text : Except Raised String) (dump : Option (Bool → Except Raised Json))
  /-- An instance of a `BaseModel` class, with what its `model_dump` raises where a field cannot be
  serialised. -/
  | model (text : Except Raised String) (fields : Dict String (OptField FieldValue))
    (unserialisable : Bool → Option Raised)
  /-- A list, tuple, dictionary or other collection of values. -/
  | container (text : Except Raised String) (items : List Value)

namespace Value

/-- The text that `quote(str(value), safe="")` encodes, or what `str` or `quote` raises: a
`UnicodeEncodeError` where UTF-8 cannot encode the text, a `ValueError` for an `int` with too many
digits. -/
def text : Value → Except Raised String
  | none => .ok "None"
  | object text _ | model text _ _ | container text _ => text

/-- `isinstance(value, BaseModel)`. -/
def isModel : Value → Bool
  | model _ _ _ => true
  | _ => false

/-- `value is None`. -/
def isNone : Value → Bool
  | none => true
  | _ => false

/-- `value.model_dump(mode="json", exclude_unset=...)`, if the value has that attribute. -/
def modelDump? : Value → Option (Bool → Except Raised Json)
  | object _ dump => dump
  | model _ fields unserialisable => some fun excludeUnset =>
    match unserialisable excludeUnset with
    | some exc => .error exc
    | Option.none => .ok (.object (modelDump excludeUnset fields.entries))
  | _ => Option.none

mutual

/-- Whether a value is a model instance or holds one. -/
def hasModel : Value → Bool
  | none | object _ _ => false
  | model _ _ _ => true
  | container _ items => anyModel items

def anyModel : List Value → Bool
  | [] => false
  | v :: vs => v.hasModel || anyModel vs

end

end Value

/-- The parts of Python that the decorators rely on. -/
structure Python extends Format.Lib where
  /-- `\w` -/
  isWord : Char → Bool
  isWord_ascii : ∀ c : Char, c.toNat < 128 → isWord c = (c.isAlphanum || c = '_')
  repr : String → String
  /-- `str` of a tuple. -/
  strTuple : List Value → Except Raised String
  /-- `str` of a dictionary. -/
  strDict : List (String × Value) → Except Raised String

/-- A Python, for concrete runs. -/
def Python.sample : Python where
  decimal c := if c.isDigit then some (c.toNat - 48) else none
  decimal_ascii := by
    intro c _
    split <;> simp_all
  Obj := String
  select value rest conversion := if rest = [] ∧ conversion = none then some value else none
  render obj spec := if spec = "" then some obj else none
  render_select := fun _ => rfl
  isWord c := c.isAlphanum || c = '_'
  isWord_ascii := fun _ _ => rfl
  repr s := "'" ++ s ++ "'"
  strTuple _ := .ok "()"
  strDict _ := .ok "\x7b\x7d"

/-- `repr` of a list of strings. -/
def Python.reprList (python : Python) (names : List String) : String :=
  "[" ++ ", ".intercalate (names.map python.repr) ++ "]"

/-- The classes that annotations name. -/
structure Classes where
  /-- `issubclass(c, BaseModel)` -/
  isModel : String → Bool
  /-- The values of an annotation that is a class. -/
  isInstance : String → Value → Bool
  isInstance_model : ∀ c v, isModel c = true → isInstance c v = true → v.isModel = true

/-- Some classes, for concrete runs. -/
def Classes.sample : Classes where
  isModel c := c ∈ ["BaseModel", "Item", "Filter"]
  isInstance c v := decide (c ∈ ["BaseModel", "Item", "Filter"]) == v.isModel
  isInstance_model := by
    intro c v hc hv
    rw [hc] at hv
    simpa using hv

inductive ParameterKind where
  | positionalOnly
  | positionalOrKeyword
  /-- `*args` -/
  | varPositional
  | keywordOnly
  /-- `**kwargs` -/
  | varKeyword
  deriving DecidableEq

structure Parameter where
  name : String
  kind : ParameterKind
  default : Option Value

/-- A method as it is declared. -/
structure Func where
  qualname : String
  parameters : List Parameter
  nodup_names : (parameters.map Parameter.name).Nodup
  /-- `typing.get_type_hints`, or the text of what it raises.  A parameter that is annotated with
  `Annotated[A, ...]` has the hint `A`. -/
  hints : Except String (Dict String TypeHint)

/-- A call of a method. -/
structure Call where
  receiver : Value
  args : List Value
  kwargs : Dict String Value

variable (python : Python)

/-- The value of a parameter that no positional argument is left for. -/
def Parameter.fromKeyword (kwargs : Dict String Value) (p : Parameter) : Option Value :=
  match kwargs.get? p.name with
  | some value => some value
  | none => p.default

/-- The value of a parameter and the positional arguments after it. -/
def Parameter.bind (kwargs : Dict String Value) (extra : List (String × Value)) (p : Parameter)
    (args : List Value) : Option (Value × List Value) :=
  match p.kind, args with
  | .positionalOnly, value :: args => some (value, args)
  | .positionalOnly, [] => p.default.map (·, [])
  | .positionalOrKeyword, value :: args =>
    -- multiple values for the argument
    if kwargs.contains p.name then none else some (value, args)
  | .positionalOrKeyword, [] => (p.fromKeyword kwargs).map (·, [])
  | .varPositional, args => some (.container (python.strTuple args) args, [])
  | .keywordOnly, args => (p.fromKeyword kwargs).map (·, args)
  | .varKeyword, args =>
    some (.container (python.strDict extra) (extra.map Prod.snd), args)

def bindParameters (kwargs : Dict String Value) (extra : List (String × Value)) :
    List Parameter → List Value → Option (List (String × Value))
  | [], args => if args.isEmpty then some [] else none
  | p :: ps, args => do
    let (value, args) ← p.bind python kwargs extra args
    let rest ← bindParameters kwargs extra ps args
    return (p.name, value) :: rest

namespace Func

/-- The keyword arguments that no parameter is named after. -/
def extra (func : Func) (kwargs : Dict String Value) : List (String × Value) :=
  kwargs.entries.filter fun e => !func.parameters.any fun p =>
    p.name = e.1 && (p.kind = .positionalOrKeyword || p.kind = .keywordOnly)

/-- `sig.bind(*args, **kwargs)` with defaults applied, or nothing where it raises `TypeError`. -/
def bind (func : Func) (args : List Value) (kwargs : Dict String Value) :
    Option (Dict String Value) :=
  let extra := func.extra kwargs
  if extra.isEmpty || func.parameters.any fun p => p.kind = .varKeyword then
    (bindParameters python kwargs extra func.parameters args).map .ofList
  else none

end Func

/-! ### Well-typed calls -/

variable (classes : Classes)

/-- The values of an annotation. -/
inductive HasType : TypeHint → Value → Prop
  | cls {c : String} {v : Value} : classes.isInstance c v = true → HasType (.cls c) v
  | noneType : HasType .noneType .none
  | any (v : Value) : HasType .any v
  | union {members : List TypeHint} {hint : TypeHint} {v : Value} :
    hint ∈ members → HasType hint v → HasType (.union members) v
  | listOf {item : TypeHint} {text : Except Raised String} {items : List Value} :
    (∀ v ∈ items, HasType item v) → HasType (.listOf item) (.container text items)
  | annotated {inner : TypeHint} {v : Value} : HasType inner v → HasType (.annotated inner) v
  | typeAlias {target : TypeHint} {v : Value} : HasType target v → HasType (.typeAlias target) v

/-- `*args` and `**kwargs`. -/
def ParameterKind.isVariadic : ParameterKind → Bool
  | varPositional | varKeyword => true
  | _ => false

/-- A parameter's argument is of the annotated type; of a variadic parameter, each of the arguments
that it collects. -/
def Parameter.Admits (p : Parameter) (hint : TypeHint) (v : Value) : Prop :=
  if p.kind.isVariadic then
    ∃ text items, v = .container text items ∧ ∀ item ∈ items, HasType classes hint item
  else HasType classes hint v

/-- Each argument is a value of its annotated type. -/
def WellTyped (func : Func) (hints : Dict String TypeHint) (arguments : Dict String Value) : Prop :=
  ∀ p ∈ func.parameters, ∀ hint v, hints.get? p.name = some hint →
    arguments.get? p.name = some v → p.Admits classes hint v

end Novon
