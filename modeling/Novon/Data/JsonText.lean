import Mathlib.Data.List.Basic
import Mathlib.Data.Option.Basic

/-!
# JSON text of records

The text of objects whose members are strings or null, and of arrays of them.  It is read one
character at a time into tokens, and the tokens into a document.  Reading gives back what has been
written (`read_write`).

Quotes and backslashes are escaped; every other character stands for itself.
-/

namespace Novon.JsonText

/-- The members of an object, in order. -/
abbrev Members : Type := List (String × Option String)

inductive Document where
  | object (members : Members)
  | array (objects : List Members)

inductive Token where
  | str (s : List Char)
  | null
  | lbrace
  | rbrace
  | lbracket
  | rbracket
  | colon
  | comma

/-! ### Writing -/

def escape (c : Char) : List Char := if c = '"' ∨ c = '\\' then ['\\', c] else [c]

def Token.text : Token → List Char
  | str s => '"' :: s.flatMap escape ++ ['"']
  | null => ['n', 'u', 'l', 'l']
  | lbrace => ['{']
  | rbrace => ['}']
  | lbracket => ['[']
  | rbracket => [']']
  | colon => [':']
  | comma => [',']

def valueToken : Option String → Token
  | none => .null
  | some s => .str s.toList

/-- The members up to the closing brace. -/
def membersTokens : Members → List Token
  | [] => [.rbrace]
  | (name, value) :: rest =>
    [.str name.toList, .colon, valueToken value] ++
      (if rest.isEmpty then [] else [.comma]) ++ membersTokens rest

/-- The objects up to the closing bracket. -/
def objectsTokens : List Members → List Token
  | [] => [.rbracket]
  | members :: rest =>
    .lbrace :: membersTokens members ++ (if rest.isEmpty then [] else [.comma]) ++
      objectsTokens rest

def Document.tokens : Document → List Token
  | object members => .lbrace :: membersTokens members
  | array objects => .lbracket :: objectsTokens objects

/-- The text of a document. -/
def write (document : Document) : String := String.ofList (document.tokens.flatMap Token.text)

/-! ### Reading -/

/-- Where in the text the reader stands. -/
inductive Mode where
  | between
  | text (read : List Char)
  | escaped (read : List Char)
  /-- In the word `null`, with these characters to come. -/
  | word (left : List Char)

def punctuation? (c : Char) : Option Token :=
  if c = '{' then some .lbrace
  else if c = '}' then some .rbrace
  else if c = '[' then some .lbracket
  else if c = ']' then some .rbracket
  else if c = ':' then some .colon
  else if c = ',' then some .comma
  else none

/-- Reads one character: the token that it completes, if any, and the next mode. -/
def step : Mode → Char → Option (Option Token × Mode)
  | .between, c =>
    if c = '"' then some (none, .text [])
    else if c = 'n' then some (none, .word ['u', 'l', 'l'])
    else (punctuation? c).map fun token => (some token, .between)
  | .text read, c =>
    if c = '"' then some (some (.str read), .between)
    else if c = '\\' then some (none, .escaped read)
    else some (none, .text (read ++ [c]))
  | .escaped read, c => some (none, .text (read ++ [c]))
  | .word left, c =>
    if left = [c] then some (some .null, .between)
    else if left.head? = some c then some (none, .word left.tail)
    else none

/-- Reads the tokens of a text. -/
def lex : Mode → List Char → Option (List Token)
  | .between, [] => some []
  | _, [] => none
  | mode, c :: cs => do
    let (token, mode) ← step mode c
    let tokens ← lex mode cs
    return token.toList ++ tokens

def value? : Token → Option (Option String)
  | .null => some none
  | .str s => some (some (String.ofList s))
  | _ => none

/-- Reads the members of an object that has some, up to its closing brace. -/
def parseMembers : List Token → Option (Members × List Token)
  | .str name :: .colon :: token :: rest => do
    let value ← value? token
    match rest with
    | .rbrace :: rest => return ([(String.ofList name, value)], rest)
    | .comma :: rest =>
      let (members, rest) ← parseMembers rest
      return ((String.ofList name, value) :: members, rest)
    | _ => none
  | _ => none

def parseObject : List Token → Option (Members × List Token)
  | .lbrace :: .rbrace :: rest => some ([], rest)
  | .lbrace :: rest => parseMembers rest
  | _ => none

/-- Reads the objects of an array that has some, at most `fuel` of them, up to its closing
bracket. -/
def parseObjects : ℕ → List Token → Option (List Members × List Token)
  | 0, _ => none
  | fuel + 1, tokens => do
    let (members, rest) ← parseObject tokens
    match rest with
    | .rbracket :: rest => return ([members], rest)
    | .comma :: rest =>
      let (objects, rest) ← parseObjects fuel rest
      return (members :: objects, rest)
    | _ => none

/-- Reads the objects of an array, up to the end. -/
def parseArray : List Token → Option (List Members)
  | [.rbracket] => some []
  | tokens =>
    match parseObjects tokens.length tokens with
    | some (objects, []) => some objects
    | _ => none

def parse : List Token → Option Document
  | .lbracket :: tokens => (parseArray tokens).map .array
  | tokens =>
    match parseObject tokens with
    | some (members, []) => some (.object members)
    | _ => none

/-- The document that a text is. -/
def read (text : String) : Option Document := (lex .between text.toList).bind parse

/-! ### Reading what has been written -/

theorem lex_escape (read : List Char) (c : Char) (cs : List Char) :
    lex (.text read) (escape c ++ cs) = lex (.text (read ++ [c])) cs := by
  unfold escape
  split
  · next h =>
    have hquote : '\\' ≠ '"' := by decide
    simp [lex, step, hquote]
  · next h =>
    rw [not_or] at h
    simp [lex, step, h]

theorem lex_str (read s cs : List Char) :
    lex (.text read) (s.flatMap escape ++ '"' :: cs) =
      (lex .between cs).map (.str (read ++ s) :: ·) := by
  induction s generalizing read with
  | nil => simp [lex, step, Option.map_eq_bind]
  | cons c s ih =>
    rw [List.flatMap_cons, List.append_assoc, lex_escape, ih, List.append_assoc,
      List.singleton_append]

/-- A token is read up to its end. -/
theorem lex_text (token : Token) (cs : List Char) :
    lex .between (token.text ++ cs) = (lex .between cs).map (token :: ·) := by
  cases token with
  | str s =>
    have hopen : lex .between ('"' :: (s.flatMap escape ++ '"' :: cs)) =
        lex (.text []) (s.flatMap escape ++ '"' :: cs) := by
      simp [lex, step]
    simp [Token.text, hopen, lex_str]
  | null | lbrace | rbrace | lbracket | rbracket | colon | comma =>
    simp [Token.text, lex, step, punctuation?, Option.map_eq_bind]

theorem lex_tokens (tokens : List Token) :
    lex .between (tokens.flatMap Token.text) = some tokens := by
  induction tokens with
  | nil => rfl
  | cons token tokens ih =>
    rw [List.flatMap_cons, lex_text, ih]
    rfl

@[simp] theorem value?_valueToken (value : Option String) :
    value? (valueToken value) = some value := by
  cases value <;> simp [valueToken, value?]

theorem parseMembers_tokens {members : Members} (h : members ≠ []) (rest : List Token) :
    parseMembers (membersTokens members ++ rest) = some (members, rest) := by
  induction members with
  | nil => exact absurd rfl h
  | cons member members ih =>
    cases members with
    | nil => simp [membersTokens, parseMembers]
    | cons next members =>
      rw [membersTokens]
      simp [parseMembers, ih]

theorem parseObject_tokens (members : Members) (rest : List Token) :
    parseObject (.lbrace :: membersTokens members ++ rest) = some (members, rest) := by
  cases members with
  | nil => rfl
  | cons member members =>
    have h := parseMembers_tokens (List.cons_ne_nil member members) rest
    simpa [membersTokens, parseObject] using h

theorem parseObjects_tokens {objects : List Members} (h : objects ≠ []) {fuel : ℕ}
    (hfuel : objects.length ≤ fuel) (rest : List Token) :
    parseObjects fuel (objectsTokens objects ++ rest) = some (objects, rest) := by
  induction objects generalizing fuel with
  | nil => exact absurd rfl h
  | cons members objects ih =>
    obtain ⟨fuel, rfl⟩ : ∃ n, fuel = n + 1 := ⟨fuel - 1, by simp at hfuel; omega⟩
    cases objects with
    | nil =>
      have hobject := parseObject_tokens members (.rbracket :: rest)
      simp only [objectsTokens, parseObjects, List.isEmpty_nil]
      simp at hobject ⊢
      simp [hobject]
    | cons next objects =>
      have hobject := parseObject_tokens members
        (.comma :: (objectsTokens (next :: objects) ++ rest))
      rw [objectsTokens, parseObjects]
      simp at hobject hfuel ⊢
      simp [hobject, ih (List.cons_ne_nil _ _) (by simpa using hfuel)]

theorem length_le_objectsTokens (objects : List Members) :
    objects.length ≤ (objectsTokens objects).length := by
  induction objects with
  | nil => exact Nat.zero_le _
  | cons members objects ih =>
    simp only [objectsTokens, List.length_append, List.length_cons]
    omega

theorem parseArray_tokens (objects : List Members) :
    parseArray (objectsTokens objects) = some objects := by
  cases objects with
  | nil => rfl
  | cons members objects =>
    have hobjects := parseObjects_tokens (List.cons_ne_nil members objects)
      (length_le_objectsTokens (members :: objects)) []
    rw [List.append_nil] at hobjects
    have hopen : objectsTokens (members :: objects) ≠ [.rbracket] := by simp [objectsTokens]
    rw [parseArray, hobjects]
    exact hopen

/-- **Round trip**: a document is read back from its text. -/
theorem read_write (document : Document) : read (write document) = some document := by
  rw [read, write, String.toList_ofList, lex_tokens, Option.bind_some]
  cases document with
  | object members =>
    have hobject := parseObject_tokens members []
    rw [List.append_nil] at hobject
    simp [Document.tokens, parse, hobject]
  | array objects => simp [Document.tokens, parse, parseArray_tokens]

end Novon.JsonText
