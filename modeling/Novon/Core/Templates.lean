import Novon.Core.Signature
import Novon.Http.Router

/-!
# Path templates of whole segments

The templates that the clients use: segments between slashes, each a literal text or one
placeholder.
-/

namespace Novon

/-- A segment as a template writes it. -/
def Segment.source : Segment → String
  | .lit text => text
  | .param name => "\x7b" ++ name ++ "\x7d"

/-- The template with the given segments. -/
def templateOf (parts : List Segment) : String := Router.join (parts.map Segment.source)

/-- The names of the placeholders. -/
def paramNames (parts : List Segment) : List String :=
  parts.filterMap fun
    | .lit _ => none
    | .param name => some name

/-- A placeholder's name: word characters that are no number. -/
def SimpleName (python : Python) (name : String) : Prop :=
  (∀ c ∈ name.toList, python.isWord c = true) ∧
    Format.isPosition python.toLib 0 name.toList = false

/-- A segment with literal text without braces, or a simple name. -/
def PlainSegment (python : Python) : Segment → Prop
  | .lit text => ∀ c ∈ text.toList, c ≠ '/' ∧ c ≠ '{' ∧ c ≠ '}'
  | .param name => SimpleName python name

/-- The segments of a template. -/
structure PlainSegments (python : Python) (parts : List Segment) : Prop where
  ne_nil : parts ≠ []
  segment : ∀ part ∈ parts, PlainSegment python part

/-- A character of an ASCII identifier. -/
def isIdentifierChar (c : Char) : Bool := c.toNat < 128 && (c.isAlphanum || c = '_')

/-- A segment that is plain in any Python: literal text without braces, or an ASCII identifier. -/
def isAsciiSegment : Segment → Bool
  | .lit text => text.toList.all fun c => decide (c ≠ '/' ∧ c ≠ '{' ∧ c ≠ '}')
  | .param name => name.toList.all isIdentifierChar && name.toList.head?.any fun c => !c.isDigit

variable {python : Python}

/-- An ASCII identifier is a simple name in any Python. -/
theorem simpleName_of_ascii {name : String} (h : name.toList.all isIdentifierChar = true)
    (hfirst : name.toList.head?.any (fun c => !c.isDigit) = true) : SimpleName python name := by
  have hchars : ∀ c ∈ name.toList, c.toNat < 128 ∧ (c.isAlphanum || decide (c = '_')) = true := by
    intro c hc
    have hc := List.all_eq_true.mp h c hc
    rw [isIdentifierChar, Bool.and_eq_true_iff, decide_eq_true_iff] at hc
    exact hc
  refine ⟨?_, ?_⟩
  · intro c hc
    obtain ⟨hascii, hword⟩ := hchars c hc
    rw [python.isWord_ascii c hascii, hword]
  · match hname : name.toList, hfirst with
    | c :: cs, hfirst =>
      have hascii := (hchars c (hname ▸ List.mem_cons_self)).1
      have hdecimal : python.decimal c = none := by
        rw [← Option.isSome_eq_false_iff.trans Option.isNone_iff_eq_none,
          python.decimal_ascii c hascii]
        simpa using hfirst
      rw [Format.isPosition, hdecimal]

theorem plainSegments_of_ascii {parts : List Segment} (hne : parts ≠ [])
    (h : parts.all isAsciiSegment = true) : PlainSegments python parts := by
  refine ⟨hne, ?_⟩
  intro part hpart
  have hascii := List.all_eq_true.mp h part hpart
  cases part with
  | lit text =>
    intro c hc
    exact of_decide_eq_true (List.all_eq_true.mp hascii c hc)
  | param name =>
    obtain ⟨hchars, hfirst⟩ := Bool.and_eq_true_iff.mp hascii
    exact simpleName_of_ascii hchars hfirst

end Novon
