import Novon.Http.Router
import Novon.Http.Url

/-!
# Dot segments of any path

The removal of dot segments as RFC 3986, section 5.2.4, states it: the path is read piece by piece
into an output buffer, from which a `..` takes the last piece.  A path keeps its text if and only
if it has no dot segment (`removeDotSegments_eq_self_iff`): every step that meets one loses at least
one character, and every other step keeps all (`size_led`).
-/

namespace Novon.Rfc3986

/-- What is read after a slash: `/./` and `/../` at the front become `/`.  The output has the last
piece on top. -/
def led : List String → List String → List String
  | out, [] => out
  | out, [s] =>
    if s = "." then "/" :: out
    else if s = ".." then "/" :: out.tail
    else ("/" ++ s) :: out
  | out, s :: rest =>
    if s = "." then led out rest
    else if s = ".." then led out.tail rest
    else led (("/" ++ s) :: out) rest

/-- What is read at the start: `./` and `../` are removed, and a path of one dot segment is. -/
def start : List String → List String
  | [] => []
  | [s] => if isDotSegment s then [] else [s]
  | s :: rest => if isDotSegment s then start rest else led [s] rest

/-- The path without its dot segments. -/
def removeDotSegments (path : String) : String :=
  String.join (start (Router.segments path)).reverse

/-! ### Lengths -/

/-- The number of characters in a buffer. -/
def size : List String → ℕ
  | [] => 0
  | s :: out => s.length + size out

/-- The number of characters of segments that each follow a slash. -/
def ledSize : List String → ℕ
  | [] => 0
  | s :: parts => s.length + 1 + ledSize parts

theorem length_join (pieces : List String) : (String.join pieces).length = size pieces := by
  induction pieces with
  | nil => rw [String.join_nil]; rfl
  | cons s out ih => rw [String.join_cons, String.length_append, ih, size]

theorem size_append (pieces out : List String) :
    size (pieces ++ out) = size pieces + size out := by
  induction pieces with
  | nil => rw [List.nil_append, size, Nat.zero_add]
  | cons s pieces ih => rw [List.cons_append, size, size, ih, Nat.add_assoc]

theorem size_reverse (pieces : List String) : size pieces.reverse = size pieces := by
  induction pieces with
  | nil => rfl
  | cons s pieces ih =>
    rw [List.reverse_cons, size_append, ih, size, size, size]
    omega

theorem length_led (parts : List String) :
    (parts.flatMap fun t => '/' :: t.toList).length = ledSize parts := by
  induction parts with
  | nil => rfl
  | cons s parts ih =>
    rw [List.flatMap_cons, List.length_append, ih, List.length_cons, String.length_toList, ledSize]

theorem length_of_isDotSegment {s : String} (h : isDotSegment s = true) : 1 ≤ s.length := by
  simp only [isDotSegment, Bool.or_eq_true, decide_eq_true_eq] at h
  rcases h with rfl | rfl <;> decide

theorem size_tail_le (out : List String) : size out.tail ≤ size out := by
  cases out with
  | nil => exact Nat.le_refl _
  | cons s out =>
    rw [List.tail_cons, size]
    omega

theorem countP_cons (s : String) (parts : List String) :
    (s :: parts).countP isDotSegment =
      parts.countP isDotSegment + if s = "." ∨ s = ".." then 1 else 0 := by
  rw [List.countP_cons]
  by_cases h : s = "." ∨ s = ".."
  · simp [isDotSegment, h]
  · simp [isDotSegment, not_or.mp h]

/-- A dot segment costs the output at least one character. -/
theorem size_led (out parts : List String) :
    size (led out parts) + parts.countP isDotSegment ≤ size out + ledSize parts := by
  have hslash : ("/" : String).length = 1 := rfl
  have hdot : ("." : String).length = 1 := rfl
  have hdots : (".." : String).length = 2 := rfl
  have htail := size_tail_le out
  fun_induction led out parts with
  | case1 out => exact Nat.le_refl _
  | case2 out =>
    -- a `.` at the end leaves its slash
    simp only [size, ledSize, countP_cons, List.countP_nil, true_or,
      ↓reduceIte]
    omega
  | case3 out h =>
    -- a `..` at the end leaves its slash and takes a piece
    simp only [size, ledSize, countP_cons, List.countP_nil, or_true,
      ↓reduceIte]
    omega
  | case4 out s h₁ h₂ =>
    -- a last segment is kept with its slash
    simp only [size, ledSize, countP_cons, List.countP_nil, h₁, h₂, or_self,
      ↓reduceIte, String.length_append]
    omega
  | case5 out rest hne ih =>
    -- a `.` before other segments is lost with its slash
    have hrest := ih htail
    simp only [ledSize, countP_cons, true_or, ↓reduceIte]
    omega
  | case6 out rest hne h ih =>
    -- so is a `..`, which also takes a piece
    have hrest := ih (size_tail_le _)
    simp only [ledSize, countP_cons, or_true, ↓reduceIte]
    omega
  | case7 out s rest hne h₁ h₂ ih =>
    -- a segment moves to the output
    have hrest := ih (size_tail_le _)
    simp only [size, String.length_append] at hrest
    simp only [ledSize, countP_cons, h₁, h₂, or_self, ↓reduceIte]
    omega

theorem size_start (s : String) (parts : List String) :
    size (start (s :: parts)) + (s :: parts).countP isDotSegment ≤ s.length + ledSize parts := by
  induction parts generalizing s with
  | nil =>
    rw [start]
    by_cases hs : isDotSegment s = true
    · have hlength := length_of_isDotSegment hs
      rw [if_pos hs, List.countP_cons, if_pos hs]
      exact hlength
    · rw [if_neg hs, List.countP_cons, if_neg hs]
      simp [size]
  | cons t parts ih =>
    rw [start, List.countP_cons]
    by_cases hs : isDotSegment s = true
    · have hrest := ih t
      rw [if_pos hs, if_pos hs, ledSize]
      omega
    · have hled := size_led [s] (t :: parts)
      rw [if_neg hs, if_neg hs]
      rw [size] at hled
      exact hled
    · simp

/-! ### Paths without dot segments -/

theorem led_of_not_dot {parts : List String} (h : ∀ s ∈ parts, isDotSegment s = false)
    (out : List String) : led out parts = (parts.map ("/" ++ ·)).reverse ++ out := by
  induction parts generalizing out with
  | nil => rfl
  | cons s parts ih =>
    obtain ⟨hs, hparts⟩ := List.forall_mem_cons.mp h
    have hne : s ≠ "." ∧ s ≠ ".." := by simpa [isDotSegment] using hs
    cases parts with
    | nil => simp [led, hne]
    | cons t parts =>
      rw [led, if_neg hne.1, if_neg hne.2, ih hparts]
      · simp
      · simp

theorem start_of_not_dot {s : String} {parts : List String}
    (h : ∀ t ∈ s :: parts, isDotSegment t = false) :
    start (s :: parts) = (parts.map ("/" ++ ·)).reverse ++ [s] := by
  obtain ⟨hs, hparts⟩ := List.forall_mem_cons.mp h
  cases parts with
  | nil => simp [start, hs]
  | cons t parts =>
    rw [start, hs, if_neg (by decide), led_of_not_dot hparts]
    simp

/-- **A path is left as it is if and only if it has no dot segment.** -/
theorem removeDotSegments_eq_self_iff (path : String) :
    removeDotSegments path = path ↔ ∀ s ∈ Router.segments path, isDotSegment s = false := by
  obtain ⟨s, parts, hparts⟩ : ∃ s parts, Router.segments path = s :: parts := by
    apply List.exists_cons_of_ne_nil
    simp [Router.segments, List.splitOn_ne_nil]
  have hpath : path.toList = s.toList ++ parts.flatMap fun t => '/' :: t.toList := by
    rw [← Router.toList_join_cons, ← hparts, Router.join_segments]
  rw [removeDotSegments, hparts]
  constructor
  · intro h
    have hlength : path.length = s.length + ledSize parts := by
      rw [← String.length_toList, hpath, List.length_append, String.length_toList, length_led]
    have hsize : path.length = size (start (s :: parts)) := by
      conv_lhs => rw [← h]
      rw [length_join, size_reverse]
    have hcost := size_start s parts
    have hzero : (s :: parts).countP isDotSegment = 0 := by omega
    intro t ht
    simpa using List.countP_eq_zero.mp hzero t ht
  · intro h
    rw [start_of_not_dot h, ← String.toList_inj, String.toList_join, hpath]
    simp [List.flatMap_map]

end Novon.Rfc3986
