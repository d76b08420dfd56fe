import Mathlib.Data.List.Basic

/-!
# Dot segments

The removal of dot segments from a path (RFC 3986, section 5.2.4), on the list of its segments.
Segments go onto a stack, `..` takes the last one off, and a path that ends in a dot segment keeps
a trailing slash.
-/

namespace Novon

def isDotSegment (s : String) : Bool := s = "." || s = ".."

namespace Url

/-- The stack after the given segments; its bottom is the root. -/
def pushSegments : List String → List String → List String
  | stack, [] => stack
  | stack, s :: parts =>
    if s = "." then pushSegments stack parts
    -- the root stays, whatever number of `..` follows
    else if s = ".." then pushSegments (if stack.length ≤ 1 then stack else stack.tail) parts
    else pushSegments (s :: stack) parts

/-- The path without its dot segments. -/
def removeDotSegments (parts : List String) : List String :=
  let kept := (pushSegments [] parts).reverse
  if parts.getLast?.any isDotSegment then kept ++ [""] else kept

theorem pushSegments_of_not_dot {parts : List String}
    (h : ∀ s ∈ parts, isDotSegment s = false) (stack : List String) :
    pushSegments stack parts = parts.reverse ++ stack := by
  induction parts generalizing stack with
  | nil => rfl
  | cons s parts ih =>
    have hs : s ≠ "." ∧ s ≠ ".." := by simpa [isDotSegment] using h s List.mem_cons_self
    rw [pushSegments, if_neg hs.1, if_neg hs.2,
      ih fun t ht => h t (List.mem_cons_of_mem _ ht)]
    simp

theorem removeDotSegments_eq_self (parts : List String)
    (h : ∀ s ∈ parts, isDotSegment s = false) : removeDotSegments parts = parts := by
  have hlast : parts.getLast?.any isDotSegment = false := by
    cases hl : parts.getLast? with
    | none => rfl
    | some s => exact h s (List.mem_of_getLast? hl)
  rw [removeDotSegments, hlast, pushSegments_of_not_dot h]
  simp

/-- The stack holds segments of the path, in their order. -/
theorem pushSegments_sublist (parts stack : List String) :
    (pushSegments stack parts).reverse.Sublist
      (stack.reverse ++ parts.filter fun s => !isDotSegment s) := by
  induction parts generalizing stack with
  | nil => simp [pushSegments]
  | cons s parts ih =>
    rw [pushSegments]
    split
    · next hs => simpa [hs, isDotSegment] using ih stack
    · split
      · next hs =>
        have hpop : (if stack.length ≤ 1 then stack else stack.tail).reverse.Sublist
            stack.reverse := by
          split
          · exact List.Sublist.refl _
          · exact (List.tail_sublist stack).reverse
        simpa [hs, isDotSegment] using (ih _).trans (hpop.append (List.Sublist.refl _))
      · next h₁ h₂ => simpa [h₁, h₂, isDotSegment] using ih (s :: stack)

theorem removeDotSegments_kept (parts : List String) : ∃ kept : List String,
    kept.Sublist (parts.filter fun s => !isDotSegment s) ∧
      (removeDotSegments parts = kept ∨ removeDotSegments parts = kept ++ [""]) := by
  refine ⟨(pushSegments [] parts).reverse, by simpa using pushSegments_sublist parts [], ?_⟩
  unfold removeDotSegments
  split
  · exact .inr rfl
  · exact .inl rfl

end Url

end Novon
