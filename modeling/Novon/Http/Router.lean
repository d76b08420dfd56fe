import Mathlib.Data.List.Basic

/-!
# Paths and route tables

A path is matched segment by segment: a literal segment matches itself and a `{param}` matches one
segment that is not empty.  Routes are tried in declaration order and a route of another method is
skipped.

The pattern of a route ends in `$`, which matches at the end of a path and also before a newline at
its end.  A `{param}` takes the newline for its own, a literal segment leaves it over.
-/

namespace Novon

inductive Segment where
  | lit (text : String)
  | param (name : String)
  deriving DecidableEq, Repr

/-- A route: method, path and the handler it leads to. -/
structure Route (η : Type) where
  method : String
  path : List Segment
  endpoint : η

namespace Router

/-- The parts of a path between slashes. -/
def segments (path : String) : List String := (path.toList.splitOn '/').map String.ofList

/-- Whether a literal segment matches, and whether it is the last of its route. -/
def matchesLit (text : String) (isLast : Bool) (s : String) : Bool :=
  s = text || isLast && s = text ++ "\n"

@[simp] theorem matchesLit_self (text : String) (isLast : Bool) :
    matchesLit text isLast text = true := by
  simp [matchesLit]

/-- A literal segment that is followed by others matches nothing but itself. -/
@[simp] theorem matchesLit_false (text s : String) :
    matchesLit text false s = decide (s = text) := by
  simp [matchesLit]

/-- The arguments that a path gives to a route's path, if they match. -/
def matchPath : List Segment → List String → Option (List String)
  | [], [] => some []
  | .lit text :: parts, s :: rest =>
    if matchesLit text parts.isEmpty s then matchPath parts rest else none
  -- `[^/]+` needs at least one character
  | .param _ :: parts, s :: rest => if s = "" then none else (matchPath parts rest).map (s :: ·)
  | _, _ => none

/-- The first route that takes a request, with its path arguments. -/
def dispatch {η : Type} (routes : List (Route η)) (method path : String) :
    Option (η × List String) :=
  routes.findSome? fun route =>
    if route.method = method then
      (matchPath route.path (segments path)).map (route.endpoint, ·)
    else none

def join (parts : List String) : String :=
  String.ofList (['/'].intercalate (parts.map String.toList))

/-! ### Segments -/

theorem segments_eq_singleton {s : String} (h : '/' ∉ s.toList) : segments s = [s] := by
  rw [segments, List.splitOn_eq_singleton h]
  simp

theorem segments_append_slash {s : String} (h : '/' ∉ s.toList) (t : String) :
    segments (s ++ "/" ++ t) = s :: segments t := by
  have htoList : (s ++ "/" ++ t).toList = s.toList ++ '/' :: t.toList := by
    simp [String.toList_append]
  rw [segments, htoList, List.splitOn_append_cons_self_of_not_mem h]
  simp [segments]

/-- A string with a slash in it is more than one segment. -/
theorem segments_of_slash {s : String} (h : '/' ∈ s.toList) :
    ∃ a b rest, segments s = a :: b :: rest := by
  obtain ⟨l, r, hs⟩ := List.append_of_mem h
  have hlen : 2 ≤ (segments s).length := by
    have hl : (l.splitOn '/').length ≠ 0 := by simp [List.splitOn_ne_nil]
    have hr : (r.splitOn '/').length ≠ 0 := by simp [List.splitOn_ne_nil]
    rw [segments, hs, List.splitOn_append_cons_self, List.length_map, List.length_append]
    omega
  match segments s, hlen with
  | a :: b :: rest, _ => exact ⟨a, b, rest, rfl⟩

theorem join_segments (s : String) : join (segments s) = s := by
  have h : (segments s).map String.toList = s.toList.splitOn '/' := by
    simp [segments, List.map_map, Function.comp_def]
  rw [join, h, List.intercalate_splitOn, String.ofList_toList]

/-- Splitting leaves no slash in a segment. -/
theorem slash_not_mem_of_mem_splitOn (l : List Char) : ∀ x ∈ l.splitOn '/', '/' ∉ x := by
  induction hn : l.length using Nat.strongRecOn generalizing l with
  | _ n ih =>
    by_cases hslash : '/' ∈ l
    · obtain ⟨a, r, rfl, ha⟩ := List.eq_append_cons_of_mem hslash
      rw [List.splitOn_append_cons_self_of_not_mem ha, List.forall_mem_cons]
      have hlt : r.length < n := by
        rw [← hn, List.length_append, List.length_cons]
        omega
      exact ⟨ha, ih r.length hlt r rfl⟩
    · rw [List.splitOn_eq_singleton hslash]
      intro x hx
      rwa [List.mem_singleton.mp hx]

theorem slash_not_mem_of_mem_segments {s path : String} (h : s ∈ segments path) :
    '/' ∉ s.toList := by
  obtain ⟨x, hx, rfl⟩ := List.mem_map.mp h
  rw [String.toList_ofList]
  exact slash_not_mem_of_mem_splitOn _ x hx

/-- A joined path has a slash before each segment but the first. -/
theorem toList_join_cons (s : String) (ss : List String) :
    (join (s :: ss)).toList = s.toList ++ ss.flatMap fun t => '/' :: t.toList := by
  rw [join, String.toList_ofList, List.map_cons]
  induction ss generalizing s with
  | nil => simp
  | cons t ss ih =>
    rw [List.map_cons, List.intercalate_cons_cons, ih t, List.flatMap_cons]
    simp

theorem join_pair (s t : String) : join [s, t] = s ++ "/" ++ t := by
  apply String.toList_injective
  rw [toList_join_cons, String.toList_append, String.toList_append]
  simp

theorem join_triple (s t u : String) : join [s, t, u] = s ++ "/" ++ t ++ "/" ++ u := by
  apply String.toList_injective
  rw [toList_join_cons, String.toList_append, String.toList_append, ← join_pair,
    toList_join_cons]
  simp

/-- Segments are joined and split again. -/
theorem segments_join {parts : List String} (h : ∀ s ∈ parts, '/' ∉ s.toList)
    (hne : parts ≠ []) : segments (join parts) = parts := by
  have hchars : ∀ l ∈ parts.map String.toList, '/' ∉ l := by
    intro l hl
    obtain ⟨s, hs, rfl⟩ := List.mem_map.mp hl
    exact h s hs
  have hne' : parts.map String.toList ≠ [] := by simpa using hne
  rw [segments, join, String.toList_ofList, List.splitOn_intercalate '/' hchars hne',
    List.map_map]
  simp [Function.comp_def]

end Router

end Novon
