import Mathlib.Data.List.Sublists
import Novon.Core.Feign

/-!
# Where the path of a call arrives

A path of the form `/collection/{id}` reaches the server as `/collection/` and the id itself, if
the id is no dot segment: percent-encoding keeps the id inside its segment.  A dot segment is
normalised away before the server sees it.
-/

namespace Novon.Router

theorem segments_item (c : String) (hc : '/' ∉ c.toList) (t : String) :
    segments ("/" ++ c ++ "/" ++ t) = "" :: c :: segments t := by
  have hsplit : "/" ++ c ++ "/" ++ t = "" ++ "/" ++ (c ++ "/" ++ t) := by
    simp [String.append_assoc]
  rw [hsplit, segments_append_slash (by decide), segments_append_slash hc]

theorem quote_eq_iff {s t : String} (h : Percent.quote t = t) : Percent.quote s = t ↔ s = t :=
  ⟨fun hs => Percent.quote_injective (hs.trans h.symm), fun hs => hs ▸ h⟩

/-- Quoting neither makes nor hides a dot segment. -/
theorem isDotSegment_quote (s : String) : isDotSegment (Percent.quote s) = isDotSegment s := by
  have hdot : Percent.quote "." = "." := by decide
  have hdots : Percent.quote ".." = ".." := by decide
  simp [isDotSegment, quote_eq_iff hdot, quote_eq_iff hdots]

/-- An id that a path can carry as one segment. -/
def Addressable (id : String) : Prop := id ≠ "" ∧ '/' ∉ id.toList ∧ isDotSegment id = false

instance (id : String) : Decidable (Addressable id) := inferInstanceAs (Decidable (_ ∧ _ ∧ _))

/-- The path as the server decodes it. -/
def arrived (lib : HttpLib) (path : String) : Option String :=
  Percent.unquote (join (lib.removeDotSegments (segments path)))

variable (lib : HttpLib)

/-- A path without dot segments and escapes arrives as it is. -/
theorem arrived_eq_self {path : String} (hdot : ∀ s ∈ segments path, isDotSegment s = false)
    (hesc : '%' ∉ path.toList) : arrived lib path = some path := by
  have hquote := Percent.unquote_append hesc ""
  have hempty : Percent.quote "" = "" := by decide
  rw [hempty, String.append_empty] at hquote
  rw [arrived, lib.removeDotSegments_eq_self _ hdot, join_segments, hquote]

/-- **An id arrives as it was given**, unless it is a dot segment. -/
theorem arrived_item (c : String) (hc : '/' ∉ c.toList) (hesc : '%' ∉ c.toList)
    (hcdot : isDotSegment c = false) {id : String} (hid : isDotSegment id = false) :
    arrived lib ("/" ++ c ++ "/" ++ Percent.quote id) = some ("/" ++ c ++ "/" ++ id) := by
  have hseg : segments ("/" ++ c ++ "/" ++ Percent.quote id) = ["", c, Percent.quote id] := by
    rw [segments_item c hc, segments_eq_singleton (Percent.slash_not_mem_quote id)]
  have hdot : ∀ s ∈ segments ("/" ++ c ++ "/" ++ Percent.quote id), isDotSegment s = false := by
    rw [hseg]
    simp only [List.mem_cons, List.not_mem_nil, or_false]
    rintro s (rfl | rfl | rfl)
    · rfl
    · exact hcdot
    · rw [isDotSegment_quote, hid]
  have hlit : '%' ∉ ("/" ++ c ++ "/").toList := by
    simpa [String.toList_append] using hesc
  rw [arrived, lib.removeDotSegments_eq_self _ hdot, join_segments, Percent.unquote_append hlit]

/-- What can be left of the path of a dot segment. -/
theorem arrived_dot (c : String) (hc : '/' ∉ c.toList) (hesc : '%' ∉ c.toList)
    (hcdot : isDotSegment c = false) {id : String} (hid : isDotSegment id = true) :
    arrived lib ("/" ++ c ++ "/" ++ Percent.quote id) ∈
      [some "", some c, some ("/" ++ c), some "/", some (c ++ "/"), some ("/" ++ c ++ "/")] := by
  have hseg : segments ("/" ++ c ++ "/" ++ Percent.quote id) = ["", c, Percent.quote id] := by
    rw [segments_item c hc, segments_eq_singleton (Percent.slash_not_mem_quote id)]
  have hkept : (["", c, Percent.quote id].filter fun s => !isDotSegment s) = ["", c] := by
    have hempty : isDotSegment "" = false := rfl
    simp [isDotSegment_quote, hid, hcdot, hempty]
  -- nothing in these paths is escaped, so decoding leaves them
  have hdecode : ∀ p : String, '%' ∉ p.toList → Percent.unquote p = some p := by
    intro p hp
    have hquote := Percent.unquote_append hp ""
    rwa [show Percent.quote "" = "" by decide, String.append_empty] at hquote
  obtain ⟨kept, hsub, hleft⟩ := lib.removeDotSegments_kept ["", c, Percent.quote id]
  rw [hkept, ← List.mem_sublists] at hsub
  have hcases : kept = [] ∨ kept = [""] ∨ kept = [c] ∨ kept = ["", c] := by
    simpa [List.sublists, or_comm, or_assoc, or_left_comm] using hsub
  rw [arrived, hseg]
  rcases hleft with hleft | hleft <;> rw [hleft] <;> rcases hcases with rfl | rfl | rfl | rfl <;>
    rw [hdecode _ (by simp [join, List.intercalate, String.toList_append, hesc])] <;>
    simp [join, List.intercalate, String.append_assoc]

/-! ### Dispatch -/

/-- The path of one id matches the item route, unless the id is empty or has a slash in it. -/
theorem matchPath_item (c name : String) (hc : '/' ∉ c.toList) (id : String) :
    matchPath [.lit "", .lit c, .param name] (segments ("/" ++ c ++ "/" ++ id)) =
      if id = "" ∨ '/' ∈ id.toList then none else some [id] := by
  rw [segments_item c hc]
  by_cases hslash : '/' ∈ id.toList
  · -- one segment too many
    obtain ⟨a, b, rest, hid⟩ := segments_of_slash hslash
    simp [hid, matchPath, hslash]
  · by_cases hempty : id = ""
    · simp [hempty, segments_eq_singleton, matchPath]
    · simp [segments_eq_singleton hslash, matchPath, hempty, hslash]

/-- What a request is dispatched to is the endpoint of a route of its method. -/
theorem exists_route_of_dispatch {η : Type} {routes : List (Route η)} {method path : String}
    {endpoint : η} {args : List String} (h : dispatch routes method path = some (endpoint, args)) :
    ∃ route ∈ routes, route.method = method ∧ route.endpoint = endpoint := by
  obtain ⟨route, hmem, hroute⟩ := List.exists_of_findSome?_eq_some h
  split at hroute
  · next hmethod =>
    obtain ⟨_, -, heq⟩ := Option.map_eq_some_iff.mp hroute
    exact ⟨route, hmem, hmethod, (Prod.mk.inj heq).1⟩
  · simp at hroute

/-- A request has the method of the routes of the endpoint that it is dispatched to. -/
theorem method_of_dispatch {η : Type} {routes : List (Route η)} {method path expected : String}
    {endpoint : η} {args : List String} (h : dispatch routes method path = some (endpoint, args))
    (htable : ∀ route ∈ routes, route.endpoint = endpoint → route.method = expected) :
    method = expected := by
  obtain ⟨route, hmem, hmethod, hendpoint⟩ := exists_route_of_dispatch h
  rw [← hmethod, htable route hmem hendpoint]

/-- Only the routes of the request's method count. -/
theorem dispatch_of_filter {η : Type} {routes : List (Route η)} {method : String}
    {route : Route η} (h : routes.filter (fun r => r.method = method) = [route]) (path : String) :
    dispatch routes method path =
      (matchPath route.path (segments path)).map (route.endpoint, ·) := by
  have hfilter : ∀ routes : List (Route η), dispatch routes method path =
      (routes.filter fun r => r.method = method).findSome? fun r =>
        (matchPath r.path (segments path)).map (r.endpoint, ·) := by
    intro routes
    induction routes with
    | nil => rfl
    | cons r routes ih =>
      rw [dispatch, List.findSome?_cons]
      by_cases hr : r.method = method
      · rw [if_pos hr, List.filter_cons_of_pos (by simpa using hr), List.findSome?_cons, ← ih]
        rfl
      · rw [if_neg hr, List.filter_cons_of_neg (by simpa using hr), ← ih]
        rfl
  rw [hfilter, h]
  cases hm : matchPath route.path (segments path) <;> simp [hm]

/-- **A method with one route, for one id**: it takes every addressable id as its argument and no
other, whatever becomes of dot segments. -/
theorem dispatch_arrived_item {η : Type} {routes : List (Route η)} {method c name : String}
    {endpoint : η} (hc : '/' ∉ c.toList) (hesc : '%' ∉ c.toList) (hcdot : isDotSegment c = false)
    (h : routes.filter (fun r => r.method = method) =
      [⟨method, [.lit "", .lit c, .param name], endpoint⟩]) (id : String) :
    (arrived lib ("/" ++ c ++ "/" ++ Percent.quote id)).bind (dispatch routes method) =
      if Addressable id then some (endpoint, [id]) else none := by
  by_cases hdot : isDotSegment id = true
  · rw [if_neg fun ha => absurd ha.2.2 (by simp [hdot])]
    have hleft := arrived_dot lib c hc hesc hcdot hdot
    -- none of the paths that may be left ends in a segment that is not empty
    have hempty : segments "" = [""] := rfl
    have hslash : segments "/" = ["", ""] := rfl
    have hone : segments c = [c] := segments_eq_singleton hc
    have htwo : segments ("/" ++ c) = ["", c] := by
      have happ := segments_append_slash (s := "") (by decide) c
      rwa [hone] at happ
    have hback : segments (c ++ "/") = [c, ""] := by
      have happ := segments_append_slash hc ""
      rwa [String.append_empty] at happ
    have hthree : segments ("/" ++ c ++ "/") = ["", c, ""] := by
      have happ := segments_item c hc ""
      rwa [String.append_empty] at happ
    simp only [List.mem_cons, List.not_mem_nil, or_false] at hleft
    rcases hleft with hl | hl | hl | hl | hl | hl <;>
      simp [hl, dispatch_of_filter h, hempty, hslash, hone, htwo, hback, hthree, matchPath]
  · have hdot' : isDotSegment id = false := by simpa using hdot
    rw [arrived_item lib c hc hesc hcdot hdot', Option.bind_some, dispatch_of_filter h,
      matchPath_item c name hc]
    by_cases ha : id = "" ∨ '/' ∈ id.toList
    · rw [if_pos ha, if_neg]
      · rfl
      · rintro ⟨hne, hslash, -⟩
        exact ha.elim hne hslash
    · rw [if_neg ha, if_pos]
      · rfl
      · exact ⟨fun he => ha (.inl he), fun hs => ha (.inr hs), hdot'⟩

end Novon.Router
