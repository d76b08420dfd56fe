import Novon.Core.Equiv.PathSubstitution
import Novon.Http.Equiv.Router
import Novon.Http.Rfc3986

/-!
# Path arguments that are dot segments

Percent-encoding keeps `.` as it is, so an argument of `..` is still a dot segment of the path, and
an empty argument an empty segment.  `addresses_iff` says that these are the only ways in which an
argument leaves its place; `not_every_call_addresses` is a call that does.
-/

namespace Novon.Decorators

/-- Dot segments are removed as RFC 3986 says, or as the HTTP library does when it builds the
URL. -/
def Normalises (normalise : String → String) : Prop :=
  normalise = Rfc3986.removeDotSegments ∨ ∃ lib : HttpLib, normalise = fun path =>
    Router.join (lib.removeDotSegments (Router.segments path))

/-- A path is left where it is, and every placeholder has something in its place. -/
structure Addresses (normalise : String → String) (parts : List Segment) (path : String) :
    Prop where
  unchanged : normalise path = path
  filled : ∀ (i : ℕ) (name : String), parts[i]? = some (.param name) →
    (Router.segments path)[i]? ≠ some ""

/-- No literal segment is a dot segment, and no argument is empty or a dot segment. -/
structure NoDotSegments (parts : List Segment) (arguments : Dict String Value) : Prop where
  lit : ∀ text, Segment.lit text ∈ parts → isDotSegment text = false
  param : ∀ name ∈ paramNames parts, ∀ text, pathText arguments name = some text →
    text ≠ "" ∧ isDotSegment text = false

/-- The library, too, leaves exactly the paths without dot segments. -/
theorem join_removeDotSegments_eq_self_iff (lib : HttpLib) (path : String) :
    Router.join (lib.removeDotSegments (Router.segments path)) = path ↔
      ∀ s ∈ Router.segments path, isDotSegment s = false := by
  constructor
  · intro h
    obtain ⟨kept, hsub, hleft⟩ := lib.removeDotSegments_kept (Router.segments path)
    have hleft : ∀ s ∈ lib.removeDotSegments (Router.segments path),
        isDotSegment s = false ∧ '/' ∉ s.toList := by
      intro s hs
      have hmem : s ∈ kept ∨ s = "" := by
        rcases hleft with hleft | hleft
        · exact .inl (hleft ▸ hs)
        · rw [hleft, List.mem_append, List.mem_singleton] at hs
          exact hs
      rcases hmem with hmem | rfl
      · obtain ⟨hsegment, hdot⟩ := List.mem_filter.mp (hsub.subset hmem)
        exact ⟨by simpa using hdot, Router.slash_not_mem_of_mem_segments hsegment⟩
      · exact ⟨rfl, by simp⟩
    by_cases hnil : lib.removeDotSegments (Router.segments path) = []
    · -- only the empty path is left empty
      rw [hnil] at h
      subst h
      decide
    · have hsame := Router.segments_join (fun s hs => (hleft s hs).2) hnil
      rw [h] at hsame
      intro s hs
      exact (hleft s (hsame ▸ hs)).1
  · intro h
    rw [lib.removeDotSegments_eq_self _ h, Router.join_segments]

theorem normalise_eq_self_iff {normalise : String → String} (h : Normalises normalise)
    (path : String) :
    normalise path = path ↔ ∀ s ∈ Router.segments path, isDotSegment s = false := by
  rcases h with rfl | ⟨lib, rfl⟩
  · exact Rfc3986.removeDotSegments_eq_self_iff path
  · exact join_removeDotSegments_eq_self_iff lib path

variable {python : Python} {classes : Classes} {method : String} {func : Func}
  {spec : EndpointSpec} {call : Call} {arguments : Dict String Value} {parts : List Segment}
  {out : RequestCall} {normalise : String → String}

theorem quote_eq_empty_iff (s : String) : Percent.quote s = "" ↔ s = "" :=
  Router.quote_eq_iff (by decide)

/-- **Which calls address the declared endpoint.** -/
theorem addresses_iff (hnormalise : Normalises normalise) (h : PlainSegments python parts)
    (hspec : buildSpec python classes method (templateOf parts) func = .ok spec)
    (hbinds : Binds python func call arguments)
    (hok : wrapper python func spec call = .ok out) :
    Addresses normalise parts out.path ↔ NoDotSegments parts arguments := by
  obtain ⟨hpresent, hpath⟩ := path_of_wrapper h hspec hbinds hok
  have hsegments : Router.segments out.path = parts.map (pathSegment arguments) := by
    rw [hpath, segments_join_pathSegment h]
  constructor
  · rintro ⟨hunchanged, hfilled⟩
    rw [normalise_eq_self_iff hnormalise, hsegments] at hunchanged
    refine ⟨?_, ?_⟩
    · intro text htext
      exact hunchanged _ (List.mem_map_of_mem htext)
    · intro name hname text htext
      have hmem := mem_paramNames.mp hname
      constructor
      · -- only the empty text is quoted as an empty segment
        rintro rfl
        obtain ⟨i, hi⟩ := List.mem_iff_getElem?.mp hmem
        apply hfilled i name hi
        rw [hsegments, List.getElem?_map, hi, Option.map_some, pathSegment_param htext]
        rfl
      · have hdot := hunchanged _ (List.mem_map_of_mem hmem)
        rwa [pathSegment_param htext, Router.isDotSegment_quote] at hdot
  · rintro ⟨hlit, hargument⟩
    refine ⟨?_, ?_⟩
    · rw [normalise_eq_self_iff hnormalise, hsegments]
      intro s hs
      obtain ⟨part, hpart, rfl⟩ := List.mem_map.mp hs
      cases part with
      | lit text => exact hlit text hpart
      | param name =>
        have hname := mem_paramNames.mpr hpart
        obtain ⟨text, htext⟩ := Option.isSome_iff_exists.mp (hpresent name hname)
        rw [pathSegment_param htext, Router.isDotSegment_quote]
        exact (hargument name hname text htext).2
    · intro i name hi hempty
      have hname := mem_paramNames.mpr (List.mem_of_getElem? hi)
      obtain ⟨text, htext⟩ := Option.isSome_iff_exists.mp (hpresent name hname)
      rw [hsegments, List.getElem?_map, hi, Option.map_some, pathSegment_param htext] at hempty
      have hquote := (quote_eq_empty_iff text).mp (Option.some.inj hempty)
      exact (hargument name hname text htext).1 hquote

/-- The literal segments of `/items/{item_id}` are no dot segments. -/
theorem isDotSegment_itemSegments :
    ∀ text, Segment.lit text ∈ itemSegments → isDotSegment text = false := by
  intro text htext
  simp only [itemSegments, List.mem_cons, List.not_mem_nil, or_false, Segment.lit.injEq,
    reduceCtorEq] at htext
  rcases htext with rfl | rfl <;> decide

theorem addresses_iff_sample :
    Addresses Rfc3986.removeDotSegments itemSegments "/items/5" := by
  have hok : wrapper Python.sample getItem (getItemSpec (templateOf itemSegments) ["item_id"] [])
      (getItemCall "5") = .ok (getItemRequest "/items/5") := rfl
  refine (addresses_iff (.inl rfl) plainSegments_item buildSpec_getItem
    (binds_getItemCall "5") hok).mpr ⟨isDotSegment_itemSegments, ?_⟩
  intro name hname text htext
  obtain rfl := List.mem_singleton.mp hname
  obtain rfl : "5" = text := Option.some.inj htext
  exact ⟨by decide, by decide⟩

/-- `client.get_item("..")` asks for another resource. -/
theorem not_every_call_addresses :
    ¬∀ (parts : List Segment) (method : String) (func : Func) (spec : EndpointSpec) (call : Call)
        (arguments : Dict String Value) (out : RequestCall),
      PlainSegments Python.sample parts →
        (∀ text, Segment.lit text ∈ parts → isDotSegment text = false) →
        buildSpec Python.sample Classes.sample method (templateOf parts) func = .ok spec →
        Binds Python.sample func call arguments →
        wrapper Python.sample func spec call = .ok out →
        Addresses Rfc3986.removeDotSegments parts out.path := by
  intro h
  have hok : wrapper Python.sample getItem (getItemSpec (templateOf itemSegments) ["item_id"] [])
      (getItemCall "..") = .ok (getItemRequest "/items/..") := rfl
  have haddresses := h _ _ _ _ _ _ _ plainSegments_item isDotSegment_itemSegments
    buildSpec_getItem (binds_getItemCall "..") hok
  have hresolved : Rfc3986.removeDotSegments "/items/.." = "/" := by decide
  have hpath : Rfc3986.removeDotSegments "/items/.." = "/items/.." := haddresses.unchanged
  rw [hresolved] at hpath
  exact absurd hpath (by decide)

end Novon.Decorators
