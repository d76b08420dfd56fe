import Novon.Core.Equiv.FailFast
import Novon.Core.Equiv.Templates

/-!
# Substitution into a path of whole segments

The path that a call formats has the segments of the template, and the segment of a placeholder
decodes to the text of its argument: quoting leaves no slash in it, so splitting the path finds it
again, and `Percent.unquote_quote` decodes it.  Calls with different arguments therefore have
different paths.
-/

namespace Novon.Decorators

variable {python : Python} {classes : Classes} {method : String} {func : Func}
  {spec : EndpointSpec} {call : Call} {arguments : Dict String Value} {parts : List Segment}

/-- The segments of a path are those of its template, with the placeholders replaced. -/
theorem segments_join_pathSegment (h : PlainSegments python parts)
    (arguments : Dict String Value) :
    Router.segments (Router.join (parts.map (pathSegment arguments))) =
      parts.map (pathSegment arguments) := by
  apply Router.segments_join
  · intro s hs
    obtain ⟨part, hpart, rfl⟩ := List.mem_map.mp hs
    have hplain := h.segment part hpart
    cases part with
    | lit text =>
      intro hslash
      exact (hplain '/' hslash).1 rfl
    | param name =>
      rw [pathSegment]
      cases pathText arguments name with
      | none => simp
      | some text => exact Percent.slash_not_mem_quote text
  · simpa using h.ne_nil

/-- The path of a method with a template of whole segments is formatted exactly for arguments that
have a text. -/
theorem formattedPath_eq_ok_iff_segments (h : PlainSegments python parts)
    (hspec : buildSpec python classes method (templateOf parts) func = .ok spec) {path : String} :
    formattedPath python func spec arguments = .ok path ↔
      (paramNames parts).Nodup ∧ (∀ name ∈ paramNames parts, (pathText arguments name).isSome) ∧
        path = Router.join (parts.map (pathSegment arguments)) := by
  have hplaceholders := placeholders_templateOf h
  rw [formattedPath_eq_ok_iff (classified_of_buildSpec python classes hspec),
    pathParams_of_buildSpec python classes hspec, pathTemplate_of_buildSpec python classes hspec,
    hplaceholders]
  refine and_congr_right fun hnodup => and_congr_right fun hpresent => ?_
  have hpresent' : ∀ name ∈ placeholders python (templateOf parts).toList,
      (pathText arguments name).isSome := hplaceholders.symm ▸ hpresent
  have hpath := formatMap_of_simple (simpleTemplate_templateOf h hnodup) hpresent'
  rw [join_tokens_templateOf h, hplaceholders] at hpath
  rw [hpath, Except.ok.injEq, eq_comm]

/-- **The path of a call** of a method with a template of whole segments. -/
theorem path_of_wrapper (h : PlainSegments python parts)
    (hspec : buildSpec python classes method (templateOf parts) func = .ok spec)
    (hbinds : Binds python func call arguments) {out : RequestCall}
    (hok : wrapper python func spec call = .ok out) :
    (∀ name ∈ paramNames parts, (pathText arguments name).isSome) ∧
      out.path = Router.join (parts.map (pathSegment arguments)) := by
  have hclass := classified_of_buildSpec python classes hspec
  obtain ⟨arguments', hbinds', path, json, hformatted, -, rfl⟩ := (wrapper_eq_ok_iff hclass).mp hok
  obtain rfl := hbinds.unique hbinds'
  exact ((formattedPath_eq_ok_iff_segments h hspec).mp hformatted).2

/-- A call with valid path arguments formats its path. -/
theorem formattedPath_eq_ok (h : PlainSegments python parts) (hnodup : (paramNames parts).Nodup)
    (hspec : buildSpec python classes method (templateOf parts) func = .ok spec)
    (hbinds : Binds python func call arguments) (hvalid : PathArgumentsValid spec arguments) :
    formattedPath python func spec arguments =
      .ok (Router.join (parts.map (pathSegment arguments))) := by
  have hpresent := isSome_pathText (classified_of_buildSpec python classes hspec) hbinds hvalid
  rw [pathParams_of_buildSpec python classes hspec, placeholders_templateOf h] at hpresent
  exact (formattedPath_eq_ok_iff_segments h hspec).mpr ⟨hnodup, hpresent, rfl⟩

/-- What stands in the path in the place of a segment of the template. -/
def Substituted (arguments : Dict String Value) : Segment → String → Prop
  | .lit text, segment => segment = text
  | .param name, segment =>
    (∀ c ∈ ['/', '?', '#', '{', '}'], c ∉ segment.toList) ∧
      ∃ v text, arguments.get? name = some v ∧ v.text = .ok text ∧
        Percent.unquote segment = some text

theorem exists_text_of_isSome {name : String} (h : (pathText arguments name).isSome) :
    ∃ v text, arguments.get? name = some v ∧ v.text = .ok text ∧
      pathText arguments name = some text := by
  obtain ⟨text, htext⟩ := Option.isSome_iff_exists.mp h
  obtain ⟨v, hv, hif⟩ := Option.bind_eq_some_iff.mp htext
  refine ⟨v, text, hv, ?_, htext⟩
  split at hif
  · cases hif
  · exact toOption_eq_some_iff.mp hif

theorem substituted_pathSegment {part : Segment}
    (h : ∀ name, part = .param name → (pathText arguments name).isSome) :
    Substituted arguments part (pathSegment arguments part) := by
  cases part with
  | lit text => rfl
  | param name =>
    obtain ⟨v, text, hv, htext, hpath⟩ := exists_text_of_isSome (h name rfl)
    rw [pathSegment_param hpath]
    refine ⟨?_, v, text, hv, htext, Percent.unquote_quote text⟩
    intro c hc
    simp only [List.mem_cons, List.not_mem_nil, or_false] at hc
    rcases hc with rfl | rfl | rfl | rfl | rfl <;>
      exact Percent.not_mem_quote (by decide) (by decide) text

/-- **Path substitution can be undone.**  The formatted path is the one that `self.request` gets; it
does get it if the body argument can be dumped. -/
theorem substitution_invertible (h : PlainSegments python parts)
    (hnodup : (paramNames parts).Nodup)
    (hspec : buildSpec python classes method (templateOf parts) func = .ok spec)
    (hbinds : Binds python func call arguments) (hvalid : PathArgumentsValid spec arguments) :
    ∃ path, formattedPath python func spec arguments = .ok path ∧
      (∀ out, wrapper python func spec call = .ok out → out.path = path) ∧
      (BodyDumps spec arguments → ∃ out, wrapper python func spec call = .ok out) ∧
      (Router.segments path).length = parts.length ∧
      List.Forall₂ (Substituted arguments) parts (Router.segments path) ∧
      ∀ arguments' path', formattedPath python func spec arguments' = .ok path' →
        (∃ name ∈ paramNames parts, pathText arguments name ≠ pathText arguments' name) →
        path ≠ path' := by
  have hclass := classified_of_buildSpec python classes hspec
  have hpath := formattedPath_eq_ok h hnodup hspec hbinds hvalid
  obtain ⟨-, hpresent, -⟩ := (formattedPath_eq_ok_iff_segments h hspec).mp hpath
  have hsegments := segments_join_pathSegment h arguments
  refine ⟨_, hpath, ?_, ?_, by rw [hsegments, List.length_map], ?_, ?_⟩
  · intro out hok
    exact (path_of_wrapper h hspec hbinds hok).2
  · rintro ⟨json, hjson⟩
    exact ⟨_, (wrapper_eq_ok_iff hclass).mpr ⟨arguments, hbinds, _, json, hpath, hjson, rfl⟩⟩
  · rw [hsegments, List.forall₂_map_right_iff, List.forall₂_same]
    intro part hpart
    apply substituted_pathSegment
    rintro name rfl
    exact hpresent name (mem_paramNames.mpr hpart)
  · rintro arguments' path' hpath' ⟨name, hname, hne⟩ heq
    obtain ⟨-, hpresent', rfl⟩ := (formattedPath_eq_ok_iff_segments h hspec).mp hpath'
    -- equal paths split into equal segments, and quoting is injective
    have hsame : parts.map (pathSegment arguments) = parts.map (pathSegment arguments') := by
      rw [← hsegments, heq, segments_join_pathSegment h]
    have hsegment : pathSegment arguments (.param name) = pathSegment arguments' (.param name) :=
      List.map_inj_left.mp hsame _ (mem_paramNames.mp hname)
    obtain ⟨text, htext⟩ := Option.isSome_iff_exists.mp (hpresent name hname)
    obtain ⟨text', htext'⟩ := Option.isSome_iff_exists.mp (hpresent' name hname)
    rw [pathSegment_param htext, pathSegment_param htext'] at hsegment
    exact hne (by rw [htext, htext', Percent.quote_injective hsegment])

/-! ### A value that looks encoded -/

/-- The segments of `/items/{item_id}`. -/
def itemSegments : List Segment := [.lit "", .lit "items", .param "item_id"]

theorem plainSegments_item : PlainSegments Python.sample itemSegments :=
  plainSegments_of_ascii (List.cons_ne_nil _ _) rfl

theorem buildSpec_getItem :
    buildSpec Python.sample Classes.sample "GET" (templateOf itemSegments) getItem =
      .ok (getItemSpec (templateOf itemSegments) ["item_id"] []) := rfl

theorem substitution_invertible_sample : ∃ out,
    wrapper Python.sample getItem (getItemSpec (templateOf itemSegments) ["item_id"] [])
        (getItemCall "%2F\x7bitem_id\x7d") = .ok out ∧
      (Router.segments out.path).length = 3 ∧
      List.Forall₂ (Substituted (getItemArguments "%2F\x7bitem_id\x7d")) itemSegments
        (Router.segments out.path) := by
  have hvalid := pathArgumentsValid_getItem (templateOf itemSegments) [] "%2F\x7bitem_id\x7d"
  obtain ⟨path, -, hsame, hreaches, hlength, hsegments, -⟩ := substitution_invertible
    plainSegments_item (by decide) buildSpec_getItem (binds_getItemCall _) hvalid
  obtain ⟨out, hok⟩ := hreaches (bodyDumps_of_bodyParam_eq_none rfl)
  rw [← hsame out hok] at hlength hsegments
  exact ⟨out, hok, hlength, hsegments⟩

end Novon.Decorators
