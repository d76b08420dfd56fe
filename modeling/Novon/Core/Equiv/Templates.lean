import Mathlib.Data.List.TakeWhile
import Novon.Core.Equiv.Transmission
import Novon.Core.Templates

/-!
# How a template of whole segments is read

Both grammars read such a template as it is meant: decoration finds the names of its placeholders
(`placeholders_templateOf`), a call finds them as its fields (`topFields_templateOf`), and
formatting puts the encoded arguments in the place of the placeholders, segment by segment
(`join_tokens_templateOf`).
-/

namespace Novon.Decorators

open Format (Field Token tokens topFields IsBrace IsNameChar scan)

variable {python : Python}

/-- What the characters of a segment are read as. -/
def segmentTokens : Segment → List Token
  | .lit text => text.toList.map .lit
  | .param name => [.field ⟨name.toList, none, []⟩]

/-- No word character means anything to the formatting. -/
theorem isNameChar_of_isWord {c : Char} (h : python.isWord c = true) :
    IsNameChar c ∧ c ≠ '.' := by
  have hspecial : ∀ d ∈ ['{', '}', '[', '!', ':', '.'], c ≠ d := by
    rintro d hd rfl
    have hascii : c.toNat < 128 ∧ (c.isAlphanum || decide (c = '_')) = false := by
      simp only [List.mem_cons, List.not_mem_nil, or_false] at hd
      rcases hd with rfl | rfl | rfl | rfl | rfl | rfl <;> decide
    rw [python.isWord_ascii c hascii.1, hascii.2] at h
    cases h
  simp only [List.mem_cons, List.not_mem_nil, or_false, forall_eq_or_imp, forall_eq] at hspecial
  obtain ⟨hopen, hclose, hbracket, hbang, hcolon, hdot⟩ := hspecial
  exact ⟨⟨by rintro (rfl | rfl); exacts [hopen rfl, hclose rfl], hbracket, hbang, hcolon⟩, hdot⟩

/-! ### The reading of a call -/

theorem scan_segment_append {part : Segment} (h : PlainSegment python part) (cs : List Char) :
    scan .text (part.source.toList ++ cs) = segmentTokens part ++ scan .text cs := by
  cases part with
  | lit text =>
    apply Format.scan_text_append
    intro c hc
    obtain ⟨-, hopen, hclose⟩ := h c hc
    rintro (rfl | rfl)
    · exact hopen rfl
    · exact hclose rfl
  | param name =>
    have hname : ∀ c ∈ name.toList, IsNameChar c :=
      fun c hc => (isNameChar_of_isWord (h.1 c hc)).1
    have hsource : (Segment.param name).source.toList ++ cs =
        '{' :: (name.toList ++ '}' :: cs) := by
      simp [Segment.source, String.toList_append]
    rw [hsource, Format.scan_placeholder_append hname]
    rfl

theorem scan_segments {parts : List Segment} (h : ∀ part ∈ parts, PlainSegment python part) :
    scan .text (parts.flatMap fun part => '/' :: part.source.toList) =
      parts.flatMap fun part => .lit '/' :: segmentTokens part := by
  induction parts with
  | nil => rfl
  | cons part parts ih =>
    obtain ⟨hpart, hparts⟩ := List.forall_mem_cons.mp h
    rw [List.flatMap_cons, List.flatMap_cons, List.cons_append, List.cons_append, ← ih hparts,
      ← scan_segment_append hpart]
    rfl

theorem tokens_templateOf {part : Segment} {parts : List Segment}
    (h : ∀ p ∈ part :: parts, PlainSegment python p) :
    tokens (templateOf (part :: parts)).toList =
      segmentTokens part ++ parts.flatMap fun p => .lit '/' :: segmentTokens p := by
  obtain ⟨hpart, hparts⟩ := List.forall_mem_cons.mp h
  rw [tokens, templateOf, List.map_cons, Router.toList_join_cons, List.flatMap_map,
    scan_segment_append hpart, scan_segments hparts]

theorem paramNames_cons (part : Segment) (parts : List Segment) :
    paramNames (part :: parts) = paramNames [part] ++ paramNames parts := by
  cases part <;> rfl

/-- The field of a placeholder. -/
def placeholderField (name : String) : Field := ⟨name.toList, none, []⟩

theorem filterMap_segmentTokens (part : Segment) :
    (segmentTokens part).filterMap Format.Token.field? =
      (paramNames [part]).map placeholderField := by
  cases part with
  | lit text =>
    show (text.toList.map Token.lit).filterMap Format.Token.field? = []
    rw [List.filterMap_map, List.filterMap_eq_nil_iff]
    intro c _
    rfl
  | param name => rfl

/-- A call finds the placeholders as the fields of the template. -/
theorem topFields_templateOf {parts : List Segment} (h : PlainSegments python parts) :
    topFields (templateOf parts).toList = (paramNames parts).map placeholderField := by
  obtain ⟨part, rest, rfl⟩ := List.exists_cons_of_ne_nil h.ne_nil
  have hrest : (rest.flatMap fun p => Token.lit '/' :: segmentTokens p).filterMap
      Format.Token.field? = (paramNames rest).map placeholderField := by
    clear h
    induction rest with
    | nil => rfl
    | cons p rest ih =>
      rw [List.flatMap_cons, List.filterMap_append, ih, paramNames_cons p rest, List.map_append,
        ← filterMap_segmentTokens p]
      rfl
  rw [topFields, tokens_templateOf h.segment, List.filterMap_append, hrest,
    filterMap_segmentTokens, paramNames_cons part rest, List.map_append]

theorem malformed_not_mem_templateOf {parts : List Segment} (h : PlainSegments python parts) :
    .malformed ∉ tokens (templateOf parts).toList := by
  obtain ⟨part, rest, rfl⟩ := List.exists_cons_of_ne_nil h.ne_nil
  have hsegment : ∀ p, .malformed ∉ segmentTokens p := by
    intro p
    cases p <;> simp [segmentTokens]
  rw [tokens_templateOf h.segment, List.mem_append, List.mem_flatMap]
  rintro (hmem | ⟨p, -, hmem⟩)
  · exact hsegment part hmem
  · rcases List.mem_cons.mp hmem with heq | hmem
    · cases heq
    · exact hsegment p hmem

/-! ### The reading of decoration -/

theorem findall_text_append {l : List Char} (h : ∀ c ∈ l, c ≠ '{') (cs : List Char) :
    findall python none (l ++ cs) = findall python none cs := by
  induction l with
  | nil => rfl
  | cons c l ih =>
    obtain ⟨hc, hl⟩ := List.forall_mem_cons.mp h
    rw [List.cons_append, findall, if_neg hc, ih hl]

theorem findall_name_append {name : List Char} (h : ∀ c ∈ name, python.isWord c = true)
    (matched cs : List Char) (hne : matched ++ name ≠ []) :
    findall python (some matched) (name ++ '}' :: cs) =
      String.ofList (matched ++ name) :: findall python none cs := by
  induction name generalizing matched with
  | nil =>
    -- a brace is no word character in any Python
    have hword : python.isWord '}' = false := by
      rw [python.isWord_ascii _ (by decide)]
      decide
    rw [List.append_nil] at hne ⊢
    rw [List.nil_append, findall]
    simp [hword, hne]
  | cons c name ih =>
    obtain ⟨hc, hname⟩ := List.forall_mem_cons.mp h
    have hopen : c ≠ '{' := by
      rintro rfl
      exact (isNameChar_of_isWord hc).1.1 (.inl rfl)
    rw [List.cons_append, findall, if_neg hopen]
    simp only [hc, ↓reduceIte]
    rw [ih hname (matched ++ [c]) (by simp), List.append_assoc, List.singleton_append]

theorem findall_segment_append {part : Segment} (h : PlainSegment python part)
    (cs : List Char) :
    findall python none (part.source.toList ++ cs) =
      paramNames [part] ++ findall python none cs := by
  cases part with
  | lit text => exact findall_text_append (fun c hc => (h c hc).2.1) cs
  | param name =>
    have hne : name.toList ≠ [] := by
      intro hnil
      have hposition := h.2
      rw [hnil] at hposition
      cases hposition
    have hsource : (Segment.param name).source.toList ++ cs =
        '{' :: (name.toList ++ '}' :: cs) := by
      simp [Segment.source, String.toList_append]
    rw [hsource, findall, if_pos rfl, findall_name_append h.1 [] cs hne, List.nil_append,
      String.ofList_toList]
    rfl

/-- Decoration finds the names of the placeholders. -/
theorem placeholders_templateOf {parts : List Segment} (h : PlainSegments python parts) :
    placeholders python (templateOf parts).toList = paramNames parts := by
  obtain ⟨part, rest, rfl⟩ := List.exists_cons_of_ne_nil h.ne_nil
  obtain ⟨hpart, hparts⟩ := List.forall_mem_cons.mp h.segment
  have hrest : findall python none (rest.flatMap fun p => '/' :: p.source.toList) =
      paramNames rest := by
    clear h hpart
    induction rest with
    | nil => rfl
    | cons p rest ih =>
      obtain ⟨hp, hps⟩ := List.forall_mem_cons.mp hparts
      rw [List.flatMap_cons, List.cons_append, findall, if_neg (by decide)]
      show findall python none _ = _
      rw [findall_segment_append hp, ih hps, ← paramNames_cons]
  rw [placeholders, templateOf, List.map_cons, Router.toList_join_cons, List.flatMap_map,
    findall_segment_append hpart, hrest, ← paramNames_cons]

/-! ### The path -/

theorem isPlain_placeholderField {name : String} (h : SimpleName python name) :
    (placeholderField name).IsPlain := by
  refine ⟨?_, rfl, rfl⟩
  show name.toList.dropWhile _ = []
  rw [List.dropWhile_eq_nil_iff]
  intro c hc
  obtain ⟨⟨-, hbracket, -, -⟩, hdot⟩ := isNameChar_of_isWord (h.1 c hc)
  simp [hbracket, hdot]

/-- The name of a placeholder is looked up as it is. -/
theorem key?_placeholderField {name : String} (h : SimpleName python name) :
    (placeholderField name).key? python.toLib = some name := by
  have hbase : (placeholderField name).base = name.toList :=
    Format.Field.base_of_isPlain (isPlain_placeholderField h)
  rw [Format.Field.key?, hbase, h.2, String.ofList_toList]
  rfl

theorem mem_paramNames {parts : List Segment} {name : String} :
    name ∈ paramNames parts ↔ .param name ∈ parts := by
  rw [paramNames, List.mem_filterMap]
  constructor
  · rintro ⟨part, hpart, heq⟩
    cases part with
    | lit text => cases heq
    | param k =>
      obtain rfl := Option.some.inj heq
      exact hpart
  · intro h
    exact ⟨_, h, rfl⟩

theorem simpleName_of_mem {parts : List Segment} (h : PlainSegments python parts) {name : String}
    (hname : name ∈ paramNames parts) : SimpleName python name :=
  h.segment _ (mem_paramNames.mp hname)

/-- Both grammars agree on a template of whole segments. -/
theorem simpleTemplate_templateOf {parts : List Segment} (h : PlainSegments python parts)
    (hnodup : (paramNames parts).Nodup) : SimpleTemplate python (templateOf parts) := by
  refine ⟨malformed_not_mem_templateOf h, ?_, ?_, ?_⟩
  · intro f hf
    rw [topFields_templateOf h, List.mem_map] at hf
    obtain ⟨name, hname, rfl⟩ := hf
    exact isPlain_placeholderField (simpleName_of_mem h hname)
  · rw [topFields_templateOf h, placeholders_templateOf h, List.map_map]
    apply List.map_congr_left
    intro name hname
    exact key?_placeholderField (simpleName_of_mem h hname)
  · rw [placeholders_templateOf h]
    exact hnodup

/-- What a segment becomes in the path. -/
def pathSegment (arguments : Dict String Value) : Segment → String
  | .lit text => text
  | .param name => ((pathText arguments name).map Percent.quote).getD ""

theorem pathSegment_param {arguments : Dict String Value} {name text : String}
    (h : pathText arguments name = some text) :
    pathSegment arguments (.param name) = Percent.quote text := by
  rw [pathSegment, h]
  rfl

theorem toList_segmentTokens (arguments : Dict String Value) (part : Segment) :
    (segmentTokens part).flatMap
        (fun token => (Format.tokenText (encodedText arguments) token).toList) =
      (pathSegment arguments part).toList := by
  cases part with
  | lit text =>
    rw [segmentTokens, List.flatMap_map]
    show text.toList.flatMap (fun c => (String.singleton c).toList) = text.toList
    simp
  | param name =>
    rw [segmentTokens, List.flatMap_singleton]
    show (encodedText arguments (placeholderField name)).toList = _
    rw [encodedText, placeholderField, String.ofList_toList]
    rfl

/-- The formatted path has the segments of the template, with the encoded arguments in the place of
the placeholders. -/
theorem join_tokens_templateOf {parts : List Segment} (h : PlainSegments python parts)
    (arguments : Dict String Value) :
    String.join ((tokens (templateOf parts).toList).map
        (Format.tokenText (encodedText arguments))) =
      Router.join (parts.map (pathSegment arguments)) := by
  obtain ⟨part, rest, rfl⟩ := List.exists_cons_of_ne_nil h.ne_nil
  have hslash : (Format.tokenText (encodedText arguments) (.lit '/')).toList = ['/'] :=
    String.toList_singleton '/'
  have hrest : (rest.flatMap fun p => Token.lit '/' :: segmentTokens p).flatMap
      (fun token => (Format.tokenText (encodedText arguments) token).toList) =
        rest.flatMap fun p => '/' :: (pathSegment arguments p).toList := by
    clear h
    induction rest with
    | nil => rfl
    | cons p rest ih =>
      rw [List.flatMap_cons, List.flatMap_append, ih, List.flatMap_cons, List.flatMap_cons,
        toList_segmentTokens, hslash]
      rfl
  rw [← String.toList_inj, String.toList_join, List.flatMap_map, tokens_templateOf h.segment,
    List.flatMap_append, hrest, toList_segmentTokens, List.map_cons, Router.toList_join_cons,
    List.flatMap_map]

end Novon.Decorators
