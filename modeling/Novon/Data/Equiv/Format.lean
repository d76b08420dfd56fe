import Novon.Data.Except
import Novon.Data.Format

/-!
# What formatting a template gives

Reading is compositional at the places where the reader is between tokens: text without braces
reads as itself (`scan_text_append`) and a braced name as its field (`scan_placeholder_append`).

Formatting succeeds if and only if each token formats (`exists_formatTokens_iff`), and then gives
the texts of the tokens in order (`formatTokens_eq_ok`).  Down the two levels that a template has,
this says exactly when formatting raises nothing (`exists_formatMap_iff`): the markup is well
formed, every field names a value, and every field that does more than inserting its value renders
it.
-/

namespace Novon.Format

/-! ### Reading -/

def IsBrace (c : Char) : Prop := c = '{' ∨ c = '}'

/-- A character that does not end a field's name. -/
def IsNameChar (c : Char) : Prop := ¬IsBrace c ∧ c ≠ '[' ∧ c ≠ '!' ∧ c ≠ ':'

theorem step_text {c : Char} (h : ¬IsBrace c) : step .text c = some (some (.lit c), .text) := by
  rw [IsBrace, not_or] at h
  simp [step, h.1, h.2]

theorem step_name {c : Char} (h : IsNameChar c) (read : List Char) :
    step (.name read) c = some (none, .name (read ++ [c])) := by
  obtain ⟨hbrace, hbracket, hbang, hcolon⟩ := h
  rw [IsBrace, not_or] at hbrace
  simp [step, hbrace.1, hbrace.2, hbracket, hbang, hcolon]

/-- Text without braces is read as it stands. -/
theorem scan_text_append {l : List Char} (h : ∀ c ∈ l, ¬IsBrace c) (cs : List Char) :
    scan .text (l ++ cs) = l.map .lit ++ scan .text cs := by
  induction l with
  | nil => rfl
  | cons c l ih =>
    have hc : ¬IsBrace c := h c List.mem_cons_self
    have hl : ∀ c ∈ l, ¬IsBrace c := fun d hd => h d (List.mem_cons_of_mem _ hd)
    rw [List.cons_append, scan, step_text hc]
    show Token.lit c :: scan .text (l ++ cs) = _
    rw [ih hl]
    rfl

/-- A name is read up to its closing brace. -/
theorem scan_name_append {name : List Char} (h : ∀ c ∈ name, IsNameChar c) (read cs : List Char) :
    scan (.name read) (name ++ '}' :: cs) = .field ⟨read ++ name, none, []⟩ :: scan .text cs := by
  induction name generalizing read with
  | nil =>
    rw [List.append_nil]
    rfl
  | cons c name ih =>
    have hc : IsNameChar c := h c List.mem_cons_self
    have hname : ∀ c ∈ name, IsNameChar c := fun d hd => h d (List.mem_cons_of_mem _ hd)
    rw [List.cons_append, scan, step_name hc]
    show scan (.name (read ++ [c])) (name ++ '}' :: cs) = _
    rw [ih hname, List.append_assoc, List.singleton_append]

/-- A braced name is read as its field. -/
theorem scan_placeholder_append {name : List Char} (h : ∀ c ∈ name, IsNameChar c)
    (cs : List Char) :
    scan .text ('{' :: (name ++ '}' :: cs)) = .field ⟨name, none, []⟩ :: scan .text cs := by
  have hopen : scan .text ('{' :: (name ++ '}' :: cs)) = scan (.name []) (name ++ '}' :: cs) := rfl
  rw [hopen, scan_name_append h, List.nil_append]

/-! ### Fields -/

variable (lib : Lib)

/-- A field that inserts its value as it is. -/
def Field.IsPlain (f : Field) : Prop := f.rest = [] ∧ f.conversion = none ∧ f.spec = []

instance (f : Field) : Decidable f.IsPlain := inferInstanceAs (Decidable (_ ∧ _ ∧ _))

/-- The text of a field under a specification, if it names a value that renders so. -/
def Field.text? (vars : Dict String String) (f : Field) (spec : String) : Option String :=
  (f.key? lib).bind fun key => (vars.get? key).bind fun value =>
    (lib.select value f.rest f.conversion).bind (lib.render · spec)

/-- A field names a value of the mapping. -/
def Field.Names (vars : Dict String String) (f : Field) : Prop :=
  ∃ key, f.key? lib = some key ∧ vars.contains key = true

theorem Field.text?_of_isPlain {vars : Dict String String} {f : Field} {key value : String}
    (hf : f.IsPlain) (hkey : f.key? lib = some key) (hvalue : vars.get? key = some value) :
    f.text? lib vars "" = some value := by
  obtain ⟨hrest, hconversion, -⟩ := hf
  rw [Field.text?, hkey, Option.bind_some, hvalue, Option.bind_some, hrest, hconversion,
    lib.render_select]

/-- The errors apart, a field gives its text. -/
theorem lookup_bind_renderObj (vars : Dict String String) (f : Field) (spec text : String) :
    (f.lookup lib vars >>= (renderObj lib · spec)) = .ok text ↔
      f.text? lib vars spec = some text := by
  unfold Field.lookup Field.text?
  cases f.key? lib with
  | none => simp [bind, Except.bind]
  | some key =>
    cases hvalue : vars.get? key with
    | none => simp [hvalue, bind, Except.bind]
    | some value =>
      cases hobj : lib.select value f.rest f.conversion with
      | none => simp [hvalue, hobj, bind, Except.bind]
      | some obj =>
        cases htext : lib.render obj spec <;>
          simp [hvalue, hobj, htext, renderObj, bind, Except.bind]

/-! ### Tokens -/

/-- The field that a token is. -/
def Token.field? : Token → Option Field
  | .field f => some f
  | _ => none

/-- The fields of a template, without those in specifications. -/
def topFields (template : List Char) : List Field := (tokens template).filterMap Token.field?

theorem mem_topFields {f : Field} {template : List Char} :
    f ∈ topFields template ↔ .field f ∈ tokens template := by
  rw [topFields, List.mem_filterMap]
  constructor
  · rintro ⟨token, hmem, heq⟩
    cases token with
    | field g =>
      rw [Option.some.inj heq] at hmem
      exact hmem
    | lit c => cases heq
    | malformed => cases heq
  · intro h
    exact ⟨_, h, rfl⟩

/-- **Step lemma** of formatting: the texts so far go before the rest. -/
theorem formatTokens_cons (expand : List Char → Except FormatError String)
    (vars : Dict String String) (token : Token) (rest : List Token) (s : String) :
    formatTokens lib expand vars (token :: rest) = .ok s ↔
      ∃ text texts, formatToken lib expand vars token = .ok text ∧
        formatTokens lib expand vars rest = .ok texts ∧ s = text ++ texts := by
  rw [formatTokens, bind_eq_ok_iff]
  constructor
  · rintro ⟨text, htext, hrest⟩
    obtain ⟨texts, htexts, heq⟩ := bind_eq_ok_iff.mp hrest
    exact ⟨text, texts, htext, htexts, (Except.ok.inj heq).symm⟩
  · rintro ⟨text, texts, htext, htexts, rfl⟩
    exact ⟨text, htext, bind_eq_ok_iff.mpr ⟨texts, htexts, rfl⟩⟩

/-- Formatting succeeds if and only if each token formats. -/
theorem exists_formatTokens_iff (expand : List Char → Except FormatError String)
    (vars : Dict String String) (ts : List Token) :
    (∃ s, formatTokens lib expand vars ts = .ok s) ↔
      ∀ token ∈ ts, ∃ text, formatToken lib expand vars token = .ok text := by
  induction ts with
  | nil => simp [formatTokens]
  | cons token ts ih =>
    rw [List.forall_mem_cons, ← ih]
    simp only [formatTokens_cons]
    constructor
    · rintro ⟨s, text, texts, htext, htexts, -⟩
      exact ⟨⟨text, htext⟩, texts, htexts⟩
    · rintro ⟨⟨text, htext⟩, texts, htexts⟩
      exact ⟨text ++ texts, text, texts, htext, htexts, rfl⟩

/-- The texts of the tokens, one after the other. -/
theorem formatTokens_eq_ok {expand : List Char → Except FormatError String}
    {vars : Dict String String} {ts : List Token} {text : Token → String}
    (h : ∀ token ∈ ts, formatToken lib expand vars token = .ok (text token)) :
    formatTokens lib expand vars ts = .ok (String.join (ts.map text)) := by
  induction ts with
  | nil =>
    rw [List.map_nil, String.join_nil]
    rfl
  | cons token ts ih =>
    have hrest := ih fun t ht => h t (List.mem_cons_of_mem _ ht)
    rw [formatTokens_cons]
    exact ⟨_, _, h token List.mem_cons_self, hrest, by rw [List.map_cons, String.join_cons]⟩

/-- The text of a token with the given texts of its fields. -/
def tokenText (text : Field → String) : Token → String
  | .lit c => String.singleton c
  | .field f => text f
  | .malformed => ""

/-- What formatting gives is the template with its fields replaced. -/
theorem exists_text_of_formatMap {vars : Dict String String} {template s : String}
    (h : formatMap lib vars template = .ok s) :
    ∃ text : Field → String, s = String.join ((tokens template.toList).map (tokenText text)) := by
  have hok := (exists_formatTokens_iff lib (build lib vars 1) vars (tokens template.toList)).mp
    ⟨s, h⟩
  -- a field's text is what it formats to; formatting a field of the template never fails here
  let text : Field → String := fun f =>
    match formatToken lib (build lib vars 1) vars (.field f) with
    | .ok t => t
    | .error _ => ""
  have htext : ∀ token ∈ tokens template.toList,
      formatToken lib (build lib vars 1) vars token = .ok (tokenText text token) := by
    intro token hmem
    obtain ⟨t, ht⟩ := hok token hmem
    cases token with
    | lit c => rfl
    | malformed => cases ht
    | field f => simp only [tokenText, text, ht]
  have heq := formatTokens_eq_ok lib htext
  exact ⟨text, Except.ok.inj (h.symm.trans heq)⟩

/-- The text of a field, once its specification is expanded. -/
theorem formatToken_field (expand : List Char → Except FormatError String)
    (vars : Dict String String) (f : Field) (text : String) :
    formatToken lib expand vars (.field f) = .ok text ↔
      ∃ spec, (if '{' ∈ f.spec then expand f.spec else .ok (String.ofList f.spec)) = .ok spec ∧
        f.text? lib vars spec = some text := by
  simp only [← lookup_bind_renderObj]
  rw [formatToken]
  cases f.lookup lib vars with
  | error e => simp [bind, Except.bind]
  | ok obj =>
    by_cases hspec : '{' ∈ f.spec
    · cases expand f.spec <;> simp [hspec, bind, Except.bind]
    · simp [hspec, bind, Except.bind]

theorem Field.base_of_isPlain {f : Field} (h : f.IsPlain) : f.base = f.name := by
  have hsplit := List.takeWhile_append_dropWhile (p := fun c => c ≠ '.' && c ≠ '[') (l := f.name)
  have hrest : f.name.dropWhile (fun c => c ≠ '.' && c ≠ '[') = [] := h.1
  rw [hrest, List.append_nil] at hsplit
  exact hsplit

/-- The name of a plain field is looked up as it is. -/
theorem Field.key?_of_isPlain {f : Field} {key : String} (h : f.IsPlain)
    (hkey : f.key? lib = some key) : key = String.ofList f.name := by
  unfold Field.key? at hkey
  split at hkey
  · cases hkey
  · rw [← Option.some.inj hkey, Field.base_of_isPlain h]

/-- A plain field inserts its value. -/
theorem formatToken_of_isPlain (expand : List Char → Except FormatError String)
    {vars : Dict String String} {f : Field} {key value : String} (hf : f.IsPlain)
    (hkey : f.key? lib = some key) (hvalue : vars.get? key = some value) :
    formatToken lib expand vars (.field f) = .ok value := by
  have hspec : '{' ∉ f.spec := by simp [hf.2.2]
  rw [formatToken_field]
  refine ⟨"", ?_, Field.text?_of_isPlain lib hf hkey hvalue⟩
  rw [if_neg hspec, hf.2.2, String.ofList_nil]

/-! ### The two levels -/

/-- The text of a token in a specification, whose fields have specifications without fields. -/
def specTokenText (vars : Dict String String) : Token → String
  | .lit c => String.singleton c
  | .field g => (g.text? lib vars (String.ofList g.spec)).getD ""
  | .malformed => ""

/-- The specification of a field with the fields in it replaced. -/
def Field.specText (vars : Dict String String) (f : Field) : String :=
  if '{' ∈ f.spec then String.join ((tokens f.spec).map (specTokenText lib vars))
  else String.ofList f.spec

/-- A field can do with its value what it says. -/
def Field.Renders (vars : Dict String String) (f : Field) : Prop :=
  ∃ text, f.text? lib vars (f.specText lib vars) = some text

/-- The fields in the specification of a field. -/
def Field.nested (f : Field) : List Field := if '{' ∈ f.spec then topFields f.spec else []

/-- All replacement fields of a template. -/
def replacementFields (template : List Char) : List Field :=
  (topFields template).flatMap fun f => f :: f.nested

/-- No markup is malformed, and no specification in a specification has fields. -/
def WellFormed (template : List Char) : Prop :=
  .malformed ∉ tokens template ∧
    ∀ f ∈ topFields template, '{' ∈ f.spec →
      .malformed ∉ tokens f.spec ∧ ∀ g ∈ topFields f.spec, '{' ∉ g.spec

instance (template : List Char) : Decidable (WellFormed template) :=
  inferInstanceAs (Decidable (_ ∧ _))

/-- A field in a specification. -/
theorem formatToken_field_zero (vars : Dict String String) (g : Field) (text : String) :
    formatToken lib (build lib vars 0) vars (.field g) = .ok text ↔
      '{' ∉ g.spec ∧ g.text? lib vars (String.ofList g.spec) = some text := by
  rw [formatToken_field]
  by_cases hspec : '{' ∈ g.spec
  · simp [hspec, build]
  · simp [hspec]

theorem exists_formatToken_zero (vars : Dict String String) (token : Token) :
    (∃ text, formatToken lib (build lib vars 0) vars token = .ok text) ↔
      token ≠ .malformed ∧ ∀ g, token = .field g → '{' ∉ g.spec ∧ g.Renders lib vars := by
  cases token with
  | lit c => simp [formatToken]
  | malformed => simp [formatToken]
  | field g =>
    simp only [formatToken_field_zero, exists_and_left, ne_eq, reduceCtorEq, not_false_eq_true,
      Token.field.injEq, forall_eq', true_and]
    apply and_congr_right
    intro hspec
    rw [Field.Renders, Field.specText, if_neg hspec]

/-- A specification with fields expands if and only if it is well formed and its fields render. -/
theorem exists_build_one_iff (vars : Dict String String) (spec : List Char) :
    (∃ s, build lib vars 1 spec = .ok s) ↔
      .malformed ∉ tokens spec ∧
        ∀ g ∈ topFields spec, '{' ∉ g.spec ∧ g.Renders lib vars := by
  have hiff := exists_formatTokens_iff lib (build lib vars 0) vars (tokens spec)
  simp only [exists_formatToken_zero] at hiff
  rw [build, hiff]
  simp only [mem_topFields]
  constructor
  · intro h
    exact ⟨fun hmem => (h _ hmem).1 rfl, fun g hg => (h _ hg).2 g rfl⟩
  · rintro ⟨hmalformed, hfields⟩ token hmem
    exact ⟨fun heq => hmalformed (heq ▸ hmem), fun g heq => hfields g (heq ▸ hmem)⟩

theorem build_one_of_ok {vars : Dict String String} {spec : List Char} {s : String}
    (h : build lib vars 1 spec = .ok s) :
    s = String.join ((tokens spec).map (specTokenText lib vars)) := by
  have hok : ∃ s, build lib vars 1 spec = .ok s := ⟨s, h⟩
  rw [build] at hok h
  rw [exists_formatTokens_iff] at hok
  have htext : ∀ token ∈ tokens spec,
      formatToken lib (build lib vars 0) vars token = .ok (specTokenText lib vars token) := by
    intro token hmem
    obtain ⟨text, htext⟩ := hok token hmem
    cases token with
    | lit c => rfl
    | malformed => cases htext
    | field g =>
      have hvalue := ((formatToken_field_zero lib vars g text).mp htext).2
      rw [htext, specTokenText, hvalue, Option.getD_some]
  rw [formatTokens_eq_ok lib htext] at h
  exact (Except.ok.inj h).symm

/-- A field of the template itself. -/
theorem exists_formatToken_field_one (vars : Dict String String) (f : Field) :
    (∃ text, formatToken lib (build lib vars 1) vars (.field f) = .ok text) ↔
      ('{' ∈ f.spec → .malformed ∉ tokens f.spec ∧
        ∀ g ∈ topFields f.spec, '{' ∉ g.spec ∧ g.Renders lib vars) ∧ f.Renders lib vars := by
  simp only [formatToken_field]
  rw [Field.Renders, Field.specText]
  by_cases hspec : '{' ∈ f.spec
  · simp only [hspec, ↓reduceIte, forall_const]
    rw [← exists_build_one_iff]
    constructor
    · rintro ⟨text, spec, hbuild, htext⟩
      rw [build_one_of_ok lib hbuild] at htext
      exact ⟨⟨spec, hbuild⟩, text, htext⟩
    · rintro ⟨⟨spec, hbuild⟩, text, htext⟩
      rw [← build_one_of_ok lib hbuild] at htext
      exact ⟨text, spec, hbuild, htext⟩
  · simp [hspec]

/-- A field renders if and only if it names a value and, where it does more than inserting the
value, can do so. -/
theorem renders_iff (vars : Dict String String) (f : Field) :
    f.Renders lib vars ↔ f.Names lib vars ∧ (¬f.IsPlain → f.Renders lib vars) := by
  constructor
  · intro h
    refine ⟨?_, fun _ => h⟩
    obtain ⟨text, htext⟩ := h
    obtain ⟨key, hkey, hrest⟩ := Option.bind_eq_some_iff.mp htext
    obtain ⟨value, hvalue, -⟩ := Option.bind_eq_some_iff.mp hrest
    exact ⟨key, hkey, Dict.contains_iff.mpr ⟨value, hvalue⟩⟩
  · rintro ⟨⟨key, hkey, hcontains⟩, hrenders⟩
    by_cases hplain : f.IsPlain
    · -- only inserting the value cannot fail
      obtain ⟨value, hvalue⟩ := Dict.contains_iff.mp hcontains
      have hspec : f.specText lib vars = "" := by
        simp [Field.specText, hplain.2.2]
      exact ⟨value, by rw [hspec, Field.text?_of_isPlain lib hplain hkey hvalue]⟩
    · exact hrenders hplain

/-- **When formatting raises nothing.** -/
theorem exists_formatMap_iff (vars : Dict String String) (template : String) :
    (∃ s, formatMap lib vars template = .ok s) ↔
      WellFormed template.toList ∧ ∀ f ∈ replacementFields template.toList,
        f.Names lib vars ∧ (¬f.IsPlain → f.Renders lib vars) := by
  have hiff := exists_formatTokens_iff lib (build lib vars 1) vars (tokens template.toList)
  rw [formatMap, build, hiff]
  simp only [← renders_iff, WellFormed, replacementFields, List.mem_flatMap, List.mem_cons,
    Field.nested]
  constructor
  · intro h
    have hfield : ∀ f ∈ topFields template.toList, _ := fun f hf =>
      (exists_formatToken_field_one lib vars f).mp (h _ (mem_topFields.mp hf))
    refine ⟨⟨?_, ?_⟩, ?_⟩
    · intro hmem
      obtain ⟨text, htext⟩ := h _ hmem
      cases htext
    · intro f hf hspec
      have hnested := (hfield f hf).1 hspec
      exact ⟨hnested.1, fun g hg => (hnested.2 g hg).1⟩
    · -- a field of the template, or one in the specification of such a field
      rintro g ⟨f, hf, rfl | hg⟩
      · exact (hfield g hf).2
      · by_cases hspec : '{' ∈ f.spec
        · rw [if_pos hspec] at hg
          exact (((hfield f hf).1 hspec).2 g hg).2
        · rw [if_neg hspec] at hg
          cases hg
  · rintro ⟨⟨hmalformed, hnested⟩, hrenders⟩ token hmem
    cases token with
    | lit c => exact ⟨_, rfl⟩
    | malformed => exact absurd hmem hmalformed
    | field f =>
      have hf : f ∈ topFields template.toList := mem_topFields.mpr hmem
      rw [exists_formatToken_field_one]
      refine ⟨fun hspec => ⟨(hnested f hf hspec).1, fun g hg => ⟨(hnested f hf hspec).2 g hg, ?_⟩⟩,
        hrenders f ⟨f, hf, .inl rfl⟩⟩
      exact hrenders g ⟨f, hf, .inr (by rw [if_pos hspec]; exact hg)⟩

end Novon.Format
