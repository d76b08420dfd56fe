import Novon.Core.Annotations
import Novon.Core.Equiv.NestedModels
import Novon.Core.TypeAdapter

/-!
# When `unwrap_optional` decides nullability by meaning

What Python builds of an annotation has the values of the annotation as it is spelled
(`values_build`), and `unwrap_optional` sees of it whether `None` is one of the parts and which
other part comes first (`unwrapOptional_of_listsNone`, `unwrapOptional_of_not`).  So it unwraps an
annotation as promised when nothing in it admits `None`, or when `None` is one of the parts and the
first other part has all the other values (`unwrapped_iff`); in particular however `Model | None`
is spelled by unions (`optional_of_parts`).  `None` behind an alias or in an `Annotated` is not
seen, and of several other parts one is kept.

`_parse_response` and `partial_update_dict` inherit this (`nullability_by_meaning`).
-/

namespace Novon

open AnnotationExpr

variable {M V : Type}

/-! ### Values of unions and annotations -/

namespace Universe

variable (U : Universe V)

theorem mem_valuesOfAny {hints : List TypeHint} {v : V} :
    v ∈ U.valuesOfAny hints ↔ ∃ hint ∈ hints, v ∈ U.values hint := by
  induction hints with
  | nil => simp [valuesOfAny]
  | cons hint hints ih => rw [valuesOfAny, Set.mem_union, ih, List.exists_mem_cons_iff]

end Universe

namespace AnnotationExpr

theorem toHints_eq_map (as : List (AnnotationExpr M)) : toHints as = as.map toHint := by
  induction as with
  | nil => rfl
  | cons a as ih => rw [toHints, ih, List.map_cons]

theorem buildArgs_eq_flatMap [BEq M] (as : List (AnnotationExpr M)) :
    buildArgs as = as.flatMap fun a => a.build.members := by
  induction as with
  | nil => rfl
  | cons a as ih => rw [buildArgs, ih, List.flatMap_cons]

theorem partsOf_eq_flatMap (as : List (AnnotationExpr M)) : partsOf as = as.flatMap parts := by
  induction as with
  | nil => rfl
  | cons a as ih => rw [partsOf, ih, List.flatMap_cons]

theorem mem_values_union (U : Universe V) {args : List (AnnotationExpr M)} {v : V} :
    v ∈ U.values (union args).toHint ↔ ∃ a ∈ args, v ∈ U.values a.toHint := by
  rw [toHint, Universe.values, U.mem_valuesOfAny, toHints_eq_map]
  simp only [List.mem_map, exists_exists_and_eq_and]

/-- The values of an annotation are those of its parts. -/
theorem mem_values_iff_parts (U : Universe V) (a : AnnotationExpr M) (v : V) :
    v ∈ U.values a.toHint ↔ ∃ part ∈ a.parts, v ∈ U.values part.toHint := by
  induction a using induct with
  | hunion args ih =>
    rw [mem_values_union, parts, partsOf_eq_flatMap]
    constructor
    · rintro ⟨a, ha, hv⟩
      obtain ⟨part, hpart, hv⟩ := (ih a ha).mp hv
      exact ⟨part, List.mem_flatMap.mpr ⟨a, ha, hpart⟩, hv⟩
    · rintro ⟨part, hpart, hv⟩
      obtain ⟨a, ha, hpart⟩ := List.mem_flatMap.mp hpart
      exact ⟨a, ha, (ih a ha).mpr ⟨part, hpart, hv⟩⟩
  | _ => simp [parts]

theorem mem_values_iff_members (U : Universe V) (a : AnnotationExpr M) (v : V) :
    v ∈ U.values a.toHint ↔ ∃ m ∈ a.members, v ∈ U.values m.toHint := by
  cases a with
  | union args => rw [mem_values_union, members]
  | _ => simp [members]

theorem values_annotate (U : Universe V) (a : AnnotationExpr M) (metadata : List M) :
    U.values (a.annotate metadata).toHint = U.values a.toHint := by
  cases a <;> rfl

theorem members_annotate (a : AnnotationExpr M) (metadata : List M) :
    (a.annotate metadata).members = [a.annotate metadata] := by
  cases a <;> rfl

theorem isNoneType_annotate (a : AnnotationExpr M) (metadata : List M) :
    (a.annotate metadata).isNoneType = false := by
  cases a <;> rfl

theorem isNoneType_iff {a : AnnotationExpr M} : a.isNoneType = true ↔ a = noneType := by
  cases a <;> simp [isNoneType]

/-! ### Equality of annotations -/

section Same

variable [BEq M]

theorem eachIn_iff {as bs : List (AnnotationExpr M)} :
    eachIn as bs = true ↔ ∀ a ∈ as, ∃ b ∈ bs, a.same b = true := by
  induction as with
  | nil => simp [eachIn]
  | cons a as ih => simp [eachIn, ih]

theorem oneIs_iff {as : List (AnnotationExpr M)} {b : AnnotationExpr M} :
    oneIs as b = true ↔ ∃ a ∈ as, a.same b = true := by
  induction as with
  | nil => simp [oneIs]
  | cons a as ih => simp [oneIs, ih]

/-- Annotations that compare equal have the same values. -/
theorem values_eq_of_same (U : Universe V) {a b : AnnotationExpr M} (h : a.same b = true) :
    U.values a.toHint = U.values b.toHint := by
  induction a using induct generalizing b with
  | hcls name => cases b <;> simp_all [same]
  | hnone => cases b <;> simp_all [same]
  | hany => cases b <;> simp_all [same]
  | hunion args ih =>
    cases b with
    | union args' =>
      rw [same, Bool.and_eq_true, eachIn_iff, List.all_eq_true] at h
      ext v
      rw [mem_values_union, mem_values_union]
      constructor
      · rintro ⟨a, ha, hv⟩
        obtain ⟨b, hb, hab⟩ := h.1 a ha
        exact ⟨b, hb, ih a ha hab ▸ hv⟩
      · rintro ⟨b, hb, hv⟩
        obtain ⟨a, ha, hab⟩ := oneIs_iff.mp (h.2 b hb)
        exact ⟨a, ha, (ih a ha hab).symm ▸ hv⟩
    | _ => simp [same] at h
  | hlist item ih =>
    cases b with
    | listOf item' =>
      rw [same] at h
      rw [toHint, toHint, Universe.values, Universe.values, ih h]
    | _ => simp [same] at h
  | hannotated inner metadata ih =>
    cases b with
    | annotated inner' metadata' =>
      rw [same, Bool.and_eq_true] at h
      show U.values inner.toHint = U.values inner'.toHint
      exact ih h.1
    | _ => simp [same] at h
  | halias name target ih =>
    cases b with
    | typeAlias name' target' =>
      rw [same, Bool.and_eq_true] at h
      show U.values target.toHint = U.values target'.toHint
      exact ih h.2
    | _ => simp [same] at h

theorem isNoneType_eq_of_same {a b : AnnotationExpr M} (h : a.same b = true) :
    a.isNoneType = b.isNoneType := by
  cases a <;> cases b <;> simp_all [same, isNoneType]

end Same

/-! ### What Python builds -/

section Build

variable [BEq M]

theorem mem_values_unionOf (U : Universe V) (args : List (AnnotationExpr M)) (v : V) :
    v ∈ U.values (unionOf args).toHint ↔ ∃ a ∈ args, v ∈ U.values a.toHint := by
  have hdups : (∃ a ∈ args.eraseDupsBy same, v ∈ U.values a.toHint) ↔
      ∃ a ∈ args, v ∈ U.values a.toHint :=
    EraseDups.exists_mem_eraseDupsBy fun a b hab => by rw [values_eq_of_same U hab]
  rw [← hdups, unionOf]
  split
  case h_1 a h => simp [h]
  case h_2 => exact mem_values_union U

/-- Building an annotation does not change its values. -/
theorem values_build (U : Universe V) (a : AnnotationExpr M) :
    U.values a.build.toHint = U.values a.toHint := by
  induction a using induct with
  | hcls name => rfl
  | hnone => rfl
  | hany => rfl
  | hunion args ih =>
    ext v
    rw [build, mem_values_unionOf, buildArgs_eq_flatMap, mem_values_union]
    constructor
    · rintro ⟨m, hm, hv⟩
      obtain ⟨a, ha, hm⟩ := List.mem_flatMap.mp hm
      exact ⟨a, ha, ih a ha ▸ (mem_values_iff_members U a.build v).mpr ⟨m, hm, hv⟩⟩
    · rintro ⟨a, ha, hv⟩
      rw [← ih a ha, mem_values_iff_members U a.build v] at hv
      obtain ⟨m, hm, hv⟩ := hv
      exact ⟨m, List.mem_flatMap.mpr ⟨a, ha, hm⟩, hv⟩
  | hlist item ih =>
    show U.values (.listOf item.build.toHint) = U.values (.listOf item.toHint)
    rw [Universe.values, Universe.values, ih]
  | hannotated inner metadata ih =>
    show U.values (annotate inner.build metadata).toHint = U.values inner.toHint
    rw [values_annotate, ih]
  | halias name target ih => exact ih

/-- `Union[None, int | None]` is built as `None | int`. -/
example : (union [noneType, union [cls "int", noneType]] : AnnotationExpr Unit).build =
    union [noneType, cls "int"] := rfl

theorem members_unionOf {args : List (AnnotationExpr M)} (h : ∀ a ∈ args, a.members = [a]) :
    (unionOf args).members = args.eraseDupsBy same := by
  unfold unionOf
  split
  case h_1 a ha =>
    have hmem : a ∈ args.eraseDupsBy same := by simp [ha]
    rw [ha, h a (EraseDups.mem_of_mem_eraseDupsBy hmem)]
  case h_2 => rfl

/-- No member of a built union is a union. -/
theorem members_of_mem_members_build {a m : AnnotationExpr M} (h : m ∈ a.build.members) :
    m.members = [m] := by
  induction a using induct generalizing m with
  | hunion args ih =>
    have hflat : ∀ m ∈ buildArgs args, m.members = [m] := by
      intro m hm
      rw [buildArgs_eq_flatMap] at hm
      obtain ⟨a, ha, hm⟩ := List.mem_flatMap.mp hm
      exact ih a ha hm
    rw [build, members_unionOf hflat] at h
    exact hflat m (EraseDups.mem_of_mem_eraseDupsBy h)
  | hannotated inner metadata =>
    rw [build, members_annotate, List.mem_singleton] at h
    rw [h, members_annotate]
  | _ => simp_all [build, members]

theorem members_build_union (args : List (AnnotationExpr M)) :
    (build (union args)).members = (buildArgs args).eraseDupsBy same := by
  rw [build, members_unionOf]
  intro m hm
  rw [buildArgs_eq_flatMap] at hm
  obtain ⟨a, _, hm⟩ := List.mem_flatMap.mp hm
  exact members_of_mem_members_build hm

theorem find?_eraseDupsBy_same (f : Bool → Bool) (as : List (AnnotationExpr M)) :
    ((as.eraseDupsBy same).find? fun a => f a.isNoneType) = as.find? fun a => f a.isNoneType :=
  EraseDups.find?_eraseDupsBy fun a b hab => by rw [isNoneType_eq_of_same hab]

/-- The first member that is `None`, or that is not, is built from the first such part. -/
theorem find?_members_build (f : Bool → Bool) (a : AnnotationExpr M) :
    (a.build.members.find? fun m => f m.isNoneType) =
      (a.parts.find? fun part => f part.isNoneType).map build := by
  induction a using induct with
  | hunion args ih =>
    rw [members_build_union, find?_eraseDupsBy_same, parts]
    induction args with
    | nil => rfl
    | cons a as ihas =>
      obtain ⟨ha, has⟩ := List.forall_mem_cons.mp ih
      rw [buildArgs, partsOf, List.find?_append, List.find?_append, ha, ihas has]
      cases (a.parts.find? fun part => f part.isNoneType) <;> rfl
  | hannotated inner metadata =>
    show _ = ([annotated inner metadata].find? _).map build
    rw [build, members_annotate, List.find?_singleton, List.find?_singleton, isNoneType_annotate]
    show _ = Option.map build (if f false = true then _ else _)
    split <;> rfl
  | _ =>
    simp only [build, members, parts, List.find?_singleton, isNoneType]
    split <;> rfl

theorem any_members_build (a : AnnotationExpr M) :
    a.build.members.any isNoneType = a.listsNone := by
  have hfind := congrArg Option.isSome (find?_members_build id a)
  rw [Option.isSome_map, List.isSome_find?, List.isSome_find?] at hfind
  exact hfind

theorem find?_other_members_build (a : AnnotationExpr M) :
    (a.build.members.find? fun m => !m.isNoneType) = a.firstOther.map build :=
  find?_members_build not a

/-- A union of nothing but `None` is `None`. -/
theorem unionOf_eq_noneType {args : List (AnnotationExpr M)} (hne : args ≠ [])
    (h : ∀ a ∈ args, a = noneType) : unionOf args = noneType := by
  obtain ⟨a, as, rfl⟩ := List.exists_cons_of_ne_nil hne
  obtain ⟨rfl, has⟩ := List.forall_mem_cons.mp h
  have hone : (noneType :: as).eraseDupsBy same = [(noneType : AnnotationExpr M)] := by
    apply EraseDups.eraseDupsBy_eq_singleton
    intro a ha
    rw [has a ha]
    rfl
  rw [unionOf, hone]

/-- An annotation whose only part is `None`, once or more often, is `None`. -/
theorem build_eq_noneType {a : AnnotationExpr M} (hnone : a.listsNone = true)
    (hother : a.firstOther = none) : a.build = noneType := by
  have hany := any_members_build a
  have hfind := find?_other_members_build a
  rw [hother, Option.map_none] at hfind
  rw [hnone] at hany
  cases a with
  | union args =>
    rw [members_build_union] at hany hfind
    rw [find?_eraseDupsBy_same not] at hfind
    apply unionOf_eq_noneType
    · intro hnil
      rw [hnil] at hany
      cases hany
    · intro a ha
      have := List.find?_eq_none.mp hfind a ha
      rw [← isNoneType_iff]
      simpa using this
  | noneType => rfl
  | _ => cases hnone

/-! ### `unwrap_optional` -/

omit [BEq M] in
theorem isNoneType_toHint (a : AnnotationExpr M) : a.toHint.isNoneType = a.isNoneType := by
  cases a <;> rfl

omit [BEq M] in
theorem unwrapOptional_union (args : List (AnnotationExpr M)) :
    (union args).toHint.unwrapOptional =
      if args.any isNoneType then
        (((args.find? fun a => !a.isNoneType).getD (union args)).toHint, true)
      else ((union args).toHint, false) := by
  have hany : (args.map toHint).any TypeHint.isNoneType = args.any isNoneType := by
    rw [List.any_map]
    congr
    ext a
    exact isNoneType_toHint a
  have hfind : ((args.map toHint).find? fun a => !a.isNoneType) =
      (args.find? fun a => !a.isNoneType).map toHint := by
    rw [List.find?_map]
    congr
    ext a
    exact congrArg not (isNoneType_toHint a)
  have hunion : (union args).toHint = .union (args.map toHint) := by rw [toHint, toHints_eq_map]
  rw [hunion, TypeHint.unwrapOptional, hany, hfind]
  cases (args.find? fun a => !a.isNoneType) with
  | none => rw [Option.getD_none, hunion]; rfl
  | some a => rfl

/-- The first part that is not `None` is what `unwrap_optional` keeps. -/
theorem unwrapOptional_of_listsNone {a first : AnnotationExpr M} (hnone : a.listsNone = true)
    (hfirst : a.firstOther = some first) :
    a.evaluate.unwrapOptional = (first.evaluate, true) := by
  have hany := any_members_build a
  have hfind := find?_other_members_build a
  rw [hfirst, Option.map_some] at hfind
  rw [hnone] at hany
  rw [evaluate]
  cases hb : a.build with
  | union args =>
    rw [hb, members] at hany hfind
    rw [unwrapOptional_union, if_pos hany, hfind]
    rfl
  | noneType =>
    rw [hb] at hfind
    cases hfind
  | _ =>
    rw [hb] at hany
    cases hany

/-- Without `None` and another part side by side the annotation passes through. -/
theorem unwrapOptional_of_not {a : AnnotationExpr M}
    (h : a.listsNone = false ∨ a.firstOther = none) :
    a.evaluate.unwrapOptional = (a.evaluate, false) := by
  rw [evaluate]
  cases hb : a.build with
  | union args =>
    have hnone : a.listsNone = false := by
      rcases h with h | h
      · exact h
      · rw [Bool.eq_false_iff]
        intro hnone
        have := build_eq_noneType hnone h
        rw [hb] at this
        cases this
    have hany := any_members_build a
    rw [hb, hnone, members] at hany
    rw [unwrapOptional_union, hany]
    rfl
  | _ => rfl

theorem unwrapOptional_snd_iff (a : AnnotationExpr M) :
    a.evaluate.unwrapOptional.2 = true ↔
      a.listsNone = true ∧ ∃ first, a.firstOther = some first := by
  constructor
  · intro h
    by_contra hnot
    have hor : a.listsNone = false ∨ a.firstOther = none := by
      cases hnone : a.listsNone with
      | false => exact .inl rfl
      | true =>
        cases hfirst : a.firstOther with
        | none => exact .inr rfl
        | some first => exact absurd ⟨hnone, first, hfirst⟩ hnot
    rw [unwrapOptional_of_not hor] at h
    cases h
  · rintro ⟨hnone, first, hfirst⟩
    rw [unwrapOptional_of_listsNone hnone hfirst]

end Build

end AnnotationExpr

/-! ### Annotations that are free of `None` -/

namespace Universe

variable (U : Universe V)

theorem allNoneFree_iff {args : List (AnnotationExpr M)} :
    U.AllNoneFree args ↔ ∀ a ∈ args, U.NoneFree a := by
  induction args with
  | nil => simp [AllNoneFree]
  | cons a args ih => rw [AllNoneFree, ih, List.forall_mem_cons]

theorem noneFree_iff (a : AnnotationExpr M) : U.NoneFree a ↔ U.none ∉ U.values a.toHint := by
  induction a using induct with
  | hcls name => rfl
  | hnone => simp [NoneFree, toHint, values]
  | hany => simp [NoneFree, toHint, values]
  | hunion args ih =>
    rw [NoneFree, allNoneFree_iff, mem_values_union]
    push Not
    exact forall₂_congr ih
  | hlist item ih =>
    -- `None` is no list
    simp [NoneFree, toHint, values, U.items_none]
  | hannotated inner metadata ih => exact ih
  | halias name target ih => exact ih

theorem none_mem_values_of_listsNone {a : AnnotationExpr M} (h : a.listsNone = true) :
    U.none ∈ U.values a.toHint := by
  obtain ⟨part, hpart, hnone⟩ := List.any_eq_true.mp h
  rw [isNoneType_iff] at hnone
  rw [mem_values_iff_parts]
  exact ⟨part, hpart, by rw [hnone]; rfl⟩

variable {U} in
/-- The kept part has all the values but `None`. -/
theorem Optional.values_eq {a first : AnnotationExpr M} (h : U.Optional a first) :
    U.values first.toHint = U.values a.toHint \ {U.none} := by
  have hnot : U.none ∉ U.values first.toHint := (U.noneFree_iff first).mp h.noneFree
  ext v
  rw [Set.mem_sdiff, Set.mem_singleton_iff, mem_values_iff_parts U a]
  constructor
  · intro hv
    refine ⟨⟨first, List.mem_of_find?_eq_some h.firstOther, hv⟩, ?_⟩
    rintro rfl
    exact hnot hv
  · rintro ⟨⟨part, hpart, hv⟩, hne⟩
    exact (h.covers part hpart hv).resolve_left hne

theorem optional_iff {a first : AnnotationExpr M} (hnone : a.listsNone = true)
    (hfirst : a.firstOther = some first) :
    U.Optional a first ↔ U.values first.toHint = U.values a.toHint \ {U.none} := by
  constructor
  · exact Optional.values_eq
  · intro h
    refine ⟨hnone, hfirst, ?_, ?_⟩
    · rw [noneFree_iff, h]
      simp
    · intro part hpart v hv
      by_cases hv' : v = U.none
      · exact .inl hv'
      · right
        rw [h]
        exact ⟨(mem_values_iff_parts U a v).mpr ⟨part, hpart, hv⟩, hv'⟩

/-- A union of one type and `None` lists no other values. -/
theorem optional_of_parts {a model : AnnotationExpr M} (hfree : U.NoneFree model)
    (hmodel : model ∈ a.parts) (hnone : a.listsNone = true)
    (hparts : ∀ part ∈ a.parts, part = model ∨ part = .noneType) : U.Optional a model := by
  have hother : model.isNoneType = false := by
    rw [Bool.eq_false_iff]
    intro h
    rw [isNoneType_iff.mp h, noneFree_iff] at hfree
    exact hfree rfl
  have hsome : a.firstOther.isSome = true :=
    List.find?_isSome.mpr ⟨model, hmodel, by rw [hother]; rfl⟩
  obtain ⟨first, hfirst⟩ := Option.isSome_iff_exists.mp hsome
  obtain rfl : first = model := by
    rcases hparts first (List.mem_of_find?_eq_some hfirst) with h | rfl
    · exact h
    · cases List.find?_some hfirst
  refine ⟨hnone, hfirst, hfree, fun part hpart => ?_⟩
  rcases hparts part hpart with rfl | rfl
  · exact Set.subset_insert _ _
  · exact Set.singleton_subset_iff.mpr (Set.mem_insert _ _)

variable [BEq M]

/-- `unwrap_optional` keeps its promise for the annotations that are free of `None`, and for those
that list `None` beside a part with all their other values. -/
theorem unwrapped_iff (a : AnnotationExpr M) :
    U.Unwrapped a ↔ U.NoneFree a ∨ ∃ first, U.Optional a first := by
  by_cases hflag : a.evaluate.unwrapOptional.2 = true
  · obtain ⟨hnone, first, hfirst⟩ := (unwrapOptional_snd_iff a).mp hflag
    have hmem : U.none ∈ U.values a.toHint := U.none_mem_values_of_listsNone hnone
    have hinner : U.values a.evaluate.unwrapOptional.1 = U.values first.toHint := by
      rw [unwrapOptional_of_listsNone hnone hfirst]
      exact values_build U first
    constructor
    · intro h
      exact .inr ⟨first, (U.optional_iff hnone hfirst).mpr (hinner ▸ h.inner hflag)⟩
    · rintro (hfree | ⟨first', hfirst'⟩)
      · exact absurd hmem ((U.noneFree_iff a).mp hfree)
      · obtain rfl : first' = first := Option.some.inj (hfirst'.firstOther.symm.trans hfirst)
        exact ⟨iff_of_true hflag hmem, fun _ => hinner.trans hfirst'.values_eq⟩
  · constructor
    · intro h
      rw [h.admits] at hflag
      exact .inl ((U.noneFree_iff a).mpr hflag)
    · rintro (hfree | ⟨first, hfirst⟩)
      · exact ⟨iff_of_false hflag ((U.noneFree_iff a).mp hfree), fun h => absurd h hflag⟩
      · exact absurd ((unwrapOptional_snd_iff a).mpr
          ⟨hfirst.listsNone, first, hfirst.firstOther⟩) hflag

/-- The flag tells whether `None` is a value just where the annotation is free of `None`, or lists
it beside another part. -/
theorem admits_iff (a : AnnotationExpr M) :
    (a.evaluate.unwrapOptional.2 = true ↔ U.none ∈ U.values a.toHint) ↔
      U.NoneFree a ∨ (a.listsNone = true ∧ ∃ first, a.firstOther = some first) := by
  rw [← unwrapOptional_snd_iff, noneFree_iff]
  by_cases hflag : a.evaluate.unwrapOptional.2 = true
  · have hnone := ((unwrapOptional_snd_iff a).mp hflag).1
    simp [hflag, U.none_mem_values_of_listsNone hnone]
  · simp [hflag]

end Universe

/-! ### The callers -/

section Callers

variable {J W : Type} [BEq M]

theorem BaseServiceClient.parseResponse_empty (codec : Codec J W) (statusCode : ℤ)
    (headers : Headers) (hint : TypeHint) :
    parseResponse codec ⟨statusCode, headers, []⟩ (some hint) =
      if hint.isNoneType || hint.unwrapOptional.2 then .ok .none
      else validateJson codec hint ⟨statusCode, headers, []⟩ := by
  cases hint with
  | noneType => rfl
  | _ =>
    unfold parseResponse
    simp [TypeHint.isNoneType]

/-- An empty body is not decoded exactly when `None` is one of the parts. -/
theorem AnnotationExpr.skips_iff (a : AnnotationExpr M) :
    (a.evaluate.isNoneType || a.evaluate.unwrapOptional.2) = a.listsNone := by
  cases hnone : a.listsNone with
  | false =>
    rw [unwrapOptional_of_not (.inl hnone), Bool.or_false, evaluate, isNoneType_toHint]
    have hany := any_members_build a
    cases hb : a.build with
    | noneType =>
      rw [hb, hnone] at hany
      cases hany
    | _ => rfl
  | true =>
    cases hfirst : a.firstOther with
    | none => rw [evaluate, build_eq_noneType hnone hfirst]; rfl
    | some first => rw [unwrapOptional_of_listsNone hnone hfirst, Bool.or_true]

/-- When an empty body is no JSON, two annotations treat it alike exactly when `None` is one of
the parts of both or of neither. -/
theorem BaseServiceClient.parseResponse_empty_eq_iff {codec : Codec J W} {exc : DecodeError}
    (hloads : codec.loads [] = .error exc) (statusCode : ℤ) (headers : Headers)
    (a b : AnnotationExpr M) :
    parseResponse codec ⟨statusCode, headers, []⟩ (some a.evaluate) =
        parseResponse codec ⟨statusCode, headers, []⟩ (some b.evaluate) ↔
      a.listsNone = b.listsNone := by
  have hjson : ∀ hint, validateJson codec hint ⟨statusCode, headers, []⟩ =
      .error (.other exc.cls exc.text) := by
    intro hint
    unfold validateJson
    rw [hloads]
  rw [parseResponse_empty, parseResponse_empty, skips_iff, skips_iff, hjson, hjson]
  cases a.listsNone <;> cases b.listsNone <;> simp

/-- An explicit null is kept exactly when the field's annotation lists `None` beside another
part. -/
theorem get?_partialUpdateDict_null {isNone : W → Bool} {payloadDump : Dict String W}
    {target : Dict String TypeHint} {key : String} {value : W} {a : AnnotationExpr M}
    (hnull : isNone value = true) (hget : payloadDump.get? key = some value)
    (htarget : target.get? key = some a.evaluate) :
    (partialUpdateDict isNone payloadDump target).get? key = some value ↔
      a.evaluate.unwrapOptional.2 = true := by
  have hmem : key ∈ targetNullable target ↔ a.evaluate.unwrapOptional.2 = true := by
    rw [mem_targetNullable_iff, htarget]
    simp
  rw [get?_partialUpdateDict, hget, ← hmem]
  simp [Option.filter_eq_some_iff, hnull]

end Callers

/-- When `unwrap_optional` and its callers decide by the values of an annotation: for a single
annotation, for two annotations and an empty body, and for an explicit null and the annotation of
the stored field. -/
theorem nullability_by_meaning [BEq M] (U : Universe V) :
    (∀ a : AnnotationExpr M, U.Unwrapped a ↔ U.NoneFree a ∨ ∃ first, U.Optional a first) ∧
    (∀ (J W : Type) (codec : Codec J W) (exc : DecodeError), codec.loads [] = .error exc →
      ∀ (statusCode : ℤ) (headers : Headers) (a b : AnnotationExpr M),
        BaseServiceClient.parseResponse codec ⟨statusCode, headers, []⟩ (some a.evaluate) =
            BaseServiceClient.parseResponse codec ⟨statusCode, headers, []⟩ (some b.evaluate) ↔
          a.listsNone = b.listsNone) ∧
    (∀ (W : Type) (isNone : W → Bool) (payloadDump : Dict String W)
      (target : Dict String TypeHint) (key : String) (null : W) (a : AnnotationExpr M),
        isNone null = true → payloadDump.get? key = some null →
        target.get? key = some a.evaluate →
        (((partialUpdateDict isNone payloadDump target).get? key = some null ↔
            U.none ∈ U.values a.toHint) ↔
          U.NoneFree a ∨ (a.listsNone = true ∧ ∃ first, a.firstOther = some first))) := by
  refine ⟨U.unwrapped_iff, ?_, ?_⟩
  · intro J W codec exc hloads statusCode headers a b
    exact BaseServiceClient.parseResponse_empty_eq_iff hloads statusCode headers a b
  · intro W isNone payloadDump target key null a hnull hget htarget
    rw [get?_partialUpdateDict_null hnull hget htarget]
    exact U.admits_iff a

/-! ### Sample annotations -/

/-- Objects of classes, `None` and lists. -/
def Universe.sample : Universe Parsed where
  none := .none
  instances := fun name => {.ofClass name}
  items := fun v =>
    match v with
    | .list items => some items
    | _ => .none
  items_none := rfl

theorem Universe.mem_values_cls_sample {name : String} {v : Parsed} :
    v ∈ Universe.sample.values (.cls name) ↔ v = .ofClass name :=
  Iff.rfl

/-- A codec under which an empty body is no JSON. -/
def Codec.sampleJson : Codec Unit Unit where
  toTextDecoder := .sample
  loads := fun content =>
    if content.isEmpty then
      .error ⟨.jsonDecodeError, "Expecting value: line 1 column 1 (char 0)",
        jsonDecodeError_isDecodeError⟩
    else .ok ()
  validatePython := fun _ _ => some ()

namespace AnnotationExpr

/-- `Toy | None`. -/
def toyOrNone : AnnotationExpr Unit := union [cls "Toy", noneType]

/-- The name of `type MaybeToy = Toy | None`. -/
def maybeToy : AnnotationExpr Unit := typeAlias "MaybeToy" toyOrNone

/-- `int | str | None`. -/
def intOrStr : AnnotationExpr Unit := union [cls "int", cls "str", noneType]

end AnnotationExpr

/-- `Toy | None` is unwrapped as promised, an empty body is treated as under
`Union[None, Toy | None]`, and an explicit null is kept. -/
theorem nullability_by_meaning_toy :
    Universe.sample.Unwrapped toyOrNone ∧
      BaseServiceClient.parseResponse Codec.sampleJson ⟨204, [], []⟩ (some toyOrNone.evaluate) =
        BaseServiceClient.parseResponse Codec.sampleJson ⟨204, [], []⟩
          (some (union [noneType, toyOrNone]).evaluate) ∧
      ((partialUpdateDict FieldValue.isNone (.ofList [("toy", .null)])
          (.ofList [("toy", toyOrNone.evaluate)])).get? "toy" = some .null ↔
        Universe.sample.none ∈ Universe.sample.values toyOrNone.toHint) := by
  have htoy : Universe.sample.NoneFree (cls "Toy" : AnnotationExpr Unit) := by
    rw [Universe.noneFree_iff, toHint, Universe.mem_values_cls_sample]
    rintro ⟨⟩
  have hoptional : Universe.sample.Optional toyOrNone (cls "Toy") :=
    Universe.optional_of_parts _ htoy (List.mem_cons_self ..) rfl
      (by simp [toyOrNone, parts, partsOf])
  obtain ⟨hunwrapped, hparse, hupdate⟩ := nullability_by_meaning (M := Unit) Universe.sample
  exact ⟨(hunwrapped _).mpr (.inr ⟨cls "Toy", hoptional⟩),
    (hparse _ _ Codec.sampleJson _ rfl 204 [] _ _).mpr rfl,
    (hupdate _ _ _ _ "toy" FieldValue.null toyOrNone rfl rfl rfl).mpr (.inr ⟨rfl, _, rfl⟩)⟩

/-- An alias of `Toy | None` passes for a type without `None`, and `int | str | None` for
`int | None`.  Under the alias an empty body is an error, and an explicit null is dropped. -/
theorem not_nullability_by_meaning :
    (maybeToy.evaluate.unwrapOptional.2 = false ∧
      Universe.sample.none ∈ Universe.sample.values maybeToy.toHint ∧
      ¬ Universe.sample.Unwrapped maybeToy) ∧
    (intOrStr.evaluate.unwrapOptional = (.cls "int", true) ∧
      Parsed.ofClass "str" ∈ Universe.sample.values intOrStr.toHint ∧
      ¬ Universe.sample.Unwrapped intOrStr) ∧
    (Universe.sample.values maybeToy.toHint = Universe.sample.values toyOrNone.toHint ∧
      BaseServiceClient.parseResponse Codec.sampleJson ⟨204, [], []⟩ (some maybeToy.evaluate) ≠
        BaseServiceClient.parseResponse Codec.sampleJson ⟨204, [], []⟩ (some toyOrNone.evaluate)) ∧
    (partialUpdateDict FieldValue.isNone (.ofList [("toy", .null)])
      (.ofList [("toy", maybeToy.evaluate)])).get? "toy" = none := by
  have halias : Universe.sample.none ∈ Universe.sample.values maybeToy.toHint :=
    .inr (.inl rfl)
  have hstr : Parsed.ofClass "str" ∈ Universe.sample.values intOrStr.toHint :=
    (mem_values_union _).mpr ⟨cls "str", by simp, Universe.mem_values_cls_sample.mpr rfl⟩
  have hkept : intOrStr.evaluate.unwrapOptional = (.cls "int", true) := rfl
  refine ⟨⟨rfl, halias, fun h => ?_⟩, ⟨hkept, hstr, fun h => ?_⟩, ⟨rfl, fun h => ?_⟩, rfl⟩
  · cases h.admits.mpr halias
  · have hvalues := h.inner (by rw [hkept])
    have hint : Parsed.ofClass "str" ∈ Universe.sample.values (.cls "int") := by
      rw [hkept] at hvalues
      rw [hvalues]
      exact ⟨hstr, by rintro ⟨⟩⟩
    rw [Universe.mem_values_cls_sample] at hint
    simp at hint
  · cases h

end Novon
