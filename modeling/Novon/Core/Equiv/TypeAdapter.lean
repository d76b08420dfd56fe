import Novon.Core.TypeAdapter
import Novon.Data.Run

/-!
# When the cache of type adapters is transparent

A parse through the cache gives what a fresh adapter gives, unless the adapter returned was built
for an equal model with the members of a union in another order, and the body ties two of them for
the best match (`parses_fresh_iff`).

Equal models match every value equally well (`validate_rank_of_same`), so they differ only in
which of several best members they take (`validate_ne_iff`).  Which adapter the cache returns is
`Cache.fetch_fetchAll`.
-/

namespace Novon

/-! ### Lists of optional values -/

section MapM

variable {α β γ : Type} {xs : List α}

theorem eq_none_of_isSome_eq {a : Option β} {b : Option γ} (h : a.isSome = b.isSome)
    (ha : a = none) : b = none := by
  rw [ha, Option.isSome_none] at h
  rw [← Option.isNone_iff_eq_none, ← Option.isSome_eq_false_iff, h]

theorem map_mapM (f : α → Option β) (p : β → γ) (xs : List α) :
    (xs.mapM f).map (List.map p) = xs.mapM fun x => (f x).map p := by
  induction xs with
  | nil => rfl
  | cons x xs ih =>
    rw [List.mapM_cons, List.mapM_cons, ← ih]
    cases f x with
    | none => rfl
    | some y => cases xs.mapM f <;> rfl

theorem mapM_eq_none_iff {f : α → Option β} : xs.mapM f = none ↔ ∃ x ∈ xs, f x = none := by
  induction xs with
  | nil => simp
  | cons x xs ih =>
    rw [List.mapM_cons, List.exists_mem_cons_iff, ← ih]
    cases f x with
    | none => simp
    | some y => cases xs.mapM f <;> simp

/-- When every value is there, the lists of values determine the values. -/
theorem mapM_eq_iff {f g : α → Option β} (h : ∀ x ∈ xs, (f x).isSome = true) :
    xs.mapM f = xs.mapM g ↔ ∀ x ∈ xs, f x = g x := by
  induction xs with
  | nil => simp
  | cons x xs ih =>
    obtain ⟨hx, hxs⟩ := List.forall_mem_cons.mp h
    obtain ⟨y, hy⟩ := Option.isSome_iff_exists.mp hx
    have hall : xs.mapM f ≠ none := by
      rw [Ne, mapM_eq_none_iff]
      rintro ⟨x', hx', hn⟩
      have := hxs x' hx'
      rw [hn] at this
      cases this
    rw [List.mapM_cons, List.mapM_cons, List.forall_mem_cons, ← ih hxs, hy]
    cases hf : xs.mapM f with
    | none => exact absurd hf hall
    | some ys =>
      cases hg : g x with
      | none => simp
      | some z => cases hgs : xs.mapM g <;> simp

end MapM

/-! ### Equality of models -/

namespace ResponseModel

theorem eachIn_iff {ms ns : List ResponseModel} :
    eachIn ms ns = true ↔ ∀ m ∈ ms, ∃ n ∈ ns, m.same n = true := by
  induction ms with
  | nil => simp [eachIn]
  | cons m ms ih => simp [eachIn, ih]

theorem oneIs_iff {ms : List ResponseModel} {n : ResponseModel} :
    oneIs ms n = true ↔ ∃ m ∈ ms, m.same n = true := by
  induction ms with
  | nil => simp [oneIs]
  | cons m ms ih => simp [oneIs, ih]

theorem same_union_iff {ms ns : List ResponseModel} :
    (union ms).same (union ns) = true ↔
      (∀ m ∈ ms, ∃ n ∈ ns, m.same n = true) ∧ ∀ n ∈ ns, ∃ m ∈ ms, m.same n = true := by
  rw [same, Bool.and_eq_true, eachIn_iff, List.all_eq_true]
  simp only [oneIs_iff]

theorem same_refl (m : ResponseModel) : m.same m = true := by
  induction m using induct with
  | hcls name => simp [same]
  | hnone => rfl
  | hunion members ih =>
    rw [same_union_iff]
    exact ⟨fun m hm => ⟨m, hm, ih m hm⟩, fun m hm => ⟨m, hm, ih m hm⟩⟩
  | hlist item ih => rw [same, ih]

theorem same_symm {m n : ResponseModel} (h : m.same n = true) : n.same m = true := by
  induction m using induct generalizing n with
  | hcls name =>
    cases n with
    | cls name' => rw [same, beq_iff_eq] at h; rw [same, h, beq_self_eq_true]
    | _ => simp [same] at h
  | hnone => cases n <;> simp [same] at h ⊢
  | hunion ms ih =>
    cases n with
    | union ns =>
      rw [same_union_iff] at h ⊢
      constructor
      · intro n hn
        obtain ⟨m, hm, hmn⟩ := h.2 n hn
        exact ⟨m, hm, ih m hm hmn⟩
      · intro m hm
        obtain ⟨n, hn, hmn⟩ := h.1 m hm
        exact ⟨n, hn, ih m hm hmn⟩
    | _ => simp [same] at h
  | hlist item ih =>
    cases n with
    | listOf item' => rw [same] at h ⊢; exact ih h
    | _ => simp [same] at h

theorem same_trans {a b c : ResponseModel} (hab : a.same b = true) (hbc : b.same c = true) :
    a.same c = true := by
  induction a using induct generalizing b c with
  | hcls name =>
    cases b with
    | cls name' => rw [same, beq_iff_eq] at hab; rwa [hab]
    | _ => simp [same] at hab
  | hnone =>
    cases b with
    | noneType => exact hbc
    | _ => simp [same] at hab
  | hunion ms ih =>
    cases b with
    | union ns =>
      cases c with
      | union ps =>
        rw [same_union_iff] at hab hbc ⊢
        constructor
        · intro m hm
          obtain ⟨n, hn, hmn⟩ := hab.1 m hm
          obtain ⟨p, hp, hnp⟩ := hbc.1 n hn
          exact ⟨p, hp, ih m hm hmn hnp⟩
        · intro p hp
          obtain ⟨n, hn, hnp⟩ := hbc.2 p hp
          obtain ⟨m, hm, hmn⟩ := hab.2 n hn
          exact ⟨m, hm, ih m hm hmn hnp⟩
      | _ => simp [same] at hbc
    | _ => simp [same] at hab
  | hlist item ih =>
    cases b with
    | listOf item' =>
      cases c with
      | listOf item'' => rw [same] at hab hbc ⊢; exact ih hab hbc
      | _ => simp [same] at hbc
    | _ => simp [same] at hab

theorem same_equivalence : Equivalence fun m n : ResponseModel => m.same n = true :=
  ⟨same_refl, same_symm, same_trans⟩

end ResponseModel

/-! ### What equal models make of a value -/

namespace Matching

variable {J V Rank : Type} [LinearOrder Rank] (M : Matching J V Rank)

theorem mem_candidates {members : List ResponseModel} {value : J}
    {c : ResponseModel × Rank × V} :
    c ∈ M.candidates members value ↔ c.1 ∈ members ∧ M.validate c.1 value = some c.2 := by
  induction members with
  | nil => simp [candidates]
  | cons m ms ih =>
    rw [candidates, List.mem_append, ih, List.mem_cons, Option.mem_toList, Option.map_eq_some_iff]
    constructor
    · rintro (⟨r, hr, rfl⟩ | ⟨hc, hv⟩)
      · exact ⟨.inl rfl, hr⟩
      · exact ⟨.inr hc, hv⟩
    · rintro ⟨hc | hc, hv⟩
      · exact .inl ⟨c.2, hc ▸ hv, by rw [← hc]⟩
      · exact .inr ⟨hc, hv⟩

theorem leader_spec {members : List ResponseModel} {value : J} {c : ResponseModel × Rank × V}
    (h : M.leader members value = some c) :
    c.1 ∈ members ∧ M.validate c.1 value = some c.2 ∧
      ∀ d ∈ M.candidates members value, d.2.1 ≤ c.2.1 := by
  have hmem : c ∈ M.candidates members value := List.argmax_mem h
  obtain ⟨hc, hv⟩ := M.mem_candidates.mp hmem
  exact ⟨hc, hv, fun d hd => List.le_of_mem_argmax (f := fun c => c.2.1) hd h⟩

theorem validate_union (members : List ResponseModel) (value : J) :
    M.validate (.union members) value = (M.leader members value).map Prod.snd := by
  rw [validate, leader]

theorem validate_listOf (item : ResponseModel) (value : J) :
    M.validate (.listOf item) value = (M.items value).bind fun values =>
      (values.mapM (M.validate item)).map fun rs =>
        (M.listRank (rs.map Prod.fst), M.ofList (rs.map Prod.snd)) := by
  rw [validate]

/-- What matches in one union has a counterpart in the other that matches as well. -/
def Covers (ms ns : List ResponseModel) (value : J) : Prop :=
  ∀ c ∈ M.candidates ms value, ∃ d ∈ M.candidates ns value, d.2.1 = c.2.1

theorem leader_rank_le {ms ns : List ResponseModel} {value : J} {c d : ResponseModel × Rank × V}
    (h : M.Covers ms ns value) (hc : M.leader ms value = some c)
    (hd : M.leader ns value = some d) : c.2.1 ≤ d.2.1 := by
  obtain ⟨e, he, heq⟩ := h c (List.argmax_mem hc)
  rw [← heq]
  exact (M.leader_spec hd).2.2 e he

theorem leader_eq_none_of_covers {ms ns : List ResponseModel} {value : J}
    (h : M.Covers ms ns value) (hn : M.leader ns value = none) : M.leader ms value = none := by
  rw [leader, List.argmax_eq_none] at hn ⊢
  rw [List.eq_nil_iff_forall_not_mem]
  intro c hc
  obtain ⟨d, hd, _⟩ := h c hc
  rw [hn] at hd
  cases hd

/-- Unions that cover one another are matched equally well. -/
theorem leader_rank_eq {ms ns : List ResponseModel} {value : J} (h : M.Covers ms ns value)
    (h' : M.Covers ns ms value) :
    (M.leader ms value).map (fun c => c.2.1) = (M.leader ns value).map fun c => c.2.1 := by
  cases hc : M.leader ms value with
  | none => rw [M.leader_eq_none_of_covers h' hc, Option.map_none]
  | some c =>
    cases hd : M.leader ns value with
    | none =>
      rw [M.leader_eq_none_of_covers h hd] at hc
      cases hc
    | some d =>
      exact congrArg some (le_antisymm (M.leader_rank_le h hc hd) (M.leader_rank_le h' hd hc))

theorem covers_of_ranks {ms ns : List ResponseModel} {value : J}
    (h : ∀ m ∈ ms, ∃ n ∈ ns,
      (M.validate m value).map Prod.fst = (M.validate n value).map Prod.fst) :
    M.Covers ms ns value := by
  intro c hc
  obtain ⟨hm, hv⟩ := M.mem_candidates.mp hc
  obtain ⟨n, hn, hrank⟩ := h c.1 hm
  rw [hv, Option.map_some, eq_comm, Option.map_eq_some_iff] at hrank
  obtain ⟨r, hr, hfst⟩ := hrank
  exact ⟨(n, r), M.mem_candidates.mpr ⟨hn, hr⟩, hfst⟩

/-- Equal models match a value equally well. -/
theorem validate_rank_of_same {m n : ResponseModel} (h : m.same n = true) (value : J) :
    (M.validate m value).map Prod.fst = (M.validate n value).map Prod.fst := by
  induction m using ResponseModel.induct generalizing n value with
  | hcls name =>
    cases n with
    | cls name' => rw [ResponseModel.same, beq_iff_eq] at h; rw [h]
    | _ => simp [ResponseModel.same] at h
  | hnone =>
    cases n with
    | noneType => rfl
    | _ => simp [ResponseModel.same] at h
  | hunion ms ih =>
    cases n with
    | union ns =>
      rw [ResponseModel.same_union_iff] at h
      have hms : M.Covers ms ns value := M.covers_of_ranks fun m hm =>
        let ⟨n, hn, hmn⟩ := h.1 m hm
        ⟨n, hn, ih m hm hmn value⟩
      have hns : M.Covers ns ms value := M.covers_of_ranks fun n hn =>
        let ⟨m, hm, hmn⟩ := h.2 n hn
        ⟨m, hm, (ih m hm hmn value).symm⟩
      rw [validate_union, validate_union, Option.map_map, Option.map_map]
      exact M.leader_rank_eq hms hns
    | _ => simp [ResponseModel.same] at h
  | hlist item ih =>
    cases n with
    | listOf item' =>
      rw [ResponseModel.same] at h
      rw [validate_listOf, validate_listOf]
      cases M.items value with
      | none => rfl
      | some values =>
        have hranks := congrArg (Option.map M.listRank)
          (congrArg values.mapM (funext fun v => ih h v))
        rw [← map_mapM, ← map_mapM] at hranks
        simpa [Function.comp_def] using hranks
    | _ => simp [ResponseModel.same] at h

/-- Of two equal models, one matches if the other does. -/
theorem validate_isSome_of_same {m n : ResponseModel} (h : m.same n = true) (value : J) :
    (M.validate m value).isSome = (M.validate n value).isSome := by
  have := congrArg Option.isSome (M.validate_rank_of_same h value)
  rwa [Option.isSome_map, Option.isSome_map] at this

variable {M}

theorem contested_union_iff {ms ns : List ResponseModel} {value : J}
    {c d : ResponseModel × Rank × V} (hc : M.leader ms value = some c)
    (hd : M.leader ns value = some d) :
    M.Contested (.union ms) (.union ns) value ↔
      (c.1.same d.1 = false ∧ c.2.2 ≠ d.2.2) ∨
        (c.1.same d.1 = true ∧ M.Contested c.1 d.1 value) := by
  constructor
  · intro h
    cases h with
    | tie hc' hd' hother hne =>
      cases hc.symm.trans hc'
      cases hd.symm.trans hd'
      exact .inl ⟨hother, hne⟩
    | member hc' hd' hsame h =>
      cases hc.symm.trans hc'
      cases hd.symm.trans hd'
      exact .inr ⟨hsame, h⟩
  · rintro (⟨hother, hne⟩ | ⟨hsame, h⟩)
    · exact .tie hc hd hother hne
    · exact .member hc hd hsame h

theorem leader_of_contested {ms ns : List ResponseModel} {value : J}
    (h : M.Contested (.union ms) (.union ns) value) : ∃ c, M.leader ms value = some c := by
  cases h with
  | tie hc => exact ⟨_, hc⟩
  | member hc => exact ⟨_, hc⟩

theorem contested_listOf_iff {s t : ResponseModel} {value : J} {values : List J}
    (hvalues : M.items value = some values) :
    M.Contested (.listOf s) (.listOf t) value ↔
      (∀ v ∈ values, (M.validate s v).isSome = true) ∧ ∃ v ∈ values, M.Contested s t v := by
  constructor
  · intro h
    cases h with
    | item hvalues' hmatch hitem h =>
      cases hvalues.symm.trans hvalues'
      exact ⟨hmatch, _, hitem, h⟩
  · rintro ⟨hmatch, v, hv, h⟩
    exact .item hvalues hmatch hv h

theorem items_of_contested {s t : ResponseModel} {value : J}
    (h : M.Contested (.listOf s) (.listOf t) value) : ∃ values, M.items value = some values := by
  cases h with
  | item hvalues => exact ⟨_, hvalues⟩

variable (M)

/-- Lists of values are compared item by item, if every item matches. -/
theorem validate_listOf_ne_iff {s t : ResponseModel} {value : J} {values : List J}
    (hvalues : M.items value = some values) (hsome : ∀ v,
      (M.validate s v).isSome = (M.validate t v).isSome) :
    (M.validate (.listOf s) value).map Prod.snd ≠ (M.validate (.listOf t) value).map Prod.snd ↔
      (∀ v ∈ values, (M.validate s v).isSome = true) ∧
        ∃ v ∈ values, (M.validate s v).map Prod.snd ≠ (M.validate t v).map Prod.snd := by
  have hval : ∀ item : ResponseModel, (M.validate (.listOf item) value).map Prod.snd =
      (values.mapM fun v => (M.validate item v).map Prod.snd).map M.ofList := by
    intro item
    rw [validate_listOf, hvalues, Option.bind_some, Option.map_map, ← map_mapM, Option.map_map]
    rfl
  have hinj := Option.map_injective M.ofList_injective
  rw [hval, hval, hinj.ne_iff]
  by_cases hall : ∀ v ∈ values, (M.validate s v).isSome = true
  · rw [Ne, mapM_eq_iff fun v hv => by rw [Option.isSome_map]; exact hall v hv]
    simp only [not_forall, exists_prop]
    exact ⟨fun h => ⟨hall, h⟩, fun h => h.2⟩
  · -- an item that fails under one model fails under the other
    refine ⟨fun hne => absurd ?_ hne, fun h => absurd h.1 hall⟩
    obtain ⟨v, hv, hnone⟩ : ∃ v ∈ values, ¬ (M.validate s v).isSome = true := by
      simpa only [not_forall, exists_prop] using hall
    have hs : M.validate s v = none := Option.not_isSome_iff_eq_none.mp hnone
    have ht : M.validate t v = none := eq_none_of_isSome_eq (hsome v) hs
    rw [mapM_eq_none_iff.mpr ⟨v, hv, by rw [hs]; rfl⟩,
      mapM_eq_none_iff.mpr ⟨v, hv, by rw [ht]; rfl⟩]

/-- **The order of union members shows exactly where they are tied.** -/
theorem validate_ne_iff {m n : ResponseModel} (h : m.same n = true) (value : J) :
    (M.validate m value).map Prod.snd ≠ (M.validate n value).map Prod.snd ↔
      M.Contested m n value := by
  induction m using ResponseModel.induct generalizing n value with
  | hcls name =>
    cases n with
    | cls name' =>
      rw [ResponseModel.same, beq_iff_eq] at h
      subst h
      exact ⟨fun hne => absurd rfl hne, fun hc => nomatch hc⟩
    | _ => simp [ResponseModel.same] at h
  | hnone =>
    cases n with
    | noneType => exact ⟨fun hne => absurd rfl hne, fun hc => nomatch hc⟩
    | _ => simp [ResponseModel.same] at h
  | hunion ms ih =>
    cases n with
    | union ns =>
      have hsome := M.validate_isSome_of_same h value
      rw [validate_union, validate_union, Option.isSome_map, Option.isSome_map] at hsome
      rw [validate_union, validate_union, Option.map_map, Option.map_map]
      cases hc : M.leader ms value with
      | none =>
        rw [eq_none_of_isSome_eq hsome hc]
        refine ⟨fun hne => absurd rfl hne, fun hcon => ?_⟩
        obtain ⟨c, hc'⟩ := leader_of_contested hcon
        rw [hc] at hc'
        cases hc'
      | some c =>
        obtain ⟨d, hd⟩ : ∃ d, M.leader ns value = some d := by
          rw [← Option.isSome_iff_exists, ← hsome, hc]
          rfl
        obtain ⟨hcm, hcv, _⟩ := M.leader_spec hc
        obtain ⟨_, hdv, _⟩ := M.leader_spec hd
        rw [contested_union_iff hc hd, hd]
        show ¬ some c.2.2 = some d.2.2 ↔ _
        cases hcd : c.1.same d.1 with
        | true =>
          -- the same member leads in both orders, so any difference lies inside it
          rw [← ih c.1 hcm hcd value, hcv, hdv]
          simp
        | false => simp
    | _ => simp [ResponseModel.same] at h
  | hlist item ih =>
    cases n with
    | listOf item' =>
      rw [ResponseModel.same] at h
      cases hvalues : M.items value with
      | none =>
        refine ⟨fun hne => absurd ?_ hne, fun hcon => ?_⟩
        · rw [validate_listOf, validate_listOf, hvalues]
          rfl
        · obtain ⟨values, hv⟩ := items_of_contested hcon
          rw [hvalues] at hv
          cases hv
      | some values =>
        rw [M.validate_listOf_ne_iff hvalues (M.validate_isSome_of_same h),
          contested_listOf_iff hvalues]
        simp only [ih h]
    | _ => simp [ResponseModel.same] at h

end Matching

/-! ### Runs of the parser -/

namespace BaseServiceClient

variable {J V Rank : Type} [LinearOrder Rank] {M : Matching J V Rank} {codec : Codec J V}

/-- Apart from the two models that are not parsed at all, every call decides in the same way
whether it asks for an adapter. -/
theorem parse_shape (codec : Codec J V) (response : Response) (model : ResponseModel)
    (hmodel : model ≠ .noneType) :
    let skips := (TypeHint.unwrapOptional model.toHint).2 && response.content.isEmpty
    consulted ⟨response, some model⟩ = (if skips then none else some model) ∧
      parseResponseFresh codec ⟨response, some model⟩ =
        (if skips then .ok .none else validateJson codec model.toHint response) ∧
      ∀ adapters, parseResponseCached codec ⟨response, some model⟩ adapters =
        if skips then (.ok .none, adapters)
        else (validateJson codec (typeAdapter model adapters).1.toHint response,
          (typeAdapter model adapters).2) := by
  cases model with
  | noneType => exact absurd rfl hmodel
  | _ => exact ⟨rfl, rfl, fun _ => rfl⟩

/-- A call either does not see the cache, or validates with the adapter fetched from it. -/
theorem parse_cases (codec : Codec J V) (call : Parse) :
    (consulted call = none ∧ ∀ adapters,
      parseResponseCached codec call adapters = (parseResponseFresh codec call, adapters)) ∨
    ∃ model, consulted call = some model ∧
      parseResponseFresh codec call = validateJson codec model.toHint call.response ∧
      ∀ adapters, parseResponseCached codec call adapters =
        (validateJson codec (typeAdapter model adapters).1.toHint call.response,
          (typeAdapter model adapters).2) := by
  obtain ⟨response, _ | model⟩ := call
  · exact .inl ⟨rfl, fun _ => rfl⟩
  · by_cases hmodel : model = .noneType
    · subst hmodel
      exact .inl ⟨rfl, fun _ => rfl⟩
    · obtain ⟨hconsulted, hfresh, hcached⟩ := parse_shape codec response model hmodel
      rw [hconsulted, hfresh]
      simp only [hcached]
      split
      · exact .inl ⟨rfl, fun _ => rfl⟩
      · exact .inr ⟨model, rfl, rfl, fun _ => rfl⟩

/-- The models adapted so far are those fetched from the cache. -/
theorem adapters_eq_fetchAll (calls : List Parse) :
    (Run.exec (parseResponseCached codec) calls []).2 =
      Cache.fetchAll ResponseModel.same (calls.filterMap consulted) := by
  induction calls using List.reverseRecOn with
  | nil => rfl
  | append_singleton calls call ih =>
    rw [Run.exec_concat, List.filterMap_append, ih]
    obtain ⟨hnone, hcached⟩ | ⟨model, hsome, _, hcached⟩ := parse_cases codec call
    · rw [hcached, List.filterMap_cons_none hnone, List.filterMap_nil, List.append_nil]
    · rw [hcached, List.filterMap_cons_some hsome, List.filterMap_nil, Cache.fetchAll_concat]
      rfl

theorem validateJson_eq_iff {a b : TypeHint} {response : Response} :
    validateJson codec a response = validateJson codec b response ↔
      ∀ value, codec.loads response.content = .ok value →
        codec.validatePython a value = codec.validatePython b value := by
  rw [validateJson, validateJson]
  cases codec.loads response.content with
  | error exc => simp
  | ok value =>
    simp only [Except.ok.injEq, forall_eq']
    cases codec.validatePython a value <;> cases codec.validatePython b value <;> simp

/-- One call after others gives what a fresh adapter gives exactly when it is not disturbed. -/
theorem parse_fresh_iff (h : codec.Follows M) (earlier : List Parse) (call : Parse) :
    (parseResponseCached codec call (Run.exec (parseResponseCached codec) earlier []).2).1 =
      parseResponseFresh codec call ↔ ¬ Disturbed codec M earlier call := by
  rw [adapters_eq_fetchAll]
  obtain ⟨hnone, hcached⟩ | ⟨model, hsome, hfresh, hcached⟩ := parse_cases codec call
  · rw [hcached]
    refine ⟨fun _ => ?_, fun _ => rfl⟩
    rintro ⟨model, _, _, hsome, _⟩
    rw [hnone] at hsome
    cases hsome
  · rw [hcached, hfresh, typeAdapter,
      Cache.fetch_fetchAll ResponseModel.same ResponseModel.same_equivalence, ← firstAdapted]
    cases hfirst : firstAdapted earlier model with
    | none =>
      refine ⟨fun _ => ?_, fun _ => rfl⟩
      rintro ⟨model', first, _, hsome', hfirst', _⟩
      cases hsome.symm.trans hsome'
      rw [hfirst] at hfirst'
      cases hfirst'
    | some first =>
      have hsame : model.same first = true := List.find?_some hfirst
      rw [Option.getD_some, validateJson_eq_iff]
      simp only [h _ _]
      constructor
      · rintro heq ⟨model', first', value, hsome', hfirst', hvalue, hcon⟩
        cases hsome.symm.trans hsome'
        cases hfirst.symm.trans hfirst'
        exact (M.validate_ne_iff hsame value).mpr hcon (heq value hvalue).symm
      · intro hnot value hvalue
        by_contra hne
        exact hnot ⟨model, first, value, hsome, hfirst, hvalue,
          (M.validate_ne_iff hsame value).mp (Ne.symm hne)⟩

/-- **The cache is transparent exactly when no call is disturbed.**  Over any sequence of calls,
each gives the value or the failure that an adapter built for it gives, if and only if no call's
body ties two members of a union that an equal model adapted before lists in another order. -/
theorem parses_fresh_iff (h : codec.Follows M) (calls : List Parse) :
    (Run.exec (parseResponseCached codec) calls []).1 = calls.map (parseResponseFresh codec) ↔
      ∀ before call after, calls = before ++ call :: after → ¬ Disturbed codec M before call := by
  induction calls using List.reverseRecOn with
  | nil =>
    refine ⟨fun _ before call after heq => ?_, fun _ => rfl⟩
    exact absurd heq.symm (by simp)
  | append_singleton calls call ih =>
    rw [Run.exec_concat, List.map_append, List.map_cons, List.map_nil, Run.forall_split_concat,
      ← ih, ← parse_fresh_iff h]
    constructor
    · intro heq
      obtain ⟨hcalls, hcall⟩ := List.append_inj' heq rfl
      exact ⟨hcalls, List.head_eq_of_cons_eq hcall⟩
    · rintro ⟨hcalls, hcall⟩
      rw [hcalls, hcall]

/-- A codec for concrete runs, under which every body is an object that all classes match. -/
def sampleCodec : Codec Unit Parsed :=
  Matching.sample.codec .sample fun _ => .ok ()

/-- Parses with an equal model come out right when the members are listed in the same order. -/
theorem parses_fresh_sample :
    let calls : List Parse :=
      [⟨⟨200, [], [0x7b, 0x7d]⟩, some (.union [.cls "Cat", .cls "Dog"])⟩,
        ⟨⟨200, [], [0x7b, 0x7d]⟩, some (.union [.cls "Cat", .cls "Dog"])⟩]
    ∀ before call after, calls = before ++ call :: after →
      ¬ Disturbed sampleCodec Matching.sample before call :=
  (parses_fresh_iff (Matching.sample.codec_follows _ _) _).mp rfl

/-- A body parsed as `Dog | Cat` after one was parsed as `Cat | Dog` becomes a `Cat`. -/
theorem parse_after_reordered :
    let calls : List Parse :=
      [⟨⟨200, [], [0x7b, 0x7d]⟩, some (.union [.cls "Cat", .cls "Dog"])⟩,
        ⟨⟨200, [], [0x7b, 0x7d]⟩, some (.union [.cls "Dog", .cls "Cat"])⟩]
    (Run.exec (parseResponseCached sampleCodec) calls []).1 =
        [.ok (.value (.ofClass "Cat")), .ok (.value (.ofClass "Cat"))] ∧
      calls.map (parseResponseFresh sampleCodec) =
        [.ok (.value (.ofClass "Cat")), .ok (.value (.ofClass "Dog"))] ∧
      (Run.exec (parseResponseCached sampleCodec) calls []).1 ≠
        calls.map (parseResponseFresh sampleCodec) := by
  intro calls
  have hcached : (Run.exec (parseResponseCached sampleCodec) calls []).1 =
      [.ok (.value (.ofClass "Cat")), .ok (.value (.ofClass "Cat"))] := rfl
  have hfresh : calls.map (parseResponseFresh sampleCodec) =
      [.ok (.value (.ofClass "Cat")), .ok (.value (.ofClass "Dog"))] := rfl
  refine ⟨hcached, hfresh, ?_⟩
  rw [hcached, hfresh]
  simp

end BaseServiceClient

end Novon
