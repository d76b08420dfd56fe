import Novon.Core.NestedModels

/-!
# When a partial update keeps the schema

Overlaying a validated payload on a valid record gives a valid record exactly when no explicitly
set field of the payload holds a nested model (`overlay_valid_iff`).  Nulls are not the reason:
they are dropped where the target's field admits none (`has_none_iff`), and any other value of the
payload's field type is one of the target's (`has_of_has`).  A nested model is dumped to a
dictionary, which no field type admits (`not_has_dict`).
-/

namespace Novon

variable {S : Type} {schemas : Schemas S}

/-! ### Field types -/

theorem mem_targetNullable_iff {target : Dict String TypeHint} {name : String} :
    name ∈ targetNullable target ↔
      ∃ hint, target.get? name = some hint ∧ (TypeHint.unwrapOptional hint).2 = true := by
  rw [targetNullable, List.mem_map]
  constructor
  · rintro ⟨f, hf, rfl⟩
    obtain ⟨hmem, hopt⟩ := List.mem_filter.mp hf
    exact ⟨f.2, Dict.get?_eq_some_iff.mpr hmem, hopt⟩
  · rintro ⟨hint, hget, hopt⟩
    exact ⟨(name, hint), List.mem_filter.mpr ⟨Dict.get?_eq_some_iff.mp hget, hopt⟩, rfl⟩

namespace Schemas

/-- The target's nullable fields are those whose type has `None` among its values. -/
theorem has_none_iff {t : TypeHint} {c : String} (ht : t.FieldOf c) :
    schemas.Has .none t ↔ (TypeHint.unwrapOptional t).2 = true := by
  cases ht with
  | plain =>
    constructor
    · intro h
      cases h
    · intro h
      cases h
  | optional => exact ⟨fun _ => rfl, fun _ => .union (by simp) .none⟩
  | noneFirst => exact ⟨fun _ => rfl, fun _ => .union (by simp) .none⟩

theorem has_cls {v : ModelValue S} {p : TypeHint} {c : String} (hp : p.FieldOf c)
    (h : schemas.Has v p) (hv : v ≠ .none) : schemas.Has v (.cls c) := by
  have hmember : ∀ m : TypeHint, m = .cls c ∨ m = .noneType → schemas.Has v m →
      schemas.Has v (.cls c) := by
    rintro m (rfl | rfl) hm
    · exact hm
    · cases hm
      exact absurd rfl hv
  cases hp with
  | plain => exact h
  | optional =>
    cases h with
    | union hm h => exact hmember _ (by simpa using hm) h
  | noneFirst =>
    cases h with
    | union hm h => exact hmember _ (by simpa [or_comm] using hm) h

theorem has_of_has_cls {v : ModelValue S} {t : TypeHint} {c : String} (ht : t.FieldOf c)
    (h : schemas.Has v (.cls c)) : schemas.Has v t := by
  cases ht with
  | plain => exact h
  | optional => exact .union (by simp) h
  | noneFirst => exact .union (by simp) h

/-- Apart from `None`, field types of the same class have the same values. -/
theorem has_of_has {v : ModelValue S} {p t : TypeHint} {c : String} (hp : p.FieldOf c)
    (ht : t.FieldOf c) (h : schemas.Has v p) (hv : v ≠ .none) : schemas.Has v t :=
  has_of_has_cls ht (has_cls hp h hv)

/-- No field type has a dictionary among its values. -/
theorem not_has_dict {entries : List (String × ModelValue S)} {t : TypeHint} {c : String}
    (ht : t.FieldOf c) : ¬ schemas.Has (.dict entries) t := by
  intro h
  have := has_cls ht h (by simp)
  cases this

end Schemas

/-! ### The update -/

theorem ModelValue.dump_of_not_model {v : ModelValue S} (h : v.isModel = false) : v.dump = v := by
  cases v with
  | model => cases h
  | _ => simp [dump]

theorem ModelValue.isNone_iff {v : ModelValue S} : v.isNone = true ↔ v = .none := by
  cases v <;> simp [isNone]

theorem Instance.get?_modelDump (p : Instance S) (name : String) :
    p.modelDump.get? name =
      if name ∈ p.fieldsSet then (p.fields.get? name).map ModelValue.dump else none :=
  ModelValue.lookup_dumpFields _ _ _

/-- An entry of the update: a field that was set, with its dumped value, and a null only where the
target admits it. -/
theorem get?_update_eq_some_iff {p : Instance S} {target : Dict String TypeHint} {name : String}
    {u : ModelValue S} :
    (partialUpdateDict ModelValue.isNone p.modelDump target).get? name = some u ↔
      (name ∈ p.fieldsSet ∧ ∃ v, p.fields.get? name = some v ∧ v.dump = u) ∧
        (u = .none → name ∈ targetNullable target) := by
  rw [get?_partialUpdateDict, Option.filter_eq_some_iff, Instance.get?_modelDump]
  have hnull : (!u.isNone || decide (name ∈ targetNullable target)) = true ↔
      (u = .none → name ∈ targetNullable target) := by
    rw [Bool.or_eq_true, decide_eq_true_iff, ← ModelValue.isNone_iff]
    cases u.isNone <;> simp
  rw [hnull]
  by_cases hset : name ∈ p.fieldsSet
  · rw [if_pos hset, Option.map_eq_some_iff, and_iff_right hset]
  · simp [hset]

variable {payload target : Dict String TypeHint} {p r : Instance S}

/-- A nested model in a field that was set reaches the record as a dictionary. -/
theorem get?_overlay_model (target : Dict String TypeHint) (r : Instance S) {name cls : String}
    {values : List (String × ModelValue S)} {fieldsSet : List String} (hset : name ∈ p.fieldsSet)
    (hget : p.fields.get? name = some (.model cls values fieldsSet)) :
    (r.modelCopy (partialUpdateDict ModelValue.isNone p.modelDump target)).fields.get? name =
      some (.dict (ModelValue.dumpFields fieldsSet values)) := by
  have hupdate : (partialUpdateDict ModelValue.isNone p.modelDump target).get? name =
      some (.dict (ModelValue.dumpFields fieldsSet values)) := by
    rw [get?_update_eq_some_iff]
    exact ⟨⟨hset, _, hget, by rw [ModelValue.dump]⟩, fun h => nomatch h⟩
  rw [Instance.modelCopy, Dict.get?_merge, hupdate, Option.some_or]

/-- The update has no fields but those of the target. -/
theorem contains_update (hpt : Overlays payload target) (hp : schemas.Valid payload p)
    {name : String} {u : ModelValue S}
    (h : (partialUpdateDict ModelValue.isNone p.modelDump target).get? name = some u) :
    target.contains name = true := by
  obtain ⟨⟨_, v, hv, _⟩, _⟩ := get?_update_eq_some_iff.mp h
  have hdeclared : payload.contains name = true := by
    rw [← hp.keys, Dict.contains_iff]
    exact ⟨v, hv⟩
  obtain ⟨hint, hhint⟩ := Dict.contains_iff.mp hdeclared
  obtain ⟨t, _, ht, _⟩ := hpt name hint hhint
  exact Dict.contains_iff.mpr ⟨t, ht⟩

/-- An entry of the update that is no nested model is a value of the target's field type. -/
theorem has_update (hpt : Overlays payload target) (hp : schemas.Valid payload p)
    (hflat : ∀ name ∈ p.fieldsSet, ∀ v, p.fields.get? name = some v → v.isModel = false)
    {name : String} {hint : TypeHint} {u : ModelValue S} (hhint : target.get? name = some hint)
    (h : (partialUpdateDict ModelValue.isNone p.modelDump target).get? name = some u) :
    schemas.Has u hint := by
  obtain ⟨⟨hset, v, hv, hdump⟩, hnull⟩ := get?_update_eq_some_iff.mp h
  rw [ModelValue.dump_of_not_model (hflat name hset v hv)] at hdump
  subst hdump
  have hdeclared : payload.contains name = true := by
    rw [← hp.keys, Dict.contains_iff]
    exact ⟨v, hv⟩
  obtain ⟨own, hown⟩ := Dict.contains_iff.mp hdeclared
  obtain ⟨t, c, ht, hownc, htc⟩ := hpt name own hown
  cases ht.symm.trans hhint
  by_cases hnone : v = .none
  · subst hnone
    obtain ⟨hint', hhint', hopt⟩ := mem_targetNullable_iff.mp (hnull rfl)
    cases ht.symm.trans hhint'
    exact (Schemas.has_none_iff htc).mpr hopt
  · exact Schemas.has_of_has hownc htc (hp.types name own v hown hv) hnone

/-- **A partial update keeps the schema exactly when it sets no nested model.** -/
theorem overlay_valid_iff (hpt : Overlays payload target) (hp : schemas.Valid payload p)
    (hr : schemas.Valid target r) :
    schemas.Valid target
        (r.modelCopy (partialUpdateDict ModelValue.isNone p.modelDump target)) ↔
      ∀ name ∈ p.fieldsSet, ∀ v, p.fields.get? name = some v → v.isModel = false := by
  set update := partialUpdateDict ModelValue.isNone p.modelDump target with hupdate
  constructor
  · intro hvalid name hset v hv
    cases v with
    | model cls values fieldsSet =>
      have hget := get?_overlay_model target r hset hv
      have hdeclared : payload.contains name = true := by
        rw [← hp.keys, Dict.contains_iff]
        exact ⟨_, hv⟩
      obtain ⟨own, hown⟩ := Dict.contains_iff.mp hdeclared
      obtain ⟨t, c, ht, _, htc⟩ := hpt name own hown
      exact absurd (hvalid.types name t _ ht hget) (Schemas.not_has_dict htc)
    | _ => rfl
  · intro hflat
    refine ⟨fun name => ?_, fun name hint v hhint hv => ?_⟩
    · rw [Instance.modelCopy, Dict.contains, Dict.get?_merge, Option.isSome_or, ← Dict.contains,
        ← Dict.contains, hr.keys]
      cases hu : update.contains name with
      | false => rfl
      | true =>
        obtain ⟨u, hu⟩ := Dict.contains_iff.mp hu
        exact (contains_update hpt hp hu).symm
    · rw [Instance.modelCopy, Dict.get?_merge] at hv
      cases hu : update.get? name with
      | none =>
        rw [hu, Option.none_or] at hv
        exact hr.types name hint v hhint hv
      | some u =>
        rw [hu, Option.some_or] at hv
        cases hv
        exact has_update hpt hp hflat hhint hu

/-! ### An address and who lives there -/

/-- An instance of a class that is declared so, as a value of a field. -/
theorem Schemas.has_model {c : String} {declared : Dict String TypeHint} {i : Instance S}
    (hc : schemas.modelFields c = some declared) (h : schemas.Valid declared i) :
    schemas.Has (.model c i.fields.entries i.fieldsSet) (.cls c) :=
  .model hc (fun name => (h.keys name).symm) h.types

/-- A declaration and an instance, field by field. -/
theorem Schemas.valid_of_fields (fs : List (String × TypeHint × ModelValue S))
    {declared : Dict String TypeHint} {instance' : Instance S}
    (hdeclared : declared.entries = fs.map fun f => (f.1, f.2.1))
    (hfields : instance'.fields.entries = fs.map fun f => (f.1, f.2.2))
    (hhas : ∀ f ∈ fs, schemas.Has f.2.2 f.2.1) : schemas.Valid declared instance' := by
  have hd : ∀ name, declared.get? name = (Dict.lookup name fs).map Prod.fst := fun name => by
    rw [Dict.get?, hdeclared]
    exact Dict.lookup_map (fun _ f => f.1) fs name
  have hi : ∀ name, instance'.fields.get? name = (Dict.lookup name fs).map Prod.snd :=
    fun name => by
      rw [Dict.get?, hfields]
      exact Dict.lookup_map (fun _ f => f.2) fs name
  have hnodup : (fs.map Prod.fst).Nodup := by
    have := declared.nodup_keys
    rwa [hdeclared, List.map_map] at this
  constructor
  · intro name
    rw [Dict.contains, Dict.contains, hd, hi, Option.isSome_map, Option.isSome_map]
  · intro name hint v hhint hv
    rw [hd, Option.map_eq_some_iff] at hhint
    obtain ⟨f, hf, rfl⟩ := hhint
    rw [hi, hf] at hv
    cases hv
    exact hhas (name, f) ((Dict.lookup_eq_some_iff hnodup).mp hf)

/-- Classes for concrete runs: strings, and addresses with a city. -/
def Schemas.sample : Schemas String where
  modelFields c := if c = "Address" then some (.ofList [("city", .cls "str")]) else none
  isInstance _ c := c = "str"

namespace Schemas.sample

/-- A stored profile. -/
def stored : Dict String TypeHint :=
  .ofList [("name", .cls "str"), ("address", .cls "Address")]

/-- A request that may omit any field. -/
def request : Dict String TypeHint :=
  .ofList [("name", .union [.cls "str", .noneType]),
    ("address", .union [.cls "Address", .noneType])]

/-- An address with its city. -/
def address (city : String) : ModelValue String :=
  .model "Address" [("city", .scalar city)] ["city"]

def record : Instance String where
  fields := .ofList [("name", .scalar "Ann"), ("address", address "Rome")]
  fieldsSet := ["name", "address"]

/-- A request that changes the name. -/
def rename : Instance String where
  fields := .ofList [("name", .scalar "Bea"), ("address", .none)]
  fieldsSet := ["name"]

/-- A request that changes the address. -/
def move : Instance String where
  fields := .ofList [("name", .none), ("address", address "Oslo")]
  fieldsSet := ["address"]

theorem has_str (s : String) : sample.Has (.scalar s) (.cls "str") := .scalar rfl rfl

theorem has_address (city : String) : sample.Has (address city) (.cls "Address") := by
  have h : sample.Valid (.ofList [("city", .cls "str")])
      ⟨⟨[("city", .scalar city)], by simp⟩, ["city"]⟩ :=
    valid_of_fields [("city", .cls "str", .scalar city)] rfl rfl (by simp [has_str])
  exact has_model rfl h

theorem overlays : Overlays request stored := by
  intro name p hp
  rw [Dict.get?_eq_some_iff, request, Dict.entries_ofList (by decide)] at hp
  simp only [List.mem_cons, List.not_mem_nil, or_false, Prod.mk.injEq] at hp
  rcases hp with ⟨rfl, rfl⟩ | ⟨rfl, rfl⟩
  · exact ⟨_, "str", rfl, .optional _, .plain _⟩
  · exact ⟨_, "Address", rfl, .optional _, .plain _⟩

theorem valid_record : sample.Valid stored record :=
  valid_of_fields [("name", .cls "str", .scalar "Ann"),
    ("address", .cls "Address", address "Rome")] rfl rfl (by simp [has_str, has_address])

theorem valid_rename : sample.Valid request rename :=
  valid_of_fields [("name", .union [.cls "str", .noneType], .scalar "Bea"),
    ("address", .union [.cls "Address", .noneType], .none)] rfl rfl <| by
      simp only [List.mem_cons, List.not_mem_nil, or_false, forall_eq_or_imp, forall_eq]
      exact ⟨.union (List.mem_cons_self ..) (has_str _), .union (by simp) .none⟩

theorem valid_move : sample.Valid request move :=
  valid_of_fields [("name", .union [.cls "str", .noneType], .none),
    ("address", .union [.cls "Address", .noneType], address "Oslo")] rfl rfl <| by
      simp only [List.mem_cons, List.not_mem_nil, or_false, forall_eq_or_imp, forall_eq]
      exact ⟨.union (by simp) .none, .union (List.mem_cons_self ..) (has_address _)⟩

end Schemas.sample

open Schemas.sample in
/-- A changed name leaves a valid profile. -/
theorem overlay_valid_iff_rename :
    Schemas.sample.Valid stored
      (record.modelCopy (partialUpdateDict ModelValue.isNone rename.modelDump stored)) :=
  (overlay_valid_iff overlays valid_rename valid_record).mpr <| by
    intro name hset v hv
    obtain rfl : name = "name" := by simpa [rename] using hset
    obtain rfl : ModelValue.scalar "Bea" = v := Option.some.inj hv
    rfl

open Schemas.sample in
/-- A changed address leaves a profile whose address is a dictionary. -/
theorem not_overlay_valid :
    Overlays request stored ∧ Schemas.sample.Valid request move ∧
      Schemas.sample.Valid stored record ∧
      ¬ Schemas.sample.Valid stored
        (record.modelCopy (partialUpdateDict ModelValue.isNone move.modelDump stored)) := by
  refine ⟨overlays, valid_move, valid_record, fun h => ?_⟩
  have hget : (record.modelCopy
      (partialUpdateDict ModelValue.isNone move.modelDump stored)).fields.get? "address" =
        some (.dict [("city", .scalar "Oslo")]) := rfl
  exact Schemas.not_has_dict (.plain "Address") (h.types "address" (.cls "Address") _ rfl hget)

end Novon
