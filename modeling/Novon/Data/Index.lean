import Novon.Data.Dict

/-!
# Secondary indexes

A dictionary `index` from names to keys is an index of a keyed collection `d` when it finds
exactly the keys of the values of that name.  Since it is a map, the collection then has at most
one value of each name (`IsIndex.key_unique`).  The lemmas say how an index is maintained when a
value is inserted, removed or replaced.
-/

namespace Novon

variable {κ ν β : Type*} [DecidableEq κ] [DecidableEq ν]

/-- `index` finds exactly the keys of `d` whose value has the given name. -/
def IsIndex (d : Dict κ β) (name : β → ν) (index : Dict ν κ) : Prop :=
  ∀ n k, index.get? n = some k ↔ ∃ v, d.get? k = some v ∧ name v = n

namespace IsIndex

variable {d d' : Dict κ β} {name : β → ν} {index : Dict ν κ}

theorem empty (name : β → ν) : IsIndex (Dict.empty : Dict κ β) name Dict.empty := by
  simp [IsIndex]

/-- Being an index depends on the collection as a map, not on its order. -/
theorem congr (h : IsIndex d name index) (hd : ∀ k, d.get? k = d'.get? k) :
    IsIndex d' name index := by
  intro n k
  rw [h n k, hd k]

theorem get?_name (h : IsIndex d name index) {k : κ} {v : β} (hv : d.get? k = some v) :
    index.get? (name v) = some k :=
  (h _ _).mpr ⟨v, hv, rfl⟩

theorem key_unique (h : IsIndex d name index) {k k' : κ} {v v' : β} (hv : d.get? k = some v)
    (hv' : d.get? k' = some v') (hname : name v = name v') : k = k' := by
  have hk := h.get?_name hv
  rw [hname, h.get?_name hv'] at hk
  exact (Option.some.inj hk).symm

/-- No value has a name that the index does not know. -/
theorem name_ne_of_get?_eq_none (h : IsIndex d name index) {n : ν} (hn : index.get? n = none)
    {k : κ} {v : β} (hv : d.get? k = some v) : name v ≠ n := by
  rintro rfl
  rw [h.get?_name hv] at hn
  exact absurd hn (by simp)

/-- Scanning for a value of the given name is looking the name up and then the key. -/
theorem find?_values (h : IsIndex d name index) (n : ν) {p : β → Bool}
    (hp : ∀ v, p v = true ↔ name v = n) :
    d.values.find? p = (index.get? n).bind d.get? := by
  cases hn : index.get? n with
  | none =>
    rw [Option.bind_none, List.find?_eq_none]
    intro v hv hpv
    obtain ⟨k, hk⟩ := Dict.mem_values_iff.mp hv
    exact h.name_ne_of_get?_eq_none hn hk ((hp v).mp hpv)
  | some k =>
    rw [Option.bind_some]
    apply Dict.find?_values
    intro k' v hk'
    rw [hp v]
    constructor
    · rintro rfl
      exact Option.some.inj ((h.get?_name hk').symm.trans hn)
    · rintro rfl
      obtain ⟨u, hu, hname⟩ := (h n k').mp hn
      rw [hk'] at hu
      exact Option.some.inj hu ▸ hname

/-- A name is in the index when some value has it. -/
theorem contains_iff (h : IsIndex d name index) (n : ν) :
    index.contains n = true ↔ ∃ v ∈ d.values, name v = n := by
  rw [Dict.contains_iff]
  constructor
  · rintro ⟨k, hk⟩
    obtain ⟨v, hv, hname⟩ := (h n k).mp hk
    exact ⟨v, Dict.mem_values_iff.mpr ⟨k, hv⟩, hname⟩
  · rintro ⟨v, hv, rfl⟩
    obtain ⟨k, hk⟩ := Dict.mem_values_iff.mp hv
    exact ⟨k, h.get?_name hk⟩

theorem insert (h : IsIndex d name index) {k : κ} {v : β} (hk : d.get? k = none)
    (hn : index.get? (name v) = none) : IsIndex (d.set k v) name (index.set (name v) k) := by
  intro n i
  rw [Dict.get?_set, Dict.get?_set]
  by_cases hname : n = name v <;> by_cases hi : i = k
  · simp [hname, hi]
  · rw [if_pos hname, if_neg hi]
    constructor
    · intro hki
      exact absurd (Option.some.inj hki).symm hi
    · rintro ⟨u, hu, hun⟩
      -- the name was free, so no other value has it
      exact absurd (hun.trans hname) (h.name_ne_of_get?_eq_none hn hu)
  · rw [if_neg hname, if_pos hi, h n i, hi, hk]
    simp [Ne.symm hname]
  · rw [if_neg hname, if_neg hi, h n i]

theorem remove (h : IsIndex d name index) {k : κ} {v : β} (hk : d.get? k = some v) :
    IsIndex (d.pop k) name (index.pop (name v)) := by
  intro n i
  rw [Dict.get?_pop, Dict.get?_pop]
  by_cases hname : n = name v <;> by_cases hi : i = k
  · simp [hname, hi]
  · rw [if_pos hname, if_neg hi]
    constructor
    · simp
    · rintro ⟨u, hu, hun⟩
      -- the removed value was the only one of its name
      exact absurd (h.key_unique hu hk (hun.trans hname)) hi
  · rw [if_neg hname, if_pos hi, h n i, hi, hk]
    simp [Ne.symm hname]
  · rw [if_neg hname, if_neg hi, h n i]

/-- Replacing a value by one of the same name leaves the index valid. -/
theorem replace (h : IsIndex d name index) {k : κ} {u v : β} (hk : d.get? k = some u)
    (hname : name v = name u) : IsIndex (d.set k v) name index := by
  intro n i
  rw [h n i, Dict.get?_set]
  by_cases hi : i = k
  · simp [hi, hk, hname]
  · rw [if_neg hi]

/-- Replacing a value by one of another, free name: the old name goes, the new one comes. -/
theorem rename (h : IsIndex d name index) {k : κ} {u v : β} (hk : d.get? k = some u)
    (hn : index.get? (name v) = none) :
    IsIndex (d.set k v) name ((index.pop (name u)).set (name v) k) := by
  have hfree : (index.pop (name u)).get? (name v) = none := by
    rw [Dict.get?_pop, hn, ite_self]
  refine ((h.remove hk).insert (by rw [Dict.get?_pop, if_pos rfl]) hfree).congr fun i => ?_
  rw [Dict.get?_set, Dict.get?_set, Dict.get?_pop]
  by_cases hi : i = k <;> simp [hi]

end IsIndex

end Novon
