import Mathlib.Data.List.Induction
import Mathlib.Data.List.Nodup

/-!
# Insertion-ordered dictionaries

`Dict κ β` is a finite map kept as the list of its entries, in the order in which the keys were
first inserted, together with the proof that no key occurs twice.  Assigning to a key that is
present replaces the value where it stands (`set`), assigning to a new key appends, and `pop`
forgets the position.  This is the order that `AList` and `Finmap` do not keep.

`get?_set` and `get?_pop` say what the operations do as maps, `entries_set_of_contains`,
`entries_set_of_not_contains` and `entries_pop` what they do as lists.
-/

namespace Novon

/-- A finite map with its entries in insertion order. -/
structure Dict (κ : Type*) (β : Type*) where
  entries : List (κ × β)
  nodup_keys : (entries.map Prod.fst).Nodup

namespace Dict

variable {κ β γ : Type*}

@[ext] theorem ext {d e : Dict κ β} (h : d.entries = e.entries) : d = e := by
  cases d; cases e; cases h; rfl

def empty : Dict κ β := ⟨[], List.nodup_nil⟩

/-- The keys in insertion order. -/
def keys (d : Dict κ β) : List κ := d.entries.map Prod.fst

/-- The values in the insertion order of their keys. -/
def values (d : Dict κ β) : List β := d.entries.map Prod.snd

/-- The entries whose key and value pass the test, in the same order. -/
def filter (p : κ → β → Bool) (d : Dict κ β) : Dict κ β :=
  ⟨d.entries.filter fun e => p e.1 e.2, d.nodup_keys.sublist (List.filter_sublist.map _)⟩

variable [DecidableEq κ]

/-- The value of the first entry under `k`. -/
def lookup (k : κ) : List (κ × β) → Option β
  | [] => none
  | e :: es => if e.1 = k then some e.2 else lookup k es

/-- `d.get(k)`. -/
def get? (d : Dict κ β) (k : κ) : Option β := lookup k d.entries

/-- `k in d`. -/
def contains (d : Dict κ β) (k : κ) : Bool := (d.get? k).isSome

/-- `d.get(k, default)`. -/
def getD (d : Dict κ β) (k : κ) (default : β) : β := (d.get? k).getD default

/-- The entry list with the value under `k` replaced. -/
def replaceEntry (k : κ) (v : β) (es : List (κ × β)) : List (κ × β) :=
  es.map fun e => if e.1 = k then (k, v) else e

theorem map_fst_replaceEntry (k : κ) (v : β) (es : List (κ × β)) :
    (replaceEntry k v es).map Prod.fst = es.map Prod.fst := by
  rw [replaceEntry, List.map_map]
  apply List.map_congr_left
  intro e _
  by_cases h : e.1 = k <;> simp [h]

theorem lookup_eq_none_iff {k : κ} {es : List (κ × β)} :
    lookup k es = none ↔ k ∉ es.map Prod.fst := by
  induction es with
  | nil => simp [lookup]
  | cons e es ih =>
    by_cases h : e.1 = k
    · simp [lookup, h]
    · simp only [lookup, h, ↓reduceIte, ih, List.map_cons, List.mem_cons, not_or]
      exact ⟨fun hn => ⟨Ne.symm h, hn⟩, fun hn => hn.2⟩

theorem not_contains_iff {d : Dict κ β} {k : κ} :
    d.contains k = false ↔ k ∉ d.entries.map Prod.fst := by
  rw [← lookup_eq_none_iff, contains, get?, Option.isSome_eq_false_iff, Option.isNone_iff_eq_none]

/-- `d[k] = v`: replaces the value of a present key in place, appends a new key. -/
def set (d : Dict κ β) (k : κ) (v : β) : Dict κ β :=
  if h : d.contains k then
    ⟨replaceEntry k v d.entries, by rw [map_fst_replaceEntry]; exact d.nodup_keys⟩
  else
    ⟨d.entries ++ [(k, v)], by
      have hk : k ∉ d.entries.map Prod.fst := not_contains_iff.mp (by simpa using h)
      rw [List.map_append, List.nodup_append]
      refine ⟨d.nodup_keys, by simp, ?_⟩
      rintro a ha b hb rfl
      simp only [List.map_cons, List.map_nil, List.mem_singleton] at hb
      exact hk (hb ▸ ha)⟩

/-- `d.pop(k, None)`, without the value. -/
def pop (d : Dict κ β) (k : κ) : Dict κ β := d.filter fun k' _ => k' ≠ k

/-- `{k: v for k, v in es}`: later entries overwrite earlier ones. -/
def ofList (es : List (κ × β)) : Dict κ β := es.foldl (fun d e => d.set e.1 e.2) empty

/-- `{**d, **e}`. -/
def merge (d e : Dict κ β) : Dict κ β := e.entries.foldl (fun d e => d.set e.1 e.2) d

/-! ### Lookup -/

@[simp] theorem get?_empty (k : κ) : (empty : Dict κ β).get? k = none := rfl

theorem contains_iff {d : Dict κ β} {k : κ} : d.contains k = true ↔ ∃ v, d.get? k = some v := by
  rw [contains, Option.isSome_iff_exists]

theorem get?_eq_none_iff {d : Dict κ β} {k : κ} : d.get? k = none ↔ d.contains k = false := by
  rw [contains, Option.isSome_eq_false_iff, Option.isNone_iff_eq_none]

theorem mem_of_lookup {k : κ} {v : β} {es : List (κ × β)} (h : lookup k es = some v) :
    (k, v) ∈ es := by
  induction es with
  | nil => cases h
  | cons e es ih =>
    by_cases hk : e.1 = k
    · rw [lookup, if_pos hk, Option.some.injEq] at h
      rw [← hk, ← h]
      exact List.mem_cons_self
    · rw [lookup, if_neg hk] at h
      exact List.mem_cons_of_mem _ (ih h)

/-- Lookup in a list without duplicate keys is membership. -/
theorem lookup_eq_some_iff {k : κ} {v : β} {es : List (κ × β)} (h : (es.map Prod.fst).Nodup) :
    lookup k es = some v ↔ (k, v) ∈ es := by
  induction es with
  | nil => simp [lookup]
  | cons e es ih =>
    rw [List.map_cons, List.nodup_cons] at h
    by_cases hk : e.1 = k
    · subst hk
      have hnot : (e.1, v) ∉ es := fun hm =>
        h.1 (List.mem_map.mpr ⟨_, hm, rfl⟩)
      simp only [lookup, ↓reduceIte, Option.some.injEq, List.mem_cons, hnot, or_false]
      exact ⟨fun hv => by rw [← hv], fun he => by rw [← he]⟩
    · have hne : (k, v) ≠ e := fun he => hk (by rw [← he])
      simp only [lookup, hk, ↓reduceIte, ih h.2, List.mem_cons, hne, false_or]

theorem get?_eq_some_iff {d : Dict κ β} {k : κ} {v : β} :
    d.get? k = some v ↔ (k, v) ∈ d.entries :=
  lookup_eq_some_iff d.nodup_keys

/-- A stored value is found under its key. -/
theorem mem_values_iff {d : Dict κ β} {v : β} : v ∈ d.values ↔ ∃ k, d.get? k = some v := by
  simp only [values, List.mem_map, get?_eq_some_iff, Prod.exists, exists_eq_right]

theorem get?_filter (p : κ → β → Bool) (d : Dict κ β) (k : κ) :
    (d.filter p).get? k = (d.get? k).filter (p k) := by
  apply Option.ext
  intro v
  rw [get?_eq_some_iff, Option.filter_eq_some_iff, get?_eq_some_iff, filter, List.mem_filter]

theorem get?_pop (d : Dict κ β) (k k' : κ) :
    (d.pop k).get? k' = if k' = k then none else d.get? k' := by
  rw [pop, get?_filter]
  by_cases h : k' = k
  · simp [h]
  · cases hv : d.get? k' <;> simp [h]

theorem lookup_replaceEntry (k : κ) (v : β) (es : List (κ × β)) (k' : κ) :
    lookup k' (replaceEntry k v es) =
      if k' = k ∧ (lookup k es).isSome then some v else lookup k' es := by
  induction es with
  | nil => simp [replaceEntry, lookup]
  | cons e es ih =>
    rw [replaceEntry, List.map_cons, ← replaceEntry]
    by_cases he : e.1 = k <;> by_cases hk : k' = k
    · simp [lookup, he, hk]
    · simp [lookup, he, hk, Ne.symm hk, ih]
    · subst hk
      simp [lookup, he, ih]
    · simp [lookup, he, hk, ih]

theorem lookup_append (es : List (κ × β)) (k : κ) (v : β) (k' : κ) (h : lookup k es = none) :
    lookup k' (es ++ [(k, v)]) = if k' = k then some v else lookup k' es := by
  induction es with
  | nil =>
    by_cases hk : k' = k
    · simp [lookup, hk]
    · simp [lookup, hk, Ne.symm hk]
  | cons e es ih =>
    have he : e.1 ≠ k := by
      intro he
      simp [lookup, he] at h
    rw [lookup, if_neg he] at h
    by_cases hk' : e.1 = k'
    · have hne : k' ≠ k := hk' ▸ he
      simp [lookup, hk', hne]
    · rw [List.cons_append, lookup, if_neg hk', ih h, lookup, if_neg hk']

theorem lookup_map (g : κ → β → γ) (es : List (κ × β)) (k : κ) :
    lookup k (es.map fun e => (e.1, g e.1 e.2)) = (lookup k es).map (g k) := by
  induction es with
  | nil => rfl
  | cons e es ih =>
    by_cases he : e.1 = k
    · simp [lookup, he]
    · simp only [List.map_cons, lookup, he, ↓reduceIte, ih]

theorem get?_set (d : Dict κ β) (k : κ) (v : β) (k' : κ) :
    (d.set k v).get? k' = if k' = k then some v else d.get? k' := by
  unfold set
  split
  · next h =>
    simp only [get?, lookup_replaceEntry, show (lookup k d.entries).isSome from h, and_true]
  · next h =>
    have hn : lookup k d.entries = none := get?_eq_none_iff.mpr (by simpa using h)
    exact lookup_append d.entries k v k' hn

@[simp] theorem get?_set_self (d : Dict κ β) (k : κ) (v : β) : (d.set k v).get? k = some v := by
  rw [get?_set, if_pos rfl]

theorem get?_set_of_ne (d : Dict κ β) {k k' : κ} (v : β) (h : k' ≠ k) :
    (d.set k v).get? k' = d.get? k' := by
  rw [get?_set, if_neg h]

/-- What is found after a `set` is what was set, or was there before. -/
theorem get?_set_eq_some_iff {d : Dict κ β} {k k' : κ} {v v' : β} :
    (d.set k v).get? k' = some v' ↔ k' = k ∧ v' = v ∨ k' ≠ k ∧ d.get? k' = some v' := by
  rw [get?_set]
  by_cases h : k' = k
  · simp [h, eq_comm]
  · simp [h]

/-- What is found after a `pop` was there before, under another key. -/
theorem get?_pop_eq_some_iff {d : Dict κ β} {k k' : κ} {v : β} :
    (d.pop k).get? k' = some v ↔ k' ≠ k ∧ d.get? k' = some v := by
  rw [get?_pop]
  by_cases h : k' = k
  · simp [h]
  · simp [h]

theorem get?_foldl_set {es : List (κ × β)} (h : (es.map Prod.fst).Nodup) (d : Dict κ β) (k : κ) :
    (es.foldl (fun d e => d.set e.1 e.2) d).get? k = (lookup k es).or (d.get? k) := by
  induction es generalizing d with
  | nil => rfl
  | cons e es ih =>
    rw [List.map_cons, List.nodup_cons] at h
    rw [List.foldl_cons, ih h.2, get?_set, lookup]
    by_cases hk : e.1 = k
    · have hnone : lookup k es = none := lookup_eq_none_iff.mpr (hk ▸ h.1)
      simp [hk, hnone]
    · simp [hk, Ne.symm hk]

/-- In `{**d, **e}` the entries of `e` win. -/
theorem get?_merge (d e : Dict κ β) (k : κ) : (d.merge e).get? k = (e.get? k).or (d.get? k) :=
  get?_foldl_set e.nodup_keys d k

/-! ### Order -/

theorem entries_set_of_contains {d : Dict κ β} {k : κ} (v : β) (h : d.contains k = true) :
    (d.set k v).entries = replaceEntry k v d.entries := by
  simp only [set, h, ↓reduceDIte]

theorem entries_set_of_not_contains {d : Dict κ β} {k : κ} (v : β) (h : d.contains k = false) :
    (d.set k v).entries = d.entries ++ [(k, v)] := by
  simp [set, h]

/-- A list without duplicate keys is the entry list of its dictionary. -/
theorem entries_ofList {es : List (κ × β)} (h : (es.map Prod.fst).Nodup) :
    (ofList es).entries = es := by
  induction es using List.reverseRecOn with
  | nil => rfl
  | append_singleton es e ih =>
    rw [List.map_append, List.nodup_append] at h
    have hes := ih h.1
    have he : (ofList es).contains e.1 = false := by
      rw [not_contains_iff, hes]
      exact fun hm => h.2.2 e.1 hm e.1 (by simp) rfl
    rw [ofList, List.foldl_append, List.foldl_cons, List.foldl_nil, ← ofList,
      entries_set_of_not_contains e.2 he, hes]

theorem get?_ofList {es : List (κ × β)} (h : (es.map Prod.fst).Nodup) (k : κ) :
    (ofList es).get? k = lookup k es := by
  rw [get?, entries_ofList h]

theorem entries_pop (d : Dict κ β) (k : κ) :
    (d.pop k).entries = d.entries.filter fun e => e.1 ≠ k := rfl

theorem values_set_of_not_contains {d : Dict κ β} {k : κ} (v : β) (h : d.contains k = false) :
    (d.set k v).values = d.values ++ [v] := by
  rw [values, entries_set_of_not_contains v h, List.map_append]
  rfl

/-- `p` picks out the value under `k` among the values of `d`. -/
def Selects (d : Dict κ β) (k : κ) (p : β → Bool) : Prop :=
  ∀ k' v, d.get? k' = some v → (p v = true ↔ k' = k)

/-- Scanning the values for the one under `k` is looking `k` up. -/
theorem find?_values {d : Dict κ β} {k : κ} {p : β → Bool} (hp : d.Selects k p) :
    d.values.find? p = d.get? k := by
  apply Option.ext
  intro v
  constructor
  · intro h
    obtain ⟨k', hk'⟩ := mem_values_iff.mp (List.mem_of_find?_eq_some h)
    rwa [← (hp k' v hk').mp (List.find?_some h)]
  · intro h
    have hpv : p v = true := (hp k v h).mpr rfl
    cases hf : d.values.find? p with
    | none => exact absurd hpv (List.find?_eq_none.mp hf v (mem_values_iff.mpr ⟨k, h⟩))
    | some u =>
      obtain ⟨k', hk'⟩ := mem_values_iff.mp (List.mem_of_find?_eq_some hf)
      rw [(hp k' u hk').mp (List.find?_some hf), h] at hk'
      exact hk'.symm

theorem values_set_of_contains {d : Dict κ β} {k : κ} (v : β) {p : β → Bool}
    (hp : d.Selects k p) (h : d.contains k = true) :
    (d.set k v).values = d.values.map fun u => if p u then v else u := by
  rw [values, entries_set_of_contains v h, replaceEntry, values, List.map_map, List.map_map]
  apply List.map_congr_left
  intro e he
  have hpe := hp e.1 e.2 (get?_eq_some_iff.mpr he)
  by_cases hk : e.1 = k <;> simp [hpe, hk]

theorem values_pop {d : Dict κ β} {k : κ} {p : β → Bool} (hp : d.Selects k p) :
    (d.pop k).values = d.values.filter fun u => !p u := by
  rw [values, entries_pop, values, List.filter_map]
  congr 1
  apply List.filter_congr
  intro e he
  have hpe : p e.2 = decide (e.1 = k) :=
    Bool.eq_iff_iff.mpr (by simpa using hp e.1 e.2 (get?_eq_some_iff.mpr he))
  simp [hpe]

end Dict

end Novon
