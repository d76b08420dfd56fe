import Novon.Core.BaseClient
import Novon.Core.Equiv.Context

/-!
# Merged headers on the wire

The headers of a request are merged as a dictionary, whose keys are compared letter by letter, and
are sent entry by entry, where names are compared ignoring case.  The merge sends one value for each
name, the explicit one before the context's, exactly when no explicit name is a header of the
context in another spelling (`header_identity_iff`).
-/

namespace Novon.BaseServiceClient

open RequestContext (lower_contextHeaders_injective mem_contextHeaders)

/-- The values that a message with these entries carries under a name, whatever its case. -/
def values (headers : Dict String String) (name : String) : List String :=
  (headers.entries.filter fun e => lower e.1 = lower name).map Prod.snd

/-- The first of them. -/
def value (headers : Dict String String) (name : String) : Option String :=
  (values headers name).head?

/-- No name of `e` is a name of `d` in another spelling. -/
def SameSpelling (d e : Dict String String) : Prop :=
  ∀ k c, e.contains k = true → d.contains c = true → lower k = lower c → k = c

/-- No two names differ in case only. -/
def CaseDistinct (headers : Dict String String) : Prop := SameSpelling headers headers

theorem contains_iff_mem_keys {d : Dict String String} {k : String} :
    d.contains k = true ↔ k ∈ d.keys := by
  rw [← Bool.not_eq_false, Dict.not_contains_iff, not_not, Dict.keys]

instance (d e : Dict String String) : Decidable (SameSpelling d e) :=
  decidable_of_iff (∀ k ∈ e.keys, ∀ c ∈ d.keys, lower k = lower c → k = c) <| by
    simp only [SameSpelling, contains_iff_mem_keys]
    exact ⟨fun h k c hk hc => h k hk c hc, fun h k hk c hc => h k c hk hc⟩

instance (headers : Dict String String) : Decidable (CaseDistinct headers) :=
  inferInstanceAs (Decidable (SameSpelling headers headers))

variable {headers : Dict String String} {name : String}

theorem mem_values_iff {v : String} :
    v ∈ values headers name ↔ ∃ k, headers.get? k = some v ∧ lower k = lower name := by
  simp only [values, List.mem_map, List.mem_filter, decide_eq_true_iff, Dict.get?_eq_some_iff,
    Prod.exists]
  constructor
  · rintro ⟨k, _, ⟨hmem, hk⟩, rfl⟩
    exact ⟨k, hmem, hk⟩
  · rintro ⟨k, hmem, hk⟩
    exact ⟨k, v, ⟨hmem, hk⟩, rfl⟩

theorem values_eq_nil (h : ∀ k, headers.contains k = true → lower k ≠ lower name) :
    values headers name = [] := by
  rw [List.eq_nil_iff_forall_not_mem]
  intro v hv
  obtain ⟨k, hk, hlower⟩ := mem_values_iff.mp hv
  exact h k (Dict.contains_iff.mpr ⟨v, hk⟩) hlower

/-- A name that no other spelling accompanies carries its own value only. -/
theorem values_eq_singleton {k v : String} (hk : headers.get? k = some v)
    (hname : lower k = lower name)
    (honly : ∀ k', headers.contains k' = true → lower k' = lower name → k' = k) :
    values headers name = [v] := by
  have hmem : (k, v) ∈ headers.entries := Dict.get?_eq_some_iff.mp hk
  have hfilter : headers.entries.filter (fun e => lower e.1 = lower name) =
      headers.entries.filter fun e => e = (k, v) := by
    apply List.filter_congr
    intro e he
    rw [decide_eq_decide]
    have hget : headers.get? e.1 = some e.2 := Dict.get?_eq_some_iff.mpr he
    constructor
    · intro hlower
      have hek : e.1 = k := honly e.1 (Dict.contains_iff.mpr ⟨e.2, hget⟩) hlower
      rw [hek, hk] at hget
      exact Prod.ext hek (Option.some.inj hget).symm
    · rintro rfl
      exact hname
  rw [values, hfilter, List.filter_eq,
    List.count_eq_one_of_mem headers.nodup_keys.of_map hmem]
  rfl

/-- Two spellings of a name carry two values. -/
theorem eq_of_values_length {k k' : String} (hk : headers.contains k = true)
    (hk' : headers.contains k' = true) (hlower : lower k = lower k')
    (h : (values headers k').length ≤ 1) : k = k' := by
  obtain ⟨v, hv⟩ := Dict.contains_iff.mp hk
  obtain ⟨v', hv'⟩ := Dict.contains_iff.mp hk'
  have hmem : (k, v) ∈ headers.entries.filter fun e => lower e.1 = lower k' :=
    List.mem_filter.mpr ⟨Dict.get?_eq_some_iff.mp hv, by simpa using hlower⟩
  have hmem' : (k', v') ∈ headers.entries.filter fun e => lower e.1 = lower k' :=
    List.mem_filter.mpr ⟨Dict.get?_eq_some_iff.mp hv', by simp⟩
  rw [values, List.length_map] at h
  cases hes : headers.entries.filter fun e => lower e.1 = lower k' with
  | nil =>
    rw [hes] at hmem
    cases hmem
  | cons e es =>
    rw [hes, List.length_cons] at h
    obtain rfl : es = [] :=
      List.length_eq_zero_iff.mp (Nat.le_zero.mp (Nat.le_of_succ_le_succ h))
    rw [hes, List.mem_singleton] at hmem hmem'
    exact congrArg Prod.fst (hmem.trans hmem'.symm)

/-! ### Merging -/

theorem contains_merge {d e : Dict String String} {k : String} :
    (d.merge e).contains k = true ↔ e.contains k = true ∨ d.contains k = true := by
  rw [Dict.contains, Dict.get?_merge, Option.isSome_or, Bool.or_eq_true, ← Dict.contains,
    ← Dict.contains]

/-- **A merge respects the identity of names exactly when it merges no two spellings of one.** -/
theorem values_merge_iff {d e : Dict String String} (hd : CaseDistinct d) (he : CaseDistinct e) :
    (∀ name, values (d.merge e) name = ((value e name).or (value d name)).toList) ↔
      SameSpelling d e := by
  constructor
  · intro h k c hk hc hlower
    refine eq_of_values_length (contains_merge.mpr (.inl hk)) (contains_merge.mpr (.inr hc))
      hlower ?_
    rw [h c]
    exact Option.length_toList_le
  · intro h name
    by_cases hexplicit : ∃ k, e.contains k = true ∧ lower k = lower name
    · -- the explicit value stands alone
      obtain ⟨k, hk, hlower⟩ := hexplicit
      obtain ⟨v, hv⟩ := Dict.contains_iff.mp hk
      have hvalue : values e name = [v] := values_eq_singleton hv hlower fun k' hk' hlower' =>
        he k' k hk' hk (hlower'.trans hlower.symm)
      have hget : (d.merge e).get? k = some v := by rw [Dict.get?_merge, hv, Option.some_or]
      have hmerged : values (d.merge e) name = [v] := by
        refine values_eq_singleton hget hlower fun k' hk' hlower' => ?_
        rcases contains_merge.mp hk' with hk' | hk'
        · exact he k' k hk' hk (hlower'.trans hlower.symm)
        · exact (h k k' hk hk' (hlower.trans hlower'.symm)).symm
      rw [hmerged, value, hvalue]
      rfl
    · have hno : ∀ k, e.contains k = true → lower k ≠ lower name := fun k hk hlower =>
        hexplicit ⟨k, hk, hlower⟩
      rw [value, values_eq_nil hno, List.head?_nil, Option.none_or]
      by_cases hctx : ∃ c, d.contains c = true ∧ lower c = lower name
      · -- the context's value stands alone
        obtain ⟨c, hc, hlower⟩ := hctx
        obtain ⟨w, hw⟩ := Dict.contains_iff.mp hc
        have hvalue : values d name = [w] := values_eq_singleton hw hlower fun c' hc' hlower' =>
          hd c' c hc' hc (hlower'.trans hlower.symm)
        have hnone : e.get? c = none := by
          rw [Dict.get?_eq_none_iff, Bool.eq_false_iff]
          exact fun hc' => hno c hc' hlower
        have hget : (d.merge e).get? c = some w := by
          rw [Dict.get?_merge, hnone, Option.none_or, hw]
        have hmerged : values (d.merge e) name = [w] := by
          refine values_eq_singleton hget hlower fun k' hk' hlower' => ?_
          rcases contains_merge.mp hk' with hk' | hk'
          · exact absurd hlower' (hno k' hk')
          · exact hd k' c hk' hc (hlower'.trans hlower.symm)
        rw [hmerged, value, hvalue]
        rfl
      · have hnoctx : ∀ c, d.contains c = true → lower c ≠ lower name := fun c hc hlower =>
          hctx ⟨c, hc, hlower⟩
        rw [value, values_eq_nil hnoctx, List.head?_nil]
        refine values_eq_nil fun k hk => ?_
        rcases contains_merge.mp hk with hk | hk
        · exact hno k hk
        · exact hnoctx k hk

/-! ### The context's headers -/

theorem caseDistinct_toHeaders (ctx : RequestContext) : CaseDistinct ctx.toHeaders :=
  fun k k' hk hk' =>
    lower_contextHeaders_injective k (mem_contextHeaders hk) k' (mem_contextHeaders hk')

/-- **One value for each header.**  A request carries at most one value for each name, the
caller's explicit one if there is one and else the context's, exactly when no explicit name is a
header that the context sets in another spelling. -/
theorem header_identity_iff (ctx : RequestContext) (headers : Option (Dict String String))
    (h : CaseDistinct (headers.getD .empty)) :
    (∀ name, values (mergedHeaders (some ctx) headers) name =
        ((value (headers.getD .empty) name).or (value ctx.toHeaders name)).toList) ↔
      SameSpelling ctx.toHeaders (headers.getD .empty) :=
  values_merge_iff (caseDistinct_toHeaders ctx) h

/-- An explicit id in the context's spelling replaces the context's. -/
theorem header_identity_iff_replaced :
    values (mergedHeaders (some ⟨none, some "a", none, none⟩)
      (some (.ofList [("X-Request-ID", "b"), ("accept", "*/*")]))) "x-request-id" = ["b"] :=
  ((header_identity_iff ⟨none, some "a", none, none⟩
    (some (.ofList [("X-Request-ID", "b"), ("accept", "*/*")])) (by decide)).mpr
      (by decide) "x-request-id").trans (by decide)

/-- An explicit id in another spelling is sent beside the context's. -/
theorem two_request_ids :
    CaseDistinct (.ofList [("x-request-id", "b")]) ∧
      values (mergedHeaders (some ⟨none, some "a", none, none⟩)
        (some (.ofList [("x-request-id", "b")]))) "X-Request-ID" = ["a", "b"] := by
  decide

end Novon.BaseServiceClient
