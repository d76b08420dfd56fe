import Mathlib.Data.List.Induction

/-!
# A cache that identifies keys

`fetch` looks a key up in a cache whose keys are compared by a test `same` and inserts it when no
cached key compares equal.  What is kept of an entry is the key it was built for, which need not
be the key it is fetched with.  `fetch_fetchAll` says which key that is after any history: the
first one fetched that compares equal.
-/

namespace Novon.Cache

variable {κ : Type*} (same : κ → κ → Bool)

/-- The key of the entry that is returned for `k`, and the keys cached afterwards. -/
def fetch (k : κ) (keys : List κ) : κ × List κ :=
  match keys.find? (same k) with
  | some k₀ => (k₀, keys)
  | none => (k, keys ++ [k])

/-- The keys cached after a history of fetches. -/
def fetchAll (ks : List κ) : List κ := ks.foldl (fun keys k => (fetch same k keys).2) []

theorem fetchAll_concat (ks : List κ) (k : κ) :
    fetchAll same (ks ++ [k]) = (fetch same k (fetchAll same ks)).2 := by
  rw [fetchAll, List.foldl_append, List.foldl_cons, List.foldl_nil, ← fetchAll]

/-- The first cached key equal to `k` is the first fetched one. -/
theorem find?_fetchAll (h : Equivalence fun a b => same a b = true) (ks : List κ) (k : κ) :
    (fetchAll same ks).find? (same k) = ks.find? (same k) := by
  induction ks using List.reverseRecOn with
  | nil => rfl
  | append_singleton ks k' ih =>
    rw [fetchAll_concat, fetch]
    cases hk' : (fetchAll same ks).find? (same k') with
    | none => rw [List.find?_append, ih, List.find?_append]
    | some k₀ =>
      -- nothing is inserted, and `k'` is not the first key equal to `k` either
      rw [List.find?_append, ← ih]
      cases hk : (fetchAll same ks).find? (same k) with
      | some k₁ => rfl
      | none =>
        have hne : same k k' = false := by
          rw [Bool.eq_false_iff]
          intro hkk'
          have hk₀ : same k k₀ = true := h.trans hkk' (List.find?_some hk')
          exact List.find?_eq_none.mp hk k₀ (List.mem_of_find?_eq_some hk') hk₀
        simp [hne]

/-- After any history, the entry returned for `k` is the one built for the first fetched key that
compares equal to `k`. -/
theorem fetch_fetchAll (h : Equivalence fun a b => same a b = true) (ks : List κ) (k : κ) :
    (fetch same k (fetchAll same ks)).1 = (ks.find? (same k)).getD k := by
  rw [fetch, find?_fetchAll same h ks k]
  cases ks.find? (same k) <;> rfl

end Novon.Cache
