import Mathlib.Data.List.Basic
import Novon.Data.Run

/-!
# Simulation with foresight

A machine may settle something at one step of which only a later step tells what it was.  To be
followed step by step by a machine that has to tell at once, what is still to be told must be known:
the relation between the two states depends on it, and for what is to be told after a step there is
something to be told before it (`exec_foresight`).  The other machine makes any number of steps for
one step of the first.
-/

namespace Novon.Run

variable {σ τ ι κ ρ π φ : Type*}

/-- A run of the other machine beside a run: the steps that it makes at each step, which may depend
on the state that the step finds. -/
structure Beside (step : ι → σ → ρ × σ) (Emits : σ → ι → List κ → Prop) (s₀ : σ) (is : List ι)
    (kss : List (List κ)) : Prop where
  length_eq : is.length = kss.length
  emits : ∀ n i ks, is[n]? = some i → kss[n]? = some ks → Emits (exec step (is.take n) s₀).2 i ks

variable {step : ι → σ → ρ × σ} {Emits : σ → ι → List κ → Prop} {s₀ : σ} {is : List ι}
  {kss : List (List κ)}

theorem Beside.concat (h : Beside step Emits s₀ is kss) {i : ι} {ks : List κ}
    (hemits : Emits (exec step is s₀).2 i ks) : Beside step Emits s₀ (is ++ [i]) (kss ++ [ks]) := by
  refine ⟨by simp [h.length_eq], fun n j ls hj hls => ?_⟩
  rcases Nat.lt_or_ge n is.length with hn | hn
  · rw [List.getElem?_append_left hn] at hj
    rw [List.getElem?_append_left (h.length_eq ▸ hn)] at hls
    rw [List.take_append_of_le_length (Nat.le_of_lt hn)]
    exact h.emits n j ls hj hls
  · obtain ⟨hlt, rfl⟩ := List.getElem?_eq_some_iff.mp hj
    obtain rfl : n = is.length := by
      rw [List.length_append, List.length_singleton] at hlt
      omega
    rw [h.length_eq, List.getElem?_concat_length] at hls
    obtain rfl := Option.some.inj hls
    rw [List.take_left, List.getElem_concat_length rfl]
    exact hemits

theorem Beside.exists_of_mem (h : Beside step Emits s₀ is kss) {ks : List κ} (hks : ks ∈ kss) :
    ∃ n i, is[n]? = some i ∧ kss[n]? = some ks ∧ Emits (exec step (is.take n) s₀).2 i ks := by
  obtain ⟨n, hn⟩ := List.getElem?_of_mem hks
  have hlt : n < is.length := by
    rw [h.length_eq]
    exact (List.getElem?_eq_some_iff.mp hn).1
  have hget : is[n]? = some is[n] := List.getElem?_eq_getElem hlt
  exact ⟨n, is[n], hget, hn, h.emits n is[n] ks hget hn⟩

/-- **Simulation with foresight.**  `Rel f s t` relates the states if `f` is what is still to be
told.  Every run has a run of the other machine beside it such that the states are related at every
cut. -/
theorem exec_foresight (step : ι → σ → ρ × σ) (step' : κ → τ → π × τ)
    (Emits : σ → ι → List κ → Prop) (Inv : σ → Prop) (Rel : φ → σ → τ → Prop) {s₀ : σ} {t₀ : τ}
    (hinit : Inv s₀) (hinv : ∀ i s, Inv s → Inv (step i s).2) (hrel : ∀ f, Rel f s₀ t₀)
    (hstep : ∀ i s f', Inv s → ∃ f ks, Emits s i ks ∧
      ∀ t, Rel f s t → Rel f' (step i s).2 (exec step' ks t).2) (is : List ι) (f : φ) :
    ∃ kss : List (List κ), Beside step Emits s₀ is kss ∧
      Rel f (exec step is s₀).2 (exec step' kss.flatten t₀).2 ∧
      ∀ n, ∃ g, Rel g (exec step (is.take n) s₀).2 (exec step' (kss.take n).flatten t₀).2 := by
  have hreach : ∀ is, Inv (exec step is s₀).2 := fun is =>
    exec_invariant step (fun _ => True) (fun _ => Inv) s₀ (fun _ _ _ => trivial) hinit
      (fun _ i s _ => hinv i s) is trivial
  induction is using List.reverseRecOn generalizing f with
  | nil => exact ⟨[], ⟨rfl, nofun⟩, hrel f, fun n => ⟨f, by simpa using hrel f⟩⟩
  | append_singleton is i ih =>
    -- what is to be told after the last step says what is to be told before it
    obtain ⟨g, ks, hemits, hkeep⟩ := hstep i (exec step is s₀).2 f (hreach is)
    obtain ⟨kss, hbeside, hend, hcuts⟩ := ih g
    have hlength := hbeside.length_eq
    have hlast : Rel f (exec step (is ++ [i]) s₀).2 (exec step' (kss ++ [ks]).flatten t₀).2 := by
      rw [exec_concat, List.flatten_append, List.flatten_singleton, exec_append]
      exact hkeep _ hend
    refine ⟨kss ++ [ks], hbeside.concat hemits, hlast, fun n => ?_⟩
    rcases Nat.lt_or_ge is.length n with hn | hn
    · refine ⟨f, ?_⟩
      have hconcat : (is ++ [i]).length ≤ n := by
        rw [List.length_append]
        exact hn
      have hconcat' : (kss ++ [ks]).length ≤ n := by
        rw [List.length_append, ← hlength]
        exact hn
      rwa [List.take_of_length_le hconcat, List.take_of_length_le hconcat']
    · rw [List.take_append_of_le_length hn, List.take_append_of_le_length (hlength ▸ hn)]
      exact hcuts n

end Novon.Run
