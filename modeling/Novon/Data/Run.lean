import Mathlib.Data.List.Induction

/-!
# Runs of a deterministic machine

A machine takes an input and a state to an output and a next state; `exec` feeds it a list of
inputs.  `exec_invariant` is the induction over runs, and `exec_simulation` the one over two
machines fed the same inputs.  Both let the invariant speak of the inputs consumed so far, and
both let the inputs be restricted by a condition on whole runs that is inherited by prefixes.
`trace` keeps each input with its output, for statements about what was answered to what.
`Always` says something of every step of a run; `always_of_invariant` is the rule by which one
condition on the steps gives another.
-/

namespace Novon.Run

variable {σ τ ι ρ : Type*}

/-- Feeds the inputs in order; the outputs in order and the final state. -/
def exec (step : ι → σ → ρ × σ) : List ι → σ → List ρ × σ
  | [], s => ([], s)
  | i :: is, s =>
    let r := step i s
    let rest := exec step is r.2
    (r.1 :: rest.1, rest.2)

@[simp] theorem exec_nil (step : ι → σ → ρ × σ) (s : σ) : exec step [] s = ([], s) := rfl

theorem exec_cons (step : ι → σ → ρ × σ) (i : ι) (is : List ι) (s : σ) :
    exec step (i :: is) s =
      ((step i s).1 :: (exec step is (step i s).2).1, (exec step is (step i s).2).2) := rfl

theorem exec_append (step : ι → σ → ρ × σ) (is js : List ι) (s : σ) :
    exec step (is ++ js) s =
      ((exec step is s).1 ++ (exec step js (exec step is s).2).1,
        (exec step js (exec step is s).2).2) := by
  induction is generalizing s with
  | nil => rfl
  | cons i is ih => simp only [List.cons_append, exec_cons, ih]

theorem exec_concat (step : ι → σ → ρ × σ) (is : List ι) (i : ι) (s : σ) :
    exec step (is ++ [i]) s =
      ((exec step is s).1 ++ [(step i (exec step is s).2).1],
        (step i (exec step is s).2).2) := by
  rw [exec_append, exec_cons, exec_nil]

/-- The output at a place is that of the input there, in the state that the inputs before it lead
to. -/
theorem getElem?_exec (step : ι → σ → ρ × σ) (is : List ι) (s : σ) (k : ℕ) :
    (exec step is s).1[k]? = (is[k]?).map fun i => (step i (exec step (is.take k) s).2).1 := by
  induction is generalizing s k with
  | nil => rfl
  | cons i is ih =>
    cases k with
    | zero => rfl
    | succ k =>
      have htail := ih (step i s).2 k
      rw [exec_cons, List.getElem?_cons_succ, htail, List.getElem?_cons_succ, List.take_succ_cons,
        exec_cons]

/-- **Induction over runs.**  `Inv is s` relates the inputs consumed so far to the state; `ok`
restricts the runs and holds of every prefix of a run of which it holds. -/
theorem exec_invariant (step : ι → σ → ρ × σ) (ok : List ι → Prop) (Inv : List ι → σ → Prop)
    (s₀ : σ) (hpre : ∀ is i, ok (is ++ [i]) → ok is) (hinit : Inv [] s₀)
    (hstep : ∀ is i s, ok (is ++ [i]) → Inv is s → Inv (is ++ [i]) (step i s).2) :
    ∀ is, ok is → Inv is (exec step is s₀).2 := by
  intro is
  induction is using List.reverseRecOn with
  | nil => exact fun _ => hinit
  | append_singleton is i ih =>
    intro hok
    rw [exec_concat]
    exact hstep is i _ hok (ih (hpre is i hok))

/-- **Simulation.**  Two machines whose states stay related and whose outputs agree at every step
give the same outputs on every run. -/
theorem exec_simulation (step : ι → σ → ρ × σ) (step' : ι → τ → ρ × τ) (ok : List ι → Prop)
    (Rel : List ι → σ → τ → Prop) (s₀ : σ) (t₀ : τ)
    (hpre : ∀ is i, ok (is ++ [i]) → ok is) (hinit : Rel [] s₀ t₀)
    (hstep : ∀ is i s t, ok (is ++ [i]) → Rel is s t →
      (step i s).1 = (step' i t).1 ∧ Rel (is ++ [i]) (step i s).2 (step' i t).2) :
    ∀ is, ok is → (exec step is s₀).1 = (exec step' is t₀).1 ∧
      Rel is (exec step is s₀).2 (exec step' is t₀).2 := by
  intro is
  induction is using List.reverseRecOn with
  | nil => exact fun _ => ⟨rfl, hinit⟩
  | append_singleton is i ih =>
    intro hok
    obtain ⟨hout, hrel⟩ := ih (hpre is i hok)
    obtain ⟨hout', hrel'⟩ := hstep is i _ _ hok hrel
    rw [exec_concat, exec_concat, hout, hout']
    exact ⟨rfl, hrel'⟩

/-! ### Traces -/

/-- The inputs of a run, each with its output. -/
def trace (step : ι → σ → ρ × σ) : List ι → σ → List (ι × ρ)
  | [], _ => []
  | i :: is, s => (i, (step i s).1) :: trace step is (step i s).2

@[simp] theorem trace_nil (step : ι → σ → ρ × σ) (s : σ) : trace step [] s = [] := rfl

theorem trace_append (step : ι → σ → ρ × σ) (is js : List ι) (s : σ) :
    trace step (is ++ js) s = trace step is s ++ trace step js (exec step is s).2 := by
  induction is generalizing s with
  | nil => rfl
  | cons i is ih => simp only [List.cons_append, trace, exec_cons, ih]

theorem trace_concat (step : ι → σ → ρ × σ) (is : List ι) (i : ι) (s : σ) :
    trace step (is ++ [i]) s = trace step is s ++ [(i, (step i (exec step is s).2).1)] := by
  rw [trace_append]
  rfl

/-! ### What holds of every step -/

/-- A property of every input and what precedes it, for a run that is extended by one input. -/
theorem forall_split_concat {α : Type} {P : List α → α → Prop} {xs : List α} {x : α} :
    (∀ before y after, xs ++ [x] = before ++ y :: after → P before y) ↔
      (∀ before y after, xs = before ++ y :: after → P before y) ∧ P xs x := by
  constructor
  · intro h
    refine ⟨fun before y after heq => ?_, h xs x [] rfl⟩
    exact h before y (after ++ [x]) (by rw [heq, List.append_assoc, List.cons_append])
  · rintro ⟨h, hx⟩ before y after heq
    rcases List.eq_nil_or_concat after with rfl | ⟨after', z, rfl⟩
    · obtain ⟨rfl, hyx⟩ := List.append_inj' heq rfl
      cases hyx
      exact hx
    · rw [List.concat_eq_append, ← List.cons_append, ← List.append_assoc] at heq
      exact h before y after' (List.append_inj' heq rfl).1

/-- Every input meets `P` in the state in which it comes. -/
def Always (step : ι → σ → ρ × σ) (P : ι → σ → Prop) : List ι → σ → Prop
  | [], _ => True
  | i :: is, s => P i s ∧ Always step P is (step i s).2

/-- If every step that meets `P` keeps the invariant and meets `Q`, then so does every run. -/
theorem always_of_invariant (step : ι → σ → ρ × σ) {P Q : ι → σ → Prop} (Inv : σ → Prop)
    (hstep : ∀ i s, Inv s → P i s → Q i s ∧ Inv (step i s).2) {is : List ι} {s : σ}
    (hinit : Inv s) (h : Always step P is s) : Always step Q is s := by
  induction is generalizing s with
  | nil => trivial
  | cons i is ih =>
    obtain ⟨hQ, hnext⟩ := hstep i s hinit h.1
    exact ⟨hQ, ih hnext h.2⟩

end Novon.Run
