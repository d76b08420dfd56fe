import Novon.Data.Equiv.Thread

/-!
# What a thread will return

Under one lock a thread's reply, and what its section does to the state, are settled when it takes
the lock.  `decided` is that reply and `serialState` the state that all sections entered so far lead
to, whether or not they are over.  A move either settles nothing or it settles the reply of one
thread, as its script run on the serial state (`LockInv.entry`, `decided_of_entered`), and a thread
returns what was settled (`LockInv.decided_of_reply?`).
-/

namespace List

theorem lookup_zip_of_getElem? {κ β : Type*} [BEq κ] [LawfulBEq κ] {ks : List κ} {vs : List β}
    (hnodup : ks.Nodup) {n : ℕ} {k : κ} {v : β} (hk : ks[n]? = some k) (hv : vs[n]? = some v) :
    (ks.zip vs).lookup k = some v := by
  induction ks generalizing vs n with
  | nil => cases hk
  | cons k' ks ih =>
    obtain ⟨hnew, hnodup⟩ := List.nodup_cons.mp hnodup
    cases vs with
    | nil => cases hv
    | cons v' vs =>
      cases n with
      | zero =>
        obtain rfl := Option.some.inj hk
        obtain rfl := Option.some.inj hv
        simp
      | succ n =>
        have hne : (k == k') = false := by
          rw [beq_eq_false_iff_ne]
          rintro rfl
          exact hnew (List.mem_of_getElem? hk)
        rw [List.zip_cons_cons, List.lookup_cons, hne]
        exact ih hnodup hk hv

end List

namespace Novon.Pool

variable {ι σ ρ : Type} {script : ι → Script σ ρ} {s₀ : σ} {p q : Pool ι σ ρ}

/-- The state that the sections entered so far lead to. -/
def serialState (script : ι → Script σ ρ) (s₀ : σ) (p : Pool ι σ ρ) : σ :=
  (replay script s₀ p.acquired).2

/-- The reply of a thread, once it has taken the lock. -/
def decided (script : ι → Script σ ρ) (s₀ : σ) (p : Pool ι σ ρ) (t : ℕ) : Option ρ :=
  ((p.acquired.map Prod.fst).zip (replay script s₀ p.acquired).1).lookup t

theorem decided_eq_none {t : ℕ} (h : t ∉ p.acquired.map Prod.fst) :
    decided script s₀ p t = none := by
  rw [decided, List.lookup_eq_none_iff]
  rintro ⟨u, r⟩ hmem
  have hne : t ≠ u := fun htu => h (htu ▸ (List.of_mem_zip hmem).1)
  simpa using hne

/-- A thread that takes the lock runs its script on the serial state, as far as anyone can tell. -/
theorem serialState_of_entered {t : ℕ} {i : ι} (h : q.acquired = p.acquired ++ [(t, i)]) :
    serialState script s₀ q = ((script i).eval (serialState script s₀ p)).2 := by
  rw [serialState, h, replay_concat]
  rfl

theorem decided_of_entered {t : ℕ} {i : ι} (h : q.acquired = p.acquired ++ [(t, i)])
    (hnew : decided script s₀ p t = none) (u : ℕ) :
    decided script s₀ q u =
      if u = t then some ((script i).eval (serialState script s₀ p)).1
      else decided script s₀ p u := by
  have hlength : (p.acquired.map Prod.fst).length = (replay script s₀ p.acquired).1.length := by
    rw [List.length_map, length_replay]
  have hsplit : decided script s₀ q u = (decided script s₀ p u).or
      ([(t, ((script i).eval (serialState script s₀ p)).1)].lookup u) := by
    rw [decided, h, replay_concat, List.map_append, List.zip_append hlength, List.lookup_append]
    rfl
  rw [hsplit]
  by_cases hut : u = t
  · subst hut
    rw [hnew, if_pos rfl]
    simp
  · rw [if_neg hut, List.lookup_cons, beq_eq_false_iff_ne.mpr hut]
    simp

/-- **A step of a thread** settles nothing, or it settles the reply of the thread and what its
script does to the serial state. -/
theorem LockInv.settles (h : LockInv script s₀ p) (t : ℕ) :
    let q := (Pool.step (underLock script) (.run t) p).2
    serialState script s₀ q = serialState script s₀ p ∧
        decided script s₀ q = decided script s₀ p ∨
      ∃ i th, p.threads[t]? = some (i, th) ∧ decided script s₀ p t = none ∧
        serialState script s₀ q = ((script i).eval (serialState script s₀ p)).2 ∧
        ∀ u, decided script s₀ q u =
          if u = t then some ((script i).eval (serialState script s₀ p)).1
          else decided script s₀ p u := by
  have he := step_effect (underLock script) (.run t) p
  generalize Pool.step (underLock script) (.run t) p = r at he ⊢
  cases he with
  | idle | access | release | unlockedAccess | unlockedReturn => exact .inl ⟨rfl, rfl⟩
  | @acquire _ i body hfree hth =>
    have hnew : decided script s₀ p t = none := decided_eq_none (h.standing t i _ hth).2
    exact .inr ⟨i, _, hth, hnew, serialState_of_entered rfl, decided_of_entered rfl hnew⟩

/-- Nothing is settled of a thread that is yet to be started. -/
theorem LockInv.decided_length (h : LockInv script s₀ p) :
    decided script s₀ p p.threads.length = none := by
  refine decided_eq_none fun hmem => ?_
  obtain ⟨x, hx, hlength⟩ := List.mem_map.mp hmem
  obtain ⟨th, hth⟩ := h.started x hx
  exact absurd (List.getElem?_eq_some_iff.mp hth).1 (by omega)

/-- A thread was there before a move, on the same request, or the move starts it. -/
theorem exists_of_step (launch : ι → Thread σ ρ) {m : Move ι} {u : ℕ} {i : ι} {th : Thread σ ρ}
    (h : (step launch m p).2.threads[u]? = some (i, th)) :
    m = .start i ∨ ∃ (u' : ℕ) (th' : Thread σ ρ), p.threads[u']? = some (i, th') := by
  cases m with
  | start j =>
    rcases List.mem_append.mp (List.mem_of_getElem? h) with hmem | hmem
    · obtain ⟨u', hu'⟩ := List.getElem?_of_mem hmem
      exact .inr ⟨u', th, hu'⟩
    · obtain ⟨rfl, -⟩ := Prod.mk.inj (List.mem_singleton.mp hmem)
      exact .inl rfl
  | run t =>
    have hsame : (step launch (.run t) p).2.threads.map Prod.fst = p.threads.map Prod.fst :=
      requests_runs launch (onlyRuns_replicate 1 t) p
    have hfst := congrArg (fun is => is[u]?) hsame
    simp only [List.getElem?_map, h, Option.map_some] at hfst
    obtain ⟨x, hx, rfl⟩ := Option.map_eq_some_iff.mp hfst.symm
    exact .inr ⟨u, x.2, hx⟩

/-- What a thread returns was settled before. -/
theorem LockInv.decided_of_reply? (h : LockInv script s₀ p) {t : ℕ} {r : ρ}
    (hr : p.reply? t = some r) : decided script s₀ p t = some r := by
  obtain ⟨i, hget⟩ := reply?_eq_some_iff.mp hr
  obtain ⟨k, hk, hout⟩ := h.standing t i _ hget
  have hkey : (p.acquired.map Prod.fst)[k]? = some t := by
    rw [List.getElem?_map, hk]
    rfl
  exact List.lookup_zip_of_getElem? h.nodup hkey hout

end Novon.Pool
