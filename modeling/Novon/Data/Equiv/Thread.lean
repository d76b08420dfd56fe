import Mathlib.Data.List.Nodup
import Novon.Data.Run
import Novon.Data.Thread

/-!
# What a lock makes of threads

If every thread takes the lock, a pool is linearizable: under every schedule the replies are those
of the same scripts run one after another, in the order in which the threads took the lock, and
whenever the lock is free the shared state is the one that this sequential run ends in
(`lockInv_after`, `LockInv.linearization`).  A thread that returned before another was started comes
before it in that order (`lt_of_returned`).  No schedule leads to a deadlock: every pool
reached can be run on until all its threads have returned (`exists_completion`).
-/

namespace Novon.Pool

open Run

variable {ι σ ρ : Type}

/-- Serves one request with no other thread between its accesses. -/
def serial (script : ι → Script σ ρ) (i : ι) (s : σ) : ρ × σ := (script i).eval s

/-- Serves the requests of `order` one after another. -/
def replay (script : ι → Script σ ρ) (s₀ : σ) (order : List (ℕ × ι)) : List ρ × σ :=
  exec (serial script) (order.map Prod.snd) s₀

theorem replay_concat (script : ι → Script σ ρ) (s₀ : σ) (order : List (ℕ × ι)) (x : ℕ × ι) :
    replay script s₀ (order ++ [x]) =
      ((replay script s₀ order).1 ++ [((script x.2).eval (replay script s₀ order).2).1],
        ((script x.2).eval (replay script s₀ order).2).2) := by
  unfold replay
  rw [List.map_append, List.map_singleton, exec_concat]
  rfl

theorem length_replay (script : ι → Script σ ρ) (s₀ : σ) (order : List (ℕ × ι)) :
    (replay script s₀ order).1.length = order.length := by
  induction order using List.reverseRecOn with
  | nil => rfl
  | append_singleton order x ih =>
    rw [replay_concat, List.length_append, ih, List.length_append]
    rfl

/-! ### One step -/

@[simp] theorem put_shared (p : Pool ι σ ρ) (t : ℕ) (i : ι) (th : Thread σ ρ) :
    (p.put t i th).shared = p.shared := rfl

@[simp] theorem put_locked (p : Pool ι σ ρ) (t : ℕ) (i : ι) (th : Thread σ ρ) :
    (p.put t i th).locked = p.locked := rfl

@[simp] theorem put_acquired (p : Pool ι σ ρ) (t : ℕ) (i : ι) (th : Thread σ ρ) :
    (p.put t i th).acquired = p.acquired := rfl

@[simp] theorem put_threads (p : Pool ι σ ρ) (t : ℕ) (i : ι) (th : Thread σ ρ) :
    (p.put t i th).threads = p.threads.set t (i, th) := rfl

/-- Everything a move can do, with everything it has checked. -/
inductive Effect (launch : ι → Thread σ ρ) (p : Pool ι σ ρ) :
    Move ι → Option ρ × Pool ι σ ρ → Prop where
  | start (i : ι) :
      Effect launch p (.start i) (none, { p with threads := p.threads ++ [(i, launch i)] })
  /-- There is no such thread, it has returned, or it waits for the lock. -/
  | idle (t : ℕ) : Effect launch p (.run t) (none, p)
  | acquire {t : ℕ} {i : ι} {body : Script σ ρ} (hfree : p.locked = false)
      (hth : p.threads[t]? = some (i, .waiting body)) :
      Effect launch p (.run t) (none, { p.put t i (.inside body) with
        locked := true, acquired := p.acquired ++ [(t, i)] })
  | access {t : ℕ} {i : ι} {w : σ → σ} {k : σ → Script σ ρ}
      (hth : p.threads[t]? = some (i, .inside (.access w k))) :
      Effect launch p (.run t)
        (none, { p.put t i (.inside (k p.shared)) with shared := w p.shared })
  | release {t : ℕ} {i : ι} {r : ρ} (hth : p.threads[t]? = some (i, .inside (.done r))) :
      Effect launch p (.run t) (some r, { p.put t i (.returned r) with locked := false })
  | unlockedAccess {t : ℕ} {i : ι} {w : σ → σ} {k : σ → Script σ ρ}
      (hth : p.threads[t]? = some (i, .unlocked (.access w k))) :
      Effect launch p (.run t)
        (none, { p.put t i (.unlocked (k p.shared)) with shared := w p.shared })
  | unlockedReturn {t : ℕ} {i : ι} {r : ρ}
      (hth : p.threads[t]? = some (i, .unlocked (.done r))) :
      Effect launch p (.run t) (some r, p.put t i (.returned r))

theorem step_effect (launch : ι → Thread σ ρ) (m : Move ι) (p : Pool ι σ ρ) :
    Effect launch p m (step launch m p) := by
  cases m with
  | start i => exact .start i
  | run t =>
    rw [step]
    cases h : p.threads[t]? with
    | none => exact .idle t
    | some x =>
      obtain ⟨i, th⟩ := x
      cases th with
      | waiting body =>
        simp only [advance]
        by_cases hlock : p.locked = true
        · rw [if_pos hlock]
          exact .idle t
        · rw [if_neg hlock]
          exact .acquire (by simpa using hlock) h
      | inside rest =>
        cases rest with
        | done r => exact .release h
        | access w k => exact .access h
      | unlocked rest =>
        cases rest with
        | done r => exact .unlockedReturn h
        | access w k => exact .unlockedAccess h
      | returned r => exact .idle t

/-- The order in which the lock was taken is never rewritten. -/
theorem acquired_prefix_step (launch : ι → Thread σ ρ) (m : Move ι) (p : Pool ι σ ρ) :
    p.acquired <+: (step launch m p).2.acquired := by
  have he := step_effect launch m p
  generalize step launch m p = r at he ⊢
  cases he with
  | acquire => exact List.prefix_append _ _
  | start | idle | access | release | unlockedAccess | unlockedReturn => exact List.prefix_rfl

theorem acquired_prefix (launch : ι → Thread σ ρ) (ms : List (Move ι)) (p : Pool ι σ ρ) :
    p.acquired <+: (exec (step launch) ms p).2.acquired := by
  induction ms generalizing p with
  | nil => exact List.prefix_rfl
  | cons m ms ih => exact (acquired_prefix_step launch m p).trans (ih _)

/-- A thread keeps its number and its request, and one that has returned stays so. -/
theorem getElem?_threads_step (launch : ι → Thread σ ρ) {p : Pool ι σ ρ} {t : ℕ} {i : ι}
    {th : Thread σ ρ} (m : Move ι) (h : p.threads[t]? = some (i, th)) :
    ∃ th', (step launch m p).2.threads[t]? = some (i, th') ∧
      ∀ r, th = .returned r → th' = .returned r := by
  have hset : ∀ u j (th' : Thread σ ρ), p.threads[u]? = some (j, th') → ∀ th'' : Thread σ ρ,
      (∀ r, th' ≠ .returned r) → ∃ x, (p.threads.set u (j, th''))[t]? = some (i, x) ∧
        ∀ r, th = .returned r → x = .returned r := by
    intro u j th' hu th'' hne
    by_cases hut : u = t
    · subst hut
      obtain ⟨rfl, rfl⟩ := Prod.mk.inj (Option.some.inj (hu.symm.trans h))
      have hlt := (List.getElem?_eq_some_iff.mp h).1
      exact ⟨th'', by rw [List.getElem?_set_self hlt], fun r hr => absurd hr (hne r)⟩
    · exact ⟨th, by rw [List.getElem?_set_ne hut, h], fun _ hr => hr⟩
  have he := step_effect launch m p
  generalize step launch m p = r at he ⊢
  cases he with
  | start j =>
    have hlt := (List.getElem?_eq_some_iff.mp h).1
    exact ⟨th, by rw [List.getElem?_append_left hlt, h], fun _ hr => hr⟩
  | idle => exact ⟨th, h, fun _ hr => hr⟩
  | acquire hfree hth => exact hset _ _ _ hth _ (by simp)
  | access hth => exact hset _ _ _ hth _ (by simp)
  | release hth => exact hset _ _ _ hth _ (by simp)
  | unlockedAccess hth => exact hset _ _ _ hth _ (by simp)
  | unlockedReturn hth => exact hset _ _ _ hth _ (by simp)

theorem getElem?_threads_exec (launch : ι → Thread σ ρ) {p : Pool ι σ ρ} {t : ℕ} {i : ι}
    {th : Thread σ ρ} (ms : List (Move ι)) (h : p.threads[t]? = some (i, th)) :
    ∃ th', (exec (step launch) ms p).2.threads[t]? = some (i, th') ∧
      ∀ r, th = .returned r → th' = .returned r := by
  induction ms generalizing p th with
  | nil => exact ⟨th, h, fun _ hr => hr⟩
  | cons m ms ih =>
    obtain ⟨th', h', hret⟩ := getElem?_threads_step launch m h
    obtain ⟨th'', h'', hret'⟩ := ih h'
    exact ⟨th'', h'', fun r hr => hret' r (hret r hr)⟩

theorem reply?_eq_some_iff {p : Pool ι σ ρ} {t : ℕ} {r : ρ} :
    p.reply? t = some r ↔ ∃ i, p.threads[t]? = some (i, .returned r) := by
  unfold reply?
  constructor
  · intro h
    split at h
    · next i r' hget =>
      cases h
      exact ⟨i, hget⟩
    · cases h
  · rintro ⟨i, hget⟩
    rw [hget]

/-! ### Every thread takes the lock -/

section Locked

variable {script : ι → Script σ ρ} {s₀ : σ}

/-- Where a thread stands, against the requests that have entered the lock. -/
def Standing (script : ι → Script σ ρ) (s₀ : σ) (p : Pool ι σ ρ) (t : ℕ) (i : ι) :
    Thread σ ρ → Prop
  | .waiting body => body = script i ∧ t ∉ p.acquired.map Prod.fst
  | .inside _ => p.locked = true ∧ p.acquired.getLast? = some (t, i)
  | .unlocked _ => False
  | .returned r =>
    ∃ k : ℕ, p.acquired[k]? = some (t, i) ∧ (replay script s₀ p.acquired).1[k]? = some r

/-- What holds whatever the scheduler does: the thread in its section is the last that took the
lock, what is left of its script ends where the whole script would have ended on the state that the
threads before it leave, and outside of sections the shared state is the one they leave. -/
structure LockInv (script : ι → Script σ ρ) (s₀ : σ) (p : Pool ι σ ρ) : Prop where
  nodup : (p.acquired.map Prod.fst).Nodup
  started : ∀ x ∈ p.acquired, ∃ th, p.threads[x.1]? = some (x.2, th)
  standing : ∀ t i th, p.threads[t]? = some (i, th) → Standing script s₀ p t i th
  free : p.locked = false → p.shared = (replay script s₀ p.acquired).2
  held : p.locked = true → ∃ before t i rest, p.acquired = before ++ [(t, i)] ∧
    p.threads[t]? = some (i, .inside rest) ∧
    rest.eval p.shared = (script i).eval (replay script s₀ before).2

theorem lockInv_init : LockInv script s₀ (init s₀ : Pool ι σ ρ) where
  nodup := List.nodup_nil
  started := by simp [init]
  standing := by simp [init]
  free _ := rfl
  held h := by simp [init] at h

/-- **Mutual exclusion**: the thread in its section is the one that `held` speaks of. -/
theorem LockInv.holder {p : Pool ι σ ρ} (h : LockInv script s₀ p) {t : ℕ} {i : ι}
    {rest : Script σ ρ} (hth : p.threads[t]? = some (i, .inside rest)) :
    p.locked = true ∧ ∃ before, p.acquired = before ++ [(t, i)] ∧
      rest.eval p.shared = (script i).eval (replay script s₀ before).2 := by
  obtain ⟨hlocked, hlast⟩ := h.standing t i _ hth
  obtain ⟨before, u, j, rest', hacq, hu, heval⟩ := h.held hlocked
  rw [hacq, List.getLast?_concat, Option.some.injEq, Prod.mk.injEq] at hlast
  obtain ⟨rfl, rfl⟩ := hlast
  obtain rfl : rest' = rest := by simpa using hu.symm.trans hth
  exact ⟨hlocked, before, hacq, heval⟩

/-- Where the other threads stand when one of them moves. -/
theorem LockInv.standing_set {p q : Pool ι σ ρ} (h : LockInv script s₀ p) {t : ℕ} {i : ι}
    {th th' : Thread σ ρ} (hth : p.threads[t]? = some (i, th))
    (hthreads : q.threads = p.threads.set t (i, th')) (hself : Standing script s₀ q t i th')
    (hothers : ∀ u j thu, u ≠ t → p.threads[u]? = some (j, thu) → Standing script s₀ p u j thu →
      Standing script s₀ q u j thu) :
    ∀ u j thu, q.threads[u]? = some (j, thu) → Standing script s₀ q u j thu := by
  intro u j thu hu
  rw [hthreads] at hu
  by_cases hut : u = t
  · subst hut
    have hlt := (List.getElem?_eq_some_iff.mp hth).1
    rw [List.getElem?_set_self hlt, Option.some.injEq, Prod.mk.injEq] at hu
    obtain ⟨rfl, rfl⟩ := hu
    exact hself
  · rw [List.getElem?_set_ne (Ne.symm hut)] at hu
    exact hothers u j thu hut hu (h.standing u j thu hu)

theorem LockInv.started_set {p : Pool ι σ ρ} (h : LockInv script s₀ p) {t : ℕ} {i : ι}
    {th th' : Thread σ ρ} (hth : p.threads[t]? = some (i, th)) :
    ∀ x ∈ p.acquired, ∃ th'', (p.threads.set t (i, th'))[x.1]? = some (x.2, th'') := by
  intro x hx
  obtain ⟨thx, hthx⟩ := h.started x hx
  by_cases hxt : x.1 = t
  · rw [hxt] at hthx ⊢
    have hlt := (List.getElem?_eq_some_iff.mp hth).1
    rw [hth, Option.some.injEq, Prod.mk.injEq] at hthx
    exact ⟨th', by rw [List.getElem?_set_self hlt, hthx.1]⟩
  · exact ⟨thx, by rw [List.getElem?_set_ne (Ne.symm hxt), hthx]⟩

/-- A new thread waits, under a number that no thread has had. -/
theorem LockInv.start {p : Pool ι σ ρ} (h : LockInv script s₀ p) (i : ι) :
    LockInv script s₀ { p with threads := p.threads ++ [(i, underLock script i)] } := by
  have hkeep : ∀ {t : ℕ} {x : ι × Thread σ ρ}, p.threads[t]? = some x →
      (p.threads ++ [(i, underLock script i)])[t]? = some x := by
    intro t x hx
    rw [List.getElem?_append_left (List.getElem?_eq_some_iff.mp hx).1, hx]
  refine ⟨h.nodup, fun x hx => ?_, fun t j th hth => ?_, h.free, fun hl => ?_⟩
  · obtain ⟨th, hth⟩ := h.started x hx
    exact ⟨th, hkeep hth⟩
  · by_cases hlt : t < p.threads.length
    · rw [List.getElem?_append_left hlt] at hth
      exact h.standing t j th hth
    · rw [List.getElem?_append_right (by omega), List.getElem?_singleton] at hth
      split at hth
      · obtain ⟨rfl, rfl⟩ := Prod.mk.inj (Option.some.inj hth)
        refine ⟨rfl, fun hmem => hlt ?_⟩
        obtain ⟨x, hx, rfl⟩ := List.mem_map.mp hmem
        obtain ⟨thx, hthx⟩ := h.started x hx
        exact (List.getElem?_eq_some_iff.mp hthx).1
      · cases hth
  · obtain ⟨before, t, j, rest, hacq, hth, heval⟩ := h.held hl
    exact ⟨before, t, j, rest, hacq, hkeep hth, heval⟩

/-- A thread takes the lock, and has its whole script to run on the state of the serial run. -/
theorem LockInv.acquire {p : Pool ι σ ρ} (h : LockInv script s₀ p) (hfree : p.locked = false)
    {t : ℕ} {i : ι} {body : Script σ ρ} (hth : p.threads[t]? = some (i, .waiting body)) :
    LockInv script s₀ { p.put t i (.inside body) with
      locked := true, acquired := p.acquired ++ [(t, i)] } := by
  obtain ⟨rfl, hnew⟩ := h.standing t i _ hth
  refine ⟨?_, fun x hx => ?_, h.standing_set hth rfl ?_ ?_, nofun, fun _ => ?_⟩
  · rw [List.map_append, List.map_singleton, ← List.concat_eq_append]
    exact h.nodup.concat hnew
  · rcases List.mem_append.mp hx with hx | hx
    · exact h.started_set hth x hx
    · obtain rfl := List.mem_singleton.mp hx
      exact ⟨_, List.getElem?_set_self (List.getElem?_eq_some_iff.mp hth).1⟩
  · exact ⟨rfl, List.getLast?_concat⟩
  · intro u j thu hut hu hstand
    cases thu with
    | waiting body =>
      refine ⟨hstand.1, fun hmem => ?_⟩
      rw [List.map_append, List.mem_append] at hmem
      rcases hmem with hmem | hmem
      · exact hstand.2 hmem
      · exact hut (by simpa using hmem)
    | inside rest =>
      exact absurd (hfree.symm.trans hstand.1) (by simp)
    | unlocked rest => exact hstand
    | returned r =>
      obtain ⟨k, hk, hr⟩ := hstand
      have hk' := (List.getElem?_eq_some_iff.mp hk).1
      have hr' := (List.getElem?_eq_some_iff.mp hr).1
      refine ⟨k, by rw [List.getElem?_append_left hk', hk], ?_⟩
      rw [replay_concat, List.getElem?_append_left hr', hr]
  · refine ⟨p.acquired, t, i, script i, rfl, ?_, ?_⟩
    · exact List.getElem?_set_self (List.getElem?_eq_some_iff.mp hth).1
    · show (script i).eval p.shared = _
      rw [h.free hfree]

/-- An operation inside a section leaves the end of the script where it was. -/
theorem LockInv.access {p : Pool ι σ ρ} (h : LockInv script s₀ p) {t : ℕ} {i : ι} {w : σ → σ}
    {k : σ → Script σ ρ} (hth : p.threads[t]? = some (i, .inside (.access w k))) :
    LockInv script s₀ { p.put t i (.inside (k p.shared)) with shared := w p.shared } := by
  obtain ⟨hlocked, before, hacq, heval⟩ := h.holder hth
  refine ⟨h.nodup, h.started_set hth, h.standing_set hth rfl ?_ ?_, fun hf => ?_, fun _ => ?_⟩
  · exact h.standing t i _ hth
  · exact fun u j thu _ _ hstand => by cases thu <;> exact hstand
  · exact absurd (hlocked.symm.trans hf) (by simp)
  · exact ⟨before, t, i, k p.shared, hacq,
      List.getElem?_set_self (List.getElem?_eq_some_iff.mp hth).1, heval⟩

/-- A thread gives the lock back where the serial run has got to. -/
theorem LockInv.release {p : Pool ι σ ρ} (h : LockInv script s₀ p) {t : ℕ} {i : ι} {r : ρ}
    (hth : p.threads[t]? = some (i, .inside (.done r))) :
    LockInv script s₀ { p.put t i (.returned r) with locked := false } := by
  obtain ⟨hlocked, before, hacq, heval⟩ := h.holder hth
  rw [Script.eval_done] at heval
  have hlast : (replay script s₀ p.acquired).1[before.length]? = some r := by
    have hlen := length_replay script s₀ before
    rw [hacq, replay_concat, ← heval, List.getElem?_append_right (by omega), hlen, Nat.sub_self]
    rfl
  refine ⟨h.nodup, h.started_set hth, h.standing_set hth rfl ?_ ?_, fun _ => ?_, nofun⟩
  · exact ⟨before.length, by simp [hacq], hlast⟩
  · intro u j thu hut hu hstand
    cases thu with
    | inside rest =>
      -- nobody else is in a section
      obtain ⟨-, hlast'⟩ := hstand
      rw [hacq, List.getLast?_concat, Option.some.injEq, Prod.mk.injEq] at hlast'
      exact absurd hlast'.1.symm hut
    | waiting body => exact hstand
    | unlocked rest => exact hstand
    | returned r => exact hstand
  · show p.shared = (replay script s₀ p.acquired).2
    rw [hacq, replay_concat, ← heval]

/-- **Step lemma**: every move keeps the invariant, if threads are started under the lock. -/
theorem LockInv.step {p : Pool ι σ ρ} (h : LockInv script s₀ p) (m : Move ι) :
    LockInv script s₀ (step (underLock script) m p).2 := by
  have he := step_effect (underLock script) m p
  generalize Pool.step (underLock script) m p = r at he ⊢
  cases he with
  | idle => exact h
  | start i => exact h.start i
  | acquire hfree hth => exact h.acquire hfree hth
  | access hth => exact h.access hth
  | release hth => exact h.release hth
  | unlockedAccess hth => exact absurd (h.standing _ _ _ hth) id
  | unlockedReturn hth => exact absurd (h.standing _ _ _ hth) id

/-- **Run lemma**: the invariant holds under every schedule. -/
theorem lockInv_after (script : ι → Script σ ρ) (s₀ : σ) (ms : List (Move ι)) :
    LockInv script s₀ (after (underLock script) s₀ ms) :=
  exec_invariant _ (fun _ => True) (fun _ => LockInv script s₀) (init s₀) (fun _ _ _ => trivial)
    lockInv_init (fun _ m _ _ h => h.step m) ms trivial

/-- The replies and the state of `p` are those of serving its requests one at a time with `step`,
in the order in which their threads took the lock. -/
structure Linearization (step : ι → σ → ρ × σ) (s₀ : σ) (p : Pool ι σ ρ) : Prop where
  /-- No thread takes the lock twice. -/
  once : (p.acquired.map Prod.fst).Nodup
  /-- Every request served is the one its thread was started on. -/
  request : ∀ t i, (t, i) ∈ p.acquired → ∃ th, p.threads[t]? = some (i, th)
  reply : ∀ t r, p.reply? t = some r → ∃ (k : ℕ) (i : ι), p.acquired[k]? = some (t, i) ∧
    (exec step (p.acquired.map Prod.snd) s₀).1[k]? = some r
  state : p.locked = false → p.shared = (exec step (p.acquired.map Prod.snd) s₀).2

/-- A reply is what the step answers after the requests that came before. -/
theorem Linearization.exists_before {step : ι → σ → ρ × σ} {p : Pool ι σ ρ}
    (h : Linearization step s₀ p) {t : ℕ} {r : ρ} (hr : p.reply? t = some r) :
    ∃ i th before, p.threads[t]? = some (i, th) ∧ before ++ [i] <+: p.acquired.map Prod.snd ∧
      r = (step i (exec step before s₀).2).1 := by
  obtain ⟨k, i, hk, hout⟩ := h.reply t r hr
  obtain ⟨th, hget⟩ := h.request t i (List.mem_of_getElem? hk)
  have hget' : (p.acquired.map Prod.snd)[k]? = some i := by rw [List.getElem?_map, hk]; rfl
  rw [getElem?_exec, hget', Option.map_some, Option.some.injEq] at hout
  refine ⟨i, th, (p.acquired.map Prod.snd).take k, hget, ?_, hout.symm⟩
  have hlt := (List.getElem?_eq_some_iff.mp hget').1
  rw [← (List.getElem?_eq_some_iff.mp hget').2, List.take_append_getElem hlt]
  exact List.take_prefix _ _

/-- **A pool under one lock is linearizable**: `step` is what the scripts do when nothing comes
between their accesses. -/
theorem LockInv.linearization {p : Pool ι σ ρ} (h : LockInv script s₀ p) {step : ι → σ → ρ × σ}
    (hstep : ∀ i s, (script i).eval s = step i s) : Linearization step s₀ p := by
  obtain rfl : serial script = step := by
    ext1 i
    ext1 s
    exact hstep i s
  refine ⟨h.nodup, fun t i hti => h.started _ hti, fun t r hr => ?_, h.free⟩
  obtain ⟨i, hget⟩ := reply?_eq_some_iff.mp hr
  obtain ⟨k, hk, hrk⟩ := h.standing t i _ hget
  exact ⟨k, i, hk, hrk⟩

/-- **Real time**: a thread that has returned before another is started took the lock before it. -/
theorem lt_of_returned {moves later : List (Move ι)} {t u k l : ℕ} {i j : ι}
    (ht : ((after (underLock script) s₀ moves).reply? t).isSome)
    (hu : (after (underLock script) s₀ moves).threads.length ≤ u)
    (hk : (after (underLock script) s₀ (moves ++ later)).acquired[k]? = some (t, i))
    (hl : (after (underLock script) s₀ (moves ++ later)).acquired[l]? = some (u, j)) : k < l := by
  have hp := lockInv_after script s₀ moves
  have hq := lockInv_after script s₀ (moves ++ later)
  obtain ⟨rest, hrest⟩ : (after (underLock script) s₀ moves).acquired <+:
      (after (underLock script) s₀ (moves ++ later)).acquired := by
    rw [after, after, exec_append]
    exact acquired_prefix _ later _
  generalize after (underLock script) s₀ moves = p at ht hu hp hrest
  generalize after (underLock script) s₀ (moves ++ later) = q at hk hl hq hrest
  obtain ⟨r, hr⟩ := Option.isSome_iff_exists.mp ht
  obtain ⟨i', hget⟩ := reply?_eq_some_iff.mp hr
  obtain ⟨m, hm, -⟩ := hp.standing t i' _ hget
  have hlt := (List.getElem?_eq_some_iff.mp hm).1
  -- `t` is in the list once
  have hkm : k = m := by
    have hm' : q.acquired[m]? = some (t, i') := by rw [← hrest, List.getElem?_append_left hlt, hm]
    have hkeys : ∀ {n : ℕ} {x : ι}, q.acquired[n]? = some (t, x) →
        (q.acquired.map Prod.fst)[n]? = some t := fun hn => by rw [List.getElem?_map, hn]; rfl
    have hklt := (List.getElem?_eq_some_iff.mp (hkeys hk)).1
    exact (List.getElem?_inj hklt hq.nodup).mp ((hkeys hk).trans (hkeys hm').symm)
  by_contra hle
  have hl' : p.acquired[l]? = some (u, j) := by
    rw [← hrest, List.getElem?_append_left (by omega)] at hl
    exact hl
  obtain ⟨th, hth⟩ := hp.started _ (List.mem_of_getElem? hl')
  have hult := (List.getElem?_eq_some_iff.mp hth).1
  omega

/-! ### No deadlock -/

/-- A thread in its section that runs alone comes to the end of it. -/
theorem exec_inside (rest : Script σ ρ) {p : Pool ι σ ρ} {t : ℕ} {i : ι}
    (hth : p.threads[t]? = some (i, .inside rest)) (launch : ι → Thread σ ρ) :
    ∃ n, (exec (Pool.step launch) (List.replicate n (.run t)) p).2 =
      { p.put t i (.returned (rest.eval p.shared).1) with
        shared := (rest.eval p.shared).2, locked := false } := by
  induction rest generalizing p with
  | done r =>
    refine ⟨1, ?_⟩
    show (Pool.step launch (.run t) p).2 = _
    rw [Pool.step, hth]
    rfl
  | access w k ih =>
    have hlt := (List.getElem?_eq_some_iff.mp hth).1
    obtain ⟨n, hn⟩ := ih p.shared (p := { p.put t i (.inside (k p.shared)) with
      shared := w p.shared }) (List.getElem?_set_self hlt)
    refine ⟨n + 1, ?_⟩
    have hstep : (Pool.step launch (.run t) p).2 =
        { p.put t i (.inside (k p.shared)) with shared := w p.shared } := by
      rw [Pool.step, hth]
      rfl
    rw [List.replicate_succ, exec_cons, hstep, hn]
    simp only [put, List.set_set, Script.eval_access]

/-- The moves only run threads that have been started. -/
def OnlyRuns (ms : List (Move ι)) : Prop := ∀ m ∈ ms, ∃ t, m = .run t

theorem onlyRuns_replicate (n t : ℕ) : OnlyRuns (List.replicate n (.run t) : List (Move ι)) :=
  fun _ hm => ⟨t, List.eq_of_mem_replicate hm⟩

theorem OnlyRuns.append {ms ms' : List (Move ι)} (h : OnlyRuns ms) (h' : OnlyRuns ms') :
    OnlyRuns (ms ++ ms') := fun m hm => (List.mem_append.mp hm).elim (h m) (h' m)

theorem map_fst_set {ths : List (ι × Thread σ ρ)} {t : ℕ} {i : ι} {th th' : Thread σ ρ}
    (hget : ths[t]? = some (i, th)) : (ths.set t (i, th')).map Prod.fst = ths.map Prod.fst := by
  ext1 u
  rw [List.map_set, List.getElem?_set]
  split
  · next htu =>
    subst htu
    rw [if_pos (by simpa using (List.getElem?_eq_some_iff.mp hget).1), List.getElem?_map, hget]
    rfl
  · rfl

/-- The same requests are being served. -/
theorem requests_runs (launch : ι → Thread σ ρ) {ms : List (Move ι)} (h : OnlyRuns ms)
    (p : Pool ι σ ρ) :
    (exec (Pool.step launch) ms p).2.threads.map Prod.fst = p.threads.map Prod.fst := by
  induction ms generalizing p with
  | nil => rfl
  | cons m ms ih =>
    obtain ⟨t, rfl⟩ := h m List.mem_cons_self
    rw [exec_cons, ih fun m hm => h m (List.mem_cons_of_mem _ hm)]
    have he := step_effect launch (.run t) p
    generalize Pool.step launch (.run t) p = r at he ⊢
    cases he with
    | idle => rfl
    | acquire _ hth => exact map_fst_set hth
    | access hth => exact map_fst_set hth
    | release hth => exact map_fst_set hth
    | unlockedAccess hth => exact map_fst_set hth
    | unlockedReturn hth => exact map_fst_set hth

theorem length_threads_runs (launch : ι → Thread σ ρ) {ms : List (Move ι)} (h : OnlyRuns ms)
    (p : Pool ι σ ρ) : (exec (Pool.step launch) ms p).2.threads.length = p.threads.length := by
  have hlen := congrArg List.length (requests_runs launch h p)
  rwa [List.length_map, List.length_map] at hlen

/-- Any one thread can be brought to its end: whoever holds the lock finishes, and then it. -/
theorem LockInv.exists_return {p : Pool ι σ ρ} (h : LockInv script s₀ p) {t : ℕ} {i : ι}
    {th : Thread σ ρ} (hth : p.threads[t]? = some (i, th)) :
    ∃ ms, OnlyRuns ms ∧ ∃ r,
      (exec (Pool.step (underLock script)) ms p).2.threads[t]? =
        some (i, .returned r) := by
  have hinside : ∀ {q : Pool ι σ ρ} {rest : Script σ ρ}, q.threads[t]? = some (i, .inside rest) →
      ∃ ms, OnlyRuns ms ∧ ∃ r, (exec (Pool.step (underLock script)) ms q).2.threads[t]? =
        some (i, .returned r) := by
    intro q rest hq
    obtain ⟨n, hn⟩ := exec_inside rest hq (underLock script)
    refine ⟨_, onlyRuns_replicate n t, (rest.eval q.shared).1, ?_⟩
    rw [hn]
    exact List.getElem?_set_self (List.getElem?_eq_some_iff.mp hq).1
  -- a thread that finds the lock free takes it
  have hacquire : ∀ {q : Pool ι σ ρ} {body : Script σ ρ}, q.locked = false →
      q.threads[t]? = some (i, .waiting body) → ∃ ms, OnlyRuns ms ∧ ∃ r,
        (exec (Pool.step (underLock script)) ms q).2.threads[t]? =
          some (i, .returned r) := by
    intro q body hfree hq
    have hlt := (List.getElem?_eq_some_iff.mp hq).1
    obtain ⟨ms, hms, r, hr⟩ := hinside (q := { q.put t i (.inside body) with
      locked := true, acquired := q.acquired ++ [(t, i)] }) (List.getElem?_set_self hlt)
    refine ⟨.run t :: ms, OnlyRuns.append (onlyRuns_replicate 1 t) hms, r, ?_⟩
    have hstep : (Pool.step (underLock script) (.run t) q).2 = { q.put t i (.inside body)
        with locked := true, acquired := q.acquired ++ [(t, i)] } := by
      simp [Pool.step, hq, advance, hfree]
    rw [exec_cons, hstep, hr]
  cases th with
  | returned r => exact ⟨[], fun _ hm => absurd hm List.not_mem_nil, r, hth⟩
  | inside rest => exact hinside hth
  | unlocked rest => exact absurd (h.standing t i _ hth) id
  | waiting body =>
    cases hlocked : p.locked with
    | false => exact hacquire hlocked hth
    | true =>
      obtain ⟨before, u, j, rest, -, hu, -⟩ := h.held hlocked
      obtain ⟨n, hn⟩ := exec_inside rest hu (underLock script)
      have hut : u ≠ t := by
        rintro rfl
        simp [hu] at hth
      obtain ⟨ms, hms, r, hr⟩ := hacquire (q := { p.put u j (.returned (rest.eval p.shared).1) with
        shared := (rest.eval p.shared).2, locked := false }) rfl
        ((List.getElem?_set_ne hut).trans hth)
      exact ⟨_, (onlyRuns_replicate n u).append hms, r, by rw [exec_append, hn, hr]⟩

/-- The threads with a number below `n` have returned. -/
def ReturnedBelow (n : ℕ) (p : Pool ι σ ρ) : Prop :=
  ∀ t < n, ∀ i th, p.threads[t]? = some (i, th) → ∃ r, th = .returned r

theorem ReturnedBelow.exec (launch : ι → Thread σ ρ) {n : ℕ} {p : Pool ι σ ρ}
    (h : ReturnedBelow n p) {ms : List (Move ι)} (hms : OnlyRuns ms) :
    ReturnedBelow n (exec (Pool.step launch) ms p).2 := by
  intro t ht i th hth
  have hlen := (List.getElem?_eq_some_iff.mp hth).1
  rw [length_threads_runs _ hms] at hlen
  obtain ⟨r, hr⟩ := h t ht _ _ (List.getElem?_eq_getElem hlen)
  obtain ⟨th', hth', hret⟩ := getElem?_threads_exec launch ms
    (List.getElem?_eq_getElem hlen)
  rw [hth, Option.some.injEq, Prod.mk.injEq] at hth'
  exact ⟨r, hth'.2.trans (hret r hr)⟩

/-- **No deadlock**: from every pool reached, some continuation that starts no further thread
brings all of them to their end. -/
theorem exists_completion (script : ι → Script σ ρ) (s₀ : σ) (moves : List (Move ι)) :
    ∃ more, OnlyRuns more ∧
      (after (underLock script) s₀ (moves ++ more)).threads.map Prod.fst =
        (after (underLock script) s₀ moves).threads.map Prod.fst ∧
      ∀ t < (after (underLock script) s₀ (moves ++ more)).threads.length,
        ((after (underLock script) s₀ (moves ++ more)).reply? t).isSome := by
  -- one thread after another, by induction on how many have been brought to their end
  have hupto : ∀ n, ∃ more, OnlyRuns more ∧
      ReturnedBelow n (after (underLock script) s₀ (moves ++ more)) := by
    intro n
    induction n with
    | zero => exact ⟨[], fun _ hm => absurd hm List.not_mem_nil, fun t ht => absurd ht (by omega)⟩
    | succ n ih =>
      obtain ⟨more, hruns, hdone⟩ := ih
      cases hn : (after (underLock script) s₀ (moves ++ more)).threads[n]? with
      | none =>
        refine ⟨more, hruns, fun t ht i th hth => ?_⟩
        rcases Nat.lt_succ_iff_lt_or_eq.mp ht with ht | rfl
        · exact hdone t ht i th hth
        · simp [hn] at hth
      | some x =>
        obtain ⟨ms, hms, r, hr⟩ := (lockInv_after script s₀ (moves ++ more)).exists_return hn
        refine ⟨more ++ ms, hruns.append hms, fun t ht i th hth => ?_⟩
        rw [← List.append_assoc, after, exec_append] at hth
        rcases Nat.lt_succ_iff_lt_or_eq.mp ht with ht | rfl
        · exact hdone.exec _ hms t ht i th hth
        · rw [after] at hr
          rw [hr, Option.some.injEq, Prod.mk.injEq] at hth
          exact ⟨r, hth.2.symm⟩
  obtain ⟨more, hruns, hdone⟩ := hupto (after (underLock script) s₀ moves).threads.length
  have hrequests : (after (underLock script) s₀ (moves ++ more)).threads.map Prod.fst =
      (after (underLock script) s₀ moves).threads.map Prod.fst := by
    rw [after, exec_append, requests_runs _ hruns]
    rfl
  have hlen := congrArg List.length hrequests
  rw [List.length_map, List.length_map] at hlen
  refine ⟨more, hruns, hrequests, fun t ht => ?_⟩
  obtain ⟨⟨i, th⟩, hget⟩ :
      ∃ x, (after (underLock script) s₀ (moves ++ more)).threads[t]? = some x :=
    ⟨_, List.getElem?_eq_getElem ht⟩
  obtain ⟨r, rfl⟩ := hdone t (hlen ▸ ht) i th hget
  rw [reply?_eq_some_iff.mpr ⟨i, hget⟩]
  rfl

/-- When all threads have returned, the requests served are those of all of them, each once. -/
theorem LockInv.perm_of_returned {p : Pool ι σ ρ} (h : LockInv script s₀ p)
    (hall : ∀ t < p.threads.length, (p.reply? t).isSome) :
    p.locked = false ∧ (p.acquired.map Prod.snd).Perm (p.threads.map Prod.fst) := by
  have hreturned : ∀ {t : ℕ} {i : ι} {th : Thread σ ρ}, p.threads[t]? = some (i, th) →
      ∃ r, th = .returned r := by
    intro t i th hget
    obtain ⟨r, hr⟩ := Option.isSome_iff_exists.mp (hall t (List.getElem?_eq_some_iff.mp hget).1)
    obtain ⟨j, hj⟩ := reply?_eq_some_iff.mp hr
    exact ⟨r, (Prod.mk.inj (Option.some.inj (hget.symm.trans hj))).2⟩
  constructor
  · by_contra hlocked
    obtain ⟨before, t, i, rest, -, hget, -⟩ := h.held (by simpa using hlocked)
    obtain ⟨r, hr⟩ := hreturned hget
    cases hr
  · -- both list the threads with their requests, and name no thread twice
    let numbered := p.threads.zipIdx.map fun x => (x.2, x.1.1)
    have hnumbered : numbered.Nodup := by
      refine List.Nodup.of_map Prod.fst ?_
      rw [List.map_map]
      show (p.threads.zipIdx.map Prod.snd).Nodup
      rw [List.zipIdx_map_snd]
      exact List.nodup_range'
    have hperm : p.acquired.Perm numbered := by
      refine (List.perm_ext_iff_of_nodup (List.Nodup.of_map Prod.fst h.nodup) hnumbered).mpr ?_
      rintro ⟨t, i⟩
      constructor
      · intro hmem
        obtain ⟨th, hget⟩ := h.started _ hmem
        exact List.mem_map.mpr ⟨((i, th), t), List.mem_zipIdx_iff_getElem?.mpr hget, rfl⟩
      · intro hmem
        obtain ⟨⟨⟨j, th⟩, u⟩, hx, heq⟩ := List.mem_map.mp hmem
        obtain ⟨rfl, rfl⟩ := Prod.mk.inj heq
        have hget := List.mem_zipIdx_iff_getElem?.mp hx
        obtain ⟨r, rfl⟩ := hreturned hget
        obtain ⟨k, hk, -⟩ := h.standing _ _ _ hget
        exact List.mem_of_getElem? hk
    have hmap := hperm.map Prod.snd
    have hfst : numbered.map Prod.snd = p.threads.map Prod.fst := by
      rw [List.map_map]
      show p.threads.zipIdx.map (Prod.fst ∘ Prod.fst) = _
      rw [← List.map_map, List.zipIdx_map_fst]
    exact hfst ▸ hmap

end Locked

end Novon.Pool
