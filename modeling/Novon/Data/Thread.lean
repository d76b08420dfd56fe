import Novon.Data.Run

/-!
# Threads on a shared state with one lock

A `Script` touches the shared state in one access after another; between two accesses any other
thread may run.  A `Routine` is a script that may raise.  A pool keeps the shared state, one lock
and the threads.  A thread that was started under the lock takes it before the first access of its
script and gives it back after the last, whether the script returned or raised; a thread that was
started without it just runs its script.  The scheduler is arbitrary: at every move it starts a
thread or lets one of them make its next step, and a thread that cannot have the lock stays where it
is.
-/

namespace Novon

/-- A computation on a shared state `σ`, one access after another. -/
inductive Script (σ α : Type) : Type where
  | done (a : α)
  /-- One access: the state becomes `write s`, and the script goes on with what it saw. -/
  | access (write : σ → σ) (next : σ → Script σ α)

namespace Script

variable {σ α β : Type}

protected def bind (x : Script σ α) (f : α → Script σ β) : Script σ β :=
  match x with
  | done a => f a
  | access write next => access write fun s => (next s).bind f

protected def map (f : α → β) (x : Script σ α) : Script σ β := x.bind fun a => done (f a)

/-- Runs a script with no other thread between its accesses. -/
def eval : Script σ α → σ → α × σ
  | done a, s => (a, s)
  | access write next, s => (next s).eval (write s)

@[simp] theorem eval_done (a : α) (s : σ) : (done a : Script σ α).eval s = (a, s) := rfl

@[simp] theorem eval_access (w : σ → σ) (k : σ → Script σ α) (s : σ) :
    (access w k).eval s = (k s).eval (w s) := rfl

@[simp] theorem eval_bind (x : Script σ α) (f : α → Script σ β) (s : σ) :
    (x.bind f).eval s = (f (x.eval s).1).eval (x.eval s).2 := by
  induction x generalizing s with
  | done a => rfl
  | access w k ih => exact ih s (w s)

@[simp] theorem eval_map (f : α → β) (x : Script σ α) (s : σ) :
    (x.map f).eval s = (f (x.eval s).1, (x.eval s).2) := eval_bind x _ s

end Script

/-- A script that returns an `α` or raises an `ε`. -/
def Routine (ε σ α : Type) : Type := Script σ (Except ε α)

namespace Routine

variable {ε σ α β : Type}

instance : Monad (Routine ε σ) where
  pure a := Script.done (.ok a)
  bind x f := Script.bind x fun
    | .ok a => f a
    | .error e => .done (.error e)

/-- Raises `e`; nothing is undone. -/
def raise (e : ε) : Routine ε σ α := Script.done (.error e)

/-- One access that reads. -/
def read (f : σ → α) : Routine ε σ α := Script.access id fun s => .done (.ok (f s))

/-- One access that writes. -/
def write (f : σ → σ) : Routine ε σ Unit := Script.access f fun _ => .done (.ok ())

/-- One access that reads what may not be there, as `d[k]` does. -/
def item (f : σ → Except ε α) : Routine ε σ α := Script.access id fun s => .done (f s)

/-- One access that takes out what may not be there, as `d.pop(k)` does. -/
def pop (f : σ → Except ε α) (g : σ → σ) : Routine ε σ α := Script.access g fun s => .done (f s)

/-- Runs the routine with no other thread between its accesses. -/
def run (x : Routine ε σ α) (s : σ) : Except ε α × σ := Script.eval x s

@[simp] theorem run_pure (a : α) (s : σ) : run (pure a : Routine ε σ α) s = (.ok a, s) := rfl

@[simp] theorem run_raise (e : ε) (s : σ) : run (raise e : Routine ε σ α) s = (.error e, s) := rfl

@[simp] theorem run_read (f : σ → α) (s : σ) :
    run (read f : Routine ε σ α) s = (.ok (f s), s) := rfl

@[simp] theorem run_write (f : σ → σ) (s : σ) :
    run (write f : Routine ε σ Unit) s = (.ok (), f s) := rfl

@[simp] theorem run_item (f : σ → Except ε α) (s : σ) : run (item f) s = (f s, s) := rfl

@[simp] theorem run_pop (f : σ → Except ε α) (g : σ → σ) (s : σ) :
    run (pop f g) s = (f s, g s) := rfl

@[simp] theorem run_bind (x : Routine ε σ α) (f : α → Routine ε σ β) (s : σ) :
    run (x >>= f) s = match run x s with
      | (.ok a, s') => run (f a) s'
      | (.error e, s') => (.error e, s') := by
  refine (Script.eval_bind _ _ s).trans ?_
  unfold run
  rcases Script.eval x s with ⟨_ | a, s'⟩ <;> rfl

@[simp] theorem run_ite (c : Prop) [Decidable c] (x y : Routine ε σ α) (s : σ) :
    run (if c then x else y) s = if c then run x s else run y s := by
  split <;> rfl

/-- What the framework makes of the outcome. -/
def respond {ρ : Type} (reply : Except ε α → ρ) (x : Routine ε σ α) : Script σ ρ :=
  Script.map reply x

@[simp] theorem eval_respond {ρ : Type} (reply : Except ε α → ρ) (x : Routine ε σ α) (s : σ) :
    (respond reply x).eval s = (reply (run x s).1, (run x s).2) := Script.eval_map reply x s

end Routine

/-- Where a thread stands. -/
inductive Thread (σ ρ : Type) : Type where
  /-- Before its critical section, with the body of the section. -/
  | waiting (body : Script σ ρ)
  /-- In its critical section, with what is left of the body. -/
  | inside (rest : Script σ ρ)
  /-- Running without the lock. -/
  | unlocked (rest : Script σ ρ)
  | returned (r : ρ)

/-- Threads that serve requests `ι` on a shared state `σ` and return replies `ρ`. -/
structure Pool (ι σ ρ : Type) where
  shared : σ
  locked : Bool
  /-- The threads in the order in which they were started, each with the request it serves. -/
  threads : List (ι × Thread σ ρ)
  /-- The threads that have taken the lock, in that order, each with its request.  No step reads
  this. -/
  acquired : List (ℕ × ι)

/-- What the scheduler does next. -/
inductive Move (ι : Type) where
  | start (request : ι)
  | run (thread : ℕ)
  deriving DecidableEq

namespace Pool

variable {ι σ ρ : Type}

/-- No threads yet. -/
def init (s : σ) : Pool ι σ ρ := ⟨s, false, [], []⟩

/-- The pool with thread `t`, which serves `i`, at `th`. -/
def put (p : Pool ι σ ρ) (t : ℕ) (i : ι) (th : Thread σ ρ) : Pool ι σ ρ :=
  { p with threads := p.threads.set t (i, th) }

/-- Thread `t`, which serves `i`, makes its next step: what it returns, if it returns, and the
pool. -/
def advance (p : Pool ι σ ρ) (t : ℕ) (i : ι) : Thread σ ρ → Option ρ × Pool ι σ ρ
  | .waiting body =>
    if p.locked then (none, p)
    else (none, { p.put t i (.inside body) with
      locked := true, acquired := p.acquired ++ [(t, i)] })
  | .inside (.access write next) =>
    (none, { p.put t i (.inside (next p.shared)) with shared := write p.shared })
  | .inside (.done r) => (some r, { p.put t i (.returned r) with locked := false })
  | .unlocked (.access write next) =>
    (none, { p.put t i (.unlocked (next p.shared)) with shared := write p.shared })
  | .unlocked (.done r) => (some r, p.put t i (.returned r))
  | .returned _ => (none, p)

/-- One move; `launch` says how a thread starts on a request. -/
def step (launch : ι → Thread σ ρ) : Move ι → Pool ι σ ρ → Option ρ × Pool ι σ ρ
  | .start i, p => (none, { p with threads := p.threads ++ [(i, launch i)] })
  | .run t, p =>
    match p.threads[t]? with
    | some (i, th) => p.advance t i th
    | none => (none, p)

/-- A thread whose script is the body of a critical section. -/
def underLock (script : ι → Script σ ρ) (i : ι) : Thread σ ρ := .waiting (script i)

/-- A thread that runs the same script without the lock. -/
def withoutLock (script : ι → Script σ ρ) (i : ι) : Thread σ ρ := .unlocked (script i)

/-- The pool that the moves lead to, from state `s` and no threads. -/
def after (launch : ι → Thread σ ρ) (s : σ) (moves : List (Move ι)) : Pool ι σ ρ :=
  (Run.exec (step launch) moves (init s)).2

/-- The reply of thread `t`, once it has returned. -/
def reply? (p : Pool ι σ ρ) (t : ℕ) : Option ρ :=
  match p.threads[t]? with
  | some (_, .returned r) => some r
  | _ => none

end Pool

end Novon
