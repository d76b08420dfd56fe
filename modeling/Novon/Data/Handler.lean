/-!
# Handlers: computations on shared state that may raise

`Handler ε σ α` runs on a mutable state `σ` and either returns or raises.  An exception does not
roll the state back: what was assigned before the `raise` stays assigned, as in the languages
whose handlers it models.  The `run_*` lemmas execute a handler written in `do` notation.
-/

namespace Novon

/-- A computation on state `σ` that returns an `α` or raises an `ε`. -/
def Handler (ε σ α : Type) : Type := σ → Except ε α × σ

namespace Handler

variable {ε σ α β : Type}

/-- Runs the handler: what it returned or raised, and the state it left behind. -/
def run (x : Handler ε σ α) (s : σ) : Except ε α × σ := x s

instance : Monad (Handler ε σ) where
  pure a := fun s => (.ok a, s)
  bind x f := fun s =>
    match x s with
    | (.ok a, s') => f a s'
    | (.error e, s') => (.error e, s')

def get : Handler ε σ σ := fun s => (.ok s, s)

def modify (f : σ → σ) : Handler ε σ Unit := fun s => (.ok (), f s)

/-- Raises `e`, with the state as it stands. -/
def raise (e : ε) : Handler ε σ α := fun s => (.error e, s)

/-- Returns the value of an expression that may raise. -/
def ofExcept (r : Except ε α) : Handler ε σ α := fun s => (r, s)

/-- Runs `x`, catches what it raises, and returns either. -/
def attempt (x : Handler ε σ α) : Handler ε σ (Except ε α) := fun s => (.ok (x s).1, (x s).2)

@[simp] theorem run_pure (a : α) (s : σ) : run (pure a : Handler ε σ α) s = (.ok a, s) := rfl

@[simp] theorem run_get (s : σ) : run (get : Handler ε σ σ) s = (.ok s, s) := rfl

@[simp] theorem run_modify (f : σ → σ) (s : σ) :
    run (modify f : Handler ε σ Unit) s = (.ok (), f s) := rfl

@[simp] theorem run_raise (e : ε) (s : σ) : run (raise e : Handler ε σ α) s = (.error e, s) := rfl

@[simp] theorem run_ofExcept (r : Except ε α) (s : σ) :
    run (ofExcept r : Handler ε σ α) s = (r, s) := rfl

@[simp] theorem run_attempt (x : Handler ε σ α) (s : σ) :
    run (attempt x) s = (.ok (run x s).1, (run x s).2) := rfl

@[simp] theorem run_bind (x : Handler ε σ α) (f : α → Handler ε σ β) (s : σ) :
    run (x >>= f) s = match run x s with
      | (.ok a, s') => run (f a) s'
      | (.error e, s') => (.error e, s') := rfl

/-- What is made of the value of a handler does not change its state. -/
theorem snd_run_bind_pure (x : Handler ε σ α) (f : α → β) (s : σ) :
    (run (x >>= fun a => pure (f a)) s).2 = (run x s).2 := by
  rw [run_bind]
  rcases run x s with ⟨_ | _, _⟩ <;> rfl

@[simp] theorem run_ite (c : Prop) [Decidable c] (x y : Handler ε σ α) (s : σ) :
    run (if c then x else y) s = if c then run x s else run y s := by
  split <;> rfl

end Handler

end Novon
