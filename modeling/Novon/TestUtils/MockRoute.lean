import Mathlib.Data.Seq.Basic
import Novon.TestUtils.Url

/-!
# Mock routes

A `MockRoute` answers requests from its `side_effect` or its `return_value` and records every one
of them.  Next to these two attributes it keeps the iterator that it draws from, in
`_side_effect_iter`.

The iterators that tests create for themselves, such as generators, are objects that several
places may hold.  They live in an `Env`, together with everything that callables read and change.
-/

namespace Novon.TestUtils

open Stream' (Seq)

/-- What a callable makes of a request, or what an iterable yields.  A callable that raises and one
that returns the exception come to the same. -/
inductive Item (R E : Type) where
  | response (response : R)
  | exception (exc : E)

/-- The values of `SideEffect` other than `None`, by what a route can do with them. -/
inductive SideEffect (R E D W : Type) where
  | response (response : R)
  | exception (exc : E)
  | callable (call : Request D → W → Item R E × W)
  /-- An iterable every iterator of which starts with its first item, such as a list. -/
  | collection (items : Seq (Item R E))
  /-- An iterable that is its own iterator, such as a generator. -/
  | iterator (id : ℕ)

/-- An iterator that a route holds: one over a collection, with the items it has left, or one that
a test has created. -/
inductive Iter (R E : Type) where
  | own (left : Seq (Item R E))
  | object (id : ℕ)

/-- The program around the routes. -/
structure Env (R E W : Type) where
  /-- The items that every iterator created by a test has left. -/
  iterators : ℕ → Seq (Item R E)
  /-- What callables read and change. -/
  world : W

/-- How a request ends. -/
inductive Answer (R E : Type) where
  | response (response : R)
  /-- A configured exception. -/
  | raised (exc : E)
  | assertionError (message : String)
  | typeError (message : String)

@[ext] structure MockRoute (R E D W : Type) where
  returnValue : Option R
  sideEffect : Option (SideEffect R E D W)
  calls : List (Request D)
  sideEffectIter : Option (Iter R E)

variable {R E D W : Type}

/-- Raises an exception, returns a response. -/
def Item.answer : Item R E → Answer R E
  | response r => .response r
  | exception exc => .raised exc

/-- What is left of the iterators when the one with the given number has moved on. -/
def Env.advance (env : Env R E W) (id : ℕ) : Env R E W :=
  { env with iterators := Function.update env.iterators id (env.iterators id).tail }

/-- An environment for concrete runs. -/
def Env.sample : Env ℕ String Unit :=
  ⟨fun _ => .ofList [.exception "ReadTimeout", .response 200], ()⟩

/-- `next(it)`, with `none` for `StopIteration`. -/
def Iter.next (env : Env R E W) : Iter R E → Option (Item R E) × Iter R E × Env R E W
  | own left => (left.head, .own left.tail, env)
  | object id => ((env.iterators id).head, .object id, env.advance id)

/-- `iter(side_effect)`, with `none` for the `TypeError` of a value that is not iterable. -/
def SideEffect.iter : SideEffect R E D W → Option (Iter R E)
  | collection items => some (.own items)
  | iterator id => some (.object id)
  | _ => none

namespace MockRoute

/-- `MockRoute()`. -/
def new : MockRoute R E D W := ⟨none, none, [], none⟩

/-- `calls.record(request)`. -/
def record (request : Request D) (route : MockRoute R E D W) : MockRoute R E D W :=
  { route with calls := route.calls ++ [request] }

/-- `reset`. -/
def reset (route : MockRoute R E D W) : MockRoute R E D W :=
  { route with calls := [], sideEffectIter := none }

/-- `route.return_value = value`. -/
def setReturnValue (value : Option R) (route : MockRoute R E D W) : MockRoute R E D W :=
  { route with returnValue := value }

/-- `route.side_effect = value`. -/
def setSideEffect (value : Option (SideEffect R E D W)) (route : MockRoute R E D W) :
    MockRoute R E D W :=
  { route with sideEffect := value }

def notIterable : String := "'Response' object is not iterable"

def exhausted (calls : ℕ) : String :=
  "side_effect exhausted after " ++ toString calls ++ " call(s); no more responses to return"

def unset (lib : UrlLib) (request : Request D) : String :=
  "Route for " ++ request.method ++ " " ++ lib.str request.url ++
    " has no return_value or side_effect set"

/-- What comes of `next`, after so many calls. -/
def yielded (calls : ℕ) : Option (Item R E) → Answer R E
  | some item => item.answer
  | none => .assertionError (exhausted calls)

/-- The last part of `_resolve_side_effect`: takes the next item of the iterator that is held, or
of a new one. -/
def drawNext (sideEffect : SideEffect R E D W) (s : MockRoute R E D W × Env R E W) :
    Answer R E × MockRoute R E D W × Env R E W :=
  match s.1.sideEffectIter.or sideEffect.iter with
  | none => (.typeError notIterable, s)
  | some it =>
    let r := it.next s.2
    (yielded s.1.calls.length r.1, { s.1 with sideEffectIter := some r.2.1 }, r.2.2)

/-- `_resolve_side_effect`. -/
def resolveSideEffect (sideEffect : SideEffect R E D W) (request : Request D)
    (s : MockRoute R E D W × Env R E W) : Answer R E × MockRoute R E D W × Env R E W :=
  match sideEffect with
  | .exception exc => (.raised exc, s)
  | .callable call =>
    let r := call request s.2.world
    (r.1.answer, s.1, { s.2 with world := r.2 })
  | _ => drawNext sideEffect s

/-- `_resolve_response`. -/
def resolveResponse (request : Request D) (s : MockRoute R E D W × Env R E W) :
    Option (Answer R E) × MockRoute R E D W × Env R E W :=
  match s.1.sideEffect with
  | some sideEffect =>
    let r := resolveSideEffect sideEffect request s
    (some r.1, r.2)
  | none => (s.1.returnValue.map .response, s)

/-- What `MockRouter._handle` does with the route that it has found.  The call is recorded before
the response is resolved. -/
def handle (lib : UrlLib) (request : Request D) (s : MockRoute R E D W × Env R E W) :
    Answer R E × MockRoute R E D W × Env R E W :=
  let r := resolveResponse request (s.1.record request, s.2)
  (r.1.getD (.assertionError (unset lib request)), r.2)

/-! ### What a request does to a route -/

variable (lib : UrlLib) (request : Request D) (s : MockRoute R E D W × Env R E W)

/-- Without a side effect the return value is returned. -/
theorem handle_of_none (h : s.1.sideEffect = none) :
    handle lib request s =
      ((s.1.returnValue.map .response).getD (.assertionError (unset lib request)),
        s.1.record request, s.2) := by
  unfold handle resolveResponse
  rw [show (s.1.record request).sideEffect = none from h]
  rfl

theorem handle_of_some {sideEffect : SideEffect R E D W} (h : s.1.sideEffect = some sideEffect) :
    handle lib request s = resolveSideEffect sideEffect request (s.1.record request, s.2) := by
  unfold handle resolveResponse
  rw [show (s.1.record request).sideEffect = some sideEffect from h]
  rfl

/-- An iterable yields the next item of the iterator that is held, or the first one of its own. -/
theorem handle_of_iterable {sideEffect : SideEffect R E D W} {it : Iter R E}
    (h : s.1.sideEffect = some sideEffect) (hit : sideEffect.iter = some it) :
    handle lib request s =
      let r := (s.1.sideEffectIter.getD it).next s.2
      (yielded (s.1.calls.length + 1) r.1,
        { s.1.record request with sideEffectIter := some r.2.1 }, r.2.2) := by
  have hdraw : drawNext sideEffect (s.1.record request, s.2) =
      let r := (s.1.sideEffectIter.getD it).next s.2
      (yielded (s.1.record request).calls.length r.1,
        { s.1.record request with sideEffectIter := some r.2.1 }, r.2.2) := by
    unfold drawNext
    rw [show (s.1.record request).sideEffectIter = s.1.sideEffectIter from rfl, hit]
    cases s.1.sideEffectIter <;> rfl
  have hlength : (s.1.record request).calls.length = s.1.calls.length + 1 := List.length_append
  rw [handle_of_some lib request s h, ← hlength, ← hdraw]
  -- exceptions and callables have no iterator
  cases sideEffect with
  | exception exc => cases hit
  | callable call => cases hit
  | response r => cases hit
  | collection items => rfl
  | iterator id => rfl

/-- A collection goes on with what is left of it. -/
theorem handle_collection {items left : Seq (Item R E)}
    (h : s.1.sideEffect = some (.collection items))
    (hiter : s.1.sideEffectIter.getD (.own items) = .own left) :
    handle lib request s =
      (yielded (s.1.calls.length + 1) left.head,
        { s.1.record request with sideEffectIter := some (.own left.tail) }, s.2) := by
  rw [handle_of_iterable lib request s h rfl, hiter]
  rfl

/-- An iterator of the test moves on by one item. -/
theorem handle_iterator {id : ℕ} (h : s.1.sideEffect = some (.iterator id))
    (hiter : s.1.sideEffectIter.getD (.object id) = .object id) :
    handle lib request s =
      (yielded (s.1.calls.length + 1) (s.2.iterators id).head,
        { s.1.record request with sideEffectIter := some (.object id) }, s.2.advance id) := by
  rw [handle_of_iterable lib request s h rfl, hiter]
  rfl

theorem drawNext_frame (sideEffect : SideEffect R E D W) :
    (drawNext sideEffect s).2.1 =
      { s.1 with sideEffectIter := (drawNext sideEffect s).2.1.sideEffectIter } := by
  unfold drawNext
  cases s.1.sideEffectIter.or sideEffect.iter <;> rfl

theorem resolveSideEffect_frame (sideEffect : SideEffect R E D W) :
    (resolveSideEffect sideEffect request s).2.1 =
      { s.1 with
        sideEffectIter := (resolveSideEffect sideEffect request s).2.1.sideEffectIter } := by
  unfold resolveSideEffect
  cases sideEffect with
  | exception exc => rfl
  | callable call => rfl
  | response r => exact drawNext_frame s _
  | collection items => exact drawNext_frame s _
  | iterator id => exact drawNext_frame s _

/-- A request is recorded, whatever comes of it, and changes nothing of the configuration. -/
theorem handle_frame :
    (handle lib request s).2.1 =
      { s.1.record request with
        sideEffectIter := (handle lib request s).2.1.sideEffectIter } := by
  cases h : s.1.sideEffect with
  | none =>
    rw [handle_of_none lib request s h]
  | some sideEffect =>
    rw [handle_of_some lib request s h]
    exact resolveSideEffect_frame request (s.1.record request, s.2) sideEffect

@[simp] theorem handle_calls : (handle lib request s).2.1.calls = s.1.calls ++ [request] := by
  rw [handle_frame]
  rfl

@[simp] theorem handle_returnValue : (handle lib request s).2.1.returnValue = s.1.returnValue := by
  rw [handle_frame]
  rfl

@[simp] theorem handle_sideEffect : (handle lib request s).2.1.sideEffect = s.1.sideEffect := by
  rw [handle_frame]
  rfl

end MockRoute

end Novon.TestUtils
