import Novon.Data.Run
import Novon.TestUtils.MockRoute

/-!
# What a mock route promises

A route answers as its configuration says on every run in which no request meets a `Response` as
the side effect, an iterator left over from an earlier side effect, or a generator that a reset
could not rewind (`answers_promised`).

`Assigned` follows the assignments, resets and requests without looking at the iterator that the
route holds; `promised` is the answer that it determines.
-/

namespace Novon.TestUtils.MockRoute

open Stream' (Seq)

variable {R E D W : Type}

/-- What can happen to a route.  What callables read may change at any time. -/
inductive Event (R E D W : Type) where
  | request (request : Request D)
  | reset
  | setReturnValue (value : Option R)
  | setSideEffect (value : Option (SideEffect R E D W))
  | elsewhere (world : W)

def step (lib : UrlLib) : Event R E D W → MockRoute R E D W × Env R E W →
    Option (Answer R E) × MockRoute R E D W × Env R E W
  | .request request, s =>
    let r := handle lib request s
    (some r.1, r.2)
  | .reset, s => (none, s.1.reset, s.2)
  | .setReturnValue value, s => (none, s.1.setReturnValue value, s.2)
  | .setSideEffect value, s => (none, s.1.setSideEffect value, s.2)
  | .elsewhere world, s => (none, s.1, { s.2 with world := world })

/-- The items of a side effect at the time of its assignment, if it is iterable. -/
def itemsOf (env : Env R E W) : Option (SideEffect R E D W) → Seq (Item R E)
  | some (.collection items) => items
  | some (.iterator id) => env.iterators id
  | _ => .nil

/-- What the assignments, resets and requests so far amount to. -/
structure Assigned (R E D W : Type) where
  returnValue : Option R
  sideEffect : Option (SideEffect R E D W)
  /-- The items that the side effect had when it was assigned. -/
  source : Seq (Item R E)
  /-- The requests since the assignment of the side effect or the last reset. -/
  count : ℕ
  /-- The requests between the assignment of the side effect and the last reset after it. -/
  before : ℕ
  /-- The requests since the last reset. -/
  calls : ℕ

def Assigned.start : Assigned R E D W := ⟨none, none, .nil, 0, 0, 0⟩

def Assigned.after (env : Env R E W) (a : Assigned R E D W) : Event R E D W → Assigned R E D W
  | .request _ => { a with count := a.count + 1, calls := a.calls + 1 }
  | .reset => { a with count := 0, before := a.before + a.count, calls := 0 }
  | .setReturnValue value => { a with returnValue := value }
  | .setSideEffect value =>
    { a with sideEffect := value, source := itemsOf env value, count := 0, before := 0 }
  | .elsewhere _ => a

/-- The answer that the configuration determines. -/
def promised (lib : UrlLib) (request : Request D) (world : W) (a : Assigned R E D W) :
    Answer R E :=
  match a.sideEffect, a.returnValue with
  | some (.response r), _ => .response r
  | some (.exception exc), _ => .raised exc
  | some (.callable call), _ => (call request world).1.answer
  | some (.collection _), _ => yielded (a.calls + 1) (a.source.get? a.count)
  | some (.iterator _), _ => yielded (a.calls + 1) (a.source.get? a.count)
  | none, some r => .response r
  | none, none => .assertionError (unset lib request)

/-- A route and its environment, with what has been assigned to it. -/
structure Watched (R E D W : Type) where
  route : MockRoute R E D W
  env : Env R E W
  assigned : Assigned R E D W

def Watched.start (env : Env R E W) : Watched R E D W := ⟨.new, env, .start⟩

def watch (lib : UrlLib) (event : Event R E D W) (w : Watched R E D W) :
    Option (Answer R E) × Watched R E D W :=
  let r := step lib event (w.route, w.env)
  (r.1, ⟨r.2.1, r.2.2, w.assigned.after w.env event⟩)

/-- A request is answered as the configuration promises. -/
def AsPromised (lib : UrlLib) : Event R E D W → Watched R E D W → Prop
  | .request request, w =>
    (watch lib (.request request) w).1 = some (promised lib request w.env.world w.assigned)
  | _, _ => True

/-- The route can answer from this side effect as promised. -/
def Ready (w : Watched R E D W) : Option (SideEffect R E D W) → Prop
  | some (.response _) => False
  -- the first request after the assignment finds no iterator of an earlier side effect
  | some (.collection _) => w.assigned.count = 0 → w.route.sideEffectIter = none
  -- what the iterator yielded before a reset makes no difference afterwards
  | some (.iterator id) =>
    (w.assigned.count = 0 → ∀ it, w.route.sideEffectIter = some it → it = .object id) ∧
      w.assigned.source.drop w.assigned.before = w.assigned.source
  | _ => True

/-- Requests come when the route is ready for them. -/
def Orderly : Event R E D W → Watched R E D W → Prop
  | .request _, w => Ready w w.assigned.sideEffect
  | _, _ => True

/-- The route agrees with what has been assigned to it, and its iterator is where the requests have
moved it. -/
structure Agrees (w : Watched R E D W) : Prop where
  returnValue : w.route.returnValue = w.assigned.returnValue
  sideEffect : w.route.sideEffect = w.assigned.sideEffect
  calls : w.route.calls.length = w.assigned.calls
  collection : ∀ items, w.assigned.sideEffect = some (.collection items) →
    w.assigned.source = items ∧
    (0 < w.assigned.count → w.route.sideEffectIter = some (.own (items.drop w.assigned.count)))
  iterator : ∀ id, w.assigned.sideEffect = some (.iterator id) →
    w.env.iterators id = w.assigned.source.drop (w.assigned.before + w.assigned.count) ∧
      (0 < w.assigned.count → w.route.sideEffectIter = some (.object id))

theorem agrees_start (env : Env R E W) : Agrees (Watched.start env : Watched R E D W) where
  returnValue := rfl
  sideEffect := rfl
  calls := rfl
  collection := by
    intro items h
    cases h
  iterator := by
    intro id h
    cases h

/-! ### One request -/

section Request

variable (lib : UrlLib) (request : Request D) {w : Watched R E D W}

/-- A collection is continued where the requests have come to. -/
theorem Agrees.own_left (h : Agrees w) {items : Seq (Item R E)}
    (hside : w.assigned.sideEffect = some (.collection items))
    (hfresh : w.assigned.count = 0 → w.route.sideEffectIter = none) :
    w.route.sideEffectIter.getD (.own items) = .own (items.drop w.assigned.count) := by
  rcases Nat.eq_zero_or_pos w.assigned.count with hzero | hpos
  · rw [hfresh hzero, hzero]
    rfl
  · rw [(h.collection items hside).2 hpos]
    rfl

theorem Agrees.own_object (h : Agrees w) {id : ℕ}
    (hside : w.assigned.sideEffect = some (.iterator id))
    (hfresh : w.assigned.count = 0 → ∀ it, w.route.sideEffectIter = some it → it = .object id) :
    w.route.sideEffectIter.getD (.object id) = .object id := by
  rcases Nat.eq_zero_or_pos w.assigned.count with hzero | hpos
  · cases hit : w.route.sideEffectIter with
    | none => rfl
    | some it => exact hfresh hzero it hit
  · rw [(h.iterator id hside).2 hpos]
    rfl

/-- After a request, the agreement is a matter of the iterator alone. -/
theorem agrees_request (h : Agrees w)
    (hcollection : ∀ items, w.assigned.sideEffect = some (.collection items) →
      (handle lib request (w.route, w.env)).2.1.sideEffectIter =
        some (.own (items.drop (w.assigned.count + 1))))
    (hiterator : ∀ id, w.assigned.sideEffect = some (.iterator id) →
      (handle lib request (w.route, w.env)).2.2.iterators id = (w.env.iterators id).tail ∧
        (handle lib request (w.route, w.env)).2.1.sideEffectIter = some (.object id)) :
    Agrees (watch lib (.request request) w).2 where
  returnValue := (handle_returnValue lib request (w.route, w.env)).trans h.returnValue
  sideEffect := (handle_sideEffect lib request (w.route, w.env)).trans h.sideEffect
  calls := by
    show (handle lib request (w.route, w.env)).2.1.calls.length = w.assigned.calls + 1
    rw [handle_calls, List.length_append, h.calls]
    rfl
  collection := fun items hside => ⟨(h.collection items hside).1, fun _ => hcollection items hside⟩
  iterator := fun id hside => by
    obtain ⟨htail, hiter⟩ := hiterator id hside
    refine ⟨htail.trans ?_, fun _ => hiter⟩
    rw [(h.iterator id hside).1]
    rfl

/-- **Step lemma** for a request. -/
theorem request_spec (h : Agrees w) (horderly : Orderly (.request request) w) :
    AsPromised lib (.request request) w ∧ Agrees (watch lib (.request request) w).2 := by
  show some (handle lib request (w.route, w.env)).1 =
    some (promised lib request w.env.world w.assigned) ∧ _
  rw [Option.some.injEq]
  have hready : Ready w w.assigned.sideEffect := horderly
  unfold promised
  have hcode := h.sideEffect
  cases hside : w.assigned.sideEffect with
  | none =>
    refine ⟨?_, agrees_request lib request h (by simp [hside]) (by simp [hside])⟩
    rw [handle_of_none lib request (w.route, w.env) (hcode.trans hside), h.returnValue]
    cases w.assigned.returnValue <;> rfl
  | some sideEffect =>
    rw [hside] at hcode hready
    cases sideEffect with
    | response r => exact hready.elim
    | exception exc =>
      refine ⟨?_, agrees_request lib request h (by simp [hside]) (by simp [hside])⟩
      rw [handle_of_some lib request (w.route, w.env) hcode]
      rfl
    | callable call =>
      refine ⟨?_, agrees_request lib request h (by simp [hside]) (by simp [hside])⟩
      rw [handle_of_some lib request (w.route, w.env) hcode]
      rfl
    | collection items =>
      have hrun := handle_collection lib request (w.route, w.env) hcode (h.own_left hside hready)
      refine ⟨?_, agrees_request lib request h ?_ (by simp [hside])⟩
      · rw [hrun, h.calls, (h.collection items hside).1, Seq.head_dropn]
      · intro items' hside'
        cases hside.symm.trans hside'
        rw [hrun]
        rfl
    | iterator id =>
      have hrun := handle_iterator lib request (w.route, w.env) hcode (h.own_object hside hready.1)
      refine ⟨?_, agrees_request lib request h (by simp [hside]) ?_⟩
      · -- the items before the last reset are dropped and leave the source as it was
        have hhead : (w.env.iterators id).head = w.assigned.source.get? w.assigned.count := by
          rw [(h.iterator id hside).1, Seq.dropn_add, hready.2, Seq.head_dropn]
        rw [hrun, h.calls, hhead]
      · intro id' hside'
        cases hside.symm.trans hside'
        rw [hrun]
        exact ⟨Function.update_self _ _ _, rfl⟩

end Request

/-! ### Runs -/

variable (lib : UrlLib)

theorem agrees_reset {w : Watched R E D W} (h : Agrees w) : Agrees (watch lib .reset w).2 where
  returnValue := h.returnValue
  sideEffect := h.sideEffect
  calls := rfl
  collection := fun items hside =>
    ⟨(h.collection items hside).1, fun hpos => absurd hpos (Nat.lt_irrefl 0)⟩
  iterator := fun id hside =>
    ⟨(h.iterator id hside).1, fun hpos => absurd hpos (Nat.lt_irrefl 0)⟩

theorem agrees_setSideEffect {w : Watched R E D W} (h : Agrees w)
    (value : Option (SideEffect R E D W)) : Agrees (watch lib (.setSideEffect value) w).2 where
  returnValue := h.returnValue
  sideEffect := rfl
  calls := h.calls
  collection := by
    intro items hside
    have hvalue : value = some (.collection items) := hside
    subst hvalue
    exact ⟨rfl, fun hpos => absurd hpos (Nat.lt_irrefl 0)⟩
  iterator := by
    intro id hside
    have hvalue : value = some (.iterator id) := hside
    subst hvalue
    exact ⟨rfl, fun hpos => absurd hpos (Nat.lt_irrefl 0)⟩

/-- **Step lemma**: an orderly step is answered as promised and keeps the agreement. -/
theorem watch_spec (event : Event R E D W) (w : Watched R E D W) (h : Agrees w)
    (horderly : Orderly event w) : AsPromised lib event w ∧ Agrees (watch lib event w).2 := by
  cases event with
  | request request => exact request_spec lib request h horderly
  | reset => exact ⟨trivial, agrees_reset lib h⟩
  | setReturnValue value => exact ⟨trivial, rfl, h.sideEffect, h.calls, h.collection, h.iterator⟩
  | setSideEffect value => exact ⟨trivial, agrees_setSideEffect lib h value⟩
  | elsewhere world =>
    exact ⟨trivial, h.returnValue, h.sideEffect, h.calls, h.collection, h.iterator⟩

/-- **A route answers as it is configured on every orderly run.** -/
theorem answers_promised (env : Env R E W) (events : List (Event R E D W))
    (h : Run.Always (watch lib) Orderly events (.start env)) :
    Run.Always (watch lib) (AsPromised lib) events (.start env) :=
  Run.always_of_invariant (watch lib) Agrees (fun event w => watch_spec lib event w)
    (agrees_start env) h

/-- A list is exhausted, started again by a reset, and followed after another one by a generator. -/
theorem answers_promised_sample :
    Run.Always (watch UrlLib.sample) (AsPromised UrlLib.sample)
      [.setSideEffect (some (.collection (.ofList [.exception "ConnectError", .response 201]))),
        .request .sample, .request .sample, .request .sample, .reset, .request .sample, .reset,
        .setSideEffect (some (.iterator 0)), .request .sample, .request .sample]
      (.start .sample : Watched ℕ String Unit Unit) := by
  apply answers_promised
  refine ⟨trivial, ?_, ?_, ?_, trivial, ?_, trivial, trivial, ?_, ?_, trivial⟩
  · exact fun _ => rfl
  · exact fun h => absurd h (Nat.succ_ne_zero 0)
  · exact fun h => absurd h (Nat.succ_ne_zero 1)
  · exact fun _ => rfl
  · exact ⟨fun _ it h => (nomatch h), rfl⟩
  · exact ⟨fun h => absurd h (Nat.succ_ne_zero 0), rfl⟩

/-- A list that is assigned after another one has been drawn from does not come to bear. -/
theorem not_answers_promised :
    ¬ ∀ (env : Env ℕ String Unit) (events : List (Event ℕ String Unit Unit)),
      Run.Always (watch UrlLib.sample) (AsPromised UrlLib.sample) events (.start env) := by
  intro h
  obtain ⟨-, -, -, hlast, -⟩ := h .sample
    [.setSideEffect (some (.collection (.ofList [.response 503, .response 200]))),
      .request .sample, .setSideEffect (some (.collection (.ofList [.response 404]))),
      .request .sample]
  have hanswers : some (Answer.response 200 : Answer ℕ String) = some (.response 404) := hlast
  cases hanswers

end Novon.TestUtils.MockRoute
