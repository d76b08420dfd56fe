import Novon.TestUtils.MockRouter

/-!
# What a reset replays

After a history of requests and a reset, a router goes on as it did when it was built, exactly when
no iterator of a test has been left with other items than it had (`replay_iff`).

A history of requests leaves the configuration alone and moves each iterator on by as many items
as requests have been answered from it (`After`), so a reset restores all but these iterators
(`reset_after`).  A single request, made again and again, tells what an iterator holds (`probe`).
-/

namespace Novon.TestUtils

open Stream' (Seq)

variable {R E D W : Type}

def SideEffect.iteratorId : SideEffect R E D W → Option ℕ
  | iterator id => some id
  | _ => none

/-- The program with callables reading something else. -/
def Env.inWorld (world : W) (env : Env R E W) : Env R E W := { env with world := world }

namespace MockRoute

/-- The iterator of the test that the route draws from. -/
def drawsFrom (route : MockRoute R E D W) : Option ℕ :=
  route.sideEffect.bind SideEffect.iteratorId

/-- An iterator that the route holds belongs to its side effect. -/
def Steady (route : MockRoute R E D W) : Prop :=
  route.sideEffectIter = none ∨
  (∃ left items, route.sideEffectIter = some (.own left) ∧
    route.sideEffect = some (.collection items)) ∨
  ∃ id, route.sideEffectIter = some (.object id) ∧ route.sideEffect = some (.iterator id)

variable {route : MockRoute R E D W}

theorem drawsFrom_eq_some_iff {id : ℕ} :
    route.drawsFrom = some id ↔ route.sideEffect = some (.iterator id) := by
  unfold drawsFrom
  rw [Option.bind_eq_some_iff]
  constructor
  · rintro ⟨sideEffect, hcode, hid⟩
    cases sideEffect with
    | iterator id' =>
      cases hid
      exact hcode
    | _ => cases hid
  · exact fun h => ⟨_, h, rfl⟩

theorem Steady.left (h : Steady route) {items : Seq (Item R E)}
    (hside : route.sideEffect = some (.collection items)) :
    ∃ left, route.sideEffectIter.getD (.own items) = .own left := by
  rcases h with hnone | ⟨left, _, hleft, _⟩ | ⟨id, _, hcode⟩
  · rw [hnone]
    exact ⟨items, rfl⟩
  · rw [hleft]
    exact ⟨left, rfl⟩
  · cases hside.symm.trans hcode

theorem Steady.object (h : Steady route) {id : ℕ}
    (hside : route.sideEffect = some (.iterator id)) :
    route.sideEffectIter.getD (.object id) = .object id := by
  rcases h with hnone | ⟨_, _, _, hcode⟩ | ⟨id', hobject, hcode⟩
  · rw [hnone]
    rfl
  · cases hside.symm.trans hcode
  · cases hside.symm.trans hcode
    rw [hobject]
    rfl

/-- A route holds no iterator for what is not iterable. -/
theorem Steady.eq_none (h : Steady route)
    (hside : ∀ sideEffect, route.sideEffect = some sideEffect → sideEffect.iter = none) :
    route.sideEffectIter = none := by
  rcases h with hnone | ⟨_, items, _, hcode⟩ | ⟨id, _, hcode⟩
  · exact hnone
  · cases hside _ hcode
  · cases hside _ hcode

section Handle

variable (lib : UrlLib) (request : Request D) {s : MockRoute R E D W × Env R E W}

/-- Without an iterable nothing but the call is recorded. -/
theorem handle_of_not_iterable (hiter : s.1.sideEffectIter = none)
    (hside : ∀ sideEffect, s.1.sideEffect = some sideEffect → sideEffect.iter = none) :
    (handle lib request s).2.1 = s.1.record request ∧
      (handle lib request s).2.2.iterators = s.2.iterators := by
  cases hcode : s.1.sideEffect with
  | none =>
    rw [handle_of_none lib request s hcode]
    exact ⟨rfl, rfl⟩
  | some sideEffect =>
    rw [handle_of_some lib request s hcode]
    cases sideEffect with
    | exception exc => exact ⟨rfl, rfl⟩
    | callable call => exact ⟨rfl, rfl⟩
    | response r =>
      unfold resolveSideEffect drawNext
      rw [show (s.1.record request).sideEffectIter = none from hiter]
      exact ⟨rfl, rfl⟩
    | collection items => cases hside _ hcode
    | iterator id => cases hside _ hcode

/-- **Step lemma** for a route: a request takes one item of the iterator that the route draws
from. -/
theorem handle_steady (h : Steady s.1) :
    Steady (handle lib request s).2.1 ∧
      ∀ id, (handle lib request s).2.2.iterators id =
        (s.2.iterators id).drop (if s.1.drawsFrom = some id then 1 else 0) := by
  by_cases hside : ∀ sideEffect, s.1.sideEffect = some sideEffect → sideEffect.iter = none
  · have hiter := h.eq_none hside
    obtain ⟨hroute, hiterators⟩ := handle_of_not_iterable lib request hiter hside
    have hdraws : s.1.drawsFrom = none := by
      unfold drawsFrom
      cases hcode : s.1.sideEffect with
      | none => rfl
      | some sideEffect =>
        cases sideEffect with
        | iterator id => cases hside _ hcode
        | _ => rfl
    rw [hroute, hiterators, hdraws]
    exact ⟨.inl hiter, fun id => rfl⟩
  · simp only [not_forall] at hside
    obtain ⟨sideEffect, hcode, hiterable⟩ := hside
    unfold drawsFrom
    cases sideEffect with
    | collection items =>
      obtain ⟨left, hleft⟩ := h.left hcode
      rw [handle_collection lib request s hcode hleft, hcode]
      exact ⟨.inr (.inl ⟨_, items, rfl, hcode⟩), fun id => rfl⟩
    | iterator id =>
      rw [handle_iterator lib request s hcode (h.object hcode), hcode]
      refine ⟨.inr (.inr ⟨id, rfl, hcode⟩), fun id' => ?_⟩
      show Function.update s.2.iterators id (s.2.iterators id).tail id' =
        (s.2.iterators id').drop (if some id = some id' then 1 else 0)
      by_cases hid : id' = id
      · rw [hid, Function.update_self, if_pos rfl]
        rfl
      · rw [Function.update_of_ne hid, if_neg fun heq => hid (Option.some.inj heq).symm]
        rfl
    | response r => exact absurd rfl hiterable
    | exception exc => exact absurd rfl hiterable
    | callable call => exact absurd rfl hiterable

/-- Callables depend on their request only. -/
def RequestOnly (route : MockRoute R E D W) : Prop :=
  ∀ call, route.sideEffect = some (.callable call) →
    ∀ (request : Request D) (world world' : W), (call request world).1 = (call request world').1

theorem drawNext_inWorld (sideEffect : SideEffect R E D W) (route : MockRoute R E D W)
    (env : Env R E W) (world : W) :
    let r := drawNext sideEffect (route, env)
    drawNext sideEffect (route, env.inWorld world) = (r.1, r.2.1, r.2.2.inWorld world) := by
  unfold drawNext
  cases route.sideEffectIter.or sideEffect.iter with
  | none => rfl
  | some it => cases it <;> rfl

/-- A route answers in another world as in this one. -/
theorem handle_inWorld (route : MockRoute R E D W) (env : Env R E W) (world : W)
    (h : RequestOnly route) :
    let r := handle lib request (route, env)
    ∃ world', handle lib request (route, env.inWorld world) =
      (r.1, r.2.1, r.2.2.inWorld world') := by
  cases hcode : route.sideEffect with
  | none =>
    rw [handle_of_none lib request (route, env) hcode,
      handle_of_none lib request (route, env.inWorld world) hcode]
    exact ⟨world, rfl⟩
  | some sideEffect =>
    rw [handle_of_some lib request (route, env) hcode,
      handle_of_some lib request (route, env.inWorld world) hcode]
    cases sideEffect with
    | callable call =>
      have hanswer := h call hcode request world env.world
      refine ⟨(call request world).2, ?_⟩
      show ((call request world).1.answer, _, _) = ((call request env.world).1.answer, _, _)
      rw [hanswer]
      rfl
    | exception exc => exact ⟨world, rfl⟩
    | response r => exact ⟨world, drawNext_inWorld _ _ _ _⟩
    | collection items => exact ⟨world, drawNext_inWorld _ _ _ _⟩
    | iterator id => exact ⟨world, drawNext_inWorld _ _ _ _⟩

end Handle

end MockRoute

namespace MockRouter

variable (lib : UrlLib)

/-- The iterator of the test from which the request is answered. -/
def drawsFrom (s : MockRouter R E D W) (request : Request D) : Option ℕ :=
  (s.find request).bind fun ref => (s.objects ref).drawsFrom

/-- How many of the requests are answered from the iterator. -/
def taken (s : MockRouter R E D W) (id : ℕ) (requests : List (Request D)) : ℕ :=
  requests.countP fun request => s.drawsFrom request = some id

/-- No route has been called or holds an iterator. -/
def Idle (s : MockRouter R E D W) : Prop :=
  ∀ ref, (s.objects ref).calls = [] ∧ (s.objects ref).sideEffectIter = none

/-- The state of an idle router after a history of requests. -/
structure After (s : MockRouter R E D W) (history : List (Request D)) (t : MockRouter R E D W) :
    Prop where
  routes : t.routes = s.routes
  made : t.made = s.made
  returnValue : ∀ ref, (t.objects ref).returnValue = (s.objects ref).returnValue
  sideEffect : ∀ ref, (t.objects ref).sideEffect = (s.objects ref).sideEffect
  unregistered : ∀ ref, ref ∉ s.routes.values → t.objects ref = s.objects ref
  calls : ∀ ref, (t.objects ref).calls =
    history.filter fun request => s.find request = some ref
  steady : ∀ ref, (t.objects ref).Steady
  iterators : ∀ id, t.env.iterators id = (s.env.iterators id).drop (taken s id history)

variable {lib} {s t : MockRouter R E D W} {history : List (Request D)}

theorem After.nil (h : Idle s) : After s [] s where
  routes := rfl
  made := rfl
  returnValue := fun _ => rfl
  sideEffect := fun _ => rfl
  unregistered := fun _ _ => rfl
  calls := fun ref => (h ref).1
  steady := fun ref => .inl (h ref).2
  iterators := fun _ => rfl

theorem After.find (h : After s history t) (request : Request D) :
    t.find request = s.find request := by
  unfold MockRouter.find
  rw [h.routes]

theorem taken_concat (s : MockRouter R E D W) (id : ℕ) (history : List (Request D))
    (request : Request D) :
    taken s id (history ++ [request]) =
      taken s id history + if s.drawsFrom request = some id then 1 else 0 := by
  unfold taken
  rw [List.countP_append, List.countP_singleton]
  simp only [decide_eq_true_eq]

theorem drawsFrom_of_find {request : Request D} {ref : ℕ} (h : s.find request = some ref) :
    s.drawsFrom request = (s.objects ref).drawsFrom := by
  unfold drawsFrom
  rw [h]
  rfl

/-- **Step lemma** for a router. -/
theorem After.handle (h : After s history t) (request : Request D) :
    After s (history ++ [request]) (t.handle lib request).2 := by
  have hfind := h.find request
  cases hs : s.find request with
  | none =>
    rw [hs] at hfind
    rw [handle_of_find_none lib t hfind]
    refine { h with calls := fun ref => ?_, iterators := fun id => ?_ }
    · rw [List.filter_append, ← h.calls ref]
      simp [hs]
    · rw [h.iterators id]
      simp [taken, drawsFrom, hs]
  | some ref =>
    rw [hs] at hfind
    rw [handle_of_find lib t hfind]
    have hregistered : ref ∈ s.routes.values := Dict.mem_values_iff.mpr ⟨_, hs⟩
    obtain ⟨hsteady, hiterators⟩ :=
      MockRoute.handle_steady lib request (s := (t.objects ref, t.env)) (h.steady ref)
    have hdraws : (t.objects ref).drawsFrom = s.drawsFrom request := by
      rw [drawsFrom_of_find hs, MockRoute.drawsFrom, h.sideEffect ref]
      rfl
    refine ⟨h.routes, h.made, fun ref' => ?_, fun ref' => ?_, fun ref' hmem => ?_, fun ref' => ?_,
      fun ref' => ?_, fun id => ?_⟩
    · rw [handOver_objects]
      split
      · next hsame => rw [MockRoute.handle_returnValue, hsame, h.returnValue ref]
      · exact h.returnValue ref'
    · rw [handOver_objects]
      split
      · next hsame => rw [MockRoute.handle_sideEffect, hsame, h.sideEffect ref]
      · exact h.sideEffect ref'
    · have hother : ref' ≠ ref := fun heq => hmem (heq ▸ hregistered)
      rw [handOver_of_ne lib t hother, h.unregistered ref' hmem]
    · rw [List.filter_append, ← h.calls ref', handOver_objects]
      split
      · next hsame => simp [hs, hsame]
      · next hother => simp [hs, Ne.symm hother]
    · rw [handOver_objects]
      split
      · exact hsteady
      · exact h.steady ref'
    · rw [taken_concat, Seq.dropn_add, ← h.iterators id, ← hdraws]
      exact hiterators id

/-- **Run lemma.** -/
theorem after_exec (lib : UrlLib) (h : Idle s) (history : List (Request D)) :
    After s history (Run.exec (handle lib) history s).2 := by
  induction history using List.reverseRecOn with
  | nil => exact .nil h
  | append_singleton history request ih =>
    rw [Run.exec_concat]
    exact ih.handle request

/-- **A reset restores everything but the iterators of the test** and what callables change. -/
theorem reset_after (h : After s history t) (hidle : Idle s) :
    t.reset = { s with env := t.env } := by
  have hobjects : t.reset.objects = s.objects := by
    funext ref
    rw [reset_objects, h.routes]
    split
    · exact MockRoute.ext (h.returnValue ref) (h.sideEffect ref) (hidle ref).1.symm
        (hidle ref).2.symm
    · next hmem => exact h.unregistered ref hmem
  apply MockRouter.ext
  · rw [reset_routes, h.routes]
  · exact hobjects
  · rw [reset_made, h.made]
  · exact reset_env t

/-! ### Callables that depend on their request -/

/-- The router in a program where callables read something else. -/
def inWorld (world : W) (s : MockRouter R E D W) : MockRouter R E D W :=
  { s with env := s.env.inWorld world }

/-- The callables of the registered routes depend on their request only. -/
def RequestOnly (s : MockRouter R E D W) : Prop :=
  ∀ ref ∈ s.routes.values, (s.objects ref).RequestOnly

theorem handle_sideEffect (request : Request D) (s : MockRouter R E D W) (ref : ℕ) :
    ((s.handle lib request).2.objects ref).sideEffect = (s.objects ref).sideEffect := by
  cases hfind : s.find request with
  | none => rw [handle_of_find_none lib s hfind]
  | some ref' =>
    rw [handle_of_find lib s hfind, handOver_objects]
    split
    · next hsame => rw [MockRoute.handle_sideEffect, hsame]
    · rfl

theorem RequestOnly.handle (h : RequestOnly s) (request : Request D) :
    RequestOnly (s.handle lib request).2 := by
  intro ref hmem call hcode
  rw [handle_routes] at hmem
  rw [handle_sideEffect] at hcode
  exact h ref hmem call hcode

/-- **Step lemma**: callables apart, a request does not depend on the world. -/
theorem handle_inWorld (lib : UrlLib) (h : RequestOnly s) (request : Request D) (world : W) :
    ∃ world', (s.inWorld world).handle lib request =
      ((s.handle lib request).1, (s.handle lib request).2.inWorld world') := by
  cases hfind : s.find request with
  | none =>
    rw [handle_of_find_none lib s hfind, handle_of_find_none lib (s.inWorld world) hfind]
    exact ⟨world, rfl⟩
  | some ref =>
    have hmem : ref ∈ s.routes.values := Dict.mem_values_iff.mpr ⟨_, hfind⟩
    obtain ⟨world', hroute⟩ :=
      MockRoute.handle_inWorld lib request (s.objects ref) s.env world (h ref hmem)
    rw [handle_of_find lib s hfind, handle_of_find lib (s.inWorld world) hfind]
    refine ⟨world', ?_⟩
    have hobject : ((s.inWorld world).objects ref, (s.inWorld world).env) =
      (s.objects ref, s.env.inWorld world) := rfl
    unfold handOver
    rw [hobject, hroute]
    rfl

/-! ### Observations -/

/-- The calls of every registered route. -/
def logs (s : MockRouter R E D W) : Key → Option (List (Request D)) :=
  fun key => (s.routes.get? key).map fun ref => (s.objects ref).calls

/-- What a test sees of a sequence of requests: the answers, and the logs at the end. -/
def observed (lib : UrlLib) (requests : List (Request D)) (s : MockRouter R E D W) :
    List (Answer R E) × (Key → Option (List (Request D))) :=
  ((Run.exec (handle lib) requests s).1, logs (Run.exec (handle lib) requests s).2)

theorem observed_inWorld (h : RequestOnly s) (requests : List (Request D)) (world : W) :
    observed lib requests (s.inWorld world) = observed lib requests s := by
  obtain ⟨hanswers, -, world', hstate⟩ := Run.exec_simulation (handle lib) (handle lib)
    (fun _ => True) (fun _ s s' => RequestOnly s ∧ ∃ world, s' = s.inWorld world) s
    (s.inWorld world) (fun _ _ _ => trivial) ⟨h, world, rfl⟩
    (by
      rintro _ request t _ _ ⟨ht, world, rfl⟩
      obtain ⟨world', hhandle⟩ := handle_inWorld lib ht request world
      rw [hhandle]
      exact ⟨rfl, ht.handle request, world', rfl⟩)
    requests trivial
  unfold observed
  rw [hstate, ← hanswers]
  rfl

/-- Made again and again, one request draws the items of its iterator one after the other. -/
theorem probe (h : Idle s) {request : Request D} {id : ℕ}
    (hdraws : s.drawsFrom request = some id) (n : ℕ) :
    (handle lib request (Run.exec (handle lib) (List.replicate n request) s).2).1 =
      MockRoute.yielded (n + 1) ((s.env.iterators id).get? n) := by
  have hafter := after_exec lib h (List.replicate n request)
  set t := (Run.exec (handle lib) (List.replicate n request) s).2
  obtain ⟨ref, hfind, hroute⟩ := Option.bind_eq_some_iff.mp hdraws
  have hcode : (t.objects ref).sideEffect = some (.iterator id) := by
    rw [hafter.sideEffect ref]
    exact MockRoute.drawsFrom_eq_some_iff.mp hroute
  have hcalls : (t.objects ref).calls.length = n := by
    rw [hafter.calls ref, List.filter_replicate, if_pos (by simpa using hfind),
      List.length_replicate]
  have hitems : t.env.iterators id = (s.env.iterators id).drop n := by
    rw [hafter.iterators id, taken, List.countP_replicate, if_pos (by simpa using hdraws)]
  have hobject := (hafter.steady ref).object hcode
  rw [handle_of_find lib t ((hafter.find request).trans hfind), handOver,
    MockRoute.handle_iterator lib request (t.objects ref, t.env) hcode hobject]
  show MockRoute.yielded ((t.objects ref).calls.length + 1) (t.env.iterators id).head = _
  rw [hcalls, hitems, Seq.head_dropn]

theorem yielded_injective (n : ℕ) :
    Function.Injective (MockRoute.yielded n : Option (Item R E) → Answer R E) := by
  intro a b h
  cases a with
  | none =>
    cases b with
    | none => rfl
    | some b => cases b <;> cases h
  | some a =>
    cases b with
    | none => cases a <;> cases h
    | some b => cases a <;> cases b <;> cases h <;> rfl

/-- Requests see whether an iterator has the same items in two routers that are otherwise equal. -/
theorem iterators_eq_of_observed (h : Idle s) {env : Env R E W} {request : Request D} {id : ℕ}
    (hdraws : s.drawsFrom request = some id)
    (hsame : ∀ further, observed lib further { s with env := env } = observed lib further s) :
    env.iterators id = s.env.iterators id := by
  apply Seq.ext
  intro n
  have hanswers := congrArg Prod.fst (hsame (List.replicate n request ++ [request]))
  simp only [observed, Run.exec_concat] at hanswers
  have hlast := List.head_eq_of_cons_eq (List.append_inj' hanswers rfl).2
  have henv : Idle { s with env := env } := h
  rw [probe h hdraws n, probe henv hdraws n] at hlast
  exact yielded_injective (n + 1) hlast

/-! ### Setting up -/

/-- What is known of a router before its first request. -/
structure SetUp (env : Env R E W) (s : MockRouter R E D W) : Prop where
  idle : Idle s
  env : s.env = env

theorem idle_update {ref : ℕ} {f : MockRoute R E D W → MockRoute R E D W} (h : Idle s)
    (hf : ∀ route, route.calls = [] ∧ route.sideEffectIter = none →
      (f route).calls = [] ∧ (f route).sideEffectIter = none) : Idle (s.update ref f) := by
  intro ref'
  rw [update_objects]
  split
  · exact hf _ (h ref')
  · exact h ref'

theorem SetUp.step {env : Env R E W} (h : SetUp env s) (event : Event R E D W)
    (hevent : ∀ request, event ≠ .request request) : SetUp env (step lib event s).2 := by
  cases event with
  | route method url =>
    show SetUp env (s.route method url).2
    cases hfind : s.routes.get? (routeKey method url) with
    | some ref => rwa [route_of_registered s hfind]
    | none =>
      rw [route_of_unregistered s hfind]
      refine ⟨fun ref => ?_, h.env⟩
      rw [register_objects]
      split
      · exact ⟨rfl, rfl⟩
      · exact h.idle ref
  | setReturnValue ref value => exact ⟨idle_update h.idle fun _ hroute => hroute, h.env⟩
  | setSideEffect ref value => exact ⟨idle_update h.idle fun _ hroute => hroute, h.env⟩
  | request request => exact absurd rfl (hevent request)
  | resetRoute ref => exact ⟨idle_update h.idle fun _ _ => ⟨rfl, rfl⟩, h.env⟩
  | reset =>
    refine ⟨fun ref => ?_, (reset_env s).trans h.env⟩
    show (s.reset.objects ref).calls = [] ∧ (s.reset.objects ref).sideEffectIter = none
    rw [reset_objects]
    split
    · exact ⟨rfl, rfl⟩
    · exact h.idle ref
  | clear => exact ⟨h.idle, h.env⟩

theorem setUp_exec (env : Env R E W) {setup : List (Event R E D W)}
    (h : ∀ event ∈ setup, ∀ request, event ≠ .request request) :
    SetUp env (Run.exec (MockRouter.step lib) setup (new env)).2 :=
  Run.exec_invariant (MockRouter.step lib)
    (fun events => ∀ event ∈ events, ∀ request, event ≠ .request request) (fun _ => SetUp env)
    (new env) (fun events event h e he => h e (List.mem_append_left _ he))
    ⟨fun _ => ⟨rfl, rfl⟩, rfl⟩
    (fun events event s hevents hs => hs.step event (hevents event (by simp))) setup h

/-- **A reset is a replay point** exactly when the history has left every iterator of the tests
with the items that it had: for a router that has been set up without requests, and whose callables
depend on their request only. -/
theorem replay_iff (lib : UrlLib) (env : Env R E W) (setup : List (Event R E D W))
    (history : List (Request D))
    (hsetup : ∀ event ∈ setup, ∀ request, event ≠ .request request)
    (hcallables : RequestOnly (Run.exec (step lib) setup (new env)).2) :
    let fresh := (Run.exec (step lib) setup (new env)).2
    (∀ further, observed lib further (Run.exec (handle lib) history fresh).2.reset =
      observed lib further fresh) ↔
    ∀ id, (env.iterators id).drop (taken fresh id history) = env.iterators id := by
  intro fresh
  obtain ⟨hidle, henv⟩ : SetUp env fresh := setUp_exec env hsetup
  have hafter := after_exec lib hidle history
  set used := (Run.exec (handle lib) history fresh).2
  have hiterators : ∀ id, used.env.iterators id =
      (env.iterators id).drop (taken fresh id history) := henv ▸ hafter.iterators
  rw [reset_after hafter hidle]
  constructor
  · intro hsame id
    rcases Nat.eq_zero_or_pos (taken fresh id history) with hzero | hpos
    · rw [hzero]
      rfl
    · -- a request of the history that draws from the iterator is the one to observe it with
      obtain ⟨request, -, hdraws⟩ := List.countP_pos_iff.mp hpos
      have hitems := iterators_eq_of_observed hidle (by simpa using hdraws) hsame
      rw [← hiterators id, hitems, henv]
  · intro hitems further
    have hsame : used.env.iterators = fresh.env.iterators := by
      funext id
      rw [hiterators id, hitems id, henv]
    have hworld : used.env = fresh.env.inWorld used.env.world := by
      unfold Env.inWorld
      rw [← hsame]
    rw [hworld]
    exact observed_inWorld hcallables further used.env.world

/-- Two routes for concrete runs: one with a callable that counts its calls in the world, one with
a list. -/
def callableAndList : List (Event ℕ String Unit ℕ) :=
  [.route "GET" Request.sample.url,
    .setSideEffect 0 (some (.callable fun request world =>
      (.response (if request.method = "GET" then 200 else 405), world + 1))),
    .route "DELETE" Request.sample.url,
    .setSideEffect 1 (some (.collection (.ofList [.exception "ReadTimeout", .response 204])))]

/-- Both are replayed, the list from its beginning. -/
theorem replay_iff_callableAndList :
    let fresh := (Run.exec (step .sample) callableAndList (new ⟨fun _ => .nil, 0⟩)).2
    let history := [Request.sample, { Request.sample with method := "DELETE" }]
    ∀ further, observed .sample further (Run.exec (handle .sample) history fresh).2.reset =
      observed .sample further fresh := by
  intro fresh history
  have hcallables : RequestOnly fresh := by
    have hvalues : fresh.routes.values = [0, 1] := by decide
    intro ref hmem call hcode request world world'
    rw [hvalues, List.mem_pair] at hmem
    rcases hmem with rfl | rfl
    · cases hcode
      rfl
    · cases hcode
  have hsetup : ∀ event ∈ callableAndList, ∀ request, event ≠ .request request := by
    simp [callableAndList]
  refine (replay_iff .sample ⟨fun _ => .nil, 0⟩ callableAndList history hsetup hcallables).mpr ?_
  intro id
  -- neither request is answered from a generator
  have hnone : taken fresh id history = 0 := by
    have hdraws : history.map fresh.drawsFrom = [none, none] := by decide
    simp only [history, List.map_cons, List.map_nil, List.cons.injEq, and_true] at hdraws
    simp [taken, history, hdraws]
  rw [hnone]
  rfl

/-- A generator goes on after a reset where the requests before it have left it. -/
theorem not_replay_generator :
    let setup : List (Event ℕ String Unit Unit) :=
      [.route "GET" Request.sample.url, .setSideEffect 0 (some (.iterator 0))]
    let fresh := (Run.exec (step .sample) setup (new .sample)).2
    ¬ ∀ further, observed .sample further
        (Run.exec (handle .sample) [Request.sample] fresh).2.reset =
      observed .sample further fresh := by
  intro setup fresh hsame
  obtain ⟨hidle, henv⟩ : SetUp .sample fresh := setUp_exec .sample (by simp [setup])
  have hafter := after_exec .sample hidle [Request.sample]
  have hfind : fresh.find Request.sample = some 0 := by
    show ((new .sample : MockRouter ℕ String Unit Unit).register
      Request.sample.key).routes.get? Request.sample.key = some 0
    rw [register_get?, if_pos rfl]
    rfl
  have hdraws : fresh.drawsFrom Request.sample = some 0 := by
    rw [drawsFrom_of_find hfind]
    rfl
  rw [reset_after hafter hidle] at hsame
  have hitems := iterators_eq_of_observed hidle hdraws hsame
  rw [hafter.iterators 0, taken, List.countP_singleton, if_pos (by simpa using hdraws),
    henv] at hitems
  have hfirst := congrArg (fun items => items.get? 0) hitems
  have hne : some (Item.response 200 : Item ℕ String) = some (.exception "ReadTimeout") := hfirst
  cases hne

end MockRouter

end Novon.TestUtils
