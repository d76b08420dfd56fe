import Novon.Core.Equiv.BaseClient
import Novon.TestUtils.Client

/-!
# The mock stands in for the network

Tests give a route a list of outcomes and let a client call it.  What the client then does is what
it would do on a network that answers its attempts with these outcomes, one call after another and
route by route, and every attempt is in the call log (`mock_stands_in`).  When a call needs more
outcomes than are left, it fails with the `AssertionError` that says so, and no test can take this
for an answer of the service.
-/

namespace Novon.TestUtils

open BaseServiceClient Run
open Stream' (Seq)

variable {J V D W : Type}

/-! ### The network that a test describes -/

/-- The requests that a route has seen and the outcomes that are left. -/
structure Line (D : Type) where
  log : List (Request D)
  left : List Outcome

/-- The route after `k` further requests. -/
def Line.after (line : Line D) (request : Request D) (k : ℕ) : Line D :=
  ⟨line.log ++ List.replicate k request, line.left.drop k⟩

/-- The outcomes of a call on a route: those that are left, and then what the mock raises. -/
def Line.outcomes (line : Line D) (k : ℕ) : Outcome :=
  line.left.getD k (.error (assertionError (MockRoute.exhausted (line.log.length + k + 1))))

/-- A call on a network that answers with the outcomes that are left.  If they do not suffice, the
call ends with the `AssertionError` that says so. -/
def Line.perform (codec : Codec J V) (call : ClientCall D) (line : Line D) :
    Except Raised (Result V) × Line D :=
  let r := call.client.request codec (streamSend line.outcomes) call.request.method
    call.responseModel 0
  let line' := line.after call.request r.2
  (if r.2 ≤ line.left.length then r.1
    else .error (.other .assertionError (MockRoute.exhausted line'.log.length)),
    line')

/-- A call on the network, which is made of the lines that requests are routed to. -/
def Line.step (codec : Codec J V) (lib : UrlLib) (routes : Dict Key ℕ) (call : ClientCall D)
    (lines : ℕ → Line D) : Except Raised (Result V) × (ℕ → Line D) :=
  match routes.get? call.request.key with
  | none => (.error (.other .assertionError (MockRouter.unregistered lib call.request)), lines)
  | some ref =>
    let r := (lines ref).perform codec call
    (r.1, Function.update lines ref r.2)

/-! ### The routes that are set up for it -/

/-- The item that a test writes for an outcome. -/
def itemOf : Outcome → Item Response LibraryError
  | .ok response => .response response
  | .error exc => .exception exc

/-- What a route does next is what is left of a list of outcomes. -/
structure MockRoute.Plays (route : MockRoute Response LibraryError D W) (line : Line D) : Prop where
  calls : route.calls = line.log
  left : ∃ items, route.sideEffect = some (.collection items) ∧
    route.sideEffectIter.getD (.own items) = .own (Seq.ofList (line.left.map itemOf))

namespace MockRouter

/-- Every route that is registered plays its outcomes. -/
structure StandsFor (s : MockRouter Response LibraryError D W) (routes : Dict Key ℕ)
    (lines : ℕ → Line D) : Prop where
  routes_eq : s.routes = routes
  plays : ∀ key ref, routes.get? key = some ref → (s.objects ref).Plays (lines ref)

variable {lib : UrlLib} {routes : Dict Key ℕ} {lines : ℕ → Line D}
  {s : MockRouter Response LibraryError D W} {request : Request D} {ref : ℕ}

theorem head_ofList {α : Type} (xs : List α) : (Seq.ofList xs).head = xs.head? := by
  cases xs with
  | nil => rfl
  | cons x xs => rw [Seq.ofList_cons, Seq.head_cons, List.head?_cons]

theorem tail_ofList {α : Type} (xs : List α) : (Seq.ofList xs).tail = Seq.ofList xs.tail := by
  cases xs with
  | nil => rfl
  | cons x xs => rw [Seq.ofList_cons, Seq.tail_cons, List.tail_cons]

/-- A route that handles a request plays what follows. -/
theorem plays_handle (lib : UrlLib) (request : Request D)
    {route : MockRoute Response LibraryError D W} {line : Line D}
    (h : route.Plays line) (env : Env Response LibraryError W) :
    (MockRoute.handle lib request (route, env)).1 =
        MockRoute.yielded (line.log.length + 1) (line.left.map itemOf).head? ∧
      (MockRoute.handle lib request (route, env)).2.1.Plays (line.after request 1) := by
  obtain ⟨hcalls, items, heffect, hiter⟩ := h
  have hhandle := MockRoute.handle_collection lib request (route, env) heffect hiter
  rw [head_ofList, tail_ofList] at hhandle
  rw [hhandle]
  refine ⟨by rw [hcalls], ?_, items, heffect, ?_⟩
  · show route.calls ++ [request] = _
    rw [hcalls]
    rfl
  · rw [Option.getD_some, Line.after, List.drop_one, List.map_tail]

/-- **One attempt**: the route plays the next outcome. -/
theorem StandsFor.send (h : s.StandsFor routes lines)
    (hfind : routes.get? request.key = some ref) :
    let line := lines ref
    let r := MockRouter.send lib request s
    r.1 = line.left.head?.getD
        (.error (assertionError (MockRoute.exhausted (line.log.length + 1)))) ∧
      r.2.StandsFor routes (Function.update lines ref (line.after request 1)) := by
  intro line r
  obtain ⟨hanswer, hplays⟩ := plays_handle lib request (h.plays _ _ hfind) s.env
  have hhandle : s.handle lib request = s.handOver lib ref request :=
    s.handle_of_find lib (by rw [find, h.routes_eq, hfind])
  have hstands : r.2.StandsFor routes (Function.update lines ref (line.after request 1)) := by
    refine ⟨(s.handle_routes lib request).trans h.routes_eq, fun key ref' hget => ?_⟩
    show MockRoute.Plays ((s.handle lib request).2.objects ref') _
    rw [hhandle]
    by_cases href : ref' = ref
    · subst href
      rw [handOver_self, Function.update_self]
      exact hplays
    · rw [handOver_of_ne lib s href, Function.update_of_ne href]
      exact h.plays key ref' hget
  refine ⟨?_, hstands⟩
  -- the answer of the mock as the client sees it
  show outcomeOf (s.handle lib request).1 = _
  rw [hhandle]
  refine (congrArg outcomeOf hanswer).trans ?_
  match line.left with
  | [] => rfl
  | .ok response :: rest => rfl
  | .error exc :: rest => rfl

/-! ### A call -/

/-- The mock after `k` attempts of a call. -/
def attempted (lib : UrlLib) (request : Request D) (s : MockRouter Response LibraryError D W) :
    ℕ → MockRouter Response LibraryError D W
  | 0 => s
  | k + 1 => (MockRouter.send lib request (attempted lib request s k)).2

theorem after_succ (line : Line D) (k : ℕ) :
    (line.after request k).after request 1 = line.after request (k + 1) := by
  simp only [Line.after, List.append_assoc, List.drop_drop, List.replicate_succ',
    List.replicate_zero, List.nil_append]

/-- **Run lemma**: every attempt plays one outcome. -/
theorem StandsFor.attempted (h : s.StandsFor routes lines)
    (hfind : routes.get? request.key = some ref) (k : ℕ) :
    (MockRouter.attempted lib request s k).StandsFor routes
      (Function.update lines ref ((lines ref).after request k)) := by
  induction k with
  | zero =>
    have hzero : (lines ref).after request 0 = lines ref := by simp [Line.after]
    rw [hzero, Function.update_eq_self]
    exact h
  | succ k ih =>
    obtain ⟨-, hstands⟩ := ih.send hfind
    rwa [Function.update_self, Function.update_idem, after_succ] at hstands

/-- What the client gets from its attempts are the outcomes of the route. -/
theorem StandsFor.send_attempted (h : s.StandsFor routes lines)
    (hfind : routes.get? request.key = some ref) (k : ℕ) :
    MockRouter.send lib request (MockRouter.attempted lib request s k) =
      (streamSend (lines ref).outcomes k).map id (MockRouter.attempted lib request s) := by
  obtain ⟨hout, -⟩ := (h.attempted hfind k).send hfind
  have hlength : ((lines ref).after request k).log.length = (lines ref).log.length + k := by
    simp [Line.after]
  refine Prod.ext (hout.trans ?_) rfl
  rw [Function.update_self, hlength, Line.after, List.head?_drop]
  exact (List.getD_eq_getElem?_getD ..).symm

/-- A call for which no outcomes are left ends with what the mock raises. -/
theorem request_exhausted (codec : Codec J V) (call : ClientCall D) (line : Line D) :
    let r := call.client.request codec (streamSend line.outcomes) call.request.method
      call.responseModel 0
    ¬ r.2 ≤ line.left.length →
      r.1 = .error (.other .assertionError (MockRoute.exhausted (line.log.length + r.2))) := by
  obtain ⟨i, hdecides, hstream⟩ :=
    request_stream codec call.client line.outcomes call.request.method call.responseModel
  intro r hr
  have hlast : line.outcomes line.left.length =
      .error (assertionError (MockRoute.exhausted (line.log.length + line.left.length + 1))) := by
    simp [Line.outcomes]
  -- the `AssertionError` is no transient failure, so no attempt follows it
  have hle : i ≤ line.left.length := by
    by_contra hlt
    have htransient := hdecides.transient_of_lt line.left.length (Nat.lt_of_not_le hlt)
    rw [hlast] at htransient
    cases htransient
  have hr' : r = (requestOnce codec call.client call.responseModel (line.outcomes i), i + 1) :=
    hstream
  rw [hr'] at hr ⊢
  obtain rfl : i = line.left.length := by omega
  rw [hlast]
  rfl

/-- A request for which there is no route fails at its first attempt. -/
theorem perform_unregistered (codec : Codec J V) (call : ClientCall D)
    (hfind : s.find call.request = none) :
    MockRouter.perform codec lib call s =
      (.error (.other .assertionError (unregistered lib call.request)), s) := by
  let failed : Outcome := .error (assertionError (unregistered lib call.request))
  have hsend : ∀ k : ℕ, MockRouter.send lib call.request s =
      (streamSend (fun _ => failed) k).map id fun _ => s := by
    intro k
    rw [MockRouter.send, s.handle_of_find_none lib hfind]
    rfl
  have hmap := request_map codec call.client hsend call.request.method call.responseModel 0
  obtain ⟨i, -, hstream⟩ := request_stream codec call.client (fun _ => failed)
    call.request.method call.responseModel
  rw [hstream] at hmap
  exact hmap

/-- **A call on the mock** is the call on the network, and leaves the mock in step with it. -/
theorem StandsFor.perform (h : s.StandsFor routes lines) (codec : Codec J V)
    (call : ClientCall D) :
    (MockRouter.perform codec lib call s).1 = (Line.step codec lib routes call lines).1 ∧
      (MockRouter.perform codec lib call s).2.StandsFor routes
        (Line.step codec lib routes call lines).2 := by
  unfold Line.step
  cases hfind : routes.get? call.request.key with
  | none =>
    have hnone : s.find call.request = none := by rw [find, h.routes_eq, hfind]
    rw [perform_unregistered codec call hnone]
    exact ⟨rfl, h⟩
  | some ref =>
    let r := call.client.request codec (streamSend (lines ref).outcomes) call.request.method
      call.responseModel 0
    have hmap : MockRouter.perform codec lib call s =
        r.map id (MockRouter.attempted lib call.request s) :=
      request_map codec call.client (h.send_attempted hfind) call.request.method
        call.responseModel 0
    have hlength : ((lines ref).after call.request r.2).log.length =
        (lines ref).log.length + r.2 := by
      simp [Line.after]
    rw [hmap]
    refine ⟨?_, h.attempted hfind r.2⟩
    show r.1 = if r.2 ≤ (lines ref).left.length then r.1 else .error (.other .assertionError
      (MockRoute.exhausted ((lines ref).after call.request r.2).log.length))
    rw [hlength]
    split
    · rfl
    · next hle => exact request_exhausted codec call (lines ref) hle

/-- **The mock stands in for the network**: every sequence of calls of any clients has the results
that it has on the network that the routes describe, and the routes are left with the log and the
outcomes of that network. -/
theorem mock_stands_in (h : s.StandsFor routes lines) (codec : Codec J V)
    (calls : List (ClientCall D)) :
    (exec (MockRouter.perform codec lib) calls s).1 =
        (exec (Line.step codec lib routes) calls lines).1 ∧
      (exec (MockRouter.perform codec lib) calls s).2.StandsFor routes
        (exec (Line.step codec lib routes) calls lines).2 :=
  exec_simulation (MockRouter.perform codec lib) (Line.step codec lib routes) (fun _ => True)
    (fun _ s lines => s.StandsFor routes lines) s lines (fun _ _ _ => trivial) h
    (fun _ call _ _ _ h => h.perform codec call) calls trivial

/-- A `GET` that times out once, is answered, and then finds nothing. -/
def timeoutFirst : List Outcome :=
  [.error ⟨.connectTimeout, "timed out", rfl⟩, .ok ⟨200, [], []⟩, .ok ⟨404, [], []⟩]

/-- A router with these outcomes on its only route. -/
def sample : MockRouter Response LibraryError Unit Unit :=
  ((new ⟨fun _ => .nil, ()⟩).route "GET" Request.sample.url).2.update 0
    (.setSideEffect (some (.collection (Seq.ofList (timeoutFirst.map itemOf)))))

def getUser : ClientCall Unit := ⟨⟨"uc", 3⟩, some (.cls "UserResponse"), .sample⟩

theorem sample_standsFor : sample.StandsFor sample.routes fun _ => ⟨[], timeoutFirst⟩ := by
  refine ⟨rfl, fun key ref hget => ?_⟩
  have href : ref < 1 := sample.registered_lt key ref hget
  obtain rfl := Nat.lt_one_iff.mp href
  exact ⟨rfl, _, rfl, rfl⟩

theorem mock_stands_in_sample :
    (exec (MockRouter.perform .sample .sample) [getUser, getUser, getUser] sample).1 =
      [.ok (.value ()),
        .error (.service (.notFound "Resource not found from uc" "uc" (some ""))),
        .error (.other .assertionError
          "side_effect exhausted after 4 call(s); no more responses to return")] := by
  rw [(mock_stands_in sample_standsFor .sample [getUser, getUser, getUser]).1]
  rfl

end MockRouter

end Novon.TestUtils
