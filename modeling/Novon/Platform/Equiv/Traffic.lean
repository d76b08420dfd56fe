import Mathlib.Data.List.Forall2
import Mathlib.Data.List.GetD
import Novon.Platform.Equiv.Refinement

/-!
# Requests in flight refine calls in flight

Between two attempts of one inbound request other requests go on, and the stores change.  However
the arrivals and the attempts interleave, the services together answer as the gateway does, which
acts on the stores as each attempt finds them (`traffic_refines`).  A flight follows a call in
flight when its attempts so far have failed for the moment and as many may follow as the gateway
allows (`Follows`).
-/

namespace List

variable {α β : Type*} {R : α → β → Prop}

/-! ### Lists that are related place by place -/

theorem Forall₂.concat {xs : List α} {ys : List β} (h : Forall₂ R xs ys) {x : α} {y : β}
    (hxy : R x y) : Forall₂ R (xs ++ [x]) (ys ++ [y]) :=
  rel_append h (.cons hxy .nil)

theorem Forall₂.set {xs : List α} {ys : List β} (h : Forall₂ R xs ys) (k : ℕ) {x : α} {y : β}
    (hxy : R x y) : Forall₂ R (xs.set k x) (ys.set k y) := by
  induction h generalizing k with
  | nil => exact .nil
  | cons hhead htail ih =>
    cases k with
    | zero => exact .cons hxy htail
    | succ k => exact .cons hhead (ih k)

theorem Forall₂.getElem? {xs : List α} {ys : List β} (h : Forall₂ R xs ys) (k : ℕ) :
    (xs[k]? = none ∧ ys[k]? = none) ∨ ∃ x y, xs[k]? = some x ∧ ys[k]? = some y ∧ R x y := by
  induction h generalizing k with
  | nil => exact .inl ⟨rfl, rfl⟩
  | @cons x y xs ys hhead htail ih =>
    cases k with
    | zero => exact .inr ⟨x, y, rfl, rfl, hhead⟩
    | succ k => exact ih k

/-! ### A list with one place changed -/

theorem getElem?_concat_eq_some {xs : List α} {j : ℕ} {x y : α}
    (hget : (xs ++ [x])[j]? = some y) : (j = xs.length ∧ y = x) ∨ xs[j]? = some y := by
  rcases Nat.lt_or_ge j xs.length with hlt | hge
  · rw [List.getElem?_append_left hlt] at hget
    exact .inr hget
  · rw [List.getElem?_append_right hge, List.getElem?_singleton] at hget
    split at hget
    · exact .inl ⟨by omega, (Option.some.inj hget).symm⟩
    · cases hget

theorem getElem?_set_eq_some {xs : List α} {j k : ℕ} {x y : α}
    (hget : (xs.set k x)[j]? = some y) : (j = k ∧ y = x) ∨ j ≠ k ∧ xs[j]? = some y := by
  by_cases hjk : j = k
  · subst hjk
    have hlt : j < xs.length := by simpa using (List.getElem?_eq_some_iff.mp hget).1
    rw [List.getElem?_set_self hlt] at hget
    exact .inl ⟨rfl, (Option.some.inj hget).symm⟩
  · rw [List.getElem?_set_ne (Ne.symm hjk)] at hget
    exact .inr ⟨hjk, hget⟩

theorem set_of_getElem? {xs : List α} {k : ℕ} {x : α} (hget : xs[k]? = some x) :
    xs.set k x = xs := by
  obtain ⟨hlt, rfl⟩ := List.getElem?_eq_some_iff.mp hget
  exact List.set_getElem_self hlt

end List

namespace Novon.Platform

open Bff BaseServiceClient Run

variable {J V : Type}

/-! ### One flight -/

/-- What a flight shows and sends when its attempts have these outcomes. -/
def Flight.seen (app : App J V) (flight : Flight) (outcomes : List Outcome) :
    Answer V × List Sent :=
  let r := { flight with outcomes }.run app
  (.ofResult r.1, r.2.events)

theorem Flight.answer_of_pending (app : App J V) {flight : Flight} {sent : Sent}
    (h : flight.pending app = some sent) : flight.answer app = none := by
  rw [Flight.answer, h]

theorem Flight.answer_of_done (app : App J V) {flight : Flight} (h : flight.pending app = none) :
    flight.answer app = some (flight.seen app flight.outcomes).1 := by
  rw [Flight.answer, h]
  rfl

/-- **A flight of a call** sends copies of one request, and shows the response to the deciding
outcome. -/
theorem Flight.calls (app : App J V) {flight : Flight} {call : BffCall}
    (hroute : route app.framework flight.user flight.request = .call call) (requestId : String) :
    Operation.Calls app.codec (attemptsOf app call)
      (fun sent => ∃ headers, sent = sentFor app.lib headers call)
      (fun outcome => shown (responseTo app requestId call outcome)) (flight.seen app) := by
  intro outcomes
  obtain ⟨headers, requestId', left, i, hi, hrun⟩ := run_application_decides app
    (replay fun k => outcomes.getD k (.ok ⟨0, [], []⟩)) hroute flight.uuids
  rw [answers_replay] at hi hrun
  refine ⟨i, sentFor app.lib headers call, hi, ⟨headers, rfl⟩, ?_⟩
  rw [Flight.seen, Flight.run, hrun]
  exact Prod.ext (shown_responseTo app requestId' requestId _) rfl

/-- A flight whose first attempt has been answered, and not with a 5xx, is answered. -/
theorem Flight.answer_of_first (app : App J V) {flight : Flight} {call : BffCall}
    (hroute : route app.framework flight.user flight.request = .call call) {outcome : Outcome}
    (houtcomes : flight.outcomes = [outcome]) (h : transient app.codec outcome = false) :
    flight.answer app = some (shown (responseTo app "" call outcome)) := by
  have hlimit : ([] : List Outcome).length < attemptsOf app call := by
    rw [attemptsOf_eq]
    exact Nat.succ_pos _
  have hnone : ∀ o ∈ ([] : List Outcome), transient app.codec o = true :=
    fun o ho => absurd ho List.not_mem_nil
  obtain ⟨user, request, uuids, outcomes⟩ := flight
  obtain rfl := houtcomes
  obtain ⟨hseen, hdone⟩ := (Flight.calls app hroute "").decided hnone hlimit (.inl h)
  have hpending : (Flight.mk user request uuids [outcome]).pending app = none := hdone
  rw [Flight.answer_of_done app hpending]
  exact congrArg some hseen

/-! ### Flights and calls in flight -/

section Follows

variable {d : Deployment J V} {v : Decoding V} {s : Stores}

/-- The flight does what the call in flight does from here on. -/
inductive Follows (d : Deployment J V) : Flight → Gateway.Flight → Prop where
  | waiting {flight : Flight} {call : BffCall} {left : ℕ}
      (hroute : route d.bff.framework flight.user flight.request = .call call)
      (hplain : Plain call) (htransient : ∀ o ∈ flight.outcomes, transient d.bff.codec o = true)
      (hleft : flight.outcomes.length + left + 1 = attemptsOf d.bff call) :
      Follows d flight (.waiting call left)
  | answered {flight : Flight} (hpending : flight.pending d.bff = none) :
      Follows d flight .answered

/-- An arrival that is no call is answered at once. -/
theorem follows_inl {user : String} {request : InboundRequest} {answer : Answer V}
    (h : Gateway.arrival d user request = .inl answer) (uuids : Stream' Uuid) :
    (Flight.mk user request uuids []).answer d.bff = some answer ∧
      Follows d ⟨user, request, uuids, []⟩ .answered := by
  obtain ⟨response, left, hrun, rfl⟩ := run_application_of_inl h
    (replay fun k => (List.nil : List Outcome).getD k (.ok ⟨0, [], []⟩)) uuids
  have hflight : (Flight.mk user request uuids []).run d.bff = (.ok response, ⟨left, []⟩) := hrun
  have hpending : (Flight.mk user request uuids []).pending d.bff = none := by
    rw [Flight.pending, hflight]
    rfl
  refine ⟨?_, .answered hpending⟩
  rw [Flight.answer_of_done d.bff hpending, Flight.seen, hflight]
  rfl

/-- An arrival that is a call waits for its first attempt. -/
theorem follows_inr {user : String} {request : InboundRequest} {call : BffCall}
    (h : Gateway.arrival d user request = .inr call) (hdots : d.NoDots user request)
    (uuids : Stream' Uuid) :
    (Flight.mk user request uuids []).answer d.bff = none ∧
      Follows d ⟨user, request, uuids, []⟩
        (.waiting call (Gateway.retries d.bff.clients call)) := by
  let flight : Flight := ⟨user, request, uuids, []⟩
  have hroute : route d.bff.framework flight.user flight.request = .call call :=
    arrival_eq_inr_iff.mp h
  have hlimit := attemptsOf_eq d.bff call
  have hnone : ∀ o ∈ flight.outcomes, transient d.bff.codec o = true :=
    fun o ho => absurd ho List.not_mem_nil
  obtain ⟨sent, -, hpending⟩ := (flight.calls d.bff hroute "").pending hnone
    (by rw [hlimit]; exact Nat.succ_pos _)
  refine ⟨?_, .waiting hroute (hdots.plain hroute) hnone ?_⟩
  · exact Flight.answer_of_pending d.bff hpending
  · rw [hlimit]
    exact congrArg (· + 1) (Nat.zero_add _)

/-- **One attempt of a flight**, on any stores of typed records. -/
theorem Follows.attempt (h : d.Reads v) (hs : s.Typed) {flight : Flight} {call : BffCall}
    {left : ℕ} (hfollows : Follows d flight (.waiting call left)) (delivery : Delivery) :
    ∃ sent, flight.pending d.bff = some sent ∧
      let r := d.deliver sent s delivery
      (∃ answer, (Gateway.operation v d.bff.clients call).attempt left s delivery =
          (.inl answer, r.2) ∧
        (flight.record r.1).answer d.bff = some answer ∧ Follows d (flight.record r.1) .answered) ∨
      ∃ left', (Gateway.operation v d.bff.clients call).attempt left s delivery =
          (.inr left', r.2) ∧
        (flight.record r.1).answer d.bff = none ∧
        Follows d (flight.record r.1) (.waiting call left') := by
  cases hfollows with
  | waiting hroute hplain htransient hleft =>
  have hcalls := flight.calls d.bff hroute ""
  have hrealizes : ∀ sent, (∃ headers, sent = sentFor d.bff.lib headers call) →
      (Gateway.operation v d.bff.clients call).Realizes d.bff.codec (d.deliver sent)
        (fun outcome => shown (responseTo d.bff "" call outcome)) s := by
    rintro sent ⟨headers, rfl⟩
    exact realizes_deliver h hs hplain headers ""
  obtain ⟨sent, hpending, hattempt⟩ := hcalls.attempt hrealizes htransient hleft delivery
  refine ⟨sent, hpending, ?_⟩
  rcases hattempt with ⟨hattempt, hdone⟩ | ⟨left', hattempt, hall, hlength⟩
  · have hpending' : (flight.record (d.deliver sent s delivery).1).pending d.bff = none := hdone
    exact .inl ⟨_, hattempt, Flight.answer_of_done d.bff hpending', .answered hpending'⟩
  · obtain ⟨sent', -, hpending'⟩ := hcalls.pending hall (by omega)
    exact .inr ⟨left', hattempt, Flight.answer_of_pending d.bff hpending',
      .waiting hroute hplain hall hlength⟩

end Follows

/-! ### Whole runs -/

section Runs

variable {d : Deployment J V} {v : Decoding V}

/-- The traffic does what the calls in flight do from here on. -/
structure Carries (d : Deployment J V) (t : Traffic) (g : Gateway.Traffic) : Prop where
  stores : t.stores = g.stores
  typed : t.stores.Typed
  flights : List.Forall₂ (Follows d) t.flights g.flights

/-- **Step lemma**: one move. -/
theorem move_refines (h : d.Reads v) {m : Move}
    (hm : ∀ user request uuids, m = .inbound user request uuids → d.NoDots user request)
    {t : Traffic} {g : Gateway.Traffic} (hcarries : Carries d t g) :
    (d.move m t).1 = (Gateway.move d v m g).1 ∧
      Carries d (d.move m t).2 (Gateway.move d v m g).2 := by
  obtain ⟨hstores, htyped, hflights⟩ := hcarries
  cases m with
  | uc request env =>
    rw [Deployment.move, Gateway.move, ← hstores]
    exact ⟨rfl, rfl, htyped.serve_uc d.ucFramework request env, hflights⟩
  | flow request env =>
    rw [Deployment.move, Gateway.move, ← hstores]
    exact ⟨rfl, rfl, htyped.serve_flow d.flowFramework request env, hflights⟩
  | inbound user request uuids =>
    rw [Deployment.move, Gateway.move]
    cases harrival : Gateway.arrival d user request with
    | inl answer =>
      obtain ⟨hanswer, hfollows⟩ := follows_inl harrival uuids
      exact ⟨hanswer, hstores, htyped, hflights.concat hfollows⟩
    | inr call =>
      obtain ⟨hanswer, hfollows⟩ := follows_inr harrival (hm _ _ _ rfl) uuids
      exact ⟨hanswer, hstores, htyped, hflights.concat hfollows⟩
  | attempt k delivery =>
    rw [Deployment.move, Gateway.move]
    rcases hflights.getElem? k with ⟨hnone, hnone'⟩ | ⟨flight, flight', hget, hget', hfollows⟩
    · rw [hnone, hnone']
      exact ⟨rfl, hstores, htyped, hflights⟩
    · rw [hget, hget']
      cases flight' with
      | answered =>
        cases hfollows with
        | answered hpending =>
          simp only [hpending]
          exact ⟨trivial, hstores, htyped, hflights⟩
      | waiting call left =>
        obtain ⟨sent, hpending, hattempt⟩ := hfollows.attempt h htyped delivery
        have htyped' := typed_deliver (d := d) htyped sent delivery
        rcases hattempt with ⟨answer, hattempt, hanswer, hfollows'⟩ |
          ⟨left', hattempt, hanswer, hfollows'⟩
        all_goals
          simp only [hpending, ← hstores, hattempt]
          exact ⟨hanswer, rfl, htyped', hflights.set k hfollows'⟩

/-- **Run lemma**: from traffic and calls in flight that it carries. -/
theorem exec_refines (h : d.Reads v) {moves : List Move}
    (hdots : ∀ user request uuids, .inbound user request uuids ∈ moves → d.NoDots user request)
    {t : Traffic} {g : Gateway.Traffic} (hcarries : Carries d t g) :
    (exec d.move moves t).1 = (exec (Gateway.move d v) moves g).1 ∧
      Carries d (exec d.move moves t).2 (exec (Gateway.move d v) moves g).2 := by
  refine exec_simulation d.move (Gateway.move d v)
    (fun ms => ∀ user request uuids, .inbound user request uuids ∈ ms → d.NoDots user request)
    (fun _ => Carries d) t g ?_ hcarries ?_ moves hdots
  · exact fun ms m hms user request uuids hmem =>
      hms user request uuids (List.mem_append_left _ hmem)
  · intro ms m t g hms hcarries
    refine move_refines h ?_ hcarries
    rintro user request uuids rfl
    exact hms user request uuids List.mem_concat_self

theorem carries_empty : Carries d .empty .empty := ⟨rfl, typed_empty, .nil⟩

/-- A call in flight is that of a flight. -/
theorem Carries.exists_flight {t : Traffic} {g : Gateway.Traffic} (hcarries : Carries d t g)
    {j left : ℕ} {call : BffCall} (hcall : g.flights[j]? = some (.waiting call left)) :
    ∃ flight, t.flights[j]? = some flight ∧
      route d.bff.framework flight.user flight.request = .call call := by
  rcases hcarries.flights.getElem? j with ⟨-, hnone⟩ | ⟨flight, flight', hget, hget', hfollows⟩
  · rw [hcall] at hnone
    cases hnone
  · obtain rfl := Option.some.inj (hcall.symm.trans hget')
    cases hfollows with
    | waiting hroute hplain htransient hleft => exact ⟨flight, hget, hroute⟩

/-- What a flight shows when its attempt is answered. -/
theorem answer_of_carries (h : d.Reads v) {t : Traffic} {g : Gateway.Traffic}
    (hcarries : Carries d t g) {j : ℕ} {flight : Flight} (hflight : t.flights[j]? = some flight)
    {call : BffCall} (hroute : route d.bff.framework flight.user flight.request = .call call)
    {env : Env} {answer : Answer V}
    (hanswer : (d.move (.attempt j (.answered env)) t).1 = some answer) :
    answer = (Gateway.answer v d.bff.clients env t.stores call).1 := by
  obtain ⟨hout, -⟩ := move_refines h (m := .attempt j (.answered env)) nofun hcarries
  rw [hanswer, Gateway.move] at hout
  rcases hcarries.flights.getElem? j with ⟨hnone, -⟩ | ⟨flight', call', hget, hget', hfollows⟩
  · rw [hflight] at hnone
    cases hnone
  · obtain rfl := Option.some.inj (hflight.symm.trans hget)
    rw [hget'] at hout
    cases hfollows with
    | answered hpending => cases hout
    | waiting hroute' hplain htransient hleft =>
      obtain rfl := Routed.call.inj (hroute.symm.trans hroute')
      rw [hcarries.stores]
      exact Option.some.inj hout

/-- What an attempt shows after a run. -/
theorem attempt_refines (h : d.Reads v) {moves : List Move}
    (hdots : ∀ user request uuids, .inbound user request uuids ∈ moves → d.NoDots user request)
    (k : ℕ) (delivery : Delivery) :
    (d.move (.attempt k delivery) (exec d.move moves .empty).2).1 =
      (Gateway.move d v (.attempt k delivery) (exec (Gateway.move d v) moves .empty).2).1 :=
  (move_refines h (m := .attempt k delivery) nofun (exec_refines h hdots carries_empty).2).1

/-- **The services together refine the gateway, whatever interleaves.**  On every sequence of
arrivals, attempts and requests of other clients, every answer and the stores are those of the
gateway. -/
theorem traffic_refines (h : d.Reads v) {moves : List Move}
    (hdots : ∀ user request uuids, .inbound user request uuids ∈ moves → d.NoDots user request) :
    (exec d.move moves .empty).1 = (exec (Gateway.move d v) moves .empty).1 ∧
      (exec d.move moves .empty).2.stores = (exec (Gateway.move d v) moves .empty).2.stores := by
  obtain ⟨hanswers, hcarries⟩ := exec_refines h hdots carries_empty
  exact ⟨hanswers, hcarries.stores⟩

end Runs

/-- A list that is repeated after a create has been served, both in flight at once. -/
def lateList : List Move :=
  [.inbound getCurrentUser getFlows (.const .one), .attempt 0 (.lost (.request disconnected)),
    .inbound getCurrentUser postRelease (.const .two), .attempt 1 (.answered ⟨.one, 1⟩),
    .attempt 0 (.answered ⟨.two, 2⟩)]

theorem traffic_refines_lateList :
    (exec Deployment.sample.move lateList .empty).1 =
        (exec (Gateway.move .sample .sample) lateList .empty).1 ∧
      (exec Deployment.sample.move lateList .empty).1 =
        [none, none, none,
          some (.bff 201 (.result (.value (.flow (Flow.newFlow .release ⟨.one, 1⟩))))),
          some (.bff 200 (.result (.value (.flows [Flow.newFlow .release ⟨.one, 1⟩]))))] := by
  have hdots : ∀ user request uuids, .inbound user request uuids ∈ lateList →
      Deployment.sample.NoDots user request := by
    intro user request uuids hmem
    simp only [lateList, List.mem_cons, Move.inbound.injEq, reduceCtorEq, List.not_mem_nil,
      false_or, or_false] at hmem
    rcases hmem with ⟨rfl, rfl, rfl⟩ | ⟨rfl, rfl, rfl⟩ <;> exact noDots_of_pathId rfl rfl
  have h := (traffic_refines Deployment.sample_reads hdots).1
  exact ⟨h, by rw [h]; rfl⟩

end Novon.Platform
