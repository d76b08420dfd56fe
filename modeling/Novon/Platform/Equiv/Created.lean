import Novon.Platform.Equiv.Traffic

/-!
# A created flow is found

Once the BFF has answered a create with 201, every lookup of the flow that a service answers finds
it, until another client deletes it (`created_flow_is_found`): also a lookup that was in flight
before, one that repeats lost attempts, and one that is made while other clients patch the flow.
The argument is about the gateway, where a flow that is held stays held (`holds_exec`).
-/

namespace Novon.Platform

open Bff Run

variable {J V : Type}

/-! ### What a move does to the stores -/

/-- The stores after the create of a flow. -/
def created (payload : FlowCreate) (env : Env) (s : Stores) : Stores :=
  { s with flow := s.flow.set (Flow.flowIdOf env.uuid) (Flow.newFlow payload env) }

/-- What a move makes of the stores: the BFF does nothing to them but create flows. -/
inductive Touches (d : Deployment J V) (s : Stores) : Move → Stores → Prop where
  | inbound {user : String} {request : InboundRequest} {uuids : Stream' Uuid} :
      Touches d s (.inbound user request uuids) s
  | read {k : ℕ} {delivery : Delivery} : Touches d s (.attempt k delivery) s
  | create {k : ℕ} {delivery : Delivery} (payload : FlowCreate) (env : Env) :
      Touches d s (.attempt k delivery) (created payload env s)
  | uc {request : Request} {env : Env} :
      Touches d s (.uc request env)
        { s with uc := (Uc.serve d.ucFramework request env s.uc).2 }
  | flow {request : Request} {env : Env} :
      Touches d s (.flow request env)
        { s with flow := (Flow.serve d.flowFramework request env s.flow).2 }

section Touches

variable {d : Deployment J V} (v : Decoding V) (clients : AppClients)

theorem answer_stores (env : Env) (s : Stores) (call : BffCall) :
    (Gateway.answer v clients env s call).2 = s ∨
      ∃ payload, (Gateway.answer v clients env s call).2 = created payload env s := by
  cases call with
  | createFlow payload => exact .inr ⟨payload, rfl⟩
  | listFlows => exact .inl rfl
  | getFlow _ | getFlowWithOwner _ | getUserByUsername _ =>
    left
    rw [Gateway.answer]
    split <;> rfl
  | getUser _ =>
    left
    rw [Gateway.answer]
    split
    · rfl
    · split <;> rfl

variable {v}

theorem touches_move (m : Move) (g : Gateway.Traffic) :
    Touches d g.stores m (Gateway.move d v m g).2.stores := by
  cases m with
  | uc request env => exact .uc
  | flow request env => exact .flow
  | inbound user request uuids =>
    rw [Gateway.move]
    cases Gateway.arrival d user request <;> exact .inbound
  | attempt k delivery =>
    rw [Gateway.move]
    split
    · next call left _ =>
      have htouches : Touches d g.stores (.attempt k delivery)
          ((Gateway.operation v d.bff.clients call).attempt left g.stores delivery).2 := by
        rcases Operation.snd_attempt (Gateway.operation v d.bff.clients call) left g.stores
          delivery with h | ⟨env, h⟩
        · rw [h]
          exact .read
        · rcases answer_stores v d.bff.clients env g.stores call with hanswer | ⟨payload, hanswer⟩
          · rw [h.trans hanswer]
            exact .read
          · rw [h.trans hanswer]
            exact .create payload env
      split
      all_goals
        next h =>
          rw [h] at htouches
          exact htouches
    · exact .read

end Touches

/-! ### A flow that is held -/

/-- The stores have a flow with this id. -/
def Holds (id : String) (s : Stores) : Prop :=
  ∃ flow, s.flow.get? id = some flow ∧ flow.id = .str id

section Holds

variable {d : Deployment J V} {v : Decoding V} {id : String} {s : Stores}

theorem Holds.set (h : Holds id s) {flowId : String} {flow : FlowResponse}
    (hid : flowId = id → flow.id = .str id) :
    Holds id { s with flow := s.flow.set flowId flow } := by
  obtain ⟨held, hget, hheld⟩ := h
  by_cases heq : id = flowId
  · subst heq
    exact ⟨flow, Dict.get?_set_self _ _ _, hid rfl⟩
  · exact ⟨held, (Dict.get?_set_of_ne _ _ heq).trans hget, hheld⟩

theorem Holds.create (h : Holds id s) (payload : FlowCreate) (env : Env) :
    Holds id (created payload env s) :=
  h.set fun heq => congrArg FieldValue.str heq

theorem holds_created (s : Stores) (payload : FlowCreate) (env : Env) :
    Holds (Flow.flowIdOf env.uuid) (created payload env s) :=
  ⟨Flow.newFlow payload env, Dict.get?_set_self _ _ _, rfl⟩

/-- A request of another client that does not delete the flow. -/
theorem Holds.serve_flow (h : Holds id s) (framework : Framework FlowResponse) {request : Request}
    (hkept : Flow.route request ≠ .call (.deleteFlow id)) (env : Env) :
    Holds id { s with flow := (Flow.serve framework request env s.flow).2 } := by
  unfold Flow.serve
  cases hroute : Flow.route request with
  | unrouted | static _ | invalid => exact h
  | call call =>
    have he := Flow.handle_effect call env s.flow
    show Holds id { s with flow := (Flow.handle call env s.flow).2 }
    generalize Flow.handle call env s.flow = r at he ⊢
    cases he with
    | read _ | refused => exact h
    | create => exact h.create _ env
    | @patch flowId p existing hget =>
      refine h.set fun heq => ?_
      obtain ⟨held, hheld, hid⟩ := h
      obtain rfl := Option.some.inj (hget.symm.trans (heq ▸ hheld))
      exact hid
    | @delete flowId flow hget =>
      obtain ⟨held, hheld, hid⟩ := h
      have hne : id ≠ flowId := by
        rintro rfl
        exact hkept hroute
      exact ⟨held, Dict.get?_pop_eq_some_iff.mpr ⟨hne, hheld⟩, hid⟩

/-- **Step lemma**: a flow that is held stays held. -/
theorem holds_move {m : Move}
    (hkept : ∀ request env, m = .flow request env → Flow.route request ≠ .call (.deleteFlow id))
    {g : Gateway.Traffic} (h : Holds id g.stores) :
    Holds id (Gateway.move d v m g).2.stores := by
  have htouches := touches_move (d := d) (v := v) m g
  generalize (Gateway.move d v m g).2.stores = s at htouches ⊢
  cases htouches with
  | inbound | read | uc => exact h
  | create payload env => exact h.create payload env
  | @flow request env => exact h.serve_flow d.flowFramework (hkept request env rfl) env

/-- **Run lemma**: no run without its deletion loses a flow. -/
theorem holds_exec {moves : List Move}
    (hkept : ∀ request env, .flow request env ∈ moves →
      Flow.route request ≠ .call (.deleteFlow id))
    {g : Gateway.Traffic} (h : Holds id g.stores) :
    Holds id (exec (Gateway.move d v) moves g).2.stores := by
  refine exec_invariant (Gateway.move d v)
    (fun ms => ∀ request env, .flow request env ∈ ms → Flow.route request ≠ .call (.deleteFlow id))
    (fun _ g => Holds id g.stores) g ?_ h ?_ moves hkept
  · exact fun ms m hms request env hmem => hms request env (List.mem_append_left _ hmem)
  · intro ms m g hms hg
    refine holds_move ?_ hg
    rintro request env rfl
    exact hms request env List.mem_concat_self

/-- Only a create is answered with 201. -/
theorem holds_of_answer_201 {clients : AppClients} {env : Env} {s : Stores} {call : BffCall}
    {body : Body V} (h : (Gateway.answer v clients env s call).1 = .bff 201 body) :
    Holds (Flow.flowIdOf env.uuid) (Gateway.answer v clients env s call).2 := by
  cases call with
  | createFlow payload => exact holds_created s payload env
  | listFlows => cases h
  | getFlow _ | getFlowWithOwner _ | getUserByUsername _ =>
    rw [Gateway.answer] at h
    split at h <;> cases h
  | getUser _ =>
    rw [Gateway.answer] at h
    split at h
    · cases h
    · split at h <;> cases h

/-- The answer to a lookup of a flow that is held. -/
theorem answer_of_holds (v : Decoding V) (clients : AppClients) (env : Env) {call : BffCall}
    (hcall : call = .getFlow id ∨ call = .getFlowWithOwner id) (h : Holds id s) :
    ∃ flow, s.flow.get? id = some flow ∧ flow.id = .str id ∧
      (Gateway.answer v clients env s call).1 = shown (present call (.value (v.flow flow))) := by
  obtain ⟨flow, hget, hid⟩ := h
  refine ⟨flow, hget, hid, ?_⟩
  rcases hcall with rfl | rfl
  · rw [Gateway.answer, hget]
    rfl
  · rw [Gateway.answer, hget]
    rfl

/-- **A created flow is found**: after a create that is answered with 201, and until another client
deletes the flow, whatever attempt of a lookup of the flow is answered shows the flow as it is
stored then. -/
theorem created_flow_is_found (h : d.Reads v) (before later : List Move) {k j : ℕ}
    {env env' : Env} {body : Body V} {t : Traffic} {flight : Flight} {call : BffCall}
    {answer : Answer V}
    (hdots : ∀ user request uuids,
      .inbound user request uuids ∈ before ++ .attempt k (.answered env) :: later →
      d.NoDots user request)
    (hcreated : (d.move (.attempt k (.answered env)) (exec d.move before .empty).2).1 =
      some (.bff 201 body))
    (hkept : ∀ request env', .flow request env' ∈ later →
      Flow.route request ≠ .call (.deleteFlow (Flow.flowIdOf env.uuid)))
    (ht : t = (exec d.move (before ++ .attempt k (.answered env) :: later) .empty).2)
    (hflight : t.flights[j]? = some flight)
    (hroute : route d.bff.framework flight.user flight.request = .call call)
    (hcall : call = .getFlow (Flow.flowIdOf env.uuid) ∨
      call = .getFlowWithOwner (Flow.flowIdOf env.uuid))
    (hanswer : (d.move (.attempt j (.answered env')) t).1 = some answer) :
    ∃ flow, t.stores.flow.get? (Flow.flowIdOf env.uuid) = some flow ∧
      flow.id = .str (Flow.flowIdOf env.uuid) ∧
      answer = shown (present call (.value (v.flow flow))) := by
  rw [exec_append, exec_cons] at ht
  dsimp only at ht
  -- the create
  have hdots₁ : ∀ user request uuids, .inbound user request uuids ∈ before →
      d.NoDots user request :=
    fun user request uuids hmem => hdots user request uuids (List.mem_append_left _ hmem)
  obtain ⟨-, hbefore⟩ := exec_refines h hdots₁ (carries_empty (d := d))
  generalize (exec d.move before .empty).2 = t₀ at hcreated hbefore ht
  generalize (exec (Gateway.move d v) before .empty).2 = g at hbefore
  obtain ⟨hout, hcarries⟩ := move_refines h (m := .attempt k (.answered env)) nofun hbefore
  have hholds : Holds (Flow.flowIdOf env.uuid)
      (Gateway.move d v (.attempt k (.answered env)) g).2.stores := by
    rw [hcreated, Gateway.move] at hout
    rw [Gateway.move]
    split at hout
    · exact holds_of_answer_201 (Option.some.inj hout).symm
    · cases hout
  -- what follows it
  have hdots₂ : ∀ user request uuids, .inbound user request uuids ∈ later →
      d.NoDots user request :=
    fun user request uuids hmem => hdots user request uuids
      (List.mem_append_right _ (List.mem_cons_of_mem _ hmem))
  obtain ⟨-, hlater⟩ := exec_refines h hdots₂ hcarries
  have hheld := holds_exec (d := d) (v := v) hkept hholds
  rw [← ht] at hlater
  rw [← hlater.stores] at hheld
  -- the lookup
  obtain ⟨flow, hget, hid, hshown⟩ := answer_of_holds v d.bff.clients env' hcall hheld
  exact ⟨flow, hget, hid, (answer_of_carries h hlater hflight hroute hanswer).trans hshown⟩

end Holds

/-- A lookup of a flow that is not there yet. -/
def getCreated : InboundRequest := ⟨"GET", "/flows/" ++ Flow.flowIdOf .one, "", [], []⟩

def lookupAndCreate : List Move :=
  [.inbound getCurrentUser getCreated (.const .one),
    .inbound getCurrentUser postRelease (.const .two)]

/-- The lookup is in flight when the flow is created, and loses an attempt after that. -/
theorem created_flow_is_found_inFlight : ∃ flow : FlowResponse,
    flow.id = .str (Flow.flowIdOf .one) ∧
    (Deployment.sample.move (.attempt 0 (.answered ⟨.two, 2⟩)) (exec Deployment.sample.move
      (lookupAndCreate ++ [.attempt 1 (.answered ⟨.one, 1⟩),
        .attempt 0 (.lost (.request disconnected))]) .empty).2).1 =
      some (.bff 200 (.result (.value (Decoding.sample.flow flow)))) := by
  have hroute : route Deployment.sample.bff.framework getCurrentUser getCreated =
      .call (.getFlow (Flow.flowIdOf .one)) := rfl
  have hdots : ∀ user request uuids, .inbound user request uuids ∈ lookupAndCreate ++
      [.attempt 1 (.answered ⟨.one, 1⟩), .attempt 0 (.lost (.request disconnected))] →
      Deployment.sample.NoDots user request := by
    intro user request uuids hmem
    simp only [lookupAndCreate, List.cons_append, List.nil_append, List.mem_cons,
      Move.inbound.injEq, reduceCtorEq, List.not_mem_nil, or_false] at hmem
    rcases hmem with ⟨rfl, rfl, rfl⟩ | ⟨rfl, rfl, rfl⟩
    · intro call id hcall hid
      obtain rfl := Routed.call.inj (hroute.symm.trans hcall)
      obtain rfl := Option.some.inj hid
      decide
    · exact noDots_of_pathId rfl rfl
  have hshown : (Deployment.sample.move (.attempt 0 (.answered ⟨.two, 2⟩))
      (exec Deployment.sample.move (lookupAndCreate ++ [.attempt 1 (.answered ⟨.one, 1⟩),
        .attempt 0 (.lost (.request disconnected))]) .empty).2).1 =
      some (.bff 200 (.result (.value (.flow (Flow.newFlow .release ⟨.one, 1⟩))))) := by
    rw [attempt_refines Deployment.sample_reads hdots]
    rfl
  have hdots' : ∀ user request uuids, .inbound user request uuids ∈ lookupAndCreate →
      Deployment.sample.NoDots user request :=
    fun user request uuids hmem => hdots user request uuids (List.mem_append_left _ hmem)
  have hcreated : (Deployment.sample.move (.attempt 1 (.answered ⟨.one, 1⟩))
      (exec Deployment.sample.move lookupAndCreate .empty).2).1 =
      some (.bff 201 (.result (.value (.flow (Flow.newFlow .release ⟨.one, 1⟩))))) := by
    rw [attempt_refines Deployment.sample_reads hdots']
    rfl
  have hwaiting : (exec (Gateway.move .sample .sample) (lookupAndCreate ++
      [.attempt 1 (.answered ⟨.one, 1⟩), .attempt 0 (.lost (.request disconnected))])
        .empty).2.flights[0]? = some (.waiting (.getFlow (Flow.flowIdOf .one)) 1) := rfl
  obtain ⟨lookup, hflight, hlookup⟩ :=
    (exec_refines Deployment.sample_reads hdots carries_empty).2.exists_flight hwaiting
  obtain ⟨flow, -, hid, hanswer⟩ := created_flow_is_found Deployment.sample_reads lookupAndCreate
    [.attempt 0 (.lost (.request disconnected))] hdots hcreated (by simp) rfl hflight hlookup
    (.inl rfl) hshown
  exact ⟨flow, hid, hshown.trans (congrArg some hanswer)⟩

end Novon.Platform
