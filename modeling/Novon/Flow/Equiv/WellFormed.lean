import Novon.Core.Equiv.Pydantic
import Novon.Flow.Equiv.Concurrent

/-!
# Stored flows are well-formed

As for users, with one difference: `create_flow` reads the clock before it takes the lock, so the
invariant speaks of the flows that wait as well.  Their time stamps are readings taken, and stay in
order with whatever is read later.
-/

namespace Novon

/-- What validation promises of a flow stored under `flowId`. -/
structure FlowResponse.WellFormed (flowId : String) (flow : FlowResponse) : Prop where
  id_eq : flow.id = .str flowId
  name : flow.name.Bounded 1 100
  description : flow.description = .null ∨ flow.description.Bounded 0 500
  status : flow.status.IsStr

/-- The fields have the types that the model declares. -/
structure FlowResponse.Typed (flow : FlowResponse) : Prop where
  id : flow.id.IsStr
  name : flow.name.IsStr
  description : flow.description = .null ∨ flow.description.IsStr
  status : flow.status.IsStr
  createdAt : ∃ t, flow.createdAt = .datetime t
  updatedAt : ∃ t, flow.updatedAt = .datetime t

/-- What no later step changes, and what only grows. -/
structure FlowResponse.Keeps (flow flow' : FlowResponse) : Prop where
  id_eq : flow'.id = flow.id
  createdAt : flow'.createdAt = flow.createdAt
  updatedAt : NotBefore flow.updatedAt flow'.updatedAt

theorem FlowResponse.WellFormed.applyFlowUpdate {flowId : String} {flow : FlowResponse}
    (h : flow.WellFormed flowId) (p : FlowUpdate) (now : Datetime) :
    (Novon.applyFlowUpdate p now flow).WellFormed flowId where
  id_eq := h.id_eq
  name := h.name.overlay p.name
  description := FieldValue.Bounded.overlayNullable h.description p.description
  status := h.status.overlay p.status

namespace Flow

open Run

/-- The clock reading of an event. -/
def reading : Event × Option (Reply FlowResponse) → Option Datetime
  | (.run (.createFlow _) env, _) => some env.now
  | (.run (.updateFlow _ _) env, some ⟨status, _⟩) => if status = 200 then some env.now else none
  | _ => none

/-- The clock readings of a run, in execution order. -/
def readings (run : List Event) : List Datetime := (trace step run Config.empty).filterMap reading

theorem readings_concat (run : List Event) (event : Event) :
    readings (run ++ [event]) = readings run ++
      (reading (event, (step event (exec step run Config.empty).2).1)).toList := by
  rw [readings, trace_concat, List.filterMap_append, ← readings]
  cases h : reading (event, (step event (exec step run Config.empty).2).1) <;> simp [h]

/-- A flow under its id, well-formed and stamped. -/
def Sound (past : List Datetime) (flowId : String) (flow : FlowResponse) : Prop :=
  flow.WellFormed flowId ∧ Stamped past flow.createdAt flow.updatedAt

/-- Every flow that is stored or waits to be is well-formed and stamped. -/
structure WellFormed (past : List Datetime) (c : Config) : Prop where
  stored : ∀ flowId flow, c.flows.get? flowId = some flow → Sound past flowId flow
  waiting : ∀ built ∈ c.waiting, Sound past built.flowId built.flow

variable {c : Config} {event : Event} {past : List Datetime}

theorem Sound.append {flowId : String} {flow : FlowResponse} (h : Sound past flowId flow)
    (more : List Datetime) : Sound (past ++ more) flowId flow :=
  ⟨h.1, h.2.append more⟩

theorem newFlow_wellFormed (payload : FlowCreate) (env : Env) :
    (newFlow payload env).WellFormed (flowIdOf env.uuid) where
  id_eq := rfl
  name := FieldValue.bounded_val payload.name
  description := by
    rw [newFlow]
    cases payload.description with
    | unset | null => exact .inl rfl
    | value b => exact .inr (FieldValue.bounded_val b)
  status := ⟨"created", rfl⟩

theorem sound_buildFlow (payload : FlowCreate) (env : Env) :
    Sound (past ++ [env.now]) (buildFlow payload env).flowId (buildFlow payload env).flow := by
  rw [buildFlow_flow]
  exact ⟨newFlow_wellFormed payload env, stamped_new⟩

/-- **Step lemma**: an event leaves well-formed flows behind, and keeps those it does not create. -/
theorem WellFormed.effect (h : WellFormed past c) {reply : Option (Reply FlowResponse)}
    {c' : Config} (he : EventEffect c event (reply, c'))
    (hm : Chronological (past ++ (reading (event, reply)).toList)) :
    WellFormed (past ++ (reading (event, reply)).toList) c' ∧
      ∀ flowId flow flow', c.flows.get? flowId = some flow → c'.flows.get? flowId = some flow' →
        (write (event, reply)).created ≠ some flowId → flow.Keeps flow' := by
  have hstored : ∀ flowId flow, c.flows.get? flowId = some flow →
      Sound (past ++ (reading (event, reply)).toList) flowId flow :=
    fun flowId flow hf => (h.stored flowId flow hf).append _
  have hwaiting : ∀ built ∈ c.waiting,
      Sound (past ++ (reading (event, reply)).toList) built.flowId built.flow :=
    fun built hb => (h.waiting built hb).append _
  have hkeep : ∀ flowId flow flow', c.flows.get? flowId = some flow →
      c.flows.get? flowId = some flow' → flow.Keeps flow' := by
    intro flowId flow flow' hf hf'
    obtain rfl := Option.some.inj (hf.symm.trans hf')
    exact ⟨rfl, rfl, (h.stored flowId flow hf).2.notBefore⟩
  cases he with
  | @build payload env =>
    refine ⟨⟨hstored, fun built hb => ?_⟩, fun flowId flow flow' hf hf' _ =>
      hkeep flowId flow flow' hf hf'⟩
    rcases List.mem_append.mp hb with hold | hnew
    · exact hwaiting built hold
    · obtain rfl := List.mem_singleton.mp hnew
      exact sound_buildFlow payload env
  | read _ | refused _ | idle =>
    exact ⟨⟨hstored, hwaiting⟩, fun flowId flow flow' hf hf' _ => hkeep flowId flow flow' hf hf'⟩
  | @patch patchedId p env existing hget =>
    have hstamp := (h.stored patchedId existing hget).2.update hm
    refine ⟨⟨fun flowId flow hf => ?_, hwaiting⟩, fun flowId flow flow' hf hf' _ => ?_⟩
    · rcases Dict.get?_set_eq_some_iff.mp hf with ⟨rfl, rfl⟩ | ⟨_, hf⟩
      · exact ⟨(h.stored flowId existing hget).1.applyFlowUpdate p env.now, hstamp.1⟩
      · exact hstored flowId flow hf
    · rcases Dict.get?_set_eq_some_iff.mp hf' with ⟨rfl, rfl⟩ | ⟨_, hf'⟩
      · obtain rfl := Option.some.inj (hf.symm.trans hget)
        exact ⟨rfl, rfl, hstamp.2⟩
      · exact hkeep flowId flow flow' hf hf'
  | @delete deletedId env _ _ =>
    refine ⟨⟨fun flowId flow hf => ?_, hwaiting⟩, fun flowId flow flow' hf hf' _ => ?_⟩
    · exact hstored flowId flow (Dict.get?_pop_eq_some_iff.mp hf).2
    · exact hkeep flowId flow flow' hf (Dict.get?_pop_eq_some_iff.mp hf').2
  | @insert n built hn =>
    have hbuilt := hwaiting built (List.mem_of_getElem? hn)
    refine ⟨⟨fun flowId flow hf => ?_, fun b hb => hwaiting b (List.mem_of_mem_eraseIdx hb)⟩,
      fun flowId flow flow' hf hf' hc => ?_⟩
    · rcases Dict.get?_set_eq_some_iff.mp hf with ⟨rfl, rfl⟩ | ⟨_, hf⟩
      · exact hbuilt
      · exact hstored flowId flow hf
    · have hne : flowId ≠ built.flowId := fun heq => hc (by rw [write_insert, heq]; rfl)
      rw [Dict.get?_set_of_ne _ _ hne] at hf'
      exact hkeep flowId flow flow' hf hf'

theorem WellFormed.step (run : List Event) (event : Event)
    (h : WellFormed (readings run) (exec step run Config.empty).2)
    (hm : Chronological (readings (run ++ [event]))) :
    WellFormed (readings (run ++ [event])) (exec Flow.step (run ++ [event]) Config.empty).2 ∧
      ∀ flowId flow flow', (exec Flow.step run Config.empty).2.flows.get? flowId = some flow →
        (exec Flow.step (run ++ [event]) Config.empty).2.flows.get? flowId = some flow' →
        (write (event, (Flow.step event (exec Flow.step run Config.empty).2).1)).created ≠
          some flowId →
        flow.Keeps flow' := by
  rw [readings_concat] at hm ⊢
  rw [exec_concat]
  exact h.effect (step_effect event _) hm

/-- **Run lemma.** -/
theorem wellFormed_exec (run : List Event) (hm : Chronological (readings run)) :
    WellFormed (readings run) (exec step run Config.empty).2 := by
  induction run using List.reverseRecOn with
  | nil => exact ⟨by simp [Config.empty], by simp [Config.empty]⟩
  | append_singleton run event ih =>
    have hpre : Chronological (readings run) := by
      rw [readings_concat] at hm
      exact hm.of_append
    exact (WellFormed.step run event (ih hpre) hm).1

/-- An id that is stored is not created again, if `uuid4` does not repeat. -/
theorem created_ne_of_stored {run : List Event} {event : Event} (h : NoRepeat (run ++ [event]))
    {flowId : String} {flow : FlowResponse}
    (hget : (exec step run Config.empty).2.flows.get? flowId = some flow) :
    (write (event, (step event (exec step run Config.empty).2).1)).created ≠ some flowId := by
  have hnodup := nodup_createdKeys h
  rw [trace_concat, RecordMachine.createdKeys_concat, List.nodup_append] at hnodup
  have hlife : recordMachine.LifeCycle (trace step run Config.empty)
      (exec step run Config.empty).2 :=
    recordMachine.lifeCycle_exec record_empty run hnodup.1
  have hmem := hlife.created_of_record flowId (by simp [recordMachine, record, hget])
  intro hc
  exact hnodup.2.2 flowId hmem flowId (Option.mem_toList.mpr hc) rfl

end Flow

end Novon
