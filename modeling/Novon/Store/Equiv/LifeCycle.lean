import Novon.Flow.Equiv.Server
import Novon.Store.Equiv.LastWriter
import Novon.Uc.Equiv.Server

/-!
# Records do not come back

In every run in which `uuid4` does not repeat, each id is created once and deleted at most once, and
once it is deleted nothing finds it again.  The life cycle of a record machine says that the record
is gone; what is left is that the handlers answer 404 for an id that is not stored, and show no
record of that id.
-/

namespace Novon

open Run

namespace Uc

/-- No answer shows the user: the three routes of its id say 404 and change nothing, and no other
user answered with has its id. -/
structure Gone (userId : String) (s : Store) : Prop where
  getUser : ∀ env, (step ⟨.getUser userId, env⟩ s).1.statusCode = 404
  updateUser : ∀ p env, (step ⟨.updateUser userId p, env⟩ s).1.statusCode = 404 ∧
    (step ⟨.updateUser userId p, env⟩ s).2 = s
  deleteUser : ∀ env, (step ⟨.deleteUser userId, env⟩ s).1.statusCode = 404 ∧
    (step ⟨.deleteUser userId, env⟩ s).2 = s
  listUsers : ∀ env, ∃ users, (step ⟨.listUsers, env⟩ s).1 = ⟨200, .records users⟩ ∧
    ∀ user ∈ users, user.id ≠ .str userId
  getUserByUsername : ∀ username env user,
    (step ⟨.getUserByUsername username, env⟩ s).1 = ⟨200, .record user⟩ → user.id ≠ .str userId

/-- An id that is not stored is gone, if every user is stored under its own id. -/
theorem gone_of_get?_eq_none {userId : String} {s : Store}
    (hid : ∀ i user, s.users.get? i = some user → user.id = .str i)
    (h : s.users.get? userId = none) : Gone userId s := by
  have hother : ∀ i user, s.users.get? i = some user → user.id ≠ .str userId := by
    intro i user hget heq
    rw [hid i user hget] at heq
    rw [FieldValue.str.inj heq, h] at hget
    cases hget
  refine ⟨fun env => ?_, fun p env => ?_, fun env => ?_, fun env => ⟨_, rfl, fun user hu => ?_⟩,
    fun username env user hreply => ?_⟩
  · simp [step, handle, run_getUser, h, Reply.ofResult]
  · simp [step, handle, run_updateUser, h, Reply.ofResult]
  · simp [step, handle, run_deleteUser, h, Reply.ofResult]
  · obtain ⟨i, hi⟩ := Dict.mem_values_iff.mp hu
    exact hother i user hi
  · simp only [step, handle, run_getUserByUsername] at hreply
    cases hb : (s.usersByUsername.get? (.str username)).bind s.users.get? with
    | none => simp [hb, Reply.ofResult] at hreply
    | some found =>
      obtain ⟨i, -, hi⟩ := Option.bind_eq_some_iff.mp hb
      simp only [hb, Prod.map, Reply.ofResult, Reply.mk.injEq, ReplyBody.record.injEq,
        true_and] at hreply
      exact hother i user (hreply ▸ hi)

theorem lifeCycle_trace {run : List Step} (h : NoRepeat run) :
    recordMachine.LifeCycle (trace step run Store.empty) (exec step run Store.empty).2 :=
  recordMachine.lifeCycle_exec record_empty run (nodup_createdKeys h Store.empty)

/-- **What has been deleted is gone for good.** -/
theorem gone_of_removed {run later : List Step} (h : NoRepeat (run ++ later)) {userId : String}
    (hr : userId ∈ recordMachine.removedKeys (trace step run Store.empty)) :
    Gone userId (exec step (run ++ later) Store.empty).2 := by
  have hr' : userId ∈ recordMachine.removedKeys (trace step (run ++ later) Store.empty) := by
    rw [trace_append, RecordMachine.removedKeys, List.filterMap_append]
    exact List.mem_append_left _ hr
  have hnone := (lifeCycle_trace h).record_of_removed userId hr'
  exact gone_of_get?_eq_none (runInv_exec _ h).consistent.id_eq (Option.map_eq_none_iff.mp hnone)

/-- No handler step ends in an uncaught exception. -/
theorem status_lt_of_mem_trace (run : List Step) (s : Store) :
    ∀ t ∈ trace step run s, t.2.statusCode < 500 := by
  induction run generalizing s with
  | nil => simp
  | cons i run ih =>
    intro t ht
    rcases List.mem_cons.mp ht with rfl | ht
    · exact handle_status_lt i.call i.env s
    · exact ih _ t ht

end Uc

namespace Flow

/-- No answer shows the flow: the three routes of its id say 404 and change nothing, and no other
flow answered with has its id. -/
structure Gone (flowId : String) (c : Config) : Prop where
  getFlow : ∀ env, (step (.run (.getFlow flowId) env) c).1.map Reply.statusCode = some 404
  updateFlow : ∀ p env,
    (step (.run (.updateFlow flowId p) env) c).1.map Reply.statusCode = some 404 ∧
      (step (.run (.updateFlow flowId p) env) c).2 = c
  deleteFlow : ∀ env, (step (.run (.deleteFlow flowId) env) c).1.map Reply.statusCode = some 404 ∧
    (step (.run (.deleteFlow flowId) env) c).2 = c
  listFlows : ∀ env, ∃ flows, (step (.run .listFlows env) c).1 = some ⟨200, .records flows⟩ ∧
    ∀ flow ∈ flows, flow.id ≠ .str flowId

theorem gone_of_get?_eq_none {flowId : String} {c : Config}
    (hid : ∀ i flow, c.flows.get? i = some flow → flow.id = .str i)
    (h : c.flows.get? flowId = none) : Gone flowId c := by
  refine ⟨fun env => ?_, fun p env => ?_, fun env => ?_, fun env => ⟨_, rfl, fun flow hf heq => ?_⟩⟩
  · simp [step, handle, run_getFlow, h, Reply.ofResult]
  · simp [step, handle, run_updateFlow, h, Reply.ofResult]
  · simp [step, handle, run_deleteFlow, h, Reply.ofResult]
  · obtain ⟨i, hi⟩ := Dict.mem_values_iff.mp hf
    rw [hid i flow hi] at heq
    rw [FieldValue.str.inj heq, h] at hi
    cases hi

/-- A flow is stored under its own id: it was created so, and no `PATCH` sets an id. -/
theorem id_eq_of_stored (run : List Event) (flowId : String) (flow : FlowResponse)
    (h : (exec step run Config.empty).2.flows.get? flowId = some flow) :
    flow.id = .str flowId := by
  obtain ⟨_, _, after, created, -, ⟨-, -, hid⟩, -, -, hfields⟩ := explains_trace run flowId flow h
  have hnone : after.reverse.findSome? (patchedValue flowId "id") = none := by
    rw [List.findSome?_eq_none_iff]
    intro t _
    unfold patchedValue
    split
    · split <;> rfl
    · rfl
  have hfield := hfields "id" (by decide)
  rw [hnone] at hfield
  exact hfield.trans hid

theorem lifeCycle_trace {run : List Event} (h : NoRepeat run) :
    recordMachine.LifeCycle (trace step run Config.empty) (exec step run Config.empty).2 :=
  recordMachine.lifeCycle_exec record_empty run (nodup_createdKeys h)

/-- **What has been deleted is gone for good**, also for the creates that were waiting. -/
theorem gone_of_removed {run later : List Event} (h : NoRepeat (run ++ later)) {flowId : String}
    (hr : flowId ∈ recordMachine.removedKeys (trace step run Config.empty)) :
    Gone flowId (exec step (run ++ later) Config.empty).2 := by
  have hr' : flowId ∈ recordMachine.removedKeys (trace step (run ++ later) Config.empty) := by
    rw [trace_append, RecordMachine.removedKeys, List.filterMap_append]
    exact List.mem_append_left _ hr
  have hnone := (lifeCycle_trace h).record_of_removed flowId hr'
  exact gone_of_get?_eq_none (id_eq_of_stored _) (Option.map_eq_none_iff.mp hnone)

theorem status_lt_of_step {event : Event} {c : Config} {reply : Reply FlowResponse}
    (h : (step event c).1 = some reply) : reply.statusCode < 500 := by
  cases event with
  | run call env =>
    cases call with
    | createFlow payload => cases h
    | listFlows | getFlow _ | updateFlow _ _ | deleteFlow _ =>
      obtain rfl := Option.some.inj h
      exact handle_status_lt _ env c.flows
  | insert n =>
    rw [step] at h
    split at h
    · cases h
    · obtain rfl := Option.some.inj h
      exact (by decide : (201 : ℤ) < 500)

/-- No handler step ends in an uncaught exception. -/
theorem status_lt_of_mem_trace (run : List Event) (c : Config) :
    ∀ t ∈ trace step run c, ∀ reply, t.2 = some reply → reply.statusCode < 500 := by
  induction run generalizing c with
  | nil => simp
  | cons event run ih =>
    intro t ht reply hreply
    rcases List.mem_cons.mp ht with rfl | ht
    · exact status_lt_of_step hreply
    · exact ih _ t ht reply hreply

end Flow

/-- **Records do not come back.**  In every run, however the handlers interleave at the lock, with
`uuid4` never repeating: no id is created twice, and the ids that are stored or deleted are among
those created; no id is deleted twice; what has been deleted is gone, whatever runs after it; and no
handler step ends in an uncaught `KeyError`, which would be answered 500. -/
theorem records_do_not_come_back :
    (∀ run later : List Uc.Step, Uc.NoRepeat (run ++ later) →
      (Uc.recordMachine.createdKeys (trace Uc.step run .empty)).Nodup ∧
      (∀ userId, (exec Uc.step run .empty).2.users.contains userId = true ∨
          userId ∈ Uc.recordMachine.removedKeys (trace Uc.step run .empty) →
        userId ∈ Uc.recordMachine.createdKeys (trace Uc.step run .empty)) ∧
      (Uc.recordMachine.removedKeys (trace Uc.step run .empty)).Nodup ∧
      ∀ userId ∈ Uc.recordMachine.removedKeys (trace Uc.step run .empty),
        Uc.Gone userId (exec Uc.step (run ++ later) .empty).2) ∧
    (∀ (run : List Uc.Step) (s : Uc.Store), ∀ t ∈ trace Uc.step run s, t.2.statusCode ≠ 500) ∧
    (∀ run later : List Flow.Event, Flow.NoRepeat (run ++ later) →
      (Flow.recordMachine.createdKeys (trace Flow.step run .empty)).Nodup ∧
      (∀ flowId, (exec Flow.step run .empty).2.flows.contains flowId = true ∨
          flowId ∈ Flow.recordMachine.removedKeys (trace Flow.step run .empty) →
        flowId ∈ Flow.recordMachine.createdKeys (trace Flow.step run .empty)) ∧
      (Flow.recordMachine.removedKeys (trace Flow.step run .empty)).Nodup ∧
      ∀ flowId ∈ Flow.recordMachine.removedKeys (trace Flow.step run .empty),
        Flow.Gone flowId (exec Flow.step (run ++ later) .empty).2) ∧
    (∀ (run : List Flow.Event) (c : Flow.Config), ∀ t ∈ trace Flow.step run c,
      ∀ reply, t.2 = some reply → reply.statusCode ≠ 500) := by
  refine ⟨fun run later h => ?_, fun run s t ht => (Uc.status_lt_of_mem_trace run s t ht).ne,
    fun run later h => ?_,
    fun run c t ht reply hr => (Flow.status_lt_of_mem_trace run c t ht reply hr).ne⟩
  · have hlife := Uc.lifeCycle_trace h.of_append
    refine ⟨Uc.nodup_createdKeys h.of_append _, fun userId hid => ?_, hlife.nodup_removed,
      fun userId hr => Uc.gone_of_removed h hr⟩
    rcases hid with hstored | hremoved
    · obtain ⟨user, huser⟩ := Dict.contains_iff.mp hstored
      exact hlife.created_of_record userId (by simp [Uc.recordMachine, Uc.record, huser])
    · exact hlife.created_of_removed userId hremoved
  · have hlife := Flow.lifeCycle_trace h.of_append
    refine ⟨Flow.nodup_createdKeys h.of_append, fun flowId hid => ?_, hlife.nodup_removed,
      fun flowId hr => Flow.gone_of_removed h hr⟩
    rcases hid with hstored | hremoved
    · obtain ⟨flow, hflow⟩ := Dict.contains_iff.mp hstored
      exact hlife.created_of_record flowId (by simp [Flow.recordMachine, Flow.record, hflow])
    · exact hlife.created_of_removed flowId hremoved

/-- A delete with a PATCH of the same id after it. -/
theorem records_do_not_come_back_sample :
    Uc.Gone (Uc.userIdOf .one) (exec Uc.step (Uc.renameRun ++
      [⟨.deleteUser (Uc.userIdOf .one), ⟨.two, 2⟩⟩,
        ⟨.updateUser (Uc.userIdOf .one) .suspend, ⟨.two, 3⟩⟩]) .empty).2 ∧
    Uc.userIdOf .one ∈ Uc.recordMachine.createdKeys (trace Uc.step Uc.renameRun .empty) ∧
    (Uc.step ⟨.deleteUser (Uc.userIdOf .one), ⟨.two, 2⟩⟩ .empty).1.statusCode ≠ 500 ∧
    Flow.Gone (Flow.flowIdOf .one) (exec Flow.step (Flow.clearRun ++
      [.run (.deleteFlow (Flow.flowIdOf .one)) ⟨.two, 2⟩,
        .run (.updateFlow (Flow.flowIdOf .one) .archive) ⟨.two, 3⟩]) .empty).2 ∧
    Flow.flowIdOf .one ∈ Flow.recordMachine.createdKeys
      (trace Flow.step Flow.clearRun .empty) ∧
    (Reply.mk 404 (.detail "Flow not found") : Reply FlowResponse).statusCode ≠ 500 := by
  obtain ⟨hlife, hstatus, hlife', hstatus'⟩ := records_do_not_come_back
  refine ⟨?_, ?_, ?_, ?_, ?_, ?_⟩
  · exact (hlife (Uc.renameRun ++ [⟨.deleteUser (Uc.userIdOf .one), ⟨.two, 2⟩⟩])
      [⟨.updateUser (Uc.userIdOf .one) .suspend, ⟨.two, 3⟩⟩] (by decide)).2.2.2 _
        (List.mem_singleton.mpr rfl)
  · exact (hlife Uc.renameRun [] (by decide)).2.1 _ (.inl rfl)
  · exact hstatus [⟨.deleteUser (Uc.userIdOf .one), ⟨.two, 2⟩⟩] .empty _
      (List.mem_singleton.mpr rfl)
  · exact (hlife' (Flow.clearRun ++ [.run (.deleteFlow (Flow.flowIdOf .one)) ⟨.two, 2⟩])
      [.run (.updateFlow (Flow.flowIdOf .one) .archive) ⟨.two, 3⟩] (by decide)).2.2.2 _
        (List.mem_singleton.mpr rfl)
  · exact (hlife' Flow.clearRun [] (by decide)).2.1 _ (.inl rfl)
  · exact hstatus' [.run (.deleteFlow (Flow.flowIdOf .one)) ⟨.two, 2⟩] .empty _
      (List.mem_singleton.mpr rfl) _ rfl

end Novon
