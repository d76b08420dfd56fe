import Novon.Data.Equiv.Thread
import Novon.Flow.Equiv.Routes
import Novon.Flow.Threads

/-!
# The Flow service under every schedule

As for users, the service is linearizable and what clients are told fits a store whose
flows are kept under their ids (`flows_linearizable`).  The comment above `_FLOWS_LOCK` says
what would happen without the lock, and it does: two deletes of a stored flow can end in a
`KeyError` (`unlocked_deletes_raise`), and a delete that races an update can bring the flow back
(`unlocked_delete_resurrects`), from every store and for every flow in it.
-/

namespace Novon.Flow.Threads

open Run

/-! ### The handlers as one step -/

theorem run_getFlow_eq (flowId : String) (s : Store) :
    (getFlow flowId).run s = (Flow.getFlow flowId).run s := by
  rw [run_getFlow]
  cases h : s.get? flowId <;> simp [getFlow, Dict.contains, Dict.item, h]

theorem run_updateFlow_eq (flowId : String) (p : FlowUpdate) (env : Env) (s : Store) :
    (updateFlow flowId p env).run s = (Flow.updateFlow flowId p env).run s := by
  unfold updateFlow Flow.updateFlow
  cases h : s.get? flowId with
  | none => simp [Dict.contains, h]
  | some existing => simp [Dict.contains, Dict.item, h]

theorem run_deleteFlow_eq (flowId : String) (s : Store) :
    (deleteFlow flowId).run s = (Flow.deleteFlow flowId).run s := by
  rw [run_deleteFlow]
  cases h : s.get? flowId <;> simp [deleteFlow, Dict.contains, Dict.item, h]

/-- With nothing between its accesses, a handler is one step of the store. -/
theorem eval_script (i : Request) (s : Store) : (script i).eval s = serve i s := by
  obtain ⟨call, env⟩ := i
  cases call with
  | listFlows => rfl
  | getFlow i =>
    simp only [script, serve, handle, Routine.eval_respond, run_getFlow_eq]
    rfl
  | createFlow p => rfl
  | updateFlow i p =>
    simp only [script, serve, handle, Routine.eval_respond, run_updateFlow_eq]
    rfl
  | deleteFlow i =>
    simp only [script, serve, handle, Routine.eval_respond, run_deleteFlow_eq]
    rfl

theorem linearization_after (s : Store) (moves : List (Move Request)) :
    Pool.Linearization serve s (after s moves) :=
  (Pool.lockInv_after script s moves).linearization eval_script

/-! ### What clients are told -/

/-- Flows are stored under their ids. -/
def Keyed (s : Store) : Prop := ∀ i flow, s.get? i = some flow → flow.id = .str i

theorem keyed_empty : Keyed .empty := by simp [Keyed]

/-- **Step lemma**: every handler keeps the flows under their ids. -/
theorem Keyed.serve {s : Store} (h : Keyed s) (i : Request) : Keyed (serve i s).2 := by
  have he := handle_effect i.call i.env s
  rw [Threads.serve]
  generalize i.call = call at he ⊢
  generalize handle call i.env s = r at he ⊢
  cases he with
  | read _ => exact h
  | refused => exact h
  | @create payload =>
    intro k flow hget
    rcases Dict.get?_set_eq_some_iff.mp hget with ⟨rfl, rfl⟩ | ⟨_, hget⟩
    · rw [newFlow]
    · exact h k flow hget
  | @patch flowId p existing hexisting =>
    intro k flow hget
    rcases Dict.get?_set_eq_some_iff.mp hget with ⟨rfl, rfl⟩ | ⟨_, hget⟩
    · exact h k existing hexisting
    · exact h k flow hget
  | delete _ => exact fun k flow hget => h k flow (Dict.get?_pop_eq_some_iff.mp hget).2

/-- **Run lemma**: flows are stored under their ids after any requests. -/
theorem keyed_exec (order : List Request) : Keyed (exec serve order .empty).2 :=
  exec_invariant Threads.serve (fun _ => True) (fun _ => Keyed) .empty (fun _ _ _ => trivial)
    keyed_empty (fun _ i _ _ h => h.serve i) order trivial

/-- What the answer to a call says about the store: a list names no id twice, a record is the one
asked for, a create is never refused and a write to a record only with a 404. -/
def Answers : FlowCall → Reply FlowResponse → Prop
  | .listFlows, r => ∃ flows, r = ⟨200, .records flows⟩ ∧
      flows.Pairwise fun f g => f.id ≠ g.id
  | .getFlow i, r => r.statusCode = 404 ∨ ∃ flow, r = ⟨200, .record flow⟩ ∧ flow.id = .str i
  | .createFlow p, r => ∃ flow, r = ⟨201, .record flow⟩ ∧ flow.name = .str p.name.val
  | .updateFlow i _, r => r.statusCode = 404 ∨ ∃ flow, r = ⟨200, .record flow⟩ ∧ flow.id = .str i
  | .deleteFlow _, r => r.statusCode = 404 ∨ r = ⟨204, .empty⟩

theorem Keyed.pairwise_values {s : Store} (h : Keyed s) :
    s.values.Pairwise fun f g => f.id ≠ g.id := by
  have hkeys : s.entries.Pairwise fun x y => x.1 ≠ y.1 := List.pairwise_map.mp s.nodup_keys
  unfold Dict.values
  rw [List.pairwise_map]
  refine hkeys.imp_of_mem fun {x y} hx hy hne => ?_
  have hgx := Dict.get?_eq_some_iff.mpr (show (x.1, x.2) ∈ s.entries from hx)
  have hgy := Dict.get?_eq_some_iff.mpr (show (y.1, y.2) ∈ s.entries from hy)
  rw [h _ _ hgx, h _ _ hgy]
  simpa using hne

theorem answers_of_keyed {s : Store} (h : Keyed s) (i : Request) :
    Answers i.call (serve i s).1 := by
  obtain ⟨call, env⟩ := i
  cases call with
  | listFlows => exact ⟨s.values, rfl, h.pairwise_values⟩
  | getFlow flowId =>
    rw [serve, handle, run_getFlow]
    cases hget : s.get? flowId with
    | none => exact .inl rfl
    | some flow => exact .inr ⟨flow, rfl, h _ _ hget⟩
  | createFlow p => exact ⟨_, rfl, rfl⟩
  | updateFlow flowId p =>
    rw [serve, handle, run_updateFlow]
    cases hget : s.get? flowId with
    | none => exact .inl rfl
    | some existing => exact .inr ⟨_, rfl, h flowId existing hget⟩
  | deleteFlow flowId =>
    rw [serve, handle, run_deleteFlow]
    cases s.get? flowId with
    | none => exact .inl rfl
    | some flow => exact .inr rfl

/-- **The Flow service is linearizable**, in an order that respects real time, and under every
schedule each answer is the one that its request asks of a store whose flows are kept under their
ids: nobody is ever answered with a 500. -/
theorem flows_linearizable (moves later : List (Move Request)) :
    Pool.Linearization serve .empty (after .empty (moves ++ later)) ∧
    (∀ (t u k l : ℕ) (i j : Request), ((after .empty moves).reply? t).isSome →
      (after .empty moves).threads.length ≤ u →
      (after .empty (moves ++ later)).acquired[k]? = some (t, i) →
      (after .empty (moves ++ later)).acquired[l]? = some (u, j) → k < l) ∧
    ∀ t r, (after .empty moves).reply? t = some r →
      ∃ i th, (after .empty moves).threads[t]? = some (i, th) ∧ Answers i.call r := by
  refine ⟨linearization_after .empty _, fun _ _ _ _ _ _ => Pool.lt_of_returned, fun t r hr => ?_⟩
  obtain ⟨i, th, before, hget, -, rfl⟩ := (linearization_after .empty moves).exists_before hr
  exact ⟨i, th, hget, answers_of_keyed (keyed_exec before) i⟩

/-! ### Without the lock -/

/-- The dictionary operations of `delete_flow`. -/
theorem script_deleteFlow (flowId : String) (env : Env) :
    script ⟨.deleteFlow flowId, env⟩ = .access id fun s =>
      if s.contains flowId then
        .access (fun s => s.pop flowId) fun s =>
          .done (if s.contains flowId then ⟨204, .empty⟩
            else ⟨500, .detail "Internal Server Error"⟩)
      else .done ⟨404, .detail "Flow not found"⟩ := by
  refine congrArg (Script.access id) (funext fun s => ?_)
  by_cases h : s.contains flowId = true
  · simp only [h]
    refine congrArg (Script.access _) (funext fun s' => ?_)
    cases hget : s'.get? flowId <;> simp [Dict.contains, Dict.item, hget] <;> rfl
  · simp only [h]
    rfl

/-- The dictionary operations of `update_flow`. -/
theorem script_updateFlow (flowId : String) (p : FlowUpdate) (env : Env) :
    script ⟨.updateFlow flowId p, env⟩ = .access id fun s =>
      if s.contains flowId then
        .access id fun s =>
          match s.get? flowId with
          | some existing => .access (fun s => s.set flowId (applyFlowUpdate p env.now existing))
              fun _ => .done ⟨200, .record (applyFlowUpdate p env.now existing)⟩
          | none => .done ⟨500, .detail "Internal Server Error"⟩
      else .done ⟨404, .detail "Flow not found"⟩ := by
  refine congrArg (Script.access id) (funext fun s => ?_)
  by_cases h : s.contains flowId = true
  · simp only [h]
    refine congrArg (Script.access id) (funext fun s' => ?_)
    cases hget : s'.get? flowId with
    | none =>
      simp only [Dict.item, hget]
      rfl
    | some existing =>
      simp only [Dict.item, hget, ← modelCopy_partialUpdate_flow]
      rfl
  · simp only [h]
    rfl

/-- **Without the lock concurrent deletes raise `KeyError`**: from every store and for every flow
in it, under some schedule of two deletes one is answered 204 and the other 500, while one after
the other they are answered 204 and 404. -/
theorem unlocked_deletes_raise (s : Store) (flowId : String) (h : s.contains flowId = true)
    (env env' : Env) :
    (∃ moves,
      let q := Pool.after (Pool.withoutLock script) s moves
      q.reply? 0 = some ⟨204, .empty⟩ ∧
      q.reply? 1 = some ⟨500, .detail "Internal Server Error"⟩) ∧
    (exec serve [⟨.deleteFlow flowId, env⟩, ⟨.deleteFlow flowId, env'⟩] s).1 =
      [⟨204, .empty⟩, ⟨404, .detail "Flow not found"⟩] := by
  obtain ⟨flow, hget⟩ := Dict.contains_iff.mp h
  have hgone : (s.pop flowId).get? flowId = none := by rw [Dict.get?_pop, if_pos rfl]
  constructor
  · -- both have found the flow before either takes it out
    refine ⟨[.start ⟨.deleteFlow flowId, env⟩, .start ⟨.deleteFlow flowId, env'⟩, .run 0, .run 1,
      .run 0, .run 0, .run 1, .run 1], ?_⟩
    have hnot : (s.pop flowId).contains flowId = false := Dict.get?_eq_none_iff.mp hgone
    simp [Pool.after, Pool.withoutLock, Pool.init, exec_cons, Pool.step, script_deleteFlow,
      Pool.advance, Pool.put, Pool.reply?, h, hnot]
  · simp [exec_cons, serve, handle, run_deleteFlow, hget, hgone, Prod.map, Reply.ofResult]

/-- **Without the lock a delete that races an update resurrects the flow**: from every store and
for every flow in it, under some schedule both succeed and the flow is still there, while in either
order of serving the two requests it is gone. -/
theorem unlocked_delete_resurrects (s : Store) (flowId : String) (h : s.contains flowId = true)
    (p : FlowUpdate) (env env' : Env) :
    (∃ moves flow,
      let q := Pool.after (Pool.withoutLock script) s moves
      q.reply? 0 = some ⟨200, .record flow⟩ ∧ q.reply? 1 = some ⟨204, .empty⟩ ∧
      q.shared.get? flowId = some flow) ∧
    (exec serve [⟨.updateFlow flowId p, env⟩, ⟨.deleteFlow flowId, env'⟩] s).2.get? flowId = none ∧
    (exec serve [⟨.deleteFlow flowId, env'⟩, ⟨.updateFlow flowId p, env⟩] s).2.get? flowId =
      none := by
  obtain ⟨existing, hget⟩ := Dict.contains_iff.mp h
  have hgone : ∀ d : Store, (d.pop flowId).get? flowId = none := by
    intro d
    rw [Dict.get?_pop, if_pos rfl]
  refine ⟨?_, ?_, ?_⟩
  · -- the delete comes between the update's read and its write
    refine ⟨[.start ⟨.updateFlow flowId p, env⟩, .start ⟨.deleteFlow flowId, env'⟩, .run 0, .run 0,
      .run 1, .run 1, .run 1, .run 0, .run 0], applyFlowUpdate p env.now existing, ?_⟩
    simp [Pool.after, Pool.withoutLock, Pool.init, exec_cons, Pool.step, script_deleteFlow,
      script_updateFlow, Pool.advance, Pool.put, Pool.reply?, h, hget]
  · simp [exec_cons, serve, handle, run_updateFlow, run_deleteFlow, hget, hgone, Prod.map]
  · simp [exec_cons, serve, handle, run_updateFlow, run_deleteFlow, hget, hgone, Prod.map]

/-- **What `_FLOWS_LOCK` is for**: without it, from every store and for every flow in it, two
deletes can be answered 204 and 500 and an update that a delete overtakes can bring the flow back,
and neither can happen when the requests are served one after another. -/
theorem flows_need_lock (s : Store) (flowId : String) (h : s.contains flowId = true)
    (p : FlowUpdate) (env env' : Env) :
    ((∃ moves,
      let q := Pool.after (Pool.withoutLock script) s moves
      q.reply? 0 = some ⟨204, .empty⟩ ∧
      q.reply? 1 = some ⟨500, .detail "Internal Server Error"⟩) ∧
    (exec serve [⟨.deleteFlow flowId, env⟩, ⟨.deleteFlow flowId, env'⟩] s).1 =
      [⟨204, .empty⟩, ⟨404, .detail "Flow not found"⟩]) ∧
    (∃ moves flow,
      let q := Pool.after (Pool.withoutLock script) s moves
      q.reply? 0 = some ⟨200, .record flow⟩ ∧ q.reply? 1 = some ⟨204, .empty⟩ ∧
      q.shared.get? flowId = some flow) ∧
    (exec serve [⟨.updateFlow flowId p, env⟩, ⟨.deleteFlow flowId, env'⟩] s).2.get? flowId = none ∧
    (exec serve [⟨.deleteFlow flowId, env'⟩, ⟨.updateFlow flowId p, env⟩] s).2.get? flowId =
      none :=
  ⟨unlocked_deletes_raise s flowId h env env', unlocked_delete_resurrects s flowId h p env env'⟩

/-- A store with one flow. -/
def oneFlow : Store := (serve ⟨.createFlow .release, ⟨.one, 0⟩⟩ .empty).2

theorem flows_need_lock_oneFlow :
    (∃ moves, (Pool.after (Pool.withoutLock script) oneFlow moves).reply? 1 =
      some ⟨500, .detail "Internal Server Error"⟩) ∧
    (exec serve [⟨.deleteFlow (flowIdOf .one), ⟨.two, 1⟩⟩,
      ⟨.updateFlow (flowIdOf .one) .clear, ⟨.two, 1⟩⟩] oneFlow).2.get? (flowIdOf .one) = none := by
  obtain ⟨⟨⟨moves, -, hraised⟩, -⟩, -, -, hgone⟩ :=
    flows_need_lock oneFlow (flowIdOf .one) (by decide) .clear ⟨.two, 1⟩ ⟨.two, 1⟩
  exact ⟨⟨moves, hraised⟩, hgone⟩

end Novon.Flow.Threads
