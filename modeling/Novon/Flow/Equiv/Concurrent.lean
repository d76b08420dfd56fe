import Mathlib.Data.List.Perm.Basic
import Novon.Data.Equiv.History
import Novon.Flow.Concurrent
import Novon.Flow.Equiv.Routes

/-!
# The Flow store as a machine that keeps records

Each event makes one write: a waiting create that gets the lock, a PATCH answered 200 and a DELETE
answered 204 (`recordMachine`).  The ids that have been created and those that wait are the ids
drawn, in some order (`createdKeys_append_waiting_perm`), so a run in which `uuid4` does not repeat
creates none twice.
-/

namespace Novon

/-- A field of a flow, by its name. -/
def FlowResponse.field (flow : FlowResponse) (name : String) : FieldValue :=
  (Dict.lookup name flow.fields).getD .null

/-- What a `PATCH` sets: the fields that its payload effectively sets, and the time stamp. -/
def FlowUpdate.assigns (p : FlowUpdate) (now : Datetime) (name : String) : Option FieldValue :=
  if name = "updated_at" then some (.datetime now)
  else effective (targetNullable FlowResponse.modelFields) p.fields name

theorem FlowResponse.field_applyFlowUpdate (p : FlowUpdate) (now : Datetime) (flow : FlowResponse)
    (name : String) :
    (applyFlowUpdate p now flow).field name = (p.assigns now name).getD (flow.field name) := by
  rw [FlowResponse.field, fields_applyFlowUpdate, patchedFields,
    Dict.lookup_map fun name old => if name = "updated_at" then FieldValue.datetime now
      else patchedField (targetNullable FlowResponse.modelFields) p.fields name old,
    FlowUpdate.assigns]
  by_cases hname : name = "updated_at"
  · subst hname
    rfl
  rw [if_neg hname, FlowResponse.field]
  cases hl : Dict.lookup name flow.fields with
  | some old => simp [hname, patchedField_eq_getD]
  | none =>
    have hnot : name ∉ p.fields.map Prod.fst := by
      rw [Dict.lookup_eq_none_iff] at hl
      simp only [FlowResponse.fields, FlowUpdate.fields, List.map_cons, List.map_nil,
        List.mem_cons, List.not_mem_nil, or_false, not_or] at hl ⊢
      exact ⟨hl.2.1, hl.2.2.1, hl.2.2.2.1⟩
    simp [effective, Dict.lookup_eq_none_iff.mpr hnot]

namespace Flow

open Run

theorem buildFlow_flow (payload : FlowCreate) (env : Env) :
    (buildFlow payload env).flow = newFlow payload env := by
  cases h : payload.description <;>
    simp [buildFlow, newFlow, h, OptField.get?, OptField.toField, OptField.overlay]

/-! ### What an event can do -/

/-- What one event does, with everything it has checked. -/
inductive EventEffect (c : Config) : Event → Option (Reply FlowResponse) × Config → Prop where
  | build {payload : FlowCreate} {env : Env} :
      EventEffect c (.run (.createFlow payload) env)
        (none, { c with waiting := c.waiting ++ [buildFlow payload env] })
  | read {call : FlowCall} {env : Env} {reply : Reply FlowResponse}
      (hread : call = .listFlows ∨ ∃ i, call = .getFlow i) :
      EventEffect c (.run call env) (some reply, c)
  | refused {call : FlowCall} {env : Env} {text : String} (hcreate : ∀ p, call ≠ .createFlow p) :
      EventEffect c (.run call env) (some ⟨404, .detail text⟩, c)
  | patch {flowId : String} {p : FlowUpdate} {env : Env} {existing : FlowResponse}
      (hget : c.flows.get? flowId = some existing) :
      EventEffect c (.run (.updateFlow flowId p) env)
        (some ⟨200, .record (applyFlowUpdate p env.now existing)⟩,
          { c with flows := c.flows.set flowId (applyFlowUpdate p env.now existing) })
  | delete {flowId : String} {env : Env} {flow : FlowResponse}
      (hget : c.flows.get? flowId = some flow) :
      EventEffect c (.run (.deleteFlow flowId) env)
        (some ⟨204, .empty⟩, { c with flows := c.flows.pop flowId })
  /-- A create that is not waiting. -/
  | idle {n : ℕ} : EventEffect c (.insert n) (none, c)
  | insert {n : ℕ} {built : Built} (hwaiting : c.waiting[n]? = some built) :
      EventEffect c (.insert n) (some ⟨201, .record built.flow⟩,
        ⟨c.flows.set built.flowId built.flow, c.waiting.eraseIdx n⟩)

theorem step_effect (event : Event) (c : Config) : EventEffect c event (step event c) := by
  cases event with
  | insert n =>
    rw [step]
    cases h : c.waiting[n]? with
    | none => exact .idle
    | some built => exact .insert h
  | run call env =>
    cases call with
    | createFlow payload => exact .build
    | listFlows => exact .read (.inl rfl)
    | getFlow i =>
      simp only [step, handle, run_getFlow]
      cases c.flows.get? i <;> exact .read (.inr ⟨i, rfl⟩)
    | updateFlow flowId p =>
      simp only [step, handle, run_updateFlow]
      cases h : c.flows.get? flowId with
      | none => exact .refused (by simp)
      | some existing => exact .patch h
    | deleteFlow flowId =>
      simp only [step, handle, run_deleteFlow]
      cases h : c.flows.get? flowId with
      | none => exact .refused (by simp)
      | some flow => exact .delete h

/-! ### Writes -/

/-- The write of an event, from what it answered. -/
def write : Event × Option (Reply FlowResponse) → Write String String FieldValue
  | (.insert _, some ⟨status, .record flow⟩) =>
    match flow.id with
    | .str flowId => if status = 201 then .create flowId flow.field else .idle
    | _ => .idle
  | (.run (.updateFlow flowId p) env, some ⟨status, _⟩) =>
    if status = 200 then .assign flowId (p.assigns env.now) else .idle
  | (.run (.deleteFlow flowId) _, some ⟨status, _⟩) =>
    if status = 204 then .remove flowId else .idle
  | _ => .idle

/-- The fields of a stored flow. -/
def record (c : Config) (flowId : String) : Option (String → FieldValue) :=
  (c.flows.get? flowId).map FlowResponse.field

theorem write_insert (n : ℕ) (built : Built) :
    write (.insert n, some ⟨201, .record built.flow⟩) = .create built.flowId built.flow.field := by
  simp [write, built.id_eq]

theorem relates_write (event : Event) (c : Config) :
    (write (event, (step event c).1)).Relates record c (step event c).2 := by
  have he := step_effect event c
  generalize step event c = r at he ⊢
  cases he with
  | build | idle => exact fun _ => rfl
  | read hread => rcases hread with rfl | ⟨_, rfl⟩ <;> exact fun _ => rfl
  | @refused call _ _ hcreate => cases call <;> exact fun _ => rfl
  | @patch flowId p env existing hget =>
    refine ⟨⟨existing.field, by simp [record, hget], ?_⟩, fun k hk => ?_⟩
    · rw [record, Dict.get?_set_self, Option.map_some]
      exact congrArg some (funext (FlowResponse.field_applyFlowUpdate p env.now existing))
    · simp only [record, Dict.get?_set_of_ne _ _ hk]
  | @delete flowId env flow hget =>
    refine ⟨by simp [record, hget], by simp [record, Dict.get?_pop], fun k hk => ?_⟩
    simp only [record, Dict.get?_pop, if_neg hk]
  | @insert n built hwaiting =>
    rw [write_insert]
    refine ⟨by simp [record], fun k hk => ?_⟩
    simp only [record, Dict.get?_set_of_ne _ _ hk]

def recordMachine :
    RecordMachine Config Event (Option (Reply FlowResponse)) String String FieldValue where
  step := step
  record := record
  write := write
  relates := relates_write

theorem record_empty (k : String) : recordMachine.record Config.empty k = none := rfl

/-! ### Ids are drawn once -/

/-- `uuid4` never repeats within the run. -/
def NoRepeat (run : List Event) : Prop := (run.filterMap Event.drawn).Nodup

instance (run : List Event) : Decidable (NoRepeat run) :=
  inferInstanceAs (Decidable (List.Nodup _))

theorem NoRepeat.of_append {run more : List Event} (h : NoRepeat (run ++ more)) :
    NoRepeat run := by
  rw [NoRepeat, List.filterMap_append, List.nodup_append] at h
  exact h.1

theorem flowIdOf_injective : Function.Injective flowIdOf := by
  intro a b h
  have htext : a.text = b.text := (String.append_right_inj "flow_").mp h
  cases a; cases b; cases htext; rfl

theorem filterMap_drawn_concat (run : List Event) (event : Event) :
    (run ++ [event]).filterMap Event.drawn =
      run.filterMap Event.drawn ++ event.drawn.toList := by
  rw [List.filterMap_append]
  cases h : event.drawn <;> simp [h]

/-- **Step lemma**: the id of a create goes from those drawn to those waiting, and from there to
those created. -/
theorem created_append_waiting_perm (event : Event) (c : Config) :
    ((write (event, (step event c).1)).created.toList ++
        (step event c).2.waiting.map Built.flowId).Perm
      (c.waiting.map Built.flowId ++ event.drawn.toList.map flowIdOf) := by
  have hquiet : ([] ++ c.waiting.map Built.flowId).Perm (c.waiting.map Built.flowId ++ []) := by
    rw [List.append_nil]
    rfl
  have he := step_effect event c
  generalize step event c = r at he ⊢
  cases he with
  | build => simp [write, Write.created, Event.drawn, buildFlow]
  | read hread => rcases hread with rfl | ⟨_, rfl⟩ <;> exact hquiet
  | @refused call _ _ hcreate =>
    cases call with
    | createFlow p => exact absurd rfl (hcreate p)
    | listFlows | getFlow _ | updateFlow _ _ | deleteFlow _ => exact hquiet
  | patch _ | delete _ | idle => exact hquiet
  | @insert n built hwaiting =>
    obtain ⟨hn, rfl⟩ := List.getElem?_eq_some_iff.mp hwaiting
    rw [write_insert]
    simpa [Write.created, Event.drawn] using
      (List.getElem_cons_eraseIdx_perm hn).map Built.flowId

theorem createdKeys_append_waiting_perm (run : List Event) :
    (recordMachine.createdKeys (trace step run .empty) ++
        (exec step run .empty).2.waiting.map Built.flowId).Perm
      ((run.filterMap Event.drawn).map flowIdOf) := by
  induction run using List.reverseRecOn with
  | nil => rfl
  | append_singleton run event ih =>
    rw [trace_concat, exec_concat, RecordMachine.createdKeys_concat, filterMap_drawn_concat,
      List.map_append, List.append_assoc]
    refine ((created_append_waiting_perm event _).append_left _).trans ?_
    rw [← List.append_assoc]
    exact ih.append_right _

/-- No id is created twice. -/
theorem nodup_createdKeys {run : List Event} (h : NoRepeat run) :
    (recordMachine.createdKeys (trace step run .empty)).Nodup := by
  have hall := (createdKeys_append_waiting_perm run).nodup_iff.mpr (h.map flowIdOf_injective)
  exact (List.nodup_append.mp hall).1

/-- A create whose two halves have another request between them, and a PATCH. -/
def clearRun : List Event :=
  [.run (.createFlow .release) ⟨.one, 0⟩, .run .listFlows ⟨.two, 0⟩, .insert 0,
    .run (.updateFlow (flowIdOf .one) .clear) ⟨.two, 1⟩]

end Flow

end Novon
