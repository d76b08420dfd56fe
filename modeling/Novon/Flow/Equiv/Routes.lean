import Novon.Core.Equiv.ModelUtils
import Novon.Flow.Routes

/-!
# What the Flow handlers do

Each handler has a closed form, and every call has one of the effects of `Effect`.
-/

namespace Novon

/-- The flow that a PATCH stores. -/
def applyFlowUpdate (p : FlowUpdate) (now : Datetime) (flow : FlowResponse) : FlowResponse :=
  { flow with
    name := (p.name.toField BoundedStr.val).overlay flow.name
    description := (p.description.toField BoundedStr.val).overlayNullable flow.description
    status := (p.status.toField id).overlay flow.status
    updatedAt := .datetime now }

/-- Overlaying the explicitly set fields is the PATCH of the record. -/
theorem modelCopy_partialUpdate_flow (p : FlowUpdate) (now : Datetime) (flow : FlowResponse) :
    flow.modelCopy ((partialUpdateDict FieldValue.isNone (modelDump true p.fields)
      FlowResponse.modelFields).set "updated_at" (.datetime now)) = applyFlowUpdate p now flow := by
  simp only [FlowResponse.modelCopy, applyFlowUpdate, Dict.getD, Dict.get?_set,
    get?_partialUpdate_flow, ← getD_filter_dump, ← getD_dump]
  have hkeep : ∀ o : Option FieldValue, (o.filter fun _ => true) = o := by
    rintro (_ | _) <;> rfl
  simp [FlowUpdate.fields, Dict.lookup, hkeep]

def FlowResponse.fields (flow : FlowResponse) : List (String × FieldValue) :=
  [("id", flow.id), ("name", flow.name), ("description", flow.description),
    ("status", flow.status), ("created_at", flow.createdAt), ("updated_at", flow.updatedAt)]

theorem fields_applyFlowUpdate (p : FlowUpdate) (now : Datetime) (flow : FlowResponse) :
    (applyFlowUpdate p now flow).fields =
      patchedFields (targetNullable FlowResponse.modelFields) p.fields now flow.fields := by
  have hname : Dict.lookup "name" p.fields = some (p.name.toField BoundedStr.val) := rfl
  have hdescription : Dict.lookup "description" p.fields =
      some (p.description.toField BoundedStr.val) := rfl
  have hstatus : Dict.lookup "status" p.fields = some (p.status.toField id) := rfl
  have hid : Dict.lookup "id" p.fields = none := rfl
  have hcreated : Dict.lookup "created_at" p.fields = none := rfl
  rw [targetNullable_flowResponse]
  simp [FlowResponse.fields, patchedFields, applyFlowUpdate, patchedField_of_lookup hname,
    patchedField_of_lookup hdescription, patchedField_of_lookup hstatus,
    patchedField_of_lookup_eq_none hid, patchedField_of_lookup_eq_none hcreated]

namespace Flow

open Handler

theorem run_getFlow (flowId : String) (s : Store) :
    (getFlow flowId).run s =
      match s.get? flowId with
      | some flow => (.ok flow, s)
      | none => (.error (.httpException 404 "Flow not found"), s) := by
  cases h : s.get? flowId <;> simp [getFlow, Dict.contains, Dict.item, h]

def newFlow (payload : FlowCreate) (env : Env) : FlowResponse where
  id := .str (flowIdOf env.uuid)
  name := .str payload.name.val
  description := (payload.description.toField BoundedStr.val).overlay .null
  status := .str "created"
  createdAt := .datetime env.now
  updatedAt := .datetime env.now

theorem run_createFlow (payload : FlowCreate) (env : Env) (s : Store) :
    (createFlow payload env).run s =
      (.ok (newFlow payload env), s.set (flowIdOf env.uuid) (newFlow payload env)) := by
  have hdesc : (payload.description.get?.map fun d => FieldValue.str d.val).getD .null =
      (payload.description.toField BoundedStr.val).overlay .null := by
    cases payload.description <;> rfl
  simp [createFlow, newFlow, hdesc]

theorem run_updateFlow (flowId : String) (p : FlowUpdate) (env : Env) (s : Store) :
    (updateFlow flowId p env).run s =
      match s.get? flowId with
      | none => (.error (.httpException 404 "Flow not found"), s)
      | some existing => (.ok (applyFlowUpdate p env.now existing),
          s.set flowId (applyFlowUpdate p env.now existing)) := by
  unfold updateFlow
  simp only [modelCopy_partialUpdate_flow]
  cases h : s.get? flowId <;> simp [Dict.contains, Dict.item, h]

theorem run_deleteFlow (flowId : String) (s : Store) :
    (deleteFlow flowId).run s =
      match s.get? flowId with
      | none => (.error (.httpException 404 "Flow not found"), s)
      | some _ => (.ok (), s.pop flowId) := by
  cases h : s.get? flowId <;> simp [deleteFlow, Dict.contains, Dict.item, h]

/-- What one step does to the store, with everything it has checked. -/
inductive Effect (env : Env) (s : Store) : FlowCall → Reply FlowResponse × Store → Prop where
  | read {call : FlowCall} {reply : Reply FlowResponse}
      (hread : call = .listFlows ∨ ∃ i, call = .getFlow i) : Effect env s call (reply, s)
  /-- A write refused with a 404. -/
  | refused {call : FlowCall} {text : String} : Effect env s call (⟨404, .detail text⟩, s)
  | create {payload : FlowCreate} :
      Effect env s (.createFlow payload)
        (⟨201, .record (newFlow payload env)⟩, s.set (flowIdOf env.uuid) (newFlow payload env))
  | patch {flowId : String} {p : FlowUpdate} {existing : FlowResponse}
      (hget : s.get? flowId = some existing) :
      Effect env s (.updateFlow flowId p)
        (⟨200, .record (applyFlowUpdate p env.now existing)⟩,
          s.set flowId (applyFlowUpdate p env.now existing))
  | delete {flowId : String} {flow : FlowResponse} (hget : s.get? flowId = some flow) :
      Effect env s (.deleteFlow flowId) (⟨204, .empty⟩, s.pop flowId)

theorem handle_effect (call : FlowCall) (env : Env) (s : Store) :
    Effect env s call (handle call env s) := by
  cases call with
  | listFlows => exact .read (.inl rfl)
  | getFlow i =>
    rw [handle, run_getFlow]
    split <;> exact .read (.inr ⟨i, rfl⟩)
  | createFlow payload =>
    rw [handle, run_createFlow]
    exact .create
  | updateFlow flowId p =>
    rw [handle, run_updateFlow]
    split
    · exact .refused
    · next existing hget => exact .patch hget
  | deleteFlow flowId =>
    rw [handle, run_deleteFlow]
    split
    · exact .refused
    · next flow hget => exact .delete hget

end Flow

end Novon
