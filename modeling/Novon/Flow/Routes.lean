import Novon.FlowApi.Models
import Novon.Http.Reply

/-!
# Flow routes

`apps/flow`: the in-memory store and the five handlers of `routes.py`.  Every handler that touches
`_FLOWS` does so in one critical section of `_FLOWS_LOCK`; `create_flow` builds its record before
it.
-/

namespace Novon.Flow

/-- `_FLOWS`. -/
abbrev Store : Type := Dict String FlowResponse

abbrev FlowHandler (α : Type) : Type := Handler HandlerError Store α

open Handler

/-- `GET /flows`. -/
def listFlows : FlowHandler (List FlowResponse) := do
  return (← get).values

/-- `GET /flows/{flow_id}`. -/
def getFlow (flowId : String) : FlowHandler FlowResponse := do
  if !(← get).contains flowId then
    raise (.httpException 404 "Flow not found")
  ofExcept ((← get).item flowId)

/-- `f"flow_{uuid4()}"`. -/
def flowIdOf (uuid : Uuid) : String := "flow_" ++ uuid.text

/-- `POST /flows`. -/
def createFlow (payload : FlowCreate) (env : Env) : FlowHandler FlowResponse := do
  let flowId := flowIdOf env.uuid
  let flow : FlowResponse := {
    id := .str flowId
    name := .str payload.name.val
    description := (payload.description.get?.map fun d => FieldValue.str d.val).getD .null
    status := .str "created"
    createdAt := .datetime env.now
    updatedAt := .datetime env.now }
  modify fun s => s.set flowId flow
  return flow

/-- `PATCH /flows/{flow_id}`. -/
def updateFlow (flowId : String) (payload : FlowUpdate) (env : Env) : FlowHandler FlowResponse := do
  if !(← get).contains flowId then
    raise (.httpException 404 "Flow not found")
  let existing ← ofExcept ((← get).item flowId)
  let updateData :=
    partialUpdateDict FieldValue.isNone (modelDump true payload.fields) FlowResponse.modelFields
  let updated := existing.modelCopy (updateData.set "updated_at" (.datetime env.now))
  modify fun s => s.set flowId updated
  return updated

/-- `DELETE /flows/{flow_id}`. -/
def deleteFlow (flowId : String) : FlowHandler Unit := do
  if !(← get).contains flowId then
    raise (.httpException 404 "Flow not found")
  let _ ← ofExcept ((← get).item flowId)
  modify fun s => s.pop flowId

/-- Runs the handler of a call and renders the reply with the route's success status. -/
def handle (call : FlowCall) (env : Env) (s : Store) : Reply FlowResponse × Store :=
  match call with
  | .listFlows => (listFlows.run s).map (Reply.ofResult 200 .records) id
  | .getFlow flowId => ((getFlow flowId).run s).map (Reply.ofResult 200 .record) id
  | .createFlow payload => ((createFlow payload env).run s).map (Reply.ofResult 201 .record) id
  | .updateFlow flowId payload =>
    ((updateFlow flowId payload env).run s).map (Reply.ofResult 200 .record) id
  | .deleteFlow flowId => ((deleteFlow flowId).run s).map (Reply.ofResult 204 fun _ => .empty) id

end Novon.Flow
