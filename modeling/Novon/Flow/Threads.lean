import Novon.Data.Thread
import Novon.Flow.Concurrent

/-!
# Flow handlers, one access at a time

The bodies of the `with _FLOWS_LOCK:` blocks of `routes.py`, each a script that touches `_FLOWS` in
one dictionary operation after another.  `create_flow` comes to its block with the record that it
has built.
-/

namespace Novon.Flow.Threads

open Routine

/-- The body of a critical section. -/
abbrev FlowRoutine (α : Type) : Type := Routine HandlerError Store α

/-- `GET /flows`. -/
def listFlows : FlowRoutine (List FlowResponse) := do
  let flows ← read fun s => s.values
  return flows

/-- `GET /flows/{flow_id}`. -/
def getFlow (flowId : String) : FlowRoutine FlowResponse := do
  if !(← read fun s => s.contains flowId) then
    raise (.httpException 404 "Flow not found")
  item fun s => s.item flowId

/-- `POST /flows`, from the lock on. -/
def createFlow (built : Built) : FlowRoutine FlowResponse := do
  Routine.write fun s => s.set built.flowId built.flow
  return built.flow

/-- `PATCH /flows/{flow_id}`. -/
def updateFlow (flowId : String) (payload : FlowUpdate) (env : Env) : FlowRoutine FlowResponse := do
  if !(← read fun s => s.contains flowId) then
    raise (.httpException 404 "Flow not found")
  let existing ← item fun s => s.item flowId
  let updateData :=
    partialUpdateDict FieldValue.isNone (modelDump true payload.fields) FlowResponse.modelFields
  let updated := existing.modelCopy (updateData.set "updated_at" (.datetime env.now))
  Routine.write fun s => s.set flowId updated
  return updated

/-- `DELETE /flows/{flow_id}`. -/
def deleteFlow (flowId : String) : FlowRoutine Unit := do
  if !(← read fun s => s.contains flowId) then
    raise (.httpException 404 "Flow not found")
  -- `del` raises on an id that is not there
  let _ ← pop (fun s => s.item flowId) fun s => s.pop flowId
  return ()

/-- One request reaching the service, with what the environment gives its handler. -/
structure Request where
  call : FlowCall
  env : Env

/-- The section of the handler that a request reaches, and the reply made of its result. -/
def script (i : Request) : Script Store (Reply FlowResponse) :=
  match i.call with
  | .listFlows => listFlows.respond (Reply.ofResult 200 .records)
  | .getFlow flowId => (getFlow flowId).respond (Reply.ofResult 200 .record)
  | .createFlow payload =>
    (createFlow (buildFlow payload i.env)).respond (Reply.ofResult 201 .record)
  | .updateFlow flowId payload =>
    (updateFlow flowId payload i.env).respond (Reply.ofResult 200 .record)
  | .deleteFlow flowId => (deleteFlow flowId).respond (Reply.ofResult 204 fun _ => .empty)

/-- The service with its threads, from store `s`. -/
def after (s : Store) (moves : List (Move Request)) : Pool Request Store (Reply FlowResponse) :=
  Pool.after (Pool.underLock script) s moves

/-- One handler at a time. -/
def serve (i : Request) (s : Store) : Reply FlowResponse × Store := handle i.call i.env s

end Novon.Flow.Threads
