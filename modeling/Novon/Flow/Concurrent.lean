import Novon.Data.Run
import Novon.Flow.Routes

/-!
# Flow requests side by side

Handlers run on a thread pool and meet only at `_FLOWS_LOCK`.  Four of the handlers run in one
critical section.  `create_flow` reads the clock and builds its record before it takes the lock, so
that other handlers may run between the two halves.
-/

namespace Novon.Flow

open Handler

/-- What `create_flow` has built when it takes the lock. -/
structure Built where
  flowId : String
  flow : FlowResponse
  id_eq : flow.id = .str flowId

/-- `create_flow` up to the lock. -/
def buildFlow (payload : FlowCreate) (env : Env) : Built where
  flowId := flowIdOf env.uuid
  flow := {
    id := .str (flowIdOf env.uuid)
    name := .str payload.name.val
    description := (payload.description.get?.map fun d => FieldValue.str d.val).getD .null
    status := .str "created"
    createdAt := .datetime env.now
    updatedAt := .datetime env.now }
  id_eq := rfl

/-- The critical section of `create_flow`. -/
def insertFlow (built : Built) : FlowHandler FlowResponse := do
  modify fun s => s.set built.flowId built.flow
  return built.flow

/-- The store, and the creates that wait for the lock. -/
structure Config where
  flows : Store
  waiting : List Built

def Config.empty : Config := ⟨.empty, []⟩

inductive Event where
  /-- A request is handled: a `create_flow` up to the lock, any other handler to its end. -/
  | run (call : FlowCall) (env : Env)
  /-- One of the waiting creates gets the lock. -/
  | insert (n : ℕ)

/-- The identifier an event draws from `uuid4()`. -/
def Event.drawn : Event → Option Uuid
  | .run (.createFlow _) env => some env.uuid
  | _ => none

/-- What an event answers, if it answers a request. -/
def step : Event → Config → Option (Reply FlowResponse) × Config
  | .run (.createFlow payload) env, c =>
    (none, { c with waiting := c.waiting ++ [buildFlow payload env] })
  | .run call env, c =>
    (some (handle call env c.flows).1, { c with flows := (handle call env c.flows).2 })
  | .insert n, c =>
    match c.waiting[n]? with
    | none => (none, c)
    | some built =>
      let r := (insertFlow built).run c.flows
      (some (Reply.ofResult 201 .record r.1), ⟨r.2, c.waiting.eraseIdx n⟩)

end Novon.Flow
