import Novon.Core.Equiv.Endpoints
import Novon.FlowApi.Equiv.Client
import Novon.FlowApi.Methods

/-!
# What the decorators make of the Flow client

Decorating the methods gives the endpoints of the client's model (`buildSpec_method`), and calling
them sends what `outboundCall` says (`wrapper_method`).
-/

namespace Novon.FlowServiceClient

open Decorators

variable {python : Python} {classes : Classes}

/-- The payloads of the Flow API are models, and a string is none. -/
structure ModelClasses (classes : Classes) : Prop where
  str : classes.isModel "str" = false
  flowCreate : classes.isModel "FlowCreate" = true
  flowUpdate : classes.isModel "FlowUpdate" = true

theorem plainSegments_template (python : Python) (call : FlowCall) :
    PlainSegments python (template call) := by
  cases call with
  | getFlow _ => exact plainSegments_of_ascii (List.cons_ne_nil _ _) rfl
  | listFlows => exact plainSegments_of_ascii (List.cons_ne_nil _ _) rfl
  | createFlow _ => exact plainSegments_of_ascii (List.cons_ne_nil _ _) rfl
  | updateFlow _ _ => exact plainSegments_of_ascii (List.cons_ne_nil _ _) rfl
  | deleteFlow _ => exact plainSegments_of_ascii (List.cons_ne_nil _ _) rfl

theorem nodup_template (call : FlowCall) : (paramNames (template call)).Nodup := by
  cases call with
  | getFlow _ => exact List.nodup_singleton _
  | listFlows => exact List.nodup_nil
  | createFlow _ => exact List.nodup_nil
  | updateFlow _ _ => exact List.nodup_singleton _
  | deleteFlow _ => exact List.nodup_singleton _

/-- The specification of a call's endpoint. -/
def spec (call : FlowCall) : Decorators.EndpointSpec := declaredSpec (endpoint call) (template call)

/-- **Decorating the methods of the client gives its endpoints.** -/
theorem buildSpec_method (h : ModelClasses classes) (call : FlowCall) :
    buildSpec python classes (endpoint call).method (templateOf (template call)) (method call) =
      .ok (spec call) := by
  have hplain := plainSegments_template python call
  cases call with
  | getFlow flowId =>
    have hdeclares : Declares getFlow [("flow_id", "str")]
        [.lit "", .lit "flows", .param "flow_id"] := by
      constructor <;> decide
    have hbodies : clientBodies classes [("flow_id", "str")]
        [.lit "", .lit "flows", .param "flow_id"] = [] := clientBodies_eq_nil (by simp [h.str])
    exact buildSpec_declares hplain _ hdeclares hbodies
  | listFlows =>
    have hdeclares : Declares listFlows [] [.lit "", .lit "flows"] := by
      constructor <;> decide
    exact buildSpec_declares hplain _ hdeclares rfl
  | createFlow payload =>
    have hdeclares : Declares createFlow [("payload", "FlowCreate")]
        [.lit "", .lit "flows"] := by
      constructor <;> decide
    have hbodies : clientBodies classes [("payload", "FlowCreate")]
        [.lit "", .lit "flows"] = ["payload"] := by
      simp [clientBodies, h.flowCreate, paramNames]
    exact buildSpec_declares hplain _ hdeclares hbodies
  | updateFlow flowId payload =>
    have hdeclares : Declares updateFlow [("flow_id", "str"), ("payload", "FlowUpdate")]
        [.lit "", .lit "flows", .param "flow_id"] := by
      constructor <;> decide
    have hbodies : clientBodies classes [("flow_id", "str"), ("payload", "FlowUpdate")]
        [.lit "", .lit "flows", .param "flow_id"] = ["payload"] := by
      simp [clientBodies, h.flowUpdate, paramNames]
    exact buildSpec_declares hplain _ hdeclares hbodies
  | deleteFlow flowId =>
    have hdeclares : Declares deleteFlow [("flow_id", "str")]
        [.lit "", .lit "flows", .param "flow_id"] := by
      constructor <;> decide
    have hbodies : clientBodies classes [("flow_id", "str")]
        [.lit "", .lit "flows", .param "flow_id"] = [] := clientBodies_eq_nil (by simp [h.str])
    exact buildSpec_declares hplain _ hdeclares hbodies

variable (lib : HttpLib) (receiver ctx : Value)

theorem binds_methodCall (call : FlowCall) :
    Binds python (method call) (methodCall lib receiver ctx (arguments call))
      (boundArguments lib receiver ctx (arguments call)) := by
  cases call with
  | getFlow _ => exact ⟨rfl, rfl⟩
  | listFlows => exact ⟨rfl, rfl⟩
  | createFlow _ => exact ⟨rfl, rfl⟩
  | updateFlow _ _ => exact ⟨rfl, rfl⟩
  | deleteFlow _ => exact ⟨rfl, rfl⟩

theorem pathArgumentsValid (call : FlowCall) :
    PathArgumentsValid (spec call) (boundArguments lib receiver ctx (arguments call)) := by
  intro name hname value hvalue
  cases call with
  | getFlow flowId =>
    obtain rfl := List.mem_singleton.mp hname
    cases hvalue
    exact ⟨rfl, flowId, rfl⟩
  | listFlows => cases hname
  | createFlow payload => cases hname
  | updateFlow flowId payload =>
    obtain rfl := List.mem_singleton.mp hname
    cases hvalue
    exact ⟨rfl, flowId, rfl⟩
  | deleteFlow flowId =>
    obtain rfl := List.mem_singleton.mp hname
    cases hvalue
    exact ⟨rfl, flowId, rfl⟩

/-- The body of a call is the one that the client's model sends. -/
theorem bodyArgument_boundArguments (call : FlowCall) :
    bodyArgument (spec call) (boundArguments lib receiver ctx (arguments call)) =
      .ok ((outboundCall call).json.map .dumped) := by
  cases call with
  | getFlow _ => rfl
  | listFlows => rfl
  | createFlow _ => rfl
  | updateFlow _ _ => rfl
  | deleteFlow _ => rfl

theorem join_flows : Router.join ["", "flows"] = "/flows" := by
  rw [Router.join_pair]
  decide

theorem join_flow (flowId : String) :
    Router.join ["", "flows", Percent.quote flowId] = "/flows/" ++ Percent.quote flowId := by
  have hprefix : "" ++ "/" ++ "flows" ++ "/" = "/flows/" := by decide
  rw [Router.join_triple, hprefix]

/-- The path of a call is its template with the arguments encoded. -/
theorem join_template (call : FlowCall) :
    Router.join ((template call).map
      (pathSegment (boundArguments lib receiver ctx (arguments call)))) = path call := by
  cases call with
  | getFlow flowId => exact join_flow flowId
  | listFlows => exact join_flows
  | createFlow payload => exact join_flows
  | updateFlow flowId payload => exact join_flow flowId
  | deleteFlow flowId => exact join_flow flowId

/-- **The decorated methods send what the client's model sends.** -/
theorem wrapper_method (h : ModelClasses classes) (call : FlowCall) :
    ∃ out, wrapper python (method call) (spec call)
        (methodCall lib receiver ctx (arguments call)) = .ok out ∧
      SameRequest lib (outboundCall call) out ∧ out.ctx = ctx := by
  have hsent := wrapper_eq_ok (plainSegments_template python call) (buildSpec_method h call)
    (binds_methodCall lib receiver ctx call) (nodup_template call)
    (pathArgumentsValid lib receiver ctx call) (bodyArgument_boundArguments lib receiver ctx call)
  rw [join_template] at hsent
  refine ⟨_, hsent, ?_, ?_⟩
  · cases call with
    | getFlow flowId => exact ⟨rfl, rfl, rfl, rfl, rfl, rfl⟩
    | listFlows => exact ⟨rfl, rfl, rfl, rfl, rfl, rfl⟩
    | createFlow payload => exact ⟨rfl, rfl, rfl, rfl, rfl, rfl⟩
    | updateFlow flowId payload => exact ⟨rfl, rfl, rfl, rfl, rfl, rfl⟩
    | deleteFlow flowId => exact ⟨rfl, rfl, rfl, rfl, rfl, rfl⟩
  · cases call <;> rfl

end Novon.FlowServiceClient
