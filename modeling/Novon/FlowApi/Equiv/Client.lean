import Novon.FlowApi.Client

/-!
# What the wrapper makes of each Flow call

The wrapper never raises on the arguments of a typed call, and sends exactly this.
-/

namespace Novon.FlowServiceClient

/-- The path that a call asks for. -/
def path : FlowCall → String
  | .getFlow flowId | .updateFlow flowId _ | .deleteFlow flowId => "/flows/" ++ Percent.quote flowId
  | .listFlows | .createFlow _ => "/flows"

/-- The body of a call: all fields of a create, the explicitly set ones of a PATCH. -/
def json : FlowCall → Option Json
  | .createFlow payload => some (.object (modelDump false payload.fields))
  | .updateFlow _ payload => some (.object (modelDump true payload.fields))
  | _ => none

/-- What the wrapper makes of a call. -/
def outboundCall (call : FlowCall) : OutboundCall where
  method := (endpoint call).method
  path := path call
  json := json call
  params := none
  responseModel := (Feign.resolveReturnContract (endpoint call).responseType).2
  expectsNone := (Feign.resolveReturnContract (endpoint call).responseType).1

theorem outbound_eq (lib : HttpLib) (call : FlowCall) :
    outbound lib call = .ok (outboundCall call) := by
  have hempty : ∀ s : String, s ++ "" = s := fun s => String.append_empty
  unfold outboundCall
  cases call with
  | getFlow flowId =>
    rw [path, ← hempty (Percent.quote flowId)]
    rfl
  | listFlows => rfl
  | createFlow payload => rfl
  | updateFlow flowId payload =>
    rw [path, ← hempty (Percent.quote flowId)]
    rfl
  | deleteFlow flowId =>
    rw [path, ← hempty (Percent.quote flowId)]
    rfl

/-- The request that a call sends. -/
def sent (lib : HttpLib) (headers : Dict String String) (call : FlowCall) : Request :=
  Feign.send lib headers (outboundCall call)

theorem request_eq (lib : HttpLib) (headers : Dict String String) (call : FlowCall) :
    request lib headers call = .ok (sent lib headers call) := by
  rw [request, outbound_eq]
  rfl

end Novon.FlowServiceClient
