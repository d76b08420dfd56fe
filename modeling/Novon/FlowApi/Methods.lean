import Novon.Core.Endpoints
import Novon.FlowApi.Client
import Novon.Http.Router

/-!
# The decorated methods of the Flow client

`packages/flow-api`, `client.py`: the methods as they are declared, before decoration.
-/

namespace Novon.FlowServiceClient

/-- The method of a call. -/
def method : FlowCall → Func
  | .getFlow _ => clientMethod "FlowServiceClient.get_flow" [("flow_id", "str")]
      (.cls "FlowResponse") (by decide)
  | .listFlows => clientMethod "FlowServiceClient.list_flows" []
      (.listOf (.cls "FlowResponse")) nodup_clientParameters_nil
  | .createFlow _ => clientMethod "FlowServiceClient.create_flow" [("payload", "FlowCreate")]
      (.cls "FlowResponse") (by decide)
  | .updateFlow _ _ => clientMethod "FlowServiceClient.update_flow"
      [("flow_id", "str"), ("payload", "FlowUpdate")] (.cls "FlowResponse") (by decide)
  | .deleteFlow _ => clientMethod "FlowServiceClient.delete_flow" [("flow_id", "str")]
      .noneType (by decide)

/-- The template of a call's path, by segments. -/
def template : FlowCall → List Segment
  | .getFlow _ | .updateFlow _ _ | .deleteFlow _ => [.lit "", .lit "flows", .param "flow_id"]
  | .listFlows | .createFlow _ => [.lit "", .lit "flows"]

end Novon.FlowServiceClient
