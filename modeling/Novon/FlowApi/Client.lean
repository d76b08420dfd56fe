import Novon.Core.Feign
import Novon.FlowApi.Models

/-!
# HTTP client of the Flow service API

`packages/flow-api`, `client.py`: the endpoints that the decorators declare.
-/

namespace Novon.FlowServiceClient

/-- `@get("/flows/{flow_id}")`. -/
def getFlow : EndpointSpec where
  method := "GET"
  pathTemplate := [.literal "/flows/", .placeholder "flow_id"]
  pathParams := ["flow_id"]
  bodyParam := none
  queryParams := []
  responseType := .cls "FlowResponse"
  partialUpdate := false

/-- `@get("/flows")`. -/
def listFlows : EndpointSpec where
  method := "GET"
  pathTemplate := [.literal "/flows"]
  pathParams := []
  bodyParam := none
  queryParams := []
  responseType := .listOf (.cls "FlowResponse")
  partialUpdate := false

/-- `@post("/flows")`. -/
def createFlow : EndpointSpec where
  method := "POST"
  pathTemplate := [.literal "/flows"]
  pathParams := []
  bodyParam := some "payload"
  queryParams := []
  responseType := .cls "FlowResponse"
  partialUpdate := false

/-- `@patch("/flows/{flow_id}")`. -/
def updateFlow : EndpointSpec where
  method := "PATCH"
  pathTemplate := [.literal "/flows/", .placeholder "flow_id"]
  pathParams := ["flow_id"]
  bodyParam := some "payload"
  queryParams := []
  responseType := .cls "FlowResponse"
  partialUpdate := true

/-- `@delete("/flows/{flow_id}")`. -/
def deleteFlow : EndpointSpec where
  method := "DELETE"
  pathTemplate := [.literal "/flows/", .placeholder "flow_id"]
  pathParams := ["flow_id"]
  bodyParam := none
  queryParams := []
  responseType := .noneType
  partialUpdate := false

def endpoint : FlowCall → EndpointSpec
  | .getFlow _ => getFlow
  | .listFlows => listFlows
  | .createFlow _ => createFlow
  | .updateFlow _ _ => updateFlow
  | .deleteFlow _ => deleteFlow

def arguments : FlowCall → Dict String Arg
  | .getFlow flowId => .ofList [("flow_id", .str flowId)]
  | .listFlows => .empty
  | .createFlow payload => .ofList [("payload", .model payload.fields)]
  | .updateFlow flowId payload =>
    .ofList [("flow_id", .str flowId), ("payload", .model payload.fields)]
  | .deleteFlow flowId => .ofList [("flow_id", .str flowId)]

def outbound (lib : HttpLib) (call : FlowCall) : Except WrapperError OutboundCall :=
  Feign.wrapper lib (endpoint call) (arguments call)

/-- The request that a call sends. -/
def request (lib : HttpLib) (headers : Dict String String) (call : FlowCall) :
    Except WrapperError Request :=
  (outbound lib call).map (Feign.send lib headers)

end Novon.FlowServiceClient
