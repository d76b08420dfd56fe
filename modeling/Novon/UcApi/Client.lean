import Novon.Core.Feign
import Novon.UcApi.Models

/-!
# HTTP client of the UC service API

`packages/uc-api`, `client.py`: the endpoints that the decorators declare.
-/

namespace Novon.UcServiceClient

/-- `@get("/users/{user_id}")`. -/
def getUser : EndpointSpec where
  method := "GET"
  pathTemplate := [.literal "/users/", .placeholder "user_id"]
  pathParams := ["user_id"]
  bodyParam := none
  queryParams := []
  responseType := .cls "UserResponse"
  partialUpdate := false

/-- `@get("/users/by-username")`. -/
def getUserByUsername : EndpointSpec where
  method := "GET"
  pathTemplate := [.literal "/users/by-username"]
  pathParams := []
  bodyParam := none
  queryParams := ["username"]
  responseType := .cls "UserResponse"
  partialUpdate := false

/-- `@get("/users")`. -/
def listUsers : EndpointSpec where
  method := "GET"
  pathTemplate := [.literal "/users"]
  pathParams := []
  bodyParam := none
  queryParams := []
  responseType := .listOf (.cls "UserResponse")
  partialUpdate := false

/-- `@post("/users")`. -/
def createUser : EndpointSpec where
  method := "POST"
  pathTemplate := [.literal "/users"]
  pathParams := []
  bodyParam := some "payload"
  queryParams := []
  responseType := .cls "UserResponse"
  partialUpdate := false

/-- `@patch("/users/{user_id}")`. -/
def updateUser : EndpointSpec where
  method := "PATCH"
  pathTemplate := [.literal "/users/", .placeholder "user_id"]
  pathParams := ["user_id"]
  bodyParam := some "payload"
  queryParams := []
  responseType := .cls "UserResponse"
  partialUpdate := true

/-- `@delete("/users/{user_id}")`. -/
def deleteUser : EndpointSpec where
  method := "DELETE"
  pathTemplate := [.literal "/users/", .placeholder "user_id"]
  pathParams := ["user_id"]
  bodyParam := none
  queryParams := []
  responseType := .noneType
  partialUpdate := false

def endpoint : UcCall → EndpointSpec
  | .getUser _ => getUser
  | .getUserByUsername _ => getUserByUsername
  | .listUsers => listUsers
  | .createUser _ => createUser
  | .updateUser _ _ => updateUser
  | .deleteUser _ => deleteUser

def arguments : UcCall → Dict String Arg
  | .getUser userId => .ofList [("user_id", .str userId)]
  | .getUserByUsername username => .ofList [("username", .str username)]
  | .listUsers => .empty
  | .createUser payload => .ofList [("payload", .model payload.fields)]
  | .updateUser userId payload =>
    .ofList [("user_id", .str userId), ("payload", .model payload.fields)]
  | .deleteUser userId => .ofList [("user_id", .str userId)]

def outbound (lib : HttpLib) (call : UcCall) : Except WrapperError OutboundCall :=
  Feign.wrapper lib (endpoint call) (arguments call)

/-- The request that a call sends. -/
def request (lib : HttpLib) (headers : Dict String String) (call : UcCall) :
    Except WrapperError Request :=
  (outbound lib call).map (Feign.send lib headers)

end Novon.UcServiceClient
