import Novon.Core.Endpoints
import Novon.Http.Router
import Novon.UcApi.Client

/-!
# The decorated methods of the UC client

`packages/uc-api`, `client.py`: the methods as they are declared, before decoration.
-/

namespace Novon.UcServiceClient

/-- The method of a call. -/
def method : UcCall → Func
  | .getUser _ => clientMethod "UcServiceClient.get_user" [("user_id", "str")]
      (.cls "UserResponse") (by decide)
  | .getUserByUsername _ => clientMethod "UcServiceClient.get_user_by_username"
      [("username", "str")] (.cls "UserResponse") (by decide)
  | .listUsers => clientMethod "UcServiceClient.list_users" []
      (.listOf (.cls "UserResponse")) nodup_clientParameters_nil
  | .createUser _ => clientMethod "UcServiceClient.create_user" [("payload", "UserCreate")]
      (.cls "UserResponse") (by decide)
  | .updateUser _ _ => clientMethod "UcServiceClient.update_user"
      [("user_id", "str"), ("payload", "UserUpdate")] (.cls "UserResponse") (by decide)
  | .deleteUser _ => clientMethod "UcServiceClient.delete_user" [("user_id", "str")]
      .noneType (by decide)

/-- The template of a call's path, by segments. -/
def template : UcCall → List Segment
  | .getUser _ | .updateUser _ _ | .deleteUser _ => [.lit "", .lit "users", .param "user_id"]
  | .getUserByUsername _ => [.lit "", .lit "users", .lit "by-username"]
  | .listUsers | .createUser _ => [.lit "", .lit "users"]

end Novon.UcServiceClient
