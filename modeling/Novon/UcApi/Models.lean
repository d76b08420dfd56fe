import Novon.Core.ModelUtils

/-!
# Models of the UC (User Center) service API

`packages/uc-api`: `models.py`, and the six operations of the `UcApi` protocol.
-/

namespace Novon

/-- Response model for a user resource. -/
structure UserResponse where
  id : FieldValue
  username : FieldValue
  email : FieldValue
  status : FieldValue
  createdAt : FieldValue
  updatedAt : FieldValue
  deriving DecidableEq, Repr

/-- `UserResponse.model_fields`. -/
def UserResponse.modelFields : Dict String TypeHint :=
  .ofList [("id", .cls "str"), ("username", .cls "str"), ("email", .cls "str"),
    ("status", .cls "str"), ("created_at", .cls "datetime"), ("updated_at", .cls "datetime")]

/-- `user.model_copy(update=update)`. -/
def UserResponse.modelCopy (user : UserResponse) (update : Dict String FieldValue) :
    UserResponse where
  id := update.getD "id" user.id
  username := update.getD "username" user.username
  email := update.getD "email" user.email
  status := update.getD "status" user.status
  createdAt := update.getD "created_at" user.createdAt
  updatedAt := update.getD "updated_at" user.updatedAt

/-- Request model for creating a user. -/
structure UserCreate where
  username : BoundedStr 3 50
  email : BoundedStr 3 254
  password : BoundedStr 8 128
  deriving DecidableEq

/-- Request model for updating a user. -/
structure UserUpdate where
  username : OptField (BoundedStr 3 50)
  email : OptField (BoundedStr 3 254)
  status : OptField String
  deriving DecidableEq

def UserCreate.fields (p : UserCreate) : List (String × OptField FieldValue) :=
  [("username", .value (.str p.username.val)), ("email", .value (.str p.email.val)),
    ("password", .value (.str p.password.val))]

def UserUpdate.fields (p : UserUpdate) : List (String × OptField FieldValue) :=
  [("username", p.username.toField BoundedStr.val), ("email", p.email.toField BoundedStr.val),
    ("status", p.status.toField id)]

/-- Validates the JSON object of a create request. -/
def UserCreate.validate (body : Dict String FieldValue) : Option UserCreate := do
  let username ← requireStr (BoundedStr.ofString? 3 50) (body.get? "username")
  let email ← requireStr (BoundedStr.ofString? 3 254) (body.get? "email")
  let password ← requireStr (BoundedStr.ofString? 8 128) (body.get? "password")
  return ⟨username, email, password⟩

/-- Validates the JSON object of an update request. -/
def UserUpdate.validate (body : Dict String FieldValue) : Option UserUpdate := do
  let username ← OptField.parse (BoundedStr.ofString? 3 50) (body.get? "username")
  let email ← OptField.parse (BoundedStr.ofString? 3 254) (body.get? "email")
  let status ← OptField.parse some (body.get? "status")
  return ⟨username, email, status⟩

/-- The operations of the `UcApi` protocol, with their arguments. -/
inductive UcCall where
  | getUser (userId : String)
  | getUserByUsername (username : String)
  | listUsers
  | createUser (payload : UserCreate)
  | updateUser (userId : String) (payload : UserUpdate)
  | deleteUser (userId : String)
  deriving DecidableEq

/-- A valid payload, for concrete runs. -/
def UserCreate.alice : UserCreate where
  username := ⟨"alice", by decide, by decide⟩
  email := ⟨"alice@example.com", by decide, by decide⟩
  password := ⟨"secret-secret", by decide, by decide⟩

/-- A rename with an explicit null beside it, for concrete runs. -/
def UserUpdate.toAlicia : UserUpdate where
  username := .value ⟨"alicia", by decide, by decide⟩
  email := .null
  status := .unset

/-- A new status and nothing else, for concrete runs. -/
def UserUpdate.suspend : UserUpdate where
  username := .unset
  email := .unset
  status := .value "suspended"

/-! ### `partial_update_dict(payload, UserResponse)` -/

theorem targetNullable_userResponse : targetNullable UserResponse.modelFields = [] := by
  rfl

/-- No field of a user is nullable: explicit nulls are dropped with the unset fields. -/
theorem get?_partialUpdate_user (p : UserUpdate) (key : String) :
    (partialUpdateDict FieldValue.isNone (modelDump true p.fields)
        UserResponse.modelFields).get? key =
      ((Dict.lookup key p.fields).bind (OptField.dump true)).filter fun v => !v.isNone := by
  have hnodup : (p.fields.map Prod.fst).Nodup := by
    simp [UserUpdate.fields]
  rw [get?_partialUpdateDict, get?_modelDump true hnodup, targetNullable_userResponse]
  simp

end Novon
