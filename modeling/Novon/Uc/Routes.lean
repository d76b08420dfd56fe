import Novon.Http.Reply
import Novon.UcApi.Models

/-!
# UC routes

`apps/uc`: the in-memory store and the six handlers of `routes.py`.  Every handler holds
`_USERS_LOCK` for its whole body, so a handler is one step on the store.
-/

namespace Novon.Uc

/-- `_USERS` and `_USERS_BY_USERNAME`. -/
structure Store where
  users : Dict String UserResponse
  usersByUsername : Dict FieldValue String

def Store.empty : Store := ⟨.empty, .empty⟩

abbrev UcHandler (α : Type) : Type := Handler HandlerError Store α

open Handler

/-- `GET /users`. -/
def listUsers : UcHandler (List UserResponse) := do
  return (← get).users.values

/-- `GET /users/by-username`. -/
def getUserByUsername (username : String) : UcHandler UserResponse := do
  match (← get).usersByUsername.get? (.str username) with
  | none => raise (.httpException 404 "User not found")
  | some userId =>
    if !(← get).users.contains userId then
      raise (.httpException 404 "User not found")
    ofExcept ((← get).users.item userId)

/-- `GET /users/{user_id}`. -/
def getUser (userId : String) : UcHandler UserResponse := do
  if !(← get).users.contains userId then
    raise (.httpException 404 "User not found")
  ofExcept ((← get).users.item userId)

/-- `f"user_{uuid4()}"`. -/
def userIdOf (uuid : Uuid) : String := "user_" ++ uuid.text

/-- `POST /users`. -/
def createUser (payload : UserCreate) (env : Env) : UcHandler UserResponse := do
  if (← get).usersByUsername.contains (.str payload.username.val) then
    raise (.httpException 409 "Username already exists")
  let userId := userIdOf env.uuid
  let user : UserResponse := {
    id := .str userId
    username := .str payload.username.val
    email := .str payload.email.val
    status := .str "active"
    createdAt := .datetime env.now
    updatedAt := .datetime env.now }
  modify fun s => { s with users := s.users.set userId user }
  modify fun s =>
    { s with usersByUsername := s.usersByUsername.set (.str payload.username.val) userId }
  return user

/-- `PATCH /users/{user_id}`. -/
def updateUser (userId : String) (payload : UserUpdate) (env : Env) : UcHandler UserResponse := do
  if !(← get).users.contains userId then
    raise (.httpException 404 "User not found")
  let existing ← ofExcept ((← get).users.item userId)
  let updateData :=
    partialUpdateDict FieldValue.isNone (modelDump true payload.fields) UserResponse.modelFields
  let newUsername := updateData.getD "username" .null
  if newUsername ≠ .null ∧ newUsername ≠ existing.username then
    -- check first so a 409 never leaves partial state behind
    let ownerId := (← get).usersByUsername.get? newUsername
    if ownerId ≠ none ∧ ownerId ≠ some userId then
      raise (.httpException 409 "Username already exists")
  let updated := existing.modelCopy (updateData.set "updated_at" (.datetime env.now))
  modify fun s => { s with users := s.users.set userId updated }
  if newUsername ≠ .null ∧ newUsername ≠ existing.username then
    modify fun s => { s with usersByUsername := s.usersByUsername.pop existing.username }
    modify fun s => { s with usersByUsername := s.usersByUsername.set newUsername userId }
  return updated

/-- `DELETE /users/{user_id}`. -/
def deleteUser (userId : String) : UcHandler Unit := do
  if !(← get).users.contains userId then
    raise (.httpException 404 "User not found")
  let user ← ofExcept ((← get).users.item userId)
  modify fun s => { s with users := s.users.pop userId }
  modify fun s => { s with usersByUsername := s.usersByUsername.pop user.username }

/-- Runs the handler of a call and renders the reply with the route's success status. -/
def handle (call : UcCall) (env : Env) (s : Store) : Reply UserResponse × Store :=
  match call with
  | .listUsers => (listUsers.run s).map (Reply.ofResult 200 .records) id
  | .getUserByUsername username =>
    ((getUserByUsername username).run s).map (Reply.ofResult 200 .record) id
  | .getUser userId => ((getUser userId).run s).map (Reply.ofResult 200 .record) id
  | .createUser payload => ((createUser payload env).run s).map (Reply.ofResult 201 .record) id
  | .updateUser userId payload =>
    ((updateUser userId payload env).run s).map (Reply.ofResult 200 .record) id
  | .deleteUser userId => ((deleteUser userId).run s).map (Reply.ofResult 204 fun _ => .empty) id

/-- One request reaching the service, with what the environment gives its handler. -/
structure Step where
  call : UcCall
  env : Env

/-- The identifier a step may draw from `uuid4()`: only `create_user` does. -/
def Step.drawn (i : Step) : Option Uuid :=
  match i.call with
  | .createUser _ => some i.env.uuid
  | _ => none

def step (i : Step) (s : Store) : Reply UserResponse × Store := handle i.call i.env s

end Novon.Uc
