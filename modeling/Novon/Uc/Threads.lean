import Novon.Data.Thread
import Novon.Uc.Routes

/-!
# UC handlers, one access at a time

The handlers of `routes.py` run on a thread pool.  Here the body of each `with _USERS_LOCK:` is a
script that touches `_USERS` or `_USERS_BY_USERNAME` in one dictionary operation after another, so
that the scheduler may switch threads between any two of them.
-/

namespace Novon.Uc.Threads

open Routine

/-- The body of a critical section. -/
abbrev UcRoutine (α : Type) : Type := Routine HandlerError Store α

/-- `GET /users`. -/
def listUsers : UcRoutine (List UserResponse) := do
  let users ← read fun s => s.users.values
  return users

/-- `GET /users/by-username`. -/
def getUserByUsername (username : String) : UcRoutine UserResponse := do
  match ← read fun s => s.usersByUsername.get? (.str username) with
  | none => raise (.httpException 404 "User not found")
  | some userId =>
    if !(← read fun s => s.users.contains userId) then
      raise (.httpException 404 "User not found")
    item fun s => s.users.item userId

/-- `GET /users/{user_id}`. -/
def getUser (userId : String) : UcRoutine UserResponse := do
  if !(← read fun s => s.users.contains userId) then
    raise (.httpException 404 "User not found")
  item fun s => s.users.item userId

/-- `POST /users`. -/
def createUser (payload : UserCreate) (env : Env) : UcRoutine UserResponse := do
  if ← read fun s => s.usersByUsername.contains (.str payload.username.val) then
    raise (.httpException 409 "Username already exists")
  let userId := userIdOf env.uuid
  let user : UserResponse := {
    id := .str userId
    username := .str payload.username.val
    email := .str payload.email.val
    status := .str "active"
    createdAt := .datetime env.now
    updatedAt := .datetime env.now }
  Routine.write fun s => { s with users := s.users.set userId user }
  Routine.write fun s =>
    { s with usersByUsername := s.usersByUsername.set (.str payload.username.val) userId }
  return user

/-- `PATCH /users/{user_id}`. -/
def updateUser (userId : String) (payload : UserUpdate) (env : Env) : UcRoutine UserResponse := do
  if !(← read fun s => s.users.contains userId) then
    raise (.httpException 404 "User not found")
  let existing ← item fun s => s.users.item userId
  let updateData :=
    partialUpdateDict FieldValue.isNone (modelDump true payload.fields) UserResponse.modelFields
  let newUsername := updateData.getD "username" .null
  if newUsername ≠ .null ∧ newUsername ≠ existing.username then
    let ownerId ← read fun s => s.usersByUsername.get? newUsername
    if ownerId ≠ none ∧ ownerId ≠ some userId then
      raise (.httpException 409 "Username already exists")
  let updated := existing.modelCopy (updateData.set "updated_at" (.datetime env.now))
  Routine.write fun s => { s with users := s.users.set userId updated }
  if newUsername ≠ .null ∧ newUsername ≠ existing.username then
    Routine.write fun s => { s with usersByUsername := s.usersByUsername.pop existing.username }
    Routine.write fun s => { s with usersByUsername := s.usersByUsername.set newUsername userId }
  return updated

/-- `DELETE /users/{user_id}`. -/
def deleteUser (userId : String) : UcRoutine Unit := do
  if !(← read fun s => s.users.contains userId) then
    raise (.httpException 404 "User not found")
  let user ← pop (fun s => s.users.item userId) fun s =>
    { s with users := s.users.pop userId }
  Routine.write fun s => { s with usersByUsername := s.usersByUsername.pop user.username }

/-- The section of the handler that a request reaches, and the reply made of its result. -/
def script (i : Step) : Script Store (Reply UserResponse) :=
  match i.call with
  | .listUsers => listUsers.respond (Reply.ofResult 200 .records)
  | .getUserByUsername username => (getUserByUsername username).respond (Reply.ofResult 200 .record)
  | .getUser userId => (getUser userId).respond (Reply.ofResult 200 .record)
  | .createUser payload => (createUser payload i.env).respond (Reply.ofResult 201 .record)
  | .updateUser userId payload =>
    (updateUser userId payload i.env).respond (Reply.ofResult 200 .record)
  | .deleteUser userId => (deleteUser userId).respond (Reply.ofResult 204 (fun _ => .empty))

/-- The service with its threads, from store `s`. -/
def after (s : Store) (moves : List (Move Step)) : Pool Step Store (Reply UserResponse) :=
  Pool.after (Pool.underLock script) s moves

end Novon.Uc.Threads
