import Novon.Core.Equiv.ModelUtils
import Novon.Uc.Routes

/-!
# What the UC handlers compute

One lemma per handler gives its result and the store it leaves, so that later proofs do not run
the handlers again.  `applyUserUpdate` states what a PATCH means for one record, and
`modelCopy_partialUpdate` says that the overlay of `partial_update_dict` computes it.
-/

namespace Novon

/-- A user after a PATCH. -/
def applyUserUpdate (p : UserUpdate) (now : Datetime) (user : UserResponse) : UserResponse :=
  { user with
    username := (p.username.toField BoundedStr.val).overlay user.username
    email := (p.email.toField BoundedStr.val).overlay user.email
    status := (p.status.toField id).overlay user.status
    updatedAt := .datetime now }

theorem getD_partialUpdate_username (p : UserUpdate) (old : FieldValue) :
    (partialUpdateDict FieldValue.isNone (modelDump true p.fields)
      UserResponse.modelFields).getD "username" old =
        (p.username.toField BoundedStr.val).overlay old := by
  rw [Dict.getD, get?_partialUpdate_user, ← getD_filter_dump]
  rfl

/-- Overlaying the explicitly set fields is the PATCH of the record. -/
theorem modelCopy_partialUpdate (p : UserUpdate) (now : Datetime) (user : UserResponse) :
    user.modelCopy ((partialUpdateDict FieldValue.isNone (modelDump true p.fields)
      UserResponse.modelFields).set "updated_at" (.datetime now)) = applyUserUpdate p now user := by
  simp only [UserResponse.modelCopy, applyUserUpdate, Dict.getD, Dict.get?_set,
    get?_partialUpdate_user, ← getD_filter_dump]
  simp [UserUpdate.fields, Dict.lookup]

def UserResponse.fields (user : UserResponse) : List (String × FieldValue) :=
  [("id", user.id), ("username", user.username), ("email", user.email), ("status", user.status),
    ("created_at", user.createdAt), ("updated_at", user.updatedAt)]

theorem fields_applyUserUpdate (p : UserUpdate) (now : Datetime) (user : UserResponse) :
    (applyUserUpdate p now user).fields =
      patchedFields (targetNullable UserResponse.modelFields) p.fields now user.fields := by
  have husername : Dict.lookup "username" p.fields = some (p.username.toField BoundedStr.val) := rfl
  have hemail : Dict.lookup "email" p.fields = some (p.email.toField BoundedStr.val) := rfl
  have hstatus : Dict.lookup "status" p.fields = some (p.status.toField id) := rfl
  have hid : Dict.lookup "id" p.fields = none := rfl
  have hcreated : Dict.lookup "created_at" p.fields = none := rfl
  rw [targetNullable_userResponse]
  simp [UserResponse.fields, patchedFields, applyUserUpdate, patchedField_of_lookup husername,
    patchedField_of_lookup hemail, patchedField_of_lookup hstatus,
    patchedField_of_lookup_eq_none hid, patchedField_of_lookup_eq_none hcreated]

namespace Uc

open Handler

/-- The username a PATCH asks for, `None` if it asks for none. -/
def newUsername (p : UserUpdate) : FieldValue := (p.username.toField BoundedStr.val).overlay .null

/-- The PATCH changes the username. -/
def Renames (p : UserUpdate) (existing : UserResponse) : Prop :=
  newUsername p ≠ .null ∧ newUsername p ≠ existing.username

instance (p : UserUpdate) (existing : UserResponse) : Decidable (Renames p existing) :=
  inferInstanceAs (Decidable (_ ∧ _))

/-- The username asked for is not empty, so the record's new username is the one asked for when
there is one. -/
theorem username_applyUserUpdate (p : UserUpdate) (now : Datetime) (user : UserResponse) :
    (applyUserUpdate p now user).username =
      if Renames p user then newUsername p else user.username := by
  cases h : p.username <;>
    simp [applyUserUpdate, Renames, newUsername, h, OptField.toField, OptField.overlay, eq_comm]

theorem run_getUser (userId : String) (s : Store) :
    (getUser userId).run s =
      match s.users.get? userId with
      | some user => (.ok user, s)
      | none => (.error (.httpException 404 "User not found"), s) := by
  cases h : s.users.get? userId <;> simp [getUser, Dict.contains, Dict.item, h]

theorem run_getUserByUsername (username : String) (s : Store) :
    (getUserByUsername username).run s =
      match (s.usersByUsername.get? (.str username)).bind s.users.get? with
      | some user => (.ok user, s)
      | none => (.error (.httpException 404 "User not found"), s) := by
  unfold getUserByUsername
  cases hi : s.usersByUsername.get? (.str username) with
  | none => simp [hi]
  | some userId => cases h : s.users.get? userId <;> simp [hi, Dict.contains, Dict.item, h]

def newUser (payload : UserCreate) (env : Env) : UserResponse where
  id := .str (userIdOf env.uuid)
  username := .str payload.username.val
  email := .str payload.email.val
  status := .str "active"
  createdAt := .datetime env.now
  updatedAt := .datetime env.now

/-- The store after a successful create. -/
def created (payload : UserCreate) (env : Env) (s : Store) : Store where
  users := s.users.set (userIdOf env.uuid) (newUser payload env)
  usersByUsername := s.usersByUsername.set (.str payload.username.val) (userIdOf env.uuid)

theorem run_createUser (payload : UserCreate) (env : Env) (s : Store) :
    (createUser payload env).run s =
      if s.usersByUsername.contains (.str payload.username.val) then
        (.error (.httpException 409 "Username already exists"), s)
      else
        (.ok (newUser payload env), created payload env s) := by
  by_cases h : s.usersByUsername.contains (.str payload.username.val) <;>
    simp [createUser, newUser, created, h]

/-- Another user owns the username asked for. -/
def Taken (p : UserUpdate) (userId : String) (s : Store) : Prop :=
  s.usersByUsername.get? (newUsername p) ≠ none ∧
    s.usersByUsername.get? (newUsername p) ≠ some userId

instance (p : UserUpdate) (userId : String) (s : Store) : Decidable (Taken p userId s) :=
  inferInstanceAs (Decidable (_ ∧ _))

/-- The store after a PATCH that succeeds. -/
def patched (userId : String) (p : UserUpdate) (env : Env) (existing : UserResponse) (s : Store) :
    Store where
  users := s.users.set userId (applyUserUpdate p env.now existing)
  usersByUsername :=
    if Renames p existing then
      (s.usersByUsername.pop existing.username).set (newUsername p) userId
    else s.usersByUsername

theorem run_updateUser (userId : String) (p : UserUpdate) (env : Env) (s : Store) :
    (updateUser userId p env).run s =
      match s.users.get? userId with
      | none => (.error (.httpException 404 "User not found"), s)
      | some existing =>
        if Renames p existing ∧ Taken p userId s then
          (.error (.httpException 409 "Username already exists"), s)
        else (.ok (applyUserUpdate p env.now existing), patched userId p env existing s) := by
  unfold updateUser
  simp only [getD_partialUpdate_username, modelCopy_partialUpdate]
  rw [← newUsername]
  cases h : s.users.get? userId with
  | none => simp [Dict.contains, h]
  | some existing =>
    -- the check and the write of the index are made under the same condition
    by_cases hr : newUsername p ≠ .null ∧ newUsername p ≠ existing.username
    · by_cases ht : Taken p userId s
      · have ht' := ht
        unfold Taken at ht'
        simp [Dict.contains, Dict.item, h, hr, ht, ht', Renames]
      · have ht' := ht
        unfold Taken at ht'
        simp [Dict.contains, Dict.item, h, hr, ht, ht', Renames, patched]
    · have hr' : ¬ Renames p existing := hr
      simp [Dict.contains, Dict.item, h, hr, hr', patched]

/-- The store after a successful delete of `user`. -/
def deleted (userId : String) (user : UserResponse) (s : Store) : Store where
  users := s.users.pop userId
  usersByUsername := s.usersByUsername.pop user.username

theorem run_deleteUser (userId : String) (s : Store) :
    (deleteUser userId).run s =
      match s.users.get? userId with
      | none => (.error (.httpException 404 "User not found"), s)
      | some user => (.ok (), deleted userId user s) := by
  cases h : s.users.get? userId <;> simp [deleteUser, deleted, Dict.contains, Dict.item, h]

/-! ### The four things a step can do -/

/-- What one step does to the store, with everything it has checked. -/
inductive Effect (env : Env) (s : Store) : UcCall → Reply UserResponse × Store → Prop where
  | read {call : UcCall} {reply : Reply UserResponse}
      (hread : call = .listUsers ∨ (∃ n, call = .getUserByUsername n) ∨ ∃ i, call = .getUser i) :
      Effect env s call (reply, s)
  /-- A write refused with a 404 or a 409. -/
  | refused {call : UcCall} {status : ℤ} {text : String} (hstatus : status = 404 ∨ status = 409) :
      Effect env s call (⟨status, .detail text⟩, s)
  | create {payload : UserCreate}
      (hfree : s.usersByUsername.contains (.str payload.username.val) = false) :
      Effect env s (.createUser payload)
        (⟨201, .record (newUser payload env)⟩, created payload env s)
  | patch {userId : String} {p : UserUpdate} {existing : UserResponse}
      (hget : s.users.get? userId = some existing) (hok : Renames p existing → ¬ Taken p userId s) :
      Effect env s (.updateUser userId p)
        (⟨200, .record (applyUserUpdate p env.now existing)⟩, patched userId p env existing s)
  | delete {userId : String} {user : UserResponse} (hget : s.users.get? userId = some user) :
      Effect env s (.deleteUser userId) (⟨204, .empty⟩, deleted userId user s)

theorem handle_effect (call : UcCall) (env : Env) (s : Store) :
    Effect env s call (handle call env s) := by
  cases call with
  | listUsers => exact .read (.inl rfl)
  | getUserByUsername n =>
    rw [handle, run_getUserByUsername]
    split <;> exact .read (.inr (.inl ⟨n, rfl⟩))
  | getUser i =>
    rw [handle, run_getUser]
    split <;> exact .read (.inr (.inr ⟨i, rfl⟩))
  | createUser payload =>
    rw [handle, run_createUser]
    split
    · exact .refused (.inr rfl)
    · next h => exact .create (by simpa using h)
  | updateUser userId p =>
    rw [handle, run_updateUser]
    split
    · exact .refused (.inl rfl)
    · next existing hget =>
      split
      · exact .refused (.inr rfl)
      · next h => exact .patch hget fun hr ht => h ⟨hr, ht⟩
  | deleteUser userId =>
    rw [handle, run_deleteUser]
    split
    · exact .refused (.inl rfl)
    · next user hget => exact .delete hget

end Uc

end Novon
