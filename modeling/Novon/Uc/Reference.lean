import Novon.Uc.Equiv.Routes

/-!
# The reference UC store

What the service is for, without an index: the users in creation order, and every lookup a linear
scan.  A PATCH conflicts exactly when another listed user has the new username.
-/

namespace Novon.Uc.Reference

abbrev Store : Type := List UserResponse

/-- The listed user with this id. -/
def byId (userId : String) (s : Store) : Option UserResponse :=
  s.find? fun user => user.id = .str userId

/-- A different listed user has the new username that the PATCH asks for. -/
def Conflicts (userId : String) (p : UserUpdate) (s : Store) : Prop :=
  newUsername p ≠ .null ∧ ∃ user ∈ s, user.id ≠ .str userId ∧ user.username = newUsername p

instance (userId : String) (p : UserUpdate) (s : Store) : Decidable (Conflicts userId p s) :=
  inferInstanceAs (Decidable (_ ∧ _))

def notFound : Reply UserResponse := ⟨404, .detail "User not found"⟩

def conflict : Reply UserResponse := ⟨409, .detail "Username already exists"⟩

def handle (call : UcCall) (env : Env) (s : Store) : Reply UserResponse × Store :=
  match call with
  | .listUsers => (⟨200, .records s⟩, s)
  | .getUserByUsername username =>
    match s.find? fun user => user.username = .str username with
    | some user => (⟨200, .record user⟩, s)
    | none => (notFound, s)
  | .getUser userId =>
    match byId userId s with
    | some user => (⟨200, .record user⟩, s)
    | none => (notFound, s)
  | .createUser payload =>
    if ∃ user ∈ s, user.username = .str payload.username.val then (conflict, s)
    else (⟨201, .record (newUser payload env)⟩, s ++ [newUser payload env])
  | .updateUser userId p =>
    match byId userId s with
    | none => (notFound, s)
    | some existing =>
      if Conflicts userId p s then (conflict, s)
      else
        (⟨200, .record (applyUserUpdate p env.now existing)⟩,
          s.map fun user =>
            if user.id = .str userId then applyUserUpdate p env.now existing else user)
  | .deleteUser userId =>
    match byId userId s with
    | none => (notFound, s)
    | some _ => (⟨204, .empty⟩, s.filter fun user => user.id ≠ .str userId)

def step (i : Uc.Step) (s : Store) : Reply UserResponse × Store := handle i.call i.env s

end Novon.Uc.Reference
