import Novon.Uc.Equiv.WellFormed

/-!
# Every stored user is found by its name

Unlike the bijection between the store and its index, this needs no assumption on `uuid4`: an id
that is drawn twice leaves a stale name in the index, but the index still leads from the name of
every stored user to its id (`findable_exec`).
-/

namespace Novon

/-- The fields have the types that the model declares. -/
structure UserResponse.Typed (user : UserResponse) : Prop where
  id : user.id.IsStr
  username : user.username.IsStr
  email : user.email.IsStr
  status : user.status.IsStr
  createdAt : ∃ t, user.createdAt = .datetime t
  updatedAt : ∃ t, user.updatedAt = .datetime t

namespace Uc

open Run

/-- What holds of every new user and is kept by every `PATCH` holds of every stored user. -/
theorem forall_stored {P : String → UserResponse → Prop}
    (hnew : ∀ payload env, P (userIdOf env.uuid) (newUser payload env))
    (hpatch : ∀ userId user p now, P userId user → P userId (applyUserUpdate p now user))
    (run : List Step) :
    ∀ userId user, (exec step run Store.empty).2.users.get? userId = some user →
      P userId user := by
  induction run using List.reverseRecOn with
  | nil => simp [Store.empty]
  | append_singleton run i ih =>
    intro userId user hget
    have he := handle_effect i.call i.env (exec step run Store.empty).2
    rw [exec_concat, step] at hget
    generalize (exec step run Store.empty).2 = s at ih he hget
    generalize i.call = call at he hget
    generalize handle call i.env s = r at he hget
    cases he with
    | read _ | refused _ => exact ih userId user hget
    | @create payload _ =>
      rcases Dict.get?_set_eq_some_iff.mp hget with ⟨rfl, rfl⟩ | ⟨_, hget⟩
      · exact hnew payload i.env
      · exact ih userId user hget
    | @patch patchedId p existing hexisting _ =>
      rcases Dict.get?_set_eq_some_iff.mp hget with ⟨rfl, rfl⟩ | ⟨_, hget⟩
      · exact hpatch userId existing p i.env.now (ih userId existing hexisting)
      · exact ih userId user hget
    | delete _ => exact ih userId user (Dict.get?_pop_eq_some_iff.mp hget).2

theorem wellFormed_of_stored (run : List Step) (userId : String) (user : UserResponse)
    (h : (exec step run Store.empty).2.users.get? userId = some user) : user.WellFormed userId :=
  forall_stored newUser_wellFormed (fun _ _ p now hwf => hwf.applyUserUpdate p now) run userId user
    h

theorem typed_of_stored (run : List Step) (userId : String) (user : UserResponse)
    (h : (exec step run Store.empty).2.users.get? userId = some user) : user.Typed := by
  have hwf := wellFormed_of_stored run userId user h
  have hcreated : ∃ t, user.createdAt = .datetime t :=
    forall_stored (P := fun _ user => ∃ t, user.createdAt = .datetime t)
      (fun _ env => ⟨env.now, rfl⟩) (fun _ _ _ _ h => h) run userId user h
  have hupdated : ∃ t, user.updatedAt = .datetime t :=
    forall_stored (P := fun _ user => ∃ t, user.updatedAt = .datetime t)
      (fun _ env => ⟨env.now, rfl⟩) (fun _ _ _ now _ => ⟨now, rfl⟩) run userId user h
  obtain ⟨username, husername, -, -⟩ := hwf.username
  obtain ⟨email, hemail, -, -⟩ := hwf.email
  exact ⟨⟨userId, hwf.id_eq⟩, ⟨username, husername⟩, ⟨email, hemail⟩, hwf.status, hcreated,
    hupdated⟩

/-- The index leads from the name of every stored user to its id. -/
def Findable (s : Store) : Prop :=
  ∀ userId user, s.users.get? userId = some user →
    s.usersByUsername.get? user.username = some userId

variable {s s' : Store} {env : Env} {call : UcCall} {reply : Reply UserResponse}

/-- **Step lemma**: only the name of the user at hand leaves the index, and only a name that is free
or its own enters it. -/
theorem Findable.effect (h : Findable s) (he : Effect env s call (reply, s')) : Findable s' := by
  cases he with
  | read _ | refused _ => exact h
  | @create payload hfree =>
    intro userId user hget
    rw [created, Dict.get?_set]
    rcases Dict.get?_set_eq_some_iff.mp hget with ⟨rfl, rfl⟩ | ⟨_, hget⟩
    · rw [newUser, if_pos rfl]
    · -- the new name was free, so it is no other user's
      have hold := h userId user hget
      rw [if_neg, hold]
      intro hname
      rw [hname, Dict.get?_eq_none_iff.mpr hfree] at hold
      cases hold
  | @patch patchedId p existing hexisting hok =>
    intro userId user hget
    have hname := username_applyUserUpdate p env.now existing
    by_cases hr : Renames p existing
    · rw [if_pos hr] at hname
      rw [patched, if_pos hr, Dict.get?_set]
      rcases Dict.get?_set_eq_some_iff.mp hget with ⟨rfl, rfl⟩ | ⟨hne, hget⟩
      · rw [hname, if_pos rfl]
      · have hold := h userId user hget
        rw [if_neg, Dict.get?_pop, if_neg, hold]
        · intro heq
          rw [heq, h patchedId existing hexisting] at hold
          exact hne (Option.some.inj hold).symm
        · -- a name that another user has is taken, and the rename is refused
          intro heq
          rw [heq] at hold
          refine hok hr ⟨by simp [hold], fun howner => hne ?_⟩
          exact Option.some.inj (hold.symm.trans howner)
    · rw [if_neg hr] at hname
      rw [patched, if_neg hr]
      rcases Dict.get?_set_eq_some_iff.mp hget with ⟨rfl, rfl⟩ | ⟨_, hget⟩
      · rw [hname]
        exact h userId existing hexisting
      · exact h userId user hget
  | @delete deletedId deletedUser hdeleted =>
    intro userId user hget
    obtain ⟨hne, hget⟩ := Dict.get?_pop_eq_some_iff.mp hget
    have hold := h userId user hget
    rw [deleted, Dict.get?_pop, if_neg, hold]
    intro heq
    rw [heq, h deletedId deletedUser hdeleted] at hold
    exact hne (Option.some.inj hold).symm

/-- **Run lemma.** -/
theorem findable_exec (run : List Step) : Findable (exec step run Store.empty).2 :=
  exec_invariant step (fun _ => True) (fun _ s => Findable s) Store.empty (fun _ _ _ => trivial)
    (by simp [Findable, Store.empty])
    (fun _ i s _ h => h.effect (handle_effect i.call i.env s)) run trivial

/-- A stored user is what the lookup of its name finds. -/
theorem handle_getUserByUsername_of_stored (run : List Step) {userId name : String}
    {user : UserResponse} (h : (exec step run Store.empty).2.users.get? userId = some user)
    (hname : user.username = .str name) (env : Env) :
    (handle (.getUserByUsername name) env (exec step run Store.empty).2).1 =
      ⟨200, .record user⟩ := by
  have hindex := findable_exec run userId user h
  rw [hname] at hindex
  rw [handle, run_getUserByUsername, hindex, Option.bind_some, h]
  rfl

end Uc

end Novon
