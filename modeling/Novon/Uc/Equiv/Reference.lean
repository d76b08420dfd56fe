import Novon.Uc.Equiv.Index
import Novon.Uc.Reference

/-!
# The indexed store refines the reference store

The simulation relation says that the listed users are the values of `_USERS` in dictionary order,
beside the run invariant of the index.  A dictionary keeps the position of a key it updates and
loses that of a key it removes, which is what `map` and `filter` do to the list.
-/

namespace Novon.Uc

open Run

variable {s : Store} {env : Env}

/-- In a consistent store the `id` field picks out the value under a key. -/
theorem Consistent.selects (h : Consistent s) (userId : String) :
    s.users.Selects userId fun user => user.id = .str userId := by
  intro i user hget
  simp [h.id_eq i user hget]

theorem Consistent.byId (h : Consistent s) (userId : String) :
    Reference.byId userId s.users.values = s.users.get? userId :=
  Dict.find?_values (h.selects userId)

/-- The reference's conflict is the code's: a rename to a name that another user owns. -/
theorem Consistent.conflicts_iff (h : Consistent s) {userId : String} (p : UserUpdate)
    {existing : UserResponse} (hget : s.users.get? userId = some existing) :
    Reference.Conflicts userId p s.users.values ↔ Renames p existing ∧ Taken p userId s := by
  constructor
  · -- the index finds the other user that has the name
    rintro ⟨hnull, user, huser, hne, hname⟩
    obtain ⟨i, hi⟩ := Dict.mem_values_iff.mp huser
    have hii : i ≠ userId := by
      rintro rfl
      exact hne (h.id_eq i user hi)
    have hindex : s.usersByUsername.get? (newUsername p) = some i :=
      (h.index _ _).mpr ⟨user, hi, hname⟩
    refine ⟨⟨hnull, fun heq => hii ?_⟩, by simp [hindex], by simpa [hindex] using hii⟩
    exact h.index.key_unique hi hget (hname.trans heq)
  · -- whom the index finds is another user, since ids are keys
    rintro ⟨hr, hsome, hother⟩
    obtain ⟨i, hi⟩ := Option.ne_none_iff_exists'.mp hsome
    obtain ⟨user, huser, hname⟩ := (h.index _ _).mp hi
    refine ⟨hr.1, user, Dict.mem_values_iff.mpr ⟨i, huser⟩, ?_, hname⟩
    rw [h.id_eq i user huser]
    intro heq
    exact hother (by rw [hi, FieldValue.str.inj heq])

/-- **Step lemma**: one call gets the same reply from both stores, and leaves the list of users
equal to the values of the dictionary. -/
theorem Consistent.handle_reference (h : Consistent s) (call : UcCall)
    (hfresh : (∃ p, call = .createUser p) → s.users.get? (userIdOf env.uuid) = none) :
    Reference.handle call env s.users.values =
      ((handle call env s).1, (handle call env s).2.users.values) := by
  cases call with
  | listUsers => rfl
  | getUserByUsername n =>
    rw [Reference.handle, handle, run_getUserByUsername,
      h.index.find?_values (.str n) (by simp)]
    cases (s.usersByUsername.get? (.str n)).bind s.users.get? <;> rfl
  | getUser i =>
    rw [Reference.handle, handle, run_getUser, h.byId]
    cases s.users.get? i <;> rfl
  | createUser payload =>
    rw [Reference.handle, handle, run_createUser]
    by_cases htaken : s.usersByUsername.contains (.str payload.username.val) = true
    · rw [if_pos ((h.index.contains_iff _).mp htaken), if_pos htaken]
      rfl
    · rw [if_neg (mt (h.index.contains_iff _).mpr htaken), if_neg htaken]
      -- a new key goes to the end of the dictionary
      have hfree := Dict.get?_eq_none_iff.mp (hfresh ⟨payload, rfl⟩)
      simp only [created, Prod.map, id, Dict.values_set_of_not_contains _ hfree]
      rfl
  | updateUser userId p =>
    rw [Reference.handle, handle, run_updateUser, h.byId]
    cases hget : s.users.get? userId with
    | none => rfl
    | some existing =>
      -- a key in use keeps its place
      have hin : s.users.contains userId = true := Dict.contains_iff.mpr ⟨existing, hget⟩
      simp only [h.conflicts_iff p hget]
      by_cases hc : Renames p existing ∧ Taken p userId s
      · rw [if_pos hc, if_pos hc]
        rfl
      · rw [if_neg hc, if_neg hc]
        simp only [patched, Prod.map, id, Dict.values_set_of_contains _ (h.selects userId) hin]
        simp [Reply.ofResult]
  | deleteUser userId =>
    rw [Reference.handle, handle, run_deleteUser, h.byId]
    cases hget : s.users.get? userId with
    | none => rfl
    | some user =>
      simp only [deleted, Prod.map, id, Dict.values_pop (h.selects userId)]
      simp [Reply.ofResult]

/-- The reference store lists users in the order in which their ids were drawn. -/
theorem Reference.map_id_sublist_step (i : Step) (l : Reference.Store) (ids : List FieldValue)
    (h : (l.map UserResponse.id).Sublist ids) :
    ((Reference.step i l).2.map UserResponse.id).Sublist
      (ids ++ i.drawn.toList.map fun u => .str (userIdOf u)) := by
  have hold : (l.map UserResponse.id).Sublist
      (ids ++ i.drawn.toList.map fun u => .str (userIdOf u)) :=
    h.trans (List.sublist_append_left _ _)
  obtain ⟨call, env⟩ := i
  cases call with
  | listUsers => exact hold
  | getUserByUsername n =>
    simp only [Reference.step, Reference.handle]
    split <;> exact hold
  | getUser i =>
    simp only [Reference.step, Reference.handle]
    split <;> exact hold
  | createUser payload =>
    simp only [Reference.step, Reference.handle]
    split
    · exact hold
    · rw [List.map_append]
      exact h.append (List.Sublist.refl _)
  | updateUser userId p =>
    simp only [Reference.step, Reference.handle]
    split
    · exact hold
    · next existing hex =>
      split
      · exact hold
      · -- a PATCH keeps the id of the user it replaces
        have hid : existing.id = .str userId := by simpa using List.find?_some hex
        rw [List.map_map]
        refine (List.map_congr_left fun user _ => ?_) ▸ hold
        by_cases hu : user.id = .str userId <;> simp [hu, applyUserUpdate, hid]
  | deleteUser userId =>
    simp only [Reference.step, Reference.handle]
    split
    · exact hold
    · exact (List.filter_sublist.map _).trans hold

/-- **The indexed store refines the plain one.**  On every run in which `uuid4` does not repeat,
the replies are the reference store's; the users left are the reference's list, each of them once
and in the order of creation. -/
theorem refines_reference (run : List Step) (hrun : NoRepeat run) :
    (exec step run Store.empty).1 = (exec Reference.step run []).1 ∧
    (exec step run Store.empty).2.users.values = (exec Reference.step run []).2 ∧
    ((exec Reference.step run []).2.map UserResponse.id).Sublist
      ((run.filterMap Step.drawn).map fun u => .str (userIdOf u)) ∧
    ((exec Reference.step run []).2.map UserResponse.id).Nodup := by
  have hsim := exec_simulation step Reference.step NoRepeat
    (fun is s l => RunInv is s ∧ l = s.users.values ∧ (l.map UserResponse.id).Sublist
      ((is.filterMap Step.drawn).map fun u => .str (userIdOf u)))
    Store.empty [] (fun _ _ => NoRepeat.of_append) ⟨runInv_nil, rfl, by simp⟩
    (by
      rintro is i s l hok ⟨hinv, rfl, hsub⟩
      have hstep := hinv.consistent.handle_reference i.call (hinv.fresh hok)
      have hsub' := Reference.map_id_sublist_step i _ _ hsub
      refine ⟨?_, hinv.step hok, ?_, ?_⟩
      · rw [Reference.step, hstep]
        rfl
      · rw [Reference.step, hstep]
        rfl
      · rw [filterMap_drawn_concat, List.map_append]
        exact hsub')
    run hrun
  obtain ⟨hout, -, hvalues, hsub⟩ := hsim
  refine ⟨hout, hvalues.symm, hsub, hsub.nodup (hrun.map fun u v h => ?_)⟩
  exact userIdOf_injective (FieldValue.str.inj h)

theorem refines_reference_renameRun :
    (exec step renameRun Store.empty).1.map Reply.statusCode = [201, 200] := by
  rw [(refines_reference renameRun (by decide)).1]
  rfl

end Novon.Uc
