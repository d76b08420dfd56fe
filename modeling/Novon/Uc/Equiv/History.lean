import Novon.Data.Equiv.History
import Novon.Uc.Equiv.Index

/-!
# The UC store as a machine that keeps records

A create answered 201, a PATCH answered 200 and a DELETE answered 204 each make one write, and
nothing else does (`recordMachine`).  Ids are drawn, so a run in which `uuid4` does not repeat
creates none twice.
-/

namespace Novon

/-- A field of a user, by its name. -/
def UserResponse.field (user : UserResponse) (name : String) : FieldValue :=
  (Dict.lookup name user.fields).getD .null

/-- What a `PATCH` sets: the fields that its payload effectively sets, and the time stamp. -/
def UserUpdate.assigns (p : UserUpdate) (now : Datetime) (name : String) : Option FieldValue :=
  if name = "updated_at" then some (.datetime now)
  else effective (targetNullable UserResponse.modelFields) p.fields name

theorem UserResponse.field_applyUserUpdate (p : UserUpdate) (now : Datetime) (user : UserResponse)
    (name : String) :
    (applyUserUpdate p now user).field name = (p.assigns now name).getD (user.field name) := by
  rw [UserResponse.field, fields_applyUserUpdate, patchedFields,
    Dict.lookup_map fun name old => if name = "updated_at" then FieldValue.datetime now
      else patchedField (targetNullable UserResponse.modelFields) p.fields name old,
    UserUpdate.assigns]
  by_cases hname : name = "updated_at"
  · subst hname
    rfl
  rw [if_neg hname, UserResponse.field]
  cases hl : Dict.lookup name user.fields with
  | some old => simp [hname, patchedField_eq_getD]
  | none =>
    -- a payload sets only fields that the record has
    have hnot : name ∉ p.fields.map Prod.fst := by
      rw [Dict.lookup_eq_none_iff] at hl
      simp only [UserResponse.fields, UserUpdate.fields, List.map_cons, List.map_nil,
        List.mem_cons, List.not_mem_nil, or_false, not_or] at hl ⊢
      exact ⟨hl.2.1, hl.2.2.1, hl.2.2.2.1⟩
    simp [effective, Dict.lookup_eq_none_iff.mpr hnot]

namespace Uc

open Run

/-- The write of a call, from what it was answered. -/
def write : Step × Reply UserResponse → Write String String FieldValue
  | (⟨.createUser _, env⟩, ⟨status, .record user⟩) =>
    if status = 201 then .create (userIdOf env.uuid) user.field else .idle
  | (⟨.updateUser userId p, env⟩, ⟨status, _⟩) =>
    if status = 200 then .assign userId (p.assigns env.now) else .idle
  | (⟨.deleteUser userId, _⟩, ⟨status, _⟩) => if status = 204 then .remove userId else .idle
  | _ => .idle

/-- The fields of a stored user. -/
def record (s : Store) (userId : String) : Option (String → FieldValue) :=
  (s.users.get? userId).map UserResponse.field

theorem relates_write (i : Step) (s : Store) :
    (write (i, (step i s).1)).Relates record s (step i s).2 := by
  obtain ⟨call, env⟩ := i
  have he : Effect env s call (step ⟨call, env⟩ s) := handle_effect call env s
  generalize step ⟨call, env⟩ s = r at he ⊢
  cases he with
  | read hread => rcases hread with rfl | ⟨_, rfl⟩ | ⟨_, rfl⟩ <;> exact fun _ => rfl
  | refused hstatus =>
    cases call <;> rcases hstatus with rfl | rfl <;> exact fun _ => rfl
  | create _ =>
    refine ⟨by simp [record, created], fun k hk => ?_⟩
    rw [record, created, Dict.get?_set_of_ne _ _ hk, record]
  | @patch userId p existing hget _ =>
    refine ⟨⟨existing.field, by simp [record, hget], ?_⟩, fun k hk => ?_⟩
    · rw [record, patched, Dict.get?_set_self, Option.map_some]
      exact congrArg some (funext (UserResponse.field_applyUserUpdate p env.now existing))
    · rw [record, patched, Dict.get?_set_of_ne _ _ hk, record]
  | @delete userId user hget =>
    refine ⟨by simp [record, hget], by simp [record, deleted, Dict.get?_pop], fun k hk => ?_⟩
    rw [record, deleted, Dict.get?_pop, if_neg hk, record]

def recordMachine : RecordMachine Store Step (Reply UserResponse) String String FieldValue where
  step := step
  record := record
  write := write
  relates := relates_write

theorem record_empty (k : String) : recordMachine.record Store.empty k = none := rfl

/-- Only a create creates, and under the id that it draws. -/
theorem toList_created_sublist (i : Step) (reply : Reply UserResponse) :
    ((write (i, reply)).created.toList).Sublist (i.drawn.toList.map userIdOf) := by
  obtain ⟨call, env⟩ := i
  obtain ⟨status, body⟩ := reply
  cases call with
  | createUser payload =>
    cases body with
    | record user =>
      by_cases hstatus : status = 201 <;> simp [write, hstatus, Write.created, Step.drawn]
    | empty | records _ | detail _ | mapping _ => simp [write, Write.created]
  | updateUser userId p => by_cases hstatus : status = 200 <;> simp [write, hstatus, Write.created]
  | deleteUser userId => by_cases hstatus : status = 204 <;> simp [write, hstatus, Write.created]
  | getUser _ | getUserByUsername _ | listUsers => simp [write, Write.created]

theorem createdKeys_sublist (run : List Step) (s : Store) :
    (recordMachine.createdKeys (trace step run s)).Sublist
      ((run.filterMap Step.drawn).map userIdOf) := by
  induction run using List.reverseRecOn with
  | nil => simp [RecordMachine.createdKeys]
  | append_singleton run i ih =>
    rw [trace_concat, RecordMachine.createdKeys_concat, filterMap_drawn_concat, List.map_append]
    exact ih.append (toList_created_sublist i _)

/-- No id is created twice. -/
theorem nodup_createdKeys {run : List Step} (h : NoRepeat run) (s : Store) :
    (recordMachine.createdKeys (trace step run s)).Nodup :=
  (createdKeys_sublist run s).nodup (h.map userIdOf_injective)

end Uc

end Novon
