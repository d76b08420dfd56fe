import Novon.Core.Equiv.Pydantic
import Novon.Uc.Equiv.History

/-!
# Stored users are well-formed

Every stored user keeps to the bounds that its payloads were validated against, and its time stamps
are clock readings in order.  The step lemma goes over what a handler can do
(`WellFormed.effect`); it needs no assumption on `uuid4`.
-/

namespace Novon

/-- What validation promises of a user stored under `userId`. -/
structure UserResponse.WellFormed (userId : String) (user : UserResponse) : Prop where
  id_eq : user.id = .str userId
  username : user.username.Bounded 3 50
  email : user.email.Bounded 3 254
  status : user.status.IsStr

/-- What no later step changes, and what only grows. -/
structure UserResponse.Keeps (user user' : UserResponse) : Prop where
  id_eq : user'.id = user.id
  createdAt : user'.createdAt = user.createdAt
  updatedAt : NotBefore user.updatedAt user'.updatedAt

theorem UserResponse.WellFormed.applyUserUpdate {userId : String} {user : UserResponse}
    (h : user.WellFormed userId) (p : UserUpdate) (now : Datetime) :
    (Novon.applyUserUpdate p now user).WellFormed userId where
  id_eq := h.id_eq
  username := h.username.overlay p.username
  email := h.email.overlay p.email
  status := h.status.overlay p.status

namespace Uc

open Run

/-- The clock reading of a step: a handler that raises has not read the clock. -/
def reading : Step × Reply UserResponse → Option Datetime
  | (⟨.createUser _, env⟩, ⟨status, _⟩) => if status = 201 then some env.now else none
  | (⟨.updateUser _ _, env⟩, ⟨status, _⟩) => if status = 200 then some env.now else none
  | _ => none

/-- The clock readings of a run, in execution order. -/
def readings (run : List Step) : List Datetime := (trace step run Store.empty).filterMap reading

theorem readings_concat (run : List Step) (i : Step) :
    readings (run ++ [i]) = readings run ++
      (reading (i, (step i (exec step run Store.empty).2).1)).toList := by
  rw [readings, trace_concat, List.filterMap_append, ← readings]
  cases h : reading (i, (step i (exec step run Store.empty).2).1) <;> simp [h]

/-- Every stored user is well-formed and stamped. -/
def WellFormed (past : List Datetime) (s : Store) : Prop :=
  ∀ userId user, s.users.get? userId = some user →
    user.WellFormed userId ∧ Stamped past user.createdAt user.updatedAt

variable {s : Store} {env : Env} {call : UcCall} {past : List Datetime}

theorem newUser_wellFormed (payload : UserCreate) (env : Env) :
    (newUser payload env).WellFormed (userIdOf env.uuid) where
  id_eq := rfl
  username := FieldValue.bounded_val payload.username
  email := FieldValue.bounded_val payload.email
  status := ⟨"active", rfl⟩

/-- **Step lemma**: a step leaves well-formed users behind, and keeps those it does not create. -/
theorem WellFormed.effect (h : WellFormed past s) {reply : Reply UserResponse} {s' : Store}
    (he : Effect env s call (reply, s'))
    (hm : Chronological (past ++ (reading (⟨call, env⟩, reply)).toList)) :
    WellFormed (past ++ (reading (⟨call, env⟩, reply)).toList) s' ∧
      ∀ userId user user', s.users.get? userId = some user → s'.users.get? userId = some user' →
        (write (⟨call, env⟩, reply)).created ≠ some userId → user.Keeps user' := by
  have hsame : WellFormed (past ++ (reading (⟨call, env⟩, reply)).toList) s :=
    fun userId user hu => ⟨(h userId user hu).1, (h userId user hu).2.append _⟩
  have hkeep : ∀ userId user user', s.users.get? userId = some user →
      s.users.get? userId = some user' → user.Keeps user' := by
    intro userId user user' hu hu'
    obtain rfl := Option.some.inj (hu.symm.trans hu')
    exact ⟨rfl, rfl, (h userId user hu).2.notBefore⟩
  cases he with
  | read _ => exact ⟨hsame, fun userId user user' hu hu' _ => hkeep userId user user' hu hu'⟩
  | refused _ => exact ⟨hsame, fun userId user user' hu hu' _ => hkeep userId user user' hu hu'⟩
  | @create payload _ =>
    constructor
    · intro userId user hu
      rcases Dict.get?_set_eq_some_iff.mp hu with ⟨rfl, rfl⟩ | ⟨_, hu⟩
      · exact ⟨newUser_wellFormed payload env, stamped_new⟩
      · exact hsame userId user hu
    · intro userId user user' hu hu' hc
      have hne : userId ≠ userIdOf env.uuid := fun heq => hc (by simp [write, Write.created, heq])
      rw [created, Dict.get?_set_of_ne _ _ hne] at hu'
      exact hkeep userId user user' hu hu'
  | @patch patchedId p existing hget _ =>
    have hstamp := (h patchedId existing hget).2.update hm
    constructor
    · intro userId user hu
      rcases Dict.get?_set_eq_some_iff.mp hu with ⟨rfl, rfl⟩ | ⟨_, hu⟩
      · exact ⟨(h userId existing hget).1.applyUserUpdate p env.now, hstamp.1⟩
      · exact hsame userId user hu
    · intro userId user user' hu hu' _
      rcases Dict.get?_set_eq_some_iff.mp hu' with ⟨rfl, rfl⟩ | ⟨_, hu'⟩
      · obtain rfl := Option.some.inj (hu.symm.trans hget)
        exact ⟨rfl, rfl, hstamp.2⟩
      · exact hkeep userId user user' hu hu'
  | @delete deletedId _ _ =>
    constructor
    · intro userId user hu
      exact hsame userId user (Dict.get?_pop_eq_some_iff.mp hu).2
    · intro userId user user' hu hu' _
      exact hkeep userId user user' hu (Dict.get?_pop_eq_some_iff.mp hu').2

theorem WellFormed.step (run : List Step) (i : Step)
    (h : WellFormed (readings run) (exec step run Store.empty).2)
    (hm : Chronological (readings (run ++ [i]))) :
    WellFormed (readings (run ++ [i])) (exec Uc.step (run ++ [i]) Store.empty).2 ∧
      ∀ userId user user', (exec Uc.step run Store.empty).2.users.get? userId = some user →
        (exec Uc.step (run ++ [i]) Store.empty).2.users.get? userId = some user' →
        (write (i, (Uc.step i (exec Uc.step run Store.empty).2).1)).created ≠ some userId →
        user.Keeps user' := by
  rw [readings_concat] at hm ⊢
  rw [exec_concat]
  exact h.effect (handle_effect i.call i.env _) hm

/-- **Run lemma.** -/
theorem wellFormed_exec (run : List Step) (hm : Chronological (readings run)) :
    WellFormed (readings run) (exec step run Store.empty).2 := by
  induction run using List.reverseRecOn with
  | nil => simp [WellFormed, Store.empty]
  | append_singleton run i ih =>
    have hpre : Chronological (readings run) := by
      rw [readings_concat] at hm
      exact hm.of_append
    exact (WellFormed.step run i (ih hpre) hm).1

/-- An id that is stored is not created again, if `uuid4` does not repeat. -/
theorem created_ne_of_stored {run : List Step} {i : Step} (h : NoRepeat (run ++ [i]))
    {userId : String} {user : UserResponse}
    (hget : (exec step run Store.empty).2.users.get? userId = some user) :
    (write (i, (step i (exec step run Store.empty).2).1)).created ≠ some userId := by
  have hnodup := nodup_createdKeys h Store.empty
  rw [trace_concat, RecordMachine.createdKeys_concat, List.nodup_append] at hnodup
  have hlife : recordMachine.LifeCycle (trace step run Store.empty)
      (exec step run Store.empty).2 :=
    recordMachine.lifeCycle_exec record_empty run hnodup.1
  have hmem := hlife.created_of_record userId (by simp [recordMachine, record, hget])
  intro hc
  exact hnodup.2.2 userId hmem userId (Option.mem_toList.mpr hc) rfl

end Uc

end Novon
