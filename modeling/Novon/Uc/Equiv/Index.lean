import Novon.Data.Index
import Novon.Data.Run
import Novon.Uc.Equiv.Routes

/-!
# The username index of the UC store

In every state that a run reaches from the empty store, every user is stored under its own `id`
and `_USERS_BY_USERNAME` is an index of `_USERS` by username (`index_bijection`).  The invariant
`Consistent` is preserved by every effect of a handler (`Consistent.effect`); the run adds that
every stored id was made from an identifier drawn before, so that a fresh one is not in use.
-/

namespace Novon.Uc

open Run

theorem userIdOf_injective : Function.Injective userIdOf := by
  intro a b h
  have htext : a.text = b.text := (String.append_right_inj "user_").mp h
  cases a; cases b; cases htext; rfl

/-- Users are stored under their ids and the index agrees with them. -/
structure Consistent (s : Store) : Prop where
  id_eq : ∀ i user, s.users.get? i = some user → user.id = .str i
  index : IsIndex s.users UserResponse.username s.usersByUsername

theorem consistent_empty : Consistent Store.empty :=
  ⟨by simp [Store.empty], IsIndex.empty _⟩

variable {s s' : Store} {env : Env} {call : UcCall} {reply : Reply UserResponse}

/-- A rename that is not refused asks for a free name: the caller's own name is no rename. -/
theorem Consistent.get?_newUsername (h : Consistent s) {userId : String} {p : UserUpdate}
    {existing : UserResponse} (hget : s.users.get? userId = some existing)
    (hr : Renames p existing) (ht : ¬ Taken p userId s) :
    s.usersByUsername.get? (newUsername p) = none := by
  by_contra hne
  have howner : s.usersByUsername.get? (newUsername p) = some userId := by
    by_contra hno
    exact ht ⟨hne, hno⟩
  obtain ⟨user, huser, hname⟩ := (h.index _ _).mp howner
  obtain rfl : existing = user := Option.some.inj (hget.symm.trans huser)
  exact hr.2 hname.symm

/-- **Step lemma**: every effect of a handler keeps the store consistent, if the identifier it may
draw is not in use. -/
theorem Consistent.effect (h : Consistent s)
    (hfresh : (∃ p, call = .createUser p) → s.users.get? (userIdOf env.uuid) = none)
    (he : Effect env s call (reply, s')) : Consistent s' := by
  cases he with
  | read _ => exact h
  | refused _ => exact h
  | @create payload hfree =>
    have hk := hfresh ⟨payload, rfl⟩
    refine ⟨fun i user hu => ?_, h.index.insert hk (Dict.get?_eq_none_iff.mpr hfree)⟩
    rcases Dict.get?_set_eq_some_iff.mp hu with ⟨rfl, rfl⟩ | ⟨_, hu⟩
    · rw [newUser]
    · exact h.id_eq i user hu
  | @patch userId p existing hget hok =>
    constructor
    · intro i user hu
      rcases Dict.get?_set_eq_some_iff.mp hu with ⟨rfl, rfl⟩ | ⟨_, hu⟩
      · exact h.id_eq i existing hget
      · exact h.id_eq i user hu
    · have hname := username_applyUserUpdate p env.now existing
      by_cases hr : Renames p existing
      · -- a rename moves the index entry to the new name, which is free
        rw [if_pos hr] at hname
        have hfree := h.get?_newUsername hget hr (hok hr)
        rw [patched, if_pos hr, ← hname]
        exact h.index.rename hget (hname ▸ hfree)
      · -- without a rename the record keeps its name
        rw [if_neg hr] at hname
        rw [patched, if_neg hr]
        exact h.index.replace hget hname
  | @delete userId user hget =>
    exact ⟨fun i u hu => h.id_eq i u (Dict.get?_pop_eq_some_iff.mp hu).2, h.index.remove hget⟩

/-- An id that is in use after a step was in use before it or is the one the step drew. -/
theorem get?_isSome_of_effect {i : String} (he : Effect env s call (reply, s'))
    (hi : (s'.users.get? i).isSome) :
    (s.users.get? i).isSome ∨ (∃ p, call = .createUser p) ∧ i = userIdOf env.uuid := by
  cases he with
  | read _ => exact .inl hi
  | refused _ => exact .inl hi
  | @create payload _ =>
    rw [created, Dict.get?_set] at hi
    split at hi
    · next h => exact .inr ⟨⟨payload, rfl⟩, h⟩
    · exact .inl hi
  | @patch userId p existing hget _ =>
    rw [patched, Dict.get?_set] at hi
    split at hi
    · next h => exact .inl (by rw [h, hget]; rfl)
    · exact .inl hi
  | @delete userId user _ =>
    rw [deleted, Dict.get?_pop] at hi
    split at hi
    · exact absurd hi (by simp)
    · exact .inl hi

/-! ### Runs -/

/-- `uuid4` never repeats within the run. -/
def NoRepeat (run : List Step) : Prop := (run.filterMap Step.drawn).Nodup

instance (run : List Step) : Decidable (NoRepeat run) := inferInstanceAs (Decidable (List.Nodup _))

theorem filterMap_drawn_concat (run : List Step) (i : Step) :
    (run ++ [i]).filterMap Step.drawn = run.filterMap Step.drawn ++ i.drawn.toList := by
  rw [List.filterMap_append]
  cases h : i.drawn <;> simp [h]

theorem NoRepeat.of_append {run more : List Step} (h : NoRepeat (run ++ more)) : NoRepeat run := by
  rw [NoRepeat, List.filterMap_append, List.nodup_append] at h
  exact h.1

/-- What holds after a run: the store is consistent and its ids come from the identifiers
drawn. -/
structure RunInv (run : List Step) (s : Store) : Prop where
  consistent : Consistent s
  drawn : ∀ i, (s.users.get? i).isSome → ∃ u ∈ run.filterMap Step.drawn, i = userIdOf u

theorem runInv_nil : RunInv [] Store.empty :=
  ⟨consistent_empty, by simp [Store.empty]⟩

/-- The identifier that the next step of a run may draw is not in use. -/
theorem RunInv.fresh {run : List Step} {i : Step} (h : RunInv run s) (hok : NoRepeat (run ++ [i]))
    (hcreate : ∃ p, i.call = .createUser p) : s.users.get? (userIdOf i.env.uuid) = none := by
  obtain ⟨p, hp⟩ := hcreate
  by_contra hne
  obtain ⟨u, hu, heq⟩ := h.drawn _ (Option.isSome_iff_ne_none.mpr hne)
  rw [NoRepeat, filterMap_drawn_concat, List.nodup_append] at hok
  exact hok.2.2 u hu i.env.uuid (by simp [Step.drawn, hp]) (userIdOf_injective heq).symm

theorem RunInv.step {run : List Step} {i : Step} (h : RunInv run s) (hok : NoRepeat (run ++ [i])) :
    RunInv (run ++ [i]) (step i s).2 := by
  have he : Effect i.env s i.call ((Uc.step i s).1, (Uc.step i s).2) := handle_effect i.call i.env s
  refine ⟨h.consistent.effect (h.fresh hok) he, fun k hk => ?_⟩
  rw [filterMap_drawn_concat]
  rcases get?_isSome_of_effect he hk with hold | ⟨⟨p, hp⟩, hnew⟩
  · obtain ⟨u, hu, hku⟩ := h.drawn k hold
    exact ⟨u, List.mem_append_left _ hu, hku⟩
  · exact ⟨i.env.uuid, List.mem_append_right _ (by simp [Step.drawn, hp]), hnew⟩

/-- **Run lemma**: the invariant holds after every run in which `uuid4` does not repeat. -/
theorem runInv_exec (run : List Step) (h : NoRepeat run) :
    RunInv run (exec step run Store.empty).2 :=
  exec_invariant step NoRepeat RunInv Store.empty (fun _ _ => NoRepeat.of_append) runInv_nil
    (fun _ _ _ hok hinv => hinv.step hok) run h

/-- A step that answers 404 or 409 changes nothing. -/
theorem store_eq_of_status {i : Step}
    (h : (step i s).1.statusCode = 404 ∨ (step i s).1.statusCode = 409) : (step i s).2 = s := by
  obtain ⟨call, env⟩ := i
  have he : Effect env s call (step ⟨call, env⟩ s) := handle_effect call env s
  generalize step ⟨call, env⟩ s = r at h he ⊢
  cases he with
  | read _ => rfl
  | refused _ => rfl
  | create _ => simp at h
  | patch _ _ => simp at h
  | delete _ => simp at h

/-- **The UC store and its username index are mutually inverse**, in every state reached from the
empty store by a run in which `uuid4` does not repeat, and a step that ends in a 404 or a 409
leaves both dictionaries as they were. -/
theorem index_bijection (run : List Step) (hrun : NoRepeat run) :
    (∀ i user, (exec step run Store.empty).2.users.get? i = some user → user.id = .str i) ∧
    (∀ n i, (exec step run Store.empty).2.usersByUsername.get? n = some i ↔
      ∃ user, (exec step run Store.empty).2.users.get? i = some user ∧ user.username = n) ∧
    (∀ i j user user', (exec step run Store.empty).2.users.get? i = some user →
      (exec step run Store.empty).2.users.get? j = some user' →
      user.username = user'.username → i = j) ∧
    ∀ next : Step,
      (step next (exec step run Store.empty).2).1.statusCode = 404 ∨
        (step next (exec step run Store.empty).2).1.statusCode = 409 →
      (step next (exec step run Store.empty).2).2 = (exec step run Store.empty).2 := by
  obtain ⟨⟨hid, hindex⟩, -⟩ := runInv_exec run hrun
  exact ⟨hid, hindex, fun i j user user' hu hu' hname => hindex.key_unique hu hu' hname,
    fun next hstatus => store_eq_of_status hstatus⟩

/-- A create and a rename. -/
def renameRun : List Step :=
  [⟨.createUser .alice, ⟨.one, 0⟩⟩, ⟨.updateUser (userIdOf .one) .toAlicia, ⟨.two, 1⟩⟩]

theorem index_bijection_renameRun :
    (exec step renameRun Store.empty).2.usersByUsername.get? (.str "alicia") =
      some (userIdOf .one) :=
  ((index_bijection renameRun (by decide)).2.1 _ _).mpr ⟨_, rfl, rfl⟩

end Novon.Uc
