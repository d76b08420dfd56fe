import Novon.Flow.Equiv.WellFormed
import Novon.Uc.Equiv.WellFormed

/-!
# Every stored record stays well-formed

The two invariants together, on runs whose clock readings do not decrease.
-/

namespace Novon

open Run

/-- **Every stored record stays well-formed**, in every state that a run from the empty store
reaches, although updates are not validated again; and a step changes neither the id nor the
creation time of a record that it does not create, nor does its `updated_at` decrease.  A step that
creates an id that is stored needs a `uuid4` that repeats. -/
theorem records_stay_well_formed :
    (∀ run : List Uc.Step, Chronological (Uc.readings run) →
      (∀ userId user, (exec Uc.step run .empty).2.users.get? userId = some user →
        user.WellFormed userId ∧
        ∃ c t : Datetime, user.createdAt = .datetime c ∧ user.updatedAt = .datetime t ∧ c ≤ t)) ∧
    (∀ (run : List Uc.Step) (next : Uc.Step), Chronological (Uc.readings (run ++ [next])) →
      ∀ userId user user', (exec Uc.step run .empty).2.users.get? userId = some user →
        (exec Uc.step (run ++ [next]) .empty).2.users.get? userId = some user' →
        (Uc.NoRepeat (run ++ [next]) ∨
          (Uc.write (next, (Uc.step next (exec Uc.step run .empty).2).1)).created ≠ some userId) →
        user.Keeps user') ∧
    (∀ run : List Flow.Event, Chronological (Flow.readings run) →
      (∀ flowId flow, (exec Flow.step run .empty).2.flows.get? flowId = some flow →
        flow.WellFormed flowId ∧
        ∃ c t : Datetime, flow.createdAt = .datetime c ∧ flow.updatedAt = .datetime t ∧ c ≤ t)) ∧
    (∀ (run : List Flow.Event) (next : Flow.Event),
      Chronological (Flow.readings (run ++ [next])) →
      ∀ flowId flow flow', (exec Flow.step run .empty).2.flows.get? flowId = some flow →
        (exec Flow.step (run ++ [next]) .empty).2.flows.get? flowId = some flow' →
        (Flow.NoRepeat (run ++ [next]) ∨
          (Flow.write (next, (Flow.step next (exec Flow.step run .empty).2).1)).created ≠
            some flowId) →
        flow.Keeps flow') := by
  refine ⟨fun run hm userId user hu => ?_, fun run next hm userId user user' hu hu' hc => ?_,
    fun run hm flowId flow hf => ?_, fun run next hm flowId flow flow' hf hf' hc => ?_⟩
  · obtain ⟨hwf, c, t, hcreated, hupdated, hle, -⟩ := Uc.wellFormed_exec run hm userId user hu
    exact ⟨hwf, c, t, hcreated, hupdated, hle⟩
  · have hpre : Chronological (Uc.readings run) := by
      rw [Uc.readings_concat] at hm
      exact hm.of_append
    have hcreated := hc.elim (fun h => Uc.created_ne_of_stored h hu) id
    exact (Uc.WellFormed.step run next (Uc.wellFormed_exec run hpre) hm).2 userId user user' hu hu'
      hcreated
  · obtain ⟨hwf, c, t, hcreated, hupdated, hle, -⟩ := (Flow.wellFormed_exec run hm).stored _ _ hf
    exact ⟨hwf, c, t, hcreated, hupdated, hle⟩
  · have hpre : Chronological (Flow.readings run) := by
      rw [Flow.readings_concat] at hm
      exact hm.of_append
    have hcreated := hc.elim (fun h => Flow.created_ne_of_stored h hf) id
    exact (Flow.WellFormed.step run next (Flow.wellFormed_exec run hpre) hm).2 flowId flow flow'
      hf hf' hcreated

/-- A rename, and the clearing of a description. -/
theorem records_stay_well_formed_sample :
    (Uc.newUser .alice ⟨.one, 0⟩).Keeps
      (applyUserUpdate .toAlicia 1 (Uc.newUser .alice ⟨.one, 0⟩)) ∧
    (applyUserUpdate .toAlicia 1 (Uc.newUser .alice ⟨.one, 0⟩)).WellFormed (Uc.userIdOf .one) ∧
    (Flow.newFlow .release ⟨.one, 0⟩).Keeps
      (applyFlowUpdate .clear 1 (Flow.newFlow .release ⟨.one, 0⟩)) ∧
    (applyFlowUpdate .clear 1 (Flow.newFlow .release ⟨.one, 0⟩)).WellFormed
      (Flow.flowIdOf .one) := by
  obtain ⟨hstored, hkept, hstored', hkept'⟩ := records_stay_well_formed
  exact ⟨hkept (Uc.renameRun.take 1) ⟨.updateUser (Uc.userIdOf .one) .toAlicia, ⟨.two, 1⟩⟩
      (by decide) (Uc.userIdOf .one) _ _ rfl rfl (.inl (by decide)),
    (hstored Uc.renameRun (by decide) _ _ rfl).1,
    hkept' (Flow.clearRun.take 3) (.run (.updateFlow (Flow.flowIdOf .one) .clear) ⟨.two, 1⟩)
      (by decide) (Flow.flowIdOf .one) _ _ rfl rfl (.inl (by decide)),
    (hstored' Flow.clearRun (by decide) _ _ rfl).1⟩

end Novon
