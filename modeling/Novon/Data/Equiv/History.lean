import Novon.Data.History

/-!
# Where the records of a machine come from

A record that is there was created by some step, has neither been created again nor removed since,
and each of its fields holds the value assigned to it last, or the value it was created with
(`exists_creation`).  If no key is created twice, a record that has been removed never comes back
(`LifeCycle`).  Both are inductions over runs, by what one write relates.
-/

namespace Novon

namespace Write.Relates

variable {σ κ φ ν : Type*} {record : σ → κ → Option (φ → ν)} {s s' : σ} {w : Write κ φ ν} {k : κ}

/-- A write that neither creates nor removes a record leaves it there, with the fields that it
assigns overwritten. -/
theorem record_eq [DecidableEq κ] (h : w.Relates record s s') (hc : w.created ≠ some k)
    (hr : w.removed ≠ some k) :
    record s' k = (record s k).map fun old f => (w.assigned k f).getD (old f) := by
  have hkeep : (record s k).map (fun old f => (none : Option ν).getD (old f)) = record s k :=
    Option.map_id_apply
  cases w with
  | idle => exact (h k).trans hkeep.symm
  | create k' value =>
    have hk : k ≠ k' := fun hk => hc (by rw [Write.created, hk])
    exact (h.2 k hk).trans hkeep.symm
  | remove k' =>
    have hk : k ≠ k' := fun hk => hr (by rw [Write.removed, hk])
    exact (h.2.2 k hk).trans hkeep.symm
  | assign k' value =>
    by_cases hk : k' = k
    · subst hk
      obtain ⟨⟨old, hold, hnew⟩, -⟩ := h
      simp only [hold, hnew, Write.assigned, ↓reduceIte, Option.map_some]
    · simp only [Write.assigned, hk, ↓reduceIte]
      exact (h.2 k (Ne.symm hk)).trans hkeep.symm

theorem of_removed (h : w.Relates record s s') (hr : w.removed = some k) :
    record s k ≠ none ∧ record s' k = none := by
  cases w with
  | remove k' =>
    obtain rfl := Option.some.inj hr
    exact ⟨h.1, h.2.1⟩
  | idle | create _ _ | assign _ _ => cases hr

end Write.Relates

namespace RecordMachine

open Run

variable {σ ι ρ κ φ ν : Type*} (machine : RecordMachine σ ι ρ κ φ ν) {s s' s₀ : σ}

/-! ### One more step -/

theorem createdKeys_concat (trace : List (ι × ρ)) (t : ι × ρ) :
    machine.createdKeys (trace ++ [t]) =
      machine.createdKeys trace ++ (machine.write t).created.toList := by
  rw [createdKeys, List.filterMap_append, ← createdKeys]
  cases h : (machine.write t).created <;> simp [h]

theorem removedKeys_concat (trace : List (ι × ρ)) (t : ι × ρ) :
    machine.removedKeys (trace ++ [t]) =
      machine.removedKeys trace ++ (machine.write t).removed.toList := by
  rw [removedKeys, List.filterMap_append, ← removedKeys]
  cases h : (machine.write t).removed <;> simp [h]

theorem mem_createdKeys_concat {trace : List (ι × ρ)} {t : ι × ρ} {k : κ} :
    k ∈ machine.createdKeys (trace ++ [t]) ↔
      k ∈ machine.createdKeys trace ∨ (machine.write t).created = some k := by
  rw [createdKeys_concat, List.mem_append, Option.mem_toList]

theorem mem_removedKeys_concat {trace : List (ι × ρ)} {t : ι × ρ} {k : κ} :
    k ∈ machine.removedKeys (trace ++ [t]) ↔
      k ∈ machine.removedKeys trace ∨ (machine.write t).removed = some k := by
  rw [removedKeys_concat, List.mem_append, Option.mem_toList]

theorem latest_concat [DecidableEq κ] (k : κ) (f : φ) (trace : List (ι × ρ)) (t : ι × ρ) :
    machine.latest k f (trace ++ [t]) =
      ((machine.write t).assigned k f).or (machine.latest k f trace) := by
  rw [latest, List.reverse_append, List.reverse_singleton, List.singleton_append,
    List.findSome?_cons, ← latest]
  cases (machine.write t).assigned k f <;> rfl

/-! ### Provenance -/

/-- The record under `k` has the fields `fields`, as `trace` tells: its creation, and what has been
assigned since. -/
def Provenance [DecidableEq κ] (k : κ) (trace : List (ι × ρ)) (fields : φ → ν) : Prop :=
  ∃ before creation after value, trace = before ++ creation :: after ∧
    machine.write creation = .create k value ∧
    k ∉ machine.createdKeys after ∧ k ∉ machine.removedKeys after ∧
    ∀ f, fields f = (machine.latest k f after).getD (value f)

/-- **Step lemma**: a step that neither creates nor removes the record goes on with its history. -/
theorem Provenance.concat [DecidableEq κ] {k : κ} {trace : List (ι × ρ)} {fields : φ → ν}
    (h : machine.Provenance k trace fields) {t : ι × ρ}
    (hc : (machine.write t).created ≠ some k) (hr : (machine.write t).removed ≠ some k) :
    machine.Provenance k (trace ++ [t])
      fun f => ((machine.write t).assigned k f).getD (fields f) := by
  obtain ⟨before, creation, after, value, rfl, hcreate, hcreated, hremoved, hfields⟩ := h
  refine ⟨before, creation, after ++ [t], value, by simp, hcreate, ?_, ?_, fun f => ?_⟩
  · simpa [createdKeys_concat, hcreated] using hc
  · simpa [removedKeys_concat, hremoved] using hr
  · show ((machine.write t).assigned k f).getD (fields f) = _
    rw [latest_concat, hfields]
    cases (machine.write t).assigned k f <;> rfl

/-- The history of a record in a program's own words: which steps create what, and what a step sets
a field to. -/
theorem Provenance.explained [DecidableEq κ] {β : Type*} {k : κ} {trace : List (ι × ρ)}
    {field : β → φ → ν} {b : β} (h : machine.Provenance k trace (field b))
    {Creates : β → ι × ρ → Prop} {Shown : φ → Prop} {sets : φ → ι × ρ → Option ν}
    (hcreates : ∀ t value, machine.write t = .create k value →
      ∃ created, Creates created t ∧ value = field created)
    (hsets : ∀ f, Shown f → ∀ t, (machine.write t).assigned k f = sets f t) :
    ∃ before creation after created, trace = before ++ creation :: after ∧
      Creates created creation ∧
      k ∉ machine.createdKeys after ∧ k ∉ machine.removedKeys after ∧
      ∀ f, Shown f → field b f = (after.reverse.findSome? (sets f)).getD (field created f) := by
  obtain ⟨before, creation, after, value, htrace, hwrite, hcreated, hremoved, hfields⟩ := h
  obtain ⟨created, hcreation, rfl⟩ := hcreates creation value hwrite
  refine ⟨before, creation, after, created, htrace, hcreation, hcreated, hremoved, ?_⟩
  intro f hf
  rw [hfields, latest, funext (hsets f hf)]

/-- **Every record comes from its creation**, and each of its fields from the latest step that
assigned it, in every run from a state without records. -/
theorem exists_creation [DecidableEq κ] (hinit : ∀ k, machine.record s₀ k = none) (is : List ι)
    (k : κ) : ∀ fields, machine.record (exec machine.step is s₀).2 k = some fields →
      machine.Provenance k (trace machine.step is s₀) fields := by
  induction is using List.reverseRecOn with
  | nil => simp [hinit]
  | append_singleton is i ih =>
    intro fields hrec
    have hrel := machine.relates i (exec machine.step is s₀).2
    rw [exec_concat] at hrec
    rw [trace_concat]
    generalize (exec machine.step is s₀).2 = s at ih hrel hrec ⊢
    set t := (i, (machine.step i s).1) with ht
    have hr : (machine.write t).removed ≠ some k := fun hr =>
      absurd (hrec.symm.trans (hrel.of_removed hr).2) (by simp)
    -- a record that this step creates starts its history, any other goes on with its own
    by_cases hc : (machine.write t).created = some k
    · cases hw : machine.write t with
      | create k' value =>
        rw [hw] at hrel hc
        obtain rfl := Option.some.inj hc
        obtain rfl := Option.some.inj (hrel.1.symm.trans hrec)
        exact ⟨_, t, [], value, rfl, hw, by simp [createdKeys], by simp [removedKeys],
          fun f => rfl⟩
      | idle | remove _ | assign _ _ => simp [hw, Write.created] at hc
    · rw [hrel.record_eq hc hr] at hrec
      obtain ⟨old, hold, rfl⟩ := Option.map_eq_some_iff.mp hrec
      exact (ih old hold).concat machine hc hr

/-! ### Life cycle -/

/-- What a trace says about the records that it leaves behind. -/
structure LifeCycle (trace : List (ι × ρ)) (s : σ) : Prop where
  /-- No key is removed twice. -/
  nodup_removed : (machine.removedKeys trace).Nodup
  created_of_record : ∀ k, machine.record s k ≠ none → k ∈ machine.createdKeys trace
  created_of_removed : ∀ k ∈ machine.removedKeys trace, k ∈ machine.createdKeys trace
  /-- What has been removed is not there. -/
  record_of_removed : ∀ k ∈ machine.removedKeys trace, machine.record s k = none

variable {machine} {tr : List (ι × ρ)} {t : ι × ρ}

/-- **Step lemma**, for a step that does not create a key again. -/
theorem LifeCycle.concat [DecidableEq κ] (h : machine.LifeCycle tr s)
    (hnew : ∀ k ∈ machine.createdKeys tr, (machine.write t).created ≠ some k)
    (hrel : (machine.write t).Relates machine.record s s') : machine.LifeCycle (tr ++ [t]) s' := by
  have hstays : ∀ k, (machine.write t).created ≠ some k → (machine.write t).removed ≠ some k →
      (machine.record s' k = none ↔ machine.record s k = none) := by
    intro k hc hr
    rw [hrel.record_eq hc hr, Option.map_eq_none_iff]
  constructor
  · rw [removedKeys_concat, List.nodup_append]
    refine ⟨h.nodup_removed, by cases (machine.write t).removed <;> simp, ?_⟩
    rintro k hk _ hr rfl
    rw [Option.mem_toList] at hr
    exact (hrel.of_removed hr).1 (h.record_of_removed k hk)
  · intro k hk
    rw [mem_createdKeys_concat]
    by_cases hc : (machine.write t).created = some k
    · exact .inr hc
    · have hr : (machine.write t).removed ≠ some k := fun hr => hk (hrel.of_removed hr).2
      exact .inl (h.created_of_record k (mt (hstays k hc hr).mpr hk))
  · intro k hk
    rw [mem_createdKeys_concat]
    rcases (mem_removedKeys_concat machine).mp hk with hold | hr
    · exact .inl (h.created_of_removed k hold)
    · exact .inl (h.created_of_record k (hrel.of_removed hr).1)
  · intro k hk
    by_cases hr : (machine.write t).removed = some k
    · exact (hrel.of_removed hr).2
    · -- a key that has been removed was created before, so it is not a new one
      have hold := ((mem_removedKeys_concat machine).mp hk).resolve_right hr
      exact (hstays k (hnew k (h.created_of_removed k hold)) hr).mpr (h.record_of_removed k hold)

/-- **A record that has been removed never comes back**, in every run from a state without records
that creates no key twice. -/
theorem lifeCycle_exec [DecidableEq κ] (hinit : ∀ k, machine.record s₀ k = none) (is : List ι)
    (hnodup : (machine.createdKeys (trace machine.step is s₀)).Nodup) :
    machine.LifeCycle (trace machine.step is s₀) (exec machine.step is s₀).2 := by
  induction is using List.reverseRecOn with
  | nil =>
    refine ⟨by simp [removedKeys], fun k hk => absurd (hinit k) hk, ?_, ?_⟩ <;> simp [removedKeys]
  | append_singleton is i ih =>
    have hpre : (machine.createdKeys (trace machine.step is s₀)).Nodup := by
      rw [trace_concat, createdKeys_concat] at hnodup
      exact (List.nodup_append.mp hnodup).1
    rw [trace_concat, createdKeys_concat, List.nodup_append] at hnodup
    rw [trace_concat, exec_concat]
    refine (ih hpre).concat (fun k hk hc => ?_) (machine.relates i _)
    exact hnodup.2.2 k hk k (by rw [hc]; simp) rfl

end RecordMachine

end Novon
