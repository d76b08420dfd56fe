import Novon.Core.Signature

/-!
# What binding gives

A call that binds gives every parameter a value, under its own name and in the order of
declaration.
-/

namespace Novon

variable (python : Python)

theorem map_fst_bindParameters {kwargs : Dict String Value} {extra : List (String × Value)}
    {ps : List Parameter} {args : List Value} {es : List (String × Value)}
    (h : bindParameters python kwargs extra ps args = some es) :
    es.map Prod.fst = ps.map Parameter.name := by
  induction ps generalizing args es with
  | nil =>
    rw [bindParameters] at h
    split at h
    · cases h
      rfl
    · cases h
  | cons p ps ih =>
    rw [bindParameters] at h
    obtain ⟨⟨value, left⟩, -, hrest⟩ := Option.bind_eq_some_iff.mp h
    obtain ⟨rest, hbind, heq⟩ := Option.bind_eq_some_iff.mp hrest
    cases heq
    rw [List.map_cons, List.map_cons, ih hbind]

namespace Func

variable {python} {func : Func} {args : List Value} {kwargs arguments : Dict String Value}

/-- **Binding gives each parameter its argument.** -/
theorem keys_bind (h : func.bind python args kwargs = some arguments) :
    arguments.entries.map Prod.fst = func.parameters.map Parameter.name := by
  simp only [bind] at h
  split at h
  · obtain ⟨es, hes, rfl⟩ := Option.map_eq_some_iff.mp h
    have hkeys := map_fst_bindParameters python hes
    rw [Dict.entries_ofList (hkeys ▸ func.nodup_names), hkeys]
  · cases h

theorem contains_bind (h : func.bind python args kwargs = some arguments) {name : String} :
    arguments.contains name = true ↔ name ∈ func.parameters.map Parameter.name := by
  rw [← not_iff_not, Bool.not_eq_true, Dict.not_contains_iff, keys_bind h]

end Func

end Novon
