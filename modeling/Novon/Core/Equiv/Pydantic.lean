import Novon.Core.Equiv.ModelUtils

/-!
# What validation leaves behind

`model_copy(update=...)` does not validate, so a stored record keeps to its bounds only because
every value that is overlaid comes from a payload that was validated (`Bounded.overlay`), and
because nulls are dropped where the stored model admits none.  Time stamps keep in order because
they are taken from a clock that does (`Stamped`).
-/

namespace Novon

/-- A string of length `lo` to `hi`. -/
def FieldValue.Bounded (lo hi : ℕ) (v : FieldValue) : Prop :=
  ∃ s : String, v = .str s ∧ lo ≤ s.length ∧ s.length ≤ hi

/-- A string, so not null. -/
def FieldValue.IsStr (v : FieldValue) : Prop := ∃ s : String, v = .str s

theorem FieldValue.bounded_val {lo hi : ℕ} (b : BoundedStr lo hi) :
    FieldValue.Bounded lo hi (.str b.val) :=
  ⟨b.val, rfl, b.min_length, b.max_length⟩

variable {lo hi : ℕ} {old : FieldValue}

/-- **Overlaying a validated field keeps the bounds**, also where the field is null or unset. -/
theorem FieldValue.Bounded.overlay (h : old.Bounded lo hi) (f : OptField (BoundedStr lo hi)) :
    ((f.toField BoundedStr.val).overlay old).Bounded lo hi := by
  cases f with
  | unset | null => exact h
  | value b => exact FieldValue.bounded_val b

theorem FieldValue.Bounded.overlayNullable (h : old = .null ∨ old.Bounded lo hi)
    (f : OptField (BoundedStr lo hi)) :
    (f.toField BoundedStr.val).overlayNullable old = .null ∨
      ((f.toField BoundedStr.val).overlayNullable old).Bounded lo hi := by
  cases f with
  | unset => exact h
  | null => exact .inl rfl
  | value b => exact .inr (FieldValue.bounded_val b)

theorem FieldValue.IsStr.overlay (h : old.IsStr) (f : OptField String) :
    ((f.toField id).overlay old).IsStr := by
  cases f with
  | unset | null => exact h
  | value s => exact ⟨s, rfl⟩

/-! ### Time stamps -/

/-- `created_at` and `updated_at` are clock readings in order, the later of them one of
`readings`. -/
def Stamped (readings : List Datetime) (createdAt updatedAt : FieldValue) : Prop :=
  ∃ c t : Datetime, createdAt = .datetime c ∧ updatedAt = .datetime t ∧ c ≤ t ∧ t ∈ readings

/-- `updated_at` has not decreased. -/
def NotBefore (before after : FieldValue) : Prop :=
  ∃ t t' : Datetime, before = .datetime t ∧ after = .datetime t' ∧ t ≤ t'

/-- Clock readings, in execution order, do not decrease. -/
def Chronological (readings : List Datetime) : Prop := readings.Pairwise (· ≤ ·)

instance (readings : List Datetime) : Decidable (Chronological readings) :=
  inferInstanceAs (Decidable (List.Pairwise _ _))

variable {readings : List Datetime} {now : Datetime} {createdAt updatedAt : FieldValue}

theorem Chronological.of_append {more : List Datetime} (h : Chronological (readings ++ more)) :
    Chronological readings :=
  (List.pairwise_append.mp h).1

theorem Chronological.le (h : Chronological (readings ++ [now])) {t : Datetime}
    (ht : t ∈ readings) : t ≤ now :=
  (List.pairwise_append.mp h).2.2 t ht now (by simp)

theorem Stamped.append (h : Stamped readings createdAt updatedAt) (more : List Datetime) :
    Stamped (readings ++ more) createdAt updatedAt := by
  obtain ⟨c, t, hc, ht, hle, hmem⟩ := h
  exact ⟨c, t, hc, ht, hle, List.mem_append_left _ hmem⟩

theorem stamped_new : Stamped (readings ++ [now]) (.datetime now) (.datetime now) :=
  ⟨now, now, rfl, rfl, Int.le_refl _, by simp⟩

/-- A later reading is a later time stamp. -/
theorem Stamped.update (h : Stamped readings createdAt updatedAt)
    (hm : Chronological (readings ++ [now])) :
    Stamped (readings ++ [now]) createdAt (.datetime now) ∧
      NotBefore updatedAt (.datetime now) := by
  obtain ⟨c, t, hc, ht, hle, hmem⟩ := h
  exact ⟨⟨c, now, hc, rfl, Int.le_trans hle (hm.le hmem), by simp⟩, t, now, ht, rfl, hm.le hmem⟩

theorem Stamped.notBefore (h : Stamped readings createdAt updatedAt) :
    NotBefore updatedAt updatedAt := by
  obtain ⟨-, t, -, ht, -, -⟩ := h
  exact ⟨t, t, ht, ht, Int.le_refl _⟩

end Novon
