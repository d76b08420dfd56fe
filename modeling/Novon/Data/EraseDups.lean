import Mathlib.Data.List.Basic

/-!
# Lists without duplicates

`List.eraseDupsBy r` drops every element that `r` relates to an earlier one.  Nothing is asked of
`r` here: a property that related elements share is kept by the elements that stay.
-/

namespace Novon.EraseDups

variable {α : Type*} {r : α → α → Bool} {l : List α}

/-- Induction along the recursion of `eraseDupsBy`. -/
theorem induct {P : List α → Prop} (r : α → α → Bool) (nil : P [])
    (cons : ∀ a as, P (as.filter fun b => r b a = false) → P (a :: as)) (l : List α) : P l := by
  induction h : l.length using Nat.strongRecOn generalizing l with
  | ind n ih =>
    cases l with
    | nil => exact nil
    | cons a as =>
      apply cons
      have hlt : (as.filter fun b => r b a = false).length < n := by
        have hle := List.length_filter_le (fun b => decide (r b a = false)) as
        rw [List.length_cons] at h
        omega
      exact ih _ hlt _ rfl

theorem mem_of_mem_eraseDupsBy {x : α} (h : x ∈ l.eraseDupsBy r) : x ∈ l := by
  induction l using induct r with
  | nil => exact h
  | cons a as ih =>
    rw [List.eraseDupsBy_cons, List.mem_cons] at h
    rcases h with rfl | h
    · exact List.mem_cons_self
    · exact List.mem_cons_of_mem _ (List.mem_of_mem_filter (ih h))

/-- What some element has, some element that stays has. -/
theorem exists_mem_eraseDupsBy {p : α → Prop} (hp : ∀ x y, r x y = true → (p x ↔ p y)) :
    (∃ x ∈ l.eraseDupsBy r, p x) ↔ ∃ x ∈ l, p x := by
  induction l using induct r with
  | nil => rfl
  | cons a as ih =>
    rw [List.eraseDupsBy_cons, List.exists_mem_cons_iff, List.exists_mem_cons_iff, ih]
    constructor
    · rintro (ha | ⟨x, hx, hpx⟩)
      · exact .inl ha
      · exact .inr ⟨x, List.mem_of_mem_filter hx, hpx⟩
    · rintro (ha | ⟨x, hx, hpx⟩)
      · exact .inl ha
      · -- `x` was dropped only if `a` has the property as well
        by_cases hr : r x a = true
        · exact .inl ((hp x a hr).mp hpx)
        · exact .inr ⟨x, List.mem_filter.mpr ⟨hx, by simpa using hr⟩, hpx⟩

/-- The first element with a property stays. -/
theorem find?_eraseDupsBy {p : α → Bool} (hp : ∀ x y, r x y = true → p x = p y) :
    (l.eraseDupsBy r).find? p = l.find? p := by
  induction l using induct r with
  | nil => rfl
  | cons a as ih =>
    rw [List.eraseDupsBy_cons, List.find?_cons, List.find?_cons, ih, List.find?_filter]
    cases ha : p a with
    | true => rfl
    | false =>
      show as.find? _ = as.find? p
      congr
      ext x
      by_cases hr : r x a = true
      · simp [hr, hp x a hr, ha]
      · simp [hr]

/-- Of elements that are all related only the first stays. -/
theorem eraseDupsBy_eq_singleton {a : α} {as : List α} (h : ∀ x ∈ as, r x a = true) :
    (a :: as).eraseDupsBy r = [a] := by
  have hnone : as.filter (fun b => r b a = false) = [] := by
    rw [List.filter_eq_nil_iff]
    intro x hx
    simp [h x hx]
  rw [List.eraseDupsBy_cons, hnone, List.eraseDupsBy_nil]

end Novon.EraseDups
