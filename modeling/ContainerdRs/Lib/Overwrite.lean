import Mathlib.Data.List.Basic
import Mathlib.Tactic

/-!
# Writes to one cell

A list of writers, each of which may set a cell (`f i = some a`) or leave it alone
(`f i = none`).  After all of them the cell holds what the last one that set it wrote.

* `overwrite_untouched`, `overwrite_last`, `overwrite_const` — the value from the last writes.
* `exists_last` — if some writer has a property, there is a last one.
-/

set_option autoImplicit false

namespace Overwrite

variable {ι α : Type}

/-- The cell after the writers, in order. -/
def overwrite (f : ι → Option α) (v : α) (is : List ι) : α := is.foldl (fun v i => (f i).getD v) v

theorem overwrite_append (f : ι → Option α) (v : α) (is js : List ι) :
    overwrite f v (is ++ js) = overwrite f (overwrite f v is) js := by
  simp [overwrite]

/-- Nobody writes. -/
theorem overwrite_untouched {f : ι → Option α} {v : α} : ∀ {is : List ι}, (∀ i ∈ is, f i = none) →
    overwrite f v is = v
  | [], _ => rfl
  | i :: is, h => by
    have hi : f i = none := h i (by simp)
    have ih : overwrite f v is = v := overwrite_untouched fun j hj => h j (by simp [hj])
    simpa [overwrite, hi] using ih

/-- The last writer counts. -/
theorem overwrite_last {f : ι → Option α} {v a : α} {pre post : List ι} {i : ι} (hi : f i = some a)
    (hpost : ∀ j ∈ post, f j = none) : overwrite f v (pre ++ i :: post) = a := by
  rw [overwrite_append, ← List.singleton_append, overwrite_append, overwrite_untouched hpost]
  simp [overwrite, hi]

/-- If some element has a property, there is a last one. -/
theorem exists_last {P : ι → Prop} : ∀ {is : List ι}, (∃ i ∈ is, P i) →
    ∃ pre i post, is = pre ++ i :: post ∧ P i ∧ ∀ j ∈ post, ¬ P j
  | [], h => by simp at h
  | i :: is, h => by
    by_cases his : ∃ j ∈ is, P j
    · obtain ⟨pre, j, post, rfl, hj, hpost⟩ := exists_last his
      exact ⟨i :: pre, j, post, rfl, hj, hpost⟩
    · obtain ⟨j, hj, hP⟩ := h
      rcases List.mem_cons.mp hj with rfl | hj
      · exact ⟨[], j, is, rfl, hP, fun k hk hPk => his ⟨k, hk, hPk⟩⟩
      · exact absurd ⟨j, hj, hP⟩ his

/-- Writers that all write the same value. -/
theorem overwrite_const {f : ι → Option α} {v a : α} {is : List ι}
    (hall : ∀ i ∈ is, f i = none ∨ f i = some a) (hsome : ∃ i ∈ is, f i ≠ none) :
    overwrite f v is = a := by
  obtain ⟨pre, i, post, rfl, hi, hpost⟩ := exists_last hsome
  have hia : f i = some a := (hall i (by simp)).resolve_left hi
  exact overwrite_last hia fun j hj => not_not.mp (hpost j hj)

end Overwrite
