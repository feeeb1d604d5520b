/-!
# Cutting lists at a separator

* `cut sep l` — what stands before and after the first `sep` of `l`.
* `cut_append`, `cut_eq_some`, `cut_eq_none` — it inverts joining with a separator that the
  first part does not contain.
* `rcut sep l` — the same at the last `sep`.
-/

set_option autoImplicit false

namespace Separators

variable {α : Type} [DecidableEq α]

/-- The parts of a list before and after the first `sep`. -/
def cut (sep : α) : List α → Option (List α × List α)
  | [] => none
  | x :: xs => if x = sep then some ([], xs) else (cut sep xs).map fun p => (x :: p.1, p.2)

theorem cut_append (sep : α) : ∀ (a b : List α), sep ∉ a → cut sep (a ++ sep :: b) = some (a, b)
  | [], b, _ => by simp [cut]
  | x :: a, b, h => by
    have hx : x ≠ sep := fun e => h (e ▸ List.mem_cons_self)
    have ha := cut_append sep a b fun h' => h (List.mem_cons_of_mem _ h')
    simp [cut, hx, ha]

theorem cut_eq_none {sep : α} : ∀ {l : List α}, cut sep l = none ↔ sep ∉ l
  | [] => by simp [cut]
  | x :: xs => by
    by_cases hx : x = sep
    · simp [cut, hx]
    · simp [cut, hx, cut_eq_none (l := xs), Ne.symm hx]

theorem cut_eq_some {sep : α} : ∀ {l a b : List α}, cut sep l = some (a, b) →
    l = a ++ sep :: b ∧ sep ∉ a
  | [], _, _, h => by cases h
  | x :: xs, a, b, h => by
    simp only [cut] at h
    split at h
    · rename_i hx
      cases h
      simp [hx]
    · rename_i hx
      obtain ⟨⟨a', b'⟩, hp, hq⟩ := Option.map_eq_some_iff.1 h
      cases hq
      obtain ⟨rfl, ha⟩ := cut_eq_some hp
      simp [ha, Ne.symm hx]

/-- The parts of a list before and after the last `sep`. -/
def rcut (sep : α) (l : List α) : Option (List α × List α) :=
  (cut sep l.reverse).map fun p => (p.2.reverse, p.1.reverse)

theorem rcut_append (sep : α) (a b : List α) (h : sep ∉ b) :
    rcut sep (a ++ sep :: b) = some (a, b) := by
  have hrev : (a ++ sep :: b).reverse = b.reverse ++ sep :: a.reverse := by simp
  rw [rcut, hrev, cut_append sep _ _ (by simpa using h)]
  simp

theorem rcut_eq_none {sep : α} {l : List α} : rcut sep l = none ↔ sep ∉ l := by
  rw [rcut, Option.map_eq_none_iff, cut_eq_none, List.mem_reverse]

theorem rcut_eq_some {sep : α} {l a b : List α} (h : rcut sep l = some (a, b)) :
    l = a ++ sep :: b ∧ sep ∉ b := by
  obtain ⟨⟨x, y⟩, hc, hp⟩ := Option.map_eq_some_iff.1 h
  obtain ⟨hl, hx⟩ := cut_eq_some hc
  cases hp
  refine ⟨?_, by simpa using hx⟩
  have := congrArg List.reverse hl
  simpa using this

theorem length_lt_of_cut {sep : α} {l a b : List α} (h : cut sep l = some (a, b)) :
    b.length < l.length := by
  rw [(cut_eq_some h).1]
  simp
  omega

end Separators
