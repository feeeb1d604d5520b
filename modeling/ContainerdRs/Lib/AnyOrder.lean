import Mathlib.Data.List.Perm.Basic
import Mathlib.Data.List.Sort

/-!
# Searches in a list that may come in any order

The answer read off the first match in a list whose order is not fixed (the iteration of a hash
map).

* `Outcome l` — what such a search can answer, `l` being what the matches answer.
* `outcome_find?`, `Outcome.exists_perm` — it answers nothing else, and each of these in some
  order.
* `perm_or_eq_iff_settled` — two searches with a fixed value between them, each asked only if
  what stands before it answers nothing: the outcome is the same in all orders exactly when the
  answers are `Settled`.
* `head?_insertionSort_eq_some_iff` — the least entry does not depend on the order.
-/

set_option autoImplicit false

namespace AnyOrder

variable {α β γ : Type}

/-! ## One search -/

/-- What the matches of `p` answer. -/
def answers (p : α → Bool) (f : α → Option β) (l : List α) : List (Option β) :=
  (l.filter p).map f

/-- What a search among entries with these answers can give: one of them, and nothing where there
    is none. -/
def Outcome (l : List (Option β)) (b : Option β) : Prop := b ∈ l ∨ (l = [] ∧ b = none)

theorem Outcome.of_mem {l : List (Option β)} {b : Option β} (h : b ∈ l) : Outcome l b := Or.inl h

theorem Outcome.some_mem {l : List (Option β)} {x : β} (h : Outcome l (some x)) : some x ∈ l := by
  obtain h | ⟨_, h⟩ := h
  · exact h
  · cases h

theorem Outcome.exists (l : List (Option β)) : ∃ b, Outcome l b := by
  cases l with
  | nil => exact ⟨none, Or.inr ⟨rfl, rfl⟩⟩
  | cons b _ => exact ⟨b, Or.inl List.mem_cons_self⟩

theorem outcome_find? (p : α → Bool) (f : α → Option β) {l l' : List α} (h : l'.Perm l) :
    Outcome (answers p f l) ((l'.find? p).bind f) := by
  cases hf : l'.find? p with
  | none =>
    refine Or.inr ⟨?_, rfl⟩
    rw [answers, List.map_eq_nil_iff, List.filter_eq_nil_iff]
    intro a ha
    exact List.find?_eq_none.1 hf a (h.mem_iff.2 ha)
  | some a =>
    have hmem : a ∈ l' := List.mem_of_find?_eq_some hf
    have hmatch : p a = true := List.find?_some hf
    exact Outcome.of_mem (List.mem_map_of_mem (List.mem_filter.2 ⟨h.mem_iff.1 hmem, hmatch⟩))

/-- Every match comes first in some order. -/
theorem Outcome.exists_perm {p : α → Bool} {f : α → Option β} {l : List α} {b : Option β}
    (h : Outcome (answers p f l) b) : ∃ l' : List α, l'.Perm l ∧ (l'.find? p).bind f = b := by
  obtain h | ⟨hnil, rfl⟩ := h
  · obtain ⟨a, ha, rfl⟩ := List.mem_map.1 h
    obtain ⟨hmem, hmatch⟩ := List.mem_filter.1 ha
    obtain ⟨before, after, rfl⟩ := List.append_of_mem hmem
    refine ⟨a :: (before ++ after), List.perm_middle.symm, ?_⟩
    rw [List.find?_cons_of_pos hmatch]
    rfl
  · have hfind : l.find? p = none := by
      rw [answers, List.map_eq_nil_iff, List.filter_eq_nil_iff] at hnil
      rw [List.find?_eq_none]
      exact hnil
    exact ⟨l, List.Perm.refl l, by rw [hfind]; rfl⟩

/-! ## A search, a fixed value, a search -/

/-- The answers of a first search, a value and the answers of a second search do not contradict
    each other where it matters. -/
structure Settled (first : List (Option β)) (s : Option β) (second : List (Option β)) :
    Prop where
  /-- The first search gives one value at most. -/
  first_eq : ∀ x y, some x ∈ first → some y ∈ first → x = y
  /-- Where it can give none and nothing stands in between, the second has one answer. -/
  second_eq : first = [] ∨ none ∈ first → s = none → ∀ a ∈ second, ∀ a' ∈ second, a = a'
  /-- Where it can give a value and can give none, what comes behind gives that value. -/
  behind : ∀ x, some x ∈ first → none ∈ first →
    s = some x ∨ (s = none ∧ second ≠ [] ∧ ∀ a ∈ second, a = some x)

variable {first second : List (Option β)} {s : Option β}

theorem Settled.or_outcome (h : Settled first s second) {x : β} (hx : some x ∈ first)
    (hnone : none ∈ first) {a : Option β} (ha : Outcome second a) : s.or a = some x := by
  obtain hs | ⟨hs, hne, hall⟩ := h.behind x hx hnone
  · rw [hs]
    rfl
  · obtain ha | ⟨hnil, _⟩ := ha
    · rw [hs, hall a ha]
      rfl
    · exact absurd hnil hne

theorem Settled.outcome_eq (h : Settled first s second) (hnone : Outcome first none)
    (hs : s = none) {a a' : Option β} (ha : Outcome second a) (ha' : Outcome second a') :
    a = a' := by
  have hsilent : first = [] ∨ none ∈ first := by
    obtain hmem | ⟨hnil, _⟩ := hnone
    · exact Or.inr hmem
    · exact Or.inl hnil
  obtain ha | ⟨hnil, rfl⟩ := ha
  · obtain ha' | ⟨hnil, _⟩ := ha'
    · exact h.second_eq hsilent hs a ha a' ha'
    · rw [hnil] at ha
      cases ha
  · obtain ha' | ⟨_, rfl⟩ := ha'
    · rw [hnil] at ha'
      cases ha'
    · rfl

theorem Settled.or_eq (hset : Settled first s second) {h h' a a' : Option β}
    (hh : Outcome first h) (hh' : Outcome first h') (ha : Outcome second a)
    (ha' : Outcome second a') : h.or (s.or a) = h'.or (s.or a') := by
  cases h with
  | some x =>
    cases h' with
    | some y => rw [hset.first_eq x y hh.some_mem hh'.some_mem]; rfl
    | none =>
      obtain hmem | ⟨hnil, _⟩ := hh'
      · exact (hset.or_outcome hh.some_mem hmem ha').symm
      · rw [hnil] at hh
        cases hh.some_mem
  | none =>
    cases h' with
    | some y =>
      obtain hmem | ⟨hnil, _⟩ := hh
      · exact hset.or_outcome hh'.some_mem hmem ha
      · rw [hnil] at hh'
        cases hh'.some_mem
    | none =>
      cases s with
      | some c => rfl
      | none => rw [hset.outcome_eq hh rfl ha ha']

theorem settled_of_or_eq (hsame : ∀ h h' a a', Outcome first h → Outcome first h' →
    Outcome second a → Outcome second a' → h.or (s.or a) = h'.or (s.or a')) :
    Settled first s second := by
  obtain ⟨a₀, ha₀⟩ := Outcome.exists second
  constructor
  · intro x y hx hy
    have := hsame _ _ a₀ a₀ (Outcome.of_mem hx) (Outcome.of_mem hy) ha₀ ha₀
    simpa using this
  · intro hsilent hs a ha a' ha'
    have hnone : Outcome first none := by
      obtain hnil | hmem := hsilent
      · exact Or.inr ⟨hnil, rfl⟩
      · exact Outcome.of_mem hmem
    have := hsame _ _ a a' hnone hnone (Outcome.of_mem ha) (Outcome.of_mem ha')
    simpa [hs] using this
  · intro x hx hnone
    have hbehind : ∀ a, Outcome second a → s.or a = some x := by
      intro a ha
      have := hsame _ _ a a (Outcome.of_mem hnone) (Outcome.of_mem hx) ha ha
      simpa using this
    cases s with
    | some c => exact Or.inl (hbehind a₀ ha₀)
    | none =>
      refine Or.inr ⟨rfl, ?_, fun a ha => hbehind a (Outcome.of_mem ha)⟩
      intro hnil
      cases hbehind none (Or.inr ⟨hnil, rfl⟩)

theorem perm_or_eq_iff_settled (p : α → Bool) (f : α → Option β) (l : List α) (s : Option β)
    (q : γ → Bool) (g : γ → Option β) (m : List γ) :
    (∀ l' m', List.Perm l' l → List.Perm m' m →
      ((l'.find? p).bind f).or (s.or ((m'.find? q).bind g)) =
        ((l.find? p).bind f).or (s.or ((m.find? q).bind g))) ↔
      Settled (answers p f l) s (answers q g m) := by
  constructor
  · intro hsame
    apply settled_of_or_eq
    intro h h' a a' hh hh' ha ha'
    obtain ⟨l₁, hl₁, rfl⟩ := hh.exists_perm
    obtain ⟨l₂, hl₂, rfl⟩ := hh'.exists_perm
    obtain ⟨m₁, hm₁, rfl⟩ := ha.exists_perm
    obtain ⟨m₂, hm₂, rfl⟩ := ha'.exists_perm
    rw [hsame l₁ m₁ hl₁ hm₁, hsame l₂ m₂ hl₂ hm₂]
  · intro hset l' m' hl' hm'
    exact hset.or_eq (outcome_find? p f hl') (outcome_find? p f (List.Perm.refl l))
      (outcome_find? q g hm') (outcome_find? q g (List.Perm.refl m))

/-! ## The least entry -/

/-- The head of the sorted list is the least entry, in whatever order they come in. -/
theorem head?_insertionSort_eq_some_iff [LinearOrder α] {l : List α} {x : α} :
    (l.insertionSort (· ≤ ·)).head? = some x ↔ x ∈ l ∧ ∀ y ∈ l, x ≤ y := by
  have hperm := List.perm_insertionSort (· ≤ ·) l
  have hsorted := List.pairwise_insertionSort (· ≤ ·) l
  cases hl : l.insertionSort (· ≤ ·) with
  | nil =>
    rw [hl] at hperm
    rw [hperm.symm.eq_nil]
    simp
  | cons a as =>
    rw [hl] at hperm hsorted
    have hmem : a ∈ l := hperm.mem_iff.1 List.mem_cons_self
    have hle : ∀ y ∈ l, a ≤ y := by
      intro y hy
      rcases List.mem_cons.1 (hperm.mem_iff.2 hy) with rfl | hy
      · exact le_refl y
      · exact List.rel_of_pairwise_cons hsorted hy
    rw [List.head?_cons, Option.some.injEq]
    constructor
    · rintro rfl
      exact ⟨hmem, hle⟩
    · rintro ⟨hx, hleast⟩
      exact le_antisymm (hle x hx) (hleast a hmem)

end AnyOrder
