import Mathlib

/-!
# Ordered maps

A finite map kept as a list of key/value pairs in strictly increasing key order, as an ordered
key/value table is read back by a scan.  The order is a field, so an unsorted table cannot be
built.

* `mem_insert`, `mem_erase` — the entries after an update, as a set.
* `get?_eq_some` — lookup finds exactly the entries of the scan.
* `get?_insert`, `get?_erase` — lookup after an update.
* `get?_insertAll` — lookup after inserting the entries of a table.
* `find?_eq_some` — a scan for a property stops at the least key that has it.
* `entry_unique` — one entry for each key.
-/

set_option autoImplicit false

/-- A finite map from `κ` to `α`, listed in key order. -/
structure OrdMap (κ α : Type) [LinearOrder κ] where
  entries : List (κ × α)
  sorted : entries.Pairwise (fun a b => a.1 < b.1)

namespace OrdMap

variable {κ α : Type} [LinearOrder κ]

/-- The empty map. -/
def empty : OrdMap κ α := ⟨[], List.Pairwise.nil⟩

/-- Insert or replace, at the key's place. -/
def insertEntry (k : κ) (v : α) : List (κ × α) → List (κ × α)
  | [] => [(k, v)]
  | e :: es =>
    if k < e.1 then (k, v) :: e :: es
    else if k = e.1 then (k, v) :: es
    else e :: insertEntry k v es

theorem mem_insertEntry {k : κ} {v : α} : ∀ {es : List (κ × α)},
    es.Pairwise (fun a b => a.1 < b.1) → ∀ e : κ × α,
      e ∈ insertEntry k v es ↔ e = (k, v) ∨ (e.1 ≠ k ∧ e ∈ es)
  | [], _, e => by simp [insertEntry]
  | x :: xs, h, e => by
    obtain ⟨hx, hxs⟩ := List.pairwise_cons.1 h
    unfold insertEntry
    split
    · rename_i hlt
      have hne : ∀ y ∈ x :: xs, y.1 ≠ k := by
        intro y hy he
        rcases List.mem_cons.1 hy with rfl | hy
        · exact absurd he (ne_of_gt hlt)
        · exact absurd he (ne_of_gt (lt_trans hlt (hx y hy)))
      rw [List.mem_cons]
      exact or_congr_right ⟨fun hm => ⟨hne e hm, hm⟩, fun hm => hm.2⟩
    · rename_i hlt
      split
      · rename_i heq
        subst heq
        have hne : ∀ y ∈ xs, y.1 ≠ x.1 := fun y hy he => absurd he (ne_of_gt (hx y hy))
        rw [List.mem_cons, List.mem_cons]
        refine or_congr_right ⟨fun hm => ⟨hne e hm, Or.inr hm⟩, ?_⟩
        rintro ⟨hn, rfl | hm⟩
        · exact absurd rfl hn
        · exact hm
      · rename_i hne
        rw [List.mem_cons, List.mem_cons, mem_insertEntry hxs e]
        constructor
        · rintro (rfl | rfl | ⟨hn, hm⟩)
          · exact Or.inr ⟨fun h => hne h.symm, Or.inl rfl⟩
          · exact Or.inl rfl
          · exact Or.inr ⟨hn, Or.inr hm⟩
        · rintro (rfl | ⟨hn, rfl | hm⟩)
          · exact Or.inr (Or.inl rfl)
          · exact Or.inl rfl
          · exact Or.inr (Or.inr ⟨hn, hm⟩)

theorem insertEntry_sorted {k : κ} {v : α} : ∀ {es : List (κ × α)},
    es.Pairwise (fun a b => a.1 < b.1) → (insertEntry k v es).Pairwise (fun a b => a.1 < b.1)
  | [], _ => by simp [insertEntry]
  | x :: xs, h => by
    obtain ⟨hx, hxs⟩ := List.pairwise_cons.1 h
    unfold insertEntry
    split
    · rename_i hlt
      refine List.pairwise_cons.2 ⟨fun y hy => ?_, h⟩
      rcases List.mem_cons.1 hy with rfl | hy
      · exact hlt
      · exact lt_trans hlt (hx y hy)
    · rename_i hlt
      split
      · rename_i heq
        subst heq
        exact List.pairwise_cons.2 ⟨hx, hxs⟩
      · rename_i hne
        refine List.pairwise_cons.2 ⟨fun y hy => ?_, insertEntry_sorted hxs⟩
        rcases (mem_insertEntry hxs y).1 hy with rfl | ⟨_, hy⟩
        · exact lt_of_le_of_ne (not_lt.1 hlt) (Ne.symm hne)
        · exact hx y hy

/-- Insert or replace the value of `k`. -/
def insert (m : OrdMap κ α) (k : κ) (v : α) : OrdMap κ α :=
  ⟨insertEntry k v m.entries, insertEntry_sorted m.sorted⟩

theorem insertEntry_insertEntry (k : κ) (v w : α) (es : List (κ × α)) :
    insertEntry k w (insertEntry k v es) = insertEntry k w es := by
  induction es with
  | nil => simp [insertEntry]
  | cons e es ih =>
    by_cases hlt : k < e.1
    · simp [insertEntry, hlt]
    · by_cases heq : k = e.1
      · simp [insertEntry, heq]
      · simp [insertEntry, hlt, heq, ih]

/-- The last value counts. -/
theorem insert_insert (m : OrdMap κ α) (k : κ) (v w : α) :
    (m.insert k v).insert k w = m.insert k w := by
  simp only [insert, insertEntry_insertEntry]

/-- Remove the entry of `k`, if any. -/
def erase (m : OrdMap κ α) (k : κ) : OrdMap κ α :=
  ⟨m.entries.filter (fun e => e.1 ≠ k), m.sorted.filter _⟩

/-- The value stored under `k`. -/
def get? (m : OrdMap κ α) (k : κ) : Option α := (m.entries.find? (fun e => e.1 = k)).map (·.2)

theorem mem_insert {m : OrdMap κ α} {k : κ} {v : α} {e : κ × α} :
    e ∈ (m.insert k v).entries ↔ e = (k, v) ∨ (e.1 ≠ k ∧ e ∈ m.entries) :=
  mem_insertEntry m.sorted e

theorem mem_erase {m : OrdMap κ α} {k : κ} {e : κ × α} :
    e ∈ (m.erase k).entries ↔ e.1 ≠ k ∧ e ∈ m.entries := by
  simp [erase, and_comm]

/-- Entries are determined by their keys. -/
theorem entry_unique {m : OrdMap κ α} {k : κ} {v w : α} (hv : (k, v) ∈ m.entries)
    (hw : (k, w) ∈ m.entries) : v = w := by
  obtain ⟨es, hs⟩ := m
  induction es with
  | nil => cases hv
  | cons x xs ih =>
    obtain ⟨hx, hxs⟩ := List.pairwise_cons.1 hs
    rcases List.mem_cons.1 hv with hv | hv <;> rcases List.mem_cons.1 hw with hw | hw
    · rw [← hv] at hw; exact (Prod.mk.inj hw).2.symm
    · have := hx _ hw; rw [← hv] at this; exact absurd this (lt_irrefl _)
    · have := hx _ hv; rw [← hw] at this; exact absurd this (lt_irrefl _)
    · exact ih hxs hv hw

/-- Lookup finds exactly the entries of the scan. -/
theorem get?_eq_some {m : OrdMap κ α} {k : κ} {v : α} :
    m.get? k = some v ↔ (k, v) ∈ m.entries := by
  unfold get?
  constructor
  · intro h
    cases hf : m.entries.find? (fun e => e.1 = k) with
    | none => rw [hf] at h; cases h
    | some e =>
      rw [hf] at h
      have hm := List.mem_of_find?_eq_some hf
      have hk := List.find?_some hf
      simp only [decide_eq_true_eq] at hk
      simp only [Option.map_some, Option.some.injEq] at h
      rw [← hk, ← h]; exact hm
  · intro hm
    cases hf : m.entries.find? (fun e => e.1 = k) with
    | none =>
      have := List.find?_eq_none.1 hf _ hm
      simp at this
    | some e =>
      have hm' := List.mem_of_find?_eq_some hf
      have hk := List.find?_some hf
      simp only [decide_eq_true_eq] at hk
      have : (k, e.2) ∈ m.entries := by rw [← hk]; exact hm'
      rw [Option.map_some, entry_unique this hm]

theorem get?_eq_none {m : OrdMap κ α} {k : κ} :
    m.get? k = none ↔ ∀ v, (k, v) ∉ m.entries := by
  constructor
  · intro h v hv
    rw [get?_eq_some.2 hv] at h; cases h
  · intro h
    cases hg : m.get? k with
    | none => rfl
    | some v => exact absurd (get?_eq_some.1 hg) (h v)

@[simp] theorem get?_empty (k : κ) : (empty : OrdMap κ α).get? k = none := rfl

theorem get?_insert {m : OrdMap κ α} {k k' : κ} {v : α} :
    (m.insert k v).get? k' = if k' = k then some v else m.get? k' := by
  by_cases hk : k' = k
  · subst hk
    rw [if_pos rfl, get?_eq_some, mem_insert]
    exact Or.inl rfl
  · rw [if_neg hk]
    apply Option.ext
    intro w
    rw [get?_eq_some, get?_eq_some, mem_insert]
    simp [hk]

theorem get?_erase {m : OrdMap κ α} {k k' : κ} :
    (m.erase k).get? k' = if k' = k then none else m.get? k' := by
  by_cases hk : k' = k
  · subst hk
    rw [if_pos rfl, get?_eq_none]
    intro v hv
    exact (mem_erase.1 hv).1 rfl
  · rw [if_neg hk]
    apply Option.ext
    intro w
    rw [get?_eq_some, get?_eq_some, mem_erase]
    simp [hk]

/-- A scan in key order stops at the least key with the property. -/
theorem find?_eq_some {m : OrdMap κ α} {p : κ × α → Bool} {e : κ × α} :
    m.entries.find? p = some e ↔
      e ∈ m.entries ∧ p e = true ∧ ∀ e' ∈ m.entries, p e' = true → e.1 ≤ e'.1 := by
  obtain ⟨es, hs⟩ := m
  induction es with
  | nil => simp
  | cons x xs ih =>
    obtain ⟨hx, hxs⟩ := List.pairwise_cons.1 hs
    by_cases hp : p x = true
    · rw [List.find?_cons_of_pos hp, Option.some.injEq]
      constructor
      · rintro rfl
        refine ⟨List.mem_cons_self, hp, fun e' he' _ => ?_⟩
        rcases List.mem_cons.1 he' with rfl | he'
        · exact le_refl _
        · exact le_of_lt (hx e' he')
      · rintro ⟨he, -, hmin⟩
        rcases List.mem_cons.1 he with rfl | he
        · rfl
        · exact absurd (hmin x List.mem_cons_self hp) (not_le.2 (hx e he))
    · rw [List.find?_cons_of_neg hp, ih hxs]
      simp only [List.mem_cons]
      constructor
      · rintro ⟨he, hpe, hmin⟩
        refine ⟨Or.inr he, hpe, ?_⟩
        rintro e' (rfl | he') hpe'
        · exact absurd hpe' hp
        · exact hmin e' he' hpe'
      · rintro ⟨rfl | he, hpe, hmin⟩
        · exact absurd hpe hp
        · exact ⟨he, hpe, fun e' he' => hmin e' (Or.inr he')⟩

/-! ### Inserting all the entries of a table -/

/-- Insert entries one after the other. -/
def insertAll (m : OrdMap κ α) (es : List (κ × α)) : OrdMap κ α :=
  es.foldl (fun acc e => acc.insert e.1 e.2) m

theorem get?_insertAll_of_notMem {k : κ} : ∀ {es : List (κ × α)} {m : OrdMap κ α},
    (∀ e ∈ es, e.1 ≠ k) → (m.insertAll es).get? k = m.get? k
  | [], _, _ => rfl
  | e :: es, m, h => by
    have hne : k ≠ e.1 := Ne.symm (h e List.mem_cons_self)
    calc ((m.insert e.1 e.2).insertAll es).get? k
        = (m.insert e.1 e.2).get? k :=
          get?_insertAll_of_notMem fun x hx => h x (List.mem_cons_of_mem _ hx)
      _ = m.get? k := by rw [get?_insert, if_neg hne]

/-- Every entry of a table that is inserted is found. -/
theorem get?_insertAll {k : κ} {v : α} : ∀ {es : List (κ × α)} {m : OrdMap κ α},
    es.Pairwise (fun a b => a.1 < b.1) → (k, v) ∈ es → (m.insertAll es).get? k = some v
  | e :: es, m, hs, hmem => by
    obtain ⟨he, hes⟩ := List.pairwise_cons.1 hs
    rcases List.mem_cons.1 hmem with rfl | hmem
    · calc ((m.insert k v).insertAll es).get? k
          = (m.insert k v).get? k := get?_insertAll_of_notMem fun x hx => ne_of_gt (he x hx)
        _ = some v := by rw [get?_insert, if_pos rfl]
    · show ((m.insert e.1 e.2).insertAll es).get? k = some v
      exact get?_insertAll hes hmem

theorem insertEntry_append {k : κ} {v : α} : ∀ {es : List (κ × α)}, (∀ e ∈ es, e.1 < k) →
    insertEntry k v es = es ++ [(k, v)]
  | [], _ => rfl
  | e :: es, h => by
    have hlt := h e List.mem_cons_self
    rw [insertEntry, if_neg (not_lt.2 hlt.le), if_neg (ne_of_gt hlt),
      insertEntry_append fun x hx => h x (List.mem_cons_of_mem _ hx), List.cons_append]

/-- Entries with greater keys go to the end, in order. -/
theorem entries_insertAll : ∀ {es : List (κ × α)} {m : OrdMap κ α},
    es.Pairwise (fun a b => a.1 < b.1) → (∀ x ∈ m.entries, ∀ e ∈ es, x.1 < e.1) →
      (m.insertAll es).entries = m.entries ++ es
  | [], _, _, _ => (List.append_nil _).symm
  | e :: es, m, hs, hlt => by
    obtain ⟨he, hes⟩ := List.pairwise_cons.1 hs
    have hins : (m.insert e.1 e.2).entries = m.entries ++ [e] :=
      insertEntry_append fun x hx => hlt x hx e List.mem_cons_self
    have hlt' : ∀ x ∈ (m.insert e.1 e.2).entries, ∀ y ∈ es, x.1 < y.1 := by
      intro x hx y hy
      rw [hins] at hx
      rcases List.mem_append.1 hx with hx | hx
      · exact hlt x hx y (List.mem_cons_of_mem _ hy)
      · rw [List.mem_singleton.1 hx]
        exact he y hy
    calc ((m.insert e.1 e.2).insertAll es).entries
        = (m.insert e.1 e.2).entries ++ es := entries_insertAll hes hlt'
      _ = m.entries ++ e :: es := by rw [hins, List.append_assoc, List.singleton_append]

/-- A table read into an empty map is the map. -/
theorem insertAll_empty (m : OrdMap κ α) : (empty : OrdMap κ α).insertAll m.entries = m := by
  have hentries : ((empty : OrdMap κ α).insertAll m.entries).entries = m.entries :=
    entries_insertAll m.sorted fun x hx => by cases hx
  cases hm : (empty : OrdMap κ α).insertAll m.entries with
  | mk es hs =>
    rw [hm] at hentries
    cases hentries
    rfl

end OrdMap
