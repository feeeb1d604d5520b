import Mathlib.Data.List.Basic
import Mathlib.Tactic

/-!
# Lists with named entries

A new entry takes the place of every entry of its name and goes to the end.

* `replaceAll_eq` — after a list of new entries: the old ones of other names in their order, then
  the new ones that no later one has replaced.
* `latest_of_name`, `exists_of_mem_latest` — of each name, the last new entry stays.
-/

set_option autoImplicit false

namespace LatestEntries

variable {α κ : Type} [DecidableEq κ] (name : α → κ)

/-- Drop the entries of the name and append the new one. -/
def replace (out : List α) (e : α) : List α := out.filter (fun x => name x ≠ name e) ++ [e]

/-- One new entry after the other. -/
def replaceAll (out es : List α) : List α := es.foldl (replace name) out

/-- The entries that no later one replaces. -/
def latest : List α → List α
  | [] => []
  | e :: es => if name e ∈ es.map name then latest es else e :: latest es

/-- The last entry of a name. -/
def last? (es : List α) (k : κ) : Option α := es.reverse.find? (fun e => name e = k)

variable {name}

/-- The old entries of other names, and the new ones that stay. -/
theorem replaceAll_eq (out es : List α) :
    replaceAll name out es =
      out.filter (fun x => ∀ e ∈ es, name x ≠ name e) ++ latest name es := by
  induction es generalizing out with
  | nil => simp [replaceAll, latest]
  | cons e es ih =>
    have hrest : replaceAll name out (e :: es) = replaceAll name (replace name out e) es := rfl
    have hold : (out.filter (fun x => name x ≠ name e)).filter
        (fun x => ∀ y ∈ es, name x ≠ name y) =
        out.filter (fun x => ∀ y ∈ e :: es, name x ≠ name y) := by
      rw [List.filter_filter]
      congr 1
      funext x
      simp only [List.forall_mem_cons, Bool.decide_and, Bool.and_comm]
    rw [hrest, ih, replace, List.filter_append, hold, latest, List.append_assoc]
    congr 1
    have hnew : (∀ y ∈ es, name e ≠ name y) ↔ name e ∉ es.map name := by
      simp only [List.mem_map, not_exists, not_and, ne_comm (a := name e), ne_eq]
    rw [List.filter_singleton]
    by_cases hmem : name e ∈ es.map name
    · have hlater : ¬ ∀ y ∈ es, name e ≠ name y := fun h => hnew.1 h hmem
      rw [if_pos hmem, decide_eq_false hlater]
      rfl
    · rw [if_neg hmem, decide_eq_true (hnew.2 hmem)]
      rfl

theorem latest_subset (es : List α) : latest name es ⊆ es := by
  induction es with
  | nil => exact List.Subset.refl _
  | cons e es ih =>
    rw [latest]
    split
    · exact List.subset_cons_of_subset e ih
    · exact List.cons_subset_cons e ih

theorem last?_cons (e : α) (es : List α) (k : κ) :
    last? name (e :: es) k = (last? name es k).or (if name e = k then some e else none) := by
  rw [last?, List.reverse_cons, List.find?_append]
  simp [last?, List.find?_singleton]

theorem last?_eq_none {es : List α} {k : κ} : last? name es k = none ↔ k ∉ es.map name := by
  simp only [last?, List.find?_eq_none, List.mem_reverse, decide_eq_true_eq, List.mem_map,
    not_exists, not_and]

/-- Of each name, exactly the last entry stays. -/
theorem latest_of_name (es : List α) (k : κ) :
    (latest name es).filter (fun e => name e = k) = (last? name es k).toList := by
  induction es with
  | nil => rfl
  | cons e es ih =>
    rw [last?_cons, latest]
    by_cases hk : name e = k
    · subst hk
      split
      · -- a later entry has the name
        rename_i hmem
        have hsome : last? name es (name e) ≠ none := by
          rw [Ne, last?_eq_none, not_not]
          exact hmem
        obtain ⟨x, hx⟩ := Option.ne_none_iff_exists'.1 hsome
        rw [ih, hx]
        rfl
      · rename_i hmem
        have hnone := last?_eq_none.2 hmem
        rw [hnone] at ih ⊢
        simp [ih]
    · have htail : ∀ es' : List α, (if name e ∈ es.map name then es' else e :: es').filter
          (fun x => name x = k) = es'.filter (fun x => name x = k) := by
        intro es'
        split
        · rfl
        · simp [hk]
      rw [htail, ih]
      simp [hk]

theorem exists_of_mem_latest {es : List α} {e : α} (h : e ∈ latest name es) :
    last? name es (name e) = some e := by
  have hmem : e ∈ (latest name es).filter (fun x => name x = name e) := by simp [h]
  rw [latest_of_name] at hmem
  exact Option.mem_toList.1 hmem

end LatestEntries
