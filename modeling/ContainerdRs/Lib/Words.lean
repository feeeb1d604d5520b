import Mathlib.Data.List.Basic
import Mathlib.Tactic

/-!
# Words and lines

A text of lines, and a line of words between separators, as programs read and write them.

* `words_join` — words joined by a separator are these words.
* `words_append` — the words on both sides of a separator.
* `ended_splitOnP` — the lines of a text each line of which has its end.
-/

set_option autoImplicit false

namespace Words

variable {α : Type} {p : α → Bool} {sep : α}

/-- The parts between separators that are not empty. -/
def words (p : α → Bool) (l : List α) : List (List α) :=
  (l.splitOnP p).filter fun w => !w.isEmpty

/-- Not empty, and without separators. -/
structure IsWord (p : α → Bool) (w : List α) : Prop where
  ne_nil : w ≠ []
  clean : ∀ x ∈ w, p x = false

/-- Each line with its end. -/
def ended (sep : α) (ls : List (List α)) : List α := ls.flatMap fun l => l ++ [sep]

/-- Words with a separator between them. -/
def join (sep : α) : List (List α) → List α
  | [] => []
  | [w] => w
  | w :: ws => w ++ sep :: join sep ws

theorem words_nil (p : α → Bool) : words p [] = [] := by simp [words]

theorem words_append (hsep : p sep = true) (a b : List α) :
    words p (a ++ sep :: b) = words p a ++ words p b := by
  rw [words, List.splitOnP_append_cons a b hsep, List.filter_append]
  rfl

theorem words_word {w : List α} (hw : IsWord p w) : words p w = [w] := by
  rw [words, List.splitOnP_eq_singleton hw.clean, List.filter_cons_of_pos]
  · rfl
  · simpa using hw.ne_nil

/-- A word, a separator and something. -/
theorem words_cons (hsep : p sep = true) {w : List α} (hw : IsWord p w) (l : List α) :
    words p (w ++ sep :: l) = w :: words p l := by
  rw [words_append hsep, words_word hw]
  rfl

/-- **Round trip**: joined words are found again. -/
theorem words_join (hsep : p sep = true) : ∀ {ws : List (List α)}, (∀ w ∈ ws, IsWord p w) →
    words p (join sep ws) = ws
  | [], _ => words_nil p
  | [w], h => words_word (h w List.mem_cons_self)
  | w :: w' :: ws, h => by
    rw [join, words_cons hsep (h w List.mem_cons_self), words_join hsep]
    · exact fun v hv => h v (List.mem_cons_of_mem w hv)
    · exact List.cons_ne_nil _ _

/-- The lines, and an empty rest behind the last end. -/
theorem ended_splitOnP (hsep : p sep = true) : ∀ {ls : List (List α)},
    (∀ l ∈ ls, ∀ x ∈ l, p x = false) → (ended sep ls).splitOnP p = ls ++ [[]]
  | [], _ => rfl
  | l :: ls, h => by
    have ih : (ended sep ls).splitOnP p = ls ++ [[]] :=
      ended_splitOnP hsep fun l' hl' => h l' (List.mem_cons_of_mem l hl')
    rw [ended, List.flatMap_cons, List.append_assoc, List.singleton_append,
      List.splitOnP_append_cons_of_forall_mem (h l List.mem_cons_self) sep hsep]
    exact congrArg (l :: ·) ih

end Words
