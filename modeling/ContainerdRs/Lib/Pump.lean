import Mathlib.Data.List.Basic

/-!
# A task that carries chunks from a source to a sink

The source produces a sequence; the task reads a piece of what has arrived, hands it on, and reads
again, until it ends.  A task that ends while it holds a piece drops it.

* `Sound` — delivered, held (or dropped) and not yet read make up what has arrived, in order.
* `Sound.read`, `Sound.deliver`, ... — every operation keeps it.
-/

set_option autoImplicit false

namespace Pump

variable {α : Type}

/-- Where a task stands. -/
inductive Stage (α : Type) where
  | reading
  | holding (chunk : List α)
  | done (dropped : List α)
  deriving DecidableEq, Repr

/-- The piece that is out of the source and not in the sink. -/
def Stage.held : Stage α → List α
  | .reading => []
  | .holding chunk => chunk
  | .done dropped => dropped

def Stage.isOver : Stage α → Bool
  | .done _ => true
  | _ => false

/-- A source, the task and what it has delivered. -/
structure Line (α : Type) where
  /-- Everything the source has produced. -/
  arrived : List α
  /-- What of it has not been read. -/
  pending : List α
  task : Stage α
  out : List (List α)
  deriving DecidableEq, Repr

def Line.new : Line α := ⟨[], [], .reading, []⟩

/-- The source produces more. -/
def Line.arrive (l : Line α) (xs : List α) : Line α :=
  { l with arrived := l.arrived ++ xs, pending := l.pending ++ xs }

/-- A read of `n` elements into a buffer of `cap`. -/
def Line.read (cap n : Nat) (l : Line α) : Option (Line α) :=
  match l.task with
  | .reading =>
    if 0 < n ∧ n ≤ cap ∧ n ≤ l.pending.length then
      some { l with task := .holding (l.pending.take n), pending := l.pending.drop n }
    else none
  | _ => none

/-- The piece goes to the sink. -/
def Line.deliver (l : Line α) : Option (Line α) :=
  match l.task with
  | .holding chunk => some { l with task := .reading, out := l.out ++ [chunk] }
  | _ => none

/-- The sink refuses it and the task ends. -/
def Line.refuse (l : Line α) : Option (Line α) :=
  match l.task with
  | .holding chunk => some { l with task := .done chunk }
  | _ => none

/-- The task ends at a read. -/
def Line.leave (l : Line α) : Option (Line α) :=
  match l.task with
  | .reading => some { l with task := .done [] }
  | _ => none

/-- **Nothing is lost, changed or reordered** on the way. -/
structure Sound (l : Line α) : Prop where
  balance : l.out.flatten ++ l.task.held ++ l.pending = l.arrived
  held : ∀ chunk, l.task = .holding chunk → chunk ≠ []

theorem sound_new : Sound (Line.new : Line α) := by
  refine ⟨rfl, ?_⟩
  intro chunk h
  cases h

section

variable {l l' : Line α}

theorem Sound.arrive (h : Sound l) (xs : List α) : Sound (l.arrive xs) := by
  refine ⟨?_, h.held⟩
  simp only [Line.arrive]
  rw [← List.append_assoc, h.balance]

theorem read_some {cap n : Nat} (h : l.read cap n = some l') :
    l.task = .reading ∧ 0 < n ∧ n ≤ cap ∧ n ≤ l.pending.length ∧
      l' = { l with task := .holding (l.pending.take n), pending := l.pending.drop n } := by
  unfold Line.read at h
  split at h
  · rename_i ht
    split_ifs at h with hn
    exact ⟨ht, hn.1, hn.2.1, hn.2.2, (Option.some.inj h).symm⟩
  · cases h

theorem deliver_some (h : l.deliver = some l') :
    ∃ chunk, l.task = .holding chunk ∧
      l' = { l with task := .reading, out := l.out ++ [chunk] } := by
  unfold Line.deliver at h
  split at h
  · rename_i chunk ht
    exact ⟨chunk, ht, (Option.some.inj h).symm⟩
  · cases h

theorem refuse_some (h : l.refuse = some l') :
    ∃ chunk, l.task = .holding chunk ∧ l' = { l with task := .done chunk } := by
  unfold Line.refuse at h
  split at h
  · rename_i chunk ht
    exact ⟨chunk, ht, (Option.some.inj h).symm⟩
  · cases h

theorem leave_some (h : l.leave = some l') :
    l.task = .reading ∧ l' = { l with task := .done [] } := by
  unfold Line.leave at h
  split at h
  · rename_i ht
    exact ⟨ht, (Option.some.inj h).symm⟩
  · cases h

theorem Sound.read {cap n : Nat} (hl : Sound l) (h : l.read cap n = some l') : Sound l' := by
  obtain ⟨ht, hpos, -, hlen, rfl⟩ := read_some h
  refine ⟨?_, ?_⟩
  · have hb := hl.balance
    rw [ht] at hb
    simp only [Stage.held, List.append_nil] at hb ⊢
    rw [List.append_assoc, List.take_append_drop, hb]
  · intro chunk hc
    cases hc
    intro hnil
    have hlen' := congrArg List.length hnil
    rw [List.length_take, Nat.min_eq_left hlen, List.length_nil] at hlen'
    omega

theorem Sound.deliver (hl : Sound l) (h : l.deliver = some l') : Sound l' := by
  obtain ⟨chunk, ht, rfl⟩ := deliver_some h
  refine ⟨?_, ?_⟩
  · have hb := hl.balance
    rw [ht] at hb
    simp only [Stage.held] at hb
    simp [Stage.held, ← hb]
  · intro chunk' hc
    cases hc

theorem Sound.refuse (hl : Sound l) (h : l.refuse = some l') : Sound l' := by
  obtain ⟨chunk, ht, rfl⟩ := refuse_some h
  refine ⟨?_, ?_⟩
  · have hb := hl.balance
    rw [ht] at hb
    exact hb
  · intro chunk' hc
    cases hc

theorem Sound.leave (hl : Sound l) (h : l.leave = some l') : Sound l' := by
  obtain ⟨ht, rfl⟩ := leave_some h
  refine ⟨?_, ?_⟩
  · have hb := hl.balance
    rw [ht] at hb
    exact hb
  · intro chunk' hc
    cases hc

/-- Everything is delivered exactly if nothing is held, dropped or left to be read. -/
theorem Sound.all_delivered (hl : Sound l) :
    l.out.flatten = l.arrived ↔ l.task.held = [] ∧ l.pending = [] := by
  rw [← hl.balance]
  constructor
  · intro h
    have hlen := congrArg List.length h
    simp only [List.length_append] at hlen
    exact ⟨List.eq_nil_of_length_eq_zero (by omega), List.eq_nil_of_length_eq_zero (by omega)⟩
  · rintro ⟨hheld, hpending⟩
    rw [hheld, hpending, List.append_nil, List.append_nil]

end

end Pump
