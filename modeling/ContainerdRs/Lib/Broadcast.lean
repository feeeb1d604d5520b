import Mathlib.Data.List.Basic

/-!
# A bounded broadcast channel

Every value goes to every reader.  The channel keeps the last `cap` values: a sender never waits,
and a reader that is further behind is told how many values it has missed and goes on with the
oldest one that is left.  A reader that has caught up sees the end when the last sender is gone.

* `Bus.recv_cases` — what one `recv` can answer.
* `Sound` — what a reader has got is a subsequence of what was sent since it subscribed, and what
  is not in it has been counted as missed.
* `Sound.send`, `Sound.recv` — sending and receiving keep it.
* `Sound.lossless` — a reader that has missed nothing has got everything.
-/

set_option autoImplicit false

namespace Broadcast

variable {α : Type}

/-- The channel, by everything that has ever been sent. -/
structure Bus (α : Type) where
  cap : Nat
  history : List α
  deriving DecidableEq, Repr

def Bus.new (cap : Nat) : Bus α := ⟨cap, []⟩

def Bus.send (b : Bus α) (a : α) : Bus α := { b with history := b.history ++ [a] }

/-- The number of the oldest value that is still there. -/
def Bus.oldest (b : Bus α) : Nat := b.history.length - b.cap

/-- A reader: the value it got first would be number `start`, the one it gets next is number
    `next`. -/
structure Reader (α : Type) where
  start : Nat
  next : Nat
  got : List α
  missed : Nat
  deriving DecidableEq, Repr

def Bus.subscribe (b : Bus α) : Reader α := ⟨b.history.length, b.history.length, [], 0⟩

/-- How far the reader is behind. -/
def Bus.behind (b : Bus α) (r : Reader α) : Nat := b.history.length - r.next

/-- What `recv` answers. -/
inductive Answer (α : Type) where
  | value (a : α)
  | lagged
  | closed
  deriving DecidableEq, Repr

/-- `recv`: `none` while there is nothing to answer. -/
def Bus.recv (b : Bus α) (noSender : Bool) (r : Reader α) : Option (Answer α × Reader α) :=
  if r.next < b.oldest then
    some (.lagged, { r with next := b.oldest, missed := r.missed + (b.oldest - r.next) })
  else
    match b.history[r.next]? with
    | some a => some (.value a, { r with next := r.next + 1, got := r.got ++ [a] })
    | none => if noSender then some (.closed, r) else none

/-- What one `recv` can answer. -/
inductive Received (b : Bus α) (noSender : Bool) (r : Reader α) : Answer α → Reader α → Prop
  | value (a : α) (hnext : b.oldest ≤ r.next) (ha : b.history[r.next]? = some a) :
      Received b noSender r (.value a) { r with next := r.next + 1, got := r.got ++ [a] }
  | lagged (hnext : r.next < b.oldest) :
      Received b noSender r .lagged
        { r with next := b.oldest, missed := r.missed + (b.oldest - r.next) }
  | closed (hend : b.history.length ≤ r.next) (hclosed : noSender = true) :
      Received b noSender r .closed r

variable {b : Bus α} {r r' : Reader α} {noSender : Bool} {answer : Answer α}

theorem Bus.recv_cases (h : b.recv noSender r = some (answer, r')) :
    Received b noSender r answer r' := by
  unfold Bus.recv at h
  by_cases hlag : r.next < b.oldest
  · rw [if_pos hlag] at h
    cases h
    exact .lagged hlag
  · rw [if_neg hlag] at h
    split at h
    · rename_i a ha
      cases h
      exact .value a (Nat.le_of_not_lt hlag) ha
    · rename_i hnone
      split_ifs at h with hclosed
      cases h
      exact .closed (List.getElem?_eq_none_iff.1 hnone) hclosed

/-- What a reader has got, and what it has missed. -/
structure Sound (b : Bus α) (r : Reader α) : Prop where
  start_le : r.start ≤ r.next
  next_le : r.next ≤ b.history.length
  got : r.got.Sublist ((b.history.take r.next).drop r.start)
  count : r.got.length + r.missed = r.next - r.start

theorem sound_subscribe (b : Bus α) : Sound b b.subscribe := by
  refine ⟨Nat.le_refl _, Nat.le_refl _, ?_, ?_⟩ <;> simp [Bus.subscribe]

theorem Sound.send (h : Sound b r) (a : α) : Sound (b.send a) r := by
  refine ⟨h.start_le, ?_, ?_, h.count⟩
  · simp only [Bus.send, List.length_append]
    exact Nat.le_trans h.next_le (Nat.le_add_right _ _)
  · simp only [Bus.send]
    rw [List.take_append_of_le_length h.next_le]
    exact h.got

theorem Sound.recv (h : Sound b r) (hr : b.recv noSender r = some (answer, r')) :
    Sound b r' := by
  have hstart := h.start_le
  have hcount := h.count
  cases Bus.recv_cases hr with
  | value a _ ha =>
    have hlt : r.next < b.history.length := (List.getElem?_eq_some_iff.1 ha).1
    refine ⟨Nat.le_succ_of_le hstart, hlt, ?_, ?_⟩
    · have htake : b.history.take (r.next + 1) = b.history.take r.next ++ [a] := by
        rw [List.take_add_one, ha, Option.toList_some]
      have hlen : r.start ≤ (b.history.take r.next).length := by
        rw [List.length_take]
        omega
      simp only [htake, List.drop_append_of_le_length hlen]
      exact h.got.append (List.Sublist.refl _)
    · simp only [List.length_append, List.length_singleton]
      omega
  | lagged hnext =>
    have hle : b.oldest ≤ b.history.length := Nat.sub_le _ _
    refine ⟨by simp only; omega, hle, ?_, by simp only; omega⟩
    refine h.got.trans (List.Sublist.drop ?_ _)
    have hpre : b.history.take r.next <+: b.history.take b.oldest :=
      List.take_prefix_take_left (by omega)
    exact hpre.sublist
  | closed _ _ => exact h

/-- A reader that has missed nothing has got everything up to where it is. -/
theorem Sound.lossless (h : Sound b r) (hmissed : r.missed = 0) :
    r.got = (b.history.take r.next).drop r.start := by
  have hcount := h.count
  have hnext := h.next_le
  refine h.got.eq_of_length ?_
  rw [List.length_drop, List.length_take]
  omega

/-- A reader that sees the end has caught up. -/
theorem Sound.caught_up (h : Sound b r) (hr : b.recv noSender r = some (.closed, r')) :
    r' = r ∧ noSender = true ∧ r.next = b.history.length := by
  cases Bus.recv_cases hr with
  | closed hend hclosed => exact ⟨rfl, hclosed, Nat.le_antisymm h.next_le hend⟩

/-- A reader that is not further behind than the channel is long misses nothing. -/
theorem recv_missed (hr : b.recv noSender r = some (answer, r')) (hbehind : b.behind r ≤ b.cap) :
    r'.missed = r.missed := by
  cases Bus.recv_cases hr with
  | value _ _ _ => rfl
  | lagged hnext =>
    simp only [Bus.behind, Bus.oldest] at hbehind hnext
    omega
  | closed _ _ => rfl

/-- A reader gets what was sent after it subscribed, in order. -/
theorem Sound.got_sublist (h : Sound b r) : r.got.Sublist (b.history.drop r.start) :=
  h.got.trans (List.Sublist.drop (List.take_sublist _ _) _)

end Broadcast
