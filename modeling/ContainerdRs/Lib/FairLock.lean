import Mathlib.Data.List.Nodup
import Mathlib.Data.List.TakeDrop

/-!
# A fair lock

A mutex that serves its callers in the order in which they came: who asks for it queues up, the
first in the queue gets it as soon as it is free, and a caller that gives up leaves the queue.

* `Lock.line` — the holder and behind it the queue: asking appends to it, a grant leaves it as it
  is, a release takes its head away.
* `ahead_grant`, `ahead_request`, `ahead_cancel` — what each operation does to the number of those
  who wait in front of somebody.
-/

set_option autoImplicit false

namespace FairLock

variable {τ : Type}

/-- Who has the lock, and who waits for it. -/
structure Lock (τ : Type) where
  holder : Option τ
  queue : List τ
  deriving DecidableEq, Repr

def Lock.new : Lock τ := ⟨none, []⟩

/-- Ask for the lock. -/
def Lock.request (l : Lock τ) (t : τ) : Lock τ := { l with queue := l.queue ++ [t] }

/-- The free lock goes to the first in the queue. -/
def Lock.grant (l : Lock τ) : Option (τ × Lock τ) :=
  match l.holder, l.queue with
  | none, t :: queue => some (t, ⟨some t, queue⟩)
  | _, _ => none

def Lock.release (l : Lock τ) : Lock τ := { l with holder := none }

/-- Give up waiting. -/
def Lock.cancel [DecidableEq τ] (l : Lock τ) (t : τ) : Lock τ :=
  { l with queue := l.queue.filter (· ≠ t) }

/-- Everybody at the lock, in the order of the requests. -/
def Lock.line (l : Lock τ) : List τ := l.holder.toList ++ l.queue

/-- Those who wait in front of `t`. -/
def Lock.ahead [DecidableEq τ] (l : Lock τ) (t : τ) : Nat := l.queue.idxOf t

variable {l l' : Lock τ} {t u : τ}

theorem grant_some (h : l.grant = some (t, l')) :
    l.holder = none ∧ l.queue = t :: l'.queue ∧ l'.holder = some t := by
  obtain ⟨holder, queue⟩ := l
  cases holder with
  | some u => cases h
  | none =>
    cases queue with
    | nil => cases h
    | cons v rest =>
      simp only [Lock.grant, Option.some.injEq, Prod.mk.injEq] at h
      obtain ⟨rfl, rfl⟩ := h
      exact ⟨rfl, rfl, rfl⟩

/-- A free lock for which somebody waits is granted to the first. -/
theorem grant_of_free (hfree : l.holder = none) (hwait : t ∈ l.queue) :
    ∃ u l', l.grant = some (u, l') ∧ u ∈ l.queue := by
  obtain ⟨holder, queue⟩ := l
  cases queue with
  | nil => cases hwait
  | cons v rest =>
    cases hfree
    exact ⟨v, _, rfl, List.mem_cons_self⟩

@[simp] theorem line_new : (Lock.new : Lock τ).line = [] := rfl

theorem line_request (l : Lock τ) (t : τ) : (l.request t).line = l.line ++ [t] := by
  simp [Lock.request, Lock.line]

theorem line_grant (h : l.grant = some (t, l')) : l'.line = l.line := by
  obtain ⟨hfree, hqueue, hholder⟩ := grant_some h
  simp [Lock.line, hfree, hqueue, hholder]

theorem line_release (h : l.holder = some t) : l.line = t :: l.release.line := by
  simp [Lock.line, Lock.release, h]

section

variable [DecidableEq τ]

theorem ahead_request (ht : t ∈ l.queue) : (l.request u).ahead t = l.ahead t :=
  List.idxOf_append_of_mem ht

/-- A grant to somebody else brings a waiter one place forward. -/
theorem ahead_grant (h : l.grant = some (u, l')) (hne : t ≠ u) :
    l.ahead t = l'.ahead t + 1 := by
  obtain ⟨-, hqueue, -⟩ := grant_some h
  rw [Lock.ahead, hqueue, List.idxOf_cons_ne _ (Ne.symm hne)]
  rfl

/-- Nobody gets behind another by the latter's giving up. -/
theorem ahead_cancel (l : Lock τ) (hne : t ≠ u) : (l.cancel u).ahead t ≤ l.ahead t := by
  have hshrink : ∀ queue : List τ, (queue.filter (· ≠ u)).idxOf t ≤ queue.idxOf t := by
    intro queue
    induction queue with
    | nil => simp
    | cons v rest ih =>
      by_cases hv : v = u
      · subst hv
        rw [List.filter_cons_of_neg (by simp), List.idxOf_cons_ne _ (Ne.symm hne)]
        omega
      · rw [List.filter_cons_of_pos (by simpa using hv)]
        by_cases htv : v = t
        · subst htv
          simp
        · rw [List.idxOf_cons_ne _ htv, List.idxOf_cons_ne _ htv]
          omega
  exact hshrink l.queue

end

end FairLock
