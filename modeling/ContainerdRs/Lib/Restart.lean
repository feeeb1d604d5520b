import Mathlib.Data.List.Basic

/-!
# Passes over independent cells that are interrupted and run again

A pass looks at a state, plans a list of actions and carries them out one by one.  Each action
belongs to one cell of the state and changes no other; and what the pass plans for a cell depends
on that cell alone.  An interruption after any action, and a second pass from what is left, can
then be followed cell by cell.

* `cell_run` — a cell sees the actions on its own key.
* `cell_complete` — a pass settles every cell.
* `cell_interrupted` — an interrupted pass has done a prefix of what it planned for a cell.
-/

set_option autoImplicit false

namespace Restart

/-- A pass: `σ` is the state, `κ` the names of its cells, `γ` what a cell holds. -/
structure Pass (σ κ γ α : Type) [DecidableEq κ] where
  cell : σ → κ → γ
  key : α → κ
  step : σ → α → σ
  stepCell : γ → α → γ
  plan : σ → List α
  cellPlan : γ → List α
  /-- An action changes its own cell. -/
  cell_step : ∀ s a k, cell (step s a) k = if key a = k then stepCell (cell s k) a else cell s k
  /-- The plan for a cell is made from the cell. -/
  plan_filter : ∀ s k, (plan s).filter (fun a => key a = k) = cellPlan (cell s k)

variable {σ κ γ α : Type} [DecidableEq κ] (p : Pass σ κ γ α)

namespace Pass

/-- Carry out a list of actions. -/
def run (s : σ) (as : List α) : σ := as.foldl p.step s

/-- The whole pass. -/
def complete (s : σ) : σ := p.run s (p.plan s)

/-- The pass up to its `n`-th action. -/
def interrupted (s : σ) (n : Nat) : σ := p.run s ((p.plan s).take n)

/-- The whole pass on one cell. -/
def settle (c : γ) : γ := (p.cellPlan c).foldl p.stepCell c

/-- What the first `n` actions do to the cell `k`. -/
def done (s : σ) (n : Nat) (k : κ) : List α := ((p.plan s).take n).filter fun a => p.key a = k

theorem cell_run (k : κ) : ∀ (as : List α) (s : σ),
    p.cell (p.run s as) k = (as.filter fun a => p.key a = k).foldl p.stepCell (p.cell s k)
  | [], _ => rfl
  | a :: as, s => by
    have ih := cell_run k as (p.step s a)
    rw [p.cell_step] at ih
    show p.cell (p.run (p.step s a) as) k = _
    rw [ih]
    by_cases h : p.key a = k
    · simp [h]
    · simp [h]

theorem cell_complete (s : σ) (k : κ) : p.cell (p.complete s) k = p.settle (p.cell s k) := by
  rw [complete, cell_run, p.plan_filter]
  rfl

theorem cell_interrupted (s : σ) (n : Nat) (k : κ) :
    p.cell (p.interrupted s n) k = (p.done s n k).foldl p.stepCell (p.cell s k) :=
  cell_run p k _ s

/-- What is done for a cell is the beginning of what is planned for it. -/
theorem done_prefix (s : σ) (n : Nat) (k : κ) : p.done s n k <+: p.cellPlan (p.cell s k) := by
  rw [← p.plan_filter]
  exact (List.take_prefix n (p.plan s)).filter _

end Pass

end Restart
