import ContainerdRs.Cri.RecordRaces

/-!
# StopContainer, with a clock

`stop_container` of `Lifecycle` on a container that nothing else handles but its supervision.  The
moves happen at times of the monotonic clock, of which `Instant::now()` is read: the deadline is
computed from it, the poll sleeps 100 ms before each read, and the deadline is passed when a read
of the clock shows it.

* `coded_history` — a record that is `Exited` has an exit code, whatever happened before.
* `stage_step` — what one move keeps of the stop.
* `turns_le` — the handler returns after so many moves.
* `stop_completes_iff` — when a stop completes as it should.
* `huge_timeout_panics` — a timeout for which it does not.
-/

set_option autoImplicit false

namespace ContainerdRs.Cri

open ContainerState Transition

variable {c : Ctx}

/-! ## The clock -/

/-- Nanoseconds of a second, and of `Duration::from_millis(100)`. -/
def second : Nat := 1000000000
def pollInterval : Nat := 100000000

/-- A stop of the container: the moments are in nanoseconds. -/
structure Stopping where
  cell : St
  now : Nat
  /-- The end of the poll's sleep. -/
  wake : Nat
  deadline : Nat
  /-- The first read, or a poll, has found the record `Exited`. -/
  seen : Bool

/-- A task moves, some time after the last move. -/
structure Turn where
  task : Nat
  env : Env
  elapsed : Nat

/-- The record is `Exited`. -/
def sees (record : Option ContainerRecord) : Bool := record.any fun r => r.state = exited

/-- The environment of a move: the metadata store does not fail, and the clock is read. -/
def Stopping.env (s : Stopping) (now : Nat) (env : Env) : Env :=
  { env with metaErr := none, clock := now / second, expired := decide (s.deadline ≤ now) }

/-- The poll is still asleep. -/
def Stopping.asleep (s : Stopping) (now : Nat) : Task → Bool
  | .stopPoll => now < s.wake
  | _ => false

/-- The state after a move of `task`, which leaves `cell`. -/
def Stopping.after (s : Stopping) (now : Nat) (cell : St) : Task → Stopping
  | .stopDeadline secs =>
    { s with
      cell := cell, now := now, wake := now + pollInterval
      deadline := now + secs.toNat * second }
  | .stopPoll =>
    { s with
      cell := cell, now := now, wake := now + pollInterval
      seen := s.seen || sees s.cell.record }
  | _ => { s with cell := cell, now := now }

/-- One move; `none` when it is not enabled. -/
def stopStep (c : Ctx) (s : Stopping) (l : Turn) : Option Stopping :=
  match s.cell.tasks[l.task]? with
  | none => none
  | some task =>
    if s.asleep (s.now + l.elapsed) task then none
    else
      (step c s.cell (.move l.task (s.env (s.now + l.elapsed) l.env))).map fun cell =>
        s.after (s.now + l.elapsed) cell task

/-- `StopContainer` arrives. -/
def beginStop (c : Ctx) (s₀ : St) (timeout : Int) (now : Nat) : Stopping where
  cell := { s₀ with tasks := s₀.tasks ++ [begin c .quiet s₀.record (.stopContainer timeout)] }
  now := now
  wake := 0
  deadline := 0
  seen := sees s₀.record

theorem stopStep_some {s s' : Stopping} {l : Turn} (h : stopStep c s l = some s') :
    ∃ task m, s.cell.tasks[l.task]? = some task ∧ s.asleep (s.now + l.elapsed) task = false ∧
      advance c (s.env (s.now + l.elapsed) l.env) s.cell.record task = some m ∧
      s' = s.after (s.now + l.elapsed) (s.cell.take l.task m) task := by
  unfold stopStep at h
  split at h
  · cases h
  · rename_i task htask
    split at h
    · cases h
    · rename_i hawake
      obtain ⟨cell, hcell, rfl⟩ := Option.map_eq_some_iff.1 h
      obtain ⟨task', m, htask', hm, rfl⟩ := step_move hcell
      obtain rfl : task = task' := Option.some.inj (htask.symm.trans htask')
      exact ⟨task, m, htask, by simpa using hawake, hm, rfl⟩

/-! ## Before the stop -/

/-- An exit comes with its code. -/
def Coded (r : ContainerRecord) : Prop := r.state = exited → r.exitCode.isSome = true

/-- What the task is going to write back is coded. -/
def Task.Coded : Task → Prop
  | .update rec _ | .reconcile rec | .reconcilePut rec => Cri.Coded rec
  | _ => True

theorem reconcileRecord_coded (env : Env) {r : ContainerRecord} (h : Coded r) :
    Coded (reconcileRecord c env r) := by
  unfold reconcileRecord
  split
  · split
    · exact h
    · intro _
      cases hcode : r.exitCode <;> simp
  · intro hstate
    cases hstate

theorem stores_coded {env : Env} {task : Task} {r : ContainerRecord} (htask : task.Coded)
    (h : stores c env task = some r) : Coded r := by
  cases task with
  | start rec =>
    simp only [stores, Option.ite_none_right_eq_some, Option.some.injEq] at h
    obtain ⟨-, rfl⟩ := h
    intro hstate
    cases hstate
  | superviseExit code rec =>
    simp only [stores, Option.ite_none_right_eq_some, Option.some.injEq] at h
    obtain ⟨-, rfl⟩ := h
    exact fun _ => rfl
  | stopForce updated =>
    simp only [stores, Option.ite_none_right_eq_some, Option.some.injEq] at h
    obtain ⟨-, rfl⟩ := h
    exact fun _ => rfl
  | update rec linux =>
    cases linux with
    | none => cases h
    | some l =>
      simp only [stores, Option.ite_none_right_eq_some, Option.some.injEq] at h
      obtain ⟨-, rfl⟩ := h
      exact htask
  | reconcilePut rec =>
    simp only [stores, Option.ite_none_right_eq_some, Option.some.injEq] at h
    obtain ⟨-, rfl⟩ := h
    exact htask
  | _ => cases h

theorem advance_coded {env : Env} {record : Option ContainerRecord} {task : Task} {m : Move}
    (htask : task.Coded) (h : advance c env record task = some m) : m.next.Coded := by
  cases task with
  | reconcile rec =>
    cases h
    exact reconcileRecord_coded env htask
  | _ =>
    have hnext := (advance_does h).next
    generalize m.next = next at hnext
    cases hnext <;> trivial

/-- Whatever is requested, records with an exit have a code. -/
theorem coded_harmless (c : Ctx) :
    Harmless c (fun _ => True) Task.Coded (fun record => ∀ r, record = some r → Coded r)
      (fun _ => True) where
  begins := by
    intro env record r hrecord _
    cases r with
    | removeContainer => trivial
    | startContainer | stopContainer timeout =>
      simp only [begin]
      split
      · trivial
      · trivial
      · split <;> trivial
    | updateContainerResources linux =>
      simp only [begin]
      split
      · trivial
      · trivial
      · exact hrecord _ rfl
    | reconcile =>
      simp only [begin]
      split
      · trivial
      · trivial
      · split
        · trivial
        · exact hrecord _ rfl
  advances := by
    intro env record task m hrecord htask hm
    have hdoes := advance_does hm
    refine ⟨?_, advance_coded htask hm, ?_, fun _ _ => trivial⟩
    · intro r hr
      rw [hdoes.entry] at hr
      by_cases hremove : task = .removeRecord
      · subst hremove
        simp only [entryAfter, Option.ite_none_left_eq_some] at hr
        exact hrecord r hr.2
      · rw [entryAfter_of_ne hremove, Option.or_eq_some_iff] at hr
        rcases hr with hr | ⟨-, hr⟩
        · exact stores_coded htask hr
        · exact hrecord r hr
    · intro x hx
      obtain ⟨rfl, -⟩ := hdoes.spawn x hx
      trivial

theorem coded_history {first : Option ContainerRecord}
    (hfirst : ∀ r, first = some r → r.state = created) {ls : List Label} {s₀ : St}
    (h : run (step c) ⟨first, [], []⟩ ls = some s₀) : ∀ r, s₀.record = some r → Coded r := by
  have hsettled : Settled Task.Coded (fun record => ∀ r, record = some r → Coded r)
      ⟨first, [], []⟩ := by
    refine ⟨by simp, ?_⟩
    intro r hr hexit
    rw [hfirst r hr] at hexit
    cases hexit
  refine (run_settled (coded_harmless c) hsettled ?_ h).1.record
  intro l _
  cases l <;> trivial

/-! ## What is promised, and when -/

/-- The supervision task, or a task that is over. -/
def Task.Aside : Task → Prop
  | .supervise | .superviseExit _ _ | .superviseEnd => True
  | .returned _ | .reconciled _ | .panicked => True
  | _ => False

/-- `KILL` and delete were issued if the record was not found `Exited`, and only then. -/
structure Escalates (seen : Bool) (es : List Effect) : Prop where
  kill : .crunKill "KILL" ∈ es ↔ seen = false
  delete : .crunDelete ∈ es ↔ seen = false

/-- The record is absent, or `Exited` with its code. -/
def Ended (record : Option ContainerRecord) : Prop :=
  ∀ r, record = some r → r.state = exited ∧ r.exitCode.isSome = true

/-- **The stop completes**: `i` is its handler, and `ls` the moves since the request.  It does not
    panic, it has a bounded number of moves and can make them, it escalates exactly if it has not
    found the container to have exited, and it returns with the exit recorded. -/
structure Completes (c : Ctx) (s₀ : St) (i : Nat) (timeout : Int) (ls : List Turn) (s : Stopping) :
    Prop where
  safe : s.cell.tasks[i]? ≠ some .panicked
  bounded : (ls.filter fun l => l.task = i).length ≤ 6 + 10 * timeout.toNat
  able : (∀ r, s.cell.tasks[i]? ≠ some (.returned r)) →
    ∀ l : Turn, l.task = i → s.wake ≤ s.now + l.elapsed → (stopStep c s l).isSome = true
  escalates : ∀ r r₀, s.cell.tasks[i]? = some (.returned r) → s₀.record = some r₀ →
    Escalates s.seen (since s₀ s.cell)
  returns : ∀ r, s.cell.tasks[i]? = some (.returned r) → r = .ok () ∧ Ended s.cell.record

/-- The deadline that is computed in this move, if it is one, is within the range of the clock. -/
def DeadlineFits (i : Nat) (timeout : Int) (s : Stopping) (l : Turn) : Prop :=
  l.task = i → s.cell.tasks[i]? = some (.stopDeadline timeout) → 0 < timeout →
    ((s.now + l.elapsed) / second : Nat) + timeout < 2 ^ 63

/-! ## One move -/

/-- Neither `KILL` nor delete. -/
structure Calm (es : List Effect) : Prop where
  kill : .crunKill "KILL" ∉ es
  delete : .crunDelete ∉ es

theorem Calm.append {es es' : List Effect} (h : Calm es) (h' : Calm es') : Calm (es ++ es') where
  kill := by
    simp only [List.mem_append, not_or]
    exact ⟨h.kill, h'.kill⟩
  delete := by
    simp only [List.mem_append, not_or]
    exact ⟨h.delete, h'.delete⟩

theorem Calm.escalates {es : List Effect} (h : Calm es) : Escalates true es where
  kill := by simpa using h.kill
  delete := by simpa using h.delete

theorem Escalates.append {seen : Bool} {es es' : List Effect} (h : Escalates seen es)
    (h' : Calm es') : Escalates seen (es ++ es') where
  kill := by rw [List.mem_append, or_iff_left h'.kill, h.kill]
  delete := by rw [List.mem_append, or_iff_left h'.delete, h.delete]

theorem ended_of_exit {r : ContainerRecord} (hstate : r.state = exited)
    (hcode : r.exitCode.isSome = true) : Ended (some r) := by
  rintro _ ⟨⟩
  exact ⟨hstate, hcode⟩

/-- What the supervision does in one move: it stores an exit, or leaves the record alone. -/
theorem advance_aside {env : Env} {record : Option ContainerRecord} {task : Task} {m : Move}
    (htask : task.Aside) (h : advance c env record task = some m) :
    m.next.Aside ∧ m.spawn = [] ∧ Calm m.effects ∧
      (applyEffects record m.effects = record ∨ Ended (applyEffects record m.effects)) := by
  cases task with
  | returned _ | reconciled _ | panicked => cases h
  | supervise =>
    simp only [advance] at h
    have hcalm : Calm [] := ⟨by simp, by simp⟩
    split at h <;> cases h <;> exact ⟨trivial, rfl, hcalm, .inl rfl⟩
  | superviseExit code r =>
    simp only [advance] at h
    split at h <;> cases h
    · exact ⟨trivial, rfl, ⟨by simp, by simp⟩, .inr (ended_of_exit rfl rfl)⟩
    · exact ⟨trivial, rfl, ⟨by simp [Move.goto], by simp [Move.goto]⟩, .inl rfl⟩
  | superviseEnd =>
    cases h
    exact ⟨trivial, rfl, ⟨by simp, by simp⟩, .inl rfl⟩
  | start _ | startWait | stop _ | stopDeadline _ | stopPoll | stopKill | stopReread | stopForce _
  | stopEnd | update _ _ | remove | removeRecord | removeEnd | reconcile _ | reconcilePut _ =>
    exact htask.elim

/-- Where the handler stands: `es` is what happened since the request, `present` whether there was
    a record then. -/
def Stage (timeout : Int) (present : Prop) (seen : Bool) (es : List Effect)
    (record : Option ContainerRecord) : Task → Prop
  | .stop t | .stopDeadline t => t = timeout ∧ seen = false ∧ Calm es
  | .stopPoll | .stopKill => seen = false ∧ Calm es
  | .stopReread | .stopForce _ => Escalates seen es
  | .stopEnd => Ended record ∧ (present → Escalates seen es)
  | .returned r => r = .ok () ∧ Ended record ∧ (present → Escalates seen es)
  | _ => False

/-- The moves that are left to the handler, at most. -/
def Stopping.turns (s : Stopping) : Task → Nat
  | .stop t => 6 + 10 * t.toNat
  | .stopDeadline t => 5 + 10 * t.toNat
  | .stopPoll => 5 + (s.deadline - s.wake + (pollInterval - 1)) / pollInterval
  | .stopKill => 4
  | .stopReread => 3
  | .stopForce _ => 2
  | .stopEnd => 1
  | _ => 0

/-- A move of another task keeps the stage. -/
theorem Stage.other {timeout : Int} {present : Prop} {seen : Bool} {es es' : List Effect}
    {record record' : Option ContainerRecord} {task : Task}
    (h : Stage timeout present seen es record task) (hcalm : Calm es')
    (hrecord : record' = record ∨ Ended record') :
    Stage timeout present seen (es ++ es') record' task := by
  have hended : Ended record → Ended record' := by
    rcases hrecord with rfl | hended
    · exact id
    · exact fun _ => hended
  cases task with
  | stop t | stopDeadline t => exact ⟨h.1, h.2.1, h.2.2.append hcalm⟩
  | stopPoll | stopKill => exact ⟨h.1, h.2.append hcalm⟩
  | stopReread | stopForce _ => exact h.append hcalm
  | stopEnd => exact ⟨hended h.1, fun hpresent => (h.2 hpresent).append hcalm⟩
  | returned r => exact ⟨h.1, hended h.2.1, fun hpresent => (h.2.2 hpresent).append hcalm⟩
  | _ => exact h.elim

/-- A move of the handler goes on to the next stage, with fewer moves left. -/
theorem Stage.own {timeout : Int} {present : Prop} {s s' : Stopping} {es : List Effect}
    {now : Nat} {env : Env} {task : Task} {m : Move} {cell : St}
    (h : Stage timeout present s.seen es s.cell.record task)
    (hfits : task = .stopDeadline timeout → 0 < timeout → (now / second : Nat) + timeout < 2 ^ 63)
    (hcoded : ∀ r, s.cell.record = some r → Coded r) (hawake : s.asleep now task = false)
    (hm : advance c (s.env now env) s.cell.record task = some m)
    (hs' : s' = s.after now cell task) :
    Stage timeout present s'.seen (es ++ m.effects) (applyEffects s.cell.record m.effects) m.next ∧
      s'.turns m.next < s.turns task ∧ m.spawn = [] := by
  subst hs'
  cases task with
  | stop t =>
    cases hm
    exact ⟨⟨h.1, h.2.1, h.2.2.append ⟨by simp, by simp⟩⟩, by simp [Stopping.turns], rfl⟩
  | stopDeadline t =>
    obtain ⟨rfl, hseen, hcalm⟩ := h
    simp only [advance] at hm
    split at hm
    · rename_i hpos
      have hfits := hfits rfl hpos
      have hno : ¬ deadlineOverflows (s.env now env).clock t = true := by
        rw [deadlineOverflows, decide_eq_true_eq, not_le]
        exact hfits
      rw [if_neg hno] at hm
      cases hm
      refine ⟨⟨hseen, ?_⟩, ?_, rfl⟩
      · simpa [Move.goto] using hcalm
      · simp only [Move.goto, Stopping.turns, Stopping.after, pollInterval, second]
        omega
    · cases hm
      refine ⟨⟨hseen, by simpa [Move.goto] using hcalm⟩, ?_, rfl⟩
      simp only [Move.goto, Stopping.turns]
      omega
  | stopPoll =>
    obtain ⟨hseen, hcalm⟩ := h
    simp only [Stopping.asleep, decide_eq_false_iff_not, not_lt] at hawake
    have hcalm' : Calm (es ++ []) := by simpa using hcalm
    simp only [Stopping.after, hseen, Bool.false_or]
    -- the read finds the exit, or the clock decides
    by_cases hsees : sees s.cell.record = true
    · obtain ⟨r, hr, hexit⟩ := (Option.any_eq_true _ _).1 hsees
      simp only [advance, Stopping.env, hr, of_decide_eq_true hexit, if_true] at hm
      cases hm
      rw [hsees]
      exact ⟨hcalm'.escalates, by simp only [Move.goto, Stopping.turns, pollInterval]; omega, rfl⟩
    · have hm' : m = .goto (if s.deadline ≤ now then .stopKill else .stopPoll) := by
        simp only [advance, Stopping.env, decide_eq_true_eq] at hm
        cases hr : s.cell.record with
        | none =>
          simp only [hr] at hm
          exact (Option.some.inj hm).symm
        | some r =>
          have hstate : r.state ≠ exited := by
            intro hexit
            exact hsees (by simp [sees, hr, hexit])
          simp only [hr, if_neg hstate] at hm
          exact (Option.some.inj hm).symm
      subst hm'
      rw [Bool.eq_false_iff.2 hsees]
      split
      · exact ⟨⟨rfl, hcalm'⟩, by simp only [Move.goto, Stopping.turns, pollInterval]; omega, rfl⟩
      · refine ⟨⟨rfl, hcalm'⟩, ?_, rfl⟩
        simp only [Move.goto, Stopping.turns, pollInterval]
        omega
  | stopKill =>
    cases hm
    obtain ⟨hseen, hcalm⟩ := h
    refine ⟨⟨?_, ?_⟩, by simp [Stopping.turns], rfl⟩
    · exact iff_of_true (by simp) hseen
    · exact iff_of_true (by simp) hseen
  | stopReread =>
    have hrest : Escalates s.seen (es ++ []) := h.append ⟨by simp, by simp⟩
    simp only [advance, Stopping.env] at hm
    cases hr : s.cell.record with
    | none =>
      simp only [hr] at hm
      cases hm
      exact ⟨⟨by rintro _ ⟨⟩, fun _ => hrest⟩, by simp [Move.goto, Stopping.turns], rfl⟩
    | some updated =>
      simp only [hr] at hm
      split at hm
      · cases hm
        exact ⟨hrest, by simp [Move.goto, Stopping.turns], rfl⟩
      · rename_i hexit
        cases hm
        refine ⟨⟨ended_of_exit (not_not.1 hexit) (hcoded updated hr (not_not.1 hexit)),
          fun _ => hrest⟩, by simp [Move.goto, Stopping.turns], rfl⟩
  | stopForce updated =>
    simp only [advance, Stopping.env] at hm
    cases hm
    refine ⟨⟨ended_of_exit rfl rfl, fun _ => h.append ⟨by simp, by simp⟩⟩, ?_, rfl⟩
    simp [Stopping.turns]
  | stopEnd =>
    cases hm
    exact ⟨⟨rfl, h.1, fun hpresent => (h.2 hpresent).append ⟨by simp, by simp⟩⟩,
      by simp [Stopping.turns], rfl⟩
  | returned _ => cases hm
  | _ => exact h.elim

/-! ## The run -/

/-- The handler `i` is on its way, and every other task stands aside. -/
structure Underway (s₀ : St) (i : Nat) (timeout : Int) (s : Stopping) : Prop where
  aside : ∀ j task, j ≠ i → s.cell.tasks[j]? = some task → task.Aside
  coded : ∀ r, s.cell.record = some r → Coded r
  stage : ∃ task, s.cell.tasks[i]? = some task ∧
    Stage timeout (s₀.record ≠ none) s.seen (since s₀ s.cell) s.cell.record task
  later : s₀.trace.length ≤ s.cell.trace.length

/-- The moves that are left to the handler `i`. -/
def Stopping.left (i : Nat) (s : Stopping) : Nat := (s.cell.tasks[i]?.map s.turns).getD 0

theorem since_take {s₀ s : St} (h : s₀.trace.length ≤ s.trace.length) (t : Nat) (m : Move) :
    since s₀ (s.take t m) = since s₀ s ++ m.effects :=
  List.drop_append_of_le_length h

/-- Of the fields, a move of another task changes the record, the tasks and the trace. -/
theorem after_aside {s : Stopping} {now : Nat} {cell : St} {task : Task} (h : task.Aside) :
    s.after now cell task = { s with cell := cell, now := now } := by
  cases task with
  | stopDeadline _ | stopPoll => exact h.elim
  | _ => rfl

theorem turns_congr {s : Stopping} {now : Nat} {cell : St} (task : Task) :
    ({ s with cell := cell, now := now } : Stopping).turns task = s.turns task := by
  cases task <;> rfl

theorem Stage.coded {timeout : Int} {present : Prop} {seen : Bool} {es : List Effect}
    {record : Option ContainerRecord} {task : Task}
    (h : Stage timeout present seen es record task) : task.Coded := by
  cases task with
  | update _ _ | reconcile _ | reconcilePut _ => exact h.elim
  | _ => trivial

theorem Task.Aside.coded {task : Task} (h : task.Aside) : task.Coded := by
  cases task with
  | update _ _ | reconcile _ | reconcilePut _ => exact h.elim
  | _ => trivial

theorem after_cell (s : Stopping) (now : Nat) (cell : St) (task : Task) :
    (s.after now cell task).cell = cell := by
  cases task <;> rfl

/-- **One move.**  The handler stays on its way, and a move of its own is one less. -/
theorem stage_step {s₀ : St} {i : Nat} {timeout : Int} {s s' : Stopping} {l : Turn}
    (h : Underway s₀ i timeout s) (hfits : DeadlineFits i timeout s l)
    (hstep : stopStep c s l = some s') :
    Underway s₀ i timeout s' ∧
      s'.left i + (if l.task = i then 1 else 0) ≤ s.left i := by
  obtain ⟨task, m, htask, hawake, hm, rfl⟩ := stopStep_some hstep
  obtain ⟨own, hown, hstage⟩ := h.stage
  have hleft : s.left i = s.turns own := by simp [Stopping.left, hown]
  have hcell := after_cell s (s.now + l.elapsed) (s.cell.take l.task m) task
  have hsince := since_take h.later l.task m
  have hlater : s₀.trace.length ≤ (s.cell.take l.task m).trace.length := by
    show s₀.trace.length ≤ (s.cell.trace ++ m.effects).length
    rw [List.length_append]
    exact h.later.trans (Nat.le_add_right _ _)
  by_cases hi : l.task = i
  · -- the handler moves
    subst hi
    obtain rfl : own = task := Option.some.inj (hown.symm.trans htask)
    have hcoded' := ((coded_harmless c).advances h.coded hstage.coded hm).1
    obtain ⟨hstage', hless, hspawn⟩ := hstage.own (fun hd => hfits rfl (hd ▸ htask)) h.coded hawake
      hm rfl
    have hnext : (s.cell.take l.task m).tasks[l.task]? = some m.next := by
      simp only [St.take, hspawn, List.append_nil]
      rw [List.getElem?_set_self (List.getElem?_eq_some_iff.1 htask).1]
    refine ⟨⟨?_, ?_, ⟨m.next, ?_, ?_⟩, ?_⟩, ?_⟩
    · intro j x hj hx
      rw [hcell] at hx
      rcases getElem?_take_cases hx with ⟨hj', -⟩ | ⟨-, hx⟩ | hx
      · exact absurd hj' hj
      · exact h.aside j x hj hx
      · rw [hspawn] at hx
        cases hx
    · rw [hcell]
      exact hcoded'
    · rw [hcell]
      exact hnext
    · rw [hcell, hsince]
      exact hstage'
    · rw [hcell]
      exact hlater
    · rw [hleft, Stopping.left, hcell, hnext, if_pos rfl, Option.map_some, Option.getD_some]
      omega
  · -- the supervision moves
    have haside := h.aside l.task task hi htask
    have hcoded' := ((coded_harmless c).advances h.coded haside.coded hm).1
    obtain ⟨hnext, hspawn, hcalm, hrecord⟩ := advance_aside haside hm
    have hsame : (s.cell.take l.task m).tasks[i]? = some own :=
      getElem?_take hown (Ne.symm hi)
    rw [after_aside haside]
    refine ⟨⟨?_, hcoded', ⟨own, hsame, ?_⟩, hlater⟩, ?_⟩
    · intro j x hj hx
      rcases getElem?_take_cases hx with ⟨-, rfl⟩ | ⟨-, hx⟩ | hx
      · exact hnext
      · exact h.aside j x hj hx
      · rw [hspawn] at hx
        cases hx
    · rw [hsince]
      exact hstage.other hcalm hrecord
    · rw [hleft, Stopping.left, if_neg hi, hsame, Option.map_some, Option.getD_some, turns_congr,
        Nat.add_zero]

/-- **The moves of the handler** over a run, with those that are left. -/
theorem turns_le {s₀ : St} {i : Nat} {timeout : Int} {ls : List Turn} {s s' : Stopping}
    (h : Underway s₀ i timeout s)
    (hfits : ∀ x ∈ steps (stopStep c) s ls, DeadlineFits i timeout x.1 x.2.1)
    (hrun : run (stopStep c) s ls = some s') :
    Underway s₀ i timeout s' ∧
      (ls.filter fun l => l.task = i).length + s'.left i ≤ s.left i := by
  induction ls generalizing s with
  | nil =>
    cases hrun
    exact ⟨h, by simp⟩
  | cons l ls ih =>
    obtain ⟨s₁, hstep, hrun⟩ := run_cons_some hrun
    rw [steps_cons ls hstep] at hfits
    obtain ⟨h₁, hless⟩ := stage_step h (hfits _ List.mem_cons_self) hstep
    obtain ⟨h', hrest⟩ := ih h₁ (fun x hx => hfits x (List.mem_cons_of_mem _ hx)) hrun
    refine ⟨h', ?_⟩
    by_cases hi : l.task = i
    · rw [List.filter_cons_of_pos (by simpa using hi), List.length_cons]
      rw [if_pos hi] at hless
      omega
    · rw [List.filter_cons_of_neg (by simpa using hi)]
      rw [if_neg hi] at hless
      omega

/-- The handler can move until it returns. -/
theorem Stage.moves {timeout : Int} {present : Prop} {s : Stopping} {es : List Effect} {env : Env}
    {now : Nat} {task : Task} (h : Stage timeout present s.seen es s.cell.record task)
    (hreturned : ∀ r, task ≠ .returned r) :
    (advance c (s.env now env) s.cell.record task).isSome = true := by
  cases task with
  | stop _ | stopKill | stopForce _ | stopEnd => rfl
  | stopDeadline t =>
    simp only [advance]
    split
    · split <;> rfl
    · rfl
  | stopPoll | stopReread =>
    simp only [advance, Stopping.env]
    cases s.cell.record with
    | none => rfl
    | some r =>
      dsimp only
      split <;> rfl
  | returned r => exact absurd rfl (hreturned r)
  | _ => exact h.elim

theorem Underway.able {s₀ : St} {i : Nat} {timeout : Int} {s : Stopping}
    (h : Underway s₀ i timeout s) (hreturned : ∀ r, s.cell.tasks[i]? ≠ some (.returned r))
    {l : Turn} (hl : l.task = i) (hwake : s.wake ≤ s.now + l.elapsed) :
    (stopStep c s l).isSome = true := by
  obtain ⟨own, hown, hstage⟩ := h.stage
  subst hl
  have hawake : s.asleep (s.now + l.elapsed) own = false := by
    cases own with
    | stopPoll => exact decide_eq_false (Nat.not_lt.2 hwake)
    | _ => rfl
  have hmoves : (advance c (s.env (s.now + l.elapsed) l.env) s.cell.record own).isSome = true :=
    hstage.moves fun r hr => hreturned r (hr ▸ hown)
  simp only [stopStep, hown, hawake, Bool.false_eq_true, if_false, Option.isSome_map, step]
  exact hmoves

/-- The request, on a container that only its supervision handles. -/
theorem underway_begin {s₀ : St} (hcoded : ∀ r, s₀.record = some r → Coded r)
    (halone : ∀ task ∈ s₀.tasks, task.Aside) (timeout : Int) (now : Nat) :
    Underway s₀ s₀.tasks.length timeout (beginStop c s₀ timeout now) ∧
      (beginStop c s₀ timeout now).left s₀.tasks.length ≤ 6 + 10 * timeout.toNat := by
  have hown : (beginStop c s₀ timeout now).cell.tasks[s₀.tasks.length]? =
      some (begin c .quiet s₀.record (.stopContainer timeout)) := by
    simp [beginStop]
  have hsince : since s₀ (beginStop c s₀ timeout now).cell = [] := by
    simp [since, beginStop]
  have hcalm : Calm [] := ⟨by simp, by simp⟩
  have haside : ∀ j task, j ≠ s₀.tasks.length →
      (beginStop c s₀ timeout now).cell.tasks[j]? = some task → task.Aside := by
    intro j task hj htask
    rcases getElem?_push_cases htask with ⟨hj', -⟩ | htask
    · exact absurd hj' hj
    · exact halone task (List.mem_of_getElem? htask)
  have hstage : Stage timeout (s₀.record ≠ none) (sees s₀.record) [] s₀.record
        (begin c .quiet s₀.record (.stopContainer timeout)) ∧
      (beginStop c s₀ timeout now).turns (begin c .quiet s₀.record (.stopContainer timeout)) ≤
        6 + 10 * timeout.toNat := by
    cases hrecord : s₀.record with
    | none =>
      refine ⟨⟨by rintro _ ⟨⟩, fun h => absurd rfl h⟩, ?_⟩
      simp only [begin, Env.quiet, Stopping.turns]
      omega
    | some r =>
      by_cases hexit : r.state = exited
      · simp only [begin, Env.quiet, hexit, ne_eq, not_true_eq_false, if_false]
        refine ⟨⟨ended_of_exit hexit (hcoded r hrecord hexit), fun _ => ?_⟩, ?_⟩
        · simpa [sees, hexit] using hcalm.escalates
        · simp only [Stopping.turns]
          omega
      · simp only [begin, Env.quiet, hexit, ne_eq, not_false_eq_true, if_true]
        refine ⟨⟨rfl, by simp [sees, hexit], hcalm⟩, ?_⟩
        simp only [Stopping.turns]
        omega
  refine ⟨⟨haside, hcoded, ⟨_, hown, ?_⟩, Nat.le_refl _⟩, ?_⟩
  · rw [hsince]
    exact hstage.1
  · rw [Stopping.left, hown, Option.map_some, Option.getD_some]
    exact hstage.2

/-- A handler that has panicked stays so. -/
theorem panicked_run {i : Nat} {ls : List Turn} {s s' : Stopping}
    (h : s.cell.tasks[i]? = some .panicked) (hrun : run (stopStep c) s ls = some s') :
    s'.cell.tasks[i]? = some .panicked := by
  induction ls generalizing s with
  | nil =>
    cases hrun
    exact h
  | cons l ls ih =>
    obtain ⟨s₁, hstep, hrun⟩ := run_cons_some hrun
    obtain ⟨task, m, htask, -, hm, rfl⟩ := stopStep_some hstep
    refine ih ?_ hrun
    rw [after_cell]
    apply getElem?_take h
    rintro rfl
    obtain rfl : task = .panicked := Option.some.inj (htask.symm.trans h)
    cases hm

/-- A deadline beyond the range of the clock. -/
theorem misfit_step {i : Nat} {timeout : Int} {s s' : Stopping} {l : Turn}
    (hmisfit : ¬ DeadlineFits i timeout s l) (hstep : stopStep c s l = some s') :
    s'.cell.tasks[i]? = some .panicked := by
  unfold DeadlineFits at hmisfit
  push Not at hmisfit
  obtain ⟨rfl, hdeadline, hpos, hbig⟩ := hmisfit
  obtain ⟨task, m, htask, -, hm, rfl⟩ := stopStep_some hstep
  obtain rfl : task = .stopDeadline timeout := Option.some.inj (htask.symm.trans hdeadline)
  have hover : deadlineOverflows (s.env (s.now + l.elapsed) l.env).clock timeout = true := by
    rw [deadlineOverflows, decide_eq_true_eq]
    exact hbig
  simp only [advance, if_pos hpos, if_pos hover] at hm
  cases hm
  rw [after_cell]
  simp only [St.take, Move.goto, List.append_nil]
  exact List.getElem?_set_self (List.getElem?_eq_some_iff.1 htask).1

theorem fits_of_safe {s₀ : St} {i : Nat} {timeout : Int} {ls : List Turn} {s s' : Stopping}
    (h : Underway s₀ i timeout s) (hrun : run (stopStep c) s ls = some s')
    (hsafe : s'.cell.tasks[i]? ≠ some .panicked) :
    ∀ x ∈ steps (stopStep c) s ls, DeadlineFits i timeout x.1 x.2.1 := by
  induction ls generalizing s with
  | nil => simp [steps]
  | cons l ls ih =>
    obtain ⟨s₁, hstep, hrun⟩ := run_cons_some hrun
    have hfits : DeadlineFits i timeout s l := by
      by_contra hmisfit
      exact hsafe (panicked_run (misfit_step hmisfit hstep) hrun)
    rw [steps_cons ls hstep]
    exact List.forall_mem_cons.2 ⟨hfits, ih (stage_step h hfits hstep).1 hrun⟩

/-- **StopContainer completes for a timeout exactly if its deadline is within the range of the
    clock.**  The container has any history; when the stop arrives, only its supervision is left. -/
theorem stop_completes_iff {first : Option ContainerRecord}
    (hfirst : ∀ r, first = some r → r.state = created) {history : List Label} {s₀ : St}
    (hhistory : run (step c) ⟨first, [], []⟩ history = some s₀)
    (halone : ∀ task ∈ s₀.tasks, task.Aside) (timeout : Int) (now : Nat) {ls : List Turn}
    {s : Stopping} (hrun : run (stopStep c) (beginStop c s₀ timeout now) ls = some s) :
    Completes c s₀ s₀.tasks.length timeout ls s ↔
      ∀ x ∈ steps (stopStep c) (beginStop c s₀ timeout now) ls,
        DeadlineFits s₀.tasks.length timeout x.1 x.2.1 := by
  obtain ⟨hbegin, hleft⟩ :=
    underway_begin (coded_history hfirst hhistory) halone timeout now
  constructor
  · intro h
    exact fits_of_safe hbegin hrun h.safe
  · intro hfits
    obtain ⟨hs, hturns⟩ := turns_le hbegin hfits hrun
    obtain ⟨own, hown, hstage⟩ := hs.stage
    refine ⟨?_, by omega, fun hreturned l hl hwake => hs.able hreturned hl hwake, ?_, ?_⟩
    · intro hpanicked
      rw [hown, Option.some.injEq] at hpanicked
      subst hpanicked
      exact hstage
    · intro r r₀ hr hr₀
      rw [hown, Option.some.injEq] at hr
      subst hr
      exact hstage.2.2 (by simp [hr₀])
    · intro r hr
      rw [hown, Option.some.injEq] at hr
      subst hr
      exact ⟨hstage.1, hstage.2.1⟩

/-! ## Concrete runs -/

/-- The container is started, and runs. -/
def startHistory : List Label :=
  [.request .startContainer .quiet, .move 0 .quiet, .move 0 .quiet]

def stopCtx : Ctx := ⟨"c1", "/run/crun", "/run/c1"⟩

/-- What the start leaves: the handler is over, and the supervision waits for the exit. -/
def startedContainer : St where
  record := some (startRecord stopCtx .quiet createdRecord)
  tasks := [.returned (.ok ()), .supervise]
  trace := [.put (startRecord stopCtx .quiet createdRecord), .crunRun, .event .containerStarted]

theorem startedContainer_alone : ∀ task ∈ startedContainer.tasks, task.Aside := by
  intro task htask
  rcases List.mem_pair.1 htask with rfl | rfl
  · trivial
  · trivial

/-- The stop waits a second for a container that does not end, and forces its exit. -/
def forcedStop : List Turn :=
  [⟨2, .quiet, 0⟩, ⟨2, .quiet, 0⟩, ⟨2, .quiet, 1000000000⟩, ⟨2, .quiet, 0⟩, ⟨2, .quiet, 0⟩,
    ⟨2, .quiet, 0⟩, ⟨2, .quiet, 0⟩]

theorem forced_stop_completes : ∃ s,
    run (step stopCtx) ⟨some createdRecord, [], []⟩ startHistory = some startedContainer ∧
      run (stopStep stopCtx) (beginStop stopCtx startedContainer 1 0) forcedStop = some s ∧
      Completes stopCtx startedContainer 2 1 forcedStop s := by
  have hhistory : run (step stopCtx) ⟨some createdRecord, [], []⟩ startHistory =
      some startedContainer := rfl
  obtain ⟨s, hs⟩ : ∃ s,
      run (stopStep stopCtx) (beginStop stopCtx startedContainer 1 0) forcedStop = some s :=
    ⟨_, rfl⟩
  refine ⟨s, hhistory, hs, (stop_completes_iff ?_ hhistory startedContainer_alone 1 0 hs).2 ?_⟩
  · rintro r ⟨⟩
    rfl
  · have hclock : ((steps (stopStep stopCtx) (beginStop stopCtx startedContainer 1 0)
        forcedStop).all fun x => x.1.now + x.2.1.elapsed ≤ second) = true := by
      decide +kernel
    intro x hx _ _ _
    have hnow := of_decide_eq_true (List.all_eq_true.1 hclock x hx)
    simp only [second] at hnow ⊢
    omega

/-- The largest timeout, on a node that has been up for a second: the handler panics, and the
    container stays `Running`. -/
theorem huge_timeout_panics : ∃ s,
    run (step stopCtx) ⟨some createdRecord, [], []⟩ startHistory = some startedContainer ∧
      (∀ task ∈ startedContainer.tasks, task.Aside) ∧
      run (stopStep stopCtx) (beginStop stopCtx startedContainer (2 ^ 63 - 1) second)
        [⟨2, .quiet, 0⟩, ⟨2, .quiet, 0⟩] = some s ∧
      s.cell.tasks[2]? = some .panicked ∧ s.cell.record.map (·.state) = some running ∧
      ¬ Completes stopCtx startedContainer 2 (2 ^ 63 - 1)
        [⟨2, .quiet, 0⟩, ⟨2, .quiet, 0⟩] s := by
  obtain ⟨s, hs, hpanicked, hstate⟩ : ∃ s,
      run (stopStep stopCtx) (beginStop stopCtx startedContainer (2 ^ 63 - 1) second)
          [⟨2, .quiet, 0⟩, ⟨2, .quiet, 0⟩] = some s ∧
        s.cell.tasks[2]? = some .panicked ∧ s.cell.record.map (·.state) = some running :=
    ⟨_, rfl, rfl, rfl⟩
  exact ⟨s, rfl, startedContainer_alone, hs, hpanicked, hstate, fun h => h.safe hpanicked⟩

end ContainerdRs.Cri
