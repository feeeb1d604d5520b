import ContainerdRs.Cri.Moves
import ContainerdRs.Cri.Queries

/-!
# The exit of a re-adopted container

After a restart `reconcile` re-adopts the containers that crun reports as running.  No supervision
task exists for them any more, and `container_status` and `list_containers` answer from the
record: neither asks crun.  The documentation of `reconcile` says that an exit is caught on the
next status query or pass.

* `Watched` — one container with its process and the states that were reported.
* `quiet_step` — without a record, a copy or a process that is `Running`, nothing is reported so.
* `exit_noticed_iff` — when no answer after a status query reports `Running` any more.
* `readopted_exit_unnoticed` — the process ends, and every query goes on reporting `Running`.
-/

set_option autoImplicit false

namespace ContainerdRs.Cri

open ContainerState Transition

/-! ## A container and its process -/

/-- The record and the tasks of one container, whether its process lives, and the states that
    queries have reported, in order. -/
structure Watched where
  cell : St
  alive : Bool
  answers : List Int

inductive WatchedLabel where
  | cell (l : Label)
  /-- The process ends. -/
  | ends
  | containerStatus (metaErr : Option String)
  | listContainers (filter : Option ContainerFilter) (metaErr : Option String)

/-- `crun state` reports a container as running only if its process lives. -/
def Label.Observes (alive : Bool) : Label → Prop
  | .move _ env => ∀ st, env.probe = some st → st.isRunning = true → alive = true
  | _ => True

instance (alive : Bool) (l : Label) : Decidable (l.Observes alive) :=
  match l with
  | .move _ env =>
    match h : env.probe with
    | none => isTrue (by simp [Label.Observes, h])
    | some st => decidable_of_iff (st.isRunning = true → alive = true) (by
        simp [Label.Observes, h])
  | .request _ _ => isTrue trivial
  | .restart => isTrue trivial

/-- The states in an answer. -/
def statusAnswer (c : Ctx) (metaErr : Option String) (record : Option ContainerRecord) : List Int :=
  match containerStatus c metaErr record with
  | .ok status => [status.state]
  | .error _ => []

def listAnswer (filter : Option ContainerFilter) (metaErr : Option String)
    (record : Option ContainerRecord) : List Int :=
  match listContainers metaErr filter record.toList with
  | .ok containers => containers.map (·.state)
  | .error _ => []

/-- One step; `none` when the label is not enabled. -/
def watchedStep (c : Ctx) (s : Watched) : WatchedLabel → Option Watched
  | .cell l =>
    if l.Observes s.alive then
      (step c s.cell l).map fun cell =>
        -- `crun run` starts a process
        { s with cell := cell, alive := s.alive || decide (.crunRun ∈ since s.cell cell) }
    else none
  | .ends => some { s with alive := false }
  | .containerStatus metaErr =>
    some { s with answers := s.answers ++ statusAnswer c metaErr s.cell.record }
  | .listContainers filter metaErr =>
    some { s with answers := s.answers ++ listAnswer filter metaErr s.cell.record }

/-- What is reported after `s`. -/
def Watched.reported (s s' : Watched) : List Int := s'.answers.drop s.answers.length

/-- **The exit is noticed**: no answer reports the container as `Running` again. -/
def NeverRunning (c : Ctx) (s : Watched) : Prop :=
  ∀ ls s', run (watchedStep c) s ls = some s' → containerRunning ∉ s.reported s'

/-! ## The condition -/

/-- The record of a container that is, or may still be, started. -/
def Live (r : ContainerRecord) : Prop := r.state = running ∨ r.state = created

/-- The task holds a copy that it is going to write back as `Running` or `Created`. -/
def Task.Revives : Task → Prop
  | .start _ => True
  | .update rec linux => linux ≠ none ∧ Live rec
  | .reconcilePut rec => Live rec
  | _ => False

/-- Something else has recorded the exit, and nothing in flight takes that back. -/
structure ExitRecorded (s : St) : Prop where
  record : ∀ r, s.record = some r → ¬ Live r
  tasks : ∀ task ∈ s.tasks, ¬ task.Revives

/-! ## Without a live record -/

variable {c : Ctx}

theorem stores_not_live {env : Env} {task : Task} {r : ContainerRecord} (htask : ¬ task.Revives)
    (h : stores c env task = some r) : ¬ Live r := by
  cases task with
  | start rec => exact absurd trivial htask
  | superviseExit code rec =>
    simp only [stores, Option.ite_none_right_eq_some, Option.some.injEq] at h
    obtain ⟨-, rfl⟩ := h
    simp [Live, exitRecord]
  | stopForce updated =>
    simp only [stores, Option.ite_none_right_eq_some, Option.some.injEq] at h
    obtain ⟨-, rfl⟩ := h
    simp [Live, forcedRecord]
  | update rec linux =>
    cases linux with
    | none => cases h
    | some l =>
      simp only [stores, Option.ite_none_right_eq_some, Option.some.injEq] at h
      obtain ⟨-, rfl⟩ := h
      exact fun hlive => htask ⟨by simp, hlive⟩
  | reconcilePut rec =>
    simp only [stores, Option.ite_none_right_eq_some, Option.some.injEq] at h
    obtain ⟨-, rfl⟩ := h
    exact htask
  | _ => cases h

/-- A container whose process has ended is not found running. -/
theorem reconcileRecord_not_live {env : Env} (rec : ContainerRecord)
    (h : ∀ st, env.probe = some st → st.isRunning = false) :
    ¬ Live (reconcileRecord c env rec) := by
  unfold reconcileRecord
  split
  · rename_i st hprobe
    rw [if_neg (by simp [h st hprobe])]
    simp [Live]
  · simp [Live]

theorem begin_not_revives {env : Env} {record : Option ContainerRecord} (r : Request)
    (h : ∀ rec, record = some rec → ¬ Live rec) : ¬ (begin c env record r).Revives := by
  cases r with
  | removeContainer => exact id
  | startContainer =>
    simp only [begin]
    split
    · exact id
    · exact id
    · rename_i rec _
      split
      · exact id
      · rename_i hstate
        exact absurd (.inr (by simpa using hstate)) (h rec rfl)
  | updateContainerResources linux =>
    simp only [begin]
    split
    · exact id
    · exact id
    · rename_i rec _
      exact fun hrevives => h rec rfl hrevives.2
  | stopContainer timeout =>
    simp only [begin]
    split
    · exact id
    · exact id
    · split <;> exact id
  | reconcile =>
    simp only [begin]
    split
    · exact id
    · exact id
    · split <;> exact id

/-- A move of a harmless task, after the process has ended. -/
theorem advance_not_revives {env : Env} {record : Option ContainerRecord} {task : Task} {m : Move}
    (hprobe : ∀ st, env.probe = some st → st.isRunning = false) (htask : ¬ task.Revives)
    (hm : advance c env record task = some m) : ¬ m.next.Revives := by
  cases task with
  | reconcile rec =>
    cases hm
    exact reconcileRecord_not_live rec hprobe
  | _ =>
    have hnext := (advance_does hm).next
    generalize m.next = next at hnext
    cases hnext <;> exact id

/-- The container is at rest: its process has ended and its exit is recorded. -/
structure AtRest (s : Watched) : Prop where
  alive : s.alive = false
  recorded : ExitRecorded s.cell

theorem recorded_step {s s' : St} {l : Label} (hs : ExitRecorded s) (hobserves : l.Observes false)
    (h : step c s l = some s') : ExitRecorded s' ∧ .crunRun ∉ since s s' := by
  cases l with
  | request r env =>
    cases h
    refine ⟨⟨hs.record, ?_⟩, by simp [since]⟩
    intro task hmem
    rcases List.mem_append.1 hmem with hmem | hmem
    · exact hs.tasks task hmem
    · rw [List.mem_singleton.1 hmem]
      exact begin_not_revives r hs.record
  | restart =>
    cases h
    exact ⟨⟨hs.record, by simp⟩, by simp [since]⟩
  | move t env =>
    obtain ⟨task, m, htask, hm, rfl⟩ := step_move h
    have hharmless := hs.tasks task (List.mem_of_getElem? htask)
    have hdoes := advance_does hm
    have hprobe : ∀ st, env.probe = some st → st.isRunning = false := by
      intro st hst
      by_contra hrunning
      cases hobserves st hst (by simpa using hrunning)
    refine ⟨⟨?_, ?_⟩, ?_⟩
    · intro r hr
      have hentry : entryAfter c env s.record task = some r := hdoes.entry.symm.trans hr
      by_cases hremove : task = .removeRecord
      · subst hremove
        simp only [entryAfter] at hentry
        split at hentry
        · cases hentry
        · exact hs.record r hentry
      · rw [entryAfter_of_ne hremove] at hentry
        cases hstores : stores c env task with
        | none =>
          rw [hstores] at hentry
          exact hs.record r hentry
        | some r' =>
          rw [hstores] at hentry
          cases hentry
          exact stores_not_live hharmless hstores
    · intro task' hmem
      rcases mem_take hmem with hmem | rfl | hmem
      · exact hs.tasks task' hmem
      · exact advance_not_revives hprobe hharmless hm
      · obtain ⟨rfl, -⟩ := hdoes.spawn task' hmem
        exact id
    · rw [since_eq rfl]
      intro hrun
      obtain ⟨rec, rfl⟩ := hdoes.runs hrun
      exact hharmless trivial

theorem statusAnswer_not_running {metaErr : Option String} {record : Option ContainerRecord}
    (h : ∀ r, record = some r → ¬ Live r) : containerRunning ∉ statusAnswer c metaErr record := by
  unfold statusAnswer containerStatus
  split
  · rename_i status hstatus
    split at hstatus
    · cases hstatus
    · cases hstatus
    · rename_i rec
      cases hstatus
      rw [List.mem_singleton]
      intro hrunning
      exact h rec rfl (.inl (containerStateI32_eq_running.1 hrunning.symm))
  · simp

theorem listAnswer_not_running {filter : Option ContainerFilter} {metaErr : Option String}
    {record : Option ContainerRecord} (h : ∀ r, record = some r → ¬ Live r) :
    containerRunning ∉ listAnswer filter metaErr record := by
  unfold listAnswer listContainers
  cases metaErr with
  | some e => simp
  | none =>
    intro hmem
    simp only [List.map_map, List.mem_map, List.mem_filter, Option.mem_toList] at hmem
    obtain ⟨r, ⟨hr, -⟩, hrunning⟩ := hmem
    exact h r hr (.inl (containerStateI32_eq_running.1 hrunning))

/-- One step of a container at rest. -/
theorem quiet_step {s s' : Watched} {l : WatchedLabel} (hs : AtRest s)
    (h : watchedStep c s l = some s') :
    AtRest s' ∧ ∃ post, s'.answers = s.answers ++ post ∧ containerRunning ∉ post := by
  cases l with
  | cell l =>
    simp only [watchedStep] at h
    split at h
    · rename_i hobserves
      obtain ⟨cell, hcell, rfl⟩ := Option.map_eq_some_iff.1 h
      rw [hs.alive] at hobserves
      obtain ⟨hrecorded, hrun⟩ := recorded_step hs.recorded hobserves hcell
      exact ⟨⟨by simp [hs.alive, hrun], hrecorded⟩, [], by simp, by simp⟩
    · cases h
  | ends =>
    cases h
    exact ⟨⟨rfl, hs.recorded⟩, [], by simp, by simp⟩
  | containerStatus metaErr =>
    cases h
    exact ⟨⟨hs.alive, hs.recorded⟩, _, rfl, statusAnswer_not_running hs.recorded.record⟩
  | listContainers filter metaErr =>
    cases h
    exact ⟨⟨hs.alive, hs.recorded⟩, _, rfl, listAnswer_not_running hs.recorded.record⟩

/-- A run of a container at rest. -/
theorem quiet_run : ∀ {ls : List WatchedLabel} {s s' : Watched}, AtRest s →
    run (watchedStep c) s ls = some s' →
    ∃ post, s'.answers = s.answers ++ post ∧ containerRunning ∉ post
  | [], s, s', _, hrun => by
    simp only [run, Option.some.injEq] at hrun
    subst hrun
    exact ⟨[], by simp, by simp⟩
  | l :: ls, s, s', hs, hrun => by
    obtain ⟨s₁, hstep, hrun⟩ := run_cons_some hrun
    obtain ⟨hs₁, post₁, hpost₁, hnot₁⟩ := quiet_step hs hstep
    obtain ⟨post, hpost, hnot⟩ := quiet_run hs₁ hrun
    refine ⟨post₁ ++ post, ?_, ?_⟩
    · rw [hpost, hpost₁, List.append_assoc]
    · simp [hnot₁, hnot]

/-! ## With a live record or copy -/

/-- Two runs in a row, the second of which reports `Running`. -/
theorem reports_after {s s₁ : Watched} {ls : List WatchedLabel}
    (hrun : run (watchedStep c) s ls = some s₁) (hanswers : s₁.answers = s.answers)
    (h : ∃ ls' s', run (watchedStep c) s₁ ls' = some s' ∧ containerRunning ∈ s₁.reported s') :
    ∃ ls' s', run (watchedStep c) s ls' = some s' ∧ containerRunning ∈ s.reported s' := by
  obtain ⟨ls', s', hrun', hmem⟩ := h
  refine ⟨ls ++ ls', s', (run_append hrun).trans hrun', ?_⟩
  rwa [Watched.reported, hanswers] at hmem

/-- A record in `Running` is reported so. -/
theorem running_reported {s : Watched} {r : ContainerRecord} (hr : s.cell.record = some r)
    (hstate : r.state = running) :
    ∃ ls s', run (watchedStep c) s ls = some s' ∧ containerRunning ∈ s.reported s' := by
  refine ⟨[.containerStatus none], _, rfl, ?_⟩
  simp [Watched.reported, statusAnswer, containerStatus, hr, hstate, containerStateI32]

/-- A step of the container, in an environment that does not look at its process. -/
theorem watchedStep_cell {s : Watched} {l : Label} {cell : St} (hobserves : l.Observes s.alive)
    (h : step c s.cell l = some cell) :
    ∃ s₁, run (watchedStep c) s [.cell l] = some s₁ ∧ s₁.cell = cell ∧ s₁.answers = s.answers := by
  refine ⟨{ s with cell := cell, alive := s.alive || decide (.crunRun ∈ since s.cell cell) }, ?_,
    rfl, rfl⟩
  rw [run, watchedStep, if_pos hobserves, h]
  rfl

/-- The quiet environment tells nothing of the process. -/
theorem observes_quiet (alive : Bool) (t : Nat) : (Label.move t .quiet).Observes alive := by
  intro st hst
  cases hst

/-- A task that is going to store `r` does so. -/
theorem watched_stores {s : Watched} {t : Nat} {task : Task} {r : ContainerRecord}
    (htask : s.cell.tasks[t]? = some task) (hstores : stores c .quiet task = some r) :
    ∃ s₁, run (watchedStep c) s [.cell (.move t .quiet)] = some s₁ ∧ s₁.cell.record = some r ∧
      s₁.answers = s.answers := by
  obtain ⟨cell, hcell, hrecord, -⟩ := step_of_stores htask hstores
  obtain ⟨s₁, hrun, rfl, hanswers⟩ := watchedStep_cell (observes_quiet s.alive t) hcell
  exact ⟨s₁, hrun, hrecord, hanswers⟩

/-- A task at `start_container` leads to an answer `Running`. -/
theorem start_reported {s : Watched} (t : Nat) (rec : ContainerRecord)
    (htask : s.cell.tasks[t]? = some (.start rec)) :
    ∃ ls s', run (watchedStep c) s ls = some s' ∧ containerRunning ∈ s.reported s' := by
  obtain ⟨s₁, hrun, hrecord, hanswers⟩ := watched_stores (c := c) htask rfl
  exact reports_after hrun hanswers (running_reported hrecord rfl)

/-- A live record leads to an answer `Running`: at once, or once it is started. -/
theorem live_reported {s : Watched} {r : ContainerRecord} (hr : s.cell.record = some r)
    (hlive : Live r) :
    ∃ ls s', run (watchedStep c) s ls = some s' ∧ containerRunning ∈ s.reported s' := by
  rcases hlive with hstate | hstate
  · exact running_reported hr hstate
  · obtain ⟨s₁, hrun, hcell, hanswers⟩ :=
      watchedStep_cell (c := c) (s := s) (l := .request .startContainer .quiet) trivial rfl
    refine reports_after hrun hanswers (start_reported s.cell.tasks.length r ?_)
    rw [hcell]
    simp [begin, hr, hstate, Env.quiet]

/-- A copy that is going to be written back leads to an answer `Running`. -/
theorem revives_reported {s : Watched} {task : Task} (hmem : task ∈ s.cell.tasks)
    (h : task.Revives) :
    ∃ ls s', run (watchedStep c) s ls = some s' ∧ containerRunning ∈ s.reported s' := by
  obtain ⟨t, htask⟩ := List.getElem?_of_mem hmem
  cases task with
  | start rec => exact start_reported t rec htask
  | update rec linux =>
    obtain ⟨hlinux, hlive⟩ := h
    cases linux with
    | none => exact absurd rfl hlinux
    | some l =>
      obtain ⟨s₁, hrun, hrecord, hanswers⟩ := watched_stores (c := c) htask rfl
      exact reports_after hrun hanswers (live_reported hrecord hlive)
  | reconcilePut rec =>
    obtain ⟨s₁, hrun, hrecord, hanswers⟩ := watched_stores (c := c) htask rfl
    exact reports_after hrun hanswers (live_reported hrecord h)
  | _ => exact h.elim

/-! ## The status query -/

/-- When nothing is reported as `Running` any more, after the process has ended. -/
theorem neverRunning_iff {s : Watched} (hended : s.alive = false) :
    NeverRunning c s ↔ ExitRecorded s.cell := by
  constructor
  · intro hnever
    constructor
    · intro r hr hlive
      obtain ⟨ls, s', hrun, hmem⟩ := live_reported (c := c) hr hlive
      exact hnever ls s' hrun hmem
    · intro task htask hrevives
      obtain ⟨ls, s', hrun, hmem⟩ := revives_reported (c := c) htask hrevives
      exact hnever ls s' hrun hmem
  · intro hrecorded ls s' hrun
    obtain ⟨post, hpost, hnot⟩ := quiet_run ⟨hended, hrecorded⟩ hrun
    rw [Watched.reported, hpost, List.drop_left]
    exact hnot

/-- **When an exit is noticed.**  The process has ended and a `ContainerStatus` query is made: no
    answer reports `Running` from then on, in any continuation, exactly if the record has already
    left `Running` when the query comes, and no task holds a live copy that it writes back. -/
theorem exit_noticed_iff {s s₁ : Watched} {metaErr : Option String} (hended : s.alive = false)
    (hquery : watchedStep c s (.containerStatus metaErr) = some s₁) :
    NeverRunning c s₁ ↔ ExitRecorded s.cell := by
  cases hquery
  exact neverRunning_iff hended

/-- A container that was running before the restart. -/
def runningContainer : ContainerRecord where
  id := "c1"
  sandboxId := "s1"
  state := running
  logPath := ""
  startedAt := some 1
  finishedAt := none
  exitCode := none
  reason := none
  resources := none
  crunRoot := some "/run/crun"
  bundleDir := some "/run/c1"
  pid := some 7
  stdin := false

def adoptedCtx : Ctx := ⟨"c1", "/run/crun", "/run/c1"⟩

/-- The daemon is restarted and re-adopts it. -/
def readopt : List WatchedLabel :=
  [.cell (.request .reconcile .quiet),
    .cell (.move 0 { Env.quiet with probe := some ⟨"running", some 7⟩ }), .cell (.move 0 .quiet)]

/-- The kubelet stops it after its end: the exit is recorded before the query. -/
def stopAfterEnd : List WatchedLabel :=
  [.ends, .cell (.request (.stopContainer 0) .quiet), .cell (.move 1 .quiet),
    .cell (.move 1 .quiet), .cell (.move 1 .quiet), .cell (.move 1 .quiet), .cell (.move 1 .quiet)]

theorem stopped_exit_noticed :
    ∃ s s₁, run (watchedStep adoptedCtx) ⟨⟨some runningContainer, [], []⟩, true, []⟩
        (.cell .restart :: readopt ++ stopAfterEnd) = some s ∧
      watchedStep adoptedCtx s (.containerStatus none) = some s₁ ∧ NeverRunning adoptedCtx s₁ := by
  refine ⟨_, _, rfl, rfl, (exit_noticed_iff rfl rfl).2 ⟨?_, ?_⟩⟩
  · intro r hr
    cases hr
    rintro (h | h) <;> cases h
  · intro task htask
    rcases List.mem_pair.1 htask with rfl | rfl
    · exact id
    · exact id

/-- **The exit of a re-adopted container is not noticed**: it is recorded as `Running`, its process
    ends, and after a `ContainerStatus` query it is still reported as `Running`. -/
theorem readopted_exit_unnoticed :
    ¬ ∀ (c : Ctx) (s s₁ s₂ : Watched) (before mid after : List WatchedLabel) (env : Env)
        (r : ContainerRecord) (metaErr : Option String),
      run (watchedStep c) s (before ++ .cell .restart :: mid) = some s₁ →
      .cell (.request .reconcile env) ∈ mid →
      s₁.cell.record = some r → r.state = running → s₁.alive = true →
      run (watchedStep c) s₁ (.ends :: after ++ [.containerStatus metaErr]) = some s₂ →
      NeverRunning c s₂ := by
  intro h
  have hnever := h adoptedCtx ⟨⟨some runningContainer, [], []⟩, true, []⟩ _ _ [] readopt [] .quiet _
    none rfl List.mem_cons_self rfl rfl rfl rfl
  exact hnever [.containerStatus none] _ rfl (by decide)

end ContainerdRs.Cri
