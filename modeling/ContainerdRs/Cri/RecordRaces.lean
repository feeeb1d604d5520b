import ContainerdRs.Cri.StateHistory

/-!
# Read copies that outlive their record

The handlers of one container read its record, wait for crun and write their copy back.  What
follows is about the three writes after which nothing should be written: the delete of
`remove_container`, the exit that the supervision task records, and the launch of
`start_container`.  Each is final exactly when no task holds a copy from before it.

* `removal_final_iff` — when nothing is stored after a delete.
* `exit_kept_iff` — when the exit of the supervision task stays.
* `launch_once` — when `crun run` is launched at most once.
-/

set_option autoImplicit false

namespace ContainerdRs.Cri

open ContainerState Transition

variable {c : Ctx}

/-! ## Removal -/

/-- The task holds a copy of the record that it is going to write back. -/
def Task.Holds : Task → Prop
  | .start _ => True
  | .superviseExit _ _ => True
  | .stopForce _ => True
  | .update _ linux => linux ≠ none
  | .reconcile _ => True
  | .reconcilePut _ => True
  | _ => False

theorem stores_eq_none {env : Env} {task : Task} (h : ¬ task.Holds) : stores c env task = none := by
  cases task with
  | start _ | superviseExit _ _ | stopForce _ | reconcile _ | reconcilePut _ =>
    exact absurd trivial h
  | update rec linux =>
    cases linux with
    | none => rfl
    | some l => exact absurd (Option.some_ne_none l) h
  | _ => rfl

/-- Without a record and without a copy, nothing is stored. -/
theorem removed_harmless (c : Ctx) :
    Harmless c (fun _ => True) (fun task => ¬ task.Holds) (· = none)
      (fun e => ∀ r, e ≠ .put r) where
  begins := by
    rintro env record r rfl -
    cases r with
    | removeContainer => exact id
    | startContainer | stopContainer _ | updateContainerResources _ | reconcile =>
      simp only [begin]
      split <;> simp_all [Task.Holds]
  advances := by
    rintro env record task m rfl htask hm
    have hdoes := advance_does hm
    have hstores : stores c env task = none := stores_eq_none htask
    refine ⟨?_, ?_, ?_, ?_⟩
    · rw [hdoes.entry]
      unfold entryAfter
      split
      · split <;> rfl
      · rw [hstores]
        rfl
    · -- a copy comes from a record or from an earlier copy
      intro hnext
      have h := hdoes.next
      generalize m.next = next at h hnext
      cases h <;> first | exact hnext | exact htask trivial | contradiction
    · intro x hx
      obtain ⟨rfl, -⟩ := hdoes.spawn x hx
      exact id
    · rintro e he r rfl
      rw [hdoes.mem_puts he] at hstores
      cases hstores

/-- A copy can always be written back. -/
theorem Task.Holds.stores_later {s : St} {j : Nat} {task : Task} (h : task.Holds)
    (hj : s.tasks[j]? = some task) :
    ∃ ls s' r, run (step c) s ls = some s' ∧ .put r ∈ since s s' := by
  have hone : (∃ r, stores c .quiet task = some r) →
      ∃ ls s' r, run (step c) s ls = some s' ∧ .put r ∈ since s s' := by
    rintro ⟨r, hr⟩
    obtain ⟨s', hstep, -, hput⟩ := step_of_stores hj hr
    exact ⟨[.move j .quiet], s', r, by simp [run, hstep], hput⟩
  cases task with
  | start rec | superviseExit code rec | stopForce rec | reconcilePut rec => exact hone ⟨_, rfl⟩
  | update rec linux =>
    cases linux with
    | none => exact absurd rfl h
    | some l => exact hone ⟨_, rfl⟩
  | reconcile rec =>
    -- two moves: the probe and the write
    obtain ⟨s₁, hs₁, htrace, hj₁⟩ : ∃ s₁, step c s (.move j .quiet) = some s₁ ∧
        s₁.trace = s.trace ++ reconcileEffects .quiet ∧
        s₁.tasks[j]? = some (.reconcilePut (reconcileRecord c .quiet rec)) := by
      have hlt := (List.getElem?_eq_some_iff.1 hj).1
      refine ⟨s.take j ⟨.reconcilePut (reconcileRecord c .quiet rec), [], reconcileEffects .quiet⟩,
        by simp [step, hj, advance], rfl, by simp [St.take, hlt]⟩
    have hr : stores c .quiet (.reconcilePut (reconcileRecord c .quiet rec)) =
        some (reconcileRecord c .quiet rec) := rfl
    obtain ⟨s', hstep, -, hput⟩ := step_of_stores hj₁ hr
    refine ⟨[.move j .quiet, .move j .quiet], s', reconcileRecord c .quiet rec,
      by simp [run, hs₁, hstep], ?_⟩
    exact mem_since (by simp [htrace]) hput
  | _ => exact h.elim

/-- No step stores a record any more, whatever is still to come. -/
def Final (c : Ctx) (s : St) : Prop :=
  ∀ ls s', run (step c) s ls = some s' → ∀ r, .put r ∉ since s s'

/-- **Removal is final.**  After the delete of `remove_container` no step stores a record again,
    in any continuation, exactly if no task holds a copy at that moment. -/
theorem removal_final_iff {s s₁ : St} {t : Nat} {env : Env}
    (htask : s.tasks[t]? = some .removeRecord) (hok : env.metaErr = none)
    (hstep : step c s (.move t env) = some s₁) :
    Final c s₁ ↔ ∀ task ∈ s.tasks, ¬ task.Holds := by
  have hs₁ : s₁ = s.take t ⟨.removeEnd, [], [.deleteRecord]⟩ := by
    simpa [step, htask, advance, hok] using hstep.symm
  subst hs₁
  constructor
  · intro hfinal task hmem hholds
    obtain ⟨j, hj⟩ := List.getElem?_of_mem hmem
    have hne : j ≠ t := by
      rintro rfl
      rw [htask] at hj
      cases hj
      exact hholds
    obtain ⟨ls, s', r, hrun, hput⟩ := hholds.stores_later (getElem?_take hj hne)
    exact hfinal ls s' hrun r hput
  · intro hnone ls s' hrun r hput
    have hsettled : Settled (fun task => ¬ task.Holds) (· = none)
        (s.take t ⟨.removeEnd, [], [.deleteRecord]⟩) := by
      refine ⟨?_, rfl⟩
      intro task hmem
      rcases mem_take hmem with hmem | rfl | hmem
      · exact hnone task hmem
      · exact id
      · cases hmem
    obtain ⟨-, post, htrace, hgood⟩ := run_settled (removed_harmless c) hsettled
      (fun l _ => by cases l <;> trivial) hrun
    rw [since_eq htrace] at hput
    exact hgood _ hput r rfl

/-- `RemoveContainer` alone, up to its delete. -/
def removeAlone : List Label := [.request .removeContainer .quiet, .move 0 .quiet]

theorem remove_alone_final : ∃ s s₁,
    run (step ⟨"c1", "/run/crun", "/run/c1"⟩) ⟨some createdRecord, [], []⟩ removeAlone = some s ∧
      step ⟨"c1", "/run/crun", "/run/c1"⟩ s (.move 0 .quiet) = some s₁ ∧ s₁.record = none ∧
      Final ⟨"c1", "/run/crun", "/run/c1"⟩ s₁ := by
  obtain ⟨s, hs, htasks⟩ : ∃ s,
      run (step ⟨"c1", "/run/crun", "/run/c1"⟩) ⟨some createdRecord, [], []⟩ removeAlone = some s ∧
        s.tasks = [.removeRecord] := ⟨_, rfl, rfl⟩
  have htask : s.tasks[0]? = some .removeRecord := by rw [htasks]; rfl
  obtain ⟨s₁, hs₁, hrecord⟩ : ∃ s₁,
      step ⟨"c1", "/run/crun", "/run/c1"⟩ s (.move 0 .quiet) = some s₁ ∧ s₁.record = none := by
    simp only [step, htask]
    exact ⟨_, rfl, rfl⟩
  refine ⟨s, s₁, hs, hs₁, hrecord, (removal_final_iff htask rfl hs₁).2 ?_⟩
  intro task hmem
  rw [htasks, List.mem_singleton] at hmem
  subst hmem
  exact id

/-- The delete of `RemoveContainer` comes between the `get` and the `put` of `StartContainer`. -/
def removeInStart : List Label :=
  [.request .startContainer .quiet, .request .removeContainer .quiet, .move 1 .quiet]

/-- `StartContainer` stores the record again. -/
theorem start_revives_removed :
    ¬ ∀ (c : Ctx) (r₀ : ContainerRecord) (ls : List Label) (s s₁ : St) (t : Nat) (env : Env),
      run (step c) ⟨some r₀, [], []⟩ ls = some s → s.tasks[t]? = some .removeRecord →
        env.metaErr = none → step c s (.move t env) = some s₁ → Final c s₁ := by
  intro h
  have hfinal := h ⟨"c1", "/run/crun", "/run/c1"⟩ createdRecord removeInStart _ _ 1 .quiet rfl rfl
    rfl rfl
  exact hfinal [.move 0 .quiet] _ rfl _ List.mem_cons_self

/-! ## Exit codes -/

/-- `StopContainer`, with any timeout. -/
def Request.IsStop (r : Request) : Prop := ∃ timeout, r = .stopContainer timeout

/-- The supervision task before its write. -/
def Task.Supervises : Task → Prop
  | .supervise => True
  | .superviseExit _ _ => True
  | _ => False

/-- The tasks of a supervised container that is only stopped. -/
def Task.Stopping : Task → Prop
  | .start _ | .startWait | .update _ _ | .remove | .removeRecord | .removeEnd | .reconcile _
  | .reconcilePut _ | .reconciled _ => False
  | _ => True

theorem Next.stopping {record : Option ContainerRecord} {task next : Task}
    (h : Next record task next) (hs : task.Stopping) :
    next.Stopping ∧ (next.Supervises → task.Supervises) := by
  cases h with
  | exitRead code hr => exact ⟨trivial, id⟩
  | launched | started | swept | deleted | removed | probed | reconciled | updated => exact hs.elim
  | _ => exact ⟨trivial, False.elim⟩

/-- A container with one supervision task, the first of the tasks, that is only stopped. -/
structure Supervised (s : St) : Prop where
  stopping : ∀ task ∈ s.tasks, task.Stopping
  first : ∀ i task, s.tasks[i]? = some task → task.Supervises → i = 0

theorem begin_stop (c : Ctx) (env : Env) (record : Option ContainerRecord) (timeout : Int) :
    (begin c env record (.stopContainer timeout)).Stopping ∧
      ¬ (begin c env record (.stopContainer timeout)).Supervises := by
  simp only [begin]
  split
  · exact ⟨trivial, id⟩
  · exact ⟨trivial, id⟩
  · split <;> exact ⟨trivial, id⟩

theorem supervised_step {s s' : St} {l : Label} (hs : Supervised s)
    (hl : l.Within Request.IsStop) (hstep : step c s l = some s') : Supervised s' := by
  cases l with
  | restart =>
    cases hstep
    exact ⟨by simp, by simp⟩
  | request r env =>
    obtain ⟨timeout, rfl⟩ := hl
    cases hstep
    obtain ⟨hstopping, hno⟩ := begin_stop c env s.record timeout
    refine ⟨?_, ?_⟩
    · intro task htask
      rcases List.mem_append.1 htask with htask | htask
      · exact hs.stopping task htask
      · rw [List.mem_singleton.1 htask]
        exact hstopping
    · intro i task hi hsup
      rcases Nat.lt_or_ge i s.tasks.length with hlt | hge
      · rw [List.getElem?_append_left hlt] at hi
        exact hs.first i task hi hsup
      · rw [List.getElem?_append_right hge] at hi
        have hnew := List.mem_singleton.1 (List.mem_of_getElem? hi)
        exact absurd (hnew ▸ hsup) hno
  | move t env =>
    obtain ⟨task, m, htask, hm, rfl⟩ := step_move hstep
    have hdoes := advance_does hm
    have hstop := hs.stopping task (List.mem_of_getElem? htask)
    obtain ⟨hnext, hsup⟩ := hdoes.next.stopping hstop
    have hspawn : m.spawn = [] := by
      apply List.eq_nil_iff_forall_not_mem.2
      intro x hx
      obtain ⟨-, rec, rfl⟩ := hdoes.spawn x hx
      exact hstop
    refine ⟨?_, ?_⟩
    · intro x hx
      rcases mem_take hx with hx | rfl | hx
      · exact hs.stopping x hx
      · exact hnext
      · rw [hspawn] at hx
        cases hx
    · intro i x hi hx
      rcases getElem?_take_cases hi with ⟨rfl, rfl⟩ | ⟨-, hi⟩ | hnew
      · exact hs.first i task htask (hsup hx)
      · exact hs.first i x hi hx
      · rw [hspawn] at hnew
        cases hnew

/-- What `ContainerStatus` shows of the end of a container. -/
def outcome (r : ContainerRecord) : ContainerState × Option Int × Option String :=
  (r.state, r.exitCode, r.reason)

/-- A task that cannot store over an exited record. -/
def Task.Spent (task : Task) : Prop :=
  task.Stopping ∧ ¬ task.Supervises ∧ ∀ updated, task ≠ .stopForce updated

theorem Task.Spent.stores_eq_none {env : Env} {task : Task} (h : task.Spent) :
    stores c env task = none := by
  obtain ⟨hstop, hsup, hforce⟩ := h
  cases task with
  | start _ | update _ _ | reconcilePut _ => exact hstop.elim
  | superviseExit _ _ => exact absurd trivial hsup
  | stopForce updated => exact absurd rfl (hforce updated)
  | _ => rfl

theorem spent_harmless (c : Ctx) {r : ContainerRecord} (hr : r.state = exited) :
    Harmless c Request.IsStop Task.Spent (· = some r) (fun e => ∀ r, e ≠ .put r) where
  begins := by
    rintro env record _ rfl ⟨timeout, rfl⟩
    obtain ⟨hstop, hsup⟩ := begin_stop c env (some r) timeout
    refine ⟨hstop, hsup, ?_⟩
    intro updated hforce
    simp only [begin] at hforce
    split at hforce <;> simp_all
  advances := by
    rintro env record task m rfl htask hm
    have hdoes := advance_does hm
    have hstores : stores c env task = none := htask.stores_eq_none
    obtain ⟨hnext, hsup⟩ := hdoes.next.stopping htask.1
    refine ⟨?_, ⟨hnext, fun h => htask.2.1 (hsup h), ?_⟩, ?_, ?_⟩
    · rw [hdoes.entry, entryAfter_of_ne, hstores]
      · rfl
      · rintro rfl
        exact htask.1
    · -- the guard of step 4 sees the exited record
      intro updated hforce
      have h := hdoes.next
      rw [hforce] at h
      cases h with
      | forces hrec hstate =>
        cases hrec
        exact hstate hr
    · intro x hx
      obtain ⟨-, rec, rfl⟩ := hdoes.spawn x hx
      exact htask.1.elim
    · rintro e he r' rfl
      rw [hdoes.mem_puts he] at hstores
      cases hstores

/-- The exit the supervision task stored is still there, and nothing was stored since. -/
def Kept (r : ContainerRecord) (s₁ s' : St) : Prop :=
  s'.record.map outcome = some (outcome r) ∧ ∀ r', .put r' ∉ since s₁ s'

/-- **Exit codes are not lost.**  A container is supervised and stopped, by any number of calls
    with any timeouts.  What the supervision task stores stays, in any continuation, exactly if
    no `stop_container` stands between its re-read and its write at that moment. -/
theorem exit_kept_iff {first : Option ContainerRecord} {ls : List Label} {s s₁ : St} {t : Nat}
    {env : Env} {code : Int} {r : ContainerRecord} (hls : ∀ l ∈ ls, l.Within Request.IsStop)
    (hrun : run (step c) ⟨first, [.supervise], []⟩ ls = some s)
    (htask : s.tasks[t]? = some (.superviseExit code r)) (hok : env.metaErr = none)
    (hstep : step c s (.move t env) = some s₁) :
    (∀ ls' s', (∀ l ∈ ls', l.Within Request.IsStop) → run (step c) s₁ ls' = some s' →
        Kept (exitRecord env code r) s₁ s') ↔
      ∀ task ∈ s.tasks, ∀ updated, task ≠ .stopForce updated := by
  have hinv : ∀ (s : St) (l : Label) (s' : St), Supervised s → l.Within Request.IsStop →
      step c s l = some s' → Supervised s' := fun _ _ _ hi hl h => supervised_step hi hl h
  have hsup : Supervised s := by
    refine run_invariant hinv ls _ s ?_ ?_ hrun
    · refine ⟨by simp [Task.Stopping], ?_⟩
      intro i task hi _
      have hlt := (List.getElem?_eq_some_iff.1 hi).1
      simp only [List.length_singleton] at hlt
      omega
    · intro x hx
      exact hls _ (label_mem_of_mem_steps ls _ x hx)
  have hs₁ : s₁ = s.take t ⟨.superviseEnd, [], [.put (exitRecord env code r)]⟩ := by
    simpa [step, htask, advance, hok] using hstep.symm
  subst hs₁
  constructor
  · rintro hkept task hmem updated rfl
    obtain ⟨j, hj⟩ := List.getElem?_of_mem hmem
    have hne : j ≠ t := by
      rintro rfl
      rw [htask] at hj
      cases hj
    have hforce : stores c .quiet (.stopForce updated) = some (forcedRecord .quiet updated) := rfl
    obtain ⟨s', hs', -, hput⟩ := step_of_stores (getElem?_take hj hne) hforce
    exact (hkept [.move j .quiet] s' (by simp [Label.Within]) (by simp [run, hs'])).2 _ hput
  · intro hnone ls' s' hls' hrun'
    have hsettled : Settled Task.Spent (· = some (exitRecord env code r))
        (s.take t ⟨.superviseEnd, [], [.put (exitRecord env code r)]⟩) := by
      refine ⟨?_, rfl⟩
      intro task hmem
      obtain ⟨i, hi⟩ := List.getElem?_of_mem hmem
      rcases getElem?_take_cases hi with ⟨-, rfl⟩ | ⟨hne, hi⟩ | hnew
      · exact ⟨trivial, id, by simp⟩
      · have hmem' := List.mem_of_getElem? hi
        refine ⟨hsup.stopping task hmem', ?_, hnone task hmem'⟩
        intro hsecond
        exact hne ((hsup.first i task hi hsecond).trans (hsup.first t _ htask trivial).symm)
      · cases hnew
    obtain ⟨hs', post, htrace, hgood⟩ := run_settled (spent_harmless c rfl) hsettled hls' hrun'
    refine ⟨by rw [hs'.record]; rfl, ?_⟩
    intro r' hput
    rw [since_eq htrace] at hput
    exact hgood _ hput r' rfl

/-- A container that runs. -/
def runningRecord : ContainerRecord := { createdRecord with state := running }

/-- The supervision task reads the record while `StopContainer` waits for the exit. -/
def exitWhileStopping : List Label :=
  [.request (.stopContainer 10) .quiet, .move 1 .quiet, .move 1 .quiet, .move 0 .quiet]

theorem exit_while_stopping_kept : ∃ s s₁,
    run (step ⟨"c1", "/run/crun", "/run/c1"⟩) ⟨some runningRecord, [.supervise], []⟩
        exitWhileStopping = some s ∧
      step ⟨"c1", "/run/crun", "/run/c1"⟩ s (.move 0 .quiet) = some s₁ ∧
      ∀ ls' s', (∀ l ∈ ls', l.Within Request.IsStop) →
        run (step ⟨"c1", "/run/crun", "/run/c1"⟩) s₁ ls' = some s' →
          Kept (exitRecord .quiet 0 runningRecord) s₁ s' := by
  obtain ⟨s, hs, htasks⟩ : ∃ s,
      run (step ⟨"c1", "/run/crun", "/run/c1"⟩) ⟨some runningRecord, [.supervise], []⟩
          exitWhileStopping = some s ∧
        s.tasks = [.superviseExit 0 runningRecord, .stopPoll] := ⟨_, rfl, rfl⟩
  have htask : s.tasks[0]? = some (.superviseExit 0 runningRecord) := by rw [htasks]; rfl
  obtain ⟨s₁, hs₁⟩ : ∃ s₁, step ⟨"c1", "/run/crun", "/run/c1"⟩ s (.move 0 .quiet) = some s₁ := by
    simp only [step, htask]
    exact ⟨_, rfl⟩
  have hls : ∀ l ∈ exitWhileStopping, l.Within Request.IsStop := by
    simp [exitWhileStopping, Label.Within, Request.IsStop]
  refine ⟨s, s₁, hs, hs₁, (exit_kept_iff hls hs htask rfl hs₁).2 ?_⟩
  simp [htasks]

/-- `StopContainer` with timeout 0 has re-read the record when the supervision task gets its
    turn. -/
def exitBehindReread : List Label :=
  [.request (.stopContainer 0) .quiet, .move 1 .quiet, .move 1 .quiet, .move 1 .quiet,
    .move 1 .quiet, .move 0 .quiet]

/-- The exit code 0 that was stored is overwritten by the forced -1. -/
theorem forced_exit_overwrites :
    ¬ ∀ (c : Ctx) (r₀ : ContainerRecord) (ls ls' : List Label) (s s₁ s' : St) (t : Nat) (env : Env)
        (code : Int) (r : ContainerRecord),
      (∀ l ∈ ls ++ ls', l.Within Request.IsStop) →
      run (step c) ⟨some r₀, [.supervise], []⟩ ls = some s →
        s.tasks[t]? = some (.superviseExit code r) → env.metaErr = none →
        step c s (.move t env) = some s₁ → run (step c) s₁ ls' = some s' →
          Kept (exitRecord env code r) s₁ s' := by
  intro h
  have hls : ∀ l ∈ exitBehindReread ++ [.move 1 .quiet], l.Within Request.IsStop := by
    simp [exitBehindReread, Label.Within, Request.IsStop]
  have hkept := h ⟨"c1", "/run/crun", "/run/c1"⟩ runningRecord exitBehindReread [.move 1 .quiet]
    _ _ _ 0 .quiet 0 runningRecord hls rfl rfl rfl rfl rfl
  have hcode := hkept.1
  revert hcode
  decide

/-! ## At most one launch -/

/-- `StartContainer`. -/
def Request.IsStart (r : Request) : Prop := r = .startContainer

/-- The launches of `crun run`. -/
def launches (s : St) : Nat := s.trace.count .crunRun

/-- The tasks of a container that is only started. -/
def Task.Starting : Task → Prop
  | .start _ | .startWait | .supervise | .superviseExit _ _ | .superviseEnd | .returned _ => True
  | _ => False

/-- A start that is past the `Created` check and has not launched yet. -/
def Task.Starts (task : Task) : Prop := ∃ rec, task = .start rec

/-- The condition on a step, on the state before it: when a `start_container` launches, no other
    one is past its `Created` check. -/
def LaunchAlone (c : Ctx) (s : St) : Label → Prop
  | .move t env => ∀ rec, s.tasks[t]? = some (.start rec) → (stores c env (.start rec)).isSome →
      ∀ j task, s.tasks[j]? = some task → task.Starts → j = t
  | _ => True

theorem Next.starting {record : Option ContainerRecord} {task next : Task}
    (h : Next record task next) (hs : task.Starting) : next.Starting ∧ ¬ next.Starts := by
  cases h with
  | launched | started | exitRead | exitUnread | exitWritten | exitOver | failed =>
    exact ⟨trivial, by simp [Task.Starts]⟩
  | _ => exact hs.elim

theorem begin_start (c : Ctx) (env : Env) (record : Option ContainerRecord) :
    (begin c env record .startContainer).Starting ∧
      ((begin c env record .startContainer).Starts → ∃ r, record = some r ∧ r.state = created) := by
  simp only [begin]
  split
  · exact ⟨trivial, by simp [Task.Starts]⟩
  · exact ⟨trivial, by simp [Task.Starts]⟩
  · rename_i rec _
    split
    · exact ⟨trivial, by simp [Task.Starts]⟩
    · rename_i hstate
      exact ⟨trivial, fun _ => ⟨rec, rfl, not_not.1 hstate⟩⟩

/-- Behind a launch, no start gets past the `Created` check. -/
theorem launched_harmless (c : Ctx) :
    Harmless c Request.IsStart (fun task => task.Starting ∧ ¬ task.Starts)
      (fun record => ∀ r, record = some r → r.state ≠ created) (· ≠ .crunRun) where
  begins := by
    rintro env record _ hrec rfl
    obtain ⟨hstarting, hstarts⟩ := begin_start c env record
    refine ⟨hstarting, fun h => ?_⟩
    obtain ⟨r, hr, hstate⟩ := hstarts h
    exact hrec r hr hstate
  advances := by
    rintro env record task m hrec ⟨hstarting, hno⟩ hm
    have hdoes := advance_does hm
    refine ⟨?_, hdoes.next.starting hstarting, ?_, ?_⟩
    · rw [hdoes.entry, entryAfter_of_ne (by rintro rfl; exact hstarting)]
      intro r hr
      cases task with
      | superviseExit code r' =>
        simp only [stores] at hr
        split at hr
        · cases hr
          simp [exitRecord]
        · exact hrec r hr
      | start rec => exact absurd ⟨rec, rfl⟩ hno
      | startWait | supervise | superviseEnd | returned _ => exact hrec r hr
      | _ => exact hstarting.elim
    · intro x hx
      obtain ⟨-, rec, rfl⟩ := hdoes.spawn x hx
      exact absurd ⟨rec, rfl⟩ hno
    · rintro e he rfl
      obtain ⟨rec, rfl⟩ := hdoes.runs he
      exact hno ⟨rec, rfl⟩

/-- The invariant: nothing was launched, or one launch is behind us and none is to come. -/
structure AtMostOnce (s : St) : Prop where
  starting : ∀ task ∈ s.tasks, task.Starting
  once : launches s = 0 ∨ (launches s = 1 ∧
    Settled (fun task => task.Starting ∧ ¬ task.Starts)
      (fun record => ∀ r, record = some r → r.state ≠ created) s)

/-- The move that launches. -/
theorem advance_launch {env : Env} {record : Option ContainerRecord} {rec : ContainerRecord}
    {m : Move} (h : advance c env record (.start rec) = some m) (hrun : .crunRun ∈ m.effects) :
    stores c env (.start rec) = some (startRecord c env rec) ∧
      m = ⟨.startWait, [.supervise], [.put (startRecord c env rec), .crunRun]⟩ := by
  simp only [advance] at h
  split at h
  · cases h
    simp [Move.goto] at hrun
  · rename_i hc
    cases hi : env.ioErr <;> cases he : env.metaErr <;> simp only [hi, he] at h <;> cases h
    · exact ⟨by simp [stores, hc, hi, he], rfl⟩
    all_goals simp [Move.goto] at hrun

/-- Behind a launch that meets the condition, no start is past its check. -/
theorem settled_launch {s : St} {t : Nat} {env : Env} {rec : ContainerRecord}
    (htask : s.tasks[t]? = some (.start rec))
    (hstores : stores c env (.start rec) = some (startRecord c env rec))
    (hok : LaunchAlone c s (.move t env))
    (hall : ∀ x ∈ (s.take t ⟨.startWait, [.supervise],
      [.put (startRecord c env rec), .crunRun]⟩).tasks, x.Starting) :
    Settled (fun task => task.Starting ∧ ¬ task.Starts)
      (fun record => ∀ r, record = some r → r.state ≠ created)
      (s.take t ⟨.startWait, [.supervise], [.put (startRecord c env rec), .crunRun]⟩) := by
  constructor
  · intro x hx
    refine ⟨hall x hx, fun hstarts => ?_⟩
    obtain ⟨i, hi⟩ := List.getElem?_of_mem hx
    rcases getElem?_take_cases hi with ⟨-, rfl⟩ | ⟨hne, hi⟩ | hnew
    · simp [Task.Starts] at hstarts
    · exact hne (hok rec htask (by simp [hstores]) i x hi hstarts)
    · simp only [List.mem_singleton] at hnew
      subst hnew
      simp [Task.Starts] at hstarts
  · rintro r ⟨⟩
    simp [startRecord]

theorem atMostOnce_step {s s' : St} {l : Label} (hs : AtMostOnce s)
    (hl : l.Within Request.IsStart) (hok : LaunchAlone c s l) (hstep : step c s l = some s') :
    AtMostOnce s' := by
  rcases hs.once with hzero | ⟨hone, hsettled⟩
  · cases l with
    | restart =>
      cases hstep
      exact ⟨by simp, .inl hzero⟩
    | request r env =>
      obtain rfl : r = .startContainer := hl
      cases hstep
      refine ⟨?_, .inl hzero⟩
      intro task htask
      rcases List.mem_append.1 htask with htask | htask
      · exact hs.starting task htask
      · rw [List.mem_singleton.1 htask]
        exact (begin_start c env s.record).1
    | move t env =>
      obtain ⟨task, m, htask, hm, rfl⟩ := step_move hstep
      have hdoes := advance_does hm
      have hstarting := hs.starting task (List.mem_of_getElem? htask)
      have hall : ∀ x ∈ (s.take t m).tasks, x.Starting := by
        intro x hx
        rcases mem_take hx with hx | rfl | hx
        · exact hs.starting x hx
        · exact (hdoes.next.starting hstarting).1
        · rw [(hdoes.spawn x hx).1]
          trivial
      have hcount : launches (s.take t m) = m.effects.count .crunRun := by
        show (s.trace ++ m.effects).count .crunRun = _
        rw [List.count_append]
        simp only [launches] at hzero
        omega
      refine ⟨hall, ?_⟩
      by_cases hrun : .crunRun ∈ m.effects
      · -- the launch: no other start is past its check
        obtain ⟨rec, rfl⟩ := hdoes.runs hrun
        obtain ⟨hstores, rfl⟩ := advance_launch hm hrun
        exact .inr ⟨hcount.trans rfl, settled_launch htask hstores hok hall⟩
      · exact .inl (hcount.trans (List.count_eq_zero.2 hrun))
  · obtain ⟨hsettled', post, htrace, hgood⟩ := (launched_harmless c).step hsettled hl hstep
    have hpost : post.count .crunRun = 0 := List.count_eq_zero.2 fun h => hgood _ h rfl
    refine ⟨fun task htask => (hsettled'.tasks task htask).1, .inr ⟨?_, hsettled'⟩⟩
    simp only [launches] at hone ⊢
    rw [htrace, List.count_append]
    omega

/-- A start that stores its record launches. -/
theorem launches_step {s : St} {t : Nat} {env : Env} {rec : ContainerRecord}
    (htask : s.tasks[t]? = some (.start rec)) (h : (stores c env (.start rec)).isSome) :
    step c s (.move t env) =
      some (s.take t ⟨.startWait, [.supervise], [.put (startRecord c env rec), .crunRun]⟩) := by
  have hok : env.configJson = true ∧ env.ioErr = none ∧ env.metaErr = none := by
    by_contra hno
    simp [stores, hno] at h
  simp [step, htask, advance, hok]

theorem launches_take (s : St) (t : Nat) (r : ContainerRecord) :
    launches (s.take t ⟨.startWait, [.supervise], [.put r, .crunRun]⟩) = launches s + 1 := by
  show (s.trace ++ [Effect.put r, .crunRun]).count .crunRun = _
  rw [List.count_append]
  rfl

/-- **At-most-once start.**  In a run of any number of `StartContainer` calls, `crun run` is
    launched at most once if every launch meets `LaunchAlone`; and where one does not, the next
    step can be a second launch. -/
theorem launch_once (c : Ctx) (first : Option ContainerRecord) :
    (∀ (ls : List Label) (s : St), (∀ l ∈ ls, l.Within Request.IsStart) →
      run (step c) ⟨first, [], []⟩ ls = some s →
      (∀ x ∈ steps (step c) ⟨first, [], []⟩ ls, LaunchAlone c x.1 x.2.1) → launches s ≤ 1) ∧
    ∀ (s s₁ : St) (t : Nat) (env : Env), ¬ LaunchAlone c s (.move t env) →
      step c s (.move t env) = some s₁ →
        ∃ j s', step c s₁ (.move j .quiet) = some s' ∧ 1 < launches s' := by
  constructor
  · intro ls s hls hrun hok
    have hinv : ∀ (s : St) (l : Label) (s' : St), AtMostOnce s →
        (l.Within Request.IsStart ∧ LaunchAlone c s l) → step c s l = some s' → AtMostOnce s' :=
      fun _ _ _ hi hl h => atMostOnce_step hi hl.1 hl.2 h
    have hend : AtMostOnce s := by
      refine run_invariant hinv ls _ s ⟨by simp, .inl rfl⟩ (fun x hx => ⟨?_, hok x hx⟩) hrun
      exact hls _ (label_mem_of_mem_steps ls _ x hx)
    rcases hend.once with h | ⟨h, -⟩ <;> omega
  · intro s s₁ t env hnot hstep
    simp only [LaunchAlone, not_forall] at hnot
    obtain ⟨rec, htask, hstores, j, task, hj, ⟨rec', rfl⟩, hne⟩ := hnot
    obtain rfl := Option.some.inj ((launches_step htask hstores).symm.trans hstep)
    have hready : (stores c .quiet (.start rec')).isSome := rfl
    refine ⟨j, _, launches_step (getElem?_take hj hne) hready, ?_⟩
    rw [launches_take, launches_take]
    omega

/-- Two `StartContainer` calls, the second behind the launch of the first. -/
def startAgain : List Label :=
  [.request .startContainer .quiet, .move 0 .quiet, .request .startContainer .quiet]

theorem start_again_once : ∃ s,
    run (step ⟨"c1", "/run/crun", "/run/c1"⟩) ⟨some createdRecord, [], []⟩ startAgain = some s ∧
      launches s ≤ 1 := by
  obtain ⟨s, hs⟩ : ∃ s, run (step ⟨"c1", "/run/crun", "/run/c1"⟩) ⟨some createdRecord, [], []⟩
      startAgain = some s := ⟨_, rfl⟩
  refine ⟨s, hs, (launch_once _ _).1 startAgain s ?_ hs ?_⟩
  · simp [startAgain, Label.Within, Request.IsStart]
  · -- the only launch finds one task
    have hone : ∀ (j : Nat) (task : Task),
        [Task.start createdRecord][j]? = some task → task.Starts → j = 0 := by
      intro j task hj _
      have hlt := (List.getElem?_eq_some_iff.1 hj).1
      simp only [List.length_singleton] at hlt
      omega
    simp [startAgain, steps, step, begin, advance, Env.quiet, createdRecord, St.take,
      applyEffects, Effect.apply, startRecord, LaunchAlone]
    exact fun _ => hone

/-- Two `StartContainer` calls that both read `Created`, and both go on. -/
def startTwice : List Label :=
  [.request .startContainer .quiet, .request .startContainer .quiet, .move 0 .quiet, .move 1 .quiet]

theorem two_starts_launch_twice :
    ¬ ∀ (c : Ctx) (r₀ : ContainerRecord) (ls : List Label) (s : St),
      (∀ l ∈ ls, l.Within Request.IsStart) → run (step c) ⟨some r₀, [], []⟩ ls = some s →
        launches s ≤ 1 := by
  intro h
  have hls : ∀ l ∈ startTwice, l.Within Request.IsStart := by
    simp [startTwice, Label.Within, Request.IsStart]
  have honce := h ⟨"c1", "/run/crun", "/run/c1"⟩ createdRecord startTwice _ hls rfl
  revert honce
  decide

end ContainerdRs.Cri
