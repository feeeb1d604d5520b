import ContainerdRs.Cri.Lifecycle

/-!
# What the moves of a task can do

One case analysis over the tasks of `Lifecycle`, for the properties that follow.

* `advance_does` — where a move goes, what it spawns, stores and launches.
* `advance_of_stores`, `step_of_stores` — a task that is going to store does so.
* `run_settled` — from a state in which every task is harmless, runs stay harmless.
-/

set_option autoImplicit false

namespace ContainerdRs.Cri

open ContainerState Transition

variable {c : Ctx}

/-- The record a task stores in its next move. -/
def stores (c : Ctx) (env : Env) : Task → Option ContainerRecord
  | .start rec =>
    if env.configJson = true ∧ env.ioErr = none ∧ env.metaErr = none then
      some (startRecord c env rec)
    else none
  | .superviseExit code r => if env.metaErr = none then some (exitRecord env code r) else none
  | .stopForce updated => if env.metaErr = none then some (forcedRecord env updated) else none
  | .update rec (some l) =>
    if env.crunErr = none ∧ env.metaErr = none then
      some { rec with resources := some (resourcesRecord l) }
    else none
  | .reconcilePut rec => if env.metaErr = none then some rec else none
  | _ => none

/-- The records stored by a list of effects. -/
def storedRecords (es : List Effect) : List ContainerRecord :=
  es.filterMap fun
    | .put r => some r
    | _ => none

theorem storedRecords_reconcileEffects (env : Env) :
    storedRecords (reconcileEffects env) = [] := by
  unfold reconcileEffects
  split
  · split <;> rfl
  · rfl

theorem applyEffects_reconcileEffects (env : Env) (record : Option ContainerRecord) :
    applyEffects record (reconcileEffects env) = record := by
  unfold reconcileEffects
  split
  · split <;> rfl
  · rfl

/-! ## What a move can do -/

/-- The points a task can go to, with what it has read of the record. -/
inductive Next (record : Option ContainerRecord) : Task → Task → Prop where
  | launched (rec : ContainerRecord) : Next record (.start rec) .startWait
  | started : Next record .startWait (.returned (.ok ()))
  | exitRead (code : Int) {r : ContainerRecord} : record = some r →
      Next record .supervise (.superviseExit code r)
  | exitUnread : Next record .supervise .superviseEnd
  | exitWritten (code : Int) (r : ContainerRecord) :
      Next record (.superviseExit code r) .superviseEnd
  | exitOver : Next record .superviseEnd (.returned (.ok ()))
  | terminated (timeoutSecs : Int) : Next record (.stop timeoutSecs) (.stopDeadline timeoutSecs)
  | waiting (timeoutSecs : Int) : Next record (.stopDeadline timeoutSecs) .stopPoll
  | notWaiting (timeoutSecs : Int) : Next record (.stopDeadline timeoutSecs) .stopKill
  | overflow (timeoutSecs : Int) : Next record (.stopDeadline timeoutSecs) .panicked
  | polled : Next record .stopPoll .stopPoll
  | graceful : Next record .stopPoll .stopReread
  | expired : Next record .stopPoll .stopKill
  | killed : Next record .stopKill .stopReread
  | forces {updated : ContainerRecord} : record = some updated → updated.state ≠ exited →
      Next record .stopReread (.stopForce updated)
  | spared : Next record .stopReread .stopEnd
  | forced (updated : ContainerRecord) : Next record (.stopForce updated) .stopEnd
  | stopped : Next record .stopEnd (.returned (.ok ()))
  | swept : Next record .remove .removeRecord
  | deleted : Next record .removeRecord .removeEnd
  | removed : Next record .removeEnd (.returned (.ok ()))
  | probed (rec rec' : ContainerRecord) : Next record (.reconcile rec) (.reconcilePut rec')
  | reconciled (rec : ContainerRecord) (r : Except String Unit) :
      Next record (.reconcilePut rec) (.reconciled r)
  | updated (rec : ContainerRecord) (linux : Option LinuxContainerResources)
      (r : Except Status Unit) : Next record (.update rec linux) (.returned r)
  | failed (task : Task) (e : Status) : Next record task (.returned (.error e))

/-- The metadata entry after the next move of a task. -/
def entryAfter (c : Ctx) (env : Env) (record : Option ContainerRecord) :
    Task → Option ContainerRecord
  | .removeRecord => if env.metaErr = none then none else record
  | task => (stores c env task).or record

theorem entryAfter_of_ne {env : Env} {record : Option ContainerRecord} {task : Task}
    (h : task ≠ .removeRecord) : entryAfter c env record task = (stores c env task).or record := by
  unfold entryAfter
  split
  · exact absurd rfl h
  · rfl

/-- What a move can do: where the task goes, what it spawns, what it does to the entry, and which
    of its effects are writes and launches. -/
structure Does (c : Ctx) (env : Env) (record : Option ContainerRecord) (task : Task)
    (m : Move) : Prop where
  next : Next record task m.next
  spawn : ∀ x ∈ m.spawn, x = .supervise ∧ ∃ rec, task = .start rec
  entry : applyEffects record m.effects = entryAfter c env record task
  puts : storedRecords m.effects = (stores c env task).toList
  runs : .crunRun ∈ m.effects → ∃ rec, task = .start rec

section Does

variable {env : Env} {record : Option ContainerRecord} {task next : Task}

/-- A move that only goes on. -/
theorem Does.goto (hnext : Next record task next) (hs : stores c env task = none)
    (hdel : task = .removeRecord → env.metaErr ≠ none) : Does c env record task (.goto next) where
  next := hnext
  spawn := by simp [Move.goto]
  entry := by
    by_cases h : task = .removeRecord
    · subst h
      exact (if_neg (hdel rfl)).symm
    · rw [entryAfter_of_ne h, hs]
      rfl
  puts := by
    rw [hs]
    rfl
  runs := by simp [Move.goto]

/-- A move that writes the record back. -/
theorem Does.put {r : ContainerRecord} (hnext : Next record task next)
    (hs : stores c env task = some r) : Does c env record task ⟨next, [], [.put r]⟩ where
  next := hnext
  spawn := by simp
  entry := by
    rw [entryAfter_of_ne (by rintro rfl; cases hs), hs]
    rfl
  puts := by
    rw [hs]
    rfl
  runs := by simp

/-- A move whose effects are neither writes nor launches. -/
theorem Does.outside {es : List Effect} (hnext : Next record task next)
    (hs : stores c env task = none) (hdel : task ≠ .removeRecord)
    (hentry : applyEffects record es = record) (hput : storedRecords es = [])
    (hrun : .crunRun ∉ es) :
    Does c env record task ⟨next, [], es⟩ where
  next := hnext
  spawn := by simp
  entry := by
    rw [entryAfter_of_ne hdel, hs]
    exact hentry
  puts := by
    rw [hs]
    exact hput
  runs := fun h => absurd h hrun

/-- The one case analysis over the tasks. -/
theorem advance_does {m : Move} (h : advance c env record task = some m) :
    Does c env record task m := by
  cases task with
  | returned _ | reconciled _ | panicked => cases h
  | start rec =>
    simp only [advance] at h
    split at h
    · rename_i hc
      cases h
      exact .goto (.failed _ _) (by simp [stores, hc]) (by simp)
    · rename_i hc
      cases hi : env.ioErr <;> cases he : env.metaErr <;> simp only [hi, he] at h <;> cases h
      · have hs : stores c env (.start rec) = some (startRecord c env rec) := by
          simp [stores, hc, hi, he]
        refine ⟨.launched rec, by simp, ?_, ?_, by simp⟩
        · rw [entryAfter_of_ne (by simp), hs]
          rfl
        · rw [hs]
          rfl
      all_goals exact .goto (.failed _ _) (by simp [stores, hi, he]) (by simp)
  | superviseExit code r =>
    simp only [advance] at h
    split at h <;> rename_i he <;> cases h
    · exact .put (.exitWritten code r) (by simp [stores, he])
    · exact .goto (.exitWritten code r) (by simp [stores, he]) (by simp)
  | stopForce updated =>
    simp only [advance] at h
    split at h <;> rename_i he <;> cases h
    · exact .put (.forced updated) (by simp [stores, he])
    · exact .goto (.failed _ _) (by simp [stores, he]) (by simp)
  | reconcilePut rec =>
    simp only [advance] at h
    split at h <;> rename_i he <;> cases h
    · exact .put (.reconciled rec _) (by simp [stores, he])
    · exact .goto (.reconciled rec _) (by simp [stores, he]) (by simp)
  | reconcile rec =>
    cases h
    refine .outside (.probed rec _) rfl (by simp) (applyEffects_reconcileEffects env record)
      (storedRecords_reconcileEffects env) ?_
    unfold reconcileEffects
    split
    · split <;> simp
    · simp
  | update rec linux =>
    simp only [advance] at h
    split at h
    · rename_i he
      cases h
      exact .goto (.updated rec linux _) (by cases linux <;> simp [stores, he]) (by simp)
    · rename_i he
      cases linux <;> cases hm : env.metaErr <;> simp only [hm] at h <;> cases h
      · exact .goto (.updated rec _ _) rfl (by simp)
      · exact .goto (.updated rec _ _) rfl (by simp)
      · exact .put (.updated rec _ _) (by simp [stores, he, hm])
      · exact .goto (.updated rec _ _) (by simp [stores, hm]) (by simp)
  | removeRecord =>
    simp only [advance] at h
    split at h <;> rename_i he <;> cases h
    · refine ⟨.deleted, by simp, ?_, rfl, by simp⟩
      exact (if_pos he).symm
    · exact .goto (.failed _ _) rfl (by simp [he])
  | supervise =>
    simp only [advance] at h
    split at h <;> cases h
    · exact .goto (.exitRead env.code rfl) rfl (by simp)
    · exact .goto .exitUnread rfl (by simp)
  | stopDeadline timeoutSecs =>
    simp only [advance] at h
    split at h
    · split at h <;> cases h
      · exact .goto (.overflow timeoutSecs) rfl (by simp)
      · exact .goto (.waiting timeoutSecs) rfl (by simp)
    · cases h
      exact .goto (.notWaiting timeoutSecs) rfl (by simp)
  | stopPoll =>
    have hwait : Next record .stopPoll (if env.expired then .stopKill else .stopPoll) := by
      split
      · exact .expired
      · exact .polled
    simp only [advance] at h
    split at h
    · split at h <;> cases h
      · exact .goto .graceful rfl (by simp)
      · exact .goto hwait rfl (by simp)
    · cases h
      exact .goto hwait rfl (by simp)
  | stopReread =>
    simp only [advance] at h
    split at h
    · split at h <;> cases h
      · rename_i hstate
        exact .goto (.forces rfl hstate) rfl (by simp)
      · exact .goto .spared rfl (by simp)
    · cases h
      exact .goto .spared rfl (by simp)
  | startWait | superviseEnd | stop _ | stopKill | stopEnd | remove | removeEnd =>
    cases h
    exact .outside (by constructor) rfl (by simp) rfl rfl (by simp)

theorem Does.mem_puts {m : Move} (h : Does c env record task m) {r : ContainerRecord}
    (hr : .put r ∈ m.effects) : stores c env task = some r := by
  have hmem : r ∈ storedRecords m.effects := List.mem_filterMap.2 ⟨_, hr, rfl⟩
  rw [h.puts] at hmem
  exact Option.mem_toList.1 hmem

/-- A task that is going to store does so. -/
theorem advance_of_stores {r : ContainerRecord} (h : stores c env task = some r) :
    ∃ m, advance c env record task = some m ∧ .put r ∈ m.effects := by
  cases task with
  | start rec =>
    simp only [stores, Option.ite_none_right_eq_some, Option.some.injEq] at h
    obtain ⟨⟨hc, hi, he⟩, rfl⟩ := h
    simp [advance, hc, hi, he]
  | superviseExit code rec =>
    simp only [stores, Option.ite_none_right_eq_some, Option.some.injEq] at h
    obtain ⟨he, rfl⟩ := h
    simp [advance, he]
  | stopForce updated =>
    simp only [stores, Option.ite_none_right_eq_some, Option.some.injEq] at h
    obtain ⟨he, rfl⟩ := h
    simp [advance, he]
  | reconcilePut rec =>
    simp only [stores, Option.ite_none_right_eq_some, Option.some.injEq] at h
    obtain ⟨he, rfl⟩ := h
    simp [advance, he]
  | update rec linux =>
    cases linux with
    | none => cases h
    | some l =>
      simp only [stores, Option.ite_none_right_eq_some, Option.some.injEq] at h
      obtain ⟨⟨he, hm⟩, rfl⟩ := h
      simp [advance, he, hm]
  | _ => cases h

end Does

/-! ## Harmless tasks -/

/-- A step that brings no request outside `p`. -/
def Label.Within (p : Request → Prop) : Label → Prop
  | .request r _ => p r
  | .move _ _ => True
  | .restart => True

/-- Every task is in `Q`, and the record in `R`. -/
structure Settled (Q : Task → Prop) (R : Option ContainerRecord → Prop) (s : St) : Prop where
  tasks : ∀ task ∈ s.tasks, Q task
  record : R s.record

theorem mem_take {s : St} {t : Nat} {m : Move} {task : Task} (h : task ∈ (s.take t m).tasks) :
    task ∈ s.tasks ∨ task = m.next ∨ task ∈ m.spawn := by
  rcases List.mem_append.1 h with h | h
  · rcases List.mem_or_eq_of_mem_set h with h | h
    · exact .inl h
    · exact .inr (.inl h)
  · exact .inr (.inr h)

/-- What a move is, out of a step. -/
theorem step_move {s s' : St} {t : Nat} {env : Env} (h : step c s (.move t env) = some s') :
    ∃ task m, s.tasks[t]? = some task ∧ advance c env s.record task = some m ∧ s' = s.take t m := by
  simp only [step] at h
  split at h
  · cases h
  · rename_i task htask
    obtain ⟨m, hm, rfl⟩ := Option.map_eq_some_iff.1 h
    exact ⟨task, m, htask, hm, rfl⟩

section Settled

variable {Q : Task → Prop} {R : Option ContainerRecord → Prop} {Good : Effect → Prop}
  {p : Request → Prop}

/-- The requests `p` and the moves of tasks in `Q` keep every task in `Q` and the record in `R`,
    and their effects are `Good`. -/
structure Harmless (c : Ctx) (p : Request → Prop) (Q : Task → Prop)
    (R : Option ContainerRecord → Prop) (Good : Effect → Prop) : Prop where
  begins : ∀ {env record r}, R record → p r → Q (begin c env record r)
  advances : ∀ {env record task m}, R record → Q task → advance c env record task = some m →
    R (applyEffects record m.effects) ∧ Q m.next ∧ (∀ x ∈ m.spawn, Q x) ∧ ∀ e ∈ m.effects, Good e

theorem Harmless.step (h : Harmless c p Q R Good) {s s' : St} {l : Label} (hs : Settled Q R s)
    (hl : l.Within p) (hstep : step c s l = some s') :
    Settled Q R s' ∧ ∃ post, s'.trace = s.trace ++ post ∧ ∀ e ∈ post, Good e := by
  cases l with
  | request r env =>
    cases hstep
    refine ⟨⟨?_, hs.record⟩, [], (List.append_nil _).symm, by simp⟩
    intro task htask
    rcases List.mem_append.1 htask with htask | htask
    · exact hs.tasks task htask
    · rw [List.mem_singleton.1 htask]
      exact h.begins hs.record hl
  | move t env =>
    obtain ⟨task, m, htask, hm, rfl⟩ := step_move hstep
    obtain ⟨hR, hnext, hspawn, hgood⟩ :=
      h.advances hs.record (hs.tasks task (List.mem_of_getElem? htask)) hm
    refine ⟨⟨?_, hR⟩, m.effects, rfl, hgood⟩
    intro x hx
    rcases mem_take hx with hx | rfl | hx
    · exact hs.tasks x hx
    · exact hnext
    · exact hspawn x hx
  | restart =>
    cases hstep
    exact ⟨⟨by simp, hs.record⟩, [], (List.append_nil _).symm, by simp⟩

/-- From a settled state on, a run stays settled and only adds good effects. -/
theorem run_settled (h : Harmless c p Q R Good) : ∀ {ls : List Label} {s s' : St}, Settled Q R s →
    (∀ l ∈ ls, l.Within p) → run (step c) s ls = some s' →
    Settled Q R s' ∧ ∃ post, s'.trace = s.trace ++ post ∧ ∀ e ∈ post, Good e
  | [], s, s', hs, _, hrun => by
    simp only [run, Option.some.injEq] at hrun
    subst hrun
    exact ⟨hs, [], (List.append_nil _).symm, by simp⟩
  | l :: ls, s, s', hs, hls, hrun => by
    obtain ⟨s₁, hstep, hrun⟩ := run_cons_some hrun
    obtain ⟨hs₁, post₁, htrace₁, hgood₁⟩ := h.step hs (hls l List.mem_cons_self) hstep
    obtain ⟨hs', post, htrace, hgood⟩ :=
      run_settled h hs₁ (fun x hx => hls x (List.mem_cons_of_mem _ hx)) hrun
    refine ⟨hs', post₁ ++ post, ?_, ?_⟩
    · rw [htrace, htrace₁, List.append_assoc]
    · intro e he
      rcases List.mem_append.1 he with he | he
      · exact hgood₁ e he
      · exact hgood e he

end Settled

/-- The effects that the rest of a run adds to those of `s`. -/
def since (s s' : St) : List Effect := s'.trace.drop s.trace.length

theorem since_eq {s s' : St} {post : List Effect} (h : s'.trace = s.trace ++ post) :
    since s s' = post := by
  rw [since, h, List.drop_left]

theorem mem_since {s s₁ s' : St} {e : Effect} (h : s.trace.length ≤ s₁.trace.length)
    (he : e ∈ since s₁ s') : e ∈ since s s' :=
  List.drop_subset_drop_left _ h he

/-- A task that is going to store, as a step of the system. -/
theorem step_of_stores {s : St} {t : Nat} {task : Task} {env : Env} {r : ContainerRecord}
    (htask : s.tasks[t]? = some task) (h : stores c env task = some r) :
    ∃ s', step c s (.move t env) = some s' ∧ s'.record = some r ∧ .put r ∈ since s s' := by
  obtain ⟨m, hm, hput⟩ : ∃ m, advance c env s.record task = some m ∧ .put r ∈ m.effects :=
    advance_of_stores h
  refine ⟨s.take t m, by simp [step, htask, hm], ?_, ?_⟩
  · have hentry := (advance_does hm).entry
    rw [entryAfter_of_ne (by rintro rfl; cases h), h] at hentry
    exact hentry
  · rw [since_eq rfl]
    exact hput

/-- The other tasks stand where they stood. -/
theorem getElem?_take {s : St} {t j : Nat} {m : Move} {task : Task} (h : s.tasks[j]? = some task)
    (hne : j ≠ t) : (s.take t m).tasks[j]? = some task := by
  have hj : j < (s.tasks.set t m.next).length := by
    rw [List.length_set]
    exact (List.getElem?_eq_some_iff.1 h).1
  show (s.tasks.set t m.next ++ m.spawn)[j]? = some task
  rw [List.getElem?_append_left hj]
  exact getElem?_set_other h hne

/-- The task at `i` after a move. -/
theorem getElem?_take_cases {s : St} {t i : Nat} {m : Move} {x : Task}
    (h : (s.take t m).tasks[i]? = some x) :
    (i = t ∧ x = m.next) ∨ (i ≠ t ∧ s.tasks[i]? = some x) ∨ x ∈ m.spawn := by
  replace h : (s.tasks.set t m.next ++ m.spawn)[i]? = some x := h
  rcases Nat.lt_or_ge i (s.tasks.set t m.next).length with hlt | hge
  · rw [List.getElem?_append_left hlt] at h
    rcases getElem?_set_cases h with h | h
    · exact .inl h
    · exact .inr (.inl h)
  · rw [List.getElem?_append_right hge] at h
    exact .inr (.inr (List.mem_of_getElem? h))

end ContainerdRs.Cri
