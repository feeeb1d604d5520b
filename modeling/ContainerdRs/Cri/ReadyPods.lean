import ContainerdRs.Cri.PodSteps

/-!
# One ready sandbox for each pod

`run_pod_sandbox` lists the sandboxes, writes those of the same pod back as `NotReady`, one after
another, and stores its own record last, so that the kubelet does not see
`readySandboxCount > 1`.  These are separate transactions: what another request stores in between
is not in the list.

* `ReadyInv` — what a request that has listed still has to demote is in its list.
* `readyInv_step` — one step keeps it, if it is safe.
* `one_ready_sandbox` — over every run: one ready sandbox for each pod, of a request that has
  returned `Ok`.
* `overlapping_runs_leave_two_ready` — two requests that list before either stores.
-/

set_option autoImplicit false

namespace ContainerdRs.Cri.Pod

open Metadata Transition

/-! ## The promise -/

/-- Two records of one pod: the same namespace, name and uid. -/
def SamePod (a b : SandboxRecord) : Prop :=
  a.k8sNamespace = b.k8sNamespace ∧ a.name = b.name ∧ a.uid = b.uid

/-- The record stored under `id`, if it is `Ready`. -/
def ReadyAt (s : St) (id : String) (rec : SandboxRecord) : Prop :=
  get s.sandboxes ns id = some rec ∧ rec.state = .ready

/-- **One ready sandbox for each pod**, and it is that of a `run_pod_sandbox` that has returned
    `Ok`. -/
structure OneReady (s : St) : Prop where
  one : ∀ id id' rec rec', ReadyAt s id rec → ReadyAt s id' rec' → SamePod rec rec' → id = id'
  ran : ∀ id rec, ReadyAt s id rec → rec.id = id ∧ .returned (.ran rec) ∈ s.tasks

/-- Every request has returned. -/
def AllReturned (s : St) : Prop := ∀ task ∈ s.tasks, ∃ a, task = .returned a

/-- A step of `RunPodSandbox` and `StopPodSandbox` requests, or of the host. -/
def Label.RunsOrStops : Label → Prop
  | .runPodSandbox _ _ => True
  | .stopPodSandbox _ _ => True
  | .move _ _ => True
  | .ends _ => True
  | .starts _ => True
  | _ => False

/-! ## The condition -/

/-- No stored record is superseded by `rec`. -/
def NoneSuperseded (s : St) (rec : SandboxRecord) : Prop :=
  ∀ id other, get s.sandboxes ns id = some other → superseded rec other = false

/-- The condition on the step of a request.  A list that fails would have shown no sandbox of the
    pod; a demotion that fails is of a record that is no longer ready; and a new record is stored
    while no other request for the pod is between its list and its own write. -/
def Task.ReadySafe (s : St) (t : Nat) (env : PodEnv) : Task → Prop
  | .run rec => env.listFails = true → NoneSuperseded s rec
  | .demote rec (other :: _) => superseded rec other = true → env.demoteFails other.id = true →
      ∀ stored, get s.sandboxes ns other.id = some stored → superseded rec stored = false
  | .demote rec [] => env.putErr = none →
      ∀ t' rec' existing, t' ≠ t → s.tasks[t']? = some (.demote rec' existing) →
        superseded rec' rec = false
  | _ => True

/-- The condition on a step, on the state before it. -/
def ReadySafe (s : St) : Label → Prop
  | .move t env => ∀ task, s.tasks[t]? = some task → task.ReadySafe s t env
  | _ => True

/-! ## The invariant -/

/-- What a request that has listed still has to demote is in its list. -/
def Listed (s : St) : Task → Prop
  | .demote rec existing =>
      ∀ id other, get s.sandboxes ns id = some other → superseded rec other = true →
        other ∈ existing
  | _ => True

structure ReadyInv (s : St) : Prop where
  keyed : Keyed s
  ready : OneReady s
  listed : ∀ task ∈ s.tasks, Listed s task

theorem superseded_iff {rec other : SandboxRecord} :
    superseded rec other = true ↔ other.id ≠ rec.id ∧ other.state = .ready ∧ SamePod other rec := by
  simp only [superseded, SamePod, Bool.and_eq_true, bne_iff_ne, beq_iff_eq]
  constructor
  · rintro ⟨⟨⟨⟨h₁, h₂⟩, h₃⟩, h₄⟩, h₅⟩
    exact ⟨h₁, h₂, h₄, h₃, h₅⟩
  · rintro ⟨h₁, h₂, h₄, h₃, h₅⟩
    exact ⟨⟨⟨⟨h₁, h₂⟩, h₃⟩, h₄⟩, h₅⟩

theorem readyInv_start (procs : Int → Option Proc) : ReadyInv (St.start procs) where
  keyed := keyed_start procs
  ready := by
    constructor
    · rintro id id' rec rec' ⟨h, -⟩
      cases h
    · rintro id rec ⟨h, -⟩
      cases h
  listed := by
    intro task h
    cases h

/-- A request begins. -/
theorem ReadyInv.push {s : St} (hi : ReadyInv s) {task : Task} {procs : Int → Option Proc}
    (hkeyed : Keyed ({ s with procs := procs }.push task)) (hlisted : Listed s task) :
    ReadyInv ({ s with procs := procs }.push task) where
  keyed := hkeyed
  ready := by
    refine ⟨hi.ready.one, ?_⟩
    intro id rec h
    obtain ⟨hid, hran⟩ := hi.ready.ran id rec h
    exact ⟨hid, mem_push.2 (.inl hran)⟩
  listed := by
    intro task' hmem
    rcases mem_push.1 hmem with hmem | rfl
    · exact hi.listed task' hmem
    · exact hlisted

/-! ## The step of a request -/

/-- A ready record after a step was there before, or is the one that `run_pod_sandbox` stores. -/
theorem readyAt_take {s : St} (hk : Keyed s) {t : Nat} {env : PodEnv} {task : Task} {m : Move}
    (htask : s.tasks[t]? = some task) (hm : advance env s.sandboxes task = some m) {id : String}
    {rec : SandboxRecord} (h : ReadyAt (s.take t m) id rec) :
    ReadyAt s id rec ∨
      task = .demote rec [] ∧ env.putErr = none ∧ id = rec.id ∧ m.next = .returned (.ran rec) := by
  obtain ⟨hget, hready⟩ := h
  rcases get_applyWrite hget with hw | hget
  · rcases advance_put hm hw with ⟨_, _, _, _, _, _, rfl⟩ | hput | ⟨killed, rfl⟩
    · cases hready
    · exact .inr hput
    · have hkeyed := hk.copies _ (List.mem_of_getElem? htask)
      rw [hkeyed.2.1] at hready
      cases hready
  · exact .inl ⟨hget, hready⟩

/-- A request that has returned stays. -/
theorem returned_mem_take {s : St} {t : Nat} {env : PodEnv} {task : Task} {m : Move} {a : Answer}
    (htask : s.tasks[t]? = some task) (hm : advance env s.sandboxes task = some m)
    (h : .returned a ∈ s.tasks) : .returned a ∈ (s.take t m).tasks := by
  obtain ⟨t', ht'⟩ := List.getElem?_of_mem h
  have hne : t' ≠ t := by
    rintro rfl
    rw [htask] at ht'
    cases ht'
    cases hm
  exact mem_set_other ht' hne

/-- The stored record of a pod, when a request has gone through its list. -/
theorem ReadyInv.id_eq {s : St} (hi : ReadyInv s) {rec rec' : SandboxRecord} {id : String}
    (hmem : .demote rec [] ∈ s.tasks) (h : ReadyAt s id rec') (hpod : SamePod rec' rec) :
    id = rec.id := by
  by_contra hne
  have hid : rec'.id = id := hi.keyed.stored id rec' h.1
  have hsup : superseded rec rec' = true :=
    superseded_iff.2 ⟨fun heq => hne (hid.symm.trans heq), h.2, hpod⟩
  have hlisted := hi.listed _ hmem id rec' h.1 hsup
  cases hlisted

theorem SamePod.symm {a b : SandboxRecord} (h : SamePod a b) : SamePod b a :=
  ⟨h.1.symm, h.2.1.symm, h.2.2.symm⟩

theorem oneReady_take {s : St} (hi : ReadyInv s) {t : Nat} {env : PodEnv} {task : Task} {m : Move}
    (htask : s.tasks[t]? = some task) (hm : advance env s.sandboxes task = some m) :
    OneReady (s.take t m) := by
  have hmem : task ∈ s.tasks := List.mem_of_getElem? htask
  have hlt : t < s.tasks.length := (List.getElem?_eq_some_iff.1 htask).1
  constructor
  · intro id id' rec rec' h h' hpod
    rcases readyAt_take hi.keyed htask hm h with h | ⟨rfl, -, rfl, -⟩
    · rcases readyAt_take hi.keyed htask hm h' with h' | ⟨rfl, -, rfl, -⟩
      · exact hi.ready.one id id' rec rec' h h' hpod
      · exact hi.id_eq hmem h hpod
    · rcases readyAt_take hi.keyed htask hm h' with h' | ⟨htasks, -, rfl, -⟩
      · exact (hi.id_eq hmem h' hpod.symm).symm
      · cases htasks
        rfl
  · intro id rec h
    rcases readyAt_take hi.keyed htask hm h with h | ⟨rfl, -, rfl, hnext⟩
    · obtain ⟨hid, hran⟩ := hi.ready.ran id rec h
      exact ⟨hid, returned_mem_take htask hm hran⟩
    · refine ⟨rfl, ?_⟩
      rw [← hnext]
      exact List.mem_set hlt _

/-- A superseded record is ready. -/
theorem readyAt_of_superseded {s : St} {id : String} {rec other : SandboxRecord}
    (hget : get s.sandboxes ns id = some other) (hsup : superseded rec other = true) :
    ReadyAt s id other :=
  ⟨hget, (superseded_iff.1 hsup).2.1⟩

/-- The list of another request still has all it has to demote. -/
theorem listed_others {s : St} (hi : ReadyInv s) {t t' : Nat} {env : PodEnv} {task task' : Task}
    {m : Move} (htask : s.tasks[t]? = some task) (hm : advance env s.sandboxes task = some m)
    (hsafe : task.ReadySafe s t env) (hne : t' ≠ t) (htask' : s.tasks[t']? = some task') :
    Listed (s.take t m) task' := by
  have hlisted := hi.listed task' (List.mem_of_getElem? htask')
  cases task' with
  | demote rec' existing =>
    intro id other hget hsup
    rcases readyAt_take hi.keyed htask hm (readyAt_of_superseded hget hsup) with
      h | ⟨rfl, hput, rfl, -⟩
    · exact hlisted id other h.1 hsup
    · -- a record of the same pod would be stored behind its back
      rw [hsafe hput t' rec' existing hne htask'] at hsup
      cases hsup
  | _ => trivial

/-- The list of the request that moves. -/
theorem listed_next {s : St} (hi : ReadyInv s) {t : Nat} {env : PodEnv} {task : Task} {m : Move}
    (htask : s.tasks[t]? = some task) (hm : advance env s.sandboxes task = some m)
    (hsafe : task.ReadySafe s t env) : Listed (s.take t m) m.next := by
  have hmem : task ∈ s.tasks := List.mem_of_getElem? htask
  cases task with
  | run rec =>
    cases hm
    intro id other hget hsup
    unfold Pod.listed
    split
    · rename_i hfails
      have hnone := hsafe hfails id other hget
      rw [hnone] at hsup
      cases hsup
    · exact mem_list.2 ⟨id, hget⟩
  | demote rec existing =>
    cases existing with
    | nil =>
      simp only [advance] at hm
      split at hm <;> cases hm <;> trivial
    | cons head existing =>
      have hlisted := hi.listed _ hmem
      simp only [advance] at hm
      split at hm
      · -- the head is demoted
        cases hm
        intro id other hget hsup
        have hready := (superseded_iff.1 hsup).2.1
        rw [St.take, get_apply_put] at hget
        split at hget
        · cases hget
          cases hready
        · rename_i hid
          rcases List.mem_cons.1 (hlisted id other hget hsup) with rfl | h
          · exact absurd (hi.keyed.stored id other hget).symm hid
          · exact h
      · -- the head is left as it is: it is not superseded, or its write fails
        rename_i hleft
        cases hm
        intro id other hget hsup
        have hget : get s.sandboxes ns id = some other := hget
        rcases List.mem_cons.1 (hlisted id other hget hsup) with rfl | h
        · have hfails : env.demoteFails other.id = true := by simpa [hsup] using hleft
          have hid := hi.keyed.stored id other hget
          subst hid
          rw [hsafe hsup hfails other hget] at hsup
          cases hsup
        · exact h
  | stop id rec | remove id rec =>
    cases hm
    trivial
  | stopPut id rec killed | removeDelete id killed | create req sandbox =>
    simp only [advance] at hm
    split at hm <;> cases hm <;> trivial
  | returned a => cases hm

/-! ## Runs -/

/-- One step keeps the invariant, if it is safe and no request is cut off. -/
theorem readyInv_step {s s' : St} {l : Label} (hi : ReadyInv s) (hrestart : l ≠ .restart)
    (hreboot : l ≠ .reboot) (hsafe : ReadySafe s l) (h : step s l = some s') : ReadyInv s' := by
  have hkeyed := keyed_step hi.keyed h
  cases l with
  | runPodSandbox config env =>
    rcases step_run h with ⟨e, rfl⟩ | ⟨rec, -, hbegin⟩
    · exact hi.push hkeyed trivial
    · rcases begin_cases hbegin with ⟨-, rfl⟩ | ⟨p, -, -, rfl⟩
      · exact hi.push hkeyed trivial
      · exact hi.push hkeyed trivial
  | stopPodSandbox id env =>
    cases h
    refine hi.push hkeyed ?_
    unfold stopBegin
    split <;> trivial
  | removePodSandbox id env =>
    cases h
    refine hi.push hkeyed ?_
    unfold removeBegin
    split <;> trivial
  | createContainer req env =>
    cases h
    refine hi.push hkeyed ?_
    unfold createBegin
    split <;> trivial
  | move t env =>
    obtain ⟨task, m, htask, hm, rfl⟩ := step_move h
    refine ⟨hkeyed, oneReady_take hi htask hm, ?_⟩
    intro task' hmem
    rcases mem_take_others hmem with ⟨t', hne, htask'⟩ | rfl
    · exact listed_others hi htask hm (hsafe task htask) hne htask'
    · exact listed_next hi htask hm (hsafe task htask)
  | ends p =>
    cases h
    exact ⟨hkeyed, ⟨hi.ready.one, hi.ready.ran⟩, hi.listed⟩
  | starts p =>
    simp only [step] at h
    split at h
    · cases h
      exact ⟨hkeyed, ⟨hi.ready.one, hi.ready.ran⟩, hi.listed⟩
    · cases h
  | restart => exact absurd rfl hrestart
  | reboot => exact absurd rfl hreboot

/-- **One ready sandbox for each pod.**  In every run of requests whose steps are safe, from empty
    stores, there is in every state at most one ready record for each namespace, name and uid, and
    it is the one that a `run_pod_sandbox` has stored that has returned `Ok`. -/
theorem one_ready_sandbox (procs : Int → Option Proc) (ls : List Label) (s : St)
    (hlabels : ∀ l ∈ ls, l ≠ .restart ∧ l ≠ .reboot)
    (hsafe : ∀ x ∈ steps step (St.start procs) ls, ReadySafe x.1 x.2.1)
    (hrun : run step (St.start procs) ls = some s) : OneReady s := by
  have hstep : ∀ (s : St) (l : Label) (s' : St), ReadyInv s →
      ((l ≠ .restart ∧ l ≠ .reboot) ∧ ReadySafe s l) → step s l = some s' → ReadyInv s' :=
    fun s l s' hi hok h => readyInv_step hi hok.1.1 hok.1.2 hok.2 h
  refine (run_invariant hstep ls (St.start procs) s (readyInv_start procs) ?_ hrun).ready
  intro x hx
  exact ⟨hlabels _ (label_mem_of_mem_steps ls _ x hx), hsafe x hx⟩

/-- A pod, and a request to run it. -/
def webPod : PodSandboxConfig where
  metadata := some { name := "web", uid := "u1", podNamespace := "default" }
  logDirectory := ""
  namespaceOptions := some ⟨modeNode, modeContainer, modeContainer, none⟩

def runWeb (id : String) : Label := .runPodSandbox (some webPod) (.quiet id)

/-- The second request begins when the first has returned. -/
def runsInTurn : List Label :=
  [runWeb "a", .move 0 (.quiet ""), .move 0 (.quiet ""), runWeb "b", .move 1 (.quiet ""),
    .move 1 (.quiet ""), .move 1 (.quiet "")]

/-- The first sandbox is demoted. -/
theorem second_run_demotes :
    ∃ s, run step (St.start fun _ => none) runsInTurn = some s ∧ OneReady s ∧
      (get s.sandboxes ns "a").map (·.state) = some .notReady ∧
      (get s.sandboxes ns "b").map (·.state) = some .ready := by
  refine ⟨_, rfl, one_ready_sandbox (fun _ => none) runsInTurn _ ?_ ?_ rfl, rfl, rfl⟩
  · simp [runsInTurn, runWeb]
  · unfold runsInTurn
    iterate 7 rw [steps_cons _ rfl]
    simp only [steps, List.forall_mem_cons]
    refine ⟨trivial, ?_, ?_, trivial, ?_, ?_, ?_, by simp⟩
    · rintro _ ⟨⟩ h
      cases h
    · -- the first request is alone
      rintro _ ⟨⟩ - (_ | t') rec existing hne ht
      · exact absurd rfl hne
      · cases ht
    · rintro _ ⟨⟩ h
      cases h
    · rintro _ ⟨⟩ - h
      cases h
    · rintro _ ⟨⟩ - (_ | _ | t') rec existing hne ht
      · cases ht
      · exact absurd rfl hne
      · cases ht

/-- Two requests list before either stores. -/
def overlappingRuns : List Label :=
  [runWeb "a", runWeb "b", .move 0 (.quiet ""), .move 1 (.quiet ""), .move 0 (.quiet ""),
    .move 1 (.quiet "")]

/-- **Both sandboxes are ready**, once both requests have returned. -/
theorem overlapping_runs_leave_two_ready :
    ¬ ∀ (procs : Int → Option Proc) (ls : List Label) (s : St), (∀ l ∈ ls, l.RunsOrStops) →
      run step (St.start procs) ls = some s → AllReturned s → OneReady s := by
  intro h
  obtain ⟨s, hrun, hreturned, a, b, ha, hb, hpod⟩ :
      ∃ s, run step (St.start fun _ => none) overlappingRuns = some s ∧ AllReturned s ∧
        ∃ a b, ReadyAt s "a" a ∧ ReadyAt s "b" b ∧ SamePod a b := by
    refine ⟨_, rfl, ?_, _, _, ⟨rfl, rfl⟩, ⟨rfl, rfl⟩, rfl, rfl, rfl⟩
    intro task hmem
    rcases List.mem_pair.1 hmem with rfl | rfl
    · exact ⟨_, rfl⟩
    · exact ⟨_, rfl⟩
  have hready := h _ overlappingRuns s (by simp [overlappingRuns, runWeb, Label.RunsOrStops]) hrun
    hreturned
  exact absurd (hready.one "a" "b" a b ha hb hpod) (by decide)

end ContainerdRs.Cri.Pod
