import ContainerdRs.Cri.Sandboxes
import ContainerdRs.Lib.Transition
import Mathlib.Logic.Function.Basic

/-!
# Pod requests, step by step

The requests of `Sandboxes` broken up at the metadata store and at the host: any number of them in
flight, interleaved in any order.  A step is one read or write of the table of sandboxes, or one
`kill`.  The host has processes under pids that the kernel gives out again once they are free; the
daemon may be restarted and the host rebooted at any moment.

* `advance` — one step of a request that has begun; `step` — one step of the system.
* `advance_put` — what a request may write; `keyed_step` — records stay under their ids.
* `run_alone`, `stop_alone`, `remove_alone`, `create_alone` — a request that nothing interrupts
  does what its handler in `Sandboxes` says.
-/

set_option autoImplicit false

namespace ContainerdRs.Cri.Pod

open Metadata Transition

/-! ## States -/

/-- A process of the host: what `spawn_holder` has created for a sandbox, or anything else. -/
inductive Proc where
  | holder (sandbox : String)
  | other
  deriving DecidableEq, Repr

/-- What a request has returned. -/
inductive Answer where
  /-- `run_pod_sandbox`: `Ok`, with the id of the record it has stored. -/
  | ran (rec : SandboxRecord)
  | created (rec : ContainerRecord)
  | done
  | failed (e : Status)
  deriving DecidableEq, Repr

/-- A request in flight, at the place where it waits. -/
inductive Task where
  /-- `run_pod_sandbox`, before and after it has listed the table. -/
  | run (rec : SandboxRecord)
  | demote (rec : SandboxRecord) (existing : List SandboxRecord)
  /-- `stop_pod_sandbox`, with the record it has read; then before its `put`. -/
  | stop (id : String) (rec : SandboxRecord)
  | stopPut (id : String) (rec : SandboxRecord) (killed : Option Int)
  /-- `remove_pod_sandbox`, with the record it has read, if any; then before its `delete`. -/
  | remove (id : String) (rec : Option SandboxRecord)
  | removeDelete (id : String) (killed : Option Int)
  /-- `create_container`, with the sandbox it has read. -/
  | create (req : CreateContainerRequest) (sandbox : SandboxRecord)
  | returned (a : Answer)

structure St where
  sandboxes : Table SandboxRecord
  procs : Int → Option Proc
  tasks : List Task

/-- A daemon with empty stores, on a host where `procs` run. -/
def St.start (procs : Int → Option Proc) : St := ⟨OrdMap.empty, procs, []⟩

/-! ## Requests -/

/-- `run_pod_sandbox`, up to the record it is going to store. -/
def runBegin (env : PodEnv) (config : Option PodSandboxConfig) : Except Status SandboxRecord :=
  match config with
  | none => .error ⟨.invalidArgument, "pod sandbox config required"⟩
  | some config =>
    match usernsOf (config.namespaceOptions.bind (·.usernsOptions)) with
    | .error e => .error e
    | .ok userns =>
      let hostNetwork := config.namespaceOptions.any (·.network == modeNode)
      match hostNetwork, env.cniErr with
      | false, some e =>
        .error ⟨.unavailable, "CNI network setup failed for sandbox " ++ env.id ++ ": " ++ e⟩
      | _, _ =>
        .ok (sandboxRecord env config (if hostNetwork then "host" else env.netnsPath) userns)

/-- `create_container`, what it checks before it writes down the namespaces to join. -/
def createChecked (env : PodEnv) (req : CreateContainerRequest) :
    Except Status ContainerConfig := do
  let config ← okOr req.config ⟨.invalidArgument, "container config required"⟩
  statusErr env.imageErr
  validateRunAs config
  config.mounts.forM validateMount
  return config

/-- `create_container`, once the sandbox is read. -/
def createRest (env : PodEnv) (req : CreateContainerRequest) (sandbox : SandboxRecord) :
    Except Status ContainerRecord := do
  let config ← createChecked env req
  internalErr env.bundleErr
  statusErr env.unpackErr
  chownRootfs env sandbox
  internalErr env.specErr
  internalErr env.writeErr
  internalErr env.putErr
  return {
    id := env.id
    sandboxId := req.podSandboxId
    state := .created
    logPath := storedLogPath sandbox config.logPath
    startedAt := none
    finishedAt := none
    exitCode := none
    reason := none
    resources := config.resources.map resourcesRecord
    crunRoot := none
    bundleDir := none
    pid := none
    stdin := config.stdin }

/-- The holder whose PID namespace a container joins: the pid in `/proc/<pid>/ns/pid`. -/
def pidNsPid (sandbox : SandboxRecord) : Option Int :=
  if sandbox.sharedPid then sandbox.pidHolderPid else none

/-- The same for the IPC namespace: the pid in `/proc/<pid>/ns/ipc`. -/
def ipcNsPid (sandbox : SandboxRecord) : Option Int :=
  if sandbox.sharedIpc then sandbox.pidHolderPid else none

/-- `ContainerRequest::pid_ns_path` and `ipc_ns_path`. -/
def nsPaths (sandbox : SandboxRecord) : Option String × Option String :=
  ((pidNsPid sandbox).map fun p => "/proc/" ++ toString p ++ "/ns/pid",
    (ipcNsPid sandbox).map fun p => "/proc/" ++ toString p ++ "/ns/ipc")

/-- The pids in the paths. -/
def joinPids (sandbox : SandboxRecord) : List Int :=
  (pidNsPid sandbox).toList ++ (ipcNsPid sandbox).toList

/-- The pids that one `create_container` writes into its paths, if it gets that far. -/
def createJoins (env : PodEnv) (req : CreateContainerRequest) (sandbox : SandboxRecord) :
    List Int :=
  match createChecked env req with
  | .ok _ => joinPids sandbox
  | .error _ => []

/-! ## Steps -/

/-- A write to the table of sandboxes. -/
inductive Write where
  | put (id : String) (rec : SandboxRecord)
  | delete (id : String)

/-- The table after a write. -/
def applyWrite (t : Table SandboxRecord) : Option Write → Table SandboxRecord
  | none => t
  | some (.put id rec) => Metadata.put t ns id rec
  | some (.delete id) => (Metadata.delete t ns id).2

/-- What one step of a request does: where it stands then, its write, the pid it passes to
    `kill_holder`, and the pids it writes into join paths. -/
structure Move where
  next : Task
  write : Option Write := none
  kill : Option Int := none
  joins : List Int := []

/-- The records that `run_pod_sandbox` goes through: none, if the table cannot be listed. -/
def listed (env : PodEnv) (t : Table SandboxRecord) : List SandboxRecord :=
  if env.listFails then [] else list t ns

/-- One step of a request. -/
def advance (env : PodEnv) (t : Table SandboxRecord) : Task → Option Move
  | .run rec => some { next := .demote rec (listed env t) }
  | .demote rec (other :: existing) =>
    if superseded rec other && !env.demoteFails other.id then
      some { next := .demote rec existing
             write := some (.put other.id { other with state := .notReady }) }
    else some { next := .demote rec existing }
  | .demote rec [] =>
    match env.putErr with
    | some e => some { next := .returned (.failed ⟨.internal, e⟩) }
    | none => some { next := .returned (.ran rec), write := some (.put rec.id rec) }
  | .stop id rec =>
    -- `pid_holder_pid.take()`
    some { next := .stopPut id { rec with state := .notReady, pidHolderPid := none }
             rec.pidHolderPid
           kill := rec.pidHolderPid }
  | .stopPut id rec _ =>
    match env.putErr with
    | some e => some { next := .returned (.failed ⟨.internal, e⟩) }
    | none => some { next := .returned .done, write := some (.put id rec) }
  | .remove id rec =>
    some { next := .removeDelete id (rec.bind (·.pidHolderPid))
           kill := rec.bind (·.pidHolderPid) }
  | .removeDelete id _ =>
    match env.deleteErr with
    | some e => some { next := .returned (.failed ⟨.internal, e⟩) }
    | none => some { next := .returned .done, write := some (.delete id) }
  | .create req sandbox =>
    match createRest env req sandbox with
    | .ok rec => some { next := .returned (.created rec), joins := createJoins env req sandbox }
    | .error e => some { next := .returned (.failed e), joins := createJoins env req sandbox }
  | .returned _ => none

/-- The processes after `kill_holder`. -/
def kill (procs : Int → Option Proc) : Option Int → Int → Option Proc
  | none => procs
  | some p => Function.update procs p none

/-- Request `t` takes a step. -/
def St.take (s : St) (t : Nat) (m : Move) : St where
  sandboxes := applyWrite s.sandboxes m.write
  procs := kill s.procs m.kill
  tasks := s.tasks.set t m.next

/-- A request begins. -/
def St.push (s : St) (task : Task) : St := { s with tasks := s.tasks ++ [task] }

inductive Label where
  | runPodSandbox (config : Option PodSandboxConfig) (env : PodEnv)
  | stopPodSandbox (id : String) (env : PodEnv)
  | removePodSandbox (id : String) (env : PodEnv)
  | createContainer (req : CreateContainerRequest) (env : PodEnv)
  | move (t : Nat) (env : PodEnv)
  /-- A process ends of itself; the kernel gives a free pid to a process. -/
  | ends (pid : Int)
  | starts (pid : Int)
  | restart
  | reboot

/-- `run_pod_sandbox` begins: the holder gets a pid that is free. -/
def St.begin (s : St) (rec : SandboxRecord) : Option St :=
  match rec.pidHolderPid with
  | none => some (s.push (.run rec))
  | some p =>
    if 0 < p ∧ s.procs p = none then
      some ({ s with procs := Function.update s.procs p (some (.holder rec.id)) }.push (.run rec))
    else none

/-- What `stop_pod_sandbox` finds. -/
def stopBegin (env : PodEnv) (t : Table SandboxRecord) (id : String) : Task :=
  match env.getErr, get t ns id with
  | some e, _ => .returned (.failed ⟨.internal, e⟩)
  | none, none => .returned .done
  | none, some rec => .stop id rec

/-- What `remove_pod_sandbox` finds: an error of the store is passed over. -/
def removeBegin (env : PodEnv) (t : Table SandboxRecord) (id : String) : Task :=
  match env.getErr with
  | some _ => .remove id none
  | none => .remove id (get t ns id)

/-- What `create_container` finds. -/
def createBegin (env : PodEnv) (t : Table SandboxRecord) (req : CreateContainerRequest) : Task :=
  match env.getErr, get t ns req.podSandboxId with
  | some e, _ => .returned (.failed ⟨.internal, e⟩)
  | none, none =>
    .returned (.failed ⟨.notFound, "sandbox " ++ req.podSandboxId ++ " not found"⟩)
  | none, some sandbox => .create req sandbox

/-- One step of the system; `none` when the label is not enabled. -/
def step (s : St) : Label → Option St
  | .runPodSandbox config env =>
    match runBegin env config with
    | .error e => some (s.push (.returned (.failed e)))
    | .ok rec => s.begin rec
  | .stopPodSandbox id env => some (s.push (stopBegin env s.sandboxes id))
  | .removePodSandbox id env => some (s.push (removeBegin env s.sandboxes id))
  | .createContainer req env => some (s.push (createBegin env s.sandboxes req))
  | .move t env =>
    match s.tasks[t]? with
    | none => none
    | some task => (advance env s.sandboxes task).map (s.take t)
  | .ends p => some { s with procs := Function.update s.procs p none }
  | .starts p =>
    if s.procs p = none then some { s with procs := Function.update s.procs p (some .other) }
    else none
  | .restart => some { s with tasks := [] }
  | .reboot => some { s with tasks := [], procs := fun _ => none }

/-! ## What a step does -/

theorem step_move {s s' : St} {t : Nat} {env : PodEnv} (h : step s (.move t env) = some s') :
    ∃ task m, s.tasks[t]? = some task ∧ advance env s.sandboxes task = some m ∧
      s' = s.take t m := by
  simp only [step] at h
  split at h
  · cases h
  · rename_i task htask
    obtain ⟨m, hm, rfl⟩ := Option.map_eq_some_iff.1 h
    exact ⟨task, m, htask, hm, rfl⟩

/-- `run_pod_sandbox` fails at once, or begins with its record. -/
theorem step_run {s s' : St} {config : Option PodSandboxConfig} {env : PodEnv}
    (h : step s (.runPodSandbox config env) = some s') :
    (∃ e, s' = s.push (.returned (.failed e))) ∨
      ∃ rec, runBegin env config = .ok rec ∧ s.begin rec = some s' := by
  simp only [step] at h
  split at h
  · rename_i e _
    exact .inl ⟨e, (Option.some.inj h).symm⟩
  · rename_i rec hrec
    exact .inr ⟨rec, hrec, h⟩

/-- A request that begins with a holder finds its pid free. -/
theorem begin_cases {s s' : St} {rec : SandboxRecord} (h : s.begin rec = some s') :
    rec.pidHolderPid = none ∧ s' = s.push (.run rec) ∨
      ∃ p, rec.pidHolderPid = some p ∧ s.procs p = none ∧
        s' = { s with procs := Function.update s.procs p (some (.holder rec.id)) }.push
          (.run rec) := by
  simp only [St.begin] at h
  split at h
  · rename_i hnone
    exact .inl ⟨hnone, (Option.some.inj h).symm⟩
  · rename_i p hp
    split at h
    · rename_i hfree
      exact .inr ⟨p, hp, hfree.2, (Option.some.inj h).symm⟩
    · cases h

theorem mem_push {s : St} {task task' : Task} :
    task' ∈ (s.push task).tasks ↔ task' ∈ s.tasks ∨ task' = task := by
  simp [St.push]

theorem mem_take {s : St} {t : Nat} {m : Move} {task : Task} (h : task ∈ (s.take t m).tasks) :
    task ∈ s.tasks ∨ task = m.next :=
  List.mem_or_eq_of_mem_set h

theorem get_apply_put {t : Table SandboxRecord} {id id' : String} {rec : SandboxRecord} :
    get (applyWrite t (some (.put id rec))) ns id' =
      if id' = id then some rec else get t ns id' :=
  get_put

theorem get_apply_delete {t : Table SandboxRecord} {id id' : String} :
    get (applyWrite t (some (.delete id))) ns id' = if id' = id then none else get t ns id' :=
  get_delete

/-- A record after a write is the one written, or was there. -/
theorem get_applyWrite {t : Table SandboxRecord} {w : Option Write} {id : String}
    {rec : SandboxRecord} (h : get (applyWrite t w) ns id = some rec) :
    w = some (.put id rec) ∨ get t ns id = some rec := by
  cases w with
  | none => exact .inr h
  | some w =>
    cases w with
    | put id' rec' =>
      rw [get_apply_put] at h
      split at h
      · rename_i hid
        subst hid
        cases h
        exact .inl rfl
      · exact .inr h
    | delete id' =>
      rw [get_apply_delete] at h
      split at h
      · cases h
      · exact .inr h

/-- The requests after a step: the others, and the one that has moved. -/
theorem mem_take_others {s : St} {t : Nat} {m : Move} {task : Task}
    (h : task ∈ (s.take t m).tasks) :
    (∃ t', t' ≠ t ∧ s.tasks[t']? = some task) ∨ task = m.next :=
  (mem_set_cases h).symm

/-- A write of a request is that of a demoted record, of the new record, or of a stopped one. -/
theorem advance_put {env : PodEnv} {t : Table SandboxRecord} {task : Task} {m : Move} {id : String}
    {rec : SandboxRecord} (hm : advance env t task = some m)
    (hw : m.write = some (.put id rec)) :
    (∃ new other existing, task = .demote new (other :: existing) ∧
        superseded new other = true ∧ id = other.id ∧ rec = { other with state := .notReady }) ∨
      (task = .demote rec [] ∧ env.putErr = none ∧ id = rec.id ∧ m.next = .returned (.ran rec)) ∨
      ∃ killed, task = .stopPut id rec killed := by
  cases task with
  | demote new existing =>
    cases existing with
    | nil =>
      simp only [advance] at hm
      split at hm
      · cases hm
        cases hw
      · rename_i hput
        cases hm
        cases hw
        exact .inr (.inl ⟨rfl, hput, rfl, rfl⟩)
    | cons other existing =>
      simp only [advance] at hm
      split at hm
      · rename_i hdemotes
        cases hm
        cases hw
        exact .inl ⟨new, other, existing, rfl, (Bool.and_eq_true_iff.1 hdemotes).1, rfl, rfl⟩
      · cases hm
        cases hw
  | stopPut id' rec' killed =>
    simp only [advance] at hm
    split at hm
    · cases hm
      cases hw
    · cases hm
      cases hw
      exact .inr (.inr ⟨killed, rfl⟩)
  | removeDelete id' killed =>
    simp only [advance] at hm
    split at hm <;> cases hm <;> cases hw
  | create req sandbox =>
    simp only [advance] at hm
    split at hm <;> cases hm <;> cases hw
  | run rec' | stop id' rec' | remove id' rec' =>
    cases hm
    cases hw
  | returned a => cases hm

/-! ## Records are stored under their ids -/

/-- A copy that is going to be written back has the id it is stored under; one that is about to be
    stored by `stop_pod_sandbox` is that of a stopped sandbox. -/
def Task.Keyed : Task → Prop
  | .stop id rec => rec.id = id
  | .stopPut id rec _ => rec.id = id ∧ rec.state = .notReady ∧ rec.pidHolderPid = none
  | _ => True

structure Keyed (s : St) : Prop where
  stored : ∀ id rec, get s.sandboxes ns id = some rec → rec.id = id
  copies : ∀ task ∈ s.tasks, task.Keyed

theorem keyed_start (procs : Int → Option Proc) : Keyed (St.start procs) where
  stored := by
    intro id rec h
    cases h
  copies := by
    intro task h
    cases h

/-- The processes of the host do not matter. -/
theorem Keyed.on {s : St} (hk : Keyed s) (procs : Int → Option Proc) :
    Keyed { s with procs := procs } :=
  ⟨hk.stored, hk.copies⟩

theorem Keyed.push {s : St} (hk : Keyed s) {task : Task} (htask : task.Keyed) :
    Keyed (s.push task) where
  stored := hk.stored
  copies := by
    intro task' hmem
    rcases mem_push.1 hmem with hmem | rfl
    · exact hk.copies task' hmem
    · exact htask

/-- Where a request stands next is keyed. -/
theorem advance_next_keyed {env : PodEnv} {t : Table SandboxRecord} {task : Task} {m : Move}
    (htask : task.Keyed) (hm : advance env t task = some m) : m.next.Keyed := by
  cases task with
  | stop id rec =>
    cases hm
    exact ⟨htask, rfl, rfl⟩
  | demote rec existing =>
    cases existing <;> simp only [advance] at hm <;> split at hm <;> cases hm <;> trivial
  | stopPut id rec killed | removeDelete id killed | create req sandbox =>
    simp only [advance] at hm
    split at hm <;> cases hm <;> trivial
  | run rec | remove id rec =>
    cases hm
    trivial
  | returned a => cases hm

/-- Every step keeps the records under their ids. -/
theorem keyed_step {s s' : St} {l : Label} (hk : Keyed s) (h : step s l = some s') : Keyed s' := by
  cases l with
  | runPodSandbox config env =>
    rcases step_run h with ⟨e, rfl⟩ | ⟨rec, -, hbegin⟩
    · exact hk.push trivial
    · rcases begin_cases hbegin with ⟨-, rfl⟩ | ⟨p, -, -, rfl⟩
      · exact hk.push trivial
      · exact (hk.on _).push trivial
  | stopPodSandbox id env =>
    cases h
    unfold stopBegin
    split
    · exact hk.push trivial
    · exact hk.push trivial
    · rename_i rec _ hget
      exact hk.push (hk.stored id rec hget)
  | removePodSandbox id env =>
    cases h
    unfold removeBegin
    split <;> exact hk.push trivial
  | createContainer req env =>
    cases h
    unfold createBegin
    split <;> exact hk.push trivial
  | move t env =>
    obtain ⟨task, m, htask, hm, rfl⟩ := step_move h
    have hkeyed := hk.copies task (List.mem_of_getElem? htask)
    refine ⟨?_, ?_⟩
    · intro id rec hget
      rcases get_applyWrite hget with hw | hget
      · rcases advance_put hm hw with ⟨_, other, _, _, _, rfl, rfl⟩ | ⟨-, -, rfl, -⟩ | ⟨_, rfl⟩
        · rfl
        · rfl
        · exact hkeyed.1
      · exact hk.stored id rec hget
    · intro task' hmem
      rcases mem_take hmem with hmem | rfl
      · exact hk.copies task' hmem
      · exact advance_next_keyed hkeyed hm
  | starts p =>
    simp only [step] at h
    split at h
    · cases h
      exact hk.on _
    · cases h
  | ends p =>
    cases h
    exact hk.on _
  | restart | reboot =>
    cases h
    exact ⟨hk.stored, by simp⟩

/-! ## A request that nothing interrupts -/

section Alone

variable {s : St} {pre : List Task} {env : PodEnv}

/-- The step of the last request. -/
theorem step_last {task : Task} {m : Move} (htasks : s.tasks = pre ++ [task])
    (hm : advance env s.sandboxes task = some m) :
    step s (.move pre.length env) =
      some ⟨applyWrite s.sandboxes m.write, kill s.procs m.kill, pre ++ [m.next]⟩ := by
  simp [step, htasks, hm, St.take]

/-- The loop of `run_pod_sandbox` over the records it has listed. -/
theorem demote_alone (env : PodEnv) (pre : List Task) (procs : Int → Option Proc)
    (rec : SandboxRecord) :
    ∀ (existing : List SandboxRecord) (t : Table SandboxRecord),
      run step ⟨t, procs, pre ++ [.demote rec existing]⟩
          (List.replicate existing.length (.move pre.length env)) =
        some ⟨Cri.demote env rec existing t, procs, pre ++ [.demote rec []]⟩
  | [], t => rfl
  | other :: existing, t => by
    rw [List.length_cons, List.replicate_succ, run, Cri.demote]
    by_cases hwrites : (superseded rec other && !env.demoteFails other.id) = true
    · rw [step_last rfl (by rw [advance, if_pos hwrites]), if_pos hwrites]
      exact demote_alone env pre procs rec existing _
    · rw [step_last rfl (by rw [advance, if_neg hwrites]), if_neg hwrites]
      exact demote_alone env pre procs rec existing _

/-- The answer of a handler that has run to its end. -/
def Answer.of {α : Type} (ok : α → Answer) : Except Status α → Answer
  | .ok a => ok a
  | .error e => .failed e

/-- The handler, once its record is made. -/
theorem runPodSandbox_of_begin {config : Option PodSandboxConfig} {rec : SandboxRecord}
    {t : Table SandboxRecord} (hbegin : runBegin env config = .ok rec) :
    runPodSandbox env t config =
      match env.putErr with
      | some e => ⟨.error ⟨.internal, e⟩, Cri.demote env rec (listed env t) t, []⟩
      | none => ⟨.ok rec.id, put (Cri.demote env rec (listed env t) t) ns rec.id rec, []⟩ := by
  have hdemoted : (if env.listFails then t else Cri.demote env rec (list t ns) t) =
      Cri.demote env rec (listed env t) t := by
    unfold listed
    cases env.listFails <;> rfl
  rw [← hdemoted]
  cases config with
  | none => cases hbegin
  | some config =>
    simp only [runBegin] at hbegin
    simp only [runPodSandbox]
    cases husers : usernsOf (config.namespaceOptions.bind (·.usernsOptions)) with
    | error e =>
      simp only [husers] at hbegin
      cases hbegin
    | ok userns =>
      simp only [husers] at hbegin ⊢
      cases hhost : config.namespaceOptions.any (·.network == modeNode) with
      | true =>
        simp only [hhost] at hbegin ⊢
        cases hbegin
        rfl
      | false =>
        cases hcni : env.cniErr with
        | some e =>
          simp only [hhost, hcni] at hbegin
          cases hbegin
        | none =>
          simp only [hhost, hcni] at hbegin ⊢
          cases hbegin
          rfl

/-- **`run_pod_sandbox`, once its record is made**: if nothing else moves, it leaves the table
    and the answer of the handler. -/
theorem run_alone {config : Option PodSandboxConfig} {rec : SandboxRecord}
    (hbegin : runBegin env config = .ok rec) (htasks : s.tasks = pre ++ [.run rec]) :
    ∃ n, run step s (List.replicate n (.move pre.length env)) =
      some ⟨(runPodSandbox env s.sandboxes config).sandboxes, s.procs,
        pre ++ [.returned (.of (fun _ => .ran rec)
          (runPodSandbox env s.sandboxes config).result)]⟩ := by
  rw [runPodSandbox_of_begin hbegin]
  -- list, demote what is listed, and the last write
  refine ⟨1 + ((listed env s.sandboxes).length + 1), ?_⟩
  rw [List.replicate_add, List.replicate_add, List.replicate_one, List.singleton_append, run,
    step_last htasks rfl]
  refine (run_append (demote_alone env pre s.procs rec (listed env s.sandboxes) _)).trans ?_
  rw [run]
  cases hput : env.putErr with
  | some e =>
    rw [step_last rfl (by rw [advance, hput])]
    rfl
  | none =>
    rw [step_last rfl (by rw [advance, hput])]
    rfl

/-- **`stop_pod_sandbox`** as a whole. -/
theorem stop_alone {id : String} (htasks : s.tasks = pre) :
    ∃ n procs, run step s (.stopPodSandbox id env :: List.replicate n (.move pre.length env)) =
      some ⟨(stopPodSandbox env s.sandboxes id).sandboxes, procs,
        pre ++ [.returned (.of (fun _ => .done) (stopPodSandbox env s.sandboxes id).result)]⟩ := by
  subst htasks
  unfold stopPodSandbox
  cases hget : env.getErr with
  | some e => exact ⟨0, s.procs, by simp [run, step, stopBegin, hget, St.push, Answer.of]⟩
  | none =>
    cases hrec : get s.sandboxes ns id with
    | none => exact ⟨0, s.procs, by simp [run, step, stopBegin, hget, hrec, St.push, Answer.of]⟩
    | some rec =>
      refine ⟨2, kill s.procs rec.pidHolderPid, ?_⟩
      cases hput : env.putErr with
      | some e =>
        simp [run, step, stopBegin, hget, hrec, St.push, advance, St.take, applyWrite, hput, kill,
          Answer.of]
      | none =>
        simp [run, step, stopBegin, hget, hrec, St.push, advance, St.take, applyWrite, hput, kill,
          Answer.of]

/-- **`remove_pod_sandbox`** as a whole. -/
theorem remove_alone {id : String} (htasks : s.tasks = pre) :
    ∃ n procs, run step s (.removePodSandbox id env :: List.replicate n (.move pre.length env)) =
      some ⟨(removePodSandbox env s.sandboxes id).sandboxes, procs,
        pre ++ [.returned (.of (fun _ => .done)
          (removePodSandbox env s.sandboxes id).result)]⟩ := by
  subst htasks
  obtain ⟨rec, hbegin⟩ : ∃ rec, removeBegin env s.sandboxes id = .remove id rec := by
    unfold removeBegin
    split
    · exact ⟨_, rfl⟩
    · exact ⟨_, rfl⟩
  refine ⟨2, kill s.procs (rec.bind (·.pidHolderPid)), ?_⟩
  unfold removePodSandbox
  cases hdelete : env.deleteErr with
  | some e =>
    simp [run, step, hbegin, St.push, advance, St.take, applyWrite, hdelete, kill, Answer.of]
  | none =>
    simp [run, step, hbegin, St.push, advance, St.take, applyWrite, hdelete, kill, Answer.of]

/-- **`create_container`** reads the sandbox and does the rest. -/
theorem create_alone {req : CreateContainerRequest} :
    (∃ sandbox, createBegin env s.sandboxes req = .create req sandbox ∧
        createContainer env s.sandboxes req = createRest env req sandbox) ∨
      ∃ e, createBegin env s.sandboxes req = .returned (.failed e) ∧
        createContainer env s.sandboxes req = .error e := by
  unfold createBegin createContainer
  cases hget : env.getErr with
  | some e => exact .inr ⟨_, rfl, rfl⟩
  | none =>
    cases hrec : get s.sandboxes ns req.podSandboxId with
    | none => exact .inr ⟨_, rfl, rfl⟩
    | some sandbox =>
      refine .inl ⟨sandbox, rfl, ?_⟩
      simp only [internalErr, okOr, createRest, createChecked, bind_assoc, pure_bind]
      rfl

end Alone

end ContainerdRs.Cri.Pod
