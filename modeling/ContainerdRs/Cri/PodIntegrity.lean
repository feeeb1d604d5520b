import ContainerdRs.Cri.Moves
import ContainerdRs.Cri.Sandboxes

/-!
# Pods and their containers

The sandboxes and the containers of a daemon together.  Each container is a cell of its own, with
the handlers and the supervision task of `Lifecycle`; the sandbox requests look at no cell.  The
interface they implement says that the containers of a pod that is stopped are terminated, and
that those of a pod that is removed are removed.

* `promised_step_iff` — one step keeps the promises exactly if it is safe.
* `pod_integrity_iff` — over every run: when the promises hold.
* `remove_leaves_container` — a pod is removed before its container.
-/

set_option autoImplicit false

namespace ContainerdRs.Cri

open ContainerState Metadata Transition

/-- The metadata of the daemon, with the tasks of every container. -/
structure Pods where
  sandboxes : Table SandboxRecord
  containers : String → St

/-- A daemon with empty stores. -/
def Pods.empty : Pods := ⟨OrdMap.empty, fun _ => ⟨none, [], []⟩⟩

/-- One step: a request on sandboxes, `CreateContainer`, or a step of one container. -/
inductive PodLabel where
  | runPodSandbox (config : Option PodSandboxConfig) (env : PodEnv)
  | stopPodSandbox (id : String) (env : PodEnv)
  | removePodSandbox (id : String) (env : PodEnv)
  | createContainer (req : CreateContainerRequest) (env : PodEnv)
  | container (id : String) (l : Label)

/-- The cell of one container after a write of `create_container`. -/
def St.create (s : St) (rec : ContainerRecord) : St :=
  { s with record := some rec, trace := s.trace ++ [.put rec] }

/-- One step; `none` when the label is not enabled.  `c` has the directories of a container. -/
def podStep (c : String → Ctx) (s : Pods) : PodLabel → Option Pods
  | .runPodSandbox config env =>
    some { s with sandboxes := (runPodSandbox env s.sandboxes config).sandboxes }
  | .stopPodSandbox id env =>
    some { s with sandboxes := (stopPodSandbox env s.sandboxes id).sandboxes }
  | .removePodSandbox id env =>
    some { s with sandboxes := (removePodSandbox env s.sandboxes id).sandboxes }
  | .createContainer req env =>
    match createContainer env s.sandboxes req with
    | .error _ => some s
    | .ok rec =>
      some { s with
        containers := Function.update s.containers rec.id ((s.containers rec.id).create rec) }
  | .container id l =>
    (step (c id) (s.containers id) l).map fun cell =>
      { s with containers := Function.update s.containers id cell }

/-- The record of container `id`. -/
def Pods.record (s : Pods) (id : String) : Option ContainerRecord := (s.containers id).record

/-! ## The promises -/

/-- **Every container's sandbox exists.** -/
def Integrity (s : Pods) : Prop :=
  ∀ id r, s.record id = some r → Stored s.sandboxes r.sandboxId

/-- What `api.proto` promises of a request that has returned `Ok`, of the state after it. -/
def Honored (s s' : Pods) : PodLabel → Prop
  | .stopPodSandbox id env => (stopPodSandbox env s.sandboxes id).result = .ok () →
      ∀ cid r, s'.record cid = some r → r.sandboxId = id → r.state ≠ running
  | .removePodSandbox id env => (removePodSandbox env s.sandboxes id).result = .ok () →
      ∀ cid r, s'.record cid = some r → r.sandboxId ≠ id
  | _ => True

/-- The promises after a step. -/
def Promised (x : Pods × PodLabel × Pods) : Prop :=
  Integrity x.2.2 ∧ Honored x.1 x.2.2 x.2.1

/-- The condition on a step, on the state before it: a pod is stopped when none of its containers
    is `Running`, and removed when it has no container left (unless the metadata store fails the
    request); and a container's task that is about to write a record back finds the sandbox of
    its copy. -/
def PodSafe (c : String → Ctx) (s : Pods) : PodLabel → Prop
  | .stopPodSandbox id env =>
      env.getErr = none → (env.putErr = none ∨ ¬ Stored s.sandboxes id) →
        ∀ cid r, s.record cid = some r → r.sandboxId = id → r.state ≠ running
  | .removePodSandbox id env => env.deleteErr = none →
      ∀ cid r, s.record cid = some r → r.sandboxId ≠ id
  | .container id (.move t env) => ∀ task r, (s.containers id).tasks[t]? = some task →
      stores (c id) env task = some r → Stored s.sandboxes r.sandboxId
  | _ => True

/-! ## Steps -/

variable {c : String → Ctx}

theorem record_update (s : Pods) (id id' : String) (cell : St) :
    ({ s with containers := Function.update s.containers id cell } : Pods).record id' =
      if id' = id then cell.record else s.record id' := by
  simp only [Pods.record, Function.update_apply]
  split <;> rfl

/-- A step of one container, of which only the record is seen. -/
theorem integrity_update {s : Pods} (hi : Integrity s) (id : String) (cell : St) :
    Integrity { s with containers := Function.update s.containers id cell } ↔
      ∀ r, cell.record = some r → Stored s.sandboxes r.sandboxId := by
  constructor
  · intro h r hr
    exact h id r (by rw [record_update, if_pos rfl, hr])
  · intro h id' r hr
    rw [record_update] at hr
    split at hr
    · exact h r hr
    · exact hi id' r hr

/-- The record of a container after a move is the one the task stores, the old one, or none. -/
theorem record_move {c : Ctx} {s s' : St} {t : Nat} {env : Env}
    (h : step c s (.move t env) = some s') :
    ∃ task, s.tasks[t]? = some task ∧
      ((∃ r, stores c env task = some r ∧ s'.record = some r) ∨
        stores c env task = none ∧ (s'.record = s.record ∨ s'.record = none)) := by
  obtain ⟨task, m, htask, hm, rfl⟩ := step_move h
  refine ⟨task, htask, ?_⟩
  have hentry : (s.take t m).record = entryAfter c env s.record task := (advance_does hm).entry
  rw [hentry]
  by_cases hremove : task = .removeRecord
  · subst hremove
    refine .inr ⟨rfl, ?_⟩
    simp only [entryAfter]
    split
    · exact .inr rfl
    · exact .inl rfl
  · rw [entryAfter_of_ne hremove]
    cases stores c env task with
    | some r => exact .inl ⟨r, rfl, rfl⟩
    | none => exact .inr ⟨rfl, .inl rfl⟩

/-- A move of one container keeps the references exactly if the record it stores has its
    sandbox. -/
theorem integrity_move_iff {s : Pods} {id : String} {t : Nat} {env : Env} {cell : St}
    (hi : Integrity s) (hcell : step (c id) (s.containers id) (.move t env) = some cell) :
    (∀ r, cell.record = some r → Stored s.sandboxes r.sandboxId) ↔
      PodSafe c s (.container id (.move t env)) := by
  obtain ⟨task, htask, ⟨r, hstores, hr⟩ | ⟨hstores, hr⟩⟩ := record_move hcell
  · simp only [PodSafe, htask, hr, Option.some.injEq]
    constructor
    · rintro h _ r' rfl hr'
      rw [hstores, Option.some.injEq] at hr'
      exact hr' ▸ h r rfl
    · rintro h _ rfl
      exact h task r rfl hstores
  · refine iff_of_true ?_ ?_
    · intro r hrec
      rcases hr with hr | hr
      · exact hi id r (hr.symm.trans hrec)
      · rw [hr] at hrec
        cases hrec
    · intro task' r htask' hr'
      rw [htask, Option.some.injEq] at htask'
      rw [← htask', hstores] at hr'
      cases hr'

/-- One step keeps the promises exactly if it is safe. -/
theorem promised_step_iff {s s' : Pods} {l : PodLabel} (hi : Integrity s)
    (h : podStep c s l = some s') : Promised (s, l, s') ↔ PodSafe c s l := by
  cases l with
  | runPodSandbox config env =>
    cases h
    exact iff_of_true ⟨fun id r hr => runPodSandbox_keeps (hi id r hr), trivial⟩ trivial
  | stopPodSandbox id env =>
    cases h
    have hkeeps : Integrity { s with sandboxes := (stopPodSandbox env s.sandboxes id).sandboxes } :=
      fun cid r hr => stopPodSandbox_keeps (hi cid r hr)
    simp only [Promised, Honored, PodSafe, hkeeps, true_and, stopPodSandbox_ok_iff, and_imp]
    exact Iff.rfl
  | removePodSandbox id env =>
    cases h
    simp only [Promised, Honored, PodSafe, removePodSandbox_ok_iff]
    constructor
    · rintro ⟨-, h⟩
      exact h
    · intro h
      refine ⟨?_, h⟩
      intro cid r hr
      exact removePodSandbox_stored.2 ⟨hi cid r hr, fun hok => h hok cid r hr⟩
  | createContainer req env =>
    simp only [podStep] at h
    split at h
    · cases h
      exact iff_of_true ⟨hi, trivial⟩ trivial
    · rename_i rec hrec
      cases h
      refine iff_of_true ⟨(integrity_update hi _ _).2 ?_, trivial⟩ trivial
      rintro r ⟨⟩
      exact (createContainer_ok hrec).1
  | container id l =>
    obtain ⟨cell, hcell, rfl⟩ := Option.map_eq_some_iff.1 h
    show Integrity _ ∧ True ↔ _
    rw [and_true, integrity_update hi]
    cases l with
    | request r env =>
      cases hcell
      exact iff_of_true (fun r hr => hi id r hr) trivial
    | restart =>
      cases hcell
      exact iff_of_true (fun r hr => hi id r hr) trivial
    | move t env => exact integrity_move_iff hi hcell

/-- **Pod and container integrity.**  From empty stores, every step of a run leaves containers
    whose sandboxes exist, and the pods stopped and removed without running containers and
    without containers, exactly if every step meets `PodSafe`. -/
theorem pod_integrity_iff (c : String → Ctx) (ls : List PodLabel) :
    (∀ x ∈ steps (podStep c) .empty ls, Promised x) ↔
      ∀ x ∈ steps (podStep c) .empty ls, PodSafe c x.1 x.2.1 := by
  have hstep : ∀ (s : Pods) (l : PodLabel) (s' : Pods), Integrity s → PodSafe c s l →
      podStep c s l = some s' → Integrity s' :=
    fun s l s' hi hok h => ((promised_step_iff hi h).2 hok).1
  refine forall_steps_iff hstep (fun s l s' hi h => promised_step_iff hi h) ls .empty ?_
  intro id r hr
  cases hr

/-- The least a pod and a container can ask for. -/
def podConfig : PodSandboxConfig := ⟨some ⟨"nginx", "u1", "default"⟩, "", none⟩

def containerConfig : ContainerConfig := ⟨[], "", false, none, none, "", none⟩

/-- A pod with one container is removed. -/
def removePod : List PodLabel :=
  [.runPodSandbox (some podConfig) (.quiet "s1"),
    .createContainer ⟨"s1", some containerConfig⟩ (.quiet "c1"),
    .removePodSandbox "s1" (.quiet "")]

/-- The record of the container stays, and refers to a sandbox that is gone. -/
theorem remove_leaves_container :
    ¬ ∀ (c : String → Ctx) (ls : List PodLabel), ∀ x ∈ steps (podStep c) .empty ls, Promised x := by
  intro h
  have hlast : ∃ x ∈ steps (podStep fun id => ⟨id, "/run/crun", "/run/" ++ id⟩) .empty removePod,
      x.2.1 = .removePodSandbox "s1" (.quiet "") ∧
        (x.2.2.record "c1").map (·.sandboxId) = some "s1" :=
    ⟨_, List.mem_cons_of_mem _ (List.mem_cons_of_mem _ List.mem_cons_self), rfl, rfl⟩
  obtain ⟨⟨s, l, s'⟩, hx, rfl, hrec⟩ := hlast
  obtain ⟨r, hr, hid⟩ := Option.map_eq_some_iff.1 hrec
  exact (h _ removePod _ hx).2 rfl "c1" r hr hid

end ContainerdRs.Cri
