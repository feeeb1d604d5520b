import ContainerdRs.Cri.RootfsOwner
import ContainerdRs.Cri.Identities

/-!
# The namespaces that a pod asks for, and those its containers get

`run_pod_sandbox` turns the modes of a request into the fields of a record; `create_container` turns
these into a runtime request, and `generate_spec` turns that into namespaces of the spec.

* `podNamespace` — what a mode stands for, in terms of the modes alone.
* `containerReq_namespaces` — the runtime request for a container of a sandbox that was run.
* `pod_namespaces_as_asked` — over every run: the containers of a pod get what it asks for.
-/

set_option autoImplicit false

namespace ContainerdRs.Cri

open Fallible Metadata Transition
open ContainerdRs.Runtime

/-- The PID or the IPC namespace of a container: the node's, that of the pod's holder, or what it
    would have by itself.  Without a holder there is nothing to share. -/
def podNamespace (typ : LinuxNamespaceType) (mode : Option Int) (holder : Option String)
    (own : List LinuxNamespace) : List LinuxNamespace :=
  if mode = some modeNode then []
  else if mode = some modePod then
    match holder with
    | some path => [⟨typ, some path⟩]
    | none => own
  else own

/-- A namespace of the pod's holder. -/
def holderPath (holder : Option Int) (name : String) : Option String :=
  holder.map fun p => "/proc/" ++ toString p ++ "/ns/" ++ name

/-- A mapping that a pod asks for, in the spec. -/
def IdMapping.given (m : IdMapping) : Runtime.IdMapping := ⟨0, m.hostId, m.length⟩

variable {Seccomp β : Type}

/-- The namespaces of the spec are those that the pod asks for; `base` and `l` are the `linux`
    sections of the base spec and of the spec. -/
structure Namespaced (config : PodSandboxConfig) (env : PodEnv) (holder : Option Int)
    (base l : Linux Seccomp) : Prop where
  network : ofType .network (l.namespaces.getD []) =
    if config.mode (·.network) = some modeNode then [] else networkNamespace (some env.netnsPath)
  pid : ofType .pid (l.namespaces.getD []) =
    podNamespace .pid (config.mode (·.pid)) (holderPath holder "pid")
      (ofType .pid (base.namespaces.getD []))
  ipc : ofType .ipc (l.namespaces.getD []) =
    podNamespace .ipc (config.mode (·.ipc)) (holderPath holder "ipc")
      (ofType .ipc (base.namespaces.getD []))
  /-- A user namespace, with the two mappings asked for. -/
  user : ∀ u, config.userns = some u → ofType .user (l.namespaces.getD []) ≠ [] ∧
    l.uidMappings = some (u.uids.map (·.given)) ∧ l.gidMappings = some (u.gids.map (·.given))
  noUser : config.userns = none →
    ofType .user (l.namespaces.getD []) = ofType .user (base.namespaces.getD []) ∧
      l.uidMappings = base.uidMappings ∧ l.gidMappings = base.gidMappings
  /-- The mount, UTS and cgroup namespaces are the container's. -/
  others : ∀ typ, typ ≠ .network → typ ≠ .pid → typ ≠ .ipc → typ ≠ .user →
    ofType typ (l.namespaces.getD []) = ofType typ (base.namespaces.getD [])

theorem sharedNamespace_podNamespace (typ : LinuxNamespaceType) (mode : Option Int)
    (holder : Option Int) (name : String) (own : List LinuxNamespace) :
    sharedNamespace typ (decide (mode = some modeNode))
        (holderNamespace (!decide (mode = some modeNode) && decide (mode = some modePod)) holder
          name) own =
      podNamespace typ mode (holderPath holder name) own := by
  unfold podNamespace sharedNamespace holderNamespace holderPath
  by_cases hnode : mode = some modeNode
  · simp [hnode]
  · by_cases hpod : mode = some modePod
    · have hne : modePod ≠ modeNode := by decide
      cases holder <;> simp [hpod, hne]
    · simp [hnode, hpod]

theorem userNamespace_ne_nil {uid gid : List Runtime.IdMapping} {own : List LinuxNamespace}
    (h : uid ≠ []) : userNamespace uid gid own ≠ [] := by
  have hempty : uid.isEmpty = false := by simpa using h
  rw [userNamespace, hempty, Bool.false_and, if_neg Bool.false_ne_true]
  split
  · exact List.cons_ne_nil _ _
  · rename_i hown
    rintro rfl
    exact hown rfl

variable {config : PodSandboxConfig} {penv : PodEnv} {r : SandboxRecord} {host : HostFacts}
  {id : String} {extras : SandboxExtras} {container : FullContainerConfig}

theorem containerReq_mapped {m n : IdMapping} (hr : MappedAs m n r)
    (own : Option (List Runtime.IdMapping) × Option (List Runtime.IdMapping)) :
    (container.containerReq host id r extras).idMappings own =
      (some [m.given], some [n.given]) := by
  rw [ContainerRequest.idMappings, FullContainerConfig.containerReq, hr.uids, hr.gids]
  rfl

theorem containerReq_unmapped (hr : Unmapped r)
    (own : Option (List Runtime.IdMapping) × Option (List Runtime.IdMapping)) :
    (container.containerReq host id r extras).idMappings own = own := by
  rw [ContainerRequest.idMappings, FullContainerConfig.containerReq, hr.uids, hr.gids]
  rfl

/-- The runtime request for a container of a sandbox that was run. -/
theorem containerReq_namespaces (hran : RanBy config penv r) {base l : Linux Seccomp}
    (hids : (l.uidMappings, l.gidMappings) =
      (container.containerReq host id r extras).idMappings (base.uidMappings, base.gidMappings))
    (hns : ∀ typ, ofType typ (l.namespaces.getD []) =
      (container.containerReq host id r extras).namespacesOf typ
        (ofType typ (base.namespaces.getD []))) :
    Namespaced config penv r.pidHolderPid base l where
  network := by
    rw [hns]
    show networkNamespace r.netnsPath = _
    rw [hran.modes.netnsPath, netnsOf, any_mode]
    by_cases hnode : config.mode (·.network) = some modeNode
    · rw [if_pos hnode, decide_eq_true hnode]
      rfl
    · rw [if_neg hnode, decide_eq_false hnode]
      rfl
  pid := by
    rw [hns]
    show sharedNamespace .pid r.hostPid (holderNamespace r.sharedPid r.pidHolderPid "pid") _ = _
    rw [hran.modes.hostPid, hran.modes.sharedPid]
    exact sharedNamespace_podNamespace _ _ _ _ _
  ipc := by
    rw [hns]
    show sharedNamespace .ipc r.hostIpc (holderNamespace r.sharedIpc r.pidHolderPid "ipc") _ = _
    rw [hran.modes.hostIpc, hran.modes.sharedIpc]
    exact sharedNamespace_podNamespace _ _ _ _ _
  user := by
    intro u hu
    rcases hran.userns with ⟨hnone, -⟩ | ⟨m, n, hsome, hr⟩
    · rw [hnone] at hu
      cases hu
    · obtain rfl : ⟨modePod, [m], [n]⟩ = u := Option.some.inj (hsome.symm.trans hu)
      rw [containerReq_mapped hr, Prod.mk.injEq] at hids
      refine ⟨?_, hids⟩
      rw [hns]
      show userNamespace (r.usernsUidMappings.map Create.idMapping)
        (r.usernsGidMappings.map Create.idMapping) _ ≠ []
      rw [hr.uids]
      exact userNamespace_ne_nil (List.cons_ne_nil _ _)
  noUser := by
    intro hnone
    rcases hran.userns with ⟨-, hr⟩ | ⟨m, n, hsome, -⟩
    · rw [containerReq_unmapped hr, Prod.mk.injEq] at hids
      refine ⟨?_, hids⟩
      rw [hns]
      show userNamespace (r.usernsUidMappings.map Create.idMapping)
        (r.usernsGidMappings.map Create.idMapping) _ = _
      rw [hr.uids, hr.gids]
      rfl
    · rw [hsome] at hnone
      cases hnone
  others := by
    intro typ h₁ h₂ h₃ h₄
    rw [hns]
    cases typ <;> first | rfl | contradiction

/-- **A container gets the namespaces that its pod asks for.**  After every sequence of requests on
    pods and containers, when `create_container` succeeds, its sandbox was run by one of them, and
    the spec in the bundle has the namespaces that this request asks for: the node's where it says
    so, the network that was set up for the pod, those of the holder while the record has it, the
    user namespace with the mappings sent, and the container's own for everything else. -/
theorem pod_namespaces_as_asked (c : String → Ctx) (ls : List PodLabel) (s : Pods)
    (hrun : run (podStep c) .empty ls = some s) (env : Create.Env β Seccomp)
    (hnode : env.node.Plain) (host : HostFacts) (extras : SandboxRecord → SandboxExtras)
    (req : FullCreateRequest) (w w' : Create.World) (hfresh : w.bundles env.id = none)
    (rec : ContainerRecord)
    (hok : exec (createContainerOf env host extras s.sandboxes req) w = (.ok rec, w')) :
    ∃ config penv sandbox b spec base l, PodLabel.runPodSandbox (some config) penv ∈ ls ∧
      penv.id = req.podSandboxId ∧ get s.sandboxes ns req.podSandboxId = some sandbox ∧
      (sandbox.pidHolderPid = none ∨ sandbox.pidHolderPid = penv.holder) ∧
      w'.bundles env.id = some b ∧ b.configJson = (env.save spec).2 ∧
      (if host.uid = 0 then env.node.baseSpec else env.node.rootless host.uid host.gid).linux =
        some base ∧
      spec.linux = some l ∧ Namespaced config penv sandbox.pidHolderPid base l := by
  obtain ⟨sandbox, config, image, b, hsandbox, hconfig, -, hb, hfilled⟩ :=
    Create.createContainer_ok (by exact hfresh) hok
  obtain ⟨pod, penv, hl, hid, hran⟩ := sandboxes_ran hrun _ sandbox hsandbox
  obtain ⟨container, hcontainer, -⟩ := Option.map_eq_some_iff.1 hconfig
  obtain ⟨spec, hspec, hjson⟩ := hfilled.configJson
  have hreq : generateSpec env.node image.1
      (container.containerReq host env.id sandbox (extras sandbox)) env.rootfsPath = .ok spec := by
    rw [← Create.generateSpec_ok_iff.1 hspec]
    simp only [Create.containerRequest, hcontainer]
    rfl
  obtain ⟨base, l, hbase, hlinux, hids, hns⟩ := generateSpec_namespaces hnode hreq
  refine ⟨pod, penv, sandbox, b, spec, base, l, hl, hid, hsandbox, hran.holder, hb, hjson, ?_,
    hlinux, containerReq_namespaces hran hids hns⟩
  rw [← hbase, ContainerRequest.baseSpec, FullContainerConfig.containerReq]
  by_cases hroot : host.uid = 0
  · simp only [if_pos hroot]
  · simp only [if_neg hroot]

/-- The first sandbox of `sharedPidRun`. -/
def sharedPidSandbox : SandboxRecord :=
  sandboxRecord { PodEnv.quiet "s1" with holder := some 40 } sharedPidConfig "host" (false, [], [])

/-- The pods when it runs. -/
def sharedPidStart : Pods :=
  ⟨(runPodSandbox { PodEnv.quiet "s1" with holder := some 40 } .empty
    (some sharedPidConfig)).sandboxes, fun _ => ⟨none, [], []⟩⟩

/-- What `create_container` leaves of a container in it. -/
def sharedPidWorld : Create.World :=
  (exec (createContainerOf Create.quietEnv rootHost (fun _ => cgroupExtras)
    sharedPidStart.sandboxes ⟨"s1", some (identityConfig 1000)⟩) Create.emptyWorld).2

theorem sharedPid_namespaces : ∃ b spec l, sharedPidWorld.bundles "c1" = some b ∧
    b.configJson = (Create.quietEnv.save spec).2 ∧ spec.linux = some l ∧
    ofType .network (l.namespaces.getD []) = [] ∧
    ofType .pid (l.namespaces.getD []) = [⟨.pid, holderPath (some 40) "pid"⟩] := by
  obtain ⟨rec, hrec⟩ : ∃ rec, (exec (createContainerOf Create.quietEnv rootHost
      (fun _ => cgroupExtras) sharedPidStart.sandboxes ⟨"s1", some (identityConfig 1000)⟩)
        Create.emptyWorld).1 = .ok rec := ⟨_, rfl⟩
  obtain ⟨config, penv, sandbox, b, spec, base, l, hmem, -, hsandbox, -, hb, hjson, -, hl, hns⟩ :=
    pod_namespaces_as_asked (fun id => ⟨id, "/run/crun", "/run/" ++ id⟩)
      [.runPodSandbox (some sharedPidConfig) { PodEnv.quiet "s1" with holder := some 40 }]
      sharedPidStart rfl Create.quietEnv bareNode_plain rootHost (fun _ => cgroupExtras)
      ⟨"s1", some (identityConfig 1000)⟩ Create.emptyWorld sharedPidWorld rfl rec
      (Prod.ext hrec rfl)
  obtain ⟨rfl, rfl⟩ : config = sharedPidConfig ∧
      penv = { PodEnv.quiet "s1" with holder := some 40 } := by
    cases List.mem_singleton.1 hmem
    exact ⟨rfl, rfl⟩
  obtain rfl : sharedPidSandbox = sandbox := Option.some.inj hsandbox
  refine ⟨b, spec, l, hb, hjson, hl, hns.network, ?_⟩
  rw [hns.pid]
  rfl

end ContainerdRs.Cri
