import ContainerdRs.Cri.Images
import ContainerdRs.Cri.Lifecycle

/-!
# Pod sandboxes (`crates/cri/src/server.rs`)

`run_pod_sandbox`, `stop_pod_sandbox`, `remove_pod_sandbox` and `create_container` on the table of
sandboxes, each run to its end.  `PodEnv` holds what the outside answers during one request: the
generated id, CNI, the namespace holder, the bundle on disk and the metadata store.

* `runPodSandbox_keeps`, `stopPodSandbox_keeps` — the sandboxes that are there stay.
* `stopPodSandbox_ok_iff`, `removePodSandbox_ok_iff` — when they return `Ok`.
* `removePodSandbox_stored` — what a removal leaves.
* `createContainer_ok` — a container is created in a sandbox that is there.
-/

set_option autoImplicit false

namespace ContainerdRs.Cri

open Metadata

/-! ## Requests -/

/-- `v1::IdMapping`. -/
structure IdMapping where
  hostId : UInt32
  containerId : UInt32
  length : UInt32

/-- `v1::NamespaceMode`, as the numbers on the wire. -/
def modePod : Int := 0
def modeContainer : Int := 1
def modeNode : Int := 2
def modeTarget : Int := 3

/-- `v1::UserNamespace`. -/
structure UserNamespace where
  mode : Int
  uids : List IdMapping
  gids : List IdMapping

/-- `v1::NamespaceOption`. -/
structure NamespaceOption where
  network : Int
  pid : Int
  ipc : Int
  usernsOptions : Option UserNamespace

/-- `v1::PodSandboxMetadata`, with the defaults of an absent message. -/
structure PodSandboxMetadata where
  name : String := ""
  uid : String := ""
  podNamespace : String := ""

/-- `v1::PodSandboxConfig`, the fields that decide what is stored.  `namespaceOptions` is
    `linux.security_context.namespace_options`. -/
structure PodSandboxConfig where
  metadata : Option PodSandboxMetadata
  logDirectory : String
  namespaceOptions : Option NamespaceOption

/-- `v1::Mount`, the fields that are validated. -/
structure Mount where
  containerPath : String
  readonly : Bool
  propagation : Int
  recursiveReadOnly : Bool

/-- `MountPropagation::PropagationPrivate`. -/
def propagationPrivate : Int := 0

/-- `v1::ContainerConfig`, the fields that are validated or stored.  `runAsUser`, `runAsGroup`,
    `runAsUsername` are those of `linux.security_context`, `resources` is `linux.resources`. -/
structure ContainerConfig where
  mounts : List Mount
  logPath : String
  stdin : Bool
  runAsUser : Option Int
  runAsGroup : Option Int
  runAsUsername : String
  resources : Option LinuxContainerResources

/-- `v1::CreateContainerRequest`. -/
structure CreateContainerRequest where
  podSandboxId : String
  config : Option ContainerConfig

/-- The answers of the environment during one request. -/
structure PodEnv where
  /-- `gen_id`: a hash of the seed and the clock. -/
  id : String
  /-- Error texts of the metadata calls, if they fail. -/
  getErr : Option String
  putErr : Option String
  deleteErr : Option String
  /-- `list` of the sandboxes fails; the `put` of a demoted sandbox fails. -/
  listFails : Bool
  demoteFails : String → Bool
  /-- Error text of `create_netns` or `setup`, if one fails, and `netns_path`. -/
  cniErr : Option String
  netnsPath : String
  /-- `spawn_holder`: the pid of the namespace holder. -/
  holder : Option Int
  /-- Errors of the parts of `create_container` that work on images and on the bundle. -/
  imageErr : Option Status
  bundleErr : Option String
  unpackErr : Option Status
  chownErr : Option String
  specErr : Option String
  writeErr : Option String

/-- An environment in which every call succeeds. -/
def PodEnv.quiet (id : String) : PodEnv where
  id := id
  getErr := none
  putErr := none
  deleteErr := none
  listFails := false
  demoteFails := fun _ => false
  cniErr := none
  netnsPath := "/run/netns/" ++ id
  holder := none
  imageErr := none
  bundleErr := none
  unpackErr := none
  chownErr := none
  specErr := none
  writeErr := none

/-- What the handlers do outside of the metadata store. -/
inductive PodAction where
  | teardown (id : String)
  | killHolder (pid : Int)
  deriving DecidableEq, Repr

/-- The answer of a handler, the sandboxes after it and its actions. -/
structure PodReply (α : Type) where
  result : Except Status α
  sandboxes : Table SandboxRecord
  actions : List PodAction

/-! ## Handlers -/

/-- `validate_userns_map`. -/
def validateUsernsMap (m : List IdMapping) : Except Status (List (UInt32 × UInt32 × UInt32)) :=
  match m with
  | [x] =>
    if x.containerId ≠ 0 then
      .error ⟨.invalidArgument, "user namespace mapping must start at container ID 0"⟩
    else .ok [(x.containerId, x.hostId, x.length)]
  | _ => .error ⟨.invalidArgument, "user namespace requires exactly one uid/gid mapping"⟩

/-- `run_pod_sandbox`, the user namespace: whether the mode is POD, and the mappings. -/
def usernsOf (opts : Option UserNamespace) :
    Except Status (Bool × List (UInt32 × UInt32 × UInt32) × List (UInt32 × UInt32 × UInt32)) :=
  match opts with
  | none => .ok (false, [], [])
  | some u =>
    if u.mode = modePod then do
      let uids ← validateUsernsMap u.uids
      let gids ← validateUsernsMap u.gids
      return (true, uids, gids)
    else if u.mode = modeContainer ∨ u.mode = modeTarget then
      .error ⟨.invalidArgument, "unsupported user namespace mode: only NODE and POD are supported"⟩
    -- NODE or unset: no remapping
    else .ok (false, [], [])

/-- `run_pod_sandbox`, the other sandboxes of the same pod. -/
def superseded (rec other : SandboxRecord) : Bool :=
  other.id != rec.id && other.state == .ready && other.name == rec.name &&
    other.k8sNamespace == rec.k8sNamespace && other.uid == rec.uid

/-- `run_pod_sandbox`, the loop that demotes them. -/
def demote (env : PodEnv) (rec : SandboxRecord) :
    List SandboxRecord → Table SandboxRecord → Table SandboxRecord
  | [], t => t
  | other :: existing, t =>
    if superseded rec other && !env.demoteFails other.id then
      demote env rec existing (put t ns other.id { other with state := .notReady })
    else demote env rec existing t

/-- `run_pod_sandbox`, the record it stores, once the network is there. -/
def sandboxRecord (env : PodEnv) (config : PodSandboxConfig) (netnsPath : String)
    (userns : Bool × List (UInt32 × UInt32 × UInt32) × List (UInt32 × UInt32 × UInt32)) :
    SandboxRecord :=
  let metadata := config.metadata.getD {}
  let nsOpts := config.namespaceOptions
  let hostPid := nsOpts.any (·.pid == modeNode)
  let hostIpc := nsOpts.any (·.ipc == modeNode)
  -- pod-level sharing, only when the options are there
  let sharedPid := !hostPid && nsOpts.any (·.pid == modePod)
  let sharedIpc := !hostIpc && nsOpts.any (·.ipc == modePod)
  { id := env.id
    name := metadata.name
    k8sNamespace := metadata.podNamespace
    uid := metadata.uid
    state := .ready
    netnsPath := some netnsPath
    logDirectory := config.logDirectory
    hostNetwork := nsOpts.any (·.network == modeNode)
    hostPid := hostPid
    hostIpc := hostIpc
    sharedPid := sharedPid
    sharedIpc := sharedIpc
    pidHolderPid := if sharedPid || sharedIpc then env.holder else none
    usernsModePod := userns.1
    usernsUidMappings := userns.2.1
    usernsGidMappings := userns.2.2 }

/-- `run_pod_sandbox`. -/
def runPodSandbox (env : PodEnv) (sandboxes : Table SandboxRecord)
    (config : Option PodSandboxConfig) : PodReply String :=
  match config with
  | none => ⟨.error ⟨.invalidArgument, "pod sandbox config required"⟩, sandboxes, []⟩
  | some config =>
    match usernsOf (config.namespaceOptions.bind (·.usernsOptions)) with
    | .error e => ⟨.error e, sandboxes, []⟩
    | .ok userns =>
      let hostNetwork := config.namespaceOptions.any (·.network == modeNode)
      match hostNetwork, env.cniErr with
      | false, some e =>
        ⟨.error ⟨.unavailable, "CNI network setup failed for sandbox " ++ env.id ++ ": " ++ e⟩,
          sandboxes, [.teardown env.id]⟩
      | _, _ =>
        let sandbox :=
          sandboxRecord env config (if hostNetwork then "host" else env.netnsPath) userns
        let demoted :=
          if env.listFails then sandboxes else demote env sandbox (list sandboxes ns) sandboxes
        match env.putErr with
        | some e => ⟨.error ⟨.internal, e⟩, demoted, []⟩
        | none => ⟨.ok env.id, put demoted ns env.id sandbox, []⟩

/-- `stop_pod_sandbox`. -/
def stopPodSandbox (env : PodEnv) (sandboxes : Table SandboxRecord) (id : String) :
    PodReply Unit :=
  match env.getErr, get sandboxes ns id with
  | some e, _ => ⟨.error ⟨.internal, e⟩, sandboxes, []⟩
  | none, none => ⟨.ok (), sandboxes, []⟩
  | none, some rec =>
    -- the holder is taken out of the record and killed before the write
    let actions := rec.pidHolderPid.toList.map .killHolder
    match env.putErr with
    | some e => ⟨.error ⟨.internal, e⟩, sandboxes, actions⟩
    | none =>
      ⟨.ok (), put sandboxes ns id { rec with state := .notReady, pidHolderPid := none }, actions⟩

/-- `remove_pod_sandbox`, what is torn down. -/
def removeActions (env : PodEnv) (sandboxes : Table SandboxRecord) (id : String) :
    List PodAction :=
  match env.getErr, get sandboxes ns id with
  | none, some rec =>
    (if rec.netnsPath.any (· != "host") then [.teardown id] else []) ++
      rec.pidHolderPid.toList.map .killHolder
  | _, _ => []

/-- `remove_pod_sandbox`. -/
def removePodSandbox (env : PodEnv) (sandboxes : Table SandboxRecord) (id : String) :
    PodReply Unit :=
  match env.deleteErr with
  | some e => ⟨.error ⟨.internal, e⟩, sandboxes, removeActions env sandboxes id⟩
  | none => ⟨.ok (), (delete sandboxes ns id).2, removeActions env sandboxes id⟩

/-- `create_container`, the validation of one mount. -/
def validateMount (m : Mount) : Except Status Unit :=
  if m.recursiveReadOnly then
    if !m.readonly then
      .error ⟨.invalidArgument,
        "recursive read-only mount " ++ m.containerPath ++ " requires readonly=true"⟩
    else if m.propagation ≠ propagationPrivate then
      .error ⟨.invalidArgument,
        "recursive read-only mount " ++ m.containerPath ++ " requires private propagation"⟩
    else .ok ()
  else .ok ()

/-- `Path::is_absolute`. -/
def isAbsolute (path : String) : Bool := path.toList.head? == some '/'

/-- `Path::join` of a relative path, displayed. -/
def joinPath (dir path : String) : String :=
  if dir.toList.getLast? == some '/' then dir ++ path else dir ++ "/" ++ path

/-- `create_container`, the log path that is stored. -/
def storedLogPath (sandbox : SandboxRecord) (logPath : String) : String :=
  if isAbsolute logPath || sandbox.logDirectory == "" then logPath
  else joinPath sandbox.logDirectory logPath

/-- `create_container`, the check of `RunAsGroup`. -/
def validateRunAs (config : ContainerConfig) : Except Status Unit :=
  if config.runAsGroup.isSome && !(config.runAsUser.isSome || config.runAsUsername != "") then
    .error ⟨.invalidArgument, "RunAsGroup is specified without RunAsUser"⟩
  else .ok ()

/-- `Option::ok_or_else`. -/
def okOr {α : Type} (x : Option α) (e : Status) : Except Status α :=
  match x with
  | some a => .ok a
  | none => .error e

/-- A step of `create_container` that fails with a text. -/
def internalErr : Option String → Except Status Unit
  | some e => .error ⟨.internal, e⟩
  | none => .ok ()

/-- A step of `create_container` that fails with a status. -/
def statusErr : Option Status → Except Status Unit
  | some e => .error e
  | none => .ok ()

/-- `create_container`, the ownership of the rootfs in a user namespace. -/
def chownRootfs (env : PodEnv) (sandbox : SandboxRecord) : Except Status Unit :=
  match sandbox.usernsUidMappings with
  | [] => .ok ()
  | _ => internalErr (env.chownErr.map ("chown rootfs for userns: " ++ ·))

/-- `create_container`: the record it stores. -/
def createContainer (env : PodEnv) (sandboxes : Table SandboxRecord)
    (req : CreateContainerRequest) : Except Status ContainerRecord := do
  internalErr env.getErr
  -- the sandbox must exist; the container joins its network namespace
  let sandbox ← okOr (get sandboxes ns req.podSandboxId)
    ⟨.notFound, "sandbox " ++ req.podSandboxId ++ " not found"⟩
  let config ← okOr req.config ⟨.invalidArgument, "container config required"⟩
  statusErr env.imageErr
  validateRunAs config
  config.mounts.forM validateMount
  internalErr env.bundleErr
  statusErr env.unpackErr
  chownRootfs env sandbox
  internalErr env.specErr
  internalErr env.writeErr
  internalErr env.putErr
  return {
    id := env.id
    sandboxId := req.podSandboxId
    state := .created
    logPath := storedLogPath sandbox config.logPath
    startedAt := none
    finishedAt := none
    exitCode := none
    reason := none
    resources := config.resources.map resourcesRecord
    crunRoot := none
    bundleDir := none
    pid := none
    stdin := config.stdin }

/-! ## What a request does to the sandboxes -/

/-- The sandbox `id` is there. -/
def Stored (sandboxes : Table SandboxRecord) (id : String) : Prop :=
  (get sandboxes ns id).isSome

theorem stored_put {t : Table SandboxRecord} {id id' : String} {v : SandboxRecord} :
    Stored (put t ns id v) id' ↔ id' = id ∨ Stored t id' := by
  simp only [Stored, get_put]
  split <;> simp [*]

theorem stored_delete {t : Table SandboxRecord} {id id' : String} :
    Stored (delete t ns id).2 id' ↔ id' ≠ id ∧ Stored t id' := by
  simp only [Stored, get_delete]
  split <;> simp [*]

theorem demote_keeps (env : PodEnv) (rec : SandboxRecord) {id : String} :
    ∀ {existing : List SandboxRecord} {t : Table SandboxRecord}, Stored t id →
      Stored (demote env rec existing t) id
  | [], _, h => h
  | other :: existing, t, h => by
    rw [demote]
    split
    · exact demote_keeps env rec (stored_put.2 (.inr h))
    · exact demote_keeps env rec h

/-- The sandbox itself is not demoted. -/
theorem demote_get_self (env : PodEnv) (rec : SandboxRecord) (existing : List SandboxRecord)
    (t : Table SandboxRecord) :
    get (demote env rec existing t) ns rec.id = get t ns rec.id := by
  induction existing generalizing t with
  | nil => rfl
  | cons other existing ih =>
    rw [demote]
    split
    · rename_i h
      have hne : rec.id ≠ other.id := by
        simp only [superseded, Bool.and_eq_true, bne_iff_ne] at h
        exact h.1.1.1.1.1.symm
      rw [ih, get_put, if_neg hne]
    · exact ih t

/-- A sandbox that is not ready stays so. -/
theorem demote_notReady (env : PodEnv) (rec : SandboxRecord) {existing : List SandboxRecord}
    {t : Table SandboxRecord} {id : String}
    (h : ∃ r, get t ns id = some r ∧ r.state = .notReady) :
    ∃ r, get (demote env rec existing t) ns id = some r ∧ r.state = .notReady := by
  induction existing generalizing t with
  | nil => exact h
  | cons other existing ih =>
    rw [demote]
    split
    · apply ih
      rw [get_put]
      split
      · exact ⟨_, rfl, rfl⟩
      · exact h
    · exact ih h

/-- A listed sandbox of the same pod is demoted, unless the write fails. -/
theorem demote_demotes {env : PodEnv} {rec other : SandboxRecord}
    (hsuper : superseded rec other = true) (hput : env.demoteFails other.id = false)
    {existing : List SandboxRecord} (h : other ∈ existing) (t : Table SandboxRecord) :
    ∃ r, get (demote env rec existing t) ns other.id = some r ∧ r.state = .notReady := by
  induction existing generalizing t with
  | nil => cases h
  | cons first existing ih =>
    rw [demote]
    rcases List.mem_cons.1 h with rfl | h
    · rw [if_pos (by rw [hsuper, hput]; rfl)]
      apply demote_notReady
      refine ⟨{ other with state := .notReady }, ?_, rfl⟩
      rw [get_put, if_pos rfl]
    · split
      · exact ih h _
      · exact ih h t

/-- Nothing is written when there is nothing to demote, or every write fails. -/
theorem demote_eq_self {env : PodEnv} {rec : SandboxRecord} (t : Table SandboxRecord)
    {existing : List SandboxRecord}
    (h : ∀ other ∈ existing, superseded rec other = true → env.demoteFails other.id = true) :
    demote env rec existing t = t := by
  induction existing with
  | nil => rfl
  | cons other existing ih =>
    rw [demote]
    split
    · rename_i hother
      rw [Bool.and_eq_true] at hother
      have hfails := h other List.mem_cons_self hother.1
      rw [hfails] at hother
      cases hother.2
    · apply ih
      exact fun other hmem => h other (List.mem_cons_of_mem _ hmem)

/-- `run_pod_sandbox` keeps the sandboxes that are there. -/
theorem runPodSandbox_keeps {env : PodEnv} {t : Table SandboxRecord}
    {config : Option PodSandboxConfig} {id : String} (h : Stored t id) :
    Stored (runPodSandbox env t config).sandboxes id := by
  unfold runPodSandbox
  split
  · exact h
  · split
    · exact h
    · dsimp only
      split
      · exact h
      · have hdemoted : ∀ rec, Stored
            (if env.listFails then t else demote env rec (list t ns) t) id := by
          intro rec
          split
          · exact h
          · exact demote_keeps env rec h
        split
        · exact hdemoted _
        · exact stored_put.2 (.inr (hdemoted _))

/-- When it returns `Ok` its record is there. -/
theorem runPodSandbox_stored {env : PodEnv} {t : Table SandboxRecord}
    {config : Option PodSandboxConfig} {id : String}
    (h : (runPodSandbox env t config).result = .ok id) :
    Stored (runPodSandbox env t config).sandboxes env.id := by
  unfold runPodSandbox at h ⊢
  split at h
  · cases h
  · split at h
    · cases h
    · dsimp only at h ⊢
      split at h
      · cases h
      · split at h
        · cases h
        · exact stored_put.2 (.inl rfl)

/-- `stop_pod_sandbox` keeps the sandboxes. -/
theorem stopPodSandbox_keeps {env : PodEnv} {t : Table SandboxRecord} {id id' : String}
    (h : Stored t id') : Stored (stopPodSandbox env t id).sandboxes id' := by
  unfold stopPodSandbox
  split
  · exact h
  · exact h
  · dsimp only
    split
    · exact h
    · exact stored_put.2 (.inr h)

/-- `stop_pod_sandbox` returns `Ok` unless a metadata call it makes fails. -/
theorem stopPodSandbox_ok_iff {env : PodEnv} {t : Table SandboxRecord} {id : String} :
    (stopPodSandbox env t id).result = .ok () ↔
      env.getErr = none ∧ (env.putErr = none ∨ ¬ Stored t id) := by
  simp only [stopPodSandbox, Stored]
  cases env.getErr with
  | some e => simp
  | none =>
    cases get t ns id with
    | none => simp
    | some rec => cases env.putErr <;> simp

theorem removePodSandbox_ok_iff {env : PodEnv} {t : Table SandboxRecord} {id : String} :
    (removePodSandbox env t id).result = .ok () ↔ env.deleteErr = none := by
  simp only [removePodSandbox]
  cases env.deleteErr <;> simp

/-- What `remove_pod_sandbox` leaves. -/
theorem removePodSandbox_stored {env : PodEnv} {t : Table SandboxRecord} {id id' : String} :
    Stored (removePodSandbox env t id).sandboxes id' ↔
      Stored t id' ∧ (env.deleteErr = none → id' ≠ id) := by
  simp only [removePodSandbox]
  cases env.deleteErr with
  | some e => simp
  | none =>
    simp only [stored_delete, forall_const]
    exact and_comm

/-- A computation that goes through has gone through its first part. -/
theorem except_bind_ok {α β : Type} {x : Except Status α} {f : α → Except Status β} {b : β}
    (h : x >>= f = .ok b) : ∃ a, x = .ok a ∧ f a = .ok b := by
  cases x with
  | error e => cases h
  | ok a => exact ⟨a, rfl, h⟩

theorem okOr_eq_ok {α : Type} {x : Option α} {e : Status} {a : α} :
    okOr x e = .ok a ↔ x = some a := by
  cases x <;> simp [okOr]

theorem internalErr_eq_ok {e : Option String} : internalErr e = .ok () ↔ e = none := by
  cases e <;> simp [internalErr]

/-- `create_container` finds its sandbox, and the record refers to it. -/
theorem createContainer_ok {env : PodEnv} {t : Table SandboxRecord} {req : CreateContainerRequest}
    {rec : ContainerRecord} (h : createContainer env t req = .ok rec) :
    Stored t rec.sandboxId ∧ rec.id = env.id ∧ rec.state = .created := by
  unfold createContainer at h
  obtain ⟨_, -, h⟩ := except_bind_ok h
  obtain ⟨sandbox, hsandbox, h⟩ := except_bind_ok h
  have hstored : Stored t req.podSandboxId := by
    cases hget : get t ns req.podSandboxId with
    | none =>
      rw [hget] at hsandbox
      cases hsandbox
    | some _ =>
      rw [Stored, hget]
      rfl
  -- the rest of the steps, one after another
  iterate 10 (obtain ⟨_, -, h⟩ := except_bind_ok h)
  cases h
  exact ⟨hstored, rfl, rfl⟩

end ContainerdRs.Cri
