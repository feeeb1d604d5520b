import ContainerdRs.Cri.Lifecycle

/-!
# Queries (`crates/cri/src/server.rs`)

`container_status` and `list_containers`: both answer from the stored record alone.
-/

set_option autoImplicit false

namespace ContainerdRs.Cri

/-- `v1::ContainerState`, as the numbers on the wire. -/
def containerCreated : Int := 0
def containerRunning : Int := 1
def containerExited : Int := 2
def containerUnknown : Int := 3

/-- `container_state_i32`. -/
def containerStateI32 : ContainerState → Int
  | .created => containerCreated
  | .running => containerRunning
  | .exited => containerExited
  | .unknown => containerUnknown

theorem containerStateI32_eq_running {s : ContainerState} :
    containerStateI32 s = containerRunning ↔ s = .running := by
  cases s <;> decide

/-- `record_to_cri_resources`: the fields it does not set have the defaults of the message. -/
def recordToCriResources (rec : ResourcesRecord) : LinuxContainerResources where
  cpuPeriod := rec.cpuPeriod
  cpuQuota := rec.cpuQuota
  cpuShares := rec.cpuShares
  memoryLimitInBytes := rec.memoryLimitInBytes
  cpusetCpus := rec.cpusetCpus
  cpusetMems := rec.cpusetMems

/-- `v1::ContainerStatus`, the fields that come from the modelled part of the record. -/
structure ContainerStatus where
  id : String
  state : Int
  startedAt : Int
  finishedAt : Int
  exitCode : Int
  reason : String
  logPath : String
  resources : Option LinuxContainerResources
  deriving DecidableEq, Repr

/-- `x.unwrap_or(0) as i64`. -/
def nanosI64 (x : Option UInt64) : Int := (x.getD 0).toBitVec.toInt

/-- `container_status`; `metaErr` is the error text of the metadata store. -/
def containerStatus (c : Ctx) (metaErr : Option String) (record : Option ContainerRecord) :
    Except Status ContainerStatus :=
  match metaErr, record with
  | some e, _ => .error ⟨.internal, e⟩
  | none, none => .error (notFound c)
  | none, some rec => .ok
    { id := rec.id
      state := containerStateI32 rec.state
      startedAt := nanosI64 rec.startedAt
      finishedAt := nanosI64 rec.finishedAt
      exitCode := rec.exitCode.getD 0
      reason := rec.reason.getD ""
      logPath := rec.logPath
      resources := rec.resources.map recordToCriResources }

/-- `v1::ContainerFilter`.  `labels` is whether the labels of a record, which the model leaves out,
    match `label_selector`. -/
structure ContainerFilter where
  id : String
  podSandboxId : String
  state : Option Int
  labels : ContainerRecord → Bool

/-- `v1::Container`, the fields that come from the modelled part of the record. -/
structure Container where
  id : String
  podSandboxId : String
  state : Int
  deriving DecidableEq, Repr

/-- `list_containers`, which records are listed. -/
def ContainerFilter.matches (f : ContainerFilter) (r : ContainerRecord) : Bool :=
  (f.id == "" || f.id == r.id) && (f.podSandboxId == "" || f.podSandboxId == r.sandboxId) &&
    f.state.all (· == containerStateI32 r.state) && f.labels r

/-- `list_containers`, on the stored records. -/
def listContainers (metaErr : Option String) (filter : Option ContainerFilter)
    (records : List ContainerRecord) : Except Status (List Container) :=
  match metaErr with
  | some e => .error ⟨.internal, e⟩
  | none => .ok ((records.filter fun r => filter.all (·.matches r)).map fun r =>
    { id := r.id, podSandboxId := r.sandboxId, state := containerStateI32 r.state })

end ContainerdRs.Cri
