/-!
# Persisted records (`crates/metadata/src/records.rs`)

The container, sandbox and image records of the metadata store and the container state machine.
Fields that no modelled function reads or writes are left out.
-/

set_option autoImplicit false

namespace ContainerdRs

/-- CRI container lifecycle state. -/
inductive ContainerState where
  | created
  | running
  | exited
  | unknown
  deriving DecidableEq, Repr

/-- `ContainerState::can_transition_to`. -/
def ContainerState.canTransitionTo : ContainerState → ContainerState → Bool
  | .created, .running => true
  | .created, .exited => true
  | .running, .exited => true
  | _, .unknown => true
  | .unknown, .running => true
  | .unknown, .exited => true
  | a, b => a == b

/-- Every state may settle to `Exited`. -/
theorem ContainerState.canTransitionTo_exited (s : ContainerState) :
    s.canTransitionTo .exited = true := by
  cases s <;> rfl

/-- Every state may degrade to `Unknown`. -/
theorem ContainerState.canTransitionTo_unknown (s : ContainerState) :
    s.canTransitionTo .unknown = true := by
  cases s <;> rfl

/-- `Running` is reachable from every state but `Exited`. -/
theorem ContainerState.canTransitionTo_running (s : ContainerState) :
    s.canTransitionTo .running = true ↔ s ≠ .exited := by
  cases s <;> decide

/-- Nothing goes back to `Created`. -/
theorem ContainerState.canTransitionTo_created (s : ContainerState) :
    s.canTransitionTo .created = true ↔ s = .created := by
  cases s <;> decide

/-- `ResourcesRecord`: the CRI limits echoed in `ContainerStatus.resources`. -/
structure ResourcesRecord where
  cpuPeriod : Int
  cpuQuota : Int
  cpuShares : Int
  memoryLimitInBytes : Int
  cpusetCpus : String
  cpusetMems : String
  deriving DecidableEq, Repr

/-- `ContainerRecord`, as far as the lifecycle handlers use it. -/
structure ContainerRecord where
  id : String
  sandboxId : String
  state : ContainerState
  logPath : String
  startedAt : Option UInt64
  finishedAt : Option UInt64
  exitCode : Option Int
  reason : Option String
  resources : Option ResourcesRecord
  crunRoot : Option String
  bundleDir : Option String
  pid : Option Int
  stdin : Bool
  deriving DecidableEq, Repr

/-- `SandboxState`. -/
inductive SandboxState where
  | ready
  | notReady
  deriving DecidableEq, Repr

/-- `SandboxRecord`, as far as the pod handlers use it. -/
structure SandboxRecord where
  id : String
  name : String
  k8sNamespace : String
  uid : String
  state : SandboxState
  netnsPath : Option String
  logDirectory : String
  hostNetwork : Bool
  hostPid : Bool
  hostIpc : Bool
  sharedPid : Bool
  sharedIpc : Bool
  pidHolderPid : Option Int
  usernsModePod : Bool
  usernsUidMappings : List (UInt32 × UInt32 × UInt32)
  usernsGidMappings : List (UInt32 × UInt32 × UInt32)
  deriving DecidableEq, Repr

/-- `ImageRecord`. -/
structure ImageRecord where
  name : String
  targetDigest : String
  imageId : String
  repoTags : List String
  repoDigests : List String
  size : Nat
  layerDigests : List String
  chainIds : List String
  user : String
  deriving DecidableEq, Repr

end ContainerdRs
