import ContainerdRs.Lib.OrdMap
import ContainerdRs.Lib.Separators
import ContainerdRs.Runtime.Capabilities

/-!
# The OCI spec of a container (`crates/runtime/src/bundle.rs`)

`generate_spec`: from the image config and the container request to the OCI runtime spec.  The
spec types keep the fields that the code sets or reads.  `Node` stands for what lies outside:
the base specs of the `oci-spec` crate, the resolved default seccomp profile, files and device
nodes of the host.  Spec builders do not fail.  Maps (`HashMap`) are ordered maps.

`add_bind_mounts` also creates missing source directories; the spec does not depend on it.
-/

set_option autoImplicit false

namespace ContainerdRs.Runtime

/-! ## The request -/

/-- `Propagation`. -/
inductive Propagation where
  | priv
  | hostToContainer
  | bidirectional
  deriving DecidableEq, Repr

/-- `MountSpec`. -/
structure MountSpec where
  source : String
  destination : String
  readonly : Bool
  propagation : Propagation
  recursiveReadOnly : Bool
  deriving DecidableEq, Repr

/-- `bundle::Error`. -/
inductive Error where
  | builder (message : String)
  deriving DecidableEq, Repr

/-- `ImageConfig`. -/
structure ImageConfig where
  env : List String
  entrypoint : List String
  cmd : List String
  workingDir : Option String
  user : Option String
  deriving DecidableEq, Repr

/-- `IdMapping`. -/
structure IdMapping where
  containerId : UInt32
  hostId : UInt32
  size : UInt32
  deriving DecidableEq, Repr

/-- `DeviceRequest`. -/
structure DeviceRequest where
  hostPath : String
  containerPath : String
  permissions : String
  deriving DecidableEq, Repr

/-- `SeccompProfile`. -/
inductive SeccompProfile where
  | unconfined
  | runtimeDefault
  | localhost (path : String)
  deriving DecidableEq, Repr

/-- `Resources`. -/
structure Resources where
  cpuShares : Option UInt64
  cpuQuota : Option Int
  cpuPeriod : Option UInt64
  memoryLimit : Option Int
  cpusetCpus : Option String
  cpusetMems : Option String
  hugepageLimits : List (String × UInt64)
  unified : OrdMap String String

/-- `Resources::is_empty`. -/
def Resources.isEmpty (res : Resources) : Bool :=
  res.cpuShares.isNone && res.cpuQuota.isNone && res.cpuPeriod.isNone &&
    res.memoryLimit.isNone && res.cpusetCpus.isNone && res.cpusetMems.isNone &&
    res.hugepageLimits.isEmpty && res.unified.entries.isEmpty

/-- `ContainerRequest`. -/
structure ContainerRequest where
  command : List String
  args : List String
  envs : List (String × String)
  workingDir : Option String
  hostname : Option String
  terminal : Bool
  readonlyRootfs : Bool
  rootlessHostIds : Option (UInt32 × UInt32)
  netnsPath : Option String
  pidNsPath : Option String
  ipcNsPath : Option String
  mounts : List MountSpec
  privileged : Bool
  runAsUser : Option UInt32
  runAsGroup : Option UInt32
  supplementalGroups : List UInt32
  sysctls : OrdMap String String
  resources : Resources
  cgroupPath : Option String
  addCapabilities : List String
  dropCapabilities : List String
  noNewPrivileges : Bool
  apparmorProfile : Option String
  selinuxLabel : Option String
  maskedPaths : List String
  readonlyPaths : List String
  seccomp : SeccompProfile
  hostPid : Bool
  hostIpc : Bool
  usernsUidMappings : List IdMapping
  usernsGidMappings : List IdMapping
  devices : List DeviceRequest

/-- `ContainerRequest::default()`. -/
def ContainerRequest.default : ContainerRequest where
  command := []
  args := []
  envs := []
  workingDir := none
  hostname := none
  terminal := false
  readonlyRootfs := false
  rootlessHostIds := none
  netnsPath := none
  pidNsPath := none
  ipcNsPath := none
  mounts := []
  privileged := false
  runAsUser := none
  runAsGroup := none
  supplementalGroups := []
  sysctls := .empty
  resources := ⟨none, none, none, none, none, none, [], .empty⟩
  cgroupPath := none
  addCapabilities := []
  dropCapabilities := []
  noNewPrivileges := false
  apparmorProfile := none
  selinuxLabel := none
  maskedPaths := []
  readonlyPaths := []
  seccomp := .unconfined
  hostPid := false
  hostIpc := false
  usernsUidMappings := []
  usernsGidMappings := []
  devices := []

/-! ## The spec -/

/-- `LinuxCapabilities`. -/
structure LinuxCapabilities where
  bounding : Option (Finset Capability)
  effective : Option (Finset Capability)
  permitted : Option (Finset Capability)
  inheritable : Option (Finset Capability)
  ambient : Option (Finset Capability)
  deriving DecidableEq

/-- `User`. -/
structure User where
  uid : UInt32
  gid : UInt32
  additionalGids : Option (List UInt32)
  deriving DecidableEq, Repr

/-- `Process`. -/
structure Process where
  terminal : Option Bool
  args : Option (List String)
  env : Option (List String)
  cwd : String
  user : User
  capabilities : Option LinuxCapabilities
  noNewPrivileges : Option Bool
  apparmorProfile : Option String
  selinuxLabel : Option String
  deriving DecidableEq

/-- `Root`. -/
structure Root where
  path : String
  readonly : Option Bool
  deriving DecidableEq, Repr

/-- `Mount`. -/
structure Mount where
  destination : String
  typ : Option String
  source : Option String
  options : Option (List String)
  deriving DecidableEq, Repr

/-- `LinuxNamespaceType`. -/
inductive LinuxNamespaceType where
  | mount
  | cgroup
  | uts
  | ipc
  | user
  | pid
  | network
  | time
  deriving DecidableEq, Repr

/-- `LinuxNamespace`. -/
structure LinuxNamespace where
  typ : LinuxNamespaceType
  path : Option String
  deriving DecidableEq, Repr

/-- `LinuxDeviceType`, as far as it is used. -/
inductive LinuxDeviceType where
  | c
  | b
  | a
  deriving DecidableEq, Repr

/-- `LinuxDevice`. -/
structure LinuxDevice where
  path : String
  typ : LinuxDeviceType
  major : Int
  minor : Int
  fileMode : Option UInt32
  uid : Option UInt32
  gid : Option UInt32
  deriving DecidableEq, Repr

/-- `LinuxDeviceCgroup`. -/
structure LinuxDeviceCgroup where
  allow : Bool
  typ : Option LinuxDeviceType
  major : Option Int
  minor : Option Int
  access : Option String
  deriving DecidableEq, Repr

/-- `LinuxCpu`. -/
structure LinuxCpu where
  shares : Option UInt64
  quota : Option Int
  period : Option UInt64
  cpus : Option String
  mems : Option String
  deriving DecidableEq, Repr

/-- `LinuxResources`. -/
structure LinuxResources where
  devices : Option (List LinuxDeviceCgroup)
  cpu : Option LinuxCpu
  memoryLimit : Option Int
  hugepageLimits : Option (List (String × Int))
  unified : Option (OrdMap String String)

/-- `LinuxResources::default()`. -/
def LinuxResources.default : LinuxResources := ⟨none, none, none, none, none⟩

/-- `Linux`; `Seccomp` is `LinuxSeccomp`. -/
structure Linux (Seccomp : Type) where
  uidMappings : Option (List IdMapping)
  gidMappings : Option (List IdMapping)
  sysctl : Option (OrdMap String String)
  resources : Option LinuxResources
  cgroupsPath : Option String
  namespaces : Option (List LinuxNamespace)
  devices : Option (List LinuxDevice)
  seccomp : Option Seccomp
  rootfsPropagation : Option String
  maskedPaths : Option (List String)
  readonlyPaths : Option (List String)

/-- `Spec`. -/
structure Spec (Seccomp : Type) where
  process : Option Process
  root : Option Root
  hostname : Option String
  mounts : Option (List Mount)
  linux : Option (Linux Seccomp)

/-- `StatedDevice`. -/
structure StatedDevice where
  typ : LinuxDeviceType
  major : Int
  minor : Int
  fileMode : UInt32
  deriving DecidableEq, Repr

/-- The crates and the host that `generate_spec` asks. -/
structure Node (Seccomp : Type) where
  /-- `Spec::default()`. -/
  baseSpec : Spec Seccomp
  /-- `Spec::rootless`. -/
  rootless : UInt32 → UInt32 → Spec Seccomp
  /-- `crate::seccomp::runtime_default`. -/
  runtimeDefault : Finset String → Except String Seccomp
  /-- `std::fs::read` of a profile, with the error text. -/
  readProfile : String → Except String (List UInt8)
  /-- `serde_json::from_slice::<LinuxSeccomp>`. -/
  parseProfile : List UInt8 → Except String Seccomp
  /-- `stat_device`. -/
  statDevice : String → Except Error StatedDevice

variable {Seccomp : Type}

/-! ## Process -/

/-- `resolve_argv`. -/
def resolveArgv (image : ImageConfig) (req : ContainerRequest) : List String :=
  match req.command.isEmpty, req.args.isEmpty with
  | false, false => req.command ++ req.args
  | false, true => req.command
  | true, false => image.entrypoint ++ req.args
  | true, true => image.entrypoint ++ image.cmd

/-- One turn of the loop of `merge_env`. -/
def mergeEnvEntry (out : List String) (kv : String × String) : List String :=
  out.filter (fun e => !((kv.1 ++ "=").toList.isPrefixOf e.toList)) ++ [kv.1 ++ "=" ++ kv.2]

/-- `merge_env`. -/
def mergeEnv (image : ImageConfig) (req : ContainerRequest) : List String :=
  req.envs.foldl mergeEnvEntry image.env

/-- The value of a list of ASCII digits; `none` for an empty list or another character. -/
def digitsValue : List Char → Option Nat
  | [] => none
  | cs =>
    if cs.all (fun c => decide ('0' ≤ c ∧ c ≤ '9')) then
      some (cs.foldl (fun n c => 10 * n + (c.toNat - 48)) 0)
    else none

/-- `str::parse::<u32>`: an optional `+`, then digits, within 32 bits. -/
def parseU32 (cs : List Char) : Option UInt32 :=
  let digits := match cs with
    | '+' :: rest => rest
    | _ => cs
  match digitsValue digits with
  | some n => if n < 2 ^ 32 then some (UInt32.ofNat n) else none
  | none => none

/-- `parse_user`: names that are not numbers fall back to 0. -/
def parseUser (user : Option String) : UInt32 × UInt32 :=
  match user with
  | none => (0, 0)
  | some s =>
    if s = "" then (0, 0)
    else
      match Separators.cut ':' s.toList with
      | none => ((parseU32 s.toList).getD 0, 0)
      | some (uid, gid) => ((parseU32 uid).getD 0, (parseU32 gid).getD 0)

/-- `build_caps`. -/
def buildCaps (caps ambient : Finset Capability) : LinuxCapabilities :=
  ⟨some caps, some caps, some caps, some caps, some ambient⟩

/-- The process of the spec, before the security settings. -/
def buildProcess (image : ImageConfig) (req : ContainerRequest) : Process :=
  let user := parseUser image.user
  { terminal := some req.terminal
    args := some (resolveArgv image req)
    env := some (mergeEnv image req)
    cwd := (req.workingDir.or image.workingDir).getD "/"
    user :=
      { uid := req.runAsUser.getD user.1
        gid := req.runAsGroup.getD user.2
        additionalGids :=
          if req.supplementalGroups.isEmpty then none else some req.supplementalGroups }
    capabilities := some (buildCaps defaultCapabilities ∅)
    noNewPrivileges := some req.noNewPrivileges
    apparmorProfile := none
    selinuxLabel := none }

/-! ## The steps of `generate_spec` -/

/-- Change the `linux` section, if there is one. -/
def Spec.mapLinux (spec : Spec Seccomp) (f : Linux Seccomp → Linux Seccomp) : Spec Seccomp :=
  { spec with linux := spec.linux.map f }

/-- Change the process, if there is one. -/
def Spec.mapProcess (spec : Spec Seccomp) (f : Process → Process) : Spec Seccomp :=
  { spec with process := spec.process.map f }

/-- Drop the namespaces of a type. -/
def retainOther (typ : LinuxNamespaceType) (namespaces : List LinuxNamespace) :
    List LinuxNamespace := namespaces.filter fun n => n.typ ≠ typ

/-- `set_network_namespace`. -/
def setNetworkNamespace (spec : Spec Seccomp) (netnsPath : Option String) : Spec Seccomp :=
  spec.mapLinux fun linux =>
    let namespaces := retainOther .network (linux.namespaces.getD [])
    { linux with
      namespaces := some (match netnsPath with
        | none => namespaces
        | some path =>
          if path = "host" then namespaces else namespaces ++ [⟨.network, some path⟩]) }

/-- `apply_host_namespaces`. -/
def applyHostNamespaces (spec : Spec Seccomp) (hostPid hostIpc : Bool) : Spec Seccomp :=
  if !hostPid && !hostIpc then spec
  else
    spec.mapLinux fun linux =>
      let namespaces := linux.namespaces.getD []
      let namespaces := if hostPid then retainOther .pid namespaces else namespaces
      let namespaces := if hostIpc then retainOther .ipc namespaces else namespaces
      { linux with namespaces := some namespaces }

/-- `apply_user_namespace`. -/
def applyUserNamespace (spec : Spec Seccomp) (uid gid : List IdMapping) : Spec Seccomp :=
  if uid.isEmpty && gid.isEmpty then spec
  else
    spec.mapLinux fun linux =>
      let namespaces := linux.namespaces.getD []
      { linux with
        uidMappings := some uid
        gidMappings := some gid
        namespaces :=
          some (if namespaces.any (fun n => n.typ = .user) then namespaces
            else namespaces ++ [⟨.user, none⟩]) }

/-- `join_namespace`. -/
def joinNamespace (spec : Spec Seccomp) (typ : LinuxNamespaceType) (path : Option String) :
    Spec Seccomp :=
  match path with
  | none => spec
  | some path =>
    spec.mapLinux fun linux =>
      { linux with
        namespaces := some (retainOther typ (linux.namespaces.getD []) ++ [⟨typ, some path⟩]) }

/-- The mount options of a bind mount. -/
def mountOptions (m : MountSpec) : List String :=
  let propagation := match m.propagation with
    | .priv => "rprivate"
    | .hostToContainer => "rslave"
    | .bidirectional => "rshared"
  let access := if m.readonly then (if m.recursiveReadOnly then "rro" else "ro") else "rw"
  ["rbind", propagation, access]

/-- The rootfs propagation after one more mount. -/
def rootfsProp (prop : Option String) (m : MountSpec) : Option String :=
  match m.propagation with
  | .priv => prop
  | .hostToContainer => if prop.isNone then some "rslave" else prop
  | .bidirectional => some "rshared"

/-- `add_bind_mounts`. -/
def addBindMounts (spec : Spec Seccomp) (mounts : List MountSpec) : Spec Seccomp :=
  if mounts.isEmpty then spec
  else
    let all := spec.mounts.getD [] ++ mounts.map fun m =>
      { destination := m.destination, typ := some "bind", source := some m.source,
        options := some (mountOptions m) }
    let spec := { spec with mounts := some all }
    match mounts.foldl rootfsProp none with
    | none => spec
    | some prop => spec.mapLinux fun linux => { linux with rootfsPropagation := some prop }

/-- `*limit as i64`. -/
def asI64 (n : UInt64) : Int := if n.toNat < 2 ^ 63 then n.toNat else (n.toNat : Int) - 2 ^ 64

/-- All entries of a map over another one. -/
def extendMap (m entries : OrdMap String String) : OrdMap String String :=
  entries.entries.foldl (fun acc e => acc.insert e.1 e.2) m

/-- `apply_resources`. -/
def applyResources (spec : Spec Seccomp) (res : Resources) : Spec Seccomp :=
  if res.isEmpty then spec
  else
    spec.mapLinux fun linux =>
      let resources := linux.resources.getD .default
      let cpu : LinuxCpu :=
        { shares := res.cpuShares, quota := res.cpuQuota, period := res.cpuPeriod
          cpus := res.cpusetCpus.filter (· ≠ ""), mems := res.cpusetMems.filter (· ≠ "") }
      let hugepages := res.hugepageLimits.map fun h => (h.1, asI64 h.2)
      { linux with
        resources := some
          { resources with
            cpu := some cpu
            memoryLimit := res.memoryLimit.or resources.memoryLimit
            hugepageLimits := if hugepages.isEmpty then resources.hugepageLimits else some hugepages
            unified :=
              if res.unified.entries.isEmpty then resources.unified
              else some (extendMap (resources.unified.getD .empty) res.unified) } }

/-- `set_cgroups_path` and `apply_resources`, when a cgroup parent is given. -/
def applyCgroup (spec : Spec Seccomp) (req : ContainerRequest) : Spec Seccomp :=
  match req.cgroupPath with
  | none => spec
  | some path =>
    if path = "" then spec
    else
      applyResources (spec.mapLinux fun linux => { linux with cgroupsPath := some path })
        req.resources

/-- `apply_privileged`. -/
def applyPrivileged (spec : Spec Seccomp) : Spec Seccomp :=
  let spec := spec.mapProcess fun process =>
    { process with capabilities := some (buildCaps allCapabilities allCapabilities) }
  spec.mapLinux fun linux =>
    let rule : LinuxDeviceCgroup := ⟨true, none, none, none, some "rwm"⟩
    { linux with
      maskedPaths := none
      readonlyPaths := none
      resources := some { linux.resources.getD .default with devices := some [rule] } }

/-- The bounding set of a spec, empty when there is none. -/
def boundingSet (spec : Spec Seccomp) : Finset Capability :=
  ((spec.process.bind (·.capabilities)).bind (·.bounding)).getD ∅

/-- `apply_capabilities`. -/
def applyCapabilities (spec : Spec Seccomp) (add drop : List String) : Spec Seccomp :=
  if add.isEmpty && drop.isEmpty then spec
  else
    -- drops first, so that adds win
    let capSet := add.foldl addCap (drop.foldl dropCap (boundingSet spec))
    spec.mapProcess fun process => { process with capabilities := some (buildCaps capSet capSet) }

/-- `effective_capabilities`: the serialised names of the bounding set. -/
def effectiveCapabilities (spec : Spec Seccomp) : Finset String :=
  (boundingSet spec).image fun c => "CAP_" ++ c.name

/-- The seccomp profile of a request; `none` leaves the spec's own. -/
def resolveSeccomp (node : Node Seccomp) (spec : Spec Seccomp) :
    SeccompProfile → Except Error (Option Seccomp)
  | .unconfined => .ok none
  | .runtimeDefault =>
    match node.runtimeDefault (effectiveCapabilities spec) with
    | .ok seccomp => .ok (some seccomp)
    | .error e => .error (.builder ("build RuntimeDefault seccomp profile: " ++ e))
  | .localhost path =>
    match node.readProfile path with
    | .error e => .error (.builder ("read seccomp profile " ++ path ++ ": " ++ e))
    | .ok bytes =>
      match node.parseProfile bytes with
      | .error e => .error (.builder ("parse seccomp profile " ++ path ++ ": " ++ e))
      | .ok seccomp => .ok (some seccomp)

/-- `apply_security`. -/
def applySecurity (node : Node Seccomp) (spec : Spec Seccomp) (req : ContainerRequest) :
    Except Error (Spec Seccomp) :=
  let spec := spec.mapProcess fun process =>
    { process with
      noNewPrivileges := if req.noNewPrivileges then some true else process.noNewPrivileges
      apparmorProfile := req.apparmorProfile.or process.apparmorProfile
      selinuxLabel := req.selinuxLabel.or process.selinuxLabel }
  match spec.linux with
  | none => .ok spec
  | some linux =>
    match resolveSeccomp node spec req.seccomp with
    | .error e => .error e
    | .ok seccomp =>
      .ok { spec with
        linux := some
          { linux with
            maskedPaths :=
              if req.maskedPaths.isEmpty then linux.maskedPaths else some req.maskedPaths
            readonlyPaths :=
              if req.readonlyPaths.isEmpty then linux.readonlyPaths else some req.readonlyPaths
            seccomp := seccomp.or linux.seccomp } }

/-- `sanitize_device_access`. -/
def sanitizeDeviceAccess (perms : String) : String :=
  let s := perms.toList.filter fun c => c = 'r' ∨ c = 'w' ∨ c = 'm'
  if s.isEmpty then "rwm" else String.ofList s

/-- The loop of `apply_devices`: device nodes and allow rules. -/
def addDevices (node : Node Seccomp) : List DeviceRequest → List LinuxDevice →
    List LinuxDeviceCgroup → Except Error (List LinuxDevice × List LinuxDeviceCgroup)
  | [], nodes, allow => .ok (nodes, allow)
  | d :: devices, nodes, allow =>
    match node.statDevice d.hostPath with
    | .error e => .error e
    | .ok dev =>
      addDevices node devices
        (nodes ++ [⟨d.containerPath, dev.typ, dev.major, dev.minor, some dev.fileMode,
          some 0, some 0⟩])
        (allow ++ [⟨true, some dev.typ, some dev.major, some dev.minor,
          some (sanitizeDeviceAccess d.permissions)⟩])

/-- `apply_devices`. -/
def applyDevices (node : Node Seccomp) (spec : Spec Seccomp) (devices : List DeviceRequest) :
    Except Error (Spec Seccomp) :=
  if devices.isEmpty then .ok spec
  else
    match spec.linux with
    | none => .ok spec
    | some linux =>
      let resources := linux.resources.getD .default
      match addDevices node devices (linux.devices.getD []) (resources.devices.getD []) with
      | .error e => .error e
      | .ok (nodes, allow) =>
        .ok { spec with
          linux := some
            { linux with
              devices := some nodes
              resources := some { resources with devices := some allow } } }

/-- `apply_sysctls`. -/
def applySysctls (spec : Spec Seccomp) (sysctls : OrdMap String String) : Spec Seccomp :=
  if sysctls.entries.isEmpty then spec
  else
    spec.mapLinux fun linux =>
      { linux with sysctl := some (extendMap (linux.sysctl.getD .empty) sysctls) }

/-- The spec before the privileged or the security step. -/
def unconfinedSpec (node : Node Seccomp) (image : ImageConfig) (req : ContainerRequest)
    (rootfs : String) : Spec Seccomp :=
  let spec := match req.rootlessHostIds with
    | some (uid, gid) => node.rootless uid gid
    | none => node.baseSpec
  let spec : Spec Seccomp :=
    { spec with
      process := some (buildProcess image req)
      root := some ⟨rootfs, some req.readonlyRootfs⟩
      hostname := req.hostname }
  let spec := setNetworkNamespace spec req.netnsPath
  let spec := applyHostNamespaces spec req.hostPid req.hostIpc
  let spec := applyUserNamespace spec req.usernsUidMappings req.usernsGidMappings
  let spec := joinNamespace spec .pid req.pidNsPath
  let spec := joinNamespace spec .ipc req.ipcNsPath
  let spec := addBindMounts spec req.mounts
  applyCgroup spec req

/-- `generate_spec`. -/
def generateSpec (node : Node Seccomp) (image : ImageConfig) (req : ContainerRequest)
    (rootfs : String) : Except Error (Spec Seccomp) :=
  let spec := unconfinedSpec node image req rootfs
  if req.privileged then .ok (applySysctls (applyPrivileged spec) req.sysctls)
  else
    match applySecurity node (applyCapabilities spec req.addCapabilities req.dropCapabilities)
      req with
    | .error e => .error e
    | .ok spec =>
      match applyDevices node spec req.devices with
      | .error e => .error e
      | .ok spec => .ok (applySysctls spec req.sysctls)

/-! ## What the fallible steps do -/

/-- The process that the security step leaves. -/
def ContainerRequest.secured (req : ContainerRequest) (process : Process) : Process :=
  { process with
    noNewPrivileges := if req.noNewPrivileges then some true else process.noNewPrivileges
    apparmorProfile := req.apparmorProfile.or process.apparmorProfile
    selinuxLabel := req.selinuxLabel.or process.selinuxLabel }

/-- `apply_security` changes the process, and of a `linux` section the paths and the profile. -/
theorem applySecurity_cases {node : Node Seccomp} {spec spec' : Spec Seccomp}
    {req : ContainerRequest} (h : applySecurity node spec req = .ok spec') :
    (spec.linux = none ∧ spec' = spec.mapProcess req.secured) ∨
      ∃ linux seccomp, spec.linux = some linux ∧
        resolveSeccomp node (spec.mapProcess req.secured) req.seccomp = .ok seccomp ∧
        spec' = { spec.mapProcess req.secured with
          linux := some
            { linux with
              maskedPaths :=
                if req.maskedPaths.isEmpty then linux.maskedPaths else some req.maskedPaths
              readonlyPaths :=
                if req.readonlyPaths.isEmpty then linux.readonlyPaths else some req.readonlyPaths
              seccomp := seccomp.or linux.seccomp } } := by
  unfold applySecurity at h
  dsimp only at h
  split at h
  · rename_i hlinux
    cases h
    exact Or.inl ⟨hlinux, rfl⟩
  · rename_i linux hlinux
    split at h
    · cases h
    · rename_i seccomp hseccomp
      cases h
      exact Or.inr ⟨linux, seccomp, hlinux, hseccomp, rfl⟩

/-- `apply_devices` changes the devices of the `linux` section and of its resources. -/
theorem applyDevices_cases {node : Node Seccomp} {spec spec' : Spec Seccomp}
    {devices : List DeviceRequest} (h : applyDevices node spec devices = .ok spec') :
    spec' = spec ∨ ∃ nodes allow, spec' = spec.mapLinux fun linux =>
      { linux with
        devices := some nodes
        resources := some { linux.resources.getD .default with devices := some allow } } := by
  unfold applyDevices at h
  split at h
  · cases h
    exact Or.inl rfl
  · split at h
    · cases h
      exact Or.inl rfl
    · rename_i linux hlinux
      dsimp only at h
      split at h
      · cases h
      · rename_i nodes allow _
        cases h
        refine Or.inr ⟨nodes, allow, ?_⟩
        rw [Spec.mapLinux, hlinux]
        rfl

/-- The two branches of `generate_spec`. -/
theorem generateSpec_cases {node : Node Seccomp} {image : ImageConfig} {req : ContainerRequest}
    {rootfs : String} {spec : Spec Seccomp} (h : generateSpec node image req rootfs = .ok spec) :
    (req.privileged = true ∧
      spec = applySysctls (applyPrivileged (unconfinedSpec node image req rootfs)) req.sysctls) ∨
    (req.privileged = false ∧ ∃ secure final,
      applySecurity node (applyCapabilities (unconfinedSpec node image req rootfs)
        req.addCapabilities req.dropCapabilities) req = .ok secure ∧
      applyDevices node secure req.devices = .ok final ∧
      spec = applySysctls final req.sysctls) := by
  unfold generateSpec at h
  dsimp only at h
  split at h
  · rename_i hpriv
    cases h
    exact Or.inl ⟨hpriv, rfl⟩
  · rename_i hpriv
    split at h
    · cases h
    · rename_i secure hsecurity
      split at h
      · cases h
      · rename_i final hdevices
        cases h
        exact Or.inr ⟨Bool.eq_false_iff.2 hpriv, secure, final, hsecurity, hdevices, rfl⟩

/-- The steps of a non-privileged request. -/
theorem generateSpec_confined {node : Node Seccomp} {image : ImageConfig}
    {req : ContainerRequest} {rootfs : String} {spec : Spec Seccomp}
    (hpriv : req.privileged = false) (h : generateSpec node image req rootfs = .ok spec) :
    ∃ secure final, applySecurity node (applyCapabilities (unconfinedSpec node image req rootfs)
        req.addCapabilities req.dropCapabilities) req = .ok secure ∧
      applyDevices node secure req.devices = .ok final ∧
      spec = applySysctls final req.sysctls := by
  rcases generateSpec_cases h with ⟨htrue, -⟩ | ⟨-, hsteps⟩
  · rw [hpriv] at htrue
    cases htrue
  · exact hsteps

end ContainerdRs.Runtime
