import ContainerdRs.Cri.CreateContainer
import ContainerdRs.Cri.Resources
import ContainerdRs.Cri.ImageUser
import ContainerdRs.Cri.Spdy.NvCodec

/-!
# Identities and limits of a container, from the request to the spec

`create_container` turns the CRI request and the sandbox into a `ContainerRequest`
(`crates/cri/src/server.rs`), and `generate_spec` (`crates/runtime/src/bundle.rs`) turns that into
the OCI spec.  The user, the groups and the hugepage limits change their integer type on the way.

* `FullContainerConfig.containerReq` — the conversion.
* `asU32_toNat_eq_iff`, `asI64_eq_iff` — what the casts keep.
* `identities_carried_iff` — when the spec carries the integers of the request.
* `user_becomes_root` — a user that is not 0 and runs as root.
-/

set_option autoImplicit false

open ContainerdRs.Runtime

namespace ContainerdRs.Cri

/-! ## The request -/

/-- `v1::Mount`, with the field that is only converted. -/
structure FullMount extends Mount where
  hostPath : String

/-- `v1::KeyValue`. -/
structure KeyValue where
  key : String
  value : Bytes

/-- `v1::SecurityProfile`; the type is a number on the wire. -/
structure SecurityProfile where
  profileType : Int
  localhostRef : String

/-- `security_profile::ProfileType`. -/
def profileRuntimeDefault : Int := 0
def profileUnconfined : Int := 1
def profileLocalhost : Int := 2

/-- `v1::SeLinuxOption`. -/
structure SeLinuxOption where
  user : String
  role : String
  type : String
  level : String

/-- `v1::Capability`, what is converted. -/
structure CapabilityChange where
  addCapabilities : List String
  dropCapabilities : List String

/-- `v1::LinuxContainerSecurityContext`, what is converted.  The identities are of type `i64`. -/
structure LinuxContainerSecurityContext where
  capabilities : Option CapabilityChange
  privileged : Bool
  selinuxOptions : Option SeLinuxOption
  runAsUser : Option Int
  runAsGroup : Option Int
  runAsUsername : String
  readonlyRootfs : Bool
  supplementalGroups : List Int
  noNewPrivs : Bool
  maskedPaths : List String
  readonlyPaths : List String
  seccomp : Option SecurityProfile
  apparmor : Option SecurityProfile

/-- `v1::LinuxContainerConfig`. -/
structure LinuxContainerConfig where
  resources : Option CriResources
  securityContext : Option LinuxContainerSecurityContext

/-- `v1::ContainerConfig`, what is validated, converted or stored. -/
structure FullContainerConfig where
  command : List String
  args : List String
  workingDir : String
  envs : List KeyValue
  mounts : List FullMount
  devices : List DeviceRequest
  logPath : String
  stdin : Bool
  tty : Bool
  linux : Option LinuxContainerConfig

/-- `v1::CreateContainerRequest`. -/
structure FullCreateRequest where
  podSandboxId : String
  config : Option FullContainerConfig

/-- The fields of a stored sandbox that only the conversion reads. -/
structure SandboxExtras where
  hostname : String
  resolvConfPath : Option String
  sysctls : OrdMap String String
  cgroupParent : String

/-- What the conversion asks of the host. -/
structure HostFacts where
  /-- `getuid`, `getgid`. -/
  uid : UInt32
  gid : UInt32
  selinuxEnabled : Bool
  isFile : String → Bool

namespace FullContainerConfig

/-- `sec_ctx`. -/
def secCtx (config : FullContainerConfig) : Option LinuxContainerSecurityContext :=
  config.linux.bind (·.securityContext)

def resources (config : FullContainerConfig) : Option CriResources :=
  config.linux.bind (·.resources)

def runAsUser (config : FullContainerConfig) : Option Int := config.secCtx.bind (·.runAsUser)

def runAsGroup (config : FullContainerConfig) : Option Int := config.secCtx.bind (·.runAsGroup)

def supplementalGroups (config : FullContainerConfig) : List Int :=
  (config.secCtx.map (·.supplementalGroups)).getD []

def hugepageLimits (config : FullContainerConfig) : List HugepageLimit :=
  (config.resources.map (·.hugepageLimits)).getD []

/-- What the checks and the record look at. -/
def toConfig (config : FullContainerConfig) : ContainerConfig where
  mounts := config.mounts.map (·.toMount)
  logPath := config.logPath
  stdin := config.stdin
  runAsUser := config.runAsUser
  runAsGroup := config.runAsGroup
  runAsUsername := (config.secCtx.map (·.runAsUsername)).getD ""
  resources := config.resources.map (·.toLinuxContainerResources)

end FullContainerConfig

/-! ## The conversion -/

/-- `n as u32`. -/
def asU32 (n : Int) : UInt32 := UInt32.ofNat (n % 2 ^ 32).toNat

/-- `map_seccomp`. -/
def mapSeccomp : Option SecurityProfile → SeccompProfile
  | none => .unconfined
  | some p =>
    if p.profileType = profileRuntimeDefault then .runtimeDefault
    else if p.profileType = profileLocalhost then .localhost p.localhostRef
    else .unconfined

/-- `map_apparmor`. -/
def mapApparmor (p : Option SecurityProfile) : Option String := do
  let p ← p
  if p.profileType = profileLocalhost ∧ p.localhostRef ≠ "" then some p.localhostRef
  else if p.profileType = profileUnconfined then some "unconfined"
  else none

/-- `map_selinux`. -/
def mapSelinux (o : Option SeLinuxOption) : Option String := do
  let o ← o
  if o.user = "" ∧ o.role = "" ∧ o.type = "" ∧ o.level = "" then none
  else some (o.user ++ ":" ++ o.role ++ ":" ++ o.type ++ ":" ++ o.level)

/-- `MountPropagation::{PropagationHostToContainer, PropagationBidirectional}`. -/
def propagationHostToContainer : Int := 1
def propagationBidirectional : Int := 2

/-- `MountSpec` of a mount. -/
def FullMount.mountSpec (m : FullMount) : MountSpec where
  source := m.hostPath
  destination := m.containerPath
  readonly := m.readonly
  propagation :=
    if m.propagation = propagationHostToContainer then .hostToContainer
    else if m.propagation = propagationBidirectional then .bidirectional
    else .priv
  recursiveReadOnly := m.recursiveReadOnly

/-- The mount of the pod's `resolv.conf`, unless the container mounts there. -/
def resolvConfMount (host : HostFacts) (extras : SandboxExtras) (mounts : List MountSpec) :
    List MountSpec :=
  match extras.resolvConfPath with
  | none => []
  | some rc =>
    if !mounts.any (·.destination == "/etc/resolv.conf") && host.isFile rc then
      [⟨rc, "/etc/resolv.conf", true, .priv, false⟩]
    else []

/-- A namespace of the holder, if the pod shares it. -/
def holderNamespace (shared : Bool) (holder : Option Int) (name : String) : Option String :=
  if shared then holder.map fun p => "/proc/" ++ toString p ++ "/ns/" ++ name else none

/-- `container_req`. -/
def FullContainerConfig.containerReq (host : HostFacts) (id : String) (sandbox : SandboxRecord)
    (extras : SandboxExtras) (config : FullContainerConfig) : ContainerRequest :=
  let sc := config.secCtx
  let privileged := (sc.map (·.privileged)).getD false
  let mounts := config.mounts.map (·.mountSpec)
  let capabilities := sc.bind (·.capabilities)
  { command := config.command
    args := config.args
    envs := config.envs.map fun kv => (kv.key, Spdy.fromUtf8Lossy kv.value)
    workingDir := if config.workingDir ≠ "" then some config.workingDir else none
    -- the pods on the host network leave the name to the node
    hostname :=
      if !sandbox.hostNetwork && extras.hostname != "" then some extras.hostname else none
    terminal := config.tty
    readonlyRootfs := (sc.map (·.readonlyRootfs)).getD false
    rootlessHostIds := if host.uid = 0 then none else some (host.uid, host.gid)
    netnsPath := sandbox.netnsPath
    pidNsPath := holderNamespace sandbox.sharedPid sandbox.pidHolderPid "pid"
    ipcNsPath := holderNamespace sandbox.sharedIpc sandbox.pidHolderPid "ipc"
    mounts := mounts ++ resolvConfMount host extras mounts
    privileged := privileged
    runAsUser := config.runAsUser.map asU32
    runAsGroup := config.runAsGroup.map asU32
    supplementalGroups := config.supplementalGroups.map asU32
    sysctls := extras.sysctls
    resources := requestedResources config.resources
    cgroupPath := requestCgroupPath extras.cgroupParent id
    addCapabilities := (capabilities.map (·.addCapabilities)).getD []
    dropCapabilities := (capabilities.map (·.dropCapabilities)).getD []
    noNewPrivileges := (sc.map (·.noNewPrivs)).getD false
    apparmorProfile := mapApparmor (sc.bind (·.apparmor))
    selinuxLabel := if host.selinuxEnabled then mapSelinux (sc.bind (·.selinuxOptions)) else none
    maskedPaths := (sc.map (·.maskedPaths)).getD []
    readonlyPaths := (sc.map (·.readonlyPaths)).getD []
    seccomp := mapSeccomp (sc.bind (·.seccomp))
    hostPid := sandbox.hostPid
    hostIpc := sandbox.hostIpc
    usernsUidMappings := sandbox.usernsUidMappings.map Create.idMapping
    usernsGidMappings := sandbox.usernsGidMappings.map Create.idMapping
    -- a privileged container has every device already
    devices := if privileged then [] else config.devices }

/-- The call of a whole request. -/
def createContainerOf {β Seccomp : Type} (env : Create.Env β Seccomp) (host : HostFacts)
    (extras : SandboxRecord → SandboxExtras) (sandboxes : Metadata.Table SandboxRecord)
    (req : FullCreateRequest) : Fallible Status Create.World ContainerRecord :=
  Create.createContainer
    { env with
      containerReq := fun sandbox _ =>
        match req.config with
        | some config => config.containerReq host env.id sandbox (extras sandbox)
        | none => .default }
    sandboxes ⟨req.podSandboxId, req.config.map (·.toConfig)⟩

/-! ## Casts -/

/-- A cast to `u32` keeps the integers that a `u32` holds. -/
theorem asU32_toNat_eq_iff {n : Int} : ((asU32 n).toNat : Int) = n ↔ 0 ≤ n ∧ n < 2 ^ 32 := by
  have hlt : (n % 2 ^ 32).toNat < 2 ^ 32 := by omega
  rw [asU32, UInt32.toNat_ofNat_of_lt' hlt]
  omega

/-- A cast from `u64` to `i64` keeps the integers that an `i64` holds. -/
theorem asI64_eq_iff {n : UInt64} : asI64 n = (n.toNat : Int) ↔ n.toNat < 2 ^ 63 := by
  unfold asI64
  split
  · rename_i hlt
    exact iff_of_true rfl hlt
  · rename_i hge
    have := n.toNat_lt
    omega

/-! ## What is promised, and when -/

variable {β Seccomp : Type}

/-- **Nothing is truncated**: the spec has the user, the groups and the hugepage limits that were
    requested, as the same integers, and a user other than 0 is not 0. -/
structure Carried (config : FullContainerConfig) (spec : Spec Seccomp) : Prop where
  user : ∀ n, config.runAsUser = some n →
    ∃ u, processUser spec = some u ∧ (u.uid.toNat : Int) = n ∧ (n ≠ 0 → u.uid ≠ 0)
  group : ∀ n, config.runAsGroup = some n →
    ∃ u, processUser spec = some u ∧ (u.gid.toNat : Int) = n
  groups : ∃ u, processUser spec = some u ∧
    (u.additionalGids.getD []).map (fun g => (g.toNat : Int)) = config.supplementalGroups
  hugepages : ∃ limits, spec.limits? = some limits ∧
    limits.hugepageLimits = config.hugepageLimits.map fun h => (h.pageSize, (h.limit.toNat : Int))

/-- The identities are below 2³², and not negative; the hugepage limits are below 2⁶³, and of the
    kind that is programmed: positive and for a page size, in a pod with a cgroup. -/
structure Exact (cgroupParent : String) (config : FullContainerConfig) : Prop where
  user : ∀ n, config.runAsUser = some n → 0 ≤ n ∧ n < 2 ^ 32
  group : ∀ n, config.runAsGroup = some n → 0 ≤ n ∧ n < 2 ^ 32
  groups : ∀ g ∈ config.supplementalGroups, 0 ≤ g ∧ g < 2 ^ 32
  hugepages : ∀ h ∈ config.hugepageLimits,
    cgroupParent ≠ "" ∧ h.pageSize ≠ "" ∧ 0 < h.limit ∧ h.limit.toNat < 2 ^ 63

/-! ## The generated spec -/

/-- A call that succeeds got past the checks, and generated a spec. -/
theorem createContainer_generates {env : Create.Env β Seccomp}
    {sandboxes : Metadata.Table SandboxRecord} {req : CreateContainerRequest} {w : Create.World}
    (h : Fallible.Succeeds (Create.createContainer env sandboxes req) w) :
    ∃ sandbox config image spec, Create.Accepted env sandboxes req sandbox config image ∧
      generateSpec env.node image.1 (Create.containerRequest env sandbox config) env.rootfsPath =
        .ok spec := by
  obtain ⟨_, hread, h⟩ := Fallible.succeeds_bind.1 h
  obtain ⟨sandbox, hfound, h⟩ := Fallible.succeeds_bind.1 h
  obtain ⟨config, hgiven, h⟩ := Fallible.succeeds_bind.1 h
  obtain ⟨image, hresolved, h⟩ := Fallible.succeeds_bind.1 h
  obtain ⟨_, hrunAs, h⟩ := Fallible.succeeds_bind.1 h
  obtain ⟨_, hmounts, h⟩ := Fallible.succeeds_bind.1 h
  obtain ⟨_, -, h⟩ := Fallible.succeeds_bind.1 h
  obtain ⟨_, -, h⟩ := Fallible.succeeds_bind.1 h
  obtain ⟨_, -, h⟩ := Fallible.succeeds_bind.1 h
  obtain ⟨spec, hspec, -⟩ := Fallible.succeeds_bind.1 h
  refine ⟨sandbox, config, image, spec, ?_, Create.generateSpec_ok_iff.1 hspec⟩
  exact ⟨internalErr_eq_ok.1 hread, okOr_eq_ok.1 hfound, okOr_eq_ok.1 hgiven, hresolved, hrunAs,
    hmounts⟩

section Spec

variable {node : Node Seccomp} {image : ImageConfig} {config : FullContainerConfig}
  {host : HostFacts} {id rootfs : String} {sandbox : SandboxRecord} {extras : SandboxExtras}
  {spec : Spec Seccomp}

/-- One identity of the spec's user, cast from a requested integer. -/
theorem identity_carried_iff {user : User} (huser : processUser spec = some user)
    {field : User → UInt32} {n : Int} (hfield : field user = asU32 n) :
    (∃ u, processUser spec = some u ∧ ((field u).toNat : Int) = n) ↔ 0 ≤ n ∧ n < 2 ^ 32 := by
  rw [← asU32_toNat_eq_iff, ← hfield]
  constructor
  · rintro ⟨u, hu, hsame⟩
    obtain rfl : user = u := Option.some.inj (huser.symm.trans hu)
    exact hsame
  · intro hsame
    exact ⟨user, huser, hsame⟩

theorem user_carried_iff
    (h : generateSpec node image (config.containerReq host id sandbox extras) rootfs = .ok spec) :
    (∀ n, config.runAsUser = some n →
      ∃ u, processUser spec = some u ∧ (u.uid.toNat : Int) = n ∧ (n ≠ 0 → u.uid ≠ 0)) ↔
      ∀ n, config.runAsUser = some n → 0 ≤ n ∧ n < 2 ^ 32 := by
  refine forall_congr' fun n => forall_congr' fun hn => ?_
  have huid : (buildProcess image (config.containerReq host id sandbox extras)).user.uid =
      asU32 n := by
    simp [buildProcess, FullContainerConfig.containerReq, hn]
  have hcarried := identity_carried_iff (processUser_generateSpec h) huid
  constructor
  · rintro ⟨u, hu, hsame, -⟩
    exact hcarried.1 ⟨u, hu, hsame⟩
  · intro hrange
    obtain ⟨u, hu, hsame⟩ := hcarried.2 hrange
    refine ⟨u, hu, hsame, ?_⟩
    intro hne hzero
    rw [hzero] at hsame
    exact hne hsame.symm

theorem group_carried_iff
    (h : generateSpec node image (config.containerReq host id sandbox extras) rootfs = .ok spec) :
    (∀ n, config.runAsGroup = some n →
      ∃ u, processUser spec = some u ∧ (u.gid.toNat : Int) = n) ↔
      ∀ n, config.runAsGroup = some n → 0 ≤ n ∧ n < 2 ^ 32 := by
  refine forall_congr' fun n => forall_congr' fun hn => ?_
  have hgid : (buildProcess image (config.containerReq host id sandbox extras)).user.gid =
      asU32 n := by
    simp [buildProcess, FullContainerConfig.containerReq, hn]
  exact identity_carried_iff (processUser_generateSpec h) hgid

/-- The additional groups of the spec, as integers. -/
theorem additionalGids_getD (req : ContainerRequest) :
    (buildProcess image req).user.additionalGids.getD [] = req.supplementalGroups := by
  simp only [buildProcess]
  split
  · rename_i hnil
    exact (List.isEmpty_iff.1 hnil).symm
  · rfl

theorem groups_carried_iff
    (h : generateSpec node image (config.containerReq host id sandbox extras) rootfs = .ok spec) :
    (∃ u, processUser spec = some u ∧
      (u.additionalGids.getD []).map (fun g => (g.toNat : Int)) = config.supplementalGroups) ↔
      ∀ g ∈ config.supplementalGroups, 0 ≤ g ∧ g < 2 ^ 32 := by
  have hmap : ((config.supplementalGroups.map asU32).map fun g => (g.toNat : Int)) =
      config.supplementalGroups ↔ ∀ g ∈ config.supplementalGroups, 0 ≤ g ∧ g < 2 ^ 32 := by
    rw [List.map_map]
    nth_rewrite 2 [← List.map_id config.supplementalGroups]
    rw [List.map_inj_left]
    exact forall_congr' fun g => forall_congr' fun _ => asU32_toNat_eq_iff
  rw [processUser_generateSpec h, ← hmap]
  constructor
  · rintro ⟨u, hu, hsame⟩
    cases hu
    rwa [additionalGids_getD] at hsame
  · intro hsame
    refine ⟨_, rfl, ?_⟩
    rwa [additionalGids_getD]

theorem requestCgroupPath_eq {cgroupParent : String} (h : cgroupParent ≠ "") :
    requestCgroupPath cgroupParent id = some (cgroupsPath cgroupParent id) := if_pos h

/-- The limits of the spec are those of the request that are programmed; without a cgroup, none. -/
theorem hugepages_generateSpec (hnode : node.Unlimited)
    (h : generateSpec node image (config.containerReq host id sandbox extras) rootfs = .ok spec) :
    ∃ limits, spec.limits? = some limits ∧
      limits.hugepageLimits =
        ((config.hugepageLimits.filter fun h =>
          extras.cgroupParent ≠ "" ∧ h.pageSize ≠ "" ∧ 0 < h.limit).map fun h =>
            (h.pageSize, asI64 h.limit)) := by
  by_cases hparent : extras.cgroupParent = ""
  · refine ⟨.unset, limits_generateSpec_none hnode (if_neg (not_not.2 hparent)) h, ?_⟩
    simp [hparent, Limits.unset]
  · refine ⟨_, limits_generateSpec hnode (requestCgroupPath_eq hparent)
      (cgroupsPath_ne_empty _ _) h, ?_⟩
    simp only [Resources.limits, FullContainerConfig.containerReq, requestedResources,
      FullContainerConfig.hugepageLimits, hparent, ne_eq, not_false_eq_true, true_and]
    cases config.resources with
    | none => rfl
    | some r =>
      simp only [Option.map_some, Option.getD_some, criResources, List.map_map]
      refine congrArg₂ List.map rfl (List.filter_congr fun h _ => ?_)
      rw [Bool.eq_iff_iff]
      simp [and_comm]

theorem hugepages_carried_iff (hnode : node.Unlimited)
    (h : generateSpec node image (config.containerReq host id sandbox extras) rootfs = .ok spec) :
    (∃ limits, spec.limits? = some limits ∧ limits.hugepageLimits =
      config.hugepageLimits.map fun h => (h.pageSize, (h.limit.toNat : Int))) ↔
      ∀ h ∈ config.hugepageLimits,
        extras.cgroupParent ≠ "" ∧ h.pageSize ≠ "" ∧ 0 < h.limit ∧ h.limit.toNat < 2 ^ 63 := by
  obtain ⟨limits, hlimits, hhuge⟩ := hugepages_generateSpec hnode h
  constructor
  · rintro ⟨limits', hlimits', hsame⟩
    obtain rfl : limits = limits' := Option.some.inj (hlimits.symm.trans hlimits')
    rw [hhuge] at hsame
    -- none was left out, and so each was cast to itself
    have hlength := congrArg List.length hsame
    rw [List.length_map, List.length_map, List.length_filter_eq_length_iff] at hlength
    rw [List.filter_eq_self.2 hlength, List.map_inj_left] at hsame
    intro h hh
    obtain ⟨hparent, hpage, hpos⟩ := of_decide_eq_true (hlength h hh)
    exact ⟨hparent, hpage, hpos, asI64_eq_iff.1 (Prod.mk.inj (hsame h hh)).2⟩
  · intro hexact
    refine ⟨limits, hlimits, ?_⟩
    rw [hhuge, List.filter_eq_self.2 fun h hh => ?_]
    · refine List.map_inj_left.2 fun h hh => ?_
      rw [asI64_eq_iff.2 (hexact h hh).2.2.2]
    · obtain ⟨hparent, hpage, hpos, -⟩ := hexact h hh
      exact decide_eq_true ⟨hparent, hpage, hpos⟩

end Spec

/-- **Identities and limits.**  The spec of every call that succeeds carries the integers of the
    request exactly if they fit: identities into 32 bits without a sign, and hugepage limits, of
    those that are programmed at all, into 63. -/
theorem identities_carried_iff {env : Create.Env β Seccomp} (hnode : env.node.Unlimited)
    {host : HostFacts} {extras : SandboxRecord → SandboxExtras}
    {sandboxes : Metadata.Table SandboxRecord} {req : FullCreateRequest} {w : Create.World}
    (hcall : Fallible.Succeeds (createContainerOf env host extras sandboxes req) w) :
    ∃ config sandbox image spec, req.config = some config ∧
      Metadata.get sandboxes ns req.podSandboxId = some sandbox ∧ env.image = .ok image ∧
      generateSpec env.node image.1
        (config.containerReq host env.id sandbox (extras sandbox)) env.rootfsPath = .ok spec ∧
      (Carried config spec ↔ Exact (extras sandbox).cgroupParent config) := by
  obtain ⟨sandbox, _, image, spec, haccepted, hspec⟩ := createContainer_generates hcall
  obtain ⟨config, hconfig, -⟩ := Option.map_eq_some_iff.1 haccepted.given
  have hreq : generateSpec env.node image.1
      (config.containerReq host env.id sandbox (extras sandbox)) env.rootfsPath = .ok spec := by
    rw [← hspec]
    simp only [Create.containerRequest, hconfig]
    rfl
  refine ⟨config, sandbox, image, spec, hconfig, haccepted.found, haccepted.resolved, hreq, ?_⟩
  constructor
  · rintro ⟨huser, hgroup, hgroups, hhuge⟩
    exact ⟨(user_carried_iff hreq).1 huser, (group_carried_iff hreq).1 hgroup,
      (groups_carried_iff hreq).1 hgroups, (hugepages_carried_iff hnode hreq).1 hhuge⟩
  · rintro ⟨huser, hgroup, hgroups, hhuge⟩
    exact ⟨(user_carried_iff hreq).2 huser, (group_carried_iff hreq).2 hgroup,
      (groups_carried_iff hreq).2 hgroups, (hugepages_carried_iff hnode hreq).2 hhuge⟩

/-! ## Concrete requests -/

theorem zero_lt_i64 : (0 : Int) < 2 ^ 63 := by decide

/-- A container that runs as the given user, with a supplemental group and a hugepage limit. -/
def identityConfig (user : Int) : FullContainerConfig where
  command := ["sleep"]
  args := ["1"]
  workingDir := ""
  envs := []
  mounts := []
  devices := []
  logPath := "c/0.log"
  stdin := false
  tty := false
  linux := some
    { resources := some
        { cpuPeriod := 0, cpuQuota := 0, cpuShares := 0, memoryLimitInBytes := 0
          cpusetCpus := "", cpusetMems := "", hugepageLimits := [⟨"2MB", 4194304⟩]
          unified := .empty, cpuPeriod_lt := zero_lt_i64, cpuShares_lt := zero_lt_i64 }
      securityContext := some
        { capabilities := none, privileged := false, selinuxOptions := none
          runAsUser := some user, runAsGroup := some 1000, runAsUsername := ""
          readonlyRootfs := false, supplementalGroups := [2000], noNewPrivs := false
          maskedPaths := [], readonlyPaths := [], seccomp := none, apparmor := none } }

/-- A host whose daemon runs as root, and a pod with a cgroup. -/
def rootHost : HostFacts := ⟨0, 0, false, fun _ => false⟩

def cgroupExtras : SandboxExtras := ⟨"pod", none, .empty, "/kubepods/pod1"⟩

theorem quietEnv_unlimited : Create.quietEnv.node.Unlimited := ⟨rfl, fun _ _ => rfl⟩

/-- The user 1000 and the group 2000 are those of the request. -/
theorem small_identities_carried :
    ∃ config sandbox image spec, some (identityConfig 1000) = some config ∧
      Metadata.get Create.sampleSandboxes ns "s1" = some sandbox ∧
      Create.quietEnv.image = .ok image ∧
      generateSpec Create.quietEnv.node image.1
        (config.containerReq rootHost "c1" sandbox cgroupExtras) "/run/k8s.io/c1/rootfs" =
          .ok spec ∧
      (Carried config spec ↔ Exact cgroupExtras.cgroupParent config) :=
  @identities_carried_iff _ _ Create.quietEnv quietEnv_unlimited rootHost (fun _ => cgroupExtras)
    Create.sampleSandboxes ⟨"s1", some (identityConfig 1000)⟩ Create.emptyWorld ⟨_, rfl⟩

/-- The user 4294967296 is accepted, and runs as root. -/
theorem user_becomes_root :
    ∃ sandbox image spec,
      Fallible.Succeeds (createContainerOf Create.quietEnv rootHost (fun _ => cgroupExtras)
        Create.sampleSandboxes ⟨"s1", some (identityConfig 4294967296)⟩) Create.emptyWorld ∧
      Metadata.get Create.sampleSandboxes ns "s1" = some sandbox ∧
      Create.quietEnv.image = .ok image ∧
      generateSpec Create.quietEnv.node image.1
        ((identityConfig 4294967296).containerReq rootHost "c1" sandbox cgroupExtras)
        "/run/k8s.io/c1/rootfs" = .ok spec ∧
      processUser spec = some ⟨0, 1000, some [2000]⟩ ∧
      ¬ Carried (identityConfig 4294967296) spec := by
  refine ⟨_, _, _, ⟨_, rfl⟩, rfl, rfl, rfl, rfl, ?_⟩
  intro hcarried
  obtain ⟨u, hu, hsame, -⟩ := hcarried.user 4294967296 rfl
  have := u.uid.toNat_lt
  omega

end ContainerdRs.Cri
