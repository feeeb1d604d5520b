import ContainerdRs.Runtime.Bundle

/-!
# The limits of a container's cgroup

A container gets its limits from crun, in two ways: from `linux.resources` of the spec that
`generate_spec` builds, and from the flags of `crun update` (`crates/runtime/src/crun.rs`,
`update_args`).  `Limits` holds, for each limit, the value that was programmed last.

* `limits_generateSpec` — with a cgroup path, the spec carries the limits of the request.
* `program_updateFlags` — an update replaces the limits it names and keeps the others.
-/

set_option autoImplicit false

namespace ContainerdRs.Runtime

variable {Seccomp : Type}

/-- What is programmed, each with its last value; `none` is the default of the cgroup. -/
structure Limits where
  cpuPeriod : Option Int
  cpuQuota : Option Int
  cpuShares : Option Int
  memoryLimit : Option Int
  cpusetCpus : Option String
  cpusetMems : Option String
  hugepageLimits : List (String × Int)
  unified : OrdMap String String

/-- A cgroup in which nothing was programmed. -/
def Limits.unset : Limits := ⟨none, none, none, none, none, none, [], .empty⟩

/-- `Resources::default()`. -/
def Resources.default : Resources := ⟨none, none, none, none, none, none, [], .empty⟩

/-! ## The initial spec -/

/-- What crun programs for `linux.resources`. -/
def LinuxResources.limits (res : LinuxResources) : Limits where
  cpuPeriod := (res.cpu.bind (·.period)).map fun p => (p.toNat : Int)
  cpuQuota := res.cpu.bind (·.quota)
  cpuShares := (res.cpu.bind (·.shares)).map fun s => (s.toNat : Int)
  memoryLimit := res.memoryLimit
  cpusetCpus := res.cpu.bind (·.cpus)
  cpusetMems := res.cpu.bind (·.mems)
  hugepageLimits := res.hugepageLimits.getD []
  unified := res.unified.getD .empty

/-- The limits of a spec, if it has a `linux` section. -/
def Spec.limits? (spec : Spec Seccomp) : Option Limits :=
  spec.linux.map fun linux => (linux.resources.getD .default).limits

/-- The limits that `Resources` ask for. -/
def Resources.limits (res : Resources) : Limits where
  cpuPeriod := res.cpuPeriod.map fun p => (p.toNat : Int)
  cpuQuota := res.cpuQuota
  cpuShares := res.cpuShares.map fun s => (s.toNat : Int)
  memoryLimit := res.memoryLimit
  cpusetCpus := res.cpusetCpus.filter (· ≠ "")
  cpusetMems := res.cpusetMems.filter (· ≠ "")
  hugepageLimits := res.hugepageLimits.map fun h => (h.1, asI64 h.2)
  unified := extendMap .empty res.unified

/-- A change of the `linux` section that leaves the limits alone. -/
theorem mapLinux_limits {spec : Spec Seccomp} {f : Linux Seccomp → Linux Seccomp}
    (h : ∀ linux, ((f linux).resources.getD .default).limits =
      (linux.resources.getD .default).limits) :
    (spec.mapLinux f).limits? = spec.limits? := by
  simp only [Spec.limits?, Spec.mapLinux, Option.map_map]
  congr 1
  funext linux
  exact h linux

@[simp] theorem mapProcess_limits (spec : Spec Seccomp) (f : Process → Process) :
    (spec.mapProcess f).limits? = spec.limits? := rfl

@[simp] theorem setNetworkNamespace_limits (spec : Spec Seccomp) (path : Option String) :
    (setNetworkNamespace spec path).limits? = spec.limits? :=
  mapLinux_limits fun _ => rfl

@[simp] theorem applyHostNamespaces_limits (spec : Spec Seccomp) (hostPid hostIpc : Bool) :
    (applyHostNamespaces spec hostPid hostIpc).limits? = spec.limits? := by
  unfold applyHostNamespaces
  split
  · rfl
  · exact mapLinux_limits fun _ => rfl

@[simp] theorem applyUserNamespace_limits (spec : Spec Seccomp) (uid gid : List IdMapping) :
    (applyUserNamespace spec uid gid).limits? = spec.limits? := by
  unfold applyUserNamespace
  split
  · rfl
  · exact mapLinux_limits fun _ => rfl

@[simp] theorem joinNamespace_limits (spec : Spec Seccomp) (typ : LinuxNamespaceType)
    (path : Option String) : (joinNamespace spec typ path).limits? = spec.limits? := by
  unfold joinNamespace
  split
  · rfl
  · exact mapLinux_limits fun _ => rfl

@[simp] theorem addBindMounts_limits (spec : Spec Seccomp) (mounts : List MountSpec) :
    (addBindMounts spec mounts).limits? = spec.limits? := by
  unfold addBindMounts
  split
  · rfl
  · dsimp only
    split
    · rfl
    · exact mapLinux_limits fun _ => rfl

@[simp] theorem applySysctls_limits (spec : Spec Seccomp) (sysctls : OrdMap String String) :
    (applySysctls spec sysctls).limits? = spec.limits? := by
  unfold applySysctls
  split
  · rfl
  · exact mapLinux_limits fun _ => rfl

@[simp] theorem applyPrivileged_limits (spec : Spec Seccomp) :
    (applyPrivileged spec).limits? = spec.limits? := by
  unfold applyPrivileged
  refine Eq.trans (mapLinux_limits ?_) (mapProcess_limits spec _)
  intro linux
  rfl

@[simp] theorem applyCapabilities_limits (spec : Spec Seccomp) (add drop : List String) :
    (applyCapabilities spec add drop).limits? = spec.limits? := by
  unfold applyCapabilities
  split
  · rfl
  · exact mapProcess_limits spec _

theorem applySecurity_limits {node : Node Seccomp} {spec spec' : Spec Seccomp}
    {req : ContainerRequest} (h : applySecurity node spec req = .ok spec') :
    spec'.limits? = spec.limits? := by
  rcases applySecurity_cases h with ⟨-, rfl⟩ | ⟨linux, seccomp, hlinux, -, rfl⟩
  · rfl
  · rw [Spec.limits?, Spec.limits?, hlinux]
    rfl

theorem applyDevices_limits {node : Node Seccomp} {spec spec' : Spec Seccomp}
    {devices : List DeviceRequest} (h : applyDevices node spec devices = .ok spec') :
    spec'.limits? = spec.limits? := by
  rcases applyDevices_cases h with rfl | ⟨nodes, allow, rfl⟩
  · rfl
  · exact mapLinux_limits fun _ => rfl

theorem extendMap_nil {m entries : OrdMap String String} (h : entries.entries = []) :
    extendMap m entries = m := by
  rw [extendMap, h, List.foldl_nil]

/-- Resources on a spec that sets none. -/
theorem applyResources_limits {spec : Spec Seccomp} (res : Resources)
    (h : spec.limits? = some .unset) : (applyResources spec res).limits? = some res.limits := by
  obtain ⟨linux, hlinux, hunset⟩ := Option.map_eq_some_iff.1 h
  unfold applyResources
  split
  · rename_i hempty
    simp only [Resources.isEmpty, Bool.and_eq_true, Option.isNone_iff_eq_none,
      List.isEmpty_iff] at hempty
    obtain ⟨⟨⟨⟨⟨⟨⟨h₁, h₂⟩, h₃⟩, h₄⟩, h₅⟩, h₆⟩, h₇⟩, h₈⟩ := hempty
    rw [h]
    simp only [Resources.limits, h₁, h₂, h₃, h₄, h₅, h₆, h₇, extendMap_nil h₈]
    rfl
  · -- what the base leaves unset
    have hmemory : (linux.resources.getD .default).memoryLimit = none :=
      congrArg Limits.memoryLimit hunset
    have hhuge : (linux.resources.getD .default).hugepageLimits.getD [] = [] :=
      congrArg Limits.hugepageLimits hunset
    have hunified : (linux.resources.getD .default).unified.getD .empty = .empty :=
      congrArg Limits.unified hunset
    simp only [Spec.limits?, Spec.mapLinux, hlinux, Option.map_some, Option.getD_some]
    refine congrArg some ?_
    simp only [LinuxResources.limits, Resources.limits, hmemory, Option.or_none, Option.bind_some]
    congr 1
    · split
      · rename_i hnil
        rw [hhuge]
        exact (List.isEmpty_iff.1 hnil).symm
      · rfl
    · split
      · rename_i hnil
        rw [hunified, extendMap_nil (List.isEmpty_iff.1 hnil)]
      · rw [hunified]
        rfl

/-- The base specs have a `linux` section, and it sets no limit. -/
structure Node.Unlimited (node : Node Seccomp) : Prop where
  base : node.baseSpec.limits? = some .unset
  rootless : ∀ uid gid, (node.rootless uid gid).limits? = some .unset

/-- Before the cgroup is written, the spec sets no limit. -/
theorem unconfinedSpec_limits {node : Node Seccomp} (hnode : node.Unlimited) (image : ImageConfig)
    (req : ContainerRequest) (rootfs : String) :
    ∃ spec : Spec Seccomp, spec.limits? = some .unset ∧
      unconfinedSpec node image req rootfs = applyCgroup spec req := by
  refine ⟨_, ?_, rfl⟩
  simp only [addBindMounts_limits, joinNamespace_limits, applyUserNamespace_limits,
    applyHostNamespaces_limits, setNetworkNamespace_limits]
  split
  · rename_i uid gid _
    exact hnode.rootless uid gid
  · exact hnode.base

/-- The steps after the cgroup leave the limits alone. -/
theorem generateSpec_limits {node : Node Seccomp} {image : ImageConfig} {req : ContainerRequest}
    {rootfs : String} {spec : Spec Seccomp} (h : generateSpec node image req rootfs = .ok spec) :
    spec.limits? = (unconfinedSpec node image req rootfs).limits? := by
  rcases generateSpec_cases h with ⟨-, rfl⟩ | ⟨-, secure, final, hsecurity, hdevices, rfl⟩
  · rw [applySysctls_limits, applyPrivileged_limits]
  · rw [applySysctls_limits, applyDevices_limits hdevices, applySecurity_limits hsecurity,
      applyCapabilities_limits]

/-- **The limits of the initial spec** are those of the request, when there is a cgroup path. -/
theorem limits_generateSpec {node : Node Seccomp} (hnode : node.Unlimited) {image : ImageConfig}
    {req : ContainerRequest} {path rootfs : String} (hpath : req.cgroupPath = some path)
    (hne : path ≠ "") {spec : Spec Seccomp} (h : generateSpec node image req rootfs = .ok spec) :
    spec.limits? = some req.resources.limits := by
  obtain ⟨spec₀, hunset, hspec₀⟩ := unconfinedSpec_limits hnode image req rootfs
  rw [generateSpec_limits h, hspec₀]
  simp only [applyCgroup, hpath, if_neg hne]
  refine applyResources_limits _ (Eq.trans (mapLinux_limits ?_) hunset)
  intro linux
  rfl

/-- Without a cgroup path, the initial spec sets no limit. -/
theorem limits_generateSpec_none {node : Node Seccomp} (hnode : node.Unlimited)
    {image : ImageConfig} {req : ContainerRequest} {rootfs : String}
    (hpath : req.cgroupPath = none) {spec : Spec Seccomp}
    (h : generateSpec node image req rootfs = .ok spec) : spec.limits? = some .unset := by
  obtain ⟨spec₀, hunset, hspec₀⟩ := unconfinedSpec_limits hnode image req rootfs
  rw [generateSpec_limits h, hspec₀]
  simpa only [applyCgroup, hpath] using hunset

/-! ## Updates -/

/-- A flag of `crun update`. -/
inductive UpdateFlag where
  | memory (n : Int)
  | cpuQuota (n : Int)
  | cpuPeriod (n : UInt64)
  | cpuShare (n : UInt64)
  | cpusetCpus (s : String)
  | cpusetMems (s : String)
  deriving DecidableEq, Repr

/-- The words of a flag on the command line. -/
def UpdateFlag.args : UpdateFlag → List String
  | .memory n => ["--memory", toString n]
  | .cpuQuota n => ["--cpu-quota", toString n]
  | .cpuPeriod n => ["--cpu-period", toString n]
  | .cpuShare n => ["--cpu-share", toString n]
  | .cpusetCpus s => ["--cpuset-cpus", s]
  | .cpusetMems s => ["--cpuset-mems", s]

/-- The flags of an update, in order. -/
def updateFlags (res : Resources) : List UpdateFlag :=
  (res.memoryLimit.map .memory).toList ++ (res.cpuQuota.map .cpuQuota).toList ++
    (res.cpuPeriod.map .cpuPeriod).toList ++ (res.cpuShares.map .cpuShare).toList ++
    ((res.cpusetCpus.filter (· ≠ "")).map .cpusetCpus).toList ++
    ((res.cpusetMems.filter (· ≠ "")).map .cpusetMems).toList

/-- `update_args`. -/
def updateArgs (res : Resources) : List String := (updateFlags res).flatMap (·.args)

/-- What crun programs for one flag. -/
def UpdateFlag.program (limits : Limits) : UpdateFlag → Limits
  | .memory n => { limits with memoryLimit := some n }
  | .cpuQuota n => { limits with cpuQuota := some n }
  | .cpuPeriod n => { limits with cpuPeriod := some n.toNat }
  | .cpuShare n => { limits with cpuShares := some n.toNat }
  | .cpusetCpus s => { limits with cpusetCpus := some s }
  | .cpusetMems s => { limits with cpusetMems := some s }

/-- `crun update`, on the limits. -/
def program (limits : Limits) (flags : List UpdateFlag) : Limits :=
  flags.foldl UpdateFlag.program limits

/-- A flag that may be absent. -/
theorem program_toList {α : Type} (limits : Limits) (flag : α → UpdateFlag) (x : Option α) :
    program limits (x.map flag).toList =
      match x with
      | none => limits
      | some a => (flag a).program limits := by
  cases x <;> rfl

theorem program_append (limits : Limits) (a b : List UpdateFlag) :
    program limits (a ++ b) = program (program limits a) b :=
  List.foldl_append

/-- **An update** replaces the limits it names and keeps the others; it names no hugepage limit and
    no unified entry. -/
theorem program_updateFlags (limits : Limits) (res : Resources) :
    program limits (updateFlags res) =
      { cpuPeriod := res.limits.cpuPeriod.or limits.cpuPeriod
        cpuQuota := res.limits.cpuQuota.or limits.cpuQuota
        cpuShares := res.limits.cpuShares.or limits.cpuShares
        memoryLimit := res.limits.memoryLimit.or limits.memoryLimit
        cpusetCpus := res.limits.cpusetCpus.or limits.cpusetCpus
        cpusetMems := res.limits.cpusetMems.or limits.cpusetMems
        hugepageLimits := limits.hugepageLimits
        unified := limits.unified } := by
  simp only [updateFlags, program_append, program_toList, Resources.limits]
  cases res.memoryLimit <;> cases res.cpuQuota <;> cases res.cpuPeriod <;> cases res.cpuShares <;>
    cases res.cpusetCpus.filter (· ≠ "") <;> cases res.cpusetMems.filter (· ≠ "") <;> rfl

end ContainerdRs.Runtime
