import ContainerdRs.Runtime.Composition

/-!
# Device access of non-privileged containers

`apply_devices` adds one allow rule for each requested device.  `stat_device` is modelled over
what `rustix` answers; the rule is compared with the request it is for.

* `statDevice_eq_ok_iff` — the stated device is the host node.
* `sanitizeDeviceAccess_confined_iff` — when the granted letters are among the requested ones.
* `device_access_confined_iff` — the rules of a generated spec, over those of its base spec.
-/

set_option autoImplicit false

namespace ContainerdRs.Runtime

variable {Seccomp : Type}

/-! ## `stat_device` -/

/-- `rustix::fs::FileType`, as far as it is used. -/
inductive FileType where
  | characterDevice
  | blockDevice
  | other
  deriving DecidableEq, Repr

/-- `rustix::fs::Stat`, as far as it is used. -/
structure Stat where
  mode : UInt32
  rdev : UInt64
  deriving DecidableEq, Repr

/-- What `stat_device` asks `rustix::fs`. -/
structure Rustix where
  /-- `stat`, with the error text. -/
  stat : String → Except String Stat
  /-- `FileType::from_raw_mode`. -/
  fileType : UInt32 → FileType
  major : UInt64 → UInt32
  minor : UInt64 → UInt32

/-- The OCI type of a device node. -/
def deviceType : FileType → Option LinuxDeviceType
  | .characterDevice => some .c
  | .blockDevice => some .b
  | .other => none

/-- `stat_device`. -/
def statDevice (fs : Rustix) (hostPath : String) : Except Error StatedDevice :=
  match fs.stat hostPath with
  | .error e => .error (.builder ("device not found on node: " ++ hostPath ++ ": " ++ e))
  | .ok st =>
    match deviceType (fs.fileType st.mode) with
    | none => .error (.builder (hostPath ++ " is not a character or block device"))
    | some typ =>
      .ok { typ := typ
            major := (fs.major st.rdev).toNat
            minor := (fs.minor st.rdev).toNat
            fileMode := st.mode &&& 0o7777 }

/-- Only device nodes are stated, with their own type and numbers. -/
theorem statDevice_eq_ok_iff {fs : Rustix} {hostPath : String} {dev : StatedDevice} :
    statDevice fs hostPath = .ok dev ↔
      ∃ st typ, fs.stat hostPath = .ok st ∧ deviceType (fs.fileType st.mode) = some typ ∧
        dev = ⟨typ, (fs.major st.rdev).toNat, (fs.minor st.rdev).toNat, st.mode &&& 0o7777⟩ := by
  unfold statDevice
  constructor
  · intro h
    split at h
    · cases h
    · rename_i st hst
      split at h
      · cases h
      · rename_i typ htyp
        cases h
        exact ⟨st, typ, hst, htyp, rfl⟩
  · rintro ⟨st, typ, hst, htyp, rfl⟩
    simp only [hst, htyp]

/-! ## Access -/

/-- The letters of device access: read, write, `mknod`. -/
def IsAccess (ch : Char) : Prop := ch = 'r' ∨ ch = 'w' ∨ ch = 'm'

/-- The request asks for some access, or leaves the choice to the default. -/
def DeviceRequest.AsksAccess (d : DeviceRequest) : Prop :=
  d.permissions = "" ∨ ∃ ch ∈ d.permissions.toList, IsAccess ch

theorem mem_filter_access {ch : Char} {perms : List Char} :
    ch ∈ perms.filter (fun c => c = 'r' ∨ c = 'w' ∨ c = 'm') ↔ ch ∈ perms ∧ IsAccess ch := by
  rw [List.mem_filter, decide_eq_true_eq, IsAccess]

/-- The granted letters are among the requested ones exactly when one of those is a letter of
    device access. -/
theorem sanitizeDeviceAccess_confined_iff (perms : String) :
    (∀ ch ∈ (sanitizeDeviceAccess perms).toList, ch ∈ perms.toList) ↔
      ∃ ch ∈ perms.toList, IsAccess ch := by
  unfold sanitizeDeviceAccess
  dsimp only
  split
  · rename_i hnone
    -- `rwm` is granted
    constructor
    · intro h
      exact ⟨'r', h 'r' (by decide), Or.inl rfl⟩
    · rintro ⟨ch, hch⟩
      have hkept := mem_filter_access.2 hch
      rw [List.isEmpty_iff.1 hnone] at hkept
      cases hkept
  · rename_i hsome
    rw [String.toList_ofList]
    constructor
    · intro _
      obtain ⟨ch, hkept⟩ := List.exists_mem_of_ne_nil _ (mt List.isEmpty_iff.2 hsome)
      exact ⟨ch, mem_filter_access.1 hkept⟩
    · intro _ ch hkept
      exact (mem_filter_access.1 hkept).1

/-! ## Rules -/

/-- The device-cgroup rules of a spec. -/
def deviceRules (spec : Spec Seccomp) : List LinuxDeviceCgroup :=
  ((spec.linux.bind (·.resources)).bind (·.devices)).getD []

/-- The allow rule is for the requested host node, and grants only letters that the request has,
    when it has any. -/
structure RuleFor (fs : Rustix) (d : DeviceRequest) (rule : LinuxDeviceCgroup) : Prop where
  allow : rule.allow = true
  node : ∃ st typ, fs.stat d.hostPath = .ok st ∧ deviceType (fs.fileType st.mode) = some typ ∧
    rule.typ = some typ ∧ rule.major = some ((fs.major st.rdev).toNat : Int) ∧
    rule.minor = some ((fs.minor st.rdev).toNat : Int)
  access : ∃ access, rule.access = some access ∧
    (d.permissions ≠ "" → ∀ ch ∈ access.toList, ch ∈ d.permissions.toList)

/-- The rules of a spec are those of the base spec, then one for each device in order. -/
def DevicesConfined (fs : Rustix) (base spec : Spec Seccomp) (devices : List DeviceRequest) :
    Prop :=
  ∃ rules, deviceRules spec = deviceRules base ++ rules ∧
    List.Forall₂ (RuleFor fs) devices rules

theorem ruleFor_deviceRule_iff {fs : Rustix} {d : DeviceRequest} {dev : StatedDevice}
    (hdev : statDevice fs d.hostPath = .ok dev) :
    RuleFor fs d (deviceRule d dev) ↔ d.AsksAccess := by
  constructor
  · intro h
    obtain ⟨access, haccess, hconfined⟩ := h.access
    cases haccess
    by_cases hempty : d.permissions = ""
    · exact Or.inl hempty
    · exact Or.inr ((sanitizeDeviceAccess_confined_iff d.permissions).1 (hconfined hempty))
  · intro hasks
    obtain ⟨st, typ, hst, htyp, rfl⟩ := statDevice_eq_ok_iff.1 hdev
    refine ⟨rfl, ⟨st, typ, hst, htyp, rfl, rfl, rfl⟩, _, rfl, fun hne => ?_⟩
    exact (sanitizeDeviceAccess_confined_iff d.permissions).2 (hasks.resolve_left hne)

/-- The rules that the loop emits. -/
theorem forall₂_ruleFor_iff {fs : Rustix} : ∀ {devices : List DeviceRequest}
    {stated : List StatedDevice},
    devices.map (fun d => statDevice fs d.hostPath) = stated.map .ok →
    (List.Forall₂ (RuleFor fs) devices (List.zipWith deviceRule devices stated) ↔
      ∀ d ∈ devices, d.AsksAccess)
  | [], stated, _ => by simp
  | d :: devices, [], h => by cases h
  | d :: devices, dev :: stated, h => by
    obtain ⟨hdev, hrest⟩ := List.cons.inj h
    rw [List.zipWith_cons_cons, List.forall₂_cons, ruleFor_deviceRule_iff hdev,
      forall₂_ruleFor_iff hrest, List.forall_mem_cons]

theorem deviceRules_eq {spec : Spec Seccomp} {l : Linux Seccomp} (h : spec.linux = some l) :
    deviceRules spec = (l.resources.getD .default).devices.getD [] := by
  unfold deviceRules
  rw [h, Option.bind_some]
  cases l.resources with
  | none => rfl
  | some r => rfl

/-- A non-privileged spec has the rules of its base spec and one for each device. -/
theorem generateSpec_deviceRules {node : Node Seccomp} (hnode : node.Plain) {image : ImageConfig}
    {req : ContainerRequest} {rootfs : String} {spec : Spec Seccomp}
    (hpriv : req.privileged = false) (h : generateSpec node image req rootfs = .ok spec) :
    ∃ stated, req.devices.map (fun d => node.statDevice d.hostPath) = stated.map .ok ∧
      deviceRules spec =
        deviceRules (req.baseSpec node) ++ List.zipWith deviceRule req.devices stated := by
  obtain ⟨l₀, uids, gids, ns, r, hbase, h₁, _, _, _, hrules, _⟩ :=
    unconfinedSpec_linux hnode image req rootfs
  obtain ⟨l, hl, _, _, _, hdevices⟩ := generateSpec_last h h₁
  obtain ⟨stated, hstated, _, hallow⟩ := hdevices hpriv
  refine ⟨stated, hstated, ?_⟩
  rw [deviceRules_eq hl, deviceRules_eq hbase, hallow, hrules]

/-- **Device access** is confined to what was asked for exactly when every request with a
    permission string has a letter of device access in it: without one, `rwm` is granted. -/
theorem device_access_confined_iff (fs : Rustix) {node : Node Seccomp} (hnode : node.Plain)
    (hstat : node.statDevice = statDevice fs) {image : ImageConfig} {req : ContainerRequest}
    {rootfs : String} {spec : Spec Seccomp} (hpriv : req.privileged = false)
    (h : generateSpec node image req rootfs = .ok spec) :
    DevicesConfined fs (req.baseSpec node) spec req.devices ↔
      ∀ d ∈ req.devices, d.permissions = "" ∨ ∃ ch ∈ d.permissions.toList, IsAccess ch := by
  obtain ⟨stated, hstated, hrules⟩ := generateSpec_deviceRules hnode hpriv h
  rw [hstat] at hstated
  have hiff := forall₂_ruleFor_iff hstated
  constructor
  · rintro ⟨rules, hrules', hfor⟩
    have heq : rules = List.zipWith deviceRule req.devices stated :=
      List.append_cancel_left (hrules'.symm.trans hrules)
    rw [heq] at hfor
    exact hiff.1 hfor
  · intro hasks
    exact ⟨_, hrules, hiff.2 hasks⟩

/-- `/dev/fuse` (10:229), with the encodings of Linux. -/
def fuseHost : Rustix where
  stat path := if path = "/dev/fuse" then .ok ⟨0o020666, 0xae5⟩ else .error "No such file"
  fileType mode :=
    if mode &&& 0o170000 = 0o020000 then .characterDevice
    else if mode &&& 0o170000 = 0o060000 then .blockDevice
    else .other
  major rdev :=
    let high : UInt64 := rdev >>> 32
    let low : UInt64 := rdev >>> 8
    ((high &&& 0xfffff000) ||| (low &&& 0xfff)).toUInt32
  minor rdev :=
    let high : UInt64 := rdev >>> 12
    ((high &&& 0xffffff00) ||| (rdev &&& 0xff)).toUInt32

/-- A node with `/dev/fuse`. -/
def fuseNode : Node Unit := { bareNode with statDevice := statDevice fuseHost }

theorem fuseNode_plain : fuseNode.Plain := ⟨bareNode_plain.base, bareNode_plain.rootless⟩

/-- A request for `/dev/fuse`. -/
def fuseRequest (permissions : String) : ContainerRequest :=
  { ContainerRequest.default with devices := [⟨"/dev/fuse", "/dev/fuse", permissions⟩] }

/-- `rw` is granted as it is asked for. -/
theorem fuse_rw_confined :
    ∃ spec, generateSpec fuseNode plainImage (fuseRequest "rw") "/rootfs" = .ok spec ∧
      DevicesConfined fuseHost privateNamespaces spec (fuseRequest "rw").devices := by
  obtain ⟨spec, h⟩ : ∃ spec,
      generateSpec fuseNode plainImage (fuseRequest "rw") "/rootfs" = .ok spec := ⟨_, rfl⟩
  refine ⟨spec, h, (device_access_confined_iff fuseHost fuseNode_plain rfl rfl h).2 ?_⟩
  intro d hd
  rw [List.mem_singleton.1 hd]
  exact Or.inr ⟨'r', by decide, Or.inl rfl⟩

/-- `x` is no letter of device access, and everything is granted. -/
theorem fuse_x_widened :
    ¬ ∀ (fs : Rustix) (node : Node Unit), node.Plain → node.statDevice = statDevice fs →
      ∀ (image : ImageConfig) (req : ContainerRequest) (rootfs : String) (spec : Spec Unit),
        req.privileged = false → generateSpec node image req rootfs = .ok spec →
          DevicesConfined fs (req.baseSpec node) spec req.devices := by
  intro hall
  obtain ⟨spec, h⟩ : ∃ spec,
      generateSpec fuseNode plainImage (fuseRequest "x") "/rootfs" = .ok spec := ⟨_, rfl⟩
  obtain ⟨rules, hrules, hfor⟩ := hall fuseHost fuseNode fuseNode_plain rfl plainImage
    (fuseRequest "x") "/rootfs" spec rfl h
  cases h
  cases hrules
  obtain ⟨access, haccess, hconfined⟩ := (List.forall₂_cons.1 hfor).1.access
  cases haccess
  have hr : 'r' ∈ "x".toList := hconfined (by decide) 'r' (by decide)
  revert hr
  decide

end ContainerdRs.Runtime
