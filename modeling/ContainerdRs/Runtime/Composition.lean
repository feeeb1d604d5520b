import ContainerdRs.Runtime.CapabilitySets
import ContainerdRs.Runtime.Limits

/-!
# The steps of `generate_spec` do not clobber each other

A dozen steps rewrite parts of the same `linux` section.  Each is described by the fields it
writes, over the section as it was (`{ l with … }`); read off the last section, every field is what
the one step that is about it wrote.

* `ofType_namespaces` — the namespaces of each type after the five namespace steps.
* `foldl_rootfsProp` — the rootfs propagation of a list of mounts.
* `addDevices_eq` — one node and one rule for each device.
* `generateSpec_composes` — the generated spec, field by field.
-/

set_option autoImplicit false

namespace ContainerdRs.Runtime

variable {Seccomp : Type}

/-! ## What is requested -/

/-- The cgroup path, if there is one and it is not empty. -/
def ContainerRequest.cgroup? (req : ContainerRequest) : Option String :=
  req.cgroupPath.filter (· ≠ "")

/-- The limits asked for, hugepage limits as the integers they are. -/
def Resources.asked (res : Resources) : Limits :=
  { res.limits with
    hugepageLimits := res.hugepageLimits.map fun h => (h.1, (h.2.toNat : Int))
    unified := res.unified }

/-- The namespaces of a type. -/
def ofType (typ : LinuxNamespaceType) (namespaces : List LinuxNamespace) : List LinuxNamespace :=
  namespaces.filter fun n => n.typ = typ

/-- A namespace that is joined by a path, shared with the host, or left as it is. -/
def sharedNamespace (typ : LinuxNamespaceType) (host : Bool) (path : Option String)
    (own : List LinuxNamespace) : List LinuxNamespace :=
  match path with
  | some path => [⟨typ, some path⟩]
  | none => if host then [] else own

/-- The network namespace: by path, or the host's. -/
def networkNamespace (path : Option String) : List LinuxNamespace :=
  match path with
  | none => []
  | some path => if path = "host" then [] else [⟨.network, some path⟩]

/-- A user namespace comes with mappings. -/
def userNamespace (uid gid : List IdMapping) (own : List LinuxNamespace) : List LinuxNamespace :=
  if uid.isEmpty && gid.isEmpty then own else if own.isEmpty then [⟨.user, none⟩] else own

/-- The namespaces of a type that the request asks for, over those of the base spec. -/
def ContainerRequest.namespacesOf (req : ContainerRequest) (typ : LinuxNamespaceType)
    (own : List LinuxNamespace) : List LinuxNamespace :=
  match typ with
  | .network => networkNamespace req.netnsPath
  | .pid => sharedNamespace .pid req.hostPid req.pidNsPath own
  | .ipc => sharedNamespace .ipc req.hostIpc req.ipcNsPath own
  | .user => userNamespace req.usernsUidMappings req.usernsGidMappings own
  | _ => own

/-- The bind mount of a request. -/
def MountSpec.bindMount (m : MountSpec) : Mount where
  destination := m.destination
  typ := some "bind"
  source := some m.source
  options := some (mountOptions m)

/-- The rootfs propagation that the mounts need. -/
def neededPropagation (mounts : List MountSpec) : Option String :=
  if mounts.any (·.propagation = .bidirectional) then some "rshared"
  else if mounts.any (·.propagation = .hostToContainer) then some "rslave"
  else none

/-- The device node of a request. -/
def deviceNode (d : DeviceRequest) (dev : StatedDevice) : LinuxDevice :=
  ⟨d.containerPath, dev.typ, dev.major, dev.minor, some dev.fileMode, some 0, some 0⟩

/-- The allow rule of a request. -/
def deviceRule (d : DeviceRequest) (dev : StatedDevice) : LinuxDeviceCgroup :=
  ⟨true, some dev.typ, some dev.major, some dev.minor, some (sanitizeDeviceAccess d.permissions)⟩

/-! ## Namespaces -/

theorem ofType_retainOther (typ typ' : LinuxNamespaceType) (ns : List LinuxNamespace) :
    ofType typ (retainOther typ' ns) = if typ = typ' then [] else ofType typ ns := by
  unfold ofType retainOther
  rw [List.filter_filter]
  split
  · rename_i h
    subst h
    rw [List.filter_eq_nil_iff]
    intro n _
    simp
  · rename_i h
    apply List.filter_congr
    intro n _
    by_cases hn : n.typ = typ
    · simp [hn, h]
    · simp [hn]

theorem ofType_append (typ : LinuxNamespaceType) (ns ns' : List LinuxNamespace) :
    ofType typ (ns ++ ns') = ofType typ ns ++ ofType typ ns' := List.filter_append _ _

theorem ofType_singleton (typ typ' : LinuxNamespaceType) (path : Option String) :
    ofType typ [⟨typ', path⟩] = if typ' = typ then [⟨typ', path⟩] else [] := by
  simp [ofType, List.filter_cons]

/-- At most one namespace of each type. -/
theorem nodup_types_iff (ns : List LinuxNamespace) :
    (ns.map (·.typ)).Nodup ↔ ∀ typ, (ofType typ ns).length ≤ 1 := by
  rw [List.nodup_iff_count_le_one]
  refine forall_congr' fun typ => ?_
  rw [List.count, List.countP_map, List.countP_eq_length_filter]
  exact Iff.rfl

theorem mapLinux_some {spec : Spec Seccomp} {l : Linux Seccomp} (h : spec.linux = some l)
    (f : Linux Seccomp → Linux Seccomp) : (spec.mapLinux f).linux = some (f l) := by
  rw [Spec.mapLinux, h, Option.map_some]

/-- A step on the namespaces only. -/
def NamespacesTo (l : Linux Seccomp) (spec : Spec Seccomp)
    (f : LinuxNamespaceType → List LinuxNamespace) : Prop :=
  ∃ ns, spec.linux = some { l with namespaces := ns } ∧ ∀ typ, ofType typ (ns.getD []) = f typ

theorem setNetworkNamespace_linux {spec : Spec Seccomp} {l : Linux Seccomp}
    (h : spec.linux = some l) (path : Option String) :
    NamespacesTo l (setNetworkNamespace spec path) fun typ =>
      if typ = .network then networkNamespace path else ofType typ (l.namespaces.getD []) := by
  refine ⟨_, mapLinux_some h _, fun typ => ?_⟩
  dsimp only [Option.getD_some, networkNamespace]
  -- the private namespace goes first; a path adds one
  cases path with
  | none =>
    rw [ofType_retainOther]
  | some path =>
    dsimp only
    split
    · rw [ofType_retainOther]
    · rw [ofType_append, ofType_retainOther, ofType_singleton]
      by_cases htyp : typ = .network
      · simp [htyp]
      · simp [htyp, Ne.symm htyp]

theorem applyHostNamespaces_linux {spec : Spec Seccomp} {l : Linux Seccomp}
    (h : spec.linux = some l) (hostPid hostIpc : Bool) :
    NamespacesTo l (applyHostNamespaces spec hostPid hostIpc) fun typ =>
      if (typ = .pid ∧ hostPid = true) ∨ (typ = .ipc ∧ hostIpc = true) then []
      else ofType typ (l.namespaces.getD []) := by
  unfold applyHostNamespaces
  split
  · rename_i hnone
    have hfalse : hostPid = false ∧ hostIpc = false := by simpa using hnone
    exact ⟨l.namespaces, h, fun typ => by simp [hfalse.1, hfalse.2]⟩
  · refine ⟨_, mapLinux_some h _, fun typ => ?_⟩
    rw [Option.getD_some]
    cases hostPid <;> cases hostIpc <;> simp [ofType_retainOther]
    split <;> simp_all

theorem joinNamespace_linux {spec : Spec Seccomp} {l : Linux Seccomp} (h : spec.linux = some l)
    (typ' : LinuxNamespaceType) (path : Option String) :
    NamespacesTo l (joinNamespace spec typ' path) fun typ =>
      if typ = typ' then sharedNamespace typ' false path (ofType typ' (l.namespaces.getD []))
      else ofType typ (l.namespaces.getD []) := by
  unfold joinNamespace
  split
  · refine ⟨l.namespaces, h, fun typ => ?_⟩
    dsimp only [sharedNamespace]
    split
    · rename_i htyp
      rw [htyp]
      rfl
    · rfl
  · refine ⟨_, mapLinux_some h _, fun typ => ?_⟩
    rw [Option.getD_some, ofType_append, ofType_retainOther, ofType_singleton]
    by_cases htyp : typ = typ'
    · simp [htyp, sharedNamespace]
    · simp [htyp, Ne.symm htyp]

theorem applyUserNamespace_linux {spec : Spec Seccomp} {l : Linux Seccomp}
    (h : spec.linux = some l) (uid gid : List IdMapping) :
    ∃ uids gids, (uids, gids) = (if uid.isEmpty && gid.isEmpty then
        (l.uidMappings, l.gidMappings) else (some uid, some gid)) ∧
      NamespacesTo { l with uidMappings := uids, gidMappings := gids }
        (applyUserNamespace spec uid gid) fun typ =>
          if typ = .user then userNamespace uid gid (ofType .user (l.namespaces.getD []))
          else ofType typ (l.namespaces.getD []) := by
  unfold applyUserNamespace userNamespace
  split
  · refine ⟨l.uidMappings, l.gidMappings, rfl, l.namespaces, h, fun typ => ?_⟩
    dsimp only
    split
    · rename_i htyp
      rw [htyp]
    · rfl
  · refine ⟨some uid, some gid, rfl, _, mapLinux_some h _, fun typ => ?_⟩
    have hany : (l.namespaces.getD []).any (fun n => n.typ = .user) =
        !(ofType .user (l.namespaces.getD [])).isEmpty := by
      rw [Bool.eq_iff_iff]
      simp [ofType]
    rw [Option.getD_some, hany]
    by_cases hown : (ofType .user (l.namespaces.getD [])).isEmpty
    · simp only [hown, Bool.not_true, Bool.false_eq_true, if_false, if_true, ofType_append,
        ofType_singleton]
      by_cases htyp : typ = .user
      · simp [htyp, List.isEmpty_iff.1 hown]
      · simp [htyp, Ne.symm htyp]
    · simp only [hown, Bool.not_false, if_true, if_false, Bool.false_eq_true]
      split
      · rename_i htyp
        rw [htyp]
      · rfl

/-- The five namespace steps of `generate_spec`. -/
def applyNamespaces (spec : Spec Seccomp) (req : ContainerRequest) : Spec Seccomp :=
  let spec := setNetworkNamespace spec req.netnsPath
  let spec := applyHostNamespaces spec req.hostPid req.hostIpc
  let spec := applyUserNamespace spec req.usernsUidMappings req.usernsGidMappings
  let spec := joinNamespace spec .pid req.pidNsPath
  joinNamespace spec .ipc req.ipcNsPath

theorem sharedNamespace_eq (typ : LinuxNamespaceType) (host : Bool) (path : Option String)
    (own : List LinuxNamespace) :
    sharedNamespace typ false path (if host = true then [] else own) =
      sharedNamespace typ host path own := by
  cases path <;> simp [sharedNamespace]

/-- The mappings that the request gives, or those of the base spec. -/
def ContainerRequest.idMappings (req : ContainerRequest)
    (own : Option (List IdMapping) × Option (List IdMapping)) :
    Option (List IdMapping) × Option (List IdMapping) :=
  if req.usernsUidMappings.isEmpty && req.usernsGidMappings.isEmpty then own
  else (some req.usernsUidMappings, some req.usernsGidMappings)

/-- After the five steps the namespaces of each type are the requested ones. -/
theorem applyNamespaces_linux {spec : Spec Seccomp} {l : Linux Seccomp}
    (h : spec.linux = some l) (req : ContainerRequest) :
    ∃ uids gids, (uids, gids) = req.idMappings (l.uidMappings, l.gidMappings) ∧
      NamespacesTo { l with uidMappings := uids, gidMappings := gids }
        (applyNamespaces spec req) fun typ =>
          req.namespacesOf typ (ofType typ (l.namespaces.getD [])) := by
  obtain ⟨ns₁, h₁, hns₁⟩ := setNetworkNamespace_linux h req.netnsPath
  obtain ⟨ns₂, h₂, hns₂⟩ := applyHostNamespaces_linux h₁ req.hostPid req.hostIpc
  obtain ⟨uids, gids, hids, ns₃, h₃, hns₃⟩ :=
    applyUserNamespace_linux h₂ req.usernsUidMappings req.usernsGidMappings
  obtain ⟨ns₄, h₄, hns₄⟩ := joinNamespace_linux h₃ .pid req.pidNsPath
  obtain ⟨ns₅, h₅, hns₅⟩ := joinNamespace_linux h₄ .ipc req.ipcNsPath
  refine ⟨uids, gids, hids, ns₅, h₅, fun typ => ?_⟩
  dsimp only at hns₂ hns₃ hns₄ hns₅
  rw [hns₅]
  simp only [hns₄, hns₃, hns₂, hns₁]
  cases typ <;> simp [ContainerRequest.namespacesOf, sharedNamespace_eq]

/-- There is still at most one of each type. -/
theorem namespacesOf_length (req : ContainerRequest) (typ : LinuxNamespaceType)
    {own : List LinuxNamespace} (hown : own.length ≤ 1) :
    (req.namespacesOf typ own).length ≤ 1 := by
  have hshared : ∀ host path, (sharedNamespace typ host path own).length ≤ 1 := by
    intro host path
    unfold sharedNamespace
    cases path with
    | some path => exact Nat.le_refl 1
    | none => cases host <;> simp [hown]
  have huser : ∀ uid gid, (userNamespace uid gid own).length ≤ 1 := by
    intro uid gid
    unfold userNamespace
    split
    · exact hown
    · split <;> simp [hown]
  have hnetwork : ∀ path, (networkNamespace path).length ≤ 1 := by
    intro path
    unfold networkNamespace
    split
    · simp
    · split <;> simp
  cases typ
  case network => exact hnetwork _
  case pid => exact hshared _ _
  case ipc => exact hshared _ _
  case user => exact huser _ _
  all_goals exact hown

/-! ## Mounts -/

theorem foldl_rootfsProp : ∀ (mounts : List MountSpec) (prop : Option String),
    mounts.foldl rootfsProp prop =
      if mounts.any (·.propagation = .bidirectional) then some "rshared"
      else if prop.isSome then prop
      else neededPropagation mounts
  | [], prop => by cases prop <;> rfl
  | m :: mounts, prop => by
    rw [List.foldl_cons, foldl_rootfsProp mounts]
    cases hm : m.propagation <;> cases prop <;> simp [rootfsProp, neededPropagation, hm]

theorem foldl_rootfsProp_none (mounts : List MountSpec) :
    mounts.foldl rootfsProp none = neededPropagation mounts := by
  rw [foldl_rootfsProp, neededPropagation]
  split
  · rfl
  · rfl

theorem addBindMounts_linux {spec : Spec Seccomp} {l : Linux Seccomp} (h : spec.linux = some l)
    (mounts : List MountSpec) :
    (addBindMounts spec mounts).linux =
      some { l with rootfsPropagation := (neededPropagation mounts).or l.rootfsPropagation } := by
  unfold addBindMounts
  split
  · rename_i hnil
    rw [List.isEmpty_iff.1 hnil, h]
    rfl
  · dsimp only
    rw [foldl_rootfsProp_none]
    cases neededPropagation mounts with
    | none => exact h
    | some prop => simp [Spec.mapLinux, h]

theorem addBindMounts_mounts (spec : Spec Seccomp) (mounts : List MountSpec) :
    (addBindMounts spec mounts).mounts.getD [] =
      spec.mounts.getD [] ++ mounts.map (·.bindMount) := by
  unfold addBindMounts
  split
  · rename_i hnil
    rw [List.isEmpty_iff.1 hnil]
    exact (List.append_nil _).symm
  · dsimp only
    split <;> rfl

/-! ## Resources -/

theorem extendMap_eq (m entries : OrdMap String String) :
    extendMap m entries = m.insertAll entries.entries := rfl

theorem applyResources_linux {spec : Spec Seccomp} {l : Linux Seccomp} (h : spec.linux = some l)
    (res : Resources) :
    ∃ r, (applyResources spec res).linux = some { l with resources := r } ∧
      (r.getD .default).devices = (l.resources.getD .default).devices := by
  unfold applyResources
  split
  · exact ⟨l.resources, h, rfl⟩
  · exact ⟨_, mapLinux_some h _, rfl⟩

/-- The cgroup path and the limits come together, over a section that has neither. -/
theorem applyCgroup_linux {spec : Spec Seccomp} {l : Linux Seccomp} (h : spec.linux = some l)
    (hpath : l.cgroupsPath = none) (hunset : (l.resources.getD .default).limits = .unset)
    (req : ContainerRequest) :
    ∃ r, (applyCgroup spec req).linux =
        some { l with cgroupsPath := req.cgroup?, resources := r } ∧
      (r.getD .default).devices = (l.resources.getD .default).devices ∧
      (r.getD .default).limits = if req.cgroup?.isSome then req.resources.limits else .unset := by
  have hnone : req.cgroup? = none → spec.linux =
      some { l with cgroupsPath := req.cgroup?, resources := l.resources } := by
    intro hc
    rw [h, hc, ← hpath]
  unfold applyCgroup
  cases hreq : req.cgroupPath with
  | none =>
    have hc : req.cgroup? = none := by rw [ContainerRequest.cgroup?, hreq, Option.filter_none]
    exact ⟨l.resources, hnone hc, rfl, by rw [hunset, hc]; rfl⟩
  | some path =>
    dsimp only
    split
    · rename_i hempty
      have hc : req.cgroup? = none := by simp [ContainerRequest.cgroup?, hreq, hempty]
      exact ⟨l.resources, hnone hc, rfl, by rw [hunset, hc]; rfl⟩
    · rename_i hne
      have hc : req.cgroup? = some path := by simp [ContainerRequest.cgroup?, hreq, hne]
      have hset : (spec.mapLinux fun linux => { linux with cgroupsPath := some path }).linux =
          some { l with cgroupsPath := some path } := mapLinux_some h _
      obtain ⟨r, hr, hdevices⟩ := applyResources_linux hset req.resources
      have hunset' : (spec.mapLinux fun linux =>
          { linux with cgroupsPath := some path }).limits? = some .unset := by
        rw [Spec.limits?, hset, Option.map_some]
        exact congrArg some hunset
      have hlimits := applyResources_limits req.resources hunset'
      rw [Spec.limits?, hr, Option.map_some] at hlimits
      refine ⟨r, by rw [hr, hc], hdevices, ?_⟩
      rw [hc]
      exact Option.some.inj hlimits

theorem asked_eq {res : Resources} (hhuge : ∀ e ∈ res.hugepageLimits, e.2.toNat < 2 ^ 63) :
    res.limits = res.asked := by
  have hmap : (res.hugepageLimits.map fun e => (e.1, asI64 e.2)) =
      res.hugepageLimits.map fun e => (e.1, (e.2.toNat : Int)) :=
    List.map_congr_left fun e he => by rw [asI64, if_pos (hhuge e he)]
  unfold Resources.asked Resources.limits
  rw [hmap, extendMap_eq, OrdMap.insertAll_empty]

/-! ## Mounts are left alone -/

@[simp] theorem setNetworkNamespace_mounts (spec : Spec Seccomp) (path : Option String) :
    (setNetworkNamespace spec path).mounts = spec.mounts := rfl

@[simp] theorem applyHostNamespaces_mounts (spec : Spec Seccomp) (hostPid hostIpc : Bool) :
    (applyHostNamespaces spec hostPid hostIpc).mounts = spec.mounts := by
  unfold applyHostNamespaces
  split <;> rfl

@[simp] theorem applyUserNamespace_mounts (spec : Spec Seccomp) (uid gid : List IdMapping) :
    (applyUserNamespace spec uid gid).mounts = spec.mounts := by
  unfold applyUserNamespace
  split <;> rfl

@[simp] theorem joinNamespace_mounts (spec : Spec Seccomp) (typ : LinuxNamespaceType)
    (path : Option String) : (joinNamespace spec typ path).mounts = spec.mounts := by
  unfold joinNamespace
  split <;> rfl

theorem applyNamespaces_mounts (spec : Spec Seccomp) (req : ContainerRequest) :
    (applyNamespaces spec req).mounts = spec.mounts := by
  simp [applyNamespaces]

@[simp] theorem applyResources_mounts (spec : Spec Seccomp) (res : Resources) :
    (applyResources spec res).mounts = spec.mounts := by
  unfold applyResources
  split <;> rfl

theorem applyCgroup_mounts (spec : Spec Seccomp) (req : ContainerRequest) :
    (applyCgroup spec req).mounts = spec.mounts := by
  unfold applyCgroup
  split
  · rfl
  · split
    · rfl
    · rw [applyResources_mounts]
      rfl

/-! ## The privileged and the security step, devices, sysctls -/

theorem applyPrivileged_linux {spec : Spec Seccomp} {l : Linux Seccomp}
    (h : spec.linux = some l) :
    ∃ r, (applyPrivileged spec).linux =
        some { l with maskedPaths := none, readonlyPaths := none, resources := r } ∧
      (r.getD .default).limits = (l.resources.getD .default).limits := by
  exact ⟨_, mapLinux_some (show (spec.mapProcess _).linux = some l from h) _, rfl⟩

theorem applyCapabilities_linux (spec : Spec Seccomp) (add drop : List String) :
    (applyCapabilities spec add drop).linux = spec.linux ∧
      (applyCapabilities spec add drop).mounts = spec.mounts := by
  unfold applyCapabilities
  split
  · exact ⟨rfl, rfl⟩
  · exact ⟨rfl, rfl⟩

theorem applySecurity_linux {node : Node Seccomp} {spec spec' : Spec Seccomp}
    {req : ContainerRequest} {l : Linux Seccomp} (h : spec.linux = some l)
    (hok : applySecurity node spec req = .ok spec') :
    (∃ masked readonly seccomp, spec'.linux =
      some { l with maskedPaths := masked, readonlyPaths := readonly, seccomp := seccomp }) ∧
      spec'.mounts = spec.mounts := by
  rcases applySecurity_cases hok with ⟨hnone, -⟩ | ⟨linux, seccomp, hlinux, -, rfl⟩
  · rw [h] at hnone
    cases hnone
  · rw [h] at hlinux
    cases hlinux
    exact ⟨⟨_, _, _, rfl⟩, rfl⟩

/-- The loop adds one node and one rule for each device, in order. -/
theorem addDevices_eq {node : Node Seccomp} : ∀ {devices : List DeviceRequest}
    {nodes nodes' : List LinuxDevice} {allow allow' : List LinuxDeviceCgroup},
    addDevices node devices nodes allow = .ok (nodes', allow') →
    ∃ stated, devices.map (fun d => node.statDevice d.hostPath) = stated.map .ok ∧
      nodes' = nodes ++ List.zipWith deviceNode devices stated ∧
      allow' = allow ++ List.zipWith deviceRule devices stated
  | [], nodes, _, allow, _, h => by
    cases h
    exact ⟨[], rfl, (List.append_nil nodes).symm, (List.append_nil allow).symm⟩
  | d :: devices, nodes, _, allow, _, h => by
    unfold addDevices at h
    split at h
    · cases h
    · rename_i dev hdev
      obtain ⟨stated, hstated, hnodes, hallow⟩ := addDevices_eq h
      refine ⟨dev :: stated, ?_, ?_, ?_⟩
      · rw [List.map_cons, List.map_cons, hdev, hstated]
      · rw [hnodes, List.append_assoc]
        rfl
      · rw [hallow, List.append_assoc]
        rfl

theorem applyDevices_linux {node : Node Seccomp} {spec spec' : Spec Seccomp}
    {devices : List DeviceRequest} {l : Linux Seccomp} (h : spec.linux = some l)
    (hok : applyDevices node spec devices = .ok spec') :
    ∃ ds r stated, spec'.linux = some { l with devices := ds, resources := r } ∧
      spec'.mounts = spec.mounts ∧
      (r.getD .default).limits = (l.resources.getD .default).limits ∧
      devices.map (fun d => node.statDevice d.hostPath) = stated.map .ok ∧
      ds.getD [] = l.devices.getD [] ++ List.zipWith deviceNode devices stated ∧
      (r.getD .default).devices.getD [] = (l.resources.getD .default).devices.getD [] ++
        List.zipWith deviceRule devices stated := by
  unfold applyDevices at hok
  split at hok
  · rename_i hnil
    cases hok
    rw [List.isEmpty_iff.1 hnil]
    exact ⟨l.devices, l.resources, [], h, rfl, rfl, rfl, (List.append_nil _).symm,
      (List.append_nil _).symm⟩
  · simp only [h] at hok
    split at hok
    · cases hok
    · rename_i ds allow hadd
      cases hok
      obtain ⟨stated, hstated, hnodes, hallow⟩ := addDevices_eq hadd
      exact ⟨some ds, some _, stated, rfl, rfl, rfl, hstated, hnodes, hallow⟩

theorem applySysctls_linux {spec : Spec Seccomp} {l : Linux Seccomp} (h : spec.linux = some l)
    (sysctls : OrdMap String String) :
    ∃ s, (applySysctls spec sysctls).linux = some { l with sysctl := s } ∧
      (applySysctls spec sysctls).mounts = spec.mounts ∧
      ∀ k v, (k, v) ∈ sysctls.entries → (s.getD .empty).get? k = some v := by
  unfold applySysctls
  split
  · rename_i hnil
    refine ⟨l.sysctl, h, rfl, fun k v hmem => ?_⟩
    rw [List.isEmpty_iff.1 hnil] at hmem
    cases hmem
  · refine ⟨_, mapLinux_some h _, rfl, fun k v hmem => ?_⟩
    exact OrdMap.get?_insertAll sysctls.sorted hmem

/-! ## The generated spec -/

/-- The base spec of a request. -/
def ContainerRequest.baseSpec (req : ContainerRequest) (node : Node Seccomp) : Spec Seccomp :=
  match req.rootlessHostIds with
  | some (uid, gid) => node.rootless uid gid
  | none => node.baseSpec

/-- A `linux` section without cgroup settings and with at most one namespace of each type. -/
structure Spec.Plain (spec : Spec Seccomp) : Prop where
  cgroupsPath : spec.linux.bind (·.cgroupsPath) = none
  limits : spec.limits? = some .unset
  namespaces : (((spec.linux.bind (·.namespaces)).getD []).map (·.typ)).Nodup

/-- The base specs of `oci-spec`. -/
structure Node.Plain (node : Node Seccomp) : Prop where
  base : node.baseSpec.Plain
  rootless : ∀ uid gid, (node.rootless uid gid).Plain

theorem Node.Plain.baseSpec {node : Node Seccomp} (hnode : node.Plain) (req : ContainerRequest) :
    (req.baseSpec node).Plain := by
  unfold ContainerRequest.baseSpec
  split
  · exact hnode.rootless _ _
  · exact hnode.base

/-- What the request asks for is in the spec, over the base spec; `l₀` and `l` are the `linux`
    sections. -/
structure Composed (node : Node Seccomp) (req : ContainerRequest) (base spec : Spec Seccomp)
    (l₀ l : Linux Seccomp) : Prop where
  baseLinux : base.linux = some l₀
  linux : spec.linux = some l
  cgroupsPath : l.cgroupsPath = req.cgroup?
  limits : (l.resources.getD .default).limits =
    if req.cgroup?.isSome then req.resources.asked else .unset
  oneOfEach : ((l.namespaces.getD []).map (·.typ)).Nodup
  namespaces : ∀ typ, ofType typ (l.namespaces.getD []) =
    req.namespacesOf typ (ofType typ (l₀.namespaces.getD []))
  idMappings : (l.uidMappings, l.gidMappings) = req.idMappings (l₀.uidMappings, l₀.gidMappings)
  mounts : spec.mounts.getD [] = base.mounts.getD [] ++ req.mounts.map (·.bindMount)
  rootfsPropagation : l.rootfsPropagation =
    (neededPropagation req.mounts).or l₀.rootfsPropagation
  sysctls : ∀ k v, (k, v) ∈ req.sysctls.entries → (l.sysctl.getD .empty).get? k = some v
  devices : req.privileged = false → ∃ stated,
    req.devices.map (fun d => node.statDevice d.hostPath) = stated.map .ok ∧
    l.devices.getD [] = l₀.devices.getD [] ++ List.zipWith deviceNode req.devices stated ∧
    (l.resources.getD .default).devices.getD [] =
      (l₀.resources.getD .default).devices.getD [] ++ List.zipWith deviceRule req.devices stated

/-- The spec before the privileged or the security step. -/
theorem unconfinedSpec_linux {node : Node Seccomp} (hnode : node.Plain) (image : ImageConfig)
    (req : ContainerRequest) (rootfs : String) :
    ∃ l₀ uids gids ns r, (req.baseSpec node).linux = some l₀ ∧
      (unconfinedSpec node image req rootfs).linux = some
        { l₀ with
          uidMappings := uids, gidMappings := gids, namespaces := ns
          rootfsPropagation := (neededPropagation req.mounts).or l₀.rootfsPropagation
          cgroupsPath := req.cgroup?, resources := r } ∧
      (unconfinedSpec node image req rootfs).mounts.getD [] =
        (req.baseSpec node).mounts.getD [] ++ req.mounts.map (·.bindMount) ∧
      (uids, gids) = req.idMappings (l₀.uidMappings, l₀.gidMappings) ∧
      (∀ typ, ofType typ (ns.getD []) =
        req.namespacesOf typ (ofType typ (l₀.namespaces.getD []))) ∧
      (r.getD .default).devices = (l₀.resources.getD .default).devices ∧
      (r.getD .default).limits =
        if req.cgroup?.isSome then req.resources.limits else .unset := by
  obtain ⟨l₀, hbase, hunset⟩ := Option.map_eq_some_iff.1 (hnode.baseSpec req).limits
  have hpath : l₀.cgroupsPath = none := by
    have h := (hnode.baseSpec req).cgroupsPath
    rwa [hbase, Option.bind_some] at h
  let start : Spec Seccomp :=
    { req.baseSpec node with
      process := some (buildProcess image req)
      root := some ⟨rootfs, some req.readonlyRootfs⟩
      hostname := req.hostname }
  have hsteps : unconfinedSpec node image req rootfs =
      applyCgroup (addBindMounts (applyNamespaces start req) req.mounts) req := rfl
  have hstart : start.linux = some l₀ := hbase
  obtain ⟨uids, gids, hids, ns, h₁, hns⟩ := applyNamespaces_linux hstart req
  have h₂ := addBindMounts_linux h₁ req.mounts
  obtain ⟨r, h₃, hdevices, hlimits⟩ := applyCgroup_linux h₂ hpath hunset req
  refine ⟨l₀, uids, gids, ns, r, hbase, ?_, ?_, hids, hns, hdevices, hlimits⟩
  · rw [hsteps, h₃]
  · rw [hsteps, applyCgroup_mounts, addBindMounts_mounts, applyNamespaces_mounts]

/-- What the last steps leave alone. -/
structure Keeps (l₁ l : Linux Seccomp) : Prop where
  cgroupsPath : l.cgroupsPath = l₁.cgroupsPath
  namespaces : l.namespaces = l₁.namespaces
  uidMappings : l.uidMappings = l₁.uidMappings
  gidMappings : l.gidMappings = l₁.gidMappings
  rootfsPropagation : l.rootfsPropagation = l₁.rootfsPropagation
  limits : (l.resources.getD .default).limits = (l₁.resources.getD .default).limits

/-- The steps after the cgroup, in both branches. -/
theorem generateSpec_last {node : Node Seccomp} {image : ImageConfig} {req : ContainerRequest}
    {rootfs : String} {spec : Spec Seccomp} (h : generateSpec node image req rootfs = .ok spec)
    {l₁ : Linux Seccomp} (h₁ : (unconfinedSpec node image req rootfs).linux = some l₁) :
    ∃ l, spec.linux = some l ∧ Keeps l₁ l ∧
      spec.mounts = (unconfinedSpec node image req rootfs).mounts ∧
      (∀ k v, (k, v) ∈ req.sysctls.entries → (l.sysctl.getD .empty).get? k = some v) ∧
      (req.privileged = false → ∃ stated,
        req.devices.map (fun d => node.statDevice d.hostPath) = stated.map .ok ∧
        l.devices.getD [] = l₁.devices.getD [] ++ List.zipWith deviceNode req.devices stated ∧
        (l.resources.getD .default).devices.getD [] =
          (l₁.resources.getD .default).devices.getD [] ++
            List.zipWith deviceRule req.devices stated) := by
  rcases generateSpec_cases h with
    ⟨hpriv, rfl⟩ | ⟨-, secure, final, hsecurity, hdevices, rfl⟩
  · obtain ⟨r, h₂, hlimits⟩ := applyPrivileged_linux h₁
    obtain ⟨s, h₃, hmounts, hsysctls⟩ := applySysctls_linux h₂ req.sysctls
    refine ⟨_, h₃, ⟨rfl, rfl, rfl, rfl, rfl, hlimits⟩, hmounts, hsysctls, fun hno => ?_⟩
    rw [hno] at hpriv
    cases hpriv
  · obtain ⟨hcaps, hcapsMounts⟩ := applyCapabilities_linux
      (unconfinedSpec node image req rootfs) req.addCapabilities req.dropCapabilities
    obtain ⟨⟨m, ro, sc, h₂⟩, hmounts₂⟩ := applySecurity_linux (hcaps.trans h₁) hsecurity
    obtain ⟨ds, r, stated, h₃, hmounts₃, hlimits, hstated, hnodes, hrules⟩ :=
      applyDevices_linux h₂ hdevices
    obtain ⟨s, h₄, hmounts₄, hsysctls⟩ := applySysctls_linux h₃ req.sysctls
    refine ⟨_, h₄, ⟨rfl, rfl, rfl, rfl, rfl, hlimits⟩, ?_, hsysctls,
      fun _ => ⟨stated, hstated, hnodes, hrules⟩⟩
    rw [hmounts₄, hmounts₃, hmounts₂, hcapsMounts]

/-- The namespaces and mappings of every spec, over those of the base spec. -/
theorem generateSpec_namespaces {node : Node Seccomp} (hnode : node.Plain) {image : ImageConfig}
    {req : ContainerRequest} {rootfs : String} {spec : Spec Seccomp}
    (h : generateSpec node image req rootfs = .ok spec) :
    ∃ l₀ l, (req.baseSpec node).linux = some l₀ ∧ spec.linux = some l ∧
      (l.uidMappings, l.gidMappings) = req.idMappings (l₀.uidMappings, l₀.gidMappings) ∧
      ∀ typ, ofType typ (l.namespaces.getD []) =
        req.namespacesOf typ (ofType typ (l₀.namespaces.getD [])) := by
  obtain ⟨l₀, uids, gids, _, _, hbase, h₁, -, hids, hns, -⟩ :=
    unconfinedSpec_linux hnode image req rootfs
  obtain ⟨l, hl, hkeeps, -⟩ := generateSpec_last h h₁
  refine ⟨l₀, l, hbase, hl, ?_, fun typ => ?_⟩
  · rw [hkeeps.uidMappings, hkeeps.gidMappings]
    exact hids
  · rw [hkeeps.namespaces]
    exact hns typ

/-- **Composition.**  Every step of `generate_spec` leaves in place what the others wrote. -/
theorem generateSpec_composes {node : Node Seccomp} (hnode : node.Plain) {image : ImageConfig}
    {req : ContainerRequest} (hhuge : ∀ e ∈ req.resources.hugepageLimits, e.2.toNat < 2 ^ 63)
    {rootfs : String} {spec : Spec Seccomp} (h : generateSpec node image req rootfs = .ok spec) :
    ∃ l₀ l, Composed node req (req.baseSpec node) spec l₀ l := by
  obtain ⟨l₀, uids, gids, ns, r, hbase, h₁, hmounts, hids, hns, hrules, hlimits⟩ :=
    unconfinedSpec_linux hnode image req rootfs
  obtain ⟨l, hl, hkeeps, hmounts', hsysctls, hdevices⟩ := generateSpec_last h h₁
  have hone : ((l₀.namespaces.getD []).map (·.typ)).Nodup := by
    have h := (hnode.baseSpec req).namespaces
    rwa [hbase, Option.bind_some] at h
  have hofType : ∀ typ, ofType typ (l.namespaces.getD []) =
      req.namespacesOf typ (ofType typ (l₀.namespaces.getD [])) := by
    intro typ
    rw [hkeeps.namespaces]
    exact hns typ
  refine ⟨l₀, l, ?_⟩
  exact
    { baseLinux := hbase
      linux := hl
      cgroupsPath := hkeeps.cgroupsPath
      limits := by rw [hkeeps.limits, hlimits, asked_eq hhuge]
      oneOfEach := by
        rw [nodup_types_iff]
        intro typ
        rw [hofType]
        exact namespacesOf_length req typ ((nodup_types_iff _).1 hone typ)
      namespaces := hofType
      idMappings := by rw [hkeeps.uidMappings, hkeeps.gidMappings, ← hids]
      mounts := by rw [hmounts', hmounts]
      rootfsPropagation := hkeeps.rootfsPropagation
      sysctls := hsysctls
      devices := by
        intro hpriv
        obtain ⟨stated, hstated, hnodes, hallow⟩ := hdevices hpriv
        exact ⟨stated, hstated, hnodes, by rw [hallow, hrules]⟩ }

/-- A pod's container with limits, a shared volume and a joined network namespace. -/
def podRequest : ContainerRequest :=
  { ContainerRequest.default with
    netnsPath := some "/run/netns/pod"
    hostIpc := true
    usernsUidMappings := [⟨0, 100000, 65536⟩]
    usernsGidMappings := [⟨0, 100000, 65536⟩]
    mounts := [⟨"/var/lib/data", "/data", false, .bidirectional, false⟩]
    sysctls := OrdMap.empty.insert "net.core.somaxconn" "1024"
    cgroupPath := some "/kubepods/pod1/web"
    resources := { Resources.default with
      memoryLimit := some 268435456, hugepageLimits := [("2MB", 4194304)] } }

theorem privateNamespaces_plain : privateNamespaces.Plain := ⟨rfl, rfl, by decide⟩

theorem bareNode_plain : bareNode.Plain := ⟨privateNamespaces_plain, fun _ _ =>
  privateNamespaces_plain⟩

theorem podRequest_composes :
    ∃ spec l₀ l, generateSpec bareNode plainImage podRequest "/rootfs" = .ok spec ∧
      Composed bareNode podRequest privateNamespaces spec l₀ l := by
  obtain ⟨spec, h⟩ : ∃ spec, generateSpec bareNode plainImage podRequest "/rootfs" = .ok spec :=
    ⟨_, rfl⟩
  obtain ⟨l₀, l, hcomposed⟩ := generateSpec_composes bareNode_plain (by decide) h
  exact ⟨spec, l₀, l, h, hcomposed⟩

end ContainerdRs.Runtime
