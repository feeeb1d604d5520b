import ContainerdRs.Runtime.Bundle

/-!
# The capability sets of the generated spec

A non-privileged container starts with the default set and an empty ambient set;
`apply_capabilities`, which runs as soon as the request adds or drops a name, writes its result
to all five sets.

* `processCaps_generateSpec` — the five sets, in terms of the request.
* `capability_sets_exact` — the four sets other than the ambient one.
* `ambient_caps_iff` — when the ambient set holds only requested capabilities and no set grows
  with more drops.
* `drop_grants_ambient` — a request that only drops a name gets default capabilities as ambient.
-/

set_option autoImplicit false

namespace ContainerdRs.Runtime

variable {Seccomp : Type}

/-- The capabilities of a spec's process. -/
def processCaps (spec : Spec Seccomp) : Option LinuxCapabilities :=
  spec.process.bind (·.capabilities)

/-! ## Which steps touch the process -/

@[simp] theorem mapLinux_process (spec : Spec Seccomp) (f : Linux Seccomp → Linux Seccomp) :
    (spec.mapLinux f).process = spec.process := rfl

@[simp] theorem setNetworkNamespace_process (spec : Spec Seccomp) (path : Option String) :
    (setNetworkNamespace spec path).process = spec.process := rfl

@[simp] theorem applyHostNamespaces_process (spec : Spec Seccomp) (hostPid hostIpc : Bool) :
    (applyHostNamespaces spec hostPid hostIpc).process = spec.process := by
  unfold applyHostNamespaces
  split <;> rfl

@[simp] theorem applyUserNamespace_process (spec : Spec Seccomp) (uid gid : List IdMapping) :
    (applyUserNamespace spec uid gid).process = spec.process := by
  unfold applyUserNamespace
  split <;> rfl

@[simp] theorem joinNamespace_process (spec : Spec Seccomp) (typ : LinuxNamespaceType)
    (path : Option String) : (joinNamespace spec typ path).process = spec.process := by
  unfold joinNamespace
  split <;> rfl

@[simp] theorem addBindMounts_process (spec : Spec Seccomp) (mounts : List MountSpec) :
    (addBindMounts spec mounts).process = spec.process := by
  unfold addBindMounts
  split
  · rfl
  · dsimp only
    split <;> rfl

@[simp] theorem applyResources_process (spec : Spec Seccomp) (res : Resources) :
    (applyResources spec res).process = spec.process := by
  unfold applyResources
  split <;> rfl

@[simp] theorem applyCgroup_process (spec : Spec Seccomp) (req : ContainerRequest) :
    (applyCgroup spec req).process = spec.process := by
  unfold applyCgroup
  split
  · rfl
  · split
    · rfl
    · simp

@[simp] theorem applySysctls_process (spec : Spec Seccomp) (sysctls : OrdMap String String) :
    (applySysctls spec sysctls).process = spec.process := by
  unfold applySysctls
  split <;> rfl

theorem unconfinedSpec_process (node : Node Seccomp) (image : ImageConfig)
    (req : ContainerRequest) (rootfs : String) :
    (unconfinedSpec node image req rootfs).process = some (buildProcess image req) := by
  simp [unconfinedSpec]

theorem applyDevices_process {node : Node Seccomp} {spec spec' : Spec Seccomp}
    {devices : List DeviceRequest} (h : applyDevices node spec devices = .ok spec') :
    spec'.process = spec.process := by
  rcases applyDevices_cases h with rfl | ⟨nodes, allow, rfl⟩
  · rfl
  · rfl

/-- The security step only sets the privilege flag, the profile and the label of the process. -/
theorem applySecurity_process {node : Node Seccomp} {spec spec' : Spec Seccomp}
    {req : ContainerRequest} (h : applySecurity node spec req = .ok spec') :
    spec'.process = spec.process.map req.secured := by
  rcases applySecurity_cases h with ⟨-, rfl⟩ | ⟨linux, seccomp, -, -, rfl⟩
  · rfl
  · rfl

theorem applySecurity_caps {node : Node Seccomp} {spec spec' : Spec Seccomp}
    {req : ContainerRequest} (h : applySecurity node spec req = .ok spec') :
    processCaps spec' = processCaps spec := by
  unfold processCaps
  rw [applySecurity_process h]
  cases spec.process with
  | none => rfl
  | some p => rfl

/-! ## The five sets -/

/-- The set `apply_capabilities` computes from the default one. -/
def requestedCaps (add drop : List String) : Finset Capability :=
  (defaultCapabilities \ expand drop) ∪ expand add

/-- The capabilities of a non-privileged spec. -/
theorem processCaps_generateSpec {node : Node Seccomp} {image : ImageConfig}
    {req : ContainerRequest} {rootfs : String} {spec : Spec Seccomp}
    (hpriv : req.privileged = false) (h : generateSpec node image req rootfs = .ok spec) :
    processCaps spec = some
      (if req.addCapabilities = [] ∧ req.dropCapabilities = [] then
        buildCaps defaultCapabilities ∅
      else
        buildCaps (requestedCaps req.addCapabilities req.dropCapabilities)
          (requestedCaps req.addCapabilities req.dropCapabilities)) := by
  have hp := unconfinedSpec_process node image req rootfs
  have hcaps : processCaps (applyCapabilities (unconfinedSpec node image req rootfs)
      req.addCapabilities req.dropCapabilities) = some
        (if req.addCapabilities = [] ∧ req.dropCapabilities = [] then
          buildCaps defaultCapabilities ∅
        else
          buildCaps (requestedCaps req.addCapabilities req.dropCapabilities)
            (requestedCaps req.addCapabilities req.dropCapabilities)) := by
    have hbound : boundingSet (unconfinedSpec node image req rootfs) = defaultCapabilities := by
      simp [boundingSet, hp, buildProcess, buildCaps]
    unfold applyCapabilities
    by_cases he : req.addCapabilities = [] ∧ req.dropCapabilities = []
    · simp [he.1, he.2, processCaps, hp, buildProcess]
    · have he' : (req.addCapabilities.isEmpty && req.dropCapabilities.isEmpty) = false := by
        simpa [List.isEmpty_iff] using he
      rw [he', if_neg he, hbound, dropCaps_eq, addCaps_eq]
      simp [processCaps, Spec.mapProcess, hp, requestedCaps]
  obtain ⟨secure, final, hsecurity, hdevices, rfl⟩ := generateSpec_confined hpriv h
  rw [← hcaps, ← applySecurity_caps hsecurity]
  simp [processCaps, applyDevices_process hdevices]

/-- One of the five sets, empty when absent. -/
def capSet (set : LinuxCapabilities → Option (Finset Capability)) (spec : Spec Seccomp) :
    Finset Capability := ((processCaps spec).bind set).getD ∅

/-- Every one of the five sets of `a` is contained in that of `b`. -/
def CapsLe (a b : Spec Seccomp) : Prop :=
  capSet (·.bounding) a ⊆ capSet (·.bounding) b ∧
    capSet (·.effective) a ⊆ capSet (·.effective) b ∧
    capSet (·.permitted) a ⊆ capSet (·.permitted) b ∧
    capSet (·.inheritable) a ⊆ capSet (·.inheritable) b ∧
    capSet (·.ambient) a ⊆ capSet (·.ambient) b

theorem requestedCaps_antitone (add : List String) {drop drop' : List String}
    (h : ∀ n ∈ drop, n ∈ drop') : requestedCaps add drop' ⊆ requestedCaps add drop := by
  unfold requestedCaps
  apply Finset.union_subset_union_left
  exact Finset.sdiff_subset_sdiff (Finset.Subset.refl _) (expand_mono h)

theorem requestedCaps_nil : requestedCaps [] [] = defaultCapabilities := by
  simp [requestedCaps, expand]

/-- The ambient set in terms of the request: empty when nothing is added or dropped, else the
    whole set. -/
def ambientOf (add drop : List String) : Finset Capability :=
  if add = [] ∧ drop = [] then ∅ else requestedCaps add drop

theorem capSets_generateSpec {node : Node Seccomp} {image : ImageConfig}
    {req : ContainerRequest} {rootfs : String} {spec : Spec Seccomp}
    (hpriv : req.privileged = false) (h : generateSpec node image req rootfs = .ok spec) :
    processCaps spec = some
      (buildCaps (requestedCaps req.addCapabilities req.dropCapabilities)
        (ambientOf req.addCapabilities req.dropCapabilities)) := by
  rw [processCaps_generateSpec hpriv h]
  unfold ambientOf
  split
  · rename_i he
    rw [he.1, he.2, requestedCaps_nil]
  · rfl

/-- The bounding, effective, permitted and inheritable sets of a spec are `set`. -/
def CapsAre (spec : Spec Seccomp) (set : Finset Capability) : Prop :=
  ∃ caps, processCaps spec = some caps ∧ caps.bounding = some set ∧
    caps.effective = some set ∧ caps.permitted = some set ∧ caps.inheritable = some set

theorem capsAre_generateSpec {node : Node Seccomp} {image : ImageConfig}
    {req : ContainerRequest} {rootfs : String} {spec : Spec Seccomp}
    (hpriv : req.privileged = false) (h : generateSpec node image req rootfs = .ok spec) :
    CapsAre spec (requestedCaps req.addCapabilities req.dropCapabilities) :=
  ⟨_, capSets_generateSpec hpriv h, rfl, rfl, rfl, rfl⟩

/-- **Capability sets.**  For a non-privileged request the four sets are the default ones without
    the dropped ones, and with the added ones; also when the names of the two lists are given in
    another order or several times. -/
theorem capability_sets_exact {node : Node Seccomp} {image : ImageConfig}
    {req : ContainerRequest} {rootfs : String} {spec : Spec Seccomp}
    (hpriv : req.privileged = false) (h : generateSpec node image req rootfs = .ok spec) :
    CapsAre spec
        ((defaultCapabilities \ expand req.dropCapabilities) ∪ expand req.addCapabilities) ∧
      ∀ (add' drop' : List String) (spec' : Spec Seccomp),
        (∀ n, n ∈ add' ↔ n ∈ req.addCapabilities) →
        (∀ n, n ∈ drop' ↔ n ∈ req.dropCapabilities) →
        generateSpec node image
          { req with addCapabilities := add', dropCapabilities := drop' } rootfs = .ok spec' →
        CapsAre spec'
          ((defaultCapabilities \ expand req.dropCapabilities) ∪ expand req.addCapabilities) := by
  constructor
  · exact capsAre_generateSpec hpriv h
  · intro add' drop' spec' hadd hdrop h'
    have hsets := @capsAre_generateSpec _ node image
      { req with addCapabilities := add', dropCapabilities := drop' } rootfs spec' hpriv h'
    have hsame : requestedCaps add' drop' =
        (defaultCapabilities \ expand req.dropCapabilities) ∪ expand req.addCapabilities := by
      rw [requestedCaps, expand_congr hadd, expand_congr hdrop]
    rw [← hsame]
    exact hsets

/-- The ambient set holds only added capabilities. -/
theorem ambientOf_subset_iff (add drop : List String) :
    ambientOf add drop ⊆ expand add ↔
      (add = [] ∧ drop = []) ∨ defaultCapabilities \ expand drop ⊆ expand add := by
  unfold ambientOf
  split
  · rename_i he
    simp [he]
  · rename_i he
    rw [requestedCaps, Finset.union_subset_iff]
    simp [he]

/-- The ambient set does not grow with more drops. -/
theorem ambientOf_antitone_iff (add : List String) {drop drop' : List String}
    (h : ∀ n ∈ drop, n ∈ drop') :
    ambientOf add drop' ⊆ ambientOf add drop ↔
      (add = [] ∧ drop = [] → drop' = [] ∨ defaultCapabilities ⊆ expand drop') := by
  by_cases he : add = [] ∧ drop = []
  · obtain ⟨rfl, rfl⟩ := he
    by_cases hd : drop' = []
    · simp [ambientOf, hd]
    · simp [ambientOf, hd, requestedCaps, expand, Finset.sdiff_eq_empty_iff_subset]
  · have he' : ¬ (add = [] ∧ drop' = []) := by
      rintro ⟨ha, rfl⟩
      exact he ⟨ha, List.eq_nil_iff_forall_not_mem.2 fun n hn => by cases h n hn⟩
    simp only [ambientOf, he, he', if_false, false_imp_iff, iff_true]
    exact requestedCaps_antitone add h

/-- **Ambient capabilities.**  For a non-privileged request and any further drops: the ambient
    set holds only capabilities named in `add_capabilities` and no set grows with the drops,
    exactly when nothing is added or dropped, or every default capability that is not dropped is
    added; and a request that adds and drops nothing is not given drops that leave a default
    capability. -/
theorem ambient_caps_iff {node : Node Seccomp} {image : ImageConfig} {req : ContainerRequest}
    {rootfs : String} {drop' : List String} {spec spec' : Spec Seccomp}
    (hpriv : req.privileged = false) (hdrop : ∀ n ∈ req.dropCapabilities, n ∈ drop')
    (h : generateSpec node image req rootfs = .ok spec)
    (h' : generateSpec node image { req with dropCapabilities := drop' } rootfs = .ok spec') :
    (capSet (·.ambient) spec ⊆ expand req.addCapabilities ∧ CapsLe spec' spec) ↔
      ((req.addCapabilities = [] ∧ req.dropCapabilities = []) ∨
          defaultCapabilities \ expand req.dropCapabilities ⊆ expand req.addCapabilities) ∧
        (req.addCapabilities = [] ∧ req.dropCapabilities = [] →
          drop' = [] ∨ defaultCapabilities ⊆ expand drop') := by
  have hc := capSets_generateSpec hpriv h
  have hc' := @capSets_generateSpec _ node image { req with dropCapabilities := drop' } rootfs
    spec' hpriv h'
  have hsub := requestedCaps_antitone req.addCapabilities hdrop
  simp only [CapsLe, capSet, hc, hc', buildCaps, Option.bind_some, Option.getD_some]
  rw [ambientOf_subset_iff, ambientOf_antitone_iff _ hdrop]
  simp [hsub]

/-- A base spec with the private namespaces of `Spec::default()`. -/
def privateNamespaces : Spec Unit where
  process := none
  root := none
  hostname := some "youki"
  mounts := none
  linux := some
    { uidMappings := none
      gidMappings := none
      sysctl := none
      resources := none
      cgroupsPath := none
      namespaces := some [⟨.pid, none⟩, ⟨.network, none⟩, ⟨.ipc, none⟩, ⟨.uts, none⟩,
        ⟨.mount, none⟩, ⟨.cgroup, none⟩]
      devices := none
      seccomp := none
      rootfsPropagation := none
      maskedPaths := none
      readonlyPaths := none }

/-- A node without profile files and devices. -/
def bareNode : Node Unit where
  baseSpec := privateNamespaces
  rootless _ _ := privateNamespaces
  runtimeDefault _ := .ok ()
  readProfile _ := .error "not found"
  parseProfile _ := .ok ()
  statDevice path := .error (.builder ("device not found on node: " ++ path))

/-- An image without settings. -/
def plainImage : ImageConfig := ⟨[], ["/pause"], [], none, none⟩

/-- `drop: [ALL], add: [NET_BIND_SERVICE]`. -/
def hardenedRequest : ContainerRequest :=
  { ContainerRequest.default with
    addCapabilities := ["NET_BIND_SERVICE"], dropCapabilities := ["ALL"] }

/-- The hardened request: only the added capability is left. -/
theorem hardened_caps_exact :
    ∃ spec, generateSpec bareNode plainImage hardenedRequest "/rootfs" = .ok spec ∧
      CapsAre spec {Capability.netBindService} := by
  obtain ⟨spec, h⟩ : ∃ spec,
      generateSpec bareNode plainImage hardenedRequest "/rootfs" = .ok spec := ⟨_, rfl⟩
  have hset : (defaultCapabilities \ expand hardenedRequest.dropCapabilities) ∪
      expand hardenedRequest.addCapabilities = {Capability.netBindService} := by decide
  refine ⟨spec, h, ?_⟩
  rw [← hset]
  exact (capability_sets_exact rfl h).1

/-- The hardened request, and the same with one more drop. -/
theorem hardened_ambient :
    ∃ spec spec', generateSpec bareNode plainImage hardenedRequest "/rootfs" = .ok spec ∧
      generateSpec bareNode plainImage
        { hardenedRequest with dropCapabilities := ["ALL", "KILL"] } "/rootfs" = .ok spec' ∧
      capSet (·.ambient) spec ⊆ expand ["NET_BIND_SERVICE"] ∧ CapsLe spec' spec := by
  obtain ⟨spec, h⟩ : ∃ spec,
      generateSpec bareNode plainImage hardenedRequest "/rootfs" = .ok spec := ⟨_, rfl⟩
  obtain ⟨spec', h'⟩ : ∃ spec', generateSpec bareNode plainImage
      { hardenedRequest with dropCapabilities := ["ALL", "KILL"] } "/rootfs" = .ok spec' :=
    ⟨_, rfl⟩
  refine ⟨spec, spec', h, h', (ambient_caps_iff rfl (by simp [hardenedRequest]) h h').2 ?_⟩
  exact ⟨Or.inr (by decide), by simp [hardenedRequest]⟩

/-- Dropping `NET_ADMIN`, which the default set does not hold, makes the default set ambient. -/
theorem drop_grants_ambient :
    ¬ ∀ (node : Node Unit) (image : ImageConfig) (req : ContainerRequest) (rootfs : String)
      (drop' : List String) (spec spec' : Spec Unit), req.privileged = false →
      (∀ n ∈ req.dropCapabilities, n ∈ drop') →
      generateSpec node image req rootfs = .ok spec →
      generateSpec node image { req with dropCapabilities := drop' } rootfs = .ok spec' →
        capSet (·.ambient) spec ⊆ expand req.addCapabilities ∧ CapsLe spec' spec := by
  intro h
  have hsub := (h bareNode plainImage
    { ContainerRequest.default with dropCapabilities := ["NET_ADMIN"] } "/rootfs"
    ["NET_ADMIN"] _ _ rfl (fun _ hn => hn) rfl rfl).1
  exact absurd hsub (by decide)

end ContainerdRs.Runtime
