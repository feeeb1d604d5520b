import ContainerdRs.Runtime.CapabilitySets

/-!
# The settings that a privileged container ignores

`ContainerRequest` documents nine settings as ignored or overridden for privileged containers.
Two privileged requests that differ only in these are compared.

* `unconfinedSpec_ignored` — the common steps read none of them but `no_new_privileges`.
* `privileged_specs_equal_iff` — the specs are equal exactly when `no_new_privileges` is.
-/

set_option autoImplicit false

namespace ContainerdRs.Runtime

variable {Seccomp : Type}

/-- The settings documented as ignored or overridden for privileged containers. -/
structure Hardening where
  addCapabilities : List String
  dropCapabilities : List String
  noNewPrivileges : Bool
  apparmorProfile : Option String
  selinuxLabel : Option String
  maskedPaths : List String
  readonlyPaths : List String
  seccomp : SeccompProfile
  devices : List DeviceRequest

/-- The request with these settings in place of its own. -/
def ContainerRequest.harden (req : ContainerRequest) (h : Hardening) : ContainerRequest :=
  { req with
    addCapabilities := h.addCapabilities
    dropCapabilities := h.dropCapabilities
    noNewPrivileges := h.noNewPrivileges
    apparmorProfile := h.apparmorProfile
    selinuxLabel := h.selinuxLabel
    maskedPaths := h.maskedPaths
    readonlyPaths := h.readonlyPaths
    seccomp := h.seccomp
    devices := h.devices }

/-- Requests that agree on everything else. -/
def AgreeOutside (req req' : ContainerRequest) : Prop := ∃ h : Hardening, req' = req.harden h

/-- The steps before the privileged one read `no_new_privileges` only, for the process. -/
theorem unconfinedSpec_ignored (node : Node Seccomp) (image : ImageConfig)
    (req : ContainerRequest) (rootfs : String) (h : Hardening)
    (hnnp : h.noNewPrivileges = req.noNewPrivileges) :
    unconfinedSpec node image (req.harden h) rootfs = unconfinedSpec node image req rootfs := by
  have hprocess : buildProcess image (req.harden h) = buildProcess image req := by
    simp only [buildProcess, ContainerRequest.harden, hnnp]
    rfl
  unfold unconfinedSpec
  rw [hprocess]
  rfl

theorem generateSpec_privileged (node : Node Seccomp) (image : ImageConfig)
    {req : ContainerRequest} (rootfs : String) (hpriv : req.privileged = true) :
    generateSpec node image req rootfs =
      .ok (applySysctls (applyPrivileged (unconfinedSpec node image req rootfs)) req.sysctls) := by
  simp only [generateSpec, hpriv, if_true]

/-- The flag of a privileged spec is the one of the request. -/
theorem privileged_noNewPrivileges (node : Node Seccomp) (image : ImageConfig)
    {req : ContainerRequest} {rootfs : String} {spec : Spec Seccomp}
    (hpriv : req.privileged = true) (h : generateSpec node image req rootfs = .ok spec) :
    spec.process.bind (·.noNewPrivileges) = some req.noNewPrivileges := by
  rw [generateSpec_privileged node image rootfs hpriv] at h
  cases h
  rw [applySysctls_process]
  simp only [applyPrivileged, mapLinux_process, Spec.mapProcess, unconfinedSpec_process]
  rfl

/-- **Privileged requests** that agree outside the ignored settings get equal specs exactly when
    they have the same `no_new_privileges`. -/
theorem privileged_specs_equal_iff (node : Node Seccomp) (image : ImageConfig) (rootfs : String)
    {req req' : ContainerRequest} (hpriv : req.privileged = true) (hagree : AgreeOutside req req') :
    generateSpec node image req rootfs = generateSpec node image req' rootfs ↔
      req.noNewPrivileges = req'.noNewPrivileges := by
  obtain ⟨h, rfl⟩ := hagree
  have hpriv' : (req.harden h).privileged = true := hpriv
  constructor
  · intro heq
    have hok := generateSpec_privileged node image rootfs hpriv
    have hflag := privileged_noNewPrivileges node image hpriv hok
    have hflag' := privileged_noNewPrivileges node image hpriv' (heq ▸ hok)
    exact Option.some.inj (hflag.symm.trans hflag')
  · intro hnnp
    rw [generateSpec_privileged node image rootfs hpriv,
      generateSpec_privileged node image rootfs hpriv',
      unconfinedSpec_ignored node image req rootfs h hnnp.symm]
    rfl

/-- A privileged request. -/
def privilegedRequest : ContainerRequest := { ContainerRequest.default with privileged := true }

/-- `add: [ALL]`, another profile and label, masked paths and a device. -/
def otherHardening (noNewPrivileges : Bool) : Hardening where
  addCapabilities := ["ALL"]
  dropCapabilities := ["KILL"]
  noNewPrivileges := noNewPrivileges
  apparmorProfile := some "localhost/web"
  selinuxLabel := some "system_u:system_r:container_t:s0"
  maskedPaths := ["/proc/kcore"]
  readonlyPaths := ["/proc/sys"]
  seccomp := .runtimeDefault
  devices := [⟨"/dev/fuse", "/dev/fuse", "rw"⟩]

/-- The eight other settings may all differ. -/
theorem privileged_specs_equal :
    generateSpec bareNode plainImage privilegedRequest "/rootfs" =
      generateSpec bareNode plainImage (privilegedRequest.harden (otherHardening false))
        "/rootfs" :=
  (privileged_specs_equal_iff bareNode plainImage "/rootfs" rfl ⟨_, rfl⟩).2 rfl

/-- `no_new_privileges` reaches the spec of a privileged container. -/
theorem privileged_specs_differ :
    ¬ ∀ (node : Node Unit) (image : ImageConfig) (rootfs : String) (req req' : ContainerRequest),
      req.privileged = true → AgreeOutside req req' →
        generateSpec node image req rootfs = generateSpec node image req' rootfs := by
  intro h
  have heq := h bareNode plainImage "/rootfs" privilegedRequest
    (privilegedRequest.harden (otherHardening true)) rfl ⟨_, rfl⟩
  have hpriv : privilegedRequest.privileged = true := rfl
  have hok := generateSpec_privileged bareNode plainImage "/rootfs" hpriv
  have hflag := privileged_noNewPrivileges bareNode plainImage rfl hok
  have hflag' := privileged_noNewPrivileges bareNode plainImage rfl (heq.symm.trans hok)
  cases hflag.symm.trans hflag'

end ContainerdRs.Runtime
