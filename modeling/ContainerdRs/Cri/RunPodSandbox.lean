import ContainerdRs.Lib.Fallible
import ContainerdRs.Sandbox.Cni
import ContainerdRs.Cri.PodIntegrity

/-!
# RunPodSandbox and what it acquires (`run_pod_sandbox`)

The handler of `Sandboxes`, with what it does on the node: it makes the network namespace and
attaches it, makes the sandbox directory for `resolv.conf`, starts the holder of the shared
namespaces, demotes the earlier sandboxes of the pod and stores the record.  When the network
fails it tears the network down again; when the record cannot be stored it returns as it is.

* `runPodSandbox_eq` — the answer and the table of sandboxes are those of the handler of
  `Sandboxes`.
* `networkUndone_of_unchanged` — what is enough for a failed network to be torn down.
* `run_rollsBack_iff` — when a failed call leaves nothing behind.
* `failed_put_leaves_network` — a full disk at the last write leaves everything.
-/

set_option autoImplicit false

namespace ContainerdRs.Cri.RunPod

open Metadata Fallible Sandbox

/-! ## The state and the environment -/

/-- `v1::PortMapping`. -/
structure PortMapping where
  protocol : Int
  containerPort : Int
  hostPort : Int
  hostIp : String

/-- `v1::RunPodSandboxRequest`, with `port_mappings` of the configuration beside it. -/
structure Request where
  config : Option PodSandboxConfig
  portMappings : List PortMapping

structure World where
  net : Net
  /-- The directories `<state>/<namespace>/<id>`. -/
  dirs : String → Bool
  /-- Sandboxes with a live holder process. -/
  holders : String → Bool
  sandboxes : Table SandboxRecord

/-- `spawn_holder`: there is no process, or there is one but its pid is not known, or it is. -/
inductive Spawn where
  | failed
  | lost
  | holder (pid : Int)
  deriving DecidableEq, Repr

/-- The pid that is stored. -/
def Spawn.pid : Spawn → Option Int
  | .holder pid => some pid
  | _ => none

/-- What the outside answers during one call. -/
structure Env where
  /-- `gen_id`. -/
  id : String
  cni : Sandbox.Env
  /-- `create_dir_all` of the sandbox directory fails. -/
  dirFails : Bool
  spawn : Spawn
  /-- The metadata calls. -/
  listFails : Bool
  demoteFails : String → Bool
  putErr : Option String

/-! ## The steps -/

/-- A port mapping, for CNI. -/
def PortMapping.cni (m : PortMapping) : Sandbox.PortMapping where
  hostPort := m.hostPort
  containerPort := m.containerPort
  protocol := if m.protocol = 1 then "udp" else if m.protocol = 2 then "sctp" else "tcp"
  hostIp := m.hostIp

/-- `create_netns`, and then `setup`. -/
def attach (env : Env) (mappings : List PortMapping) (n : Net) : Except Error String × Net :=
  match createNetns env.cni env.id n with
  | (.error e, n) => (.error e, n)
  | (.ok (), n) => setup env.cni env.id env.id (mappings.map PortMapping.cni) n

/-- The environment of the handler of `Sandboxes`, but for the network. -/
def Env.pod (env : Env) : PodEnv :=
  { PodEnv.quiet env.id with
    putErr := env.putErr
    listFails := env.listFails
    demoteFails := env.demoteFails
    netnsPath := netnsPath env.id
    holder := env.spawn.pid }

def hostNetwork (config : PodSandboxConfig) : Bool :=
  config.namespaceOptions.any (·.network == modeNode)

/-- The network: `netns_path`. -/
def network (env : Env) (config : PodSandboxConfig) (mappings : List PortMapping) :
    Fallible Status World String :=
  if hostNetwork config then pure "host"
  else act fun w =>
    match attach env mappings w.net with
    | (.ok _, n) => (.ok (netnsPath env.id), { w with net := n })
    | (.error e, n) =>
      (.error ⟨.unavailable, "CNI network setup failed for sandbox " ++ env.id ++ ": " ++ e.text⟩,
        { w with net := teardown env.cni env.id env.id n })

/-- `write_sandbox_resolv_conf`, the directory. -/
def makeDir (env : Env) : Fallible Status World Unit :=
  change fun w =>
    if env.dirFails then w else { w with dirs := Function.update w.dirs env.id true }

/-- `spawn_holder`, when a namespace is shared; a failure is logged. -/
def spawnHolder (env : Env) (sandbox : SandboxRecord) : Fallible Status World Unit :=
  change fun w =>
    if (sandbox.sharedPid || sandbox.sharedIpc) && env.spawn != .failed then
      { w with holders := Function.update w.holders env.id true }
    else w

/-- The earlier sandboxes of the pod are demoted; failures are dropped. -/
def demoteOthers (env : Env) (sandbox : SandboxRecord) : Fallible Status World Unit :=
  change fun w =>
    if env.listFails then w
    else { w with sandboxes := demote env.pod sandbox (list w.sandboxes ns) w.sandboxes }

/-- The metadata `put`. -/
def putRecord (env : Env) (sandbox : SandboxRecord) : Fallible Status World Unit :=
  act fun w =>
    match env.putErr with
    | some e => (.error ⟨.internal, e⟩, w)
    | none => (.ok (), { w with sandboxes := put w.sandboxes ns env.id sandbox })

/-- The steps after the network. -/
def finish (env : Env) (sandbox : SandboxRecord) : Fallible Status World String := do
  makeDir env
  spawnHolder env sandbox
  demoteOthers env sandbox
  putRecord env sandbox
  return env.id

/-- `run_pod_sandbox`. -/
def runPodSandbox (env : Env) (req : Request) : Fallible Status World String := do
  let config ← check (okOr req.config ⟨.invalidArgument, "pod sandbox config required"⟩)
  let userns ← check (usernsOf (config.namespaceOptions.bind (·.usernsOptions)))
  let path ← network env config req.portMappings
  finish env (sandboxRecord env.pod config path userns)

/-! ## The handler on the table of sandboxes -/

/-- The environment of the handler of `Sandboxes`. -/
def Env.podEnv (env : Env) (mappings : List PortMapping) (n : Net) : PodEnv :=
  { env.pod with
    cniErr :=
      match (attach env mappings n).1 with
      | .error e => some e.text
      | .ok _ => none }

/-- What the steps after the network have done before the last one. -/
def acquired (env : Env) (sandbox : SandboxRecord) (w : World) : World where
  net := w.net
  dirs := if env.dirFails then w.dirs else Function.update w.dirs env.id true
  holders :=
    if (sandbox.sharedPid || sandbox.sharedIpc) && env.spawn != .failed then
      Function.update w.holders env.id true
    else w.holders
  sandboxes :=
    if env.listFails then w.sandboxes
    else demote env.pod sandbox (list w.sandboxes ns) w.sandboxes

/-- All steps but the last succeed. -/
theorem exec_finish (env : Env) (sandbox : SandboxRecord) (w : World) :
    exec (finish env sandbox) w =
      exec (putRecord env sandbox >>= fun _ => pure env.id) (acquired env sandbox w) := by
  have hdir : exec (makeDir env) w =
      (.ok (), { w with dirs := (acquired env sandbox w).dirs }) := by
    simp only [makeDir, acquired, exec_change]
    split <;> rfl
  have hholder : ∀ d, exec (spawnHolder env sandbox) { w with dirs := d } =
      (.ok (), { w with dirs := d, holders := (acquired env sandbox w).holders }) := by
    intro d
    simp only [spawnHolder, acquired, exec_change]
    split <;> rfl
  have hdemote : ∀ d h, exec (demoteOthers env sandbox) { w with dirs := d, holders := h } =
      (.ok (), ⟨w.net, d, h, (acquired env sandbox w).sandboxes⟩) := by
    intro d h
    simp only [demoteOthers, acquired, exec_change]
    split <;> rfl
  rw [finish, exec_bind_ok hdir, exec_bind_ok (hholder _), exec_bind_ok (hdemote _ _)]
  rfl

theorem exec_finish_ok {env : Env} (h : env.putErr = none) (sandbox : SandboxRecord) (w : World) :
    exec (finish env sandbox) w = (.ok env.id, { acquired env sandbox w with
      sandboxes := put (acquired env sandbox w).sandboxes ns env.id sandbox }) := by
  have hput : exec (putRecord env sandbox) (acquired env sandbox w) =
      (.ok (), { acquired env sandbox w with
        sandboxes := put (acquired env sandbox w).sandboxes ns env.id sandbox }) := by
    simp [putRecord, h]
  rw [exec_finish, exec_bind_ok hput]
  rfl

theorem exec_finish_error {env : Env} {e : String} (h : env.putErr = some e)
    (sandbox : SandboxRecord) (w : World) :
    exec (finish env sandbox) w = (.error ⟨.internal, e⟩, acquired env sandbox w) := by
  have hput : exec (putRecord env sandbox) (acquired env sandbox w) =
      (.error ⟨.internal, e⟩, acquired env sandbox w) := by
    simp [putRecord, h]
  rw [exec_finish, exec_bind_error hput]

/-- The demotion looks at the failures of its writes only. -/
theorem demote_congr {env env' : PodEnv} (h : env.demoteFails = env'.demoteFails)
    (rec : SandboxRecord) (existing : List SandboxRecord) (t : Table SandboxRecord) :
    demote env rec existing t = demote env' rec existing t := by
  induction existing generalizing t with
  | nil => rfl
  | cons other existing ih =>
    rw [demote, demote, h]
    split
    · exact ih _
    · exact ih t

theorem exec_network_host {env : Env} {config : PodSandboxConfig} (h : hostNetwork config = true)
    (mappings : List PortMapping) (w : World) :
    exec (network env config mappings) w = (.ok "host", w) := by
  simp [network, h]

theorem exec_network_ok {env : Env} {config : PodSandboxConfig} (h : hostNetwork config = false)
    {mappings : List PortMapping} {w : World} {ip : String} {n : Net}
    (ha : attach env mappings w.net = (.ok ip, n)) :
    exec (network env config mappings) w = (.ok (netnsPath env.id), { w with net := n }) := by
  simp [network, h, ha]

theorem exec_network_error {env : Env} {config : PodSandboxConfig} (h : hostNetwork config = false)
    {mappings : List PortMapping} {w : World} {e : Error} {n : Net}
    (ha : attach env mappings w.net = (.error e, n)) :
    exec (network env config mappings) w =
      (.error ⟨.unavailable, "CNI network setup failed for sandbox " ++ env.id ++ ": " ++ e.text⟩,
        { w with net := teardown env.cni env.id env.id n }) := by
  simp [network, h, ha]

/-- The table and the answer after the network, as the handler of `Sandboxes` has them. -/
theorem finish_eq (env : Env) (config : PodSandboxConfig) (path : String)
    (userns : Bool × List (UInt32 × UInt32 × UInt32) × List (UInt32 × UInt32 × UInt32))
    (mappings : List PortMapping) (n : Net) (w : World) (hhost : hostNetwork config = true ∨
      (env.podEnv mappings n).cniErr = none)
    (hpath : path = if hostNetwork config then "host" else netnsPath env.id)
    (huserns : usernsOf (config.namespaceOptions.bind (·.usernsOptions)) = .ok userns) :
    (exec (finish env (sandboxRecord env.pod config path userns)) w).1 =
        (Cri.runPodSandbox (env.podEnv mappings n) w.sandboxes (some config)).result ∧
      (exec (finish env (sandboxRecord env.pod config path userns)) w).2.sandboxes =
        (Cri.runPodSandbox (env.podEnv mappings n) w.sandboxes (some config)).sandboxes := by
  have hdemote : ∀ sandbox, demote (env.podEnv mappings n) sandbox (list w.sandboxes ns)
      w.sandboxes = demote env.pod sandbox (list w.sandboxes ns) w.sandboxes := by
    intro sandbox
    apply demote_congr
    rfl
  have hcoarse : Cri.runPodSandbox (env.podEnv mappings n) w.sandboxes (some config) =
      match env.putErr with
      | some e => ⟨.error ⟨.internal, e⟩,
          (acquired env (sandboxRecord env.pod config path userns) w).sandboxes, []⟩
      | none => ⟨.ok env.id, put (acquired env (sandboxRecord env.pod config path userns)
          w).sandboxes ns env.id (sandboxRecord env.pod config path userns), []⟩ := by
    simp only [Cri.runPodSandbox, huserns, hdemote]
    rw [hpath]
    unfold hostNetwork at hhost ⊢
    cases hnet : config.namespaceOptions.any (·.network == modeNode) with
    | true => rfl
    | false =>
      rw [hnet] at hhost
      rw [hhost.resolve_left (by decide)]
      rfl
  rw [hcoarse]
  cases hput : env.putErr with
  | some e => rw [exec_finish_error hput]; exact ⟨rfl, rfl⟩
  | none => rw [exec_finish_ok hput]; exact ⟨rfl, rfl⟩

/-- The answer and the table of sandboxes are those of the handler of `Sandboxes`. -/
theorem runPodSandbox_eq (env : Env) (req : Request) (w : World) :
    (exec (runPodSandbox env req) w).1 =
        (Cri.runPodSandbox (env.podEnv req.portMappings w.net) w.sandboxes req.config).result ∧
      (exec (runPodSandbox env req) w).2.sandboxes =
        (Cri.runPodSandbox (env.podEnv req.portMappings w.net) w.sandboxes
          req.config).sandboxes := by
  unfold runPodSandbox
  cases hconfig : req.config with
  | none => exact ⟨rfl, rfl⟩
  | some config =>
    rw [okOr, exec_bind_ok (exec_check _ _)]
    cases huserns : usernsOf (config.namespaceOptions.bind (·.usernsOptions)) with
    | error e =>
      have hcoarse : Cri.runPodSandbox (env.podEnv req.portMappings w.net) w.sandboxes
          (some config) = ⟨.error e, w.sandboxes, []⟩ := by
        simp only [Cri.runPodSandbox, huserns]
      rw [exec_bind_error (exec_check _ _), hcoarse]
      exact ⟨rfl, rfl⟩
    | ok userns =>
      rw [exec_bind_ok (exec_check _ _)]
      cases hhost : hostNetwork config with
      | true =>
        rw [exec_bind_ok (exec_network_host hhost _ _)]
        exact finish_eq env config _ userns _ _ w (.inl hhost) (by rw [hhost]; rfl) huserns
      | false =>
        rcases ha : attach env req.portMappings w.net with ⟨e | ip, n⟩
        · have hcni : (env.podEnv req.portMappings w.net).cniErr = some e.text := by
            simp [Env.podEnv, ha]
          have hnet : config.namespaceOptions.any (·.network == modeNode) = false := hhost
          have hcoarse : Cri.runPodSandbox (env.podEnv req.portMappings w.net) w.sandboxes
              (some config) = ⟨.error ⟨.unavailable,
                "CNI network setup failed for sandbox " ++ env.id ++ ": " ++ e.text⟩,
                w.sandboxes, [.teardown env.id]⟩ := by
            simp only [Cri.runPodSandbox, huserns, hcni, hnet]
            rfl
          rw [exec_bind_error (exec_network_error hhost ha), hcoarse]
          exact ⟨rfl, rfl⟩
        · rw [exec_bind_ok (exec_network_ok hhost ha)]
          have hcni : (env.podEnv req.portMappings w.net).cniErr = none := by
            simp [Env.podEnv, ha]
          exact finish_eq env config _ userns _ _ { w with net := n } (.inr hcni)
            (by rw [hhost]; rfl) huserns

/-! ## What is promised, and when -/

/-- The id is new, and every record is stored under its own id. -/
structure Fresh (id : String) (w : World) : Prop where
  anchor : w.net.anchors id = false
  calls : ∀ a ∈ w.net.calls, a.1.containerId ≠ id
  dir : w.dirs id = false
  holder : w.holders id = false
  record : get w.sandboxes ns id = none
  keyed : ∀ key rec, get w.sandboxes ns key = some rec → rec.id = key

/-- Nothing of the sandbox is left, and no earlier sandbox has been demoted. -/
structure RolledBack (id : String) (w w' : World) : Prop where
  anchor : w'.net.anchors id = false
  detached : Detached id w'.net.calls
  dir : w'.dirs id = false
  holder : w'.holders id = false
  record : get w'.sandboxes ns id = none
  ready : ∀ key rec, get w.sandboxes ns key = some rec → rec.state = .ready →
    ∃ rec', get w'.sandboxes ns key = some rec' ∧ rec'.state = .ready

/-- The teardown of a failed network finds what it has to undo: the anchor can be removed, and
    the conflist it reads has every plugin that has run, under the same network. -/
structure NetworkUndone (env : Env) (mappings : List PortMapping) (n : Net) : Prop where
  anchor : env.cni.mkdirErr = none → env.cni.anchorErr = none → env.cni.removeFails = false
  plugins : ∀ a ∈ (attach env mappings n).2.calls, a.1.containerId = env.id → Attached a →
    ∃ b ∈ teardownCalls env.cni env.id env.id, Undoes b a.1

/-- The other is an earlier sandbox of the pod. -/
structure Earlier (env : Env) (config : PodSandboxConfig) (other : SandboxRecord) : Prop where
  id : other.id ≠ env.id
  state : other.state = .ready
  name : other.name = (config.metadata.getD {}).name
  k8sNamespace : other.k8sNamespace = (config.metadata.getD {}).podNamespace
  uid : other.uid = (config.metadata.getD {}).uid

/-- A namespace of the pod is shared by its containers. -/
def sharesNamespace (config : PodSandboxConfig) : Bool :=
  config.namespaceOptions.any fun o => o.pid == modePod || o.ipc == modePod

/-- The steps after the network acquire nothing: no directory, no holder, no demotion. -/
structure NothingAcquired (env : Env) (config : PodSandboxConfig) (w : World) : Prop where
  dir : env.dirFails = true
  holder : sharesNamespace config = true → env.spawn = .failed
  demoted : env.listFails = true ∨ ∀ other ∈ list w.sandboxes ns, Earlier env config other →
    env.demoteFails other.id = true

/-! ## The network -/

section network

variable {env : Env} {mappings : List PortMapping} {n : Net}

/-- `create_netns` leaves an anchor once it has been made. -/
theorem createNetns_made (hanchor : n.anchors env.id = false) :
    (createNetns env.cni env.id n).2.anchors env.id = true ↔
      env.cni.mkdirErr = none ∧ env.cni.anchorErr = none := by
  unfold createNetns
  cases env.cni.mkdirErr with
  | some e => simp [hanchor]
  | none =>
    cases env.cni.anchorErr with
    | some e => simp [hanchor]
    | none => cases env.cni.unshareErr <;> simp [hanchor]

/-- However far the network went, its calls for the sandbox are ADD calls, and the anchor is
    there once it has been made. -/
theorem attach_spec (hanchor : n.anchors env.id = false)
    (hcalls : ∀ a ∈ n.calls, a.1.containerId ≠ env.id) (mappings : List PortMapping) :
    ((attach env mappings n).2.anchors env.id = true ↔
        env.cni.mkdirErr = none ∧ env.cni.anchorErr = none) ∧
      ∀ a ∈ (attach env mappings n).2.calls, a.1.containerId = env.id →
        ∃ c, env.cni.conflist = .ok c ∧ AddCall env.id env.id c a.1 := by
  have hsame := createNetns_calls env.cni env.id n
  have hmade := createNetns_made hanchor
  rw [← hsame] at hcalls
  rcases hcreate : createNetns env.cni env.id n with ⟨e | _, n'⟩
  · rw [hcreate] at hmade hcalls
    rw [attach, hcreate]
    exact ⟨hmade, fun a ha hid => absurd hid (hcalls a ha)⟩
  · rw [hcreate] at hmade hcalls
    rw [attach, hcreate]
    dsimp only
    cases hc : env.cni.conflist with
    | error e =>
      rw [setup_of_error hc]
      exact ⟨hmade, fun a ha hid => absurd hid (hcalls a ha)⟩
    | ok c =>
      obtain ⟨adds, hadds⟩ := adds_setup hc env.id env.id (mappings.map PortMapping.cni) n'
      rw [hadds.anchors, hadds.calls]
      refine ⟨hmade, ?_⟩
      intro a ha hid
      rcases List.mem_append.1 ha with ha | ha
      · exact absurd hid (hcalls a ha)
      · exact ⟨c, rfl, hadds.add a ha⟩

/-- A network that is there has its anchor. -/
theorem attach_ok_anchor (hanchor : n.anchors env.id = false)
    (hcalls : ∀ a ∈ n.calls, a.1.containerId ≠ env.id) {ip : String}
    (h : (attach env mappings n).1 = .ok ip) : (attach env mappings n).2.anchors env.id = true := by
  rw [(attach_spec hanchor hcalls mappings).1]
  unfold attach createNetns at h
  rw [hanchor] at h
  cases hmkdir : env.cni.mkdirErr with
  | some e =>
    rw [hmkdir] at h
    cases h
  | none =>
    cases hfile : env.cni.anchorErr with
    | some e =>
      rw [hmkdir, hfile] at h
      cases h
    | none => exact ⟨rfl, rfl⟩

/-- When the teardown of a failed network leaves nothing. -/
theorem teardown_rolledBack_iff {w : World} (hfresh : Fresh env.id w)
    (mappings : List PortMapping) :
    RolledBack env.id w { w with
        net := teardown env.cni env.id env.id (attach env mappings w.net).2 } ↔
      NetworkUndone env mappings w.net := by
  obtain ⟨hmade, hadds⟩ := attach_spec hfresh.anchor hfresh.calls mappings
  obtain ⟨dels, hcalls, hdels⟩ :=
    teardown_calls env.cni env.id env.id (attach env mappings w.net).2
  -- the calls for the sandbox, and then the calls of the teardown
  have hdetached : Detached env.id
      (teardown env.cni env.id env.id (attach env mappings w.net).2).calls ↔
        ∀ a ∈ (attach env mappings w.net).2.calls, a.1.containerId = env.id → Attached a →
          ∃ b ∈ teardownCalls env.cni env.id env.id, Undoes b a.1 := by
    rw [hcalls, detached_append_iff, ← hdels]
    · simp
    · intro a ha hid
      obtain ⟨c, -, hcall⟩ := hadds a ha hid
      exact hcall.command
    · intro b hb
      exact teardownCalls_command (hdels ▸ List.mem_map_of_mem hb)
  have hanchor : (teardown env.cni env.id env.id (attach env mappings w.net).2).anchors env.id =
      false ↔ (env.cni.mkdirErr = none → env.cni.anchorErr = none →
        env.cni.removeFails = false) := by
    rw [teardown_anchors, Bool.and_eq_false_imp, hmade, and_imp]
  constructor
  · intro h
    exact ⟨hanchor.1 h.anchor, hdetached.1 h.detached⟩
  · intro h
    exact ⟨hanchor.2 h.anchor, hdetached.2 h.plugins, hfresh.dir, hfresh.holder, hfresh.record,
      fun key rec hget hready => ⟨rec, hget, hready⟩⟩

/-- The conflist has not changed, and the anchor can be removed. -/
theorem networkUndone_of_unchanged (hanchor : n.anchors env.id = false)
    (hcalls : ∀ a ∈ n.calls, a.1.containerId ≠ env.id)
    (hsame : env.cni.conflistAgain = env.cni.conflist) (hremove : env.cni.removeFails = false) :
    NetworkUndone env mappings n := by
  refine ⟨fun _ _ => hremove, ?_⟩
  intro a ha hid _
  obtain ⟨c, hc, hcall⟩ := (attach_spec hanchor hcalls mappings).2 a ha hid
  exact teardownCalls_of_unchanged (hsame.trans hc) hcall

end network

/-! ## The steps after the network -/

section finish

variable {env : Env} {config : PodSandboxConfig} {path : String}
  {userns : Bool × List (UInt32 × UInt32 × UInt32) × List (UInt32 × UInt32 × UInt32)}

theorem superseded_iff {other : SandboxRecord} :
    superseded (sandboxRecord env.pod config path userns) other = true ↔
      Earlier env config other := by
  simp only [superseded, Bool.and_eq_true, bne_iff_ne, beq_iff_eq]
  constructor
  · rintro ⟨⟨⟨⟨hid, hstate⟩, hname⟩, hns⟩, huid⟩
    exact ⟨hid, hstate, hname, hns, huid⟩
  · rintro ⟨hid, hstate, hname, hns, huid⟩
    exact ⟨⟨⟨⟨hid, hstate⟩, hname⟩, hns⟩, huid⟩

theorem shared_iff :
    ((sandboxRecord env.pod config path userns).sharedPid ||
      (sandboxRecord env.pod config path userns).sharedIpc) = sharesNamespace config := by
  have hmode : ∀ m : Int, (!(m == modeNode) && m == modePod) = (m == modePod) := by
    intro m
    by_cases hm : m = modePod
    · rw [hm]
      rfl
    · simp [hm]
  cases h : config.namespaceOptions with
  | none => simp [sandboxRecord, sharesNamespace, h]
  | some o => simp only [sandboxRecord, sharesNamespace, h, Option.any_some, hmode]

/-- A failure of the last step leaves what the others have done. -/
theorem finish_rollsBack_iff {R : World → Prop} {sandbox : SandboxRecord} {w : World} :
    RollsBack R (finish env sandbox) w ↔ env.putErr = none ∨ R (acquired env sandbox w) := by
  unfold RollsBack
  cases hput : env.putErr with
  | none =>
    rw [exec_finish_ok hput]
    simp
  | some e =>
    rw [exec_finish_error hput]
    simp

/-- The earlier sandboxes stay ready exactly when none is demoted. -/
theorem ready_iff {w : World} (hfresh : Fresh env.id w) (sandbox : SandboxRecord) :
    (∀ key rec, get w.sandboxes ns key = some rec → rec.state = .ready →
      ∃ rec', get (acquired env sandbox w).sandboxes ns key = some rec' ∧ rec'.state = .ready) ↔
      env.listFails = true ∨ ∀ other ∈ list w.sandboxes ns, superseded sandbox other = true →
        env.demoteFails other.id = true := by
  cases hlist : env.listFails with
  | true =>
    simp only [acquired, hlist, true_or, iff_true]
    exact fun key rec hget hready => ⟨rec, hget, hready⟩
  | false =>
    have hsandboxes : (acquired env sandbox w).sandboxes =
        demote env.pod sandbox (list w.sandboxes ns) w.sandboxes := by
      simp [acquired, hlist]
    rw [hsandboxes]
    constructor
    · intro h
      refine .inr ?_
      intro other hmem hsuper
      by_contra hput
      have hput : env.pod.demoteFails other.id = false := Bool.not_eq_true _ ▸ hput
      obtain ⟨key, hget⟩ := mem_list.1 hmem
      obtain rfl := hfresh.keyed key other hget
      have hready : other.state = .ready := by
        simp only [superseded, Bool.and_eq_true, beq_iff_eq] at hsuper
        exact hsuper.1.1.1.2
      obtain ⟨rec', hrec', hstill⟩ := h other.id other hget hready
      obtain ⟨rec, hrec, hnot⟩ := demote_demotes hsuper hput hmem w.sandboxes
      rw [hrec'] at hrec
      cases hrec
      rw [hstill] at hnot
      cases hnot
    · rintro (h | h)
      · cases h
      · rw [demote_eq_self w.sandboxes h]
        exact fun key rec hget hready => ⟨rec, hget, hready⟩

/-- When the steps before the last one have done nothing. -/
theorem acquired_rolledBack_iff {w : World} (hfresh : Fresh env.id w) :
    RolledBack env.id w (acquired env (sandboxRecord env.pod config path userns) w) ↔
      NothingAcquired env config w := by
  have hready := ready_iff hfresh (sandboxRecord env.pod config path userns)
  simp only [superseded_iff] at hready
  have hdir : (acquired env (sandboxRecord env.pod config path userns) w).dirs env.id = false ↔
      env.dirFails = true := by
    cases h : env.dirFails <;> simp [acquired, h, hfresh.dir]
  have hholder : (acquired env (sandboxRecord env.pod config path userns) w).holders env.id =
      false ↔ (sharesNamespace config = true → env.spawn = .failed) := by
    simp only [acquired, shared_iff]
    cases sharesNamespace config with
    | false => simp [hfresh.holder]
    | true =>
      by_cases h : env.spawn = .failed
      · simp [h, hfresh.holder]
      · simp [h]
  have hrecord : get (acquired env (sandboxRecord env.pod config path userns) w).sandboxes ns
      env.id = none := by
    simp only [acquired]
    split
    · exact hfresh.record
    · exact (demote_get_self env.pod _ _ _).trans hfresh.record
  constructor
  · intro h
    exact ⟨hdir.1 h.dir, hholder.1 h.holder, hready.1 h.ready⟩
  · intro h
    exact ⟨hfresh.anchor, detached_of_forall_ne hfresh.calls, hdir.2 h.dir, hholder.2 h.holder,
      hrecord, hready.2 h.demoted⟩

end finish

/-! ## The whole call -/

/-- The request gets past the checks. -/
structure Accepted (req : Request) (config : PodSandboxConfig)
    (userns : Bool × List (UInt32 × UInt32 × UInt32) × List (UInt32 × UInt32 × UInt32)) :
    Prop where
  given : req.config = some config
  userns : usernsOf (config.namespaceOptions.bind (·.usernsOptions)) = .ok userns

/-- A failure leaves nothing behind: on the host network the record is stored or nothing has been
    acquired; otherwise the network fails and is undone, or the record is stored. -/
structure Unwinds (env : Env) (config : PodSandboxConfig) (mappings : List PortMapping)
    (w : World) : Prop where
  host : hostNetwork config = true → env.putErr = none ∨ NothingAcquired env config w
  failed : hostNetwork config = false → ∀ e, (attach env mappings w.net).1 = .error e →
    NetworkUndone env mappings w.net
  attached : hostNetwork config = false → ∀ ip, (attach env mappings w.net).1 = .ok ip →
    env.putErr = none

/-- From the network on. -/
theorem network_rollsBack_iff {env : Env} {w : World} (hfresh : Fresh env.id w)
    {config : PodSandboxConfig} {mappings : List PortMapping}
    {userns : Bool × List (UInt32 × UInt32 × UInt32) × List (UInt32 × UInt32 × UInt32)} :
    RollsBack (RolledBack env.id w) (network env config mappings >>= fun path =>
        finish env (sandboxRecord env.pod config path userns)) w ↔
      Unwinds env config mappings w := by
  rw [rollsBack_bind]
  cases hhost : hostNetwork config with
  | true =>
    have hnot : ∀ {P : Prop}, hostNetwork config = false → P := by
      intro P h
      rw [hhost] at h
      cases h
    have hrest : RollsBack (RolledBack env.id w)
        (finish env (sandboxRecord env.pod config "host" userns)) w ↔
          env.putErr = none ∨ NothingAcquired env config w :=
      finish_rollsBack_iff.trans (or_congr_right (acquired_rolledBack_iff hfresh))
    rw [RollsBack, exec_network_host hhost]
    constructor
    · rintro ⟨-, h⟩
      exact ⟨fun _ => hrest.1 (h "host" rfl), hnot, hnot⟩
    · intro h
      refine ⟨nofun, ?_⟩
      rintro _ ⟨⟩
      exact hrest.2 (h.host hhost)
  | false =>
    have hnot : ∀ {P : Prop}, hostNetwork config = true → P := by
      intro P h
      rw [hhost] at h
      cases h
    rcases ha : attach env mappings w.net with ⟨e | ip, n⟩
    · have hundone := teardown_rolledBack_iff hfresh mappings
      rw [ha] at hundone
      rw [RollsBack, exec_network_error hhost ha]
      constructor
      · rintro ⟨h, -⟩
        refine ⟨hnot, fun _ _ _ => hundone.1 (h _ rfl), ?_⟩
        rintro _ ip hip
        rw [ha] at hip
        cases hip
      · intro h
        exact ⟨fun _ _ => hundone.2 (h.failed hhost e (by rw [ha])), nofun⟩
    · -- the anchor is there, and nothing removes it
      have hheld : ∀ sandbox, ¬ RolledBack env.id w (acquired env sandbox { w with net := n }) := by
        intro sandbox h
        have hanchor := attach_ok_anchor hfresh.anchor hfresh.calls (congrArg Prod.fst ha)
        rw [ha] at hanchor
        exact absurd (hanchor.symm.trans h.anchor) (by decide)
      rw [RollsBack, exec_network_ok hhost ha]
      constructor
      · rintro ⟨-, h⟩
        refine ⟨hnot, ?_, fun _ _ _ => ?_⟩
        · rintro _ e he
          rw [ha] at he
          cases he
        · exact (finish_rollsBack_iff.1 (h _ rfl)).resolve_right (hheld _)
      · intro h
        refine ⟨nofun, fun _ _ => ?_⟩
        exact finish_rollsBack_iff.2 (.inl (h.attached hhost ip (by rw [ha])))

/-- **RunPodSandbox on error.**  For a new id, a failed call leaves no anchor, no attachment without
    a DEL call, no holder, no directory and no record of it and demotes no sandbox exactly when it
    fails in its checks or unwinds. -/
theorem run_rollsBack_iff (env : Env) (req : Request) (w : World) (hfresh : Fresh env.id w) :
    RollsBack (RolledBack env.id w) (runPodSandbox env req) w ↔
      ∀ config userns, Accepted req config userns → Unwinds env config req.portMappings w := by
  have hsame : RolledBack env.id w w :=
    ⟨hfresh.anchor, detached_of_forall_ne hfresh.calls, hfresh.dir, hfresh.holder, hfresh.record,
      fun key rec hget hready => ⟨rec, hget, hready⟩⟩
  constructor
  · intro h config userns hacc
    have h := (rollsBack_check hsame).1 h config (by rw [hacc.given]; rfl)
    have h := (rollsBack_check hsame).1 h userns hacc.userns
    exact (network_rollsBack_iff hfresh).1 h
  · intro h
    refine (rollsBack_check hsame).2 fun config hgiven => ?_
    refine (rollsBack_check hsame).2 fun userns huserns => ?_
    exact (network_rollsBack_iff hfresh).2 (h config userns ⟨okOr_eq_ok.1 hgiven, huserns⟩)

/-! ## Concrete calls -/

/-- A conflist with one plugin. -/
def bridgeList : ConfList := ⟨"1.0.0", "cbr0", [.obj [("type", .str "bridge")]]⟩

/-- The loopback plugin succeeds; the other has `answer`. -/
def cniEnv (answer : Except Error Runtime.Crun.Json) : Sandbox.Env where
  conflist := .ok bridgeList
  conflistAgain := .ok bridgeList
  exec _ call := if call.plugin = "loopback" then .ran (.ok .null) else .ran answer
  mkdirErr := none
  anchorErr := none
  unshareErr := none
  removeFails := false

/-- Nothing on the node yet. -/
def emptyWorld : World := ⟨⟨fun _ => false, []⟩, fun _ => false, fun _ => false, .empty⟩

theorem fresh_emptyWorld (id : String) : Fresh id emptyWorld where
  anchor := rfl
  calls := by simp [emptyWorld]
  dir := rfl
  holder := rfl
  record := rfl
  keyed key rec h := by
    cases h

/-- A call in which every step after the network succeeds. -/
def quietEnv (cni : Sandbox.Env) : Env where
  id := "s1"
  cni := cni
  dirFails := false
  spawn := .failed
  listFails := false
  demoteFails _ := false
  putErr := none

/-- The plugin fails: so does the call, and the teardown leaves nothing. -/
theorem failed_plugin_rolls_back :
    (exec (runPodSandbox (quietEnv (cniEnv (.error (.plugin "bridge" "exit=1"))))
      ⟨some podConfig, []⟩) emptyWorld).1 = .error ⟨.unavailable,
        "CNI network setup failed for sandbox s1: CNI plugin bridge failed: exit=1"⟩ ∧
      RollsBack (RolledBack "s1" emptyWorld)
        (runPodSandbox (quietEnv (cniEnv (.error (.plugin "bridge" "exit=1"))))
          ⟨some podConfig, []⟩) emptyWorld := by
  refine ⟨rfl, (run_rollsBack_iff _ _ _ (fresh_emptyWorld _)).2 ?_⟩
  rintro config userns ⟨⟨⟩, -⟩
  refine ⟨nofun, ?_, fun _ ip h => by cases h⟩
  intro _ e _
  exact networkUndone_of_unchanged rfl (by simp [emptyWorld]) rfl rfl

/-- The address the plugin answers with. -/
def bridgeResult : Runtime.Crun.Json :=
  .obj [("ips", .arr [.obj [("address", .str "10.244.0.5/24")]])]

/-- The record cannot be stored, and the network stays. -/
theorem failed_put_leaves_network :
    ¬ ∀ (env : Env) (req : Request) (w : World), Fresh env.id w →
      RollsBack (RolledBack env.id w) (runPodSandbox env req) w := by
  intro h
  have hback := h { quietEnv (cniEnv (.ok bridgeResult)) with putErr := some "no space left" }
    ⟨some podConfig, []⟩ emptyWorld (fresh_emptyWorld _) ⟨.internal, "no space left"⟩ rfl
  cases hback.anchor

end ContainerdRs.Cri.RunPod
