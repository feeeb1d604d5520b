import ContainerdRs.Cri.Holders
import ContainerdRs.Cri.RunPodSandbox

/-!
# What a sandbox owns on the node

`run_pod_sandbox` makes a directory, a pidfile, a holder process and the anchor of a network
namespace, all under the id of the sandbox.  `stop_pod_sandbox` kills the holder, and
`remove_pod_sandbox` tears the network down, kills the holder and deletes the record.  The requests
come one after another, each to its end.

* `spawnHolder` — `spawn_holder` with its helper process and the pidfile.
* `runPodSandbox_refines` — the answer and the table are those of `RunPodSandbox`.
* `Owned` — there is no object without a record; `owned_step_iff` — when a request keeps this.
* `objects_freed_iff` — when a whole history does.
* `removed_sandbox_leaves_directory` — a sandbox that comes and goes.
-/

set_option autoImplicit false

namespace ContainerdRs.Cri.Objects

open Metadata Fallible Sandbox Transition
open RunPod (Spawn)
open Pod (Proc)

/-! ## The node -/

structure Node where
  net : Net
  /-- The directories `<state>/<namespace>/<id>`, and the files `<state>/pidns-<id>.pid`. -/
  dirs : String → Bool
  pidfiles : String → Bool
  procs : Int → Option Proc
  sandboxes : Table SandboxRecord

/-- The node without its processes. -/
def Node.world (n : Node) : RunPod.World := ⟨n.net, n.dirs, fun _ => false, n.sandboxes⟩

/-- A step on the node without its processes. -/
def onWorld {α : Type} (x : Fallible Status RunPod.World α) : Fallible Status Node α :=
  act fun n =>
    let r := exec x n.world
    (r.1, { n with net := r.2.net, dirs := r.2.dirs, sandboxes := r.2.sandboxes })

/-! ## `spawn_holder` -/

/-- The helper `__pid-holder`: it has not been started or has failed before it forks; or it has
    forked a holder, has created the pidfile or not, and has written the pid into it or not. -/
inductive Helper where
  | failed
  | forked (pid : Int) (created written : Bool)
  deriving DecidableEq, Repr

/-- What the outside answers during `spawn_holder`. -/
structure HolderEnv where
  /-- The old pidfile cannot be removed. -/
  removeFails : Bool
  helper : Helper
  /-- The pidfile cannot be read back. -/
  readFails : Bool

/-- The result of `spawn_holder`. -/
def HolderEnv.spawn (h : HolderEnv) : Spawn :=
  match h.helper with
  | .failed => .failed
  | .forked pid created written =>
    -- the helper exits with a failure when it cannot write
    if created && written && !h.readFails then .holder pid else .lost

/-- The pidfile after `spawn_holder`. -/
def HolderEnv.pidfile (h : HolderEnv) (old : Bool) : Bool :=
  match h.helper with
  | .failed => old && h.removeFails
  | .forked _ created _ => (old && h.removeFails) || created

/-- The processes after it. -/
def HolderEnv.procs (h : HolderEnv) (id : String) (procs : Int → Option Proc) :
    Int → Option Proc :=
  match h.helper with
  | .failed => procs
  | .forked pid _ _ => Function.update procs pid (some (.holder id))

/-- The kernel gives out a pid that is free. -/
def HolderEnv.free (h : HolderEnv) (procs : Int → Option Proc) : Prop :=
  match h.helper with
  | .failed => True
  | .forked pid _ _ => 0 < pid ∧ procs pid = none

instance (h : HolderEnv) (procs : Int → Option Proc) : Decidable (h.free procs) := by
  unfold HolderEnv.free
  split <;> infer_instance

/-- `spawn_holder`, when a namespace is shared; a failure is logged. -/
def spawnHolder (env : RunPod.Env) (h : HolderEnv) (sandbox : SandboxRecord) :
    Fallible Status Node Unit :=
  change fun n =>
    if sandbox.sharedPid || sandbox.sharedIpc then
      { n with
        pidfiles := Function.update n.pidfiles env.id (h.pidfile (n.pidfiles env.id))
        procs := h.procs env.id n.procs }
    else n

/-! ## Requests -/

/-- The steps of `run_pod_sandbox` after the network. -/
def finish (env : RunPod.Env) (h : HolderEnv) (sandbox : SandboxRecord) :
    Fallible Status Node String := do
  onWorld (RunPod.makeDir env)
  spawnHolder env h sandbox
  onWorld (RunPod.demoteOthers env sandbox)
  onWorld (RunPod.putRecord env sandbox)
  return env.id

/-- The environment with the result of `spawn_holder`. -/
def withHolder (env : RunPod.Env) (h : HolderEnv) : RunPod.Env := { env with spawn := h.spawn }

/-- `run_pod_sandbox`. -/
def runPodSandbox (env : RunPod.Env) (h : HolderEnv) (req : RunPod.Request) :
    Fallible Status Node String := do
  let config ← check (okOr req.config ⟨.invalidArgument, "pod sandbox config required"⟩)
  let userns ← check (usernsOf (config.namespaceOptions.bind (·.usernsOptions)))
  let path ← onWorld (RunPod.network (withHolder env h) config req.portMappings)
  finish (withHolder env h) h (sandboxRecord (withHolder env h).pod config path userns)

/-- What the outside answers during a stop or a removal. -/
structure CallEnv where
  pod : PodEnv
  cni : Sandbox.Env

/-- An action of a handler. -/
def perform (cni : Sandbox.Env) (n : Node) : PodAction → Node
  | .teardown id => { n with net := teardown cni id id n.net }
  | .killHolder pid => { n with procs := Pod.kill n.procs (some pid) }

/-- The node after a handler: its actions, and then its write. -/
def Node.after (n : Node) (cni : Sandbox.Env) (reply : PodReply Unit) : Node :=
  { reply.actions.foldl (perform cni) n with sandboxes := reply.sandboxes }

inductive Label where
  | runPodSandbox (req : RunPod.Request) (env : RunPod.Env) (holder : HolderEnv)
  | stopPodSandbox (id : String) (env : CallEnv)
  | removePodSandbox (id : String) (env : CallEnv)
  /-- A process ends of itself; the kernel gives a free pid to a process. -/
  | ends (pid : Int)
  | starts (pid : Int)

/-- A handler that has returned `Ok`. -/
def Node.answered (n : Node) (cni : Sandbox.Env) (reply : PodReply Unit) : Option Node :=
  match reply.result with
  | .ok () => some (n.after cni reply)
  | .error _ => none

/-- One request that succeeds, from its begin to its end. -/
def step (n : Node) : Label → Option Node
  | .runPodSandbox req env h =>
    if h.free n.procs then
      match exec (runPodSandbox env h req) n with
      | (.ok _, n') => some n'
      | (.error _, _) => none
    else none
  | .stopPodSandbox id env => n.answered env.cni (Cri.stopPodSandbox env.pod n.sandboxes id)
  | .removePodSandbox id env => n.answered env.cni (Cri.removePodSandbox env.pod n.sandboxes id)
  | .ends p => some { n with procs := Function.update n.procs p none }
  | .starts p =>
    if n.procs p = none then some { n with procs := Function.update n.procs p (some .other) }
    else none

/-! ## The handler below -/

/-- The world without its holders. -/
def withoutHolders (w : RunPod.World) : RunPod.World := { w with holders := fun _ => false }

/-- The step looks at no holder and leaves them alone. -/
def Blind {α : Type} (x : Fallible Status RunPod.World α) : Prop :=
  ∀ w : RunPod.World, exec x (withoutHolders w) = ((exec x w).1, withoutHolders (exec x w).2)

/-- On the node `x` does what `y` does, but for the holders. -/
def Simulates {α : Type} (x : Fallible Status Node α) (y : Fallible Status RunPod.World α) : Prop :=
  ∀ (n : Node) (w : RunPod.World), n.world = withoutHolders w →
    (exec x n).1 = (exec y w).1 ∧ (exec x n).2.world = withoutHolders (exec y w).2

section simulates

variable {α β : Type} {x : Fallible Status Node α} {y : Fallible Status RunPod.World α}
  {f : α → Fallible Status Node β} {g : α → Fallible Status RunPod.World β}

theorem Simulates.pure (a : α) : Simulates (pure a) (pure a) := fun _ _ h => ⟨rfl, h⟩

theorem Simulates.check (r : Except Status α) : Simulates (check r) (check r) :=
  fun _ _ h => ⟨rfl, h⟩

theorem Simulates.bind (hx : Simulates x y) (hf : ∀ a, Simulates (f a) (g a)) :
    Simulates (x >>= f) (y >>= g) := by
  intro n w h
  obtain ⟨hres, hworld⟩ := hx n w h
  rcases hn : exec x n with ⟨e | a, n'⟩ <;> rcases hw : exec y w with ⟨e' | a', w'⟩ <;>
    rw [hn, hw] at hres hworld <;> cases hres
  · rw [exec_bind_error hn, exec_bind_error hw]
    exact ⟨rfl, hworld⟩
  · rw [exec_bind_ok hn, exec_bind_ok hw]
    exact hf a n' w' hworld

theorem Simulates.onWorld (hy : Blind y) : Simulates (onWorld y) y := by
  intro n w h
  show (exec y n.world).1 = _ ∧ withoutHolders (exec y n.world).2 = _
  rw [h, hy w]
  exact ⟨rfl, rfl⟩

end simulates

theorem blind_network (env : RunPod.Env) (config : PodSandboxConfig)
    (mappings : List RunPod.PortMapping) : Blind (RunPod.network env config mappings) := by
  intro w
  cases hhost : RunPod.hostNetwork config with
  | true => rw [RunPod.exec_network_host hhost, RunPod.exec_network_host hhost]
  | false =>
    rcases ha : RunPod.attach env mappings w.net with ⟨e | ip, n⟩
    · have ha' : RunPod.attach env mappings (withoutHolders w).net = (.error e, n) := ha
      rw [RunPod.exec_network_error hhost ha, RunPod.exec_network_error hhost ha']
      rfl
    · have ha' : RunPod.attach env mappings (withoutHolders w).net = (.ok ip, n) := ha
      rw [RunPod.exec_network_ok hhost ha, RunPod.exec_network_ok hhost ha']
      rfl

theorem blind_makeDir (env : RunPod.Env) : Blind (RunPod.makeDir env) := by
  intro w
  simp only [RunPod.makeDir, exec_change]
  split <;> rfl

theorem blind_demoteOthers (env : RunPod.Env) (sandbox : SandboxRecord) :
    Blind (RunPod.demoteOthers env sandbox) := by
  intro w
  simp only [RunPod.demoteOthers, exec_change]
  split <;> rfl

theorem blind_putRecord (env : RunPod.Env) (sandbox : SandboxRecord) :
    Blind (RunPod.putRecord env sandbox) := by
  intro w
  simp only [RunPod.putRecord, exec_act]
  cases env.putErr <;> rfl

theorem simulates_spawnHolder (env : RunPod.Env) (h : HolderEnv) (sandbox : SandboxRecord) :
    Simulates (spawnHolder env h sandbox) (RunPod.spawnHolder env sandbox) := by
  intro n w hw
  unfold spawnHolder RunPod.spawnHolder
  rw [exec_change, exec_change]
  refine ⟨rfl, ?_⟩
  split <;> split <;> exact hw

/-- **The handler is that of `RunPodSandbox`**, with what `spawn_holder` has returned. -/
theorem runPodSandbox_refines (env : RunPod.Env) (h : HolderEnv) (req : RunPod.Request) :
    Simulates (runPodSandbox env h req)
      (RunPod.runPodSandbox (withHolder env h) req) := by
  refine (Simulates.check _).bind fun config => ?_
  refine (Simulates.check _).bind fun userns => ?_
  refine (Simulates.onWorld (blind_network _ config _)).bind fun path => ?_
  refine (Simulates.onWorld (blind_makeDir _)).bind fun _ => ?_
  refine (simulates_spawnHolder _ h _).bind fun _ => ?_
  refine (Simulates.onWorld (blind_demoteOthers _ _)).bind fun _ => ?_
  refine (Simulates.onWorld (blind_putRecord _ _)).bind fun _ => ?_
  exact .pure _

/-- The table after the handler, and its answer, as the handler of `Sandboxes` has them. -/
theorem runPodSandbox_table (env : RunPod.Env) (h : HolderEnv) (req : RunPod.Request) (n : Node) :
    ∃ env' : PodEnv, env'.id = env.id ∧
      (exec (runPodSandbox env h req) n).1 =
        (Cri.runPodSandbox env' n.sandboxes req.config).result ∧
      (exec (runPodSandbox env h req) n).2.sandboxes =
        (Cri.runPodSandbox env' n.sandboxes req.config).sandboxes := by
  obtain ⟨hres, hworld⟩ := runPodSandbox_refines env h req n n.world rfl
  obtain ⟨hres', htable⟩ := RunPod.runPodSandbox_eq (withHolder env h) req n.world
  refine ⟨_, rfl, hres.trans hres', ?_⟩
  exact (congrArg RunPod.World.sandboxes hworld).trans htable

/-! ## Objects and their records -/

/-- The node has an object of the sandbox. -/
inductive Has (n : Node) (id : String) : Prop
  | dir (h : n.dirs id = true)
  | pidfile (h : n.pidfiles id = true)
  | holder {p : Int} (h : n.procs p = some (.holder id))
  | anchor (h : n.net.anchors id = true)

/-- No object without the record of its sandbox. -/
def Owned (n : Node) : Prop := ∀ id, Has n id → Stored n.sandboxes id

/-- What there is of other sandboxes than `id` was there before. -/
def Within (id : String) (n₀ n : Node) : Prop := ∀ other, other ≠ id → Has n other → Has n₀ other

section within

variable (env : RunPod.Env) {n₀ : Node}

/-- The holders of other sandboxes were there before. -/
theorem HolderEnv.procs_other (h : HolderEnv) {id other : String} (hne : other ≠ id)
    {procs : Int → Option Proc} {p : Int} (hp : h.procs id procs p = some (.holder other)) :
    procs p = some (.holder other) := by
  unfold HolderEnv.procs at hp
  cases hhelper : h.helper with
  | failed =>
    rw [hhelper] at hp
    exact hp
  | forked pid created written =>
    rw [hhelper] at hp
    dsimp only at hp
    by_cases hpid : p = pid
    · rw [hpid, Function.update_self] at hp
      cases hp
      exact absurd rfl hne
    · rwa [Function.update_of_ne hpid] at hp

/-- A step that touches the network, the directories and the table. -/
theorem keeps_onWorld {α : Type} {x : Fallible Status RunPod.World α}
    (hdir : ∀ w other, other ≠ env.id → (exec x w).2.dirs other = w.dirs other)
    (hanchor : ∀ w other, other ≠ env.id → (exec x w).2.net.anchors other = w.net.anchors other) :
    Keeps (Within env.id n₀) (onWorld x) := by
  intro n h other hne hhas
  apply h other hne
  cases hhas with
  | dir hd => exact .dir ((hdir n.world other hne).symm.trans hd)
  | pidfile hp => exact .pidfile hp
  | holder hp => exact .holder hp
  | anchor ha => exact .anchor ((hanchor n.world other hne).symm.trans ha)

theorem attach_anchors_ne {other : String} (h : other ≠ env.id)
    (mappings : List RunPod.PortMapping) (n : Net) :
    (RunPod.attach env mappings n).2.anchors other = n.anchors other := by
  have hcreate := createNetns_anchors_ne env.cni h n
  unfold RunPod.attach
  rcases hc : createNetns env.cni env.id n with ⟨e | _, n'⟩
  · rw [hc] at hcreate
    exact hcreate
  · rw [hc] at hcreate
    dsimp only
    rw [setup_anchors]
    exact hcreate

theorem keeps_network (config : PodSandboxConfig) (mappings : List RunPod.PortMapping) :
    Keeps (Within env.id n₀) (onWorld (RunPod.network env config mappings)) := by
  apply keeps_onWorld env
  · intro w other _
    cases hhost : RunPod.hostNetwork config with
    | true => rw [RunPod.exec_network_host hhost]
    | false =>
      rcases ha : RunPod.attach env mappings w.net with ⟨e | ip, n⟩
      · rw [RunPod.exec_network_error hhost ha]
      · rw [RunPod.exec_network_ok hhost ha]
  · intro w other hne
    cases hhost : RunPod.hostNetwork config with
    | true => rw [RunPod.exec_network_host hhost]
    | false =>
      have hattach := attach_anchors_ne env hne mappings w.net
      rcases ha : RunPod.attach env mappings w.net with ⟨e | ip, n⟩ <;> rw [ha] at hattach
      · rw [RunPod.exec_network_error hhost ha]
        exact (teardown_anchors_ne hne n).trans hattach
      · rw [RunPod.exec_network_ok hhost ha]
        exact hattach

theorem keeps_makeDir : Keeps (Within env.id n₀) (onWorld (RunPod.makeDir env)) := by
  apply keeps_onWorld env
  · intro w other hne
    simp only [RunPod.makeDir, exec_change]
    split
    · rfl
    · exact Function.update_of_ne hne _ _
  · intro w other _
    simp only [RunPod.makeDir, exec_change]
    split <;> rfl

theorem keeps_spawnHolder (h : HolderEnv) (sandbox : SandboxRecord) :
    Keeps (Within env.id n₀) (spawnHolder env h sandbox) := by
  intro n hn other hne hhas
  apply hn other hne
  simp only [spawnHolder, exec_change] at hhas
  split at hhas
  · cases hhas with
    | dir hd => exact .dir hd
    | pidfile hp =>
      dsimp only at hp
      rw [Function.update_of_ne hne] at hp
      exact .pidfile hp
    | holder hp => exact .holder (h.procs_other hne hp)
    | anchor ha => exact .anchor ha
  · exact hhas

theorem keeps_demoteOthers (sandbox : SandboxRecord) :
    Keeps (Within env.id n₀) (onWorld (RunPod.demoteOthers env sandbox)) := by
  apply keeps_onWorld env <;> intro w other _ <;> simp only [RunPod.demoteOthers, exec_change] <;>
    split <;> rfl

theorem keeps_putRecord (sandbox : SandboxRecord) :
    Keeps (Within env.id n₀) (onWorld (RunPod.putRecord env sandbox)) := by
  apply keeps_onWorld env <;> intro w other _ <;> simp only [RunPod.putRecord, exec_act] <;>
    cases env.putErr <;> rfl

/-- `run_pod_sandbox` makes objects of its own sandbox only. -/
theorem keeps_runPodSandbox (h : HolderEnv) (req : RunPod.Request) :
    Keeps (Within env.id n₀) (runPodSandbox env h req) := by
  refine (Keeps.check _).bind fun config => ?_
  refine (Keeps.check _).bind fun userns => ?_
  refine Keeps.bind (keeps_network (withHolder env h) config _) fun path => ?_
  refine Keeps.bind (keeps_makeDir (withHolder env h)) fun _ => ?_
  refine Keeps.bind (keeps_spawnHolder (withHolder env h) h _) fun _ => ?_
  refine Keeps.bind (keeps_demoteOthers (withHolder env h) _) fun _ => ?_
  refine Keeps.bind (keeps_putRecord (withHolder env h) _) fun _ => ?_
  exact .pure _

end within

/-- A new sandbox has its record. -/
theorem Owned.run {n n' : Node} (hn : Owned n) {env : RunPod.Env} {h : HolderEnv}
    {req : RunPod.Request} {id : String}
    (hrun : exec (runPodSandbox env h req) n = (.ok id, n')) : Owned n' := by
  have hwithin : Within env.id n n' := by
    have hkeeps := keeps_runPodSandbox env h req n (fun other _ hhas => hhas)
    rwa [hrun] at hkeeps
  obtain ⟨env', hid, hres, htable⟩ := runPodSandbox_table env h req n
  rw [hrun] at hres htable
  intro other hhas
  rw [htable]
  by_cases hne : other = env.id
  · rw [hne, ← hid]
    exact runPodSandbox_stored hres.symm
  · exact runPodSandbox_keeps (hn other (hwithin other hne hhas))

/-! ## Stops and removals -/

/-- An action makes nothing. -/
theorem has_perform {cni : Sandbox.Env} {n : Node} {a : PodAction} {id : String}
    (h : Has (perform cni n a) id) : Has n id := by
  cases a with
  | teardown other =>
    cases h with
    | dir hd => exact .dir hd
    | pidfile hp => exact .pidfile hp
    | holder hp => exact .holder hp
    | anchor ha =>
      apply Has.anchor
      by_cases hne : id = other
      · subst hne
        exact (Bool.and_eq_true_iff.1 ((teardown_anchors cni id id n.net).symm.trans ha)).1
      · exact (teardown_anchors_ne hne n.net).symm.trans ha
  | killHolder pid =>
    cases h with
    | dir hd => exact .dir hd
    | pidfile hp => exact .pidfile hp
    | @holder p hp =>
      by_cases hpid : p = pid
      · rw [hpid] at hp
        cases (Function.update_self ..).symm.trans hp
      · exact .holder ((Function.update_of_ne hpid _ _).symm.trans hp)
    | anchor ha => exact .anchor ha

theorem has_actions {cni : Sandbox.Env} {id : String} {actions : List PodAction} {n : Node}
    (h : Has (actions.foldl (perform cni) n) id) : Has n id := by
  induction actions generalizing n with
  | nil => exact h
  | cons a actions ih => exact has_perform (ih h)

/-- Neither does a handler that consists of actions and a write to the table. -/
theorem has_after {cni : Sandbox.Env} {n : Node} {reply : PodReply Unit} {id : String}
    (h : Has (n.after cni reply) id) : Has n id := by
  apply @has_actions cni id reply.actions
  cases h with
  | dir hd => exact .dir hd
  | pidfile hp => exact .pidfile hp
  | holder hp => exact .holder hp
  | anchor ha => exact .anchor ha

/-- A handler that has returned `Ok`. -/
theorem answered_some {n n' : Node} {cni : Sandbox.Env} {reply : PodReply Unit}
    (h : n.answered cni reply = some n') : reply.result = .ok () ∧ n' = n.after cni reply := by
  unfold Node.answered at h
  split at h
  · rename_i hok
    exact ⟨hok, (Option.some.inj h).symm⟩
  · cases h

theorem Owned.stop {n : Node} (hn : Owned n) (id : String) (env : CallEnv) :
    Owned (n.after env.cni (Cri.stopPodSandbox env.pod n.sandboxes id)) := by
  intro other hhas
  exact stopPodSandbox_keeps (hn other (has_after hhas))

/-- The removal passes `p` to `kill_holder`. -/
def Kills (n : Node) (env : PodEnv) (id : String) (p : Int) : Prop :=
  env.getErr = none ∧ ∃ rec, get n.sandboxes ns id = some rec ∧ rec.pidHolderPid = some p

/-- The removal tears the network down. -/
def TearsDown (n : Node) (env : PodEnv) (id : String) : Prop :=
  env.getErr = none ∧ ∃ rec, get n.sandboxes ns id = some rec ∧
    rec.netnsPath.any (· != "host") = true

/-- The removal finds nothing that it would leave: no directory, no pidfile, no other holder than
    the one in the record, and no anchor that is not torn down. -/
structure Freed (n : Node) (id : String) (env : CallEnv) : Prop where
  dir : n.dirs id = false
  pidfile : n.pidfiles id = false
  holder : ∀ p, n.procs p = some (.holder id) → Kills n env.pod id p
  anchor : n.net.anchors id = true → TearsDown n env.pod id ∧ env.cni.removeFails = false

section remove

variable {n : Node} {id : String} {env : CallEnv}

/-- The actions of a removal on the node. -/
def removed (n : Node) (id : String) (env : CallEnv) : Node :=
  (removeActions env.pod n.sandboxes id).foldl (perform env.cni) n

theorem removed_keeps (n : Node) (id : String) (env : CallEnv) :
    (removed n id env).dirs = n.dirs ∧ (removed n id env).pidfiles = n.pidfiles := by
  unfold removed
  generalize removeActions env.pod n.sandboxes id = actions
  induction actions generalizing n with
  | nil => exact ⟨rfl, rfl⟩
  | cons a actions ih =>
    obtain ⟨hdirs, hpidfiles⟩ := ih (perform env.cni n a)
    rw [List.foldl_cons, hdirs, hpidfiles]
    cases a <;> exact ⟨rfl, rfl⟩

/-- What the removal does to the processes and to the network: nothing without the record, and
    otherwise what the record says. -/
theorem removed_cases (n : Node) (id : String) (env : CallEnv) :
    removed n id env = n ∧ (∀ p, ¬ Kills n env.pod id p) ∧ ¬ TearsDown n env.pod id ∨
      ∃ rec : SandboxRecord, (removed n id env).procs = Pod.kill n.procs rec.pidHolderPid ∧
        (∀ p, Kills n env.pod id p ↔ rec.pidHolderPid = some p) ∧
        (removed n id env).net =
          (if rec.netnsPath.any (· != "host") then teardown env.cni id id n.net else n.net) ∧
        (TearsDown n env.pod id ↔ rec.netnsPath.any (· != "host") = true) := by
  unfold removed removeActions Kills TearsDown
  cases env.pod.getErr with
  | some e =>
    refine .inl ⟨rfl, ?_, ?_⟩
    · rintro p ⟨h, -⟩
      cases h
    · rintro ⟨h, -⟩
      cases h
  | none =>
    cases get n.sandboxes ns id with
    | none =>
      refine .inl ⟨rfl, ?_, ?_⟩
      · rintro p ⟨-, rec, h, -⟩
        cases h
      · rintro ⟨-, rec, h, -⟩
        cases h
    | some rec =>
      refine .inr ⟨rec, ?_, fun p => by simp, ?_, by simp⟩
      · dsimp only
        split <;> cases rec.pidHolderPid <;> rfl
      · dsimp only
        split <;> cases rec.pidHolderPid <;> rfl

theorem removed_holder {p : Int} :
    (removed n id env).procs p = some (.holder id) ↔
      n.procs p = some (.holder id) ∧ ¬ Kills n env.pod id p := by
  rcases removed_cases n id env with ⟨hsame, hkills, -⟩ | ⟨rec, hprocs, hkills, -⟩
  · rw [hsame]
    exact ⟨fun h => ⟨h, hkills p⟩, fun h => h.1⟩
  · rw [hprocs, hkills]
    by_cases hp : rec.pidHolderPid = some p
    · rw [hp, Pod.kill, Function.update_self]
      simp
    · rw [Pod.kill_of_ne hp]
      simp [hp]

theorem removed_anchor :
    (removed n id env).net.anchors id = true ↔
      n.net.anchors id = true ∧ (TearsDown n env.pod id → env.cni.removeFails = true) := by
  rcases removed_cases n id env with ⟨hsame, -, htears⟩ | ⟨rec, -, -, hnet, htears⟩
  · rw [hsame]
    exact ⟨fun h => ⟨h, fun ht => absurd ht htears⟩, fun h => h.1⟩
  · rw [hnet, htears]
    split
    · rename_i hpath
      rw [teardown_anchors, Bool.and_eq_true_iff]
      simp [hpath]
    · rename_i hpath
      simp [hpath]

/-- A removal keeps the objects with their records exactly when it leaves none. -/
theorem owned_remove_iff (hn : Owned n) (hdelete : env.pod.deleteErr = none) :
    Owned (n.after env.cni (Cri.removePodSandbox env.pod n.sandboxes id)) ↔ Freed n id env := by
  have hstored : ∀ other,
      Stored (Cri.removePodSandbox env.pod n.sandboxes id).sandboxes other ↔
        Stored n.sandboxes other ∧ other ≠ id := by
    intro other
    rw [removePodSandbox_stored]
    simp [hdelete]
  have hactions : (Cri.removePodSandbox env.pod n.sandboxes id).actions =
      removeActions env.pod n.sandboxes id := by
    rw [Cri.removePodSandbox, hdelete]
  have hafter : n.after env.cni (Cri.removePodSandbox env.pod n.sandboxes id) =
      { removed n id env with
        sandboxes := (Cri.removePodSandbox env.pod n.sandboxes id).sandboxes } := by
    rw [Node.after, hactions]
    rfl
  rw [hafter]
  obtain ⟨hdirs, hpidfiles⟩ := removed_keeps n id env
  constructor
  · intro h
    have hnone : ¬ Has { removed n id env with
        sandboxes := (Cri.removePodSandbox env.pod n.sandboxes id).sandboxes } id :=
      fun hhas => ((hstored id).1 (h id hhas)).2 rfl
    refine ⟨?_, ?_, ?_, ?_⟩
    · rw [← hdirs, ← Bool.not_eq_true]
      exact fun hd => hnone (.dir hd)
    · rw [← hpidfiles, ← Bool.not_eq_true]
      exact fun hp => hnone (.pidfile hp)
    · intro p hp
      by_contra hkills
      exact hnone (.holder (removed_holder.2 ⟨hp, hkills⟩))
    · intro ha
      have hnot : ¬ (TearsDown n env.pod id → env.cni.removeFails = true) :=
        fun himp => hnone (.anchor (removed_anchor.2 ⟨ha, himp⟩))
      rw [Classical.not_imp, Bool.not_eq_true] at hnot
      exact hnot
  · intro hfreed other hhas
    have hbefore : Has n other := by
      rw [← hafter] at hhas
      exact has_after hhas
    refine (hstored other).2 ⟨hn other hbefore, ?_⟩
    rintro rfl
    cases hhas with
    | dir hd =>
      have hd : (removed n other env).dirs other = true := hd
      rw [hdirs, hfreed.dir] at hd
      cases hd
    | pidfile hp =>
      have hp : (removed n other env).pidfiles other = true := hp
      rw [hpidfiles, hfreed.pidfile] at hp
      cases hp
    | holder hp =>
      obtain ⟨hp, hkills⟩ := removed_holder.1 hp
      exact hkills (hfreed.holder _ hp)
    | anchor ha =>
      obtain ⟨ha, himp⟩ := removed_anchor.1 ha
      obtain ⟨htears, hfails⟩ := hfreed.anchor ha
      rw [himp htears] at hfails
      cases hfails

end remove

/-! ## Histories -/

/-- The condition on a request: a removal leaves nothing. -/
def Frees (n : Node) : Label → Prop
  | .removePodSandbox id env => Freed n id env
  | _ => True

/-- A process ends, or one that is no holder starts. -/
theorem Owned.process {n : Node} (hn : Owned n) (p : Int) {new : Option Proc}
    (hnew : ∀ id, new ≠ some (.holder id)) :
    Owned { n with procs := Function.update n.procs p new } := by
  intro id hhas
  cases hhas with
  | dir hd => exact hn id (.dir hd)
  | pidfile hp => exact hn id (.pidfile hp)
  | @holder q hq =>
    by_cases hqp : q = p
    · rw [hqp] at hq
      exact absurd ((Function.update_self ..).symm.trans hq) (hnew id)
    · exact hn id (.holder ((Function.update_of_ne hqp _ _).symm.trans hq))
  | anchor ha => exact hn id (.anchor ha)

/-- One request keeps the objects with their records exactly when it is not a removal that leaves
    something. -/
theorem owned_step_iff {n n' : Node} {l : Label} (hn : Owned n) (h : step n l = some n') :
    Owned n' ↔ Frees n l := by
  cases l with
  | runPodSandbox req env holder =>
    simp only [step] at h
    split at h
    · split at h
      · rename_i hrun
        cases h
        exact iff_of_true (hn.run hrun) trivial
      · cases h
    · cases h
  | stopPodSandbox id env =>
    obtain ⟨-, rfl⟩ := answered_some h
    exact iff_of_true (hn.stop id env) trivial
  | removePodSandbox id env =>
    obtain ⟨hok, rfl⟩ := answered_some h
    exact owned_remove_iff hn (removePodSandbox_ok_iff.1 hok)
  | ends p =>
    cases h
    exact iff_of_true (hn.process p fun id hp => by cases hp) trivial
  | starts p =>
    simp only [step] at h
    split at h
    · cases h
      exact iff_of_true (hn.process p fun id hp => by cases hp) trivial
    · cases h

/-- **What a sandbox owns goes with it**, in every history of requests that succeed, exactly when
    every removal is of a sandbox that has no directory and no pidfile, no holder but the one in
    its record, and no anchor that the removal does not tear down. -/
theorem objects_freed_iff (n₀ : Node) (h₀ : Owned n₀) (ls : List Label) :
    (∀ x ∈ steps step n₀ ls, Owned x.2.2) ↔ ∀ x ∈ steps step n₀ ls, Frees x.1 x.2.1 := by
  have hstep : ∀ n l n', Owned n → Frees n l → step n l = some n' → Owned n' :=
    fun n l n' hn hok h => (owned_step_iff hn h).2 hok
  exact forall_steps_iff hstep (fun n l n' hn h => owned_step_iff hn h) ls n₀ h₀

/-! ## A sandbox that comes and goes -/

/-- Nothing on the node yet. -/
def emptyNode : Node :=
  ⟨⟨fun _ => false, []⟩, fun _ => false, fun _ => false, fun _ => none, .empty⟩

theorem owned_emptyNode : Owned emptyNode := by
  intro id hhas
  cases hhas with
  | dir h => cases h
  | pidfile h => cases h
  | holder h => cases h
  | anchor h => cases h

/-- A sandbox is run and removed; all calls succeed but, perhaps, the creation of its directory. -/
def comeAndGo (dirFails : Bool) : List Label :=
  [.runPodSandbox ⟨some podConfig, []⟩
      { RunPod.quietEnv (RunPod.cniEnv (.ok RunPod.bridgeResult)) with dirFails := dirFails }
      ⟨false, .failed, false⟩,
    .removePodSandbox "s1" ⟨.quiet "", RunPod.cniEnv (.ok .null)⟩]

/-- Without its directory the sandbox leaves nothing. -/
theorem no_directory_freed :
    (steps step emptyNode (comeAndGo true)).length = 2 ∧
      ∀ x ∈ steps step emptyNode (comeAndGo true), Owned x.2.2 := by
  refine ⟨rfl, (objects_freed_iff emptyNode owned_emptyNode _).2 ?_⟩
  have hruns : ∃ req env holder n₁ n₂ cni, steps step emptyNode (comeAndGo true) =
        [(emptyNode, .runPodSandbox req env holder, n₁),
          (n₁, .removePodSandbox "s1" ⟨.quiet "", cni⟩, n₂)] ∧
      n₁.dirs "s1" = false ∧ n₁.pidfiles "s1" = false ∧ (∀ p, n₁.procs p = none) ∧
      cni.removeFails = false ∧ ∃ rec, get n₁.sandboxes ns "s1" = some rec ∧
        rec.netnsPath = some (netnsPath "s1") :=
    ⟨_, _, _, _, _, _, rfl, rfl, rfl, fun _ => rfl, rfl, _, rfl, rfl⟩
  obtain ⟨req, env, holder, n₁, n₂, cni, hsteps, hdir, hpidfile, hprocs, hfails, rec, hrec,
    hpath⟩ := hruns
  have htears : rec.netnsPath.any (· != "host") = true := by
    rw [hpath]
    decide
  rw [hsteps]
  intro x hx
  rcases List.mem_cons.1 hx with rfl | hx
  · trivial
  · rw [List.mem_singleton.1 hx]
    refine ⟨hdir, hpidfile, ?_, fun _ => ⟨⟨rfl, rec, hrec, htears⟩, hfails⟩⟩
    intro p hp
    rw [hprocs] at hp
    cases hp

/-- The directory stays. -/
theorem removed_sandbox_leaves_directory :
    ¬ ∀ (n₀ : Node), Owned n₀ → ∀ (ls : List Label), ∀ x ∈ steps step n₀ ls, Owned x.2.2 := by
  intro h
  have hlast : ∃ x ∈ steps step emptyNode (comeAndGo false), x.2.2.dirs "s1" = true ∧
      get x.2.2.sandboxes ns "s1" = none :=
    ⟨_, List.mem_cons_of_mem _ List.mem_cons_self, rfl, rfl⟩
  obtain ⟨x, hx, hdir, hnone⟩ := hlast
  have hstored := h emptyNode owned_emptyNode _ x hx "s1" (.dir hdir)
  rw [Stored, hnone] at hstored
  cases hstored

end ContainerdRs.Cri.Objects
