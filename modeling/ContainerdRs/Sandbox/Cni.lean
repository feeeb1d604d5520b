import Mathlib.Logic.Function.Basic
import ContainerdRs.Runtime.Crun

/-!
# Pod networking (`crates/sandbox/src/cni.rs`)

A network namespace is kept alive by an anchor in `/run/netns`.  `setup` reads the conflist and
calls the loopback plugin and the plugins of the list with ADD, each with the result of the one
before; `teardown` reads the conflist again and calls them in reverse order with DEL, whatever
they answer, and removes the anchor.

* `adds_setup` — the calls of `setup` are ADD calls for the container, each of which a DEL call
  for the same conflist undoes.
* `teardown_calls`, `teardown_anchors` — what `teardown` leaves.
* `Detached` — every plugin that has run with ADD is called with DEL later on;
  `detached_append_iff` — after ADD calls and then DEL calls.
* `teardownCalls_of_unchanged` — with the conflist unchanged, every ADD call is undone.
-/

set_option autoImplicit false

namespace ContainerdRs.Sandbox

open Runtime.Crun (Json)

/-! ## Data -/

/-- `cni::Error`. -/
inductive Error where
  | io (e : String)
  | json (e : String)
  | noConfList (dir : String)
  | plugin (name msg : String)
  | netns (e : String)
  | noIp
  deriving DecidableEq, Repr

/-- `Display` of an error. -/
def Error.text : Error → String
  | .io e => "io error: " ++ e
  | .json e => "json error: " ++ e
  | .noConfList dir => "no CNI conflist found in " ++ dir
  | .plugin name msg => "CNI plugin " ++ name ++ " failed: " ++ msg
  | .netns e => "netns command failed: " ++ e
  | .noIp => "no IP in CNI result"

/-- `ConfList`. -/
structure ConfList where
  cniVersion : String
  name : String
  plugins : List Json

/-- `PortMapping`. -/
structure PortMapping where
  hostPort : Int
  containerPort : Int
  protocol : String
  hostIp : String
  deriving DecidableEq, Repr

/-- `CNI_COMMAND`. -/
inductive Command where
  | add
  | del
  deriving DecidableEq, Repr

/-- One call of a plugin: the program, its `CNI_*` environment and its input. -/
structure Call where
  command : Command
  containerId : String
  netns : String
  ifname : String
  plugin : String
  netconf : Json

/-- What becomes of a call: the plugin could not be started, or it has run. -/
inductive Answer where
  | notSpawned (e : Error)
  | ran (r : Except Error Json)

/-- The result of `exec_plugin`. -/
def Answer.result : Answer → Except Error Json
  | .notSpawned e => .error e
  | .ran r => r

/-- The anchors in `/run/netns`, and the calls so far. -/
structure Net where
  anchors : String → Bool
  calls : List (Call × Answer)

/-- What the outside answers. -/
structure Env where
  /-- `load_conflist`, in `setup` and in `teardown`. -/
  conflist : Except Error ConfList
  conflistAgain : Except Error ConfList
  /-- The plugins; the number is that of the calls before. -/
  exec : Nat → Call → Answer
  /-- `create_netns`: `/run/netns`, the anchor, the namespace. -/
  mkdirErr : Option Error
  anchorErr : Option Error
  unshareErr : Option Error
  /-- `remove_file` of the anchor. -/
  removeFails : Bool

/-! ## Configurations -/

def ifname : String := "eth0"

def loIfname : String := "lo"

/-- `netns_path`, displayed. -/
def netnsPath (netns : String) : String := "/run/netns/" ++ netns

/-- `exec_plugin`, the name of the program. -/
def pluginType (plugin : Json) : String := ((plugin.get "type").bind Json.asStr).getD ""

/-- `loopback_netconf`. -/
def loopbackNetconf (c : ConfList) : Json :=
  .obj [("cniVersion", .str c.cniVersion), ("name", .str c.name), ("type", .str "loopback")]

/-- `assemble_netconf`. -/
def assembleNetconf (c : ConfList) (plugin : Json) (prev : Option Json) : Json :=
  let netconf := (plugin.insert "cniVersion" (.str c.cniVersion)).insert "name" (.str c.name)
  match prev with
  | some prev => netconf.insert "prevResult" prev
  | none => netconf

/-- An entry of `portMappings`. -/
def PortMapping.json (p : PortMapping) : Json :=
  .obj [("hostPort", .int p.hostPort), ("containerPort", .int p.containerPort),
    ("protocol", .str p.protocol), ("hostIP", .str p.hostIp)]

/-- `inject_port_mappings`: only real host ports, and nothing when there are none. -/
def injectPortMappings (netconf plugin : Json) (mappings : List PortMapping) : Json :=
  let capable := ((plugin.get "capabilities").bind (·.get "portMappings")).bind Json.asBool
  if capable.getD false then
    match mappings.filter (0 < ·.hostPort) with
    | [] => netconf
    | ports =>
      let rc := (netconf.get "runtimeConfig").getD (.obj [])
      netconf.insert "runtimeConfig" (rc.insert "portMappings" (.arr (ports.map PortMapping.json)))
  else netconf

/-- `extract_ip`: the first address, without its prefix length. -/
def extractIp (r : Json) : Except Error String :=
  match (r.get "ips").bind Json.asArray with
  | none => .error .noIp
  | some ips =>
    match (ips.head?.bind (·.get "address")).bind Json.asStr with
    | none => .error .noIp
    | some addr => .ok (String.ofList (addr.toList.takeWhile (· ≠ '/')))

/-! ## Namespaces -/

/-- `create_netns`. -/
def createNetns (env : Env) (netns : String) (n : Net) : Except Error Unit × Net :=
  match env.mkdirErr with
  | some e => (.error e, n)
  | none =>
    match n.anchors netns, env.anchorErr with
    | false, some e => (.error e, n)
    | _, _ =>
      let n' := { n with anchors := Function.update n.anchors netns true }
      match env.unshareErr with
      | some e => (.error e, n')
      | none => (.ok (), n')

/-- `delete_netns`: best effort. -/
def deleteNetns (env : Env) (netns : String) (n : Net) : Net :=
  if !n.anchors netns || env.removeFails then n
  else { n with anchors := Function.update n.anchors netns false }

/-! ## Plugins -/

/-- `exec_plugin`. -/
def execPlugin (env : Env) (call : Call) (n : Net) : Except Error Json × Net :=
  ((env.exec n.calls.length call).result,
    { n with calls := n.calls ++ [(call, env.exec n.calls.length call)] })

/-- The call of the loopback plugin. -/
def loopbackCall (command : Command) (id netns : String) (c : ConfList) : Call :=
  ⟨command, id, netnsPath netns, loIfname, "loopback", loopbackNetconf c⟩

/-- `setup`, the call of a plugin of the list. -/
def addCall (id netns : String) (c : ConfList) (mappings : List PortMapping) (plugin : Json)
    (prev : Option Json) : Call :=
  ⟨.add, id, netnsPath netns, ifname, pluginType plugin,
    injectPortMappings (assembleNetconf c plugin prev) plugin mappings⟩

/-- `setup`, the loop over the plugins: the last result. -/
def addChain (env : Env) (id netns : String) (c : ConfList) (mappings : List PortMapping) :
    List Json → Option Json → Net → Except Error (Option Json) × Net
  | [], prev, n => (.ok prev, n)
  | plugin :: plugins, prev, n =>
    match execPlugin env (addCall id netns c mappings plugin prev) n with
    | (.error e, n) => (.error e, n)
    | (.ok r, n) => addChain env id netns c mappings plugins (some r) n

/-- `setup`: the pod's address. -/
def setup (env : Env) (id netns : String) (mappings : List PortMapping) (n : Net) :
    Except Error String × Net :=
  match env.conflist with
  | .error e => (.error e, n)
  | .ok c =>
    match execPlugin env (loopbackCall .add id netns c) n with
    | (.error e, n) => (.error e, n)
    | (.ok _, n) =>
      match addChain env id netns c mappings c.plugins none n with
      | (.error e, n) => (.error e, n)
      | (.ok none, n) => (.error .noIp, n)
      | (.ok (some r), n) => (extractIp r, n)

/-- `teardown`, the call of a plugin of the list. -/
def delCall (id netns : String) (c : ConfList) (plugin : Json) : Call :=
  ⟨.del, id, netnsPath netns, ifname, pluginType plugin, assembleNetconf c plugin none⟩

/-- The calls of `teardown`, in order. -/
def delCalls (id netns : String) (c : ConfList) : List Call :=
  c.plugins.reverse.map (delCall id netns c) ++ [loopbackCall .del id netns c]

/-- Calls whose results are dropped. -/
def execAll (env : Env) : List Call → Net → Net
  | [], n => n
  | call :: calls, n => execAll env calls (execPlugin env call n).2

/-- `teardown`, the calls it makes: none when the conflist cannot be read. -/
def teardownCalls (env : Env) (id netns : String) : List Call :=
  match env.conflistAgain with
  | .error _ => []
  | .ok c => delCalls id netns c

/-- `teardown`. -/
def teardown (env : Env) (id netns : String) (n : Net) : Net :=
  deleteNetns env netns (execAll env (teardownCalls env id netns) n)

/-! ## Attachments -/

/-- The plugin has run with ADD. -/
def Attached (a : Call × Answer) : Prop := a.1.command = .add ∧ ∃ r, a.2 = .ran r

/-- `b` is a DEL call of the plugin that `a` called, for the same container, interface and
    network. -/
structure Undoes (b a : Call) : Prop where
  command : b.command = .del
  containerId : b.containerId = a.containerId
  ifname : b.ifname = a.ifname
  plugin : b.plugin = a.plugin
  name : b.netconf.get "name" = a.netconf.get "name"

/-- Every attachment of the container is followed by the call that undoes it. -/
def Detached (id : String) (calls : List (Call × Answer)) : Prop :=
  ∀ pre a post, calls = pre ++ a :: post → a.1.containerId = id → Attached a →
    ∃ b ∈ post, Undoes b.1 a.1

theorem detached_of_forall_ne {id : String} {calls : List (Call × Answer)}
    (h : ∀ a ∈ calls, a.1.containerId ≠ id) : Detached id calls := by
  rintro pre a post rfl hid -
  exact absurd hid (h a (by simp))

/-- ADD calls for the container first, and DEL calls after them. -/
theorem detached_append_iff {id : String} {calls dels : List (Call × Answer)}
    (hadd : ∀ a ∈ calls, a.1.containerId = id → a.1.command = .add)
    (hdel : ∀ b ∈ dels, b.1.command = .del) :
    Detached id (calls ++ dels) ↔
      ∀ a ∈ calls, a.1.containerId = id → Attached a → ∃ b ∈ dels, Undoes b.1 a.1 := by
  constructor
  · intro h a ha hid hatt
    obtain ⟨pre, post, rfl⟩ := List.append_of_mem ha
    obtain ⟨b, hb, hundo⟩ := h pre a (post ++ dels) (by simp) hid hatt
    rcases List.mem_append.1 hb with hb | hb
    · -- a DEL call for the container is not among the ADD calls
      have hb' := hadd b (by simp [hb]) (hundo.containerId.trans hid)
      rw [hundo.command] at hb'
      cases hb'
    · exact ⟨b, hb, hundo⟩
  · intro h pre a post heq hid hatt
    -- an ADD call is not among the DEL calls
    have hnot : a ∉ dels := by
      intro ha
      have hcommand := hdel a ha
      rw [hatt.1] at hcommand
      cases hcommand
    rcases List.append_eq_append_iff.1 heq with ⟨as, -, hdels⟩ | ⟨cs, hcalls, hpost⟩
    · refine absurd ?_ hnot
      rw [hdels]
      exact List.mem_append_right _ List.mem_cons_self
    · cases cs with
      | nil =>
        rw [List.nil_append] at hpost
        exact absurd (hpost ▸ List.mem_cons_self) hnot
      | cons a' cs =>
        rw [List.cons_append, List.cons.injEq] at hpost
        obtain ⟨rfl, rfl⟩ := hpost
        obtain ⟨b, hb, hundo⟩ := h a (by simp [hcalls]) hid hatt
        exact ⟨b, List.mem_append_right _ hb, hundo⟩

/-! ## What `setup` leaves -/

section setup

variable {id netns : String} {c : ConfList}

/-- An ADD call for the container, which one of the DEL calls for the conflist undoes. -/
structure AddCall (id netns : String) (c : ConfList) (call : Call) : Prop where
  command : call.command = .add
  containerId : call.containerId = id
  undone : ∃ b ∈ delCalls id netns c, Undoes b call

theorem assembleNetconf_name (c : ConfList) (plugin : Json) (prev : Option Json) :
    (assembleNetconf c plugin prev).get "name" = (assembleNetconf c plugin none).get "name" := by
  cases prev with
  | none => rfl
  | some prev => exact Json.get_insert_ne (by decide) _ _

theorem injectPortMappings_get_ne {key : String} (h : key ≠ "runtimeConfig")
    (netconf plugin : Json) (mappings : List PortMapping) :
    (injectPortMappings netconf plugin mappings).get key = netconf.get key := by
  unfold injectPortMappings
  dsimp only
  split
  · split
    · rfl
    · exact Json.get_insert_ne h _ _
  · rfl

theorem addCall_loopbackCall (id netns : String) (c : ConfList) :
    AddCall id netns c (loopbackCall .add id netns c) :=
  ⟨rfl, rfl, loopbackCall .del id netns c, by simp [delCalls], rfl, rfl, rfl, rfl, rfl⟩

theorem addCall_addCall {plugin : Json} (h : plugin ∈ c.plugins) (mappings : List PortMapping)
    (prev : Option Json) : AddCall id netns c (addCall id netns c mappings plugin prev) := by
  refine ⟨rfl, rfl, delCall id netns c plugin, ?_, rfl, rfl, rfl, rfl, ?_⟩
  · exact List.mem_append_left _ (List.mem_map_of_mem (List.mem_reverse.2 h))
  · rw [addCall, injectPortMappings_get_ne (by decide), assembleNetconf_name]
    rfl

/-- `n'` is `n` after further ADD calls. -/
structure Adds (id netns : String) (c : ConfList) (n n' : Net) (adds : List (Call × Answer)) :
    Prop where
  anchors : n'.anchors = n.anchors
  calls : n'.calls = n.calls ++ adds
  add : ∀ a ∈ adds, AddCall id netns c a.1

theorem adds_execPlugin {call : Call} (h : AddCall id netns c call) (env : Env) (n : Net) :
    Adds id netns c n (execPlugin env call n).2 [(call, env.exec n.calls.length call)] := by
  refine ⟨rfl, rfl, ?_⟩
  intro a ha
  rw [List.mem_singleton.1 ha]
  exact h

theorem Adds.trans {n n' n'' : Net} {adds adds' : List (Call × Answer)}
    (h : Adds id netns c n n' adds) (h' : Adds id netns c n' n'' adds') :
    Adds id netns c n n'' (adds ++ adds') := by
  refine ⟨h'.anchors.trans h.anchors, ?_, ?_⟩
  · rw [h'.calls, h.calls, List.append_assoc]
  · intro a ha
    rcases List.mem_append.1 ha with ha | ha
    · exact h.add a ha
    · exact h'.add a ha

/-- The loop makes ADD calls. -/
theorem adds_addChain (env : Env) (mappings : List PortMapping) {plugins : List Json}
    (hmem : ∀ p ∈ plugins, p ∈ c.plugins) (prev : Option Json) (n : Net) :
    ∃ adds, Adds id netns c n (addChain env id netns c mappings plugins prev n).2 adds := by
  induction plugins generalizing prev n with
  | nil => exact ⟨[], rfl, by simp [addChain], by simp⟩
  | cons plugin plugins ih =>
    have hcall : AddCall id netns c (addCall id netns c mappings plugin prev) :=
      addCall_addCall (hmem plugin List.mem_cons_self) mappings prev
    have hfirst := adds_execPlugin hcall env n
    rcases hexec : execPlugin env (addCall id netns c mappings plugin prev) n with ⟨_ | r, n'⟩
    · rw [hexec] at hfirst
      rw [addChain, hexec]
      exact ⟨_, hfirst⟩
    · rw [hexec] at hfirst
      rw [addChain, hexec]
      obtain ⟨adds, hadds⟩ := ih (fun p hp => hmem p (List.mem_cons_of_mem _ hp)) (some r) n'
      exact ⟨_, hfirst.trans hadds⟩

/-- `setup` makes ADD calls, of the loopback plugin first. -/
theorem adds_setup {env : Env} (hc : env.conflist = .ok c) (id netns : String)
    (mappings : List PortMapping) (n : Net) :
    ∃ adds, Adds id netns c n (setup env id netns mappings n).2
      ((loopbackCall .add id netns c, env.exec n.calls.length (loopbackCall .add id netns c)) ::
        adds) := by
  have hfirst := adds_execPlugin (addCall_loopbackCall id netns c) env n
  rcases hexec : execPlugin env (loopbackCall .add id netns c) n with ⟨_ | r, n'⟩
  · rw [hexec] at hfirst
    simp only [setup, hc, hexec]
    exact ⟨[], hfirst⟩
  · rw [hexec] at hfirst
    obtain ⟨adds, hadds⟩ := adds_addChain env mappings (fun p hp => hp) none n'
    have hsnd : (setup env id netns mappings n).2 =
        (addChain env id netns c mappings c.plugins none n').2 := by
      simp only [setup, hc, hexec]
      rcases addChain env id netns c mappings c.plugins none n' with ⟨_ | _ | _, _⟩ <;> rfl
    rw [hsnd]
    exact ⟨adds, hfirst.trans hadds⟩

/-- Without a conflist `setup` does nothing. -/
theorem setup_of_error {env : Env} {e : Error} (hc : env.conflist = .error e) (id netns : String)
    (mappings : List PortMapping) (n : Net) : setup env id netns mappings n = (.error e, n) := by
  simp only [setup, hc]

/-- The anchors are those of before. -/
theorem setup_anchors (env : Env) (id netns : String) (mappings : List PortMapping) (n : Net) :
    (setup env id netns mappings n).2.anchors = n.anchors := by
  cases hc : env.conflist with
  | error e => rw [setup_of_error hc]
  | ok c =>
    obtain ⟨adds, hadds⟩ := adds_setup hc id netns mappings n
    exact hadds.anchors

/-- `create_netns` makes the anchor or nothing. -/
theorem createNetns_net (env : Env) (netns : String) (n : Net) :
    (createNetns env netns n).2 = n ∨ (createNetns env netns n).2 =
      { n with anchors := Function.update n.anchors netns true } := by
  unfold createNetns
  cases env.mkdirErr with
  | some e => exact Or.inl rfl
  | none =>
    dsimp only
    split
    · exact Or.inl rfl
    · cases env.unshareErr <;> exact Or.inr rfl

theorem createNetns_anchors_ne (env : Env) {netns other : String} (h : other ≠ netns) (n : Net) :
    (createNetns env netns n).2.anchors other = n.anchors other := by
  rcases createNetns_net env netns n with hnet | hnet
  · rw [hnet]
  · rw [hnet]
    exact Function.update_of_ne h _ _

theorem createNetns_calls (env : Env) (netns : String) (n : Net) :
    (createNetns env netns n).2.calls = n.calls := by
  rcases createNetns_net env netns n with hnet | hnet
  · rw [hnet]
  · rw [hnet]

end setup

/-! ## What `teardown` leaves -/

section teardown

variable {env : Env} {id netns : String}

theorem execAll_anchors (env : Env) (calls : List Call) (n : Net) :
    (execAll env calls n).anchors = n.anchors := by
  induction calls generalizing n with
  | nil => rfl
  | cons call calls ih => exact ih _

theorem execAll_calls (env : Env) (calls : List Call) (n : Net) :
    ∃ dels, (execAll env calls n).calls = n.calls ++ dels ∧ dels.map Prod.fst = calls := by
  induction calls generalizing n with
  | nil => exact ⟨[], by simp [execAll], rfl⟩
  | cons call calls ih =>
    obtain ⟨dels, hcalls, hdels⟩ := ih (execPlugin env call n).2
    refine ⟨(call, env.exec n.calls.length call) :: dels, ?_, by simp [hdels]⟩
    rw [execAll, hcalls]
    simp [execPlugin]

theorem deleteNetns_calls (env : Env) (netns : String) (n : Net) :
    (deleteNetns env netns n).calls = n.calls := by
  unfold deleteNetns
  split <;> rfl

/-- `teardown` makes its calls, whatever they answer. -/
theorem teardown_calls (env : Env) (id netns : String) (n : Net) :
    ∃ dels, (teardown env id netns n).calls = n.calls ++ dels ∧
      dels.map Prod.fst = teardownCalls env id netns := by
  obtain ⟨dels, hcalls, hdels⟩ := execAll_calls env (teardownCalls env id netns) n
  exact ⟨dels, by rw [teardown, deleteNetns_calls, hcalls], hdels⟩

/-- `teardown` leaves the anchor only when it cannot remove it. -/
theorem teardown_anchors (env : Env) (id netns : String) (n : Net) :
    (teardown env id netns n).anchors netns = (n.anchors netns && env.removeFails) := by
  unfold teardown deleteNetns
  rw [execAll_anchors]
  cases h : n.anchors netns <;> cases env.removeFails <;> simp [execAll_anchors, h]

/-- `teardown` leaves the other anchors alone. -/
theorem teardown_anchors_ne {other : String} (h : other ≠ netns) (n : Net) :
    (teardown env id netns n).anchors other = n.anchors other := by
  unfold teardown deleteNetns
  split
  · rw [execAll_anchors]
  · dsimp only
    rw [Function.update_of_ne h, execAll_anchors]

theorem teardownCalls_command {b : Call} (h : b ∈ teardownCalls env id netns) :
    b.command = .del := by
  unfold teardownCalls at h
  split at h
  · cases h
  · rcases List.mem_append.1 h with h | h
    · obtain ⟨plugin, -, rfl⟩ := List.mem_map.1 h
      rfl
    · rw [List.mem_singleton.1 h]
      rfl

/-- The conflist has not changed: every call of `setup` is undone. -/
theorem teardownCalls_of_unchanged {c : ConfList} (hc : env.conflistAgain = .ok c) {call : Call}
    (h : AddCall id netns c call) : ∃ b ∈ teardownCalls env id netns, Undoes b call := by
  rw [teardownCalls, hc]
  exact h.undone

end teardown

end ContainerdRs.Sandbox
