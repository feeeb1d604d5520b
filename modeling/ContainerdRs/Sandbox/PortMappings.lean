import ContainerdRs.Sandbox.Cni

/-!
# Port mappings on ADD and on DEL

`setup` puts the pod's port mappings into the configuration of every plugin that declares the
capability; `teardown`, which `remove_pod_sandbox` and a failed `run_pod_sandbox` call with the
same id, builds the configurations from the conflist alone.

* `givenPorts_addCall`, `givenPorts_delCall` — what the two calls of a plugin carry.
* `addChain_reaches` — plugins that all succeed are all called.
* `del_sees_add_iff` — when every plugin gets on DEL what it got on ADD.
-/

set_option autoImplicit false

namespace ContainerdRs.Sandbox

open Runtime.Crun (Json)

/-- `runtimeConfig.portMappings` of a configuration. -/
def givenPorts (netconf : Json) : Option Json :=
  (netconf.get "runtimeConfig").bind (·.get "portMappings")

/-- The mappings with a host port, as they are given to a plugin. -/
def hostPorts (mappings : List PortMapping) : List PortMapping :=
  mappings.filter (0 < ·.hostPort)

/-- The plugin declares the capability. -/
def capable (plugin : Json) : Bool :=
  (((plugin.get "capabilities").bind (·.get "portMappings")).bind Json.asBool).getD false

/-- The value is an object. -/
def IsObject (j : Json) : Prop := ∃ fields, j = .obj fields

/-- `setup` gives the plugin port mappings: it is capable, there is a host port, and a
    `runtimeConfig` of its own is an object. -/
structure Gives (mappings : List PortMapping) (plugin : Json) : Prop where
  capable : capable plugin = true
  ports : hostPorts mappings ≠ []
  object : ∀ rc, plugin.get "runtimeConfig" = some rc → IsObject rc

/-! ## The two configurations -/

theorem get_insert_self {j : Json} (hj : IsObject j) (key : String) (v : Json) :
    (j.insert key v).get key = some v := by
  obtain ⟨fields, rfl⟩ := hj
  simp [Json.insert, Json.get]

theorem isObject_insert {j : Json} (hj : IsObject j) (key : String) (v : Json) :
    IsObject (j.insert key v) := by
  obtain ⟨fields, rfl⟩ := hj
  exact ⟨_, rfl⟩

theorem isObject_of_get {j v : Json} {key : String} (h : j.get key = some v) : IsObject j := by
  cases j with
  | obj fields => exact ⟨fields, rfl⟩
  | _ => cases h

theorem isObject_of_capable {plugin : Json} (h : capable plugin = true) : IsObject plugin := by
  unfold capable at h
  cases hget : plugin.get "capabilities" with
  | none =>
    rw [hget] at h
    cases h
  | some v => exact isObject_of_get hget

/-- The names that `assemble_netconf` sets are other ones. -/
theorem assembleNetconf_runtimeConfig (c : ConfList) (plugin : Json) (prev : Option Json) :
    (assembleNetconf c plugin prev).get "runtimeConfig" = plugin.get "runtimeConfig" := by
  have hbase : ((plugin.insert "cniVersion" (.str c.cniVersion)).insert "name"
      (.str c.name)).get "runtimeConfig" = plugin.get "runtimeConfig" := by
    rw [Json.get_insert_ne (by decide), Json.get_insert_ne (by decide)]
  cases prev with
  | none => exact hbase
  | some prev => exact (Json.get_insert_ne (by decide) _ _).trans hbase

theorem isObject_assembleNetconf (c : ConfList) {plugin : Json} (h : IsObject plugin)
    (prev : Option Json) : IsObject (assembleNetconf c plugin prev) := by
  have hbase := isObject_insert (isObject_insert h "cniVersion" (.str c.cniVersion)) "name"
    (.str c.name)
  cases prev with
  | none => exact hbase
  | some prev => exact isObject_insert hbase "prevResult" prev

/-- On DEL a plugin has the port mappings of the conflist. -/
theorem givenPorts_delCall (id netns : String) (c : ConfList) (plugin : Json) :
    givenPorts (delCall id netns c plugin).netconf = givenPorts plugin := by
  rw [delCall, givenPorts, assembleNetconf_runtimeConfig, givenPorts]

theorem injectPortMappings_of_gives {netconf plugin : Json} {mappings : List PortMapping}
    (h : Gives mappings plugin) :
    injectPortMappings netconf plugin mappings = netconf.insert "runtimeConfig"
      (((netconf.get "runtimeConfig").getD (.obj [])).insert "portMappings"
        (.arr ((hostPorts mappings).map PortMapping.json))) := by
  have hcapable := h.capable
  have hports := h.ports
  unfold capable at hcapable
  unfold hostPorts at hports ⊢
  dsimp only [injectPortMappings]
  rw [if_pos hcapable]
  cases hfilter : mappings.filter (0 < ·.hostPort) with
  | nil => exact absurd hfilter hports
  | cons m ms => rfl

/-- On ADD it has those of the pod when `setup` gives it some. -/
theorem givenPorts_addCall_of_gives (id netns : String) (c : ConfList)
    {mappings : List PortMapping} {plugin : Json} (h : Gives mappings plugin)
    (prev : Option Json) :
    givenPorts (addCall id netns c mappings plugin prev).netconf =
      some (.arr ((hostPorts mappings).map PortMapping.json)) := by
  have hnetconf := isObject_assembleNetconf c (isObject_of_capable h.capable) prev
  have hrc : IsObject ((plugin.get "runtimeConfig").getD (.obj [])) := by
    cases hget : plugin.get "runtimeConfig" with
    | none => exact ⟨[], rfl⟩
    | some rc => exact h.object rc hget
  rw [addCall, injectPortMappings_of_gives h, givenPorts, get_insert_self hnetconf,
    assembleNetconf_runtimeConfig, Option.bind_some, get_insert_self hrc]

/-- Otherwise it has those of the conflist. -/
theorem givenPorts_addCall_of_not (id netns : String) (c : ConfList)
    {mappings : List PortMapping} {plugin : Json} (h : ¬ Gives mappings plugin)
    (prev : Option Json) :
    givenPorts (addCall id netns c mappings plugin prev).netconf = givenPorts plugin := by
  have hbase : givenPorts (assembleNetconf c plugin prev) = givenPorts plugin := by
    rw [givenPorts, assembleNetconf_runtimeConfig, givenPorts]
  rw [addCall, ← hbase]
  dsimp only [injectPortMappings]
  split
  · rename_i hcapable
    split
    · rfl
    · rename_i hports
      -- the `runtimeConfig` of the plugin is no object, and stays
      have hne : hostPorts mappings ≠ [] := hports
      have hno : ¬ ∀ rc, plugin.get "runtimeConfig" = some rc → IsObject rc :=
        fun hobject => h ⟨hcapable, hne, hobject⟩
      obtain ⟨rc, hget, hrc⟩ := not_forall₂.1 hno
      have hnetconf := isObject_assembleNetconf c (isObject_of_capable hcapable) prev
      have hsame : ∀ v, rc.insert "portMappings" v = rc := by
        intro v
        cases rc with
        | obj fields => exact absurd ⟨fields, rfl⟩ hrc
        | _ => rfl
      rw [givenPorts, get_insert_self hnetconf, assembleNetconf_runtimeConfig, hget,
        Option.getD_some, hsame, givenPorts, assembleNetconf_runtimeConfig, hget]
  · rfl

/-! ## Which plugins are called -/

/-- Every plugin succeeds. -/
def agreeable (c : ConfList) : Env where
  conflist := .ok c
  conflistAgain := .ok c
  exec _ _ := .ran (.ok .null)
  mkdirErr := none
  anchorErr := none
  unshareErr := none
  removeFails := false

/-- The calls of the loop then. -/
def agreedAdds (id netns : String) (c : ConfList) (mappings : List PortMapping) :
    List Json → Option Json → List (Call × Answer)
  | [], _ => []
  | plugin :: plugins, prev =>
    (addCall id netns c mappings plugin prev, .ran (.ok .null)) ::
      agreedAdds id netns c mappings plugins (some .null)

section reaches

variable {id netns : String} {c : ConfList} {mappings : List PortMapping}

theorem addChain_agreeable (plugins : List Json) (prev : Option Json) (n : Net) :
    (addChain (agreeable c) id netns c mappings plugins prev n).2.calls =
      n.calls ++ agreedAdds id netns c mappings plugins prev := by
  induction plugins generalizing prev n with
  | nil => exact (List.append_nil n.calls).symm
  | cons plugin plugins ih =>
    have htail := ih (some .null) { n with
      calls := n.calls ++ [(addCall id netns c mappings plugin prev, .ran (.ok .null))] }
    rw [List.append_assoc] at htail
    exact htail

/-- Plugins that all succeed are all called. -/
theorem mem_agreedAdds {plugins : List Json} {plugin : Json} (h : plugin ∈ plugins)
    (prev : Option Json) : ∃ prev' answer,
      (addCall id netns c mappings plugin prev', answer) ∈
        agreedAdds id netns c mappings plugins prev := by
  induction plugins generalizing prev with
  | nil => cases h
  | cons p plugins ih =>
    rcases List.mem_cons.1 h with rfl | h
    · exact ⟨prev, _, List.mem_cons_self⟩
    · obtain ⟨prev', answer, hmem⟩ := ih h (some .null)
      exact ⟨prev', answer, List.mem_cons_of_mem _ hmem⟩

theorem setup_agreeable (n : Net) :
    (setup (agreeable c) id netns mappings n).2.calls = n.calls ++
      ((loopbackCall .add id netns c, .ran (.ok .null)) ::
        agreedAdds id netns c mappings c.plugins none) := by
  let n' : Net := { n with calls := n.calls ++ [(loopbackCall .add id netns c, .ran (.ok .null))] }
  have hchain : (addChain (agreeable c) id netns c mappings c.plugins none n').2.calls =
      n'.calls ++ agreedAdds id netns c mappings c.plugins none :=
    addChain_agreeable c.plugins none n'
  have hsnd : (setup (agreeable c) id netns mappings n).2 =
      (addChain (agreeable c) id netns c mappings c.plugins none n').2 := by
    have hloopback : execPlugin (agreeable c) (loopbackCall .add id netns c) n =
        (.ok .null, n') := rfl
    have hconflist : (agreeable c).conflist = .ok c := rfl
    rw [setup, hconflist]
    dsimp only
    rw [hloopback]
    dsimp only
    rcases addChain (agreeable c) id netns c mappings c.plugins none n' with ⟨_ | _ | _, _⟩ <;> rfl
  rw [hsnd, hchain, List.append_assoc]
  rfl

end reaches

/-! ## ADD and DEL -/

/-- For any answers of the plugins and whatever happens between the two: every plugin that `setup`
    calls with port mappings is called by `teardown` with the same ones. -/
def DelSeesAdd (id netns : String) (c : ConfList) (mappings : List PortMapping) : Prop :=
  ∀ (env env' : Env) (n n' : Net) (adds dels : List (Call × Answer)),
    env.conflist = .ok c → env'.conflistAgain = .ok c →
    (setup env id netns mappings n).2.calls = n.calls ++ adds →
    (teardown env' id netns n').calls = n'.calls ++ dels →
    ∀ plugin ∈ c.plugins, ∀ prev answer ports,
      (addCall id netns c mappings plugin prev, answer) ∈ adds →
      givenPorts (addCall id netns c mappings plugin prev).netconf = some ports →
      (∃ answer', (delCall id netns c plugin, answer') ∈ dels) ∧
        givenPorts (delCall id netns c plugin).netconf = some ports

/-- Every plugin of the conflist is called with DEL. -/
theorem mem_teardown {env : Env} {id netns : String} {c : ConfList}
    (hc : env.conflistAgain = .ok c) {n : Net} {dels : List (Call × Answer)}
    (h : (teardown env id netns n).calls = n.calls ++ dels) {plugin : Json}
    (hmem : plugin ∈ c.plugins) : ∃ answer, (delCall id netns c plugin, answer) ∈ dels := by
  obtain ⟨dels', hcalls, hdels⟩ := teardown_calls env id netns n
  rw [h] at hcalls
  cases List.append_cancel_left hcalls
  have hcall : delCall id netns c plugin ∈ dels.map Prod.fst := by
    rw [hdels, teardownCalls, hc]
    exact List.mem_append_left _ (List.mem_map_of_mem (List.mem_reverse.2 hmem))
  obtain ⟨b, hb, hfst⟩ := List.mem_map.1 hcall
  exact ⟨b.2, hfst ▸ hb⟩

/-- **DEL sees the port mappings of ADD** exactly when no plugin of the conflist is given any, but
    for plugins whose own configuration already has these. -/
theorem del_sees_add_iff (id netns : String) (c : ConfList) (mappings : List PortMapping) :
    DelSeesAdd id netns c mappings ↔
      ∀ plugin ∈ c.plugins, Gives mappings plugin →
        givenPorts plugin = some (.arr ((hostPorts mappings).map PortMapping.json)) := by
  constructor
  · intro h plugin hplugin hgives
    obtain ⟨prev, answer, hadd⟩ : ∃ prev answer, (addCall id netns c mappings plugin prev, answer) ∈
        agreedAdds id netns c mappings c.plugins none := mem_agreedAdds hplugin none
    obtain ⟨dels, hdels, -⟩ := teardown_calls (agreeable c) id netns ⟨fun _ => false, []⟩
    have hsame := (h (agreeable c) (agreeable c) ⟨fun _ => false, []⟩ ⟨fun _ => false, []⟩ _ dels
      rfl rfl (setup_agreeable _) hdels plugin hplugin prev answer _
      (List.mem_cons_of_mem _ hadd) (givenPorts_addCall_of_gives id netns c hgives prev)).2
    rwa [givenPorts_delCall] at hsame
  · intro h env env' n n' adds dels _ hc' _ hdels plugin hplugin prev answer ports _ hports
    refine ⟨mem_teardown hc' hdels hplugin, ?_⟩
    rw [givenPorts_delCall]
    by_cases hgives : Gives mappings plugin
    · rw [h plugin hplugin hgives, ← hports, givenPorts_addCall_of_gives id netns c hgives prev]
    · rwa [givenPorts_addCall_of_not id netns c hgives prev] at hports

/-- A conflist with a `portmap` plugin. -/
def portmapList : ConfList :=
  ⟨"1.0.0", "cbr0", [.obj [("type", .str "portmap"),
    ("capabilities", .obj [("portMappings", .bool true)])]]⟩

/-- The host port is given on ADD and not on DEL. -/
theorem portmap_del_without_ports :
    ¬ ∀ (id netns : String) (c : ConfList) (mappings : List PortMapping),
      DelSeesAdd id netns c mappings := by
  intro h
  have hsame := (h "s1" "s1" portmapList [⟨8080, 80, "tcp", ""⟩] (agreeable portmapList)
    (agreeable portmapList) ⟨fun _ => false, []⟩ ⟨fun _ => false, []⟩ _ _ rfl rfl
    (setup_agreeable _) rfl _ List.mem_cons_self none _ _
    (List.mem_cons_of_mem _ List.mem_cons_self) rfl).2
  cases hsame

end ContainerdRs.Sandbox
