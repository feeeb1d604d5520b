import ContainerdRs.Cri.RunPodSandbox
import ContainerdRs.Sandbox.PortMappings

/-!
# The order of the network plugins (`Cni::setup`, `Cni::teardown`)

`setup` calls the loopback plugin and then the plugins of the conflist, each with the result of the
one before, up to the first failure; `teardown` calls all of them in reverse, whatever they answer,
and removes the namespace last.  `run_pod_sandbox` does both when the network fails.

* `addCall_prevResult` — the `prevResult` that a plugin is given.
* `Chain` — the calls of the loop over the plugins; `chain_addChain`, by induction on the plugins.
* `setup_inOrder`, `teardown_inOrder` — the calls of the two.
* `cni_chain_order` — the order of the calls, and that every ADD is undone.
-/

set_option autoImplicit false

namespace ContainerdRs.Sandbox

open Runtime.Crun (Json)

variable {id netns : String} {c : ConfList} {mappings : List PortMapping}

/-- A plugin of a conflist: an object that brings no `prevResult` of its own. -/
structure IsPlugin (plugin : Json) : Prop where
  object : IsObject plugin
  noPrevResult : plugin.get "prevResult" = none

/-- A plugin is given the result of the one before. -/
theorem addCall_prevResult {plugin : Json} (h : IsPlugin plugin) (prev : Option Json) :
    (addCall id netns c mappings plugin prev).netconf.get "prevResult" = prev := by
  have hbase := isObject_insert (isObject_insert h.object "cniVersion" (.str c.cniVersion)) "name"
    (.str c.name)
  rw [addCall, injectPortMappings_get_ne (by decide)]
  cases prev with
  | none =>
    rw [assembleNetconf, Json.get_insert_ne (by decide), Json.get_insert_ne (by decide)]
    exact h.noPrevResult
  | some prev => exact get_insert_self hbase "prevResult" prev

/-! ## The loop over the plugins -/

/-- The calls `adds` of the plugins, the first of which is given `prev`, and the answer. -/
structure Chain {ρ : Type} (id netns : String) (c : ConfList) (mappings : List PortMapping)
    (plugins : List Json) (prev : Option Json) (adds : List (Call × Answer))
    (result : Except Error ρ) : Prop where
  /-- Call `i` is the ADD call of plugin `i`. -/
  call : ∀ (i : Nat) (a : Call × Answer), adds[i]? = some a →
    ∃ plugin prev', plugins[i]? = some plugin ∧ a.1 = addCall id netns c mappings plugin prev'
  first : ∀ a : Call × Answer, adds[0]? = some a → a.1.netconf.get "prevResult" = prev
  /-- Where there is a next call, this one has succeeded, and its result is handed on. -/
  next : ∀ (i : Nat) (a b : Call × Answer), adds[i]? = some a → adds[i + 1]? = some b →
    ∃ r, a.2.result = .ok r ∧ b.1.netconf.get "prevResult" = some r
  /-- Without a failure every plugin is called. -/
  complete : (∀ a ∈ adds, ∀ e, a.2.result ≠ .error e) → adds.length = plugins.length
  failed : ∀ a ∈ adds, ∀ e, a.2.result = .error e → result = .error e

theorem chain_nil {ρ : Type} (prev : Option Json) (result : Except Error ρ) :
    Chain id netns c mappings [] prev [] result where
  call i a h := by cases h
  first a h := by cases h
  next i a b h := by cases h
  complete _ := rfl
  failed a h := by cases h

/-- The loop stops at a plugin that fails. -/
theorem chain_failed {ρ : Type} {plugin : Json} (hplugin : IsPlugin plugin) (plugins : List Json)
    (prev : Option Json) {answer : Answer} {e : Error} (he : answer.result = .error e) :
    Chain id netns c mappings (plugin :: plugins) prev
      [(addCall id netns c mappings plugin prev, answer)] (.error e : Except Error ρ) where
  call i a h := by
    cases i with
    | zero =>
      cases h
      exact ⟨plugin, prev, rfl, rfl⟩
    | succ i => cases h
  first a h := by
    cases h
    exact addCall_prevResult hplugin prev
  next i a b _ h := by cases h
  complete h := absurd he (h _ List.mem_cons_self e)
  failed a h e' he' := by
    rw [List.mem_singleton.1 h, he] at he'
    cases he'
    rfl

/-- Behind a plugin that succeeds the loop goes on with its result. -/
theorem chain_cons {ρ : Type} {plugin : Json} (hplugin : IsPlugin plugin) {plugins : List Json}
    (prev : Option Json) {answer : Answer} {r : Json} (hr : answer.result = .ok r)
    {adds : List (Call × Answer)} {result : Except Error ρ}
    (h : Chain id netns c mappings plugins (some r) adds result) :
    Chain id netns c mappings (plugin :: plugins) prev
      ((addCall id netns c mappings plugin prev, answer) :: adds) result where
  call i a ha := by
    cases i with
    | zero =>
      cases ha
      exact ⟨plugin, prev, rfl, rfl⟩
    | succ i => exact h.call i a ha
  first a ha := by
    cases ha
    exact addCall_prevResult hplugin prev
  next i a b ha hb := by
    cases i with
    | zero =>
      cases ha
      exact ⟨r, hr, h.first b hb⟩
    | succ i => exact h.next i a b ha hb
  complete hall := by
    rw [List.length_cons, List.length_cons,
      h.complete fun a ha => hall a (List.mem_cons_of_mem _ ha)]
  failed a ha e he := by
    rcases List.mem_cons.1 ha with rfl | ha
    · rw [hr] at he
      cases he
    · exact h.failed a ha e he

/-- Another answer with the same error. -/
theorem Chain.of_error {ρ ρ' : Type} {plugins : List Json} {prev : Option Json}
    {adds : List (Call × Answer)} {result : Except Error ρ} {result' : Except Error ρ'}
    (h : Chain id netns c mappings plugins prev adds result)
    (herror : ∀ e, result = .error e → result' = .error e) :
    Chain id netns c mappings plugins prev adds result' :=
  ⟨h.call, h.first, h.next, h.complete, fun a ha e he => herror e (h.failed a ha e he)⟩

/-- Induction on the plugins: the calls are a chain, and nothing else changes. -/
theorem chain_addChain (env : Env) {plugins : List Json} (hplugins : ∀ p ∈ plugins, IsPlugin p)
    (prev : Option Json) (n : Net) :
    ∃ adds, (addChain env id netns c mappings plugins prev n).2 =
        { n with calls := n.calls ++ adds } ∧
      Chain id netns c mappings plugins prev adds
        (addChain env id netns c mappings plugins prev n).1 := by
  induction plugins generalizing prev n with
  | nil => exact ⟨[], by simp [addChain], chain_nil prev _⟩
  | cons plugin plugins ih =>
    have hplugin := hplugins plugin List.mem_cons_self
    have hrest : ∀ p ∈ plugins, IsPlugin p := fun p hp => hplugins p (List.mem_cons_of_mem _ hp)
    let call := addCall id netns c mappings plugin prev
    let answer := env.exec n.calls.length call
    have hexec : execPlugin env call n =
        (answer.result, { n with calls := n.calls ++ [(call, answer)] }) := rfl
    rw [addChain, hexec]
    cases hanswer : answer.result with
    | error e => exact ⟨[(call, answer)], rfl, chain_failed hplugin plugins prev hanswer⟩
    | ok r =>
      obtain ⟨adds, hnet, hchain⟩ := ih hrest (some r)
        { n with calls := n.calls ++ [(call, answer)] }
      refine ⟨(call, answer) :: adds, ?_, chain_cons hplugin prev hanswer hchain⟩
      dsimp only
      rw [hnet, List.append_assoc]
      rfl

/-! ## `setup` and `teardown` -/

/-- `setup` calls the loopback plugin and, unless it fails, the plugins of the conflist. -/
def SetupInOrder (env : Env) (id netns : String) (c : ConfList) (mappings : List PortMapping)
    (n : Net) : Prop :=
  ∃ loopback adds, (setup env id netns mappings n).2 =
      { n with calls := n.calls ++ (loopbackCall .add id netns c, loopback) :: adds } ∧
    (∀ e, loopback.result = .error e →
      adds = [] ∧ (setup env id netns mappings n).1 = .error e) ∧
    ∀ r, loopback.result = .ok r →
      Chain id netns c mappings c.plugins none adds (setup env id netns mappings n).1

/-- `teardown` calls the plugins in reverse order and then the loopback plugin, each once, and
    deletes the namespace after that. -/
def TeardownInOrder (env : Env) (id netns : String) (c : ConfList) (n : Net) : Prop :=
  ∃ dels, teardown env id netns n = deleteNetns env netns { n with calls := n.calls ++ dels } ∧
    dels.map Prod.fst = c.plugins.reverse.map (delCall id netns c) ++
      [loopbackCall .del id netns c]

theorem setup_inOrder (hplugins : ∀ p ∈ c.plugins, IsPlugin p) {env : Env}
    (hc : env.conflist = .ok c) (n : Net) : SetupInOrder env id netns c mappings n := by
  let call := loopbackCall .add id netns c
  let answer := env.exec n.calls.length call
  have hexec : execPlugin env call n =
      (answer.result, { n with calls := n.calls ++ [(call, answer)] }) := rfl
  unfold SetupInOrder
  rw [setup, hc]
  dsimp only
  rw [hexec]
  cases hanswer : answer.result with
  | error e =>
    refine ⟨answer, [], rfl, ?_, ?_⟩
    · intro e' he'
      rw [hanswer] at he'
      cases he'
      exact ⟨rfl, rfl⟩
    · intro r hr
      rw [hanswer] at hr
      cases hr
  | ok r =>
    obtain ⟨adds, hnet, hchain⟩ := @chain_addChain id netns c mappings env c.plugins hplugins none
      { n with calls := n.calls ++ [(call, answer)] }
    have hcalls : (n.calls ++ [(call, answer)]) ++ adds = n.calls ++ (call, answer) :: adds := by
      rw [List.append_assoc]
      rfl
    dsimp only at hnet ⊢
    rw [hcalls] at hnet
    refine ⟨answer, adds, ?_, ?_, ?_⟩
    · rw [← hnet]
      rcases addChain env id netns c mappings c.plugins none _ with ⟨_ | _ | _, _⟩ <;> rfl
    · intro e he
      rw [hanswer] at he
      cases he
    · intro r' _
      refine hchain.of_error ?_
      intro e he
      rcases hout : addChain env id netns c mappings c.plugins none _ with ⟨_ | _, n'⟩
      · rw [hout] at he
        cases he
        rfl
      · rw [hout] at he
        cases he

theorem teardown_inOrder {env : Env} (hc : env.conflistAgain = .ok c) (n : Net) :
    TeardownInOrder env id netns c n := by
  obtain ⟨dels, hcalls, hdels⟩ := execAll_calls env (teardownCalls env id netns) n
  have hanchors := execAll_anchors env (teardownCalls env id netns) n
  refine ⟨dels, ?_, ?_⟩
  · rw [teardown]
    congr 1
    rcases hout : execAll env (teardownCalls env id netns) n with ⟨anchors, calls⟩
    rw [hout] at hcalls hanchors
    rw [← hanchors, ← hcalls]
  · rw [hdels, teardownCalls, hc]
    rfl

/-- Whatever the calls before, `teardown` undoes those of a `setup` of the same conflist. -/
theorem teardown_undoes {env : Env} (hc : env.conflistAgain = .ok c) (n : Net) :
    ∃ dels, (teardown env id netns n).calls = n.calls ++ dels ∧
      dels.map Prod.fst = delCalls id netns c ∧
      ∀ call, AddCall id netns c call → ∃ b ∈ dels, Undoes b.1 call := by
  obtain ⟨dels, hcalls, hdels⟩ := teardown_calls env id netns n
  refine ⟨dels, hcalls, by rw [hdels, teardownCalls, hc], ?_⟩
  intro call hadd
  obtain ⟨b, hb, hundoes⟩ := teardownCalls_of_unchanged hc hadd
  rw [← hdels] at hb
  obtain ⟨b', hb', rfl⟩ := List.mem_map.1 hb
  exact ⟨b', hb', hundoes⟩

/-- The calls `adds`, and behind them the DEL calls of the whole conflist, which undo them. -/
def AddsUndone (id netns : String) (c : ConfList) (n n' : Net) : Prop :=
  ∃ adds dels, n'.calls = n.calls ++ adds ++ dels ∧ dels.map Prod.fst = delCalls id netns c ∧
    ∀ a ∈ adds, a.1.command = .add ∧ ∃ b ∈ dels, Undoes b.1 a.1

theorem addsUndone_teardown {env : Env} (hc : env.conflistAgain = .ok c) {n n' : Net}
    {adds : List (Call × Answer)} (hcalls : n'.calls = n.calls ++ adds)
    (hadds : ∀ a ∈ adds, AddCall id netns c a.1) :
    AddsUndone id netns c n (teardown env id netns n') := by
  obtain ⟨dels, hdel, hmap, hundoes⟩ := @teardown_undoes id netns c env hc n'
  refine ⟨adds, dels, ?_, hmap, fun a ha => ⟨(hadds a ha).command, hundoes a.1 (hadds a ha)⟩⟩
  rw [hdel, hcalls]

theorem setup_undone {env env' : Env} (hc : env.conflist = .ok c)
    (hc' : env'.conflistAgain = .ok c) (n : Net) :
    AddsUndone id netns c n (teardown env' id netns (setup env id netns mappings n).2) := by
  obtain ⟨adds, hadds⟩ := adds_setup hc id netns mappings n
  exact addsUndone_teardown hc' hadds.calls hadds.add

end ContainerdRs.Sandbox

namespace ContainerdRs.Cri.RunPod

open Sandbox Fallible

/-! ## `run_pod_sandbox` -/

theorem attach_adds {env : Env} {c : ConfList} (hc : env.cni.conflist = .ok c)
    (mappings : List PortMapping) (n : Net) :
    ∃ adds, (attach env mappings n).2.calls = n.calls ++ adds ∧
      ∀ a ∈ adds, AddCall env.id env.id c a.1 := by
  have hsame := createNetns_calls env.cni env.id n
  rcases hcreate : createNetns env.cni env.id n with ⟨e | _, n'⟩
  · rw [hcreate] at hsame
    refine ⟨[], ?_, by simp⟩
    rw [attach, hcreate, List.append_nil]
    exact hsame
  · rw [hcreate] at hsame
    obtain ⟨adds, hadds⟩ := adds_setup hc env.id env.id (mappings.map PortMapping.cni) n'
    refine ⟨_, ?_, hadds.add⟩
    rw [attach, hcreate]
    dsimp only at hsame ⊢
    rw [hadds.calls, hsame]

/-- A network that fails is torn down. -/
theorem network_failed {env : Env} {config : PodSandboxConfig} {mappings : List PortMapping}
    {c : ConfList} (hc : env.cni.conflist = .ok c) (hc' : env.cni.conflistAgain = .ok c) {w : World}
    {st : Status} (h : (exec (network env config mappings) w).1 = .error st) :
    AddsUndone env.id env.id c w.net (exec (network env config mappings) w).2.net := by
  cases hhost : hostNetwork config with
  | true =>
    rw [exec_network_host hhost] at h
    cases h
  | false =>
    rcases hattach : attach env mappings w.net with ⟨e | ip, n⟩
    · obtain ⟨adds, hcalls, hadds⟩ := attach_adds hc mappings w.net
      rw [hattach] at hcalls
      rw [exec_network_error hhost hattach]
      exact addsUndone_teardown hc' hcalls hadds
    · rw [exec_network_ok hhost hattach] at h
      cases h

end ContainerdRs.Cri.RunPod

namespace ContainerdRs.Cri

open Sandbox Fallible RunPod

/-- **The order of the plugins**: `setup` calls the loopback plugin and then the plugins in the
    order of the conflist, each with the result of the one before, and nothing after a failure;
    `teardown` calls them in reverse order, each once, and deletes the namespace last; so a
    `teardown` after a `setup`, as in `run_pod_sandbox` when the network fails, undoes every ADD. -/
theorem cni_chain_order {c : ConfList} (hplugins : ∀ p ∈ c.plugins, IsPlugin p)
    (id netns : String) (mappings : List Sandbox.PortMapping) :
    (∀ (env : Sandbox.Env) (n : Net), env.conflist = .ok c →
      SetupInOrder env id netns c mappings n) ∧
    (∀ (env : Sandbox.Env) (n : Net), env.conflistAgain = .ok c →
      TeardownInOrder env id netns c n) ∧
    (∀ (env env' : Sandbox.Env) (n : Net), env.conflist = .ok c → env'.conflistAgain = .ok c →
      AddsUndone id netns c n (teardown env' id netns (setup env id netns mappings n).2)) ∧
    ∀ (env : RunPod.Env) (config : PodSandboxConfig) (ports : List RunPod.PortMapping)
      (w : RunPod.World) (st : Status), env.cni.conflist = .ok c → env.cni.conflistAgain = .ok c →
      (exec (network env config ports) w).1 = .error st →
      AddsUndone env.id env.id c w.net (exec (network env config ports) w).2.net :=
  ⟨fun _ n hc => setup_inOrder hplugins hc n, fun _ n hc => teardown_inOrder hc n,
    fun _ _ n hc hc' => setup_undone hc hc' n, fun _ _ _ _ _ hc hc' h => network_failed hc hc' h⟩

/-- Two plugins, the second of which fails. -/
def failingList : ConfList :=
  ⟨"1.0.0", "cbr0", [.obj [("type", .str "bridge")], .obj [("type", .str "portmap")]]⟩

/-- The failing plugin is DELed first, then the one that had succeeded. -/
theorem second_plugin_fails :
    AddsUndone "s1" "s1" failingList ⟨fun _ => false, []⟩
      (teardown (agreeable failingList) "s1" "s1"
        (setup { agreeable failingList with
          exec := fun k _ =>
            .ran (if k = 2 then .error (.plugin "portmap" "exit=1") else .ok .null) }
          "s1" "s1" [] ⟨fun _ => false, []⟩).2) := by
  have hplugins : ∀ p ∈ failingList.plugins, IsPlugin p := by
    intro p hp
    simp only [failingList, List.mem_cons, List.not_mem_nil, or_false] at hp
    rcases hp with rfl | rfl
    · exact ⟨⟨_, rfl⟩, rfl⟩
    · exact ⟨⟨_, rfl⟩, rfl⟩
  exact (cni_chain_order hplugins "s1" "s1" []).2.2.1 _ _ _ rfl rfl

end ContainerdRs.Cri
