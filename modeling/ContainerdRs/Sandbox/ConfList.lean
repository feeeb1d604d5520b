import Mathlib.Data.String.Basic
import ContainerdRs.Lib.AnyOrder
import ContainerdRs.Cri.NetworkChain

/-!
# The configuration of the pod network (`load_conflist`)

`setup` and `teardown` each look for the configuration by themselves: it is in the first of the
`.conflist` and `.conf` files of the directory.  `read_dir` lists them in any order, and files come
and go between the two.

* `firstConf_eq_some_iff` — which file is the first, in whatever order they are listed.
* `loadConflist_first` — no other file counts.
* `conf_dir_may_change` — while that file stays the first and is not written to, `teardown` undoes
  what `setup` has done.
-/

set_option autoImplicit false

namespace ContainerdRs.Sandbox

open Runtime.Crun (Json)

/-! ## The file -/

/-- What `load_conflist` looks at. -/
structure ConfDir where
  /-- `read_dir`: the names of the entries that can be read, in the order they come in. -/
  entries : Except String (List String)
  /-- `std::fs::read` of an entry. -/
  read : String → Except String Bytes

/-- `serde_json::from_slice`, with the texts of its errors. -/
structure Serde where
  confList : Bytes → Except String ConfList
  value : Bytes → Except String Json

/-- `Path::extension`: what stands behind the last dot, unless that is the first character. -/
def extension (name : String) : Option String :=
  if name = ".." then none
  else
    match name.toList.reverse.span (· ≠ '.') with
    | (after, _ :: _ :: _) => some (String.ofList after.reverse)
    | _ => none

/-- `load_conflist`, the entries it keeps. -/
def isConf (name : String) : Bool :=
  extension name == some "conflist" || extension name == some "conf"

/-- `load_conflist`, the first entry after `sort`. -/
def firstConf (names : List String) : Option String :=
  ((names.filter isConf).insertionSort (· ≤ ·)).head?

/-- `load_conflist`, a plugin as a list of its own. -/
def wrap (plugin : Json) : ConfList where
  cniVersion := ((plugin.get "cniVersion").bind Json.asStr).getD "1.0.0"
  name := ((plugin.get "name").bind Json.asStr).getD "cni"
  plugins := [plugin]

/-- `load_conflist`, what it makes of the file. -/
def parseConf (serde : Serde) (name : String) (bytes : Bytes) : Except Error ConfList :=
  if extension name = some "conflist" then (serde.confList bytes).mapError .json
  else ((serde.value bytes).map wrap).mapError .json

/-- `load_conflist`; `dir` is the directory, displayed. -/
def loadConflist (serde : Serde) (dir : String) (d : ConfDir) : Except Error ConfList :=
  match d.entries with
  | .error e => .error (.io e)
  | .ok names =>
    match firstConf names with
    | none => .error (.noConfList dir)
    | some name =>
      match d.read name with
      | .error e => .error (.io e)
      | .ok bytes => parseConf serde name bytes

theorem firstConf_eq_some_iff {names : List String} {name : String} :
    firstConf names = some name ↔
      name ∈ names ∧ isConf name = true ∧ ∀ n ∈ names, isConf n = true → name ≤ n := by
  rw [firstConf, AnyOrder.head?_insertionSort_eq_some_iff]
  simp only [List.mem_filter, and_imp, and_assoc]

/-- The first file of the directory is `name`, and it can be read. -/
structure First (d : ConfDir) (name : String) (bytes : Bytes) : Prop where
  conf : isConf name = true
  listed : ∃ names, d.entries = .ok names ∧ name ∈ names ∧ ∀ n ∈ names, isConf n = true → name ≤ n
  read : d.read name = .ok bytes

theorem loadConflist_first {d : ConfDir} {name : String} {bytes : Bytes} (h : First d name bytes)
    (serde : Serde) (dir : String) : loadConflist serde dir d = parseConf serde name bytes := by
  obtain ⟨names, hentries, hmem, hle⟩ := h.listed
  have hfirst : firstConf names = some name := firstConf_eq_some_iff.2 ⟨hmem, h.conf, hle⟩
  rw [loadConflist, hentries]
  dsimp only
  rw [hfirst]
  dsimp only
  rw [h.read]

/-! ## Between `setup` and `teardown` -/

/-- **The directory may change.**  Let `d` be the directory when a pod is set up, and `d'` when it
    is torn down.  If both have the same first file with the same bytes, then in whatever order they
    are listed, and whatever has become of the other files, `teardown` undoes all ADD calls of
    `setup`; and neither calls a plugin if that file cannot be parsed. -/
theorem conf_dir_may_change (serde : Serde) (dir : String) (d d' : ConfDir) (name : String)
    (bytes : Bytes) (hd : First d name bytes) (hd' : First d' name bytes) (env env' : Env)
    (henv : env.conflist = loadConflist serde dir d)
    (henv' : env'.conflistAgain = loadConflist serde dir d') (id netns : String)
    (mappings : List PortMapping) (n : Net) :
    (∀ c, parseConf serde name bytes = .ok c →
      AddsUndone id netns c n (teardown env' id netns (setup env id netns mappings n).2)) ∧
    ∀ e, parseConf serde name bytes = .error e →
      (teardown env' id netns (setup env id netns mappings n).2).calls = n.calls := by
  rw [loadConflist_first hd] at henv
  rw [loadConflist_first hd'] at henv'
  constructor
  · intro c hc
    exact setup_undone (henv.trans hc) (henv'.trans hc) n
  · intro e he
    obtain ⟨dels, hcalls, hdels⟩ := teardown_calls env' id netns (setup env id netns mappings n).2
    rw [teardownCalls, henv'.trans he, List.map_eq_nil_iff] at hdels
    rw [hcalls, hdels, List.append_nil, setup_of_error (henv.trans he)]

/-- A directory with one configuration and a note. -/
def confDir : ConfDir where
  entries := .ok ["README", "10-cbr.conflist"]
  read _ := .ok []

/-- The note is gone, and there is another configuration, behind the first. -/
def laterConfDir : ConfDir where
  entries := .ok ["99-loopback.conf", "10-cbr.conflist"]
  read name := if name = "10-cbr.conflist" then .ok [] else .error "permission denied"

/-- Every `.conflist` is a list of one plugin. -/
def sampleSerde : Serde where
  confList _ := .ok ⟨"1.0.0", "cbr0", [.obj [("type", .str "bridge")]]⟩
  value _ := .ok .null

theorem later_conf_undone :
    AddsUndone "s1" "s1" ⟨"1.0.0", "cbr0", [.obj [("type", .str "bridge")]]⟩ ⟨fun _ => false, []⟩
      (teardown { agreeable ⟨"", "", []⟩ with
          conflistAgain := loadConflist sampleSerde "/etc/cni/net.d" laterConfDir } "s1" "s1"
        (setup { agreeable ⟨"", "", []⟩ with
          conflist := loadConflist sampleSerde "/etc/cni/net.d" confDir } "s1" "s1" []
            ⟨fun _ => false, []⟩).2) := by
  have hd : First confDir "10-cbr.conflist" [] := by
    refine ⟨by decide, ⟨_, rfl, by decide, ?_⟩, rfl⟩
    decide
  have hd' : First laterConfDir "10-cbr.conflist" [] := by
    refine ⟨by decide, ⟨_, rfl, by decide, ?_⟩, rfl⟩
    decide
  exact (conf_dir_may_change sampleSerde "/etc/cni/net.d" confDir laterConfDir "10-cbr.conflist" []
    hd hd' { agreeable ⟨"", "", []⟩ with conflist := _ } { agreeable ⟨"", "", []⟩ with
      conflistAgain := _ } rfl rfl "s1" "s1" [] ⟨fun _ => false, []⟩).1 _ rfl

end ContainerdRs.Sandbox
