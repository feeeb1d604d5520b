import ContainerdRs.CoreTypes
import ContainerdRs.Lib.AnyOrder
import ContainerdRs.Runtime.Capabilities

/-!
# Pull credentials (`crates/images/src/dockercfg.rs`, `resolve_auth` of `pull.rs`)

The docker `config.json` and the order in which it is asked: a `credHelpers` entry, the
`credsStore`, an `auths` entry.  A `HashMap` is the list of its entries in iteration order.
`Codecs` are the two decoders of other crates, `Machine` is what the process finds around it:
the environment, the config files, the `docker-credential-*` programs.

* `resolve_eq` — the three places in their order, as searches.
* `resolve_eq_of_normHost` — only the normalised host of what is asked for matters.
* `resolve_order_independent_iff` — the credential is the same for every iteration order exactly
  when what the matching entries answer is settled.
-/

set_option autoImplicit false

namespace ContainerdRs.Images

/-- `pull::Auth`. -/
inductive Auth where
  | anonymous
  | basic (username password : String)
  | bearer (token : String)
  deriving DecidableEq, Repr

/-- A `HashMap<String, V>`, in one of its iteration orders. -/
structure HashMap (V : Type) where
  entries : List (String × V)
  distinct : (entries.map Prod.fst).Nodup

/-- `AuthEntry`. -/
structure AuthEntry where
  auth : String
  username : String
  password : String
  identityToken : String
  deriving DecidableEq, Repr

/-- `DockerConfig`. -/
structure DockerConfig where
  auths : HashMap AuthEntry
  credHelpers : HashMap String
  credsStore : Option String

/-- `HelperOutput`. -/
structure HelperOutput where
  username : String
  secret : String
  deriving DecidableEq, Repr

/-- The decoders: base64 in the standard alphabet, and the JSON that a helper prints. -/
structure Codecs where
  base64Decode : String → Option Bytes
  helperOutput : Bytes → Option HelperOutput

/-- What the process finds around it. -/
structure Machine where
  /-- `$DOCKER_CONFIG`. -/
  dockerConfigDir : Option String
  /-- `fs::read` and `serde_json::from_slice`: the config at a path, if it can be read and
      parsed. -/
  configAt : String → Option DockerConfig
  /-- A program with the argument `get` and a text on its stdin: whether it exits successfully
      and what it prints, or nothing if it cannot be run and fed. -/
  getFrom : String → String → Option (Bool × Bytes)

/-! ## Hosts -/

/-- `str::strip_prefix`. -/
def stripPrefix (pre s : String) : Option String :=
  if pre.toList <+: s.toList then some (String.ofList (s.toList.drop pre.toList.length)) else none

/-- `split('/').next()`: a split always has a first part. -/
def firstPart (s : String) : String := String.ofList (s.toList.takeWhile (· ≠ '/'))

/-- The Docker Hub aliases that `norm_host` collapses. -/
def hubAliases : List String := ["index.docker.io", "registry-1.docker.io", "docker.io"]

/-- `norm_host`. -/
def normHost (s : String) : String :=
  let s := ((stripPrefix "https://" s).or (stripPrefix "http://" s)).getD s
  let host := firstPart s
  if host ∈ hubAliases then "docker.io" else host

/-! ## Reading the config -/

section

variable (lib : Codecs) (machine : Machine)

/-- `AuthEntry::to_auth`. -/
def AuthEntry.toAuth (e : AuthEntry) : Option Auth :=
  if e.identityToken ≠ "" then some (.bearer e.identityToken)
  else if e.username ≠ "" then some (.basic e.username e.password)
  else if e.auth ≠ "" then do
    let decoded ← lib.base64Decode (String.ofList (Runtime.trim e.auth.toList))
    let s ← String.fromUTF8? ⟨decoded.toArray⟩
    let (u, p) ← splitOnce ':' s
    some (.basic u p)
  else none

/-- `parse_helper_output`. -/
def parseHelperOutput (bytes : Bytes) : Option Auth := do
  let out ← lib.helperOutput bytes
  if out.secret = "" then none
  else if out.username = "<token>" then some (.bearer out.secret)
  else some (.basic out.username out.secret)

/-- `run_helper`. -/
def runHelper (helper registry : String) : Option Auth := do
  let (success, stdout) ← machine.getFrom ("docker-credential-" ++ helper) (normHost registry)
  if success then parseHelperOutput lib stdout else none

/-- `DockerConfig::resolve`. -/
def DockerConfig.resolve (cfg : DockerConfig) (registry : String) : Option Auth :=
  let host := normHost registry
  let fromAuths :=
    (cfg.auths.entries.find? fun e => normHost e.1 == host).bind fun e => e.2.toAuth lib
  let fromStore :=
    match cfg.credsStore with
    | some store =>
      match runHelper lib machine store registry with
      | some a => some a
      | none => fromAuths
    | none => fromAuths
  match cfg.credHelpers.entries.find? fun e => normHost e.1 == host with
  | some (_, helper) =>
    match runHelper lib machine helper registry with
    | some a => some a
    | none => fromStore
  | none => fromStore

/-- `PathBuf::from(dir).join(name)`. -/
def joinPath (dir name : String) : String :=
  if dir = "" ∨ dir.toList.getLast? = some '/' then dir ++ name else dir ++ "/" ++ name

/-- `config_paths`. -/
def configPaths : List String :=
  (machine.dockerConfigDir.map fun dir => joinPath dir "config.json").toList ++
    ["/var/lib/kubelet/config.json", "/root/.docker/config.json"]

/-- `load_default`. -/
def loadDefault : Option DockerConfig := (configPaths machine).findSome? machine.configAt

/-- `resolve_auth`. -/
def resolveAuth (reference : String) (provided : Auth) : Auth :=
  if provided ≠ .anonymous then provided
  else ((loadDefault machine).bind fun c => c.resolve lib machine reference).getD .anonymous

/-! ## The three places in their order -/

/-- The entries of a map whose key stands for the host of `registry`. -/
def matchesHost {V : Type} (registry : String) (e : String × V) : Bool :=
  normHost e.1 == normHost registry

/-- What the `credsStore` answers. -/
def storeAnswer (cfg : DockerConfig) (registry : String) : Option Auth :=
  cfg.credsStore.bind fun store => runHelper lib machine store registry

theorem resolve_eq (cfg : DockerConfig) (registry : String) :
    cfg.resolve lib machine registry =
      ((cfg.credHelpers.entries.find? (matchesHost registry)).bind fun e =>
          runHelper lib machine e.2 registry).or
        ((storeAnswer lib machine cfg registry).or
          ((cfg.auths.entries.find? (matchesHost registry)).bind fun e => e.2.toAuth lib)) := by
  have hhost : ∀ {V : Type}, (fun e : String × V => normHost e.1 == normHost registry) =
      matchesHost registry := rfl
  simp only [DockerConfig.resolve, storeAnswer, hhost]
  cases cfg.credHelpers.entries.find? (matchesHost registry) with
  | none =>
    cases cfg.credsStore with
    | none => rfl
    | some store => cases hs : runHelper lib machine store registry <;> simp [hs]
  | some e =>
    cases hrun : runHelper lib machine e.2 registry with
    | some a => simp [hrun]
    | none =>
      cases cfg.credsStore with
      | none => simp [hrun]
      | some store =>
        cases hs : runHelper lib machine store registry <;> simp [hrun, hs]

theorem runHelper_eq_of_normHost {helper r₁ r₂ : String} (h : normHost r₁ = normHost r₂) :
    runHelper lib machine helper r₁ = runHelper lib machine helper r₂ := by
  unfold runHelper
  rw [h]

theorem resolve_eq_of_normHost (cfg : DockerConfig) {r₁ r₂ : String}
    (h : normHost r₁ = normHost r₂) :
    cfg.resolve lib machine r₁ = cfg.resolve lib machine r₂ := by
  have hmatch : ∀ {V : Type}, matchesHost (V := V) r₁ = matchesHost r₂ := by
    intro V
    funext e
    simp only [matchesHost, h]
  rw [resolve_eq, resolve_eq]
  simp only [storeAnswer, hmatch, runHelper_eq_of_normHost lib machine h]

example : normHost "https://index.docker.io/v1/" = normHost "registry-1.docker.io" := by decide

/-! ## Iteration orders -/

/-- The same config, its maps iterated in other orders. -/
structure DockerConfig.Reordered (cfg cfg' : DockerConfig) : Prop where
  auths : cfg'.auths.entries.Perm cfg.auths.entries
  credHelpers : cfg'.credHelpers.entries.Perm cfg.credHelpers.entries
  credsStore : cfg'.credsStore = cfg.credsStore

/-- The credential for a registry is the same whatever the iteration orders. -/
def OrderIndependent (cfg : DockerConfig) (registry : String) : Prop :=
  ∀ cfg', cfg.Reordered cfg' →
    cfg'.resolve lib machine registry = cfg.resolve lib machine registry

/-- What the helpers named for the host of `registry` answer. -/
def helperAnswers (cfg : DockerConfig) (registry : String) : List (Option Auth) :=
  AnyOrder.answers (matchesHost registry) (fun e => runHelper lib machine e.2 registry)
    cfg.credHelpers.entries

/-- What the `auths` entries for the host of `registry` read to. -/
def authAnswers (cfg : DockerConfig) (registry : String) : List (Option Auth) :=
  AnyOrder.answers (matchesHost registry) (fun e => e.2.toAuth lib) cfg.auths.entries

/-- **The credential does not depend on the iteration orders exactly when the entries for the
    host agree**: keys that normalise to one host may be found in any order. -/
theorem resolve_order_independent_iff (cfg : DockerConfig) (registry : String) :
    OrderIndependent lib machine cfg registry ↔
      AnyOrder.Settled (helperAnswers lib machine cfg registry)
        (storeAnswer lib machine cfg registry) (authAnswers lib cfg registry) := by
  unfold helperAnswers authAnswers
  rw [← AnyOrder.perm_or_eq_iff_settled]
  constructor
  · intro hsame helpers auths hhelpers hauths
    -- a map in another order still has no key twice
    have distinct : ∀ {V : Type} {l : List (String × V)} (m : HashMap V), l.Perm m.entries →
        (l.map Prod.fst).Nodup := fun m hl => (hl.map Prod.fst).nodup_iff.2 m.distinct
    have := hsame ⟨⟨auths, distinct _ hauths⟩, ⟨helpers, distinct _ hhelpers⟩, cfg.credsStore⟩
      ⟨hauths, hhelpers, rfl⟩
    rw [resolve_eq, resolve_eq] at this
    exact this
  · intro hsame cfg' hcfg
    have := hsame _ _ hcfg.credHelpers hcfg.auths
    rw [resolve_eq, resolve_eq]
    simp only [storeAnswer, hcfg.credsStore] at this ⊢
    exact this

end

/-- Two keys for Docker Hub, as a `docker login` and a hand edit leave them: an entry that holds
    nothing and one with a password. -/
def twoHubKeys : List (String × AuthEntry) :=
  [("https://index.docker.io/v1/", ⟨"", "", "", ""⟩), ("docker.io", ⟨"", "u", "p", ""⟩)]

/-- A machine without helper programs and config files, and decoders that are not asked. -/
def bareMachine : Machine := ⟨none, fun _ => none, fun _ _ => none⟩

def bareCodecs : Codecs := ⟨fun _ => none, fun _ => none⟩

/-- One order of the two keys gives the password, the other gives no credential. -/
theorem hub_keys_depend_on_order :
    ∃ cfg cfg' : DockerConfig,
      cfg.auths.entries = twoHubKeys ∧ cfg.Reordered cfg' ∧
      cfg.resolve bareCodecs bareMachine "docker.io" = none ∧
      cfg'.resolve bareCodecs bareMachine "docker.io" = some (.basic "u" "p") ∧
      ¬OrderIndependent bareCodecs bareMachine cfg "docker.io" := by
  let cfg : DockerConfig := ⟨⟨twoHubKeys, by decide⟩, ⟨[], by decide⟩, none⟩
  let cfg' : DockerConfig := ⟨⟨twoHubKeys.reverse, by decide⟩, ⟨[], by decide⟩, none⟩
  have hre : cfg.Reordered cfg' := ⟨List.reverse_perm _, List.Perm.refl _, rfl⟩
  have hnone : cfg.resolve bareCodecs bareMachine "docker.io" = none := by
    rw [resolve_eq]
    rfl
  have hsome : cfg'.resolve bareCodecs bareMachine "docker.io" = some (.basic "u" "p") := by
    rw [resolve_eq]
    rfl
  refine ⟨cfg, cfg', rfl, hre, hnone, hsome, ?_⟩
  intro hsame
  have := hsame cfg' hre
  rw [hnone, hsome] at this
  cases this

end ContainerdRs.Images
