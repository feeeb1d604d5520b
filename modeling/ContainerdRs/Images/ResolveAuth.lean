import Mathlib.Data.List.TakeWhile
import ContainerdRs.Images.DockerCfg

/-!
# Whose credentials a pull uses (`resolve_auth` of `crates/images/src/pull.rs`)

`resolve_auth` hands the whole image reference to `DockerConfig::resolve`, whose `norm_host` takes
everything up to the first `/` for the host.  The registry client splits the reference by its own
rule.  `RegistryClient` is that client, `contactedHost` the rule it splits by.

* `normHost_contactedHost_iff` — for which references the two find the same host.
* `credentials_follow_registry_iff` — for exactly these the docker config is consulted under the
  host that is contacted.
-/

set_option autoImplicit false

namespace ContainerdRs.Images

/-- A first component that names a registry. -/
def hostLike (s : String) : Bool :=
  s == "localhost" || s.toList.contains '.' || s.toList.contains ':'

/-- The reference starts with the registry it is pulled from. -/
def NamesRegistry (reference : String) : Prop :=
  '/' ∈ reference.toList ∧ hostLike (firstPart reference) = true

instance (reference : String) : Decidable (NamesRegistry reference) :=
  inferInstanceAs (Decidable (_ ∧ _))

/-- The host that a pull of `reference` contacts. -/
def contactedHost (reference : String) : String :=
  if NamesRegistry reference then firstPart reference else "docker.io"

/-- The reference parser of the registry client. -/
structure RegistryClient where
  accepts : String → Prop
  registry : String → String
  registry_eq : ∀ r, accepts r → registry r = contactedHost r
  /-- The components of a reference are not empty. -/
  no_empty_part : ∀ r, accepts r → ¬"//".toList <:+: r.toList

/-! ## Hosts of references -/

theorem stripPrefix_eq_none {pre s : String} (h : ¬pre.toList <+: s.toList) :
    stripPrefix pre s = none := by
  unfold stripPrefix
  rw [if_neg h]

/-- A text without `//` has no scheme to strip. -/
theorem normHost_eq {s : String} (h : ¬"//".toList <:+: s.toList) :
    normHost s = if firstPart s ∈ hubAliases then "docker.io" else firstPart s := by
  have hscheme : ∀ pre : String, "//".toList <:+: pre.toList → stripPrefix pre s = none := by
    intro pre hpre
    apply stripPrefix_eq_none
    intro hp
    exact h (hpre.trans hp.isInfix)
  have hhttps := hscheme "https://" (by decide)
  have hhttp := hscheme "http://" (by decide)
  unfold normHost
  rw [hhttps, hhttp]
  rfl

theorem slash_notMem_firstPart (s : String) : '/' ∉ (firstPart s).toList := by
  unfold firstPart
  rw [String.toList_ofList]
  intro h
  simpa using List.mem_takeWhile_imp h

/-- A text without `/` is its own first part. -/
theorem firstPart_eq_self {s : String} (h : '/' ∉ s.toList) : firstPart s = s := by
  unfold firstPart
  rw [List.takeWhile_eq_self_iff.2, String.ofList_toList]
  intro c hc
  rw [decide_eq_true_eq]
  intro heq
  exact h (heq ▸ hc)

theorem no_empty_part_of_no_slash {s : String} (h : '/' ∉ s.toList) :
    ¬"//".toList <:+: s.toList := by
  intro hinf
  exact h (hinf.subset (by decide))

/-- The host is read off the first component. -/
theorem normHost_firstPart {s : String} (h : ¬"//".toList <:+: s.toList) :
    normHost (firstPart s) = normHost s := by
  have hslash := slash_notMem_firstPart s
  rw [normHost_eq h, normHost_eq (no_empty_part_of_no_slash hslash), firstPart_eq_self hslash]

theorem hostLike_of_alias {s : String} (h : s ∈ hubAliases) : hostLike s = true := by
  have hall : ∀ a ∈ hubAliases, hostLike a = true := by decide
  exact hall s h

theorem slash_notMem_alias {s : String} (h : s ∈ hubAliases) : '/' ∉ s.toList := by
  have hall : ∀ a ∈ hubAliases, '/' ∉ a.toList := by decide
  exact hall s h

/-- `norm_host` finds the host that is contacted in a reference that names its registry, and in
    the one-word references that look like Docker Hub itself. -/
theorem normHost_contactedHost_iff {reference : String}
    (h : ¬"//".toList <:+: reference.toList) :
    normHost reference = normHost (contactedHost reference) ↔
      NamesRegistry reference ∨ reference ∈ hubAliases := by
  unfold contactedHost
  split
  · rename_i hnames
    exact ⟨fun _ => Or.inl hnames, fun _ => (normHost_firstPart h).symm⟩
  · rename_i hnames
    have hhub : normHost "docker.io" = "docker.io" := by decide
    rw [hhub, normHost_eq h]
    constructor
    · intro heq
      have halias : firstPart reference ∈ hubAliases := by
        by_contra hnot
        rw [if_neg hnot] at heq
        exact hnot (heq ▸ by decide)
      -- a reference with a `/` after an alias names its registry
      have hslash : '/' ∉ reference.toList := fun hslash =>
        hnames ⟨hslash, hostLike_of_alias halias⟩
      rw [firstPart_eq_self hslash] at halias
      exact Or.inr halias
    · rintro (hn | halias)
      · exact absurd hn hnames
      · rw [firstPart_eq_self (slash_notMem_alias halias), if_pos halias]

/-! ## Consulting the docker config -/

variable (lib : Codecs)

/-- What the docker config of a machine holds for a host. -/
def credentialOf (machine : Machine) (host : String) : Auth :=
  ((loadDefault machine).bind fun c => c.resolve lib machine host).getD .anonymous

/-- A config that has nothing but `auths` entries. -/
structure OnlyAuths (machine : Machine) (cfg : DockerConfig) : Prop where
  loaded : loadDefault machine = some cfg
  noHelpers : cfg.credHelpers.entries = []
  noStore : cfg.credsStore = none

/-- Without a credential of the kubelet, the pull of `reference` uses what the docker config
    holds for `host`. -/
structure FollowsRegistry (reference host : String) : Prop where
  consults : ∀ machine,
    resolveAuth lib machine reference .anonymous = credentialOf lib machine host
  /-- An `auths` entry for the host is used. -/
  used : ∀ machine cfg a, OnlyAuths machine cfg →
    (∃ e ∈ cfg.auths.entries, matchesHost host e = true) →
    (∀ e ∈ cfg.auths.entries, matchesHost host e = true → e.2.toAuth lib = some a) →
      resolveAuth lib machine reference .anonymous = a
  /-- An `auths` entry for another host never is. -/
  never : ∀ machine cfg, OnlyAuths machine cfg →
    (∀ e ∈ cfg.auths.entries, matchesHost host e = false) →
      resolveAuth lib machine reference .anonymous = .anonymous

theorem resolveAuth_anonymous (machine : Machine) (reference : String) :
    resolveAuth lib machine reference .anonymous = credentialOf lib machine reference := by
  unfold resolveAuth
  rw [if_neg (by simp)]
  rfl

theorem credentialOf_onlyAuths {machine : Machine} {cfg : DockerConfig}
    (h : OnlyAuths machine cfg) (host : String) :
    credentialOf lib machine host =
      ((cfg.auths.entries.find? (matchesHost host)).bind fun e => e.2.toAuth lib).getD
        .anonymous := by
  unfold credentialOf
  rw [h.loaded, Option.bind_some, resolve_eq, h.noHelpers, storeAnswer, h.noStore]
  rfl

theorem followsRegistry_of_normHost {reference host : String}
    (h : normHost reference = normHost host) : FollowsRegistry lib reference host := by
  have hconsults : ∀ machine,
      resolveAuth lib machine reference .anonymous = credentialOf lib machine host := by
    intro machine
    have hresolve : (fun c => DockerConfig.resolve lib machine c reference) =
        fun c => c.resolve lib machine host :=
      funext fun c => resolve_eq_of_normHost lib machine c h
    rw [resolveAuth_anonymous, credentialOf, credentialOf, hresolve]
  constructor
  · exact hconsults
  · intro machine cfg a honly ⟨e, he, hmatch⟩ hall
    rw [hconsults, credentialOf_onlyAuths lib honly]
    obtain ⟨found, hfound⟩ :=
      Option.isSome_iff_exists.1 (List.find?_isSome.2 ⟨e, he, hmatch⟩)
    have hread := hall found (List.mem_of_find?_eq_some hfound) (List.find?_some hfound)
    rw [hfound, Option.bind_some, hread]
    rfl
  · intro machine cfg honly hall
    have hfind : cfg.auths.entries.find? (matchesHost host) = none := by
      rw [List.find?_eq_none]
      intro e he
      rw [hall e he]
      exact Bool.false_ne_true
    rw [hconsults, credentialOf_onlyAuths lib honly, hfind]
    rfl

/-- A config with one password, for `key`. -/
def oneLogin (key : String) : DockerConfig where
  auths := ⟨[(key, ⟨"", "u", "p", ""⟩)], List.nodup_singleton key⟩
  credHelpers := ⟨[], List.nodup_nil⟩
  credsStore := none

/-- A machine whose kubelet config has one password. -/
def loggedInTo (key : String) : Machine where
  dockerConfigDir := none
  configAt path := if path = "/var/lib/kubelet/config.json" then some (oneLogin key) else none
  getFrom _ _ := none

theorem onlyAuths_loggedInTo (key : String) : OnlyAuths (loggedInTo key) (oneLogin key) := by
  refine ⟨?_, rfl, rfl⟩
  have hkubelet : (loggedInTo key).configAt "/var/lib/kubelet/config.json" =
      some (oneLogin key) := by
    simp only [loggedInTo, if_true]
  unfold loadDefault configPaths
  rw [show (loggedInTo key).dockerConfigDir = none from rfl, Option.map_none, Option.toList_none,
    List.nil_append, List.findSome?_cons, hkubelet]

theorem credentialOf_loggedInTo (key host : String) :
    credentialOf lib (loggedInTo key) host =
      if normHost key = normHost host then .basic "u" "p" else .anonymous := by
  have hread : AuthEntry.toAuth lib ⟨"", "u", "p", ""⟩ = some (.basic "u" "p") := by
    simp [AuthEntry.toAuth]
  rw [credentialOf_onlyAuths lib (onlyAuths_loggedInTo key)]
  unfold oneLogin
  by_cases h : normHost key = normHost host
  · have hmatch : matchesHost host (key, (⟨"", "u", "p", ""⟩ : AuthEntry)) = true := by
      simp [matchesHost, h]
    rw [if_pos h, List.find?_cons_of_pos hmatch, Option.bind_some, hread]
    rfl
  · have hmatch : ¬matchesHost host (key, (⟨"", "u", "p", ""⟩ : AuthEntry)) = true := by
      simp [matchesHost, h]
    rw [if_neg h, List.find?_cons_of_neg hmatch, List.find?_nil]
    rfl

/-- **The docker config is consulted under the host that is contacted for exactly the references
    that name their registry, and for the aliases of Docker Hub themselves.**  Every other Docker
    Hub reference is looked up under its own first component. -/
theorem credentials_follow_registry_iff (client : RegistryClient) (reference : String)
    (haccepted : client.accepts reference) :
    FollowsRegistry lib reference (client.registry reference) ↔
      NamesRegistry reference ∨ reference ∈ hubAliases := by
  have hparts := client.no_empty_part reference haccepted
  rw [client.registry_eq reference haccepted, ← normHost_contactedHost_iff hparts]
  constructor
  · intro hfollows
    -- one password, for the host that is contacted
    have hsame := hfollows.consults (loggedInTo (contactedHost reference))
    rw [resolveAuth_anonymous, credentialOf_loggedInTo, credentialOf_loggedInTo, if_pos rfl]
      at hsame
    by_contra hne
    rw [if_neg (Ne.symm hne)] at hsame
    cases hsame
  · exact followsRegistry_of_normHost lib

/-- A registry client that accepts every reference without an empty component. -/
def splittingClient : RegistryClient where
  accepts r := ¬"//".toList <:+: r.toList
  registry := contactedHost
  registry_eq _ _ := rfl
  no_empty_part _ h := h

theorem credentials_follow_named_registry :
    FollowsRegistry bareCodecs "ghcr.io/org/app:v1"
      (splittingClient.registry "ghcr.io/org/app:v1") :=
  (credentials_follow_registry_iff bareCodecs splittingClient "ghcr.io/org/app:v1"
    (by unfold splittingClient; decide)).2 (Or.inl (by decide))

/-- A login to Docker Hub is used for `docker.io/library/nginx:1.25` and not for `nginx:1.25`;
    for `team/app`, which is pulled from Docker Hub too, the password of the host `team` is. -/
theorem hub_reference_misses_login :
    splittingClient.accepts "nginx:1.25" ∧ splittingClient.accepts "team/app" ∧
      resolveAuth bareCodecs (loggedInTo "https://index.docker.io/v1/")
        "docker.io/library/nginx:1.25" .anonymous = .basic "u" "p" ∧
      resolveAuth bareCodecs (loggedInTo "https://index.docker.io/v1/")
        "nginx:1.25" .anonymous = .anonymous ∧
      ¬FollowsRegistry bareCodecs "nginx:1.25" (splittingClient.registry "nginx:1.25") ∧
      splittingClient.registry "team/app" = "docker.io" ∧
      resolveAuth bareCodecs (loggedInTo "team") "team/app" .anonymous = .basic "u" "p" := by
  have hread : ∀ key reference, resolveAuth bareCodecs (loggedInTo key) reference .anonymous =
      if normHost key = normHost reference then .basic "u" "p" else .anonymous := by
    intro key reference
    rw [resolveAuth_anonymous, credentialOf_loggedInTo]
  have hmiss : resolveAuth bareCodecs (loggedInTo "https://index.docker.io/v1/")
      "nginx:1.25" .anonymous = .anonymous := by
    rw [hread, if_neg (by decide)]
  have hparts : ∀ r : String, ¬"//".toList <:+: r.toList → splittingClient.accepts r :=
    fun r h => h
  refine ⟨hparts _ (by decide), hparts _ (by decide), by rw [hread, if_pos (by decide)], hmiss,
    ?_, by decide, ?_⟩
  · intro hfollows
    have := hfollows.consults (loggedInTo "https://index.docker.io/v1/")
    rw [hmiss, credentialOf_loggedInTo, if_pos (by decide)] at this
    cases this
  · rw [hread, if_pos (by decide)]

end ContainerdRs.Images
