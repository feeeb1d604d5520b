import ContainerdRs.Lib.TreeWalk
import ContainerdRs.Runtime.Composition
import ContainerdRs.Cri.CreateFromImage
import ContainerdRs.Cri.SandboxRecords

/-!
# Who owns the rootfs of a container in a user namespace

`run_pod_sandbox` checks the mappings of a pod's user namespace and records them;
`create_container` hands the unpacked rootfs to the user that the first mapping starts with
(`chown_tree`), and `generate_spec` puts the mappings into the spec.  `chown_tree` can fail at every
call, and leaves what it has done.

* `chownTree_worksThrough` — what `chown_tree` does, place by place.
* `chownTree_keeps`, `chownTree_owns` — an inode without a name in the tree keeps its owner, and
  when the call succeeds the others have the new one.
* `userns_rootfs_owned` — in its container, the rootfs of a pod's container belongs to root.
-/

set_option autoImplicit false

namespace ContainerdRs.Cri.RootfsOwner

open FileTree Fallible Metadata Transition

/-! ## `chown_tree` -/

/-- The owner of an inode: uid and gid. -/
abbrev Owner := UInt32 × UInt32

/-- What the file system answers to `chown_tree`. -/
structure Disk (ν : Type) where
  /-- The inode of a place; hard links share one. -/
  inode : List ν → Nat
  /-- `read_dir`: the names in the order they come in. -/
  names : List ν → List ν
  lchownErr : List ν → Option String
  metadataErr : List ν → Option String
  readDirErr : List ν → Option String
  entryErr : List ν → ν → Option String

variable {ν γ : Type}

/-- A call that answers nothing but an error. -/
def answer (e : Option String) : Except String Unit :=
  match e with
  | some e => .error e
  | none => .ok ()

/-- The inode at a place gets an owner. -/
def give (d : Disk ν) (owner : Owner) (o : Nat → Owner) (l : List ν) : Nat → Owner :=
  Function.update o (d.inode l) owner

/-- `lchown`: of a link itself, not of what it points to. -/
def lchown (d : Disk ν) (owner : Owner) (l : List ν) : Fallible String (Nat → Owner) Unit :=
  act fun o =>
    match d.lchownErr l with
    | some e => (.error e, o)
    | none => (.ok (), give d owner o l)

variable [DecidableEq ν]

/-- `chown_tree`, at most `depth` levels down. -/
def chownFrom (t : FileTree ν γ) (d : Disk ν) (owner : Owner) :
    Nat → List ν → Fallible String (Nat → Owner) Unit
  | 0, _ => pure ()
  | depth + 1, l => do
    lchown d owner l
    check (answer (d.metadataErr l))
    if t.isDirAt l then
      check (answer (d.readDirErr l))
      (d.names l).forM fun n => do
        check (answer (d.entryErr l n))
        chownFrom t d owner depth (l ++ [n])
    else pure ()

/-- `chown_tree`. -/
def chownTree (t : FileTree ν γ) (d : Disk ν) (owner : Owner) (l : List ν) :
    Fallible String (Nat → Owner) Unit :=
  chownFrom t d owner t.height l

variable {t : FileTree ν γ} {d : Disk ν} {owner : Owner} {l : List ν}

omit [DecidableEq ν] in
theorem lchown_worksThrough (d : Disk ν) (owner : Owner) (l : List ν) :
    WorksThrough (give d owner) [l] (lchown d owner l) := by
  intro o
  rw [lchown, exec_act]
  cases d.lchownErr l with
  | none => exact ⟨[l], List.prefix_refl _, rfl, fun _ => rfl⟩
  | some e =>
    refine ⟨[], List.nil_prefix, rfl, fun h => ?_⟩
    cases h

/-- **Place by place.**  `chown_tree` gives the owner to the places of the tree in the order of the
    walk, up to the first call that fails. -/
theorem chownFrom_worksThrough (t : FileTree ν γ) (d : Disk ν) (owner : Owner) :
    ∀ (depth : Nat) (l : List ν),
      WorksThrough (give d owner) (visit t d.names depth l) (chownFrom t d owner depth l) := by
  intro depth
  induction depth with
  | zero => exact fun l => worksThrough_pure _
  | succ depth ih =>
    intro l
    rw [visit, chownFrom, ← List.singleton_append]
    refine (lchown_worksThrough d owner l).bind (WorksThrough.check ?_ _)
    split
    · refine WorksThrough.check ?_ _
      exact worksThrough_forM (fun n => (ih (l ++ [n])).check _) (d.names l)
    · exact worksThrough_pure _

omit [DecidableEq ν] in
/-- What has been given away. -/
theorem foldl_give (d : Disk ν) (owner : Owner) (i : Nat) :
    ∀ (ls : List (List ν)) (o : Nat → Owner),
      (ls.foldl (give d owner) o) i = if ∃ l ∈ ls, d.inode l = i then owner else o i := by
  intro ls
  induction ls with
  | nil => simp
  | cons l ls ih =>
    intro o
    rw [List.foldl_cons, ih]
    by_cases hl : d.inode l = i
    · simp [hl, give]
    · have hne : i ≠ d.inode l := fun h => hl h.symm
      simp [hl, give, Function.update_of_ne hne]

/-- **Nothing else is touched**, whether `chown_tree` fails or not: an inode without a name at or
    below the place keeps its owner. -/
theorem chownTree_keeps (h : Walkable t d.names l) (o : Nat → Owner) {i : Nat}
    (hi : ∀ x, l <+: x → (t.get? x).isSome = true → d.inode x ≠ i) :
    (exec (chownTree t d owner l) o).2 i = o i := by
  obtain ⟨done, hpre, hstate, -⟩ := chownFrom_worksThrough t d owner t.height l o
  rw [chownTree, hstate, foldl_give, if_neg]
  rintro ⟨x, hx, hinode⟩
  obtain ⟨hbelow, hsome⟩ := (h.mem_visit (Nat.le_refl _)).1 (hpre.subset hx)
  exact hi x hbelow hsome hinode

/-- **Nothing is left out** when it succeeds: all that stands at or below the place has the
    owner. -/
theorem chownTree_owns (h : Walkable t d.names l) {o o' : Nat → Owner}
    (hok : exec (chownTree t d owner l) o = (.ok (), o')) {x : List ν} (hx : l <+: x)
    (hsome : (t.get? x).isSome = true) : o' (d.inode x) = owner := by
  obtain ⟨done, -, hstate, hall⟩ := chownFrom_worksThrough t d owner t.height l o
  rw [chownTree] at hok
  rw [hok] at hstate hall
  obtain rfl := hall rfl
  rw [show o' = _ from hstate, foldl_give, if_pos]
  exact ⟨x, (h.mem_visit (Nat.le_refl _)).2 ⟨hx, hsome⟩, rfl⟩

/-! ## What the container sees -/

/-- The id in a user namespace of an id of the host. -/
def toNamespace : List Runtime.IdMapping → UInt32 → Option Nat
  | [], _ => none
  | m :: ms, id =>
    if m.hostId.toNat ≤ id.toNat ∧ id.toNat < m.hostId.toNat + m.size.toNat then
      some (m.containerId.toNat + (id.toNat - m.hostId.toNat))
    else toNamespace ms id

/-- An owner as the container with this spec sees it. -/
def seenAs {Seccomp : Type} (l : Runtime.Linux Seccomp) (owner : Owner) :
    Option Nat × Option Nat :=
  (toNamespace (l.uidMappings.getD []) owner.1, toNamespace (l.gidMappings.getD []) owner.2)

/-- `create_container`, the user that the rootfs is handed to. -/
def rootfsOwner (req : Runtime.ContainerRequest) : Option Owner :=
  req.usernsUidMappings.head?.map fun base =>
    (base.hostId, (req.usernsGidMappings.head?.map (·.hostId)).getD base.hostId)

/-- `create_container`, the call of `chown_tree`. -/
def chownRootfs (t : FileTree ν γ) (d : Disk ν) (req : Runtime.ContainerRequest) :
    Fallible String (Nat → Owner) Unit :=
  match rootfsOwner req with
  | none => pure ()
  | some owner => chownTree t d owner []

theorem toNamespace_first {host size : UInt32} (h : size ≠ 0) (ms : List Runtime.IdMapping) :
    toNamespace (⟨0, host, size⟩ :: ms) host = some 0 := by
  have hsize : size.toNat ≠ 0 := fun hzero => h (UInt32.toNat_inj.1 hzero)
  have hlt : host.toNat < host.toNat + size.toNat := by omega
  rw [toNamespace, if_pos ⟨Nat.le_refl _, hlt⟩, Nat.sub_self]
  rfl

/-- The mappings are in the spec. -/
theorem generateSpec_idMappings {Seccomp : Type} {node : Runtime.Node Seccomp} (hnode : node.Plain)
    {image : Runtime.ImageConfig} {req : Runtime.ContainerRequest} {rootfs : String}
    {spec : Runtime.Spec Seccomp} (h : Runtime.generateSpec node image req rootfs = .ok spec)
    (huids : req.usernsUidMappings ≠ []) :
    ∃ l, spec.linux = some l ∧ l.uidMappings = some req.usernsUidMappings ∧
      l.gidMappings = some req.usernsGidMappings := by
  obtain ⟨_, l, -, hl, hids, -⟩ := Runtime.generateSpec_namespaces hnode h
  have hempty : req.usernsUidMappings.isEmpty = false := by simpa using huids
  rw [Runtime.ContainerRequest.idMappings, hempty, Bool.false_and, if_neg (by simp),
    Prod.mk.injEq] at hids
  exact ⟨l, hl, hids⟩

/-! ## From the pod to the rootfs -/

variable {β Seccomp : Type}

/-- The mappings of a pod's container, and the user that its rootfs goes to. -/
theorem pod_owner {m n : IdMapping} {sandbox : SandboxRecord} (hmapped : MappedAs m n sandbox)
    (env : Create.Env β Seccomp) (config : ContainerConfig) :
    (Create.containerRequest env sandbox config).usernsUidMappings = [⟨0, m.hostId, m.length⟩] ∧
      (Create.containerRequest env sandbox config).usernsGidMappings =
        [⟨0, n.hostId, n.length⟩] ∧
      rootfsOwner (Create.containerRequest env sandbox config) = some (m.hostId, n.hostId) := by
  refine ⟨?_, ?_, ?_⟩
  · rw [Create.containerRequest, hmapped.uids]
    rfl
  · rw [Create.containerRequest, hmapped.gids]
    rfl
  · rw [rootfsOwner, Create.containerRequest, hmapped.uids, hmapped.gids]
    rfl

/-- The rootfs, as its container sees it, belongs to root, and the call has left the owners of all
    else alone; `o` are the owners before it and `o'` after it. -/
structure OwnedByRoot (t : FileTree ν γ) (d : Disk ν) (l : Runtime.Linux Seccomp)
    (o o' : Nat → Owner) : Prop where
  rootfs : ∀ x, (t.get? x).isSome = true → seenAs l (o' (d.inode x)) = (some 0, some 0)
  others : ∀ i, (∀ x, (t.get? x).isSome = true → d.inode x ≠ i) → o' i = o i

/-- **Root owns its rootfs.**  After every sequence of requests on pods and containers, when
    `create_container` succeeds for a pod with a user namespace (of mappings that map something),
    the spec that it has written maps the owner of all that stands in the rootfs, the links
    themselves among them, to uid 0 and gid 0; and no file outside of the rootfs has another
    owner than before, unless it has another name in there. -/
theorem userns_rootfs_owned (c : String → Ctx) (ls : List PodLabel) (s : Pods)
    (hrun : run (podStep c) .empty ls = some s) (env : Create.Env β Seccomp)
    (hnode : env.node.Plain) (req : CreateContainerRequest) (w w' : Create.World)
    (hfresh : w.bundles env.id = none) (rec : ContainerRecord)
    (hok : exec (Create.createContainer env s.sandboxes req) w = (.ok rec, w'))
    (sandbox : SandboxRecord) (hsandbox : get s.sandboxes ns req.podSandboxId = some sandbox)
    (hpod : sandbox.usernsModePod = true)
    (hmaps : ∀ m ∈ sandbox.usernsUidMappings ++ sandbox.usernsGidMappings, m.2.2 ≠ 0) :
    ∃ config b t spec l, req.config = some config ∧ w'.bundles env.id = some b ∧
      b.rootfs = some t ∧ b.configJson = (env.save spec).2 ∧ spec.linux = some l ∧
      ∀ (d : Disk Snapshots.OsName) (o : Nat → Owner), Walkable t d.names [] →
        env.chownErr = Create.errorOf
          (exec (chownRootfs t d (Create.containerRequest env sandbox config)) o).1 →
        OwnedByRoot t d l o
          (exec (chownRootfs t d (Create.containerRequest env sandbox config)) o).2 := by
  obtain ⟨sandbox', config, image, b, hsandbox', hconfig, -, hb, hfilled⟩ :=
    Create.createContainer_ok hfresh hok
  obtain rfl : sandbox = sandbox' := Option.some.inj (hsandbox.symm.trans hsandbox')
  obtain ⟨m, n, hmapped⟩ : ∃ m n, MappedAs m n sandbox := by
    obtain ⟨_, _, -, -, hran⟩ := sandboxes_ran hrun _ sandbox hsandbox
    rcases hran.userns with ⟨-, hnone⟩ | ⟨m, n, -, hmapped⟩
    · rw [hnone.mode] at hpod
      cases hpod
    · exact ⟨m, n, hmapped⟩
  obtain ⟨hruids, hrgids, howner⟩ := pod_owner hmapped env config
  have huids : m.length ≠ 0 := hmaps (0, m.hostId, m.length) (by simp [hmapped.uids])
  have hgids : n.length ≠ 0 := hmaps (0, n.hostId, n.length) (by simp [hmapped.gids])
  obtain ⟨t, -, ht⟩ := hfilled.rootfs
  obtain ⟨spec, hspec, hjson⟩ := hfilled.configJson
  obtain ⟨l, hl, hluids, hlgids⟩ :=
    generateSpec_idMappings hnode (Create.generateSpec_ok_iff.1 hspec) (by simp [hruids])
  refine ⟨config, b, t, spec, l, hconfig, hb, ht, hjson, hl, fun d o hwalk herr => ?_⟩
  have hnoErr : env.chownErr = none := by
    rcases Create.chownRootfs_ok_iff.1 hfilled.owned with hnil | hnone
    · rw [hmapped.uids] at hnil
      cases hnil
    · exact hnone
  rw [chownRootfs, howner] at herr ⊢
  dsimp only at herr ⊢
  rw [hnoErr] at herr
  constructor
  · intro x hsome
    -- the call has succeeded, since the request has
    rcases hexec : exec (chownTree t d (m.hostId, n.hostId) []) o with ⟨e | u, o'⟩
    · rw [hexec] at herr
      cases herr
    · have howned := chownTree_owns hwalk hexec List.nil_prefix hsome
      show seenAs l (o' (d.inode x)) = _
      rw [howned, seenAs, hluids, hlgids, hruids, hrgids, Option.getD_some, Option.getD_some,
        toNamespace_first huids, toNamespace_first hgids]
  · intro i hi
    exact chownTree_keeps hwalk o fun x _ hsome => hi x hsome

/-- A pod with a user namespace. -/
def usernsConfig : PodSandboxConfig :=
  ⟨some ⟨"nginx", "u1", "default"⟩, "", some ⟨modePod, modeContainer, modePod,
    some ⟨modePod, [⟨100000, 0, 65536⟩], [⟨200000, 0, 65536⟩]⟩⟩⟩

/-- Its record. -/
def usernsSandbox : SandboxRecord :=
  sandboxRecord (.quiet "s1") usernsConfig (PodEnv.quiet "s1").netnsPath
    (true, [(0, 100000, 65536)], [(0, 200000, 65536)])

/-- The pods after it has been run. -/
def usernsPods : Pods :=
  ⟨(runPodSandbox (.quiet "s1") .empty (some usernsConfig)).sandboxes, fun _ => ⟨none, [], []⟩⟩

/-- What `create_container` leaves of a container in it whose image has no layers. -/
def usernsWorld : Create.World :=
  (exec (Create.createContainer Create.quietEnv usernsPods.sandboxes
    ⟨"s1", some containerConfig⟩) Create.emptyWorld).2

/-- A disk on which every call succeeds. -/
def quietDisk (t : FileTree ν γ) : Disk ν where
  inode l := l.length
  names := t.children
  lchownErr _ := none
  metadataErr _ := none
  readDirErr _ := none
  entryErr _ _ := none

theorem emptyRootfs_walkable :
    Walkable Create.emptyRootfs (quietDisk Create.emptyRootfs).names [] where
  root := rfl
  closed := Create.emptyRootfs_rooted.plain.closed
  listing := listing_children _

theorem usernsPods_owned : ∃ b spec l, usernsWorld.bundles "c1" = some b ∧
    b.configJson = (Create.quietEnv.save spec).2 ∧ spec.linux = some l ∧
    ∃ o', OwnedByRoot Create.emptyRootfs (quietDisk Create.emptyRootfs) l (fun _ => (0, 0)) o' := by
  obtain ⟨rec, hrec⟩ : ∃ rec, (exec (Create.createContainer Create.quietEnv usernsPods.sandboxes
      ⟨"s1", some containerConfig⟩) Create.emptyWorld).1 = .ok rec := ⟨_, rfl⟩
  obtain ⟨config, b, t, spec, l, hconfig, hb, ht, hjson, hl, howned⟩ :=
    userns_rootfs_owned (fun id => ⟨id, "/run/crun", "/run/" ++ id⟩)
      [.runPodSandbox (some usernsConfig) (.quiet "s1")] usernsPods rfl Create.quietEnv
      Runtime.bareNode_plain ⟨"s1", some containerConfig⟩ Create.emptyWorld usernsWorld rfl rec
      (Prod.ext hrec rfl) usernsSandbox rfl rfl (by simp [usernsSandbox, sandboxRecord])
  have hrootfs : (usernsWorld.bundles Create.quietEnv.id).bind (·.rootfs) =
      some Create.emptyRootfs := rfl
  rw [hb, Option.bind_some, ht, Option.some.injEq] at hrootfs
  subst hrootfs
  cases hconfig
  exact ⟨b, spec, l, hb, hjson, hl, _, howned (quietDisk Create.emptyRootfs) (fun _ => (0, 0))
    emptyRootfs_walkable rfl⟩

end ContainerdRs.Cri.RootfsOwner
