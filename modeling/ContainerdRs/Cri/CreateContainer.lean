import ContainerdRs.Lib.Fallible
import ContainerdRs.Snapshots.Diff
import ContainerdRs.Runtime.CapabilitySets
import ContainerdRs.Cri.PodIntegrity

/-!
# CreateContainer and the bundle it builds (`create_container`)

The handler of `Sandboxes`, with what it does on disk: after its checks it makes the bundle
directory, unpacks the image layers into `rootfs`, hands the tree to the mapped user, writes
`config.json`, touches the log file and stores the record.  Every step can fail, and none of them
undoes the ones before.

* `createContainer_result` — the answer is that of the handler on the table of sandboxes.
* `create_rollsBack_iff` — when a failed call leaves the state as it was.
* `missing_profile_leaves_bundle` — a seccomp profile that is not there leaves the bundle.
-/

set_option autoImplicit false

namespace ContainerdRs.Cri.Create

open Metadata Fallible

variable {β Seccomp : Type}

/-! ## The state and the environment -/

/-- The directory `<state>/<namespace>/<id>`. -/
structure BundleDir where
  /-- What stands below `rootfs`, if it is there. -/
  rootfs : Option Snapshots.Fs
  configJson : Option Bytes

structure World where
  bundles : String → Option BundleDir
  /-- Log files that exist. -/
  logs : List String
  containers : Table ContainerRecord

/-- `rootfs` when it has just been made. -/
def emptyRootfs : Snapshots.Fs := ⟨[([], .dir)]⟩

/-- What the outside answers during one call. -/
structure Env (β Seccomp : Type) where
  /-- `gen_id`. -/
  id : String
  /-- Error texts of the metadata calls, if they fail. -/
  getErr : Option String
  putErr : Option String
  /-- `find_image`: the configuration and the layer digests of the image. -/
  image : Except Status (Runtime.ImageConfig × List String)
  /-- What the request and the sandbox say about the container, but for the user namespace. -/
  containerReq : SandboxRecord → ContainerConfig → Runtime.ContainerRequest
  /-- `Bundle::create` fails: the text, and whether the directory itself was made. -/
  mkdirErr : Option (String × Bool)
  /-- `content.read`. -/
  read : Digest → Except String Bytes
  /-- The tar archives and their unpacking. -/
  host : Snapshots.Host β
  /-- The text of a digest that does not parse. -/
  digestErr : DigestError → String
  /-- `chown_tree` fails. -/
  chownErr : Option String
  /-- The crates and the host that `generate_spec` asks. -/
  node : Runtime.Node Seccomp
  rootfsPath : String
  /-- `write_bundle`: its answer, and what stands at `config.json` then. -/
  save : Runtime.Spec Seccomp → Except String Unit × Option Bytes
  /-- The log file could be opened. -/
  touched : Bool

/-! ## The steps -/

/-- A mapping of the record, for the runtime. -/
def idMapping (m : UInt32 × UInt32 × UInt32) : Runtime.IdMapping := ⟨m.1, m.2.1, m.2.2⟩

/-- `container_req`. -/
def containerRequest (env : Env β Seccomp) (sandbox : SandboxRecord) (config : ContainerConfig) :
    Runtime.ContainerRequest :=
  { env.containerReq sandbox config with
    usernsUidMappings := sandbox.usernsUidMappings.map idMapping
    usernsGidMappings := sandbox.usernsGidMappings.map idMapping }

/-- What stands in the bundle directory, made when it is not there. -/
def World.bundle (w : World) (id : String) : BundleDir := (w.bundles id).getD ⟨none, none⟩

/-- The bundle directory is written to. -/
def World.setBundle (w : World) (id : String) (b : BundleDir) : World :=
  { w with bundles := Function.update w.bundles id (some b) }

/-- `Bundle::create`. -/
def createBundle (env : Env β Seccomp) : Fallible Status World Unit :=
  act fun w =>
    match env.mkdirErr with
    | none =>
      (.ok (), w.setBundle env.id
        { w.bundle env.id with rootfs := (w.bundle env.id).rootfs.or (some emptyRootfs) })
    | some (e, made) =>
      (.error ⟨.internal, e⟩, if made then w.setBundle env.id (w.bundle env.id) else w)

/-- The status of `unpack_rootfs`. -/
def unpackStatus (env : Env β Seccomp) : Snapshots.UnpackError → Status
  | .badDigest ld e => ⟨.internal, "bad layer digest " ++ ld ++ ": " ++ env.digestErr e⟩
  | .readLayer ld e => ⟨.internal, "read layer " ++ ld ++ ": " ++ e⟩
  | .unpackLayer ld e => ⟨.internal, "unpack layer " ++ ld ++ ": " ++ e⟩

/-- The layers over a tree. -/
def unpacked (env : Env β Seccomp) (layers : List String) (t : Snapshots.Fs) :
    Except Snapshots.UnpackError Unit × Snapshots.Fs :=
  Snapshots.unpackRootfs env.host env.read [] layers t

/-- `unpack_rootfs`, in the bundle. -/
def unpackRootfs (env : Env β Seccomp) (layers : List String) : Fallible Status World Unit :=
  act fun w =>
    let b := w.bundle env.id
    let (r, t) := unpacked env layers (b.rootfs.getD emptyRootfs)
    (r.mapError (unpackStatus env), w.setBundle env.id { b with rootfs := some t })

/-- `chown_tree`, in a user namespace only. -/
def chownRootfs (env : Env β Seccomp) (req : Runtime.ContainerRequest) : Except Status Unit :=
  match req.usernsUidMappings with
  | [] => .ok ()
  | _ => internalErr (env.chownErr.map ("chown rootfs for userns: " ++ ·))

/-- `generate_spec`, with its error as a status. -/
def generateSpec (env : Env β Seccomp) (image : Runtime.ImageConfig)
    (req : Runtime.ContainerRequest) : Except Status (Runtime.Spec Seccomp) :=
  match Runtime.generateSpec env.node image req env.rootfsPath with
  | .ok spec => .ok spec
  | .error (.builder message) => .error ⟨.internal, "spec builder error: " ++ message⟩

/-- `write_bundle`. -/
def writeBundle (env : Env β Seccomp) (spec : Runtime.Spec Seccomp) :
    Fallible Status World Unit :=
  act fun w =>
    ((env.save spec).1.mapError (Status.mk .internal),
      w.setBundle env.id { w.bundle env.id with configJson := (env.save spec).2 })

/-- The log file is touched; errors are dropped. -/
def touchLog (env : Env β Seccomp) (logPath : String) : Fallible Status World Unit :=
  change fun w =>
    if isAbsolute logPath && env.touched then { w with logs := logPath :: w.logs } else w

/-- The metadata `put`. -/
def putRecord (env : Env β Seccomp) (rec : ContainerRecord) : Fallible Status World Unit :=
  act fun w =>
    match env.putErr with
    | some e => (.error ⟨.internal, e⟩, w)
    | none => (.ok (), { w with containers := put w.containers ns env.id rec })

/-- The record. -/
def containerRecord (env : Env β Seccomp) (sandbox : SandboxRecord) (sandboxId : String)
    (config : ContainerConfig) : ContainerRecord where
  id := env.id
  sandboxId := sandboxId
  state := .created
  logPath := storedLogPath sandbox config.logPath
  startedAt := none
  finishedAt := none
  exitCode := none
  reason := none
  resources := config.resources.map resourcesRecord
  crunRoot := none
  bundleDir := none
  pid := none
  stdin := config.stdin

/-- The steps after the bundle directory is made. -/
def fillBundle (env : Env β Seccomp) (sandbox : SandboxRecord) (sandboxId : String)
    (config : ContainerConfig) (image : Runtime.ImageConfig × List String) :
    Fallible Status World ContainerRecord := do
  unpackRootfs env image.2
  check (chownRootfs env (containerRequest env sandbox config))
  let spec ← check (generateSpec env image.1 (containerRequest env sandbox config))
  writeBundle env spec
  touchLog env (storedLogPath sandbox config.logPath)
  putRecord env (containerRecord env sandbox sandboxId config)
  return containerRecord env sandbox sandboxId config

/-- `create_container`. -/
def createContainer (env : Env β Seccomp) (sandboxes : Table SandboxRecord)
    (req : CreateContainerRequest) : Fallible Status World ContainerRecord := do
  check (internalErr env.getErr)
  let sandbox ← check (okOr (get sandboxes ns req.podSandboxId)
    ⟨.notFound, "sandbox " ++ req.podSandboxId ++ " not found"⟩)
  let config ← check (okOr req.config ⟨.invalidArgument, "container config required"⟩)
  let image ← check env.image
  check (validateRunAs config)
  check (config.mounts.forM validateMount)
  createBundle env
  fillBundle env sandbox req.podSandboxId config image

/-! ## The handler on the table of sandboxes -/

/-- The error of a step. -/
def errorOf {ε α : Type} : Except ε α → Option ε
  | .error e => some e
  | .ok _ => none

/-- What the handler on the table of sandboxes sees of the environment. -/
def Env.podEnv (env : Env β Seccomp) (sandbox : SandboxRecord) (config : ContainerConfig)
    (image : Runtime.ImageConfig × List String) : PodEnv :=
  { PodEnv.quiet env.id with
    getErr := env.getErr
    putErr := env.putErr
    bundleErr := env.mkdirErr.map Prod.fst
    unpackErr := (errorOf (unpacked env image.2 emptyRootfs).1).map (unpackStatus env)
    chownErr := env.chownErr
    specErr := (errorOf (generateSpec env image.1 (containerRequest env sandbox config))).map
      (·.message)
    writeErr :=
      match generateSpec env image.1 (containerRequest env sandbox config) with
      | .ok spec => errorOf (env.save spec).1
      | .error _ => none }

/-- The steps after the bundle directory is made. -/
theorem fillBundle_result {env : Env β Seccomp} {w : World}
    (hw : (w.bundle env.id).rootfs = some emptyRootfs) (sandbox : SandboxRecord)
    (sandboxId : String) (config : ContainerConfig) (image : Runtime.ImageConfig × List String) :
    (exec (fillBundle env sandbox sandboxId config image) w).1 = (do
      statusErr (env.podEnv sandbox config image).unpackErr
      Cri.chownRootfs (env.podEnv sandbox config image) sandbox
      internalErr (env.podEnv sandbox config image).specErr
      internalErr (env.podEnv sandbox config image).writeErr
      internalErr env.putErr
      return containerRecord env sandbox sandboxId config) := by
  unfold fillBundle
  have hunpack : (exec (unpackRootfs env image.2) w).1 =
      statusErr (env.podEnv sandbox config image).unpackErr := by
    simp only [unpackRootfs, exec_act, hw, Option.getD_some, Env.podEnv]
    cases (unpacked env image.2 emptyRootfs).1 <;> rfl
  have hchown : chownRootfs env (containerRequest env sandbox config) =
      Cri.chownRootfs (env.podEnv sandbox config image) sandbox := by
    simp only [chownRootfs, containerRequest, Cri.chownRootfs, Env.podEnv]
    cases sandbox.usernsUidMappings <;> rfl
  simp only [exec_bind_fst, exec_check, hunpack, hchown]
  refine congrArg _ (funext fun _ => congrArg _ (funext fun _ => ?_))
  cases hspec : generateSpec env image.1 (containerRequest env sandbox config) with
  | error e =>
    have hcode : e.code = .internal := by
      unfold generateSpec at hspec
      split at hspec <;> cases hspec
      rfl
    simp only [Env.podEnv, hspec]
    obtain ⟨code, message⟩ := e
    cases hcode
    rfl
  | ok spec =>
    have hsave : ∀ w, (exec (writeBundle env spec) w).1 =
        internalErr (env.podEnv sandbox config image).writeErr := by
      intro w
      simp only [writeBundle, exec_act, Env.podEnv, hspec]
      cases (env.save spec).1 <;> rfl
    have hput : ∀ rec w, (exec (putRecord env rec) w).1 = internalErr env.putErr := by
      intro rec w
      cases hp : env.putErr <;> simp [putRecord, hp, internalErr]
    have hnone : (env.podEnv sandbox config image).specErr = none := by
      simp [Env.podEnv, hspec, errorOf]
    rw [hnone]
    show ((exec (writeBundle env spec) _).1 >>= _) = (internalErr _ >>= _)
    rw [hsave]
    simp only [hput]
    rfl

/-- Once the request names a sandbox, a configuration and an image, the answer is that of the
    handler on the table of sandboxes. -/
theorem createContainer_result {env : Env β Seccomp} {sandboxes : Table SandboxRecord}
    {req : CreateContainerRequest} {w : World} (hfresh : w.bundles env.id = none)
    {sandbox : SandboxRecord} {config : ContainerConfig} {image : Runtime.ImageConfig × List String}
    (hfound : get sandboxes ns req.podSandboxId = some sandbox) (hgiven : req.config = some config)
    (hresolved : env.image = .ok image) :
    (exec (createContainer env sandboxes req) w).1 =
      Cri.createContainer (env.podEnv sandbox config image) sandboxes req := by
  unfold createContainer Cri.createContainer
  simp only [exec_bind_fst, exec_check, hfound, hgiven, hresolved, okOr]
  refine congrArg _ (funext fun _ => ?_)
  show (validateRunAs config >>= _) = (validateRunAs config >>= _)
  refine congrArg _ (funext fun _ => congrArg _ (funext fun _ => ?_))
  cases hmkdir : env.mkdirErr with
  | some err =>
    simp only [createBundle, exec_act, hmkdir, Env.podEnv]
    rfl
  | none =>
    have hrootfs : (((exec (createBundle env) w).2).bundle env.id).rootfs = some emptyRootfs := by
      simp [createBundle, hmkdir, World.bundle, World.setBundle, hfresh]
    rw [fillBundle_result hrootfs]
    simp only [createBundle, exec_act, hmkdir, Env.podEnv]
    rfl

/-! ## What is promised, and when -/

/-- The id is new: no bundle directory, and no record. -/
structure Fresh (id : String) (w : World) : Prop where
  bundle : w.bundles id = none
  record : get w.containers ns id = none

/-- The bundles and the records are as they were. -/
structure AsBefore (w w' : World) : Prop where
  bundles : w'.bundles = w.bundles
  containers : w'.containers = w.containers

/-- The request gets past the checks. -/
structure Accepted (env : Env β Seccomp) (sandboxes : Table SandboxRecord)
    (req : CreateContainerRequest) (sandbox : SandboxRecord) (config : ContainerConfig)
    (image : Runtime.ImageConfig × List String) : Prop where
  read : env.getErr = none
  found : get sandboxes ns req.podSandboxId = some sandbox
  given : req.config = some config
  resolved : env.image = .ok image
  runAs : validateRunAs config = .ok ()
  mounts : config.mounts.forM validateMount = .ok ()

/-- No step after the bundle is made fails. -/
structure Fills (env : Env β Seccomp) (sandbox : SandboxRecord) (config : ContainerConfig)
    (image : Runtime.ImageConfig × List String) : Prop where
  layers : (unpacked env image.2 emptyRootfs).1 = .ok ()
  chown : sandbox.usernsUidMappings = [] ∨ env.chownErr = none
  spec : ∃ spec, Runtime.generateSpec env.node image.1 (containerRequest env sandbox config)
    env.rootfsPath = .ok spec ∧ (env.save spec).1 = .ok ()
  put : env.putErr = none

/-- The bundle directory of the id is there. -/
def Held (id : String) (w : World) : Prop := w.bundles id ≠ none

theorem held_setBundle (w : World) (id : String) (b : BundleDir) : Held id (w.setBundle id b) := by
  simp [Held, World.setBundle]

/-! ## The steps after the bundle -/

section fill

variable {env : Env β Seccomp}

/-- Nothing removes the bundle. -/
theorem fillBundle_keeps (env : Env β Seccomp) (sandbox : SandboxRecord) (sandboxId : String)
    (config : ContainerConfig) (image : Runtime.ImageConfig × List String) :
    Keeps (Held env.id) (fillBundle env sandbox sandboxId config image) := by
  refine Keeps.bind (fun w _ => held_setBundle w _ _) fun _ => ?_
  refine Keeps.bind (Keeps.check _) fun _ => ?_
  refine Keeps.bind (Keeps.check _) fun spec => ?_
  refine Keeps.bind (fun w _ => held_setBundle w _ _) fun _ => ?_
  refine Keeps.bind ?_ fun _ => ?_
  · intro w hw
    simp only [touchLog, exec_change]
    split
    · exact hw
    · exact hw
  · refine Keeps.bind ?_ fun _ => Keeps.pure _
    intro w hw
    simp only [putRecord, exec_act]
    split
    · exact hw
    · exact hw

theorem chownRootfs_ok_iff {sandbox : SandboxRecord} {config : ContainerConfig} :
    chownRootfs env (containerRequest env sandbox config) = .ok () ↔
      sandbox.usernsUidMappings = [] ∨ env.chownErr = none := by
  cases hm : sandbox.usernsUidMappings with
  | nil => simp [chownRootfs, containerRequest, hm]
  | cons m ms =>
    cases hc : env.chownErr with
    | none => simp [chownRootfs, containerRequest, hm, hc, internalErr]
    | some e => simp [chownRootfs, containerRequest, hm, hc, internalErr]

theorem generateSpec_ok_iff {image : Runtime.ImageConfig} {req : Runtime.ContainerRequest}
    {spec : Runtime.Spec Seccomp} :
    generateSpec env image req = .ok spec ↔
      Runtime.generateSpec env.node image req env.rootfsPath = .ok spec := by
  unfold generateSpec
  cases Runtime.generateSpec env.node image req env.rootfsPath with
  | ok spec' => simp
  | error e => simp

theorem mapError_ok_iff {ε ε' α : Type} {r : Except ε α} {f : ε → ε'} {a : α} :
    r.mapError f = .ok a ↔ r = .ok a := by
  cases r <;> simp [Except.mapError]

/-- The steps after the bundle is made succeed exactly when none of them fails. -/
theorem fillBundle_succeeds_iff {sandbox : SandboxRecord} {sandboxId : String}
    {config : ContainerConfig} {image : Runtime.ImageConfig × List String} {w : World}
    (hw : (w.bundle env.id).rootfs = some emptyRootfs) :
    Fallible.Succeeds (fillBundle env sandbox sandboxId config image) w ↔
      Fills env sandbox config image := by
  have hunpack : (exec (unpackRootfs env image.2) w).1 = .ok () ↔
      (unpacked env image.2 emptyRootfs).1 = .ok () := by
    simp [unpackRootfs, hw, mapError_ok_iff]
  have hput : ∀ (rec : ContainerRecord) (w : World),
      (exec (putRecord env rec) w).1 = .ok () ↔ env.putErr = none := by
    intro rec w
    cases hput : env.putErr <;> simp [putRecord, hput]
  constructor
  · intro h
    obtain ⟨_, hlayers, h⟩ := succeeds_bind.1 h
    obtain ⟨_, hchown, h⟩ := succeeds_bind.1 h
    obtain ⟨spec, hspec, h⟩ := succeeds_bind.1 h
    obtain ⟨_, hsave, h⟩ := succeeds_bind.1 h
    obtain ⟨_, -, h⟩ := succeeds_bind.1 h
    obtain ⟨_, hrecord, -⟩ := succeeds_bind.1 h
    exact ⟨hunpack.1 hlayers, chownRootfs_ok_iff.1 hchown,
      ⟨spec, generateSpec_ok_iff.1 hspec, mapError_ok_iff.1 hsave⟩, (hput _ _).1 hrecord⟩
  · rintro ⟨hlayers, hchown, ⟨spec, hspec, hsave⟩, hrecord⟩
    refine succeeds_bind.2 ⟨(), hunpack.2 hlayers, ?_⟩
    refine succeeds_bind.2 ⟨(), chownRootfs_ok_iff.2 hchown, ?_⟩
    refine succeeds_bind.2 ⟨spec, generateSpec_ok_iff.2 hspec, ?_⟩
    refine succeeds_bind.2 ⟨(), mapError_ok_iff.2 hsave, ?_⟩
    refine succeeds_bind.2 ⟨(), rfl, ?_⟩
    exact succeeds_bind.2 ⟨(), (hput _ _).2 hrecord, _, rfl⟩

end fill

/-! ## The whole call -/

section call

variable {env : Env β Seccomp} {sandboxes : Table SandboxRecord} {req : CreateContainerRequest}

/-- From the bundle directory on. -/
theorem bundle_rollsBack_iff {w : World} (hfresh : Fresh env.id w) {sandbox : SandboxRecord}
    {sandboxId : String} {config : ContainerConfig} {image : Runtime.ImageConfig × List String} :
    RollsBack (AsBefore w)
        (createBundle env >>= fun _ => fillBundle env sandbox sandboxId config image) w ↔
      (∀ e made, env.mkdirErr = some (e, made) → made = false) ∧
        (env.mkdirErr = none → Fills env sandbox config image) := by
  -- a bundle of the new id is not as before
  have hheld : ∀ w', Held env.id w' → ¬ AsBefore w w' := by
    intro w' hw' hsame
    rw [Held, hsame.bundles, hfresh.bundle] at hw'
    exact hw' rfl
  have hrootfs : (w.bundle env.id).rootfs = none := by
    simp [World.bundle, hfresh.bundle]
  cases hmkdir : env.mkdirErr with
  | none =>
    -- the directory is there, and the rest has to succeed
    have hexec : exec (createBundle env) w =
        (.ok (), w.setBundle env.id { w.bundle env.id with rootfs := some emptyRootfs }) := by
      simp [createBundle, hmkdir, hrootfs]
    have hmade : ((w.setBundle env.id { w.bundle env.id with rootfs := some emptyRootfs }).bundle
        env.id).rootfs = some emptyRootfs := by
      simp [World.bundle, World.setBundle]
    have hrest := (rollsBack_iff_succeeds
      (fillBundle_keeps env sandbox sandboxId config image)
      (held_setBundle w env.id { w.bundle env.id with rootfs := some emptyRootfs }) hheld).trans
      (fillBundle_succeeds_iff hmade)
    rw [rollsBack_bind, hexec]
    constructor
    · rintro ⟨-, h⟩
      exact ⟨nofun, fun _ => hrest.1 (h () rfl)⟩
    · rintro ⟨-, h⟩
      refine ⟨?_, fun _ _ => hrest.2 (h rfl)⟩
      intro e he
      rw [hexec] at he
      cases he
  | some err =>
    obtain ⟨e, made⟩ := err
    have hexec : exec (createBundle env) w = (.error ⟨.internal, e⟩,
        if made then w.setBundle env.id (w.bundle env.id) else w) := by
      simp [createBundle, hmkdir]
    rw [rollsBack_bind, hexec]
    constructor
    · rintro ⟨h, -⟩
      refine ⟨?_, nofun⟩
      rintro e' made' heq
      cases heq
      cases made with
      | false => rfl
      | true =>
        have hback := h ⟨.internal, e⟩ (by rw [hexec])
        rw [hexec] at hback
        exact absurd hback (hheld _ (held_setBundle w _ _))
    · rintro ⟨h, -⟩
      obtain rfl := h e made rfl
      refine ⟨?_, nofun⟩
      intro _ _
      rw [hexec]
      exact ⟨rfl, rfl⟩

/-- **CreateContainer on error.**  For a new id, a failed call leaves the bundles and the records
    as they were exactly when it fails in its checks, or in making the bundle directory without
    having made it, or no step after that fails. -/
theorem create_rollsBack_iff (env : Env β Seccomp) (sandboxes : Table SandboxRecord)
    (req : CreateContainerRequest) (w : World) (hfresh : Fresh env.id w) :
    RollsBack (AsBefore w) (createContainer env sandboxes req) w ↔
      ∀ sandbox config image, Accepted env sandboxes req sandbox config image →
        (∀ e made, env.mkdirErr = some (e, made) → made = false) ∧
          (env.mkdirErr = none → Fills env sandbox config image) := by
  have hsame : AsBefore w w := ⟨rfl, rfl⟩
  constructor
  · intro h sandbox config image hacc
    have h := (rollsBack_check hsame).1 h () (by rw [hacc.read]; rfl)
    have h := (rollsBack_check hsame).1 h sandbox (by rw [hacc.found]; rfl)
    have h := (rollsBack_check hsame).1 h config (by rw [hacc.given]; rfl)
    have h := (rollsBack_check hsame).1 h image hacc.resolved
    have h := (rollsBack_check hsame).1 h () hacc.runAs
    have h := (rollsBack_check hsame).1 h () hacc.mounts
    exact (bundle_rollsBack_iff hfresh).1 h
  · intro h
    refine (rollsBack_check hsame).2 fun _ hread => ?_
    refine (rollsBack_check hsame).2 fun sandbox hfound => ?_
    refine (rollsBack_check hsame).2 fun config hgiven => ?_
    refine (rollsBack_check hsame).2 fun image hresolved => ?_
    refine (rollsBack_check hsame).2 fun _ hrunAs => ?_
    refine (rollsBack_check hsame).2 fun _ hmounts => ?_
    refine (bundle_rollsBack_iff hfresh).2 (h sandbox config image ⟨?_, ?_, ?_, hresolved, hrunAs,
      hmounts⟩)
    · exact internalErr_eq_ok.1 hread
    · exact okOr_eq_ok.1 hfound
    · exact okOr_eq_ok.1 hgiven

end call

/-! ## Concrete calls -/

/-- A sandbox in the table. -/
def sampleSandboxes : Table SandboxRecord :=
  (runPodSandbox (.quiet "s1") .empty (some podConfig)).sandboxes

/-- Nothing on disk yet. -/
def emptyWorld : World := ⟨fun _ => none, [], .empty⟩

/-- A call with an image without layers, in which every step succeeds. -/
def quietEnv : Env Unit Unit where
  id := "c1"
  getErr := none
  putErr := none
  image := .ok (Runtime.plainImage, [])
  containerReq _ _ := Runtime.hardenedRequest
  mkdirErr := none
  read _ := .error "not found"
  host := ⟨fun _ _ t => (.ok (), t), fun t l => .ok (t.children l), fun _ _ => .ok []⟩
  digestErr _ := "invalid digest"
  chownErr := none
  node := Runtime.bareNode
  rootfsPath := "/run/k8s.io/c1/rootfs"
  save _ := (.ok (), some [])
  touched := true

/-- The state directory is full: the call fails, and leaves nothing. -/
theorem full_disk_rolls_back :
    (exec (createContainer { quietEnv with mkdirErr := some ("no space left", false) }
      sampleSandboxes ⟨"s1", some containerConfig⟩) emptyWorld).1 =
        .error ⟨.internal, "no space left"⟩ ∧
      RollsBack (AsBefore emptyWorld)
        (createContainer { quietEnv with mkdirErr := some ("no space left", false) }
          sampleSandboxes ⟨"s1", some containerConfig⟩) emptyWorld := by
  refine ⟨rfl, (create_rollsBack_iff _ _ _ _ ⟨rfl, rfl⟩).2 ?_⟩
  intro sandbox config image _
  refine ⟨?_, nofun⟩
  rintro e made heq
  cases heq
  rfl

/-- The container asks for a profile that is not on the node. -/
def profileEnv : Env Unit Unit :=
  { quietEnv with
    containerReq := fun _ _ => { Runtime.hardenedRequest with seccomp := .localhost "p.json" } }

/-- The call fails in `generate_spec`, and the bundle stays. -/
theorem missing_profile_leaves_bundle :
    ¬ ∀ (env : Env Unit Unit) (sandboxes : Table SandboxRecord) (req : CreateContainerRequest)
      (w : World), Fresh env.id w →
        RollsBack (AsBefore w) (createContainer env sandboxes req) w := by
  intro h
  have hback := h profileEnv sampleSandboxes ⟨"s1", some containerConfig⟩ emptyWorld ⟨rfl, rfl⟩
    ⟨.internal, "spec builder error: read seccomp profile p.json: not found"⟩ rfl
  have hbundle := congrFun hback.bundles "c1"
  cases hbundle

end ContainerdRs.Cri.Create
