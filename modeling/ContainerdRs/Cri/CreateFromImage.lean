import ContainerdRs.Cri.CreateContainer
import ContainerdRs.Cri.StoredImages
import ContainerdRs.Snapshots.MergeRefinement

/-!
# From an image record to a bundle (`find_image`, `parse_image_config`, `unpack_rootfs`)

`create_container` looks the image up, reads its config under the image id and its layers under
their digests.  An image that is not there, or whose config cannot be read, counts as an empty
config without layers.

* `createContainer_ok` — what a call that succeeds has left in the bundle.
* `created_from_image` — after every sequence of image requests, the bundle of a stored image has
  the tree of its layers, and the `config.json` that is made from its config.
-/

set_option autoImplicit false

namespace ContainerdRs.Cri.Create

open Images Metadata Transition Fallible Snapshots

variable {β Seccomp Tree : Type}

/-! ## The image of a request -/

/-- `OciImageConfig`, by its `config`. -/
structure OciImageConfig where
  env : List String
  entrypoint : List String
  cmd : List String
  workingDir : String
  user : String
  deriving DecidableEq, Repr

/-- `ImageConfig::default`. -/
def defaultImageConfig : Runtime.ImageConfig := ⟨[], [], [], none, none⟩

/-- The config for the bundle. -/
def OciImageConfig.imageConfig (oci : OciImageConfig) : Runtime.ImageConfig where
  env := oci.env
  entrypoint := oci.entrypoint
  cmd := oci.cmd
  workingDir := if oci.workingDir = "" then none else some oci.workingDir
  user := if oci.user = "" then none else some oci.user

/-- `parse_image_config`; `fromSlice` is `serde_json::from_slice::<OciImageConfig>`. -/
def parseImageConfig (fromSlice : Bytes → Option OciImageConfig)
    (read : Digest → Except String Bytes) (imageId : String) : Runtime.ImageConfig :=
  match Digest.parse imageId with
  | .error _ => defaultImageConfig
  | .ok digest =>
    match read digest with
    | .error _ => defaultImageConfig
    | .ok bytes =>
      match fromSlice bytes with
      | none => defaultImageConfig
      | some oci => oci.imageConfig

/-- `Store::read`. -/
def contentRead (blobs : OrdMap String Bytes) (digest : Digest) : Except String Bytes :=
  match blobs.get? digest.hex with
  | some bytes => .ok bytes
  | none => .error "io error: No such file or directory (os error 2)"

/-- What `create_container` takes of the image: the config, and the layers. -/
def resolveImage (fromSlice : Bytes → Option OciImageConfig) (s : ImageState Tree)
    (imageRef : String) : Runtime.ImageConfig × List String :=
  let imageRec := RuntimeSvc.findImage s.images imageRef
  let imageId := (imageRec.map (·.imageId)).getD ""
  (parseImageConfig fromSlice (contentRead s.stores.blobs) imageId,
    (imageRec.map (·.layerDigests)).getD [])

/-! ## A call that succeeds -/

/-- What a successful call has left in the bundle. -/
structure Filled (env : Env β Seccomp) (sandbox : SandboxRecord) (config : ContainerConfig)
    (image : Runtime.ImageConfig × List String) (b : BundleDir) : Prop where
  /-- The layers, over an empty directory. -/
  rootfs : ∃ t, unpacked env image.2 emptyRootfs = (.ok (), t) ∧ b.rootfs = some t
  owned : chownRootfs env (containerRequest env sandbox config) = .ok ()
  configJson : ∃ spec, generateSpec env image.1 (containerRequest env sandbox config) = .ok spec ∧
    b.configJson = (env.save spec).2

@[simp] theorem bundle_setBundle (w : World) (id : String) (b : BundleDir) :
    (w.setBundle id b).bundle id = b := by
  simp [World.setBundle, World.bundle]

theorem createBundle_ok {env : Env β Seccomp} {w w' : World} (hfresh : w.bundles env.id = none)
    (hok : exec (createBundle env) w = (.ok (), w')) :
    w'.bundle env.id = ⟨some emptyRootfs, none⟩ := by
  simp only [createBundle, exec_act] at hok
  split at hok
  · cases hok
    simp [World.bundle, hfresh, World.setBundle]
  · cases hok

theorem unpackRootfs_ok {env : Env β Seccomp} {layers : List String} {w w' : World}
    (hok : exec (unpackRootfs env layers) w = (.ok (), w')) :
    ∃ t, unpacked env layers ((w.bundle env.id).rootfs.getD emptyRootfs) = (.ok (), t) ∧
      w'.bundle env.id = { w.bundle env.id with rootfs := some t } := by
  simp only [unpackRootfs, exec_act] at hok
  rcases hu : unpacked env layers ((w.bundle env.id).rootfs.getD emptyRootfs) with ⟨e | u, t⟩
  · rw [hu] at hok
    cases hok
  · rw [hu] at hok
    cases hok
    exact ⟨t, rfl, bundle_setBundle _ _ _⟩

/-- The steps after `write_bundle` leave the bundle alone. -/
theorem recorded_bundles {env : Env β Seccomp} {path : String} {rec : ContainerRecord}
    {w w' : World} {u : Unit}
    (hok : exec (touchLog env path >>= fun _ => putRecord env rec) w = (.ok u, w')) :
    w'.bundles = w.bundles := by
  obtain ⟨_, w₁, htouch, hput⟩ := exec_bind_some hok
  have h₁ : w₁.bundles = w.bundles := by
    simp only [touchLog, exec_change] at htouch
    cases htouch
    split <;> rfl
  simp only [putRecord, exec_act] at hput
  split at hput
  · cases hput
  · cases hput
    exact h₁

theorem createContainer_ok {env : Env β Seccomp} {sandboxes : Table SandboxRecord}
    {req : CreateContainerRequest} {w w' : World} {rec : ContainerRecord}
    (hfresh : w.bundles env.id = none)
    (hok : exec (createContainer env sandboxes req) w = (.ok rec, w')) :
    ∃ sandbox config image b, get sandboxes ns req.podSandboxId = some sandbox ∧
      req.config = some config ∧ env.image = .ok image ∧ w'.bundles env.id = some b ∧
      Filled env sandbox config image b := by
  unfold createContainer at hok
  obtain ⟨_, -, hok⟩ := exec_check_some hok
  obtain ⟨sandbox, hsandbox, hok⟩ := exec_check_some hok
  obtain ⟨config, hconfig, hok⟩ := exec_check_some hok
  obtain ⟨image, himage, hok⟩ := exec_check_some hok
  obtain ⟨_, -, hok⟩ := exec_check_some hok
  obtain ⟨_, -, hok⟩ := exec_check_some hok
  obtain ⟨_, w₁, hcreate, hok⟩ := exec_bind_some hok
  unfold fillBundle at hok
  obtain ⟨_, w₂, hunpack, hok⟩ := exec_bind_some hok
  obtain ⟨_, hchown, hok⟩ := exec_check_some hok
  obtain ⟨spec, hspec, hok⟩ := exec_check_some hok
  obtain ⟨_, w₃, hwrite, hok⟩ := exec_bind_some hok
  obtain ⟨_, w₄, htouch, hok⟩ := exec_bind_some hok
  obtain ⟨u, w₅, hput, hok⟩ := exec_bind_some hok
  cases hok
  have h₁ := createBundle_ok hfresh hcreate
  obtain ⟨t, ht, h₂⟩ := unpackRootfs_ok hunpack
  rw [h₁] at ht h₂
  have h₃ : w₃.bundles env.id = some ⟨some t, (env.save spec).2⟩ := by
    simp only [writeBundle, exec_act, Prod.mk.injEq] at hwrite
    obtain ⟨-, rfl⟩ := hwrite
    simp [World.setBundle, h₂]
  have hsame := recorded_bundles (u := u) ((exec_bind_ok htouch).trans hput)
  exact ⟨sandbox, config, image, _, okOr_eq_ok.1 hsandbox, okOr_eq_ok.1 hconfig, himage,
    hsame ▸ h₃, ⟨t, ht, rfl⟩, hchown, spec, hspec, rfl⟩

/-! ## After a sequence of image requests -/

variable {h : Images.Host Tree} {s : ImageState Tree}

/-- The blob of a layer, as `content.read` finds it. -/
def LayerBytes (h : Images.Host Tree) (blobs : OrdMap String Bytes) (layer : String)
    (bytes : Bytes) : Prop :=
  (h.sha256 bytes).toString = layer ∧ blobs.get? (h.sha256 bytes).hex = some bytes

/-- The archive of a blob has these entries. -/
def Archive (H : Snapshots.Host EntryBody) (bytes : Bytes) (items : List Item) : Prop :=
  H.entries (Compression.detect bytes) bytes = .ok (layerStream items)

theorem layerBytes_of_stored {layers : List String} {diffIds : List Digest}
    {blobs : OrdMap String Bytes} (hl : List.Forall₂ (LayerStored h blobs) layers diffIds) :
    ∃ contents, List.Forall₂ (LayerBytes h blobs) layers contents ∧
      List.Forall₂ (fun bytes diffId => ∃ mediaType, h.computeDiffId bytes mediaType = .ok diffId)
        contents diffIds := by
  induction hl with
  | nil => exact ⟨[], .nil, .nil⟩
  | cons hlayer _ ih =>
    obtain ⟨bytes, mediaType, hdigest, hstored, hdiff⟩ := hlayer
    obtain ⟨contents, hbytes, hdiffs⟩ := ih
    exact ⟨bytes :: contents, .cons ⟨hdigest, hstored⟩ hbytes, .cons ⟨mediaType, hdiff⟩ hdiffs⟩

/-- What is there is served. -/
theorem serves_of_bytes {H : Snapshots.Host EntryBody} {blobs : OrdMap String Bytes}
    {layers : List String} {contents : List Bytes}
    (hl : List.Forall₂ (LayerBytes h blobs) layers contents) :
    ∀ {items : List (List Item)}, List.Forall₂ (Archive H) contents items →
      List.Forall₂ (Serves H (contentRead blobs)) layers items := by
  induction hl with
  | nil =>
    intro items harchive
    cases harchive
    exact .nil
  | cons hlayer _ ih =>
    intro items harchive
    cases harchive with
    | cons hentries hrest =>
      obtain ⟨rfl, hstored⟩ := hlayer
      refine .cons ⟨_, _, Digest.parse_toString _, ?_, hentries⟩ (ih hrest)
      simp [contentRead, hstored]

theorem emptyRootfs_get? {q : List OsName} (hq : q ≠ []) : emptyRootfs.get? q = none := by
  simp [emptyRootfs, FileTree.get?, FileTree.first?, hq]

/-- `rootfs` is free of links when it has just been made. -/
theorem emptyRootfs_rooted : FileTree.Rooted emptyRootfs [] [] where
  plain :=
    { root := rfl
      parent := fun q n hs => by
        rw [List.nil_append, emptyRootfs_get? (by simp)] at hs
        cases hs
      noLinks := fun q x hx => by
        rw [List.nil_append] at hx
        by_cases hq : q = []
        · subst hq
          cases hx
          rfl
        · rw [emptyRootfs_get? hq] at hx
          cases hx }
  anchored := fun _ _ => rfl

/-- What was unpacked without an error is the tree of the image specification exactly when no path
    stays lost. -/
theorem unpacked_oci_iff {H : Snapshots.Host EntryBody} (laws : HostLaws H [] [])
    {read : Digest → Except String Bytes} {layers : List String} {items : List (List Item)}
    (hserves : List.Forall₂ (Serves H read) layers items) {t : Fs}
    (hok : Snapshots.unpackRootfs H read [] layers emptyRootfs = (.ok (), t)) :
    (∀ q, t.get? q = ociTree items q) ↔ ∀ q, Snapshots.Recovered items q := by
  have hiff := unpackRootfs_oci_iff laws hserves emptyRootfs_rooted fun q hq => emptyRootfs_get? hq
  have hclash : ¬ Clashes (view [] emptyRootfs) items.flatten := by
    intro hc
    obtain ⟨e, t', hfail⟩ := (unpackRootfs_refines laws hserves emptyRootfs emptyRootfs_rooted).2 hc
    rw [hok] at hfail
    cases hfail
  constructor
  · exact fun htree => (hiff.1 ⟨t, hok, htree⟩).2
  · intro hrec
    have hroot : view [] emptyRootfs = emptyRoot := by
      funext q
      by_cases hq : q = []
      · subst hq
        rfl
      · simp [view, emptyRoot, hq, emptyRootfs_get? hq]
    obtain ⟨t', hok', htree⟩ := hiff.2 ⟨hroot ▸ hclash, hrec⟩
    rw [hok] at hok'
    cases hok'
    exact htree

/-- `config` and `contents` are what the store has for a record: the layers have the diffIDs of a
    config with the same digest. -/
structure ImageBytes (h : Images.Host Tree) (blobs : OrdMap String Bytes) (r : ImageRecord)
    (config : Bytes) (contents : List Bytes) : Prop where
  imageId : (h.sha256 config).toString = r.imageId
  stored : blobs.get? (h.sha256 config).hex = some config
  layers : List.Forall₂ (LayerBytes h blobs) r.layerDigests contents
  diffIds : ∃ pulled texts diffIds, h.sha256 pulled = h.sha256 config ∧
    h.parseConfig pulled = .ok ⟨texts, r.user⟩ ∧ parseDigests texts = .ok diffIds ∧
    List.Forall₂ (fun bytes diffId => ∃ mediaType, h.computeDiffId bytes mediaType = .ok diffId)
      contents diffIds

theorem imageBytes_of_complete {blobs : OrdMap String Bytes} {r : ImageRecord} {pulled : Bytes}
    {diffIds : List Digest} (hc : Complete h blobs r pulled diffIds) :
    ∃ config contents, ImageBytes h blobs r config contents := by
  obtain ⟨config, hstored, hdigest⟩ := hc.stored
  obtain ⟨contents, hlayers, hdiffs⟩ := layerBytes_of_stored hc.layers
  obtain ⟨texts, hparsed, hdigests⟩ := hc.parsed
  exact ⟨config, contents, by rw [hdigest, hc.imageId], by rw [hdigest, hstored], hlayers, pulled,
    texts, diffIds, hdigest.symm, hparsed, hdigests, hdiffs⟩

/-- The image of a request is that of its record. -/
theorem ImageBytes.resolved {r : ImageRecord} {config : Bytes} {contents : List Bytes}
    (hb : ImageBytes h s.stores.blobs r config contents) {imageRef : String}
    (hfound : RuntimeSvc.findImage s.images imageRef = some r)
    (fromSlice : Bytes → Option OciImageConfig) :
    resolveImage fromSlice s imageRef =
      (((fromSlice config).map OciImageConfig.imageConfig).getD defaultImageConfig,
        r.layerDigests) := by
  simp only [resolveImage, hfound, Option.map_some, Option.getD_some, parseImageConfig,
    ← hb.imageId, Digest.parse_toString, contentRead, hb.stored]
  cases fromSlice config <;> rfl

/-- The bundle of a container, made of an image. -/
structure MadeOf (env : Env EntryBody Seccomp) (config : Runtime.ImageConfig)
    (contents : List Bytes) (b : BundleDir) : Prop where
  /-- If the archives of the layers hold `items`, the tree is that of the image specification
      exactly when every path that a layer loses to its own markers is set by a later layer. -/
  rootfs : ∃ t, b.rootfs = some t ∧ ∀ items, List.Forall₂ (Archive env.host) contents items →
    ((∀ q, t.get? q = ociTree items q) ↔ ∀ q, Snapshots.Recovered items q)
  configJson : ∃ sandbox containerConfig spec,
    generateSpec env config (containerRequest env sandbox containerConfig) = .ok spec ∧
    b.configJson = (env.save spec).2

/-- **From a record to a bundle.**  After every sequence of pulls and removals on empty stores, a
    call of `create_container` for a stored image that succeeds leaves a bundle that is made of the
    bytes with the digests of the record, and these are the layers of its config. -/
theorem created_from_image (h : Images.Host Tree) (s₀ : ImageState Tree)
    (himages : s₀.images = OrdMap.empty) (hblobs : s₀.stores.blobs = OrdMap.empty)
    (ls : List ImageRequest) (s : ImageState Tree) (hrun : run (imageStep h) s₀ ls = some s)
    (imageRef : String) (r : ImageRecord) (hfound : RuntimeSvc.findImage s.images imageRef = some r)
    (fromSlice : Bytes → Option OciImageConfig) (env : Env EntryBody Seccomp)
    (laws : HostLaws env.host [] []) (hread : env.read = contentRead s.stores.blobs)
    (himage : env.image = .ok (resolveImage fromSlice s imageRef))
    (sandboxes : Table SandboxRecord) (req : CreateContainerRequest) (w w' : World)
    (hfresh : w.bundles env.id = none) (rec : ContainerRecord)
    (hok : exec (createContainer env sandboxes req) w = (.ok rec, w')) :
    ∃ config contents b, ImageBytes h s.stores.blobs r config contents ∧
      w'.bundles env.id = some b ∧
      MadeOf env (((fromSlice config).map OciImageConfig.imageConfig).getD defaultImageConfig)
        contents b := by
  obtain ⟨id, hget⟩ := mem_list.1 (List.mem_of_find?_eq_some hfound)
  obtain ⟨_, _, hcomplete⟩ := (stored_run himages hblobs hrun).complete id r hget
  obtain ⟨config, contents, hbytes⟩ := imageBytes_of_complete hcomplete
  obtain ⟨sandbox, containerConfig, image, b, -, -, himage', hb, hfilled⟩ :=
    createContainer_ok hfresh hok
  rw [himage, Except.ok.injEq, hbytes.resolved hfound] at himage'
  subst himage'
  obtain ⟨t, hunpacked, ht⟩ := hfilled.rootfs
  refine ⟨config, contents, b, hbytes, hb, ⟨t, ht, fun items harchive => ?_⟩, sandbox,
    containerConfig, hfilled.configJson⟩
  have hserves := serves_of_bytes hbytes.layers harchive
  rw [← hread] at hserves
  exact unpacked_oci_iff laws hserves hunpacked

/-- The record of the image of one layer. -/
def emptyRecord : ImageRecord := pullRecord none "empty" oneLayerImage

/-- A call for that image, whose layer clears the root and puts a file there. -/
def imageEnv : Env EntryBody Unit :=
  { quietEnv with
    image := .ok (resolveImage (fun _ => none) oneLayerState "empty")
    read := contentRead oneLayerState.stores.blobs
    host := tarHost [] clearThenFile }

theorem created_from_empty : ∃ rec w' config contents b,
    exec (createContainer imageEnv sampleSandboxes ⟨"s1", some containerConfig⟩) emptyWorld =
      (.ok rec, w') ∧
    ImageBytes oneLayerHost oneLayerState.stores.blobs emptyRecord config contents ∧
    w'.bundles "c1" = some b ∧ MadeOf imageEnv defaultImageConfig contents b := by
  obtain ⟨rec, hrec⟩ : ∃ rec, (exec (createContainer imageEnv sampleSandboxes
      ⟨"s1", some containerConfig⟩) emptyWorld).1 = .ok rec := ⟨_, rfl⟩
  have hrun : run (imageStep oneLayerHost) noImages [.pull "empty" oneLayerAnswer .none] =
      some oneLayerState := by
    simp only [run, imageStep, handle, pull_oneLayer]
  obtain ⟨config, contents, b, hbytes, hb, hmade⟩ := created_from_image oneLayerHost noImages
    rfl rfl _ oneLayerState hrun "empty" emptyRecord rfl (fun _ => none) imageEnv
    (tarHost_laws [] [] clearThenFile) rfl rfl sampleSandboxes ⟨"s1", some containerConfig⟩
    emptyWorld _ rfl rec (Prod.ext hrec rfl)
  exact ⟨rec, _, config, contents, b, Prod.ext hrec rfl, hbytes, hb, hmade⟩

end ContainerdRs.Cri.Create
