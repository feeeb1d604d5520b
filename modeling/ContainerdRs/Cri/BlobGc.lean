import ContainerdRs.Cri.SnapshotGc
import ContainerdRs.Images.Blobs

/-!
# Blobs of image records

Records are kept by the digest of the config, blobs by the digest of their (compressed) bytes.  A
pull whose image id is known keeps the layer digests of the stored record and drops its own, but
the blobs of its own layers are committed by then.

* `blobs_pull_iff` — when a pull leaves every blob referenced; `blobs_remove` — a removal does.
* `blobs_referenced_iff` — over every sequence of successful requests.
* `recompressed_layer_leaks` — the run that leaks a blob.
-/

set_option autoImplicit false

namespace ContainerdRs.Cri

open Images Metadata Transition

variable {Tree : Type}

/-- The blob is the config or a layer of some stored record. -/
def BlobReferenced (images : Table ImageRecord) (blob : String) : Prop :=
  ∃ id r, get images ns id = some r ∧ blob ∈ referencedBlobs r

/-- **No leaked blobs**: every blob of the content store is referenced. -/
def BlobsReferenced (s : ImageState Tree) : Prop :=
  ∀ name, HasBlob s.stores name →
    ∃ d : Digest, d.hex = name ∧ BlobReferenced s.images d.toString

/-- The condition on a request, on what the registry serves and the state before: if a record is
    stored for the config of a pull, every layer of the manifest is referenced by some record. -/
def KeepsBlobs (h : Host Tree) (s : ImageState Tree) : ImageRequest → Prop
  | .pull _ a _ =>
    ∀ layers manifestDigest config, a.manifest = .ok (layers, manifestDigest, config) →
      (get s.images ns (h.sha256 config).toString).isSome = true →
        ∀ layer ∈ layers, ∀ d, Digest.parse layer.digest = .ok d →
          BlobReferenced s.images d.toString
  | .remove _ _ => True

/-- Records are keyed by their ids, and every blob is referenced. -/
structure BlobInv (s : ImageState Tree) : Prop where
  records : RecordsInv s.images
  blobs : BlobsReferenced s

/-! ## Pulls -/

/-- What a new record references. -/
theorem referenced_put_new {images : Table ImageRecord} {reference : String} {pulled : PulledImage}
    (hn : get images ns pulled.imageId.toString = none) {blob : String}
    (h : BlobReferenced images blob ∨ blob = pulled.imageId.toString ∨
      ∃ d ∈ pulled.layerDigests, d.toString = blob) :
    BlobReferenced (pullTable images reference pulled) blob := by
  rcases h with ⟨id, r, hg, hb⟩ | hnew
  · have hid : id ≠ pulled.imageId.toString := by
      rintro rfl
      rw [hn] at hg
      cases hg
    exact ⟨id, r, by rw [get_pullTable_other hid]; exact hg, hb⟩
  · refine ⟨_, _, get_pullTable_self, ?_⟩
    rw [hn]
    simpa [referencedBlobs, pullRecord, newRecord, eq_comm] using hnew

/-- A record that is found keeps what it references. -/
theorem referenced_put_old {images : Table ImageRecord} {reference : String} {pulled : PulledImage}
    {old : ImageRecord} (ho : get images ns pulled.imageId.toString = some old) (blob : String) :
    BlobReferenced (pullTable images reference pulled) blob ↔ BlobReferenced images blob := by
  have hrec : referencedBlobs
      (pullRecord (get images ns pulled.imageId.toString) reference pulled) =
      referencedBlobs old := by
    rw [ho]
    rfl
  constructor
  · rintro ⟨id, r, hg, hb⟩
    by_cases hid : id = pulled.imageId.toString
    · rw [hid, get_pullTable_self] at hg
      cases hg
      rw [hrec] at hb
      exact ⟨_, old, ho, hb⟩
    · rw [get_pullTable_other hid] at hg
      exact ⟨id, r, hg, hb⟩
  · rintro ⟨id, r, hg, hb⟩
    by_cases hid : id = pulled.imageId.toString
    · rw [hid, ho] at hg
      cases hg
      exact ⟨_, _, get_pullTable_self, by rw [hrec]; exact hb⟩
    · exact ⟨id, r, by rw [get_pullTable_other hid]; exact hg, hb⟩

/-- The layers of the manifest are the layer digests of the image. -/
theorem mem_layerDigests {layers : List Descriptor} {digests : List Digest}
    (h : layers.map (fun d => Digest.parse d.digest) = digests.map .ok) {d : Digest} :
    d ∈ digests ↔ ∃ layer ∈ layers, Digest.parse layer.digest = .ok d := by
  have hmem : (.ok d : Except DigestError Digest) ∈ digests.map .ok ↔ d ∈ digests := by
    simp
  rw [← hmem, ← h, List.mem_map]

/-- A successful pull leaves every blob referenced exactly if it meets the condition. -/
theorem blobs_pull_iff {h : Host Tree} {a : Answer} {f : Faults} {reference : String}
    {s s' : ImageState Tree} {reply : Reply} (hi : BlobInv s)
    (hp : pullImage h a f reference s = (.ok reply, s')) :
    BlobsReferenced s' ↔ KeepsBlobs h s (.pull reference a f) := by
  obtain ⟨pulled, hw, rfl, himg⟩ := pullImage_ok hp
  have himg : s'.images = pullTable s.images reference pulled := himg
  obtain ⟨layers, manifestDigest, config, hmanifest, hid, hlayers, hblobs⟩ :=
    pullWithOptions_blobs hw
  -- the condition, on the manifest that was served
  have hcond : KeepsBlobs h s (.pull reference a f) ↔
      ((get s.images ns pulled.imageId.toString).isSome = true →
        ∀ d ∈ pulled.layerDigests, BlobReferenced s.images d.toString) := by
    constructor
    · intro hk hsome d hd
      obtain ⟨layer, hlayer, hparse⟩ := (mem_layerDigests hlayers).1 hd
      exact hk layers manifestDigest config hmanifest (hid ▸ hsome) layer hlayer d hparse
    · intro hk layers' manifestDigest' config' hmanifest' hsome layer hlayer d hparse
      rw [hmanifest] at hmanifest'
      cases hmanifest'
      exact hk (hid ▸ hsome) d ((mem_layerDigests hlayers).2 ⟨layer, hlayer, hparse⟩)
  rw [hcond]
  cases ho : get s.images ns pulled.imageId.toString with
  | none =>
    refine iff_of_true ?_ (by simp)
    intro name hname
    rcases (hblobs name).1 hname with hold | rfl | ⟨d, hd, rfl⟩
    · obtain ⟨d, rfl, href⟩ := hi.blobs name hold
      exact ⟨d, rfl, himg ▸ referenced_put_new ho (.inl href)⟩
    · exact ⟨_, rfl, himg ▸ referenced_put_new ho (.inr (.inl rfl))⟩
    · exact ⟨d, rfl, himg ▸ referenced_put_new ho (.inr (.inr ⟨d, hd, rfl⟩))⟩
  | some old =>
    have href : ∀ blob, BlobReferenced s'.images blob ↔ BlobReferenced s.images blob := by
      intro blob
      rw [himg]
      exact referenced_put_old ho blob
    constructor
    · rintro hs' - d hd
      obtain ⟨d', hd', hr⟩ := hs' d.hex ((hblobs _).2 (.inr (.inr ⟨d, hd, rfl⟩)))
      rw [Digest.hex_injective hd'] at hr
      exact (href _).1 hr
    · intro hk name hname
      rcases (hblobs name).1 hname with hold | rfl | ⟨d, hd, rfl⟩
      · obtain ⟨d, rfl, hr⟩ := hi.blobs name hold
        exact ⟨d, rfl, (href _).2 hr⟩
      · -- the config is that of the record that was found
        refine ⟨_, rfl, (href _).2 ⟨_, old, ho, ?_⟩⟩
        rw [referencedBlobs, (hi.records _ old ho).keyed]
        exact List.mem_cons_self
      · exact ⟨d, rfl, (href _).2 (hk rfl d hd)⟩

/-! ## Removals -/

/-- A successful removal leaves every blob referenced. -/
theorem blobs_remove {f : Faults} {key : String} {s s' : ImageState Tree} {reply : Reply}
    (hi : BlobInv s) (hr : removeImage f key s = (.ok reply, s')) : BlobsReferenced s' := by
  rcases removeImage_ok hr with ⟨-, rfl⟩ | ⟨rec, hf, himg, hstores⟩
  · exact hi.blobs
  · intro name hname
    rw [hstores, reclaim_hasBlob] at hname
    obtain ⟨hold, hkept⟩ := hname
    obtain ⟨d, rfl, id, r, hg, hb⟩ := hi.blobs name hold
    refine ⟨d, rfl, ?_⟩
    by_cases hid : id = rec.imageId
    · -- the removed record referenced it: a live one does as well, or it is reclaimed
      obtain ⟨id', hg'⟩ := findImage_get hf
      have hrec : r = rec := by
        rw [hid, (hi.records id' rec hg').keyed, hg'] at hg
        exact (Option.some.inj hg).symm
      subst hrec
      have hlive : d.toString ∈ (list s'.images ns).flatMap referencedBlobs := by
        by_contra hnot
        exact hkept d.toString hb ⟨hnot, d, Digest.parse_toString d, rfl⟩
      obtain ⟨r', hr', hb'⟩ := List.mem_flatMap.1 hlive
      obtain ⟨id'', hg''⟩ := mem_list.1 hr'
      exact ⟨id'', r', hg'', hb'⟩
    · exact ⟨id, r, by rw [himg, get_delete, if_neg hid]; exact hg, hb⟩

/-! ## Sequences of requests -/

/-- One successful request. -/
theorem blobs_step {h : Host Tree} {s s' : ImageState Tree} {r : ImageRequest}
    (hi : BlobInv s) (hok : Succeeds h s r) (hstep : imageStep h s r = some s') :
    RecordsInv s'.images ∧ (BlobsReferenced s' ↔ KeepsBlobs h s r) := by
  refine ⟨recordsInv_step hi.records hstep, ?_⟩
  obtain ⟨reply, hreply⟩ := hok
  cases hstep
  cases r with
  | pull reference a f =>
    have hp : pullImage h a f reference s = (.ok reply, (pullImage h a f reference s).2) :=
      Prod.ext hreply rfl
    exact blobs_pull_iff hi hp
  | remove key f =>
    have hr : removeImage f key s = (.ok reply, (removeImage f key s).2) := Prod.ext hreply rfl
    exact iff_of_true (blobs_remove hi hr) trivial

theorem blobInv_empty {s : ImageState Tree} (himages : s.images = OrdMap.empty)
    (hblobs : s.stores.blobs = OrdMap.empty) : BlobInv s := by
  constructor
  · rw [himages]
    exact lookupInv_empty.records
  · intro name hname
    rw [HasBlob, hblobs] at hname
    cases hname

/-- **Blobs along every sequence of successful requests** from empty stores: every blob is the
    config or a layer of a stored record after each of them, exactly if every pull of a config
    that is already stored brings only layers that stored records list. -/
theorem blobs_referenced_iff (h : Host Tree) {s₀ : ImageState Tree}
    (himages : s₀.images = OrdMap.empty) (hblobs : s₀.stores.blobs = OrdMap.empty)
    {ls : List ImageRequest}
    (hok : ∀ x ∈ steps (imageStep h) s₀ ls, Succeeds h x.1 x.2.1) :
    (∀ x ∈ steps (imageStep h) s₀ ls, BlobsReferenced x.2.2) ↔
      ∀ x ∈ steps (imageStep h) s₀ ls, KeepsBlobs h x.1 x.2.1 := by
  have hstep : ∀ s l s', BlobInv s → Succeeds h s l → KeepsBlobs h s l →
      imageStep h s l = some s' → BlobInv s' := by
    intro s l s' hi hok hk hs
    obtain ⟨hrecords, hiff⟩ := blobs_step hi hok hs
    exact ⟨hrecords, hiff.2 hk⟩
  exact forall_steps_iff_of hstep (fun s l s' hi hok hs => (blobs_step hi hok hs).2) ls s₀
    (blobInv_empty himages hblobs) hok

/-! ## The leak -/

/-- The pull of one image alone keeps every blob referenced. -/
theorem pulled_blobs_referenced :
    noImages.images = OrdMap.empty ∧ noImages.stores.blobs = OrdMap.empty ∧
    ∀ x ∈ steps (imageStep oneLayerHost) noImages [.pull "empty" oneLayerAnswer .none],
      BlobsReferenced x.2.2 := by
  have himages : noImages.images = OrdMap.empty := rfl
  have hblobs : noImages.stores.blobs = OrdMap.empty := rfl
  refine ⟨himages, hblobs, (blobs_referenced_iff oneLayerHost himages hblobs ?_).2 ?_⟩
  · intro x hx
    simp only [steps, imageStep, List.mem_singleton] at hx
    subst hx
    exact ⟨.pulled oneLayerDigest.toString, by simp only [handle, pull_oneLayer]⟩
  · intro x hx
    simp only [steps, imageStep, List.mem_singleton] at hx
    subst hx
    intro layers manifestDigest config _ hsome
    simp [himages] at hsome

/-- The empty layer, compressed: a gzip file without content. -/
def gzipEmpty : Bytes := [0x1f, 0x8b, 8, 0, 0, 0, 0, 0, 0, 3, 3, 0, 0, 0, 0, 0, 0, 0, 0, 0]

/-- Its sha256. -/
def gzipLayerDigest : Digest :=
  ⟨"59869db34853933b239f1e2219cf7d431da006aa919635478511fabbfc8849d2", by decide, by decide⟩

/-- The code of a pull, on the image of one empty layer in its two forms. -/
def twoFormsHost : Host Unit :=
  { oneLayerHost with
    sha256 := fun b =>
      if b = [] then emptyLayerDigest
      else if b = gzipEmpty then gzipLayerDigest
      else oneLayerDigest }

/-- The registry serves the same config with the compressed layer. -/
def gzipAnswer : Answer where
  parseError := none
  manifest :=
    .ok ([⟨gzipLayerDigest.toString, 20, "application/vnd.oci.image.layer.v1.tar+gzip"⟩], "",
      oneLayerConfig)
  blob _ := .ok gzipEmpty

/-- What the pull of the plain form reports. -/
def plainImage : PulledImage := { oneLayerImage with reference := "plain" }

/-- The state after it. -/
def plainState : ImageState Unit where
  images := pullTable OrdMap.empty "plain" plainImage
  stores := oneLayerState.stores

/-- The two forms of the layer and the config have different digests. -/
theorem twoFormsHost_sha256 :
    twoFormsHost.sha256 oneLayerConfig = oneLayerDigest ∧
      twoFormsHost.sha256 [] = emptyLayerDigest ∧
      twoFormsHost.sha256 gzipEmpty = gzipLayerDigest := by
  have hne : oneLayerConfig ≠ [] := by decide
  have hgz : oneLayerConfig ≠ gzipEmpty := by decide
  have hgz' : gzipEmpty ≠ [] := by decide
  refine ⟨?_, ?_, ?_⟩
  · simp [twoFormsHost, hne, hgz]
  · simp [twoFormsHost]
  · simp [twoFormsHost, hgz']

theorem pull_plain :
    pullImage twoFormsHost oneLayerAnswer .none "plain" noImages =
      (.ok (.pulled oneLayerDigest.toString), plainState) := by
  obtain ⟨himage, hempty, -⟩ := twoFormsHost_sha256
  have hhex : emptyLayerDigest.hex ≠ oneLayerDigest.hex := by decide
  have hcommit : commitBlob twoFormsHost OrdMap.empty oneLayerConfig oneLayerConfig.length
      (twoFormsHost.sha256 oneLayerConfig) =
        .ok (OrdMap.empty.insert oneLayerDigest.hex oneLayerConfig) := by
    simp [commitBlob, himage]
  have hcommit' : commitBlob twoFormsHost (OrdMap.empty.insert oneLayerDigest.hex oneLayerConfig) []
      ([] : Bytes).length emptyLayerDigest = .ok oneLayerState.stores.blobs := by
    simp [commitBlob, hempty, OrdMap.get?_insert, hhex, oneLayerState]
  have hstored : oneLayerState.stores.blobs.get? emptyLayerDigest.hex = some [] := by
    simp [oneLayerState, OrdMap.get?_insert]
  have hunpack : unpackSnapshot twoFormsHost
      { noImages.stores with blobs := oneLayerState.stores.blobs } emptyLayerDigest []
      "application/vnd.oci.image.layer.v1.tar" = (.ok (), oneLayerState.stores) := by
    simp [unpackSnapshot, twoFormsHost, oneLayerHost, noImages, oneLayerState]
  have hp := pullWithOptions_single (a := oneLayerAnswer) "plain" rfl rfl rfl rfl rfl rfl hcommit
    hcommit' hstored rfl hunpack
  rw [himage] at hp
  exact pullImage_of_pulled (by decide) hp

/-- The pull of the compressed form behind it succeeds as well. -/
theorem pull_gzip : ∃ s,
    pullImage twoFormsHost gzipAnswer .none "gzip" plainState =
      (.ok (.pulled oneLayerDigest.toString), s) := by
  obtain ⟨himage, -, hgzip⟩ := twoFormsHost_sha256
  have hempty : emptyLayerDigest.hex ≠ oneLayerDigest.hex := by decide
  have hgz : gzipLayerDigest.hex ≠ emptyLayerDigest.hex := by decide
  have hgz' : gzipLayerDigest.hex ≠ oneLayerDigest.hex := by decide
  have hcommit : commitBlob twoFormsHost plainState.stores.blobs oneLayerConfig
      oneLayerConfig.length (twoFormsHost.sha256 oneLayerConfig) =
        .ok plainState.stores.blobs := by
    simp [commitBlob, himage, plainState, oneLayerState, OrdMap.get?_insert, hempty.symm]
  have hcommit' : commitBlob twoFormsHost plainState.stores.blobs gzipEmpty gzipEmpty.length
      gzipLayerDigest = .ok (plainState.stores.blobs.insert gzipLayerDigest.hex gzipEmpty) := by
    simp [commitBlob, hgzip, plainState, oneLayerState, OrdMap.get?_insert, hgz, hgz']
  have hstored : (plainState.stores.blobs.insert gzipLayerDigest.hex gzipEmpty).get?
      gzipLayerDigest.hex = some gzipEmpty := by
    simp [OrdMap.get?_insert]
  have hunpack : unpackSnapshot twoFormsHost
      { plainState.stores with
        blobs := plainState.stores.blobs.insert gzipLayerDigest.hex gzipEmpty }
      emptyLayerDigest gzipEmpty "application/vnd.oci.image.layer.v1.tar+gzip" =
        (.ok (), ⟨plainState.stores.blobs.insert gzipLayerDigest.hex gzipEmpty,
          plainState.stores.snapshots.insert emptyLayerDigest.hex ()⟩) := by
    simp [unpackSnapshot, twoFormsHost, oneLayerHost]
  have hp := pullWithOptions_single (a := gzipAnswer) "gzip" rfl rfl rfl rfl rfl rfl hcommit
    hcommit' hstored rfl hunpack
  rw [himage] at hp
  exact ⟨_, pullImage_of_pulled (by decide) hp⟩

/-- The one record of the plain form lists the config and the plain layer. -/
theorem plainState_referenced {blob : String} (h : BlobReferenced plainState.images blob) :
    blob = oneLayerDigest.toString ∨ blob = emptyLayerDigest.toString := by
  obtain ⟨id, r, hg, hb⟩ := h
  have hg : get (pullTable OrdMap.empty "plain" plainImage) ns id = some r := hg
  by_cases hid : id = plainImage.imageId.toString
  · rw [hid, get_pullTable_self] at hg
    cases hg
    simpa [referencedBlobs, pullRecord, newRecord, plainImage, oneLayerImage] using hb
  · rw [get_pullTable_other hid] at hg
    simp at hg

/-- A config is pulled with a plain layer and then, under another reference, with the layer
    compressed: the second blob belongs to no record. -/
theorem recompressed_layer_leaks :
    ¬ ∀ (h : Host Unit) (s₀ : ImageState Unit) (ls : List ImageRequest),
      s₀.images = OrdMap.empty → s₀.stores.blobs = OrdMap.empty →
      (∀ x ∈ steps (imageStep h) s₀ ls, Succeeds h x.1 x.2.1) →
        ∀ x ∈ steps (imageStep h) s₀ ls, BlobsReferenced x.2.2 := by
  intro h
  obtain ⟨s, hgzip⟩ := pull_gzip
  have hx := h twoFormsHost noImages
    [.pull "plain" oneLayerAnswer .none, .pull "gzip" gzipAnswer .none] rfl rfl
  simp only [steps, imageStep, handle, pull_plain, hgzip, List.forall_mem_cons] at hx
  obtain ⟨hplain, hlast, -⟩ := hx
    ⟨⟨.pulled oneLayerDigest.toString, by simp only [handle, pull_plain]⟩,
      ⟨.pulled oneLayerDigest.toString, by simp only [handle, hgzip]⟩, by simp⟩
  have hinv : BlobInv plainState := by
    refine ⟨?_, hplain⟩
    exact pullTable_records "plain" plainImage lookupInv_empty.records
  -- the digest of the config has a record, and that does not list the compressed layer
  have hk := (blobs_pull_iff hinv hgzip).1 hlast
  have href := hk _ _ _ rfl (by
    show (get (pullTable OrdMap.empty "plain" plainImage) ns plainImage.imageId.toString).isSome = _
    rw [get_pullTable_self]
    rfl) _ List.mem_cons_self gzipLayerDigest (Digest.parse_toString _)
  rcases plainState_referenced href with heq | heq
  · exact absurd heq (by decide)
  · exact absurd heq (by decide)

end ContainerdRs.Cri
