import ContainerdRs.Cri.ImageLookup

/-!
# Snapshot directories of removed images

A pull names the snapshot directory of a layer by the hex of its chainID
(`snapshot_dirs(root, chain_ids[i].hex())`); the record keeps the chainID as `sha256:<hex>`, and
`reclaim` looks for a directory of that name.  So a removal never finds the directories that
pulls created.

* `reclaim_keeps_dirs` — a removal leaves all snapshot directories in place.
* `snapshots_listed_iff` — over every sequence of successful requests: each snapshot directory
  belongs to a stored record exactly when no removal takes the last record of a chainID.
* `removed_image_leaks_snapshot` — the run that leaks one.
-/

set_option autoImplicit false

namespace ContainerdRs.Cri

open Images Metadata Transition

variable {Tree : Type}

/-- Some record lists the chainID. -/
def Listed (images : Table ImageRecord) (chain : String) : Prop :=
  ∃ id r, get images ns id = some r ∧ chain ∈ r.chainIds

/-- Every snapshot directory belongs to the chainIDs of a stored record. -/
def SnapshotsListed (s : ImageState Tree) : Prop :=
  ∀ name, HasDir s.stores name → ∃ c : Digest, c.hex = name ∧ Listed s.images c.toString

/-- The invariant: records are keyed by their ids, the directories of their chainIDs exist, and
    there are no others. -/
structure SnapshotInv (s : ImageState Tree) : Prop where
  records : RecordsInv s.images
  listed : SnapshotsListed s
  present : ∀ chain, Listed s.images chain →
    ∃ c : Digest, c.toString = chain ∧ HasDir s.stores c.hex

/-- A directory name is never the string form of a chainID. -/
theorem hex_ne_toString (c d : Digest) : c.hex ≠ d.toString := by
  intro h
  have hlen := congrArg (fun s => s.toList.length) h
  simp only [Digest.toString, String.toList_append, List.length_append, c.length, d.length] at hlen
  have : ("sha256:").toList.length = 7 := by decide
  omega

/-! ## One request -/

/-- The answer is not an error. -/
def Succeeds (h : Host Tree) (s : ImageState Tree) (r : ImageRequest) : Prop :=
  ∃ reply, (handle h s r).1 = .ok reply

/-- The condition on a request, on the state before it: a removal takes no chainID's last
    record, and a pull that finds a record under its image id has its chainIDs listed. -/
def KeepsListed (h : Host Tree) (s : ImageState Tree) : ImageRequest → Prop
  | .pull reference a _ =>
    ∀ pulled stores, pullWithOptions h a reference s.stores = (.ok pulled, stores) →
      (get s.images ns pulled.imageId.toString).isSome = true →
        ∀ c ∈ pulled.chainIds, Listed s.images c.toString
  | .remove key _ =>
    ∀ rec, ImageSvc.findImage s.images key = some rec →
      ∀ chain ∈ rec.chainIds, ∃ id r, id ≠ rec.imageId ∧ get s.images ns id = some r ∧
        chain ∈ r.chainIds

theorem listed_put_new {images : Table ImageRecord} {reference : String} {pulled : PulledImage}
    (hn : get images ns pulled.imageId.toString = none) (chain : String) :
    Listed (pullTable images reference pulled) chain ↔
      Listed images chain ∨ ∃ c ∈ pulled.chainIds, c.toString = chain := by
  have hrec : (pullRecord (get images ns pulled.imageId.toString) reference pulled).chainIds =
      pulled.chainIds.map (·.toString) := by
    rw [hn]
    rfl
  constructor
  · rintro ⟨id, r, hg, hc⟩
    by_cases hid : id = pulled.imageId.toString
    · rw [hid, get_pullTable_self] at hg
      cases hg
      rw [hrec] at hc
      exact Or.inr (by simpa using hc)
    · rw [get_pullTable_other hid] at hg
      exact Or.inl ⟨id, r, hg, hc⟩
  · rintro (⟨id, r, hg, hc⟩ | hc)
    · have hid : id ≠ pulled.imageId.toString := by
        rintro rfl
        rw [hn] at hg
        cases hg
      exact ⟨id, r, by rw [get_pullTable_other hid]; exact hg, hc⟩
    · refine ⟨_, _, get_pullTable_self, ?_⟩
      rw [hrec]
      simpa using hc

/-- A record found under the image id keeps its chainIDs. -/
theorem listed_put_old {images : Table ImageRecord} {reference : String} {pulled : PulledImage}
    {old : ImageRecord} (ho : get images ns pulled.imageId.toString = some old) (chain : String) :
    Listed (pullTable images reference pulled) chain ↔ Listed images chain := by
  have hrec : (pullRecord (get images ns pulled.imageId.toString) reference pulled).chainIds =
      old.chainIds := by
    rw [ho]
    rfl
  constructor
  · rintro ⟨id, r, hg, hc⟩
    by_cases hid : id = pulled.imageId.toString
    · rw [hid, get_pullTable_self] at hg
      cases hg
      rw [hrec] at hc
      exact ⟨_, old, ho, hc⟩
    · rw [get_pullTable_other hid] at hg
      exact ⟨id, r, hg, hc⟩
  · rintro ⟨id, r, hg, hc⟩
    by_cases hid : id = pulled.imageId.toString
    · rw [hid, ho] at hg
      cases hg
      exact ⟨_, _, get_pullTable_self, by rw [hrec]; exact hc⟩
    · exact ⟨id, r, by rw [get_pullTable_other hid]; exact hg, hc⟩

theorem listed_delete {images : Table ImageRecord} {id : String} (chain : String) :
    Listed (delete images ns id).2 chain ↔
      ∃ id' r, id' ≠ id ∧ get images ns id' = some r ∧ chain ∈ r.chainIds := by
  constructor
  · rintro ⟨id', r, hg, hc⟩
    rw [get_delete] at hg
    split at hg
    · cases hg
    · rename_i hne
      exact ⟨id', r, hne, hg, hc⟩
  · rintro ⟨id', r, hne, hg, hc⟩
    exact ⟨id', r, by rw [get_delete, if_neg hne]; exact hg, hc⟩

/-- A successful removal found nothing, or deleted its record and reclaimed. -/
theorem removeImage_ok {f : Faults} {key : String} {s s' : ImageState Tree} {reply : Reply}
    (hr : removeImage f key s = (.ok reply, s')) :
    (ImageSvc.findImage s.images key = none ∧ s' = s) ∨
      ∃ rec, ImageSvc.findImage s.images key = some rec ∧
        s'.images = (delete s.images ns rec.imageId).2 ∧
        s'.stores = (reclaim s.stores rec (list s'.images ns)).2 := by
  unfold removeImage at hr
  split at hr
  · cases hr
  · split at hr
    · rename_i hf
      cases hr
      exact Or.inl ⟨hf, rfl⟩
    · rename_i rec hf
      split at hr
      · cases hr
      · dsimp only at hr
        split at hr
        · cases hr
        · cases hr
          exact Or.inr ⟨rec, hf, rfl, rfl⟩

/-- What a lookup returns is stored. -/
theorem findImage_get {images : Table ImageRecord} {key : String} {rec : ImageRecord}
    (h : ImageSvc.findImage images key = some rec) : ∃ id, get images ns id = some rec := by
  unfold ImageSvc.findImage at h
  split at h
  · rename_i r hg
    cases h
    exact ⟨key, hg⟩
  · exact mem_list.1 (List.mem_of_find?_eq_some h)

/-- **A removal finds no directory to delete**: the names pulls create are not the names
    `reclaim` looks for. -/
theorem reclaim_keeps_dirs {s : ImageState Tree} (hi : SnapshotInv s) {rec : ImageRecord}
    (hrec : ∀ chain ∈ rec.chainIds, Listed s.images chain) (live : List ImageRecord)
    (name : String) : HasDir (reclaim s.stores rec live).2 name ↔ HasDir s.stores name := by
  rw [reclaim_hasDir]
  refine and_iff_left_of_imp ?_
  rintro hd ⟨hc, -⟩
  obtain ⟨c, rfl, -⟩ := hi.listed name hd
  obtain ⟨d, hd, -⟩ := hi.present _ (hrec _ hc)
  exact hex_ne_toString c d hd.symm

/-- The directories of the listed chainIDs exist. -/
def DirsPresent (s : ImageState Tree) : Prop :=
  ∀ chain, Listed s.images chain → ∃ c : Digest, c.toString = chain ∧ HasDir s.stores c.hex

/-- A successful pull: records and directories after it. -/
theorem pull_snapshots {h : Host Tree} {a : Answer} {f : Faults} {reference : String}
    {s s' : ImageState Tree} {reply : Reply} (hi : SnapshotInv s)
    (hp : pullImage h a f reference s = (.ok reply, s')) :
    RecordsInv s'.images ∧ DirsPresent s' ∧
      (SnapshotsListed s' ↔ KeepsListed h s (.pull reference a f)) := by
  obtain ⟨pulled, hw, rfl, himg⟩ := pullImage_ok hp
  have himg : s'.images = pullTable s.images reference pulled := himg
  have hdirs := pullWithOptions_ok hw
  have hold : ∀ name, HasDir s.stores name → HasDir s'.stores name :=
    fun name hd => (hdirs name).2 (Or.inl hd)
  refine ⟨himg ▸ pullTable_records reference pulled hi.records, ?_, ?_⟩
  · intro chain hl
    rw [himg] at hl
    have hl : Listed s.images chain ∨ ∃ c ∈ pulled.chainIds, c.toString = chain := by
      cases ho : get s.images ns pulled.imageId.toString with
      | none => exact (listed_put_new ho chain).1 hl
      | some old => exact Or.inl ((listed_put_old ho chain).1 hl)
    rcases hl with hl | ⟨c, hc, rfl⟩
    · obtain ⟨c, rfl, hd⟩ := hi.present chain hl
      exact ⟨c, rfl, hold _ hd⟩
    · exact ⟨c, rfl, (hdirs c.hex).2 (Or.inr ⟨c, hc, rfl⟩)⟩
  · cases ho : get s.images ns pulled.imageId.toString with
    | none =>
      constructor
      · intro _ pulled' stores' hw'
        rw [hw] at hw'
        cases hw'
        simp [ho]
      · rintro - name hd
        rcases (hdirs name).1 hd with hd | ⟨c, hc, rfl⟩
        · obtain ⟨c, rfl, hl⟩ := hi.listed name hd
          exact ⟨c, rfl, himg ▸ (listed_put_new ho _).2 (Or.inl hl)⟩
        · exact ⟨c, rfl, himg ▸ (listed_put_new ho _).2 (Or.inr ⟨c, hc, rfl⟩)⟩
    | some old =>
      have hl : ∀ chain, Listed s'.images chain ↔ Listed s.images chain := by
        intro chain
        rw [himg]
        exact listed_put_old ho chain
      constructor
      · intro hs' pulled' stores' hw' _ c hc
        rw [hw] at hw'
        cases hw'
        obtain ⟨c', hc', hl'⟩ := hs' c.hex ((hdirs c.hex).2 (Or.inr ⟨c, hc, rfl⟩))
        rw [Digest.hex_injective hc'] at hl'
        exact (hl _).1 hl'
      · intro hk name hd
        rcases (hdirs name).1 hd with hd | ⟨c, hc, rfl⟩
        · obtain ⟨c, rfl, hlist⟩ := hi.listed name hd
          exact ⟨c, rfl, (hl _).2 hlist⟩
        · exact ⟨c, rfl, (hl _).2 (hk pulled _ hw (by simp [ho]) c hc)⟩

/-- A successful removal: records and directories after it. -/
theorem remove_snapshots {h : Host Tree} {f : Faults} {key : String} {s s' : ImageState Tree}
    {reply : Reply} (hi : SnapshotInv s) (hr : removeImage f key s = (.ok reply, s')) :
    RecordsInv s'.images ∧ DirsPresent s' ∧
      (SnapshotsListed s' ↔ KeepsListed h s (.remove key f)) := by
  rcases removeImage_ok hr with ⟨hf, rfl⟩ | ⟨rec, hf, himg, hstores⟩
  · refine ⟨hi.records, hi.present, fun _ rec hrec => ?_, fun _ => hi.listed⟩
    rw [hf] at hrec
    cases hrec
  · obtain ⟨id, hg⟩ := findImage_get hf
    have hkey := (hi.records id rec hg).keyed
    have hdirs : ∀ name, HasDir s'.stores name ↔ HasDir s.stores name := by
      intro name
      rw [hstores]
      exact reclaim_keeps_dirs hi (fun chain hc => ⟨id, rec, hg, hc⟩) _ name
    have hl : ∀ chain, Listed s'.images chain ↔
        ∃ id' r, id' ≠ rec.imageId ∧ get s.images ns id' = some r ∧ chain ∈ r.chainIds := by
      intro chain
      rw [himg]
      exact listed_delete chain
    refine ⟨?_, ?_, ?_, ?_⟩
    · intro id' r hg'
      rw [himg] at hg'
      exact hi.records id' r (get_of_get_delete hg')
    · intro chain hc
      obtain ⟨id', r, -, hg', hc⟩ := (hl chain).1 hc
      obtain ⟨c, rfl, hd⟩ := hi.present chain ⟨id', r, hg', hc⟩
      exact ⟨c, rfl, (hdirs _).2 hd⟩
    · intro hs' rec' hf' chain hc
      rw [hf] at hf'
      cases hf'
      obtain ⟨c, rfl, hd⟩ := hi.present chain ⟨id, rec, hg, hc⟩
      obtain ⟨c', hc', hl'⟩ := hs' c.hex ((hdirs _).2 hd)
      rw [Digest.hex_injective hc'] at hl'
      exact (hl _).1 hl'
    · intro hk name hd
      obtain ⟨c, rfl, id', r, hg', hc⟩ := hi.listed name ((hdirs name).1 hd)
      refine ⟨c, rfl, (hl _).2 ?_⟩
      by_cases hid : id' = rec.imageId
      · have hrr : r = rec := by
          rw [hid, hkey, hg] at hg'
          exact (Option.some.inj hg').symm
        exact hk rec hf _ (hrr ▸ hc)
      · exact ⟨id', r, hid, hg', hc⟩

/-- One successful request. -/
theorem snapshots_step {h : Host Tree} {s s' : ImageState Tree} {r : ImageRequest}
    (hi : SnapshotInv s) (hok : Succeeds h s r) (hstep : imageStep h s r = some s') :
    RecordsInv s'.images ∧ DirsPresent s' ∧ (SnapshotsListed s' ↔ KeepsListed h s r) := by
  obtain ⟨reply, hreply⟩ := hok
  cases hstep
  cases r with
  | pull reference a f => exact pull_snapshots hi (Prod.ext hreply rfl)
  | remove key f => exact remove_snapshots hi (Prod.ext hreply rfl)

/-! ## Sequences of requests -/

theorem snapshotInv_empty {s : ImageState Tree} (himages : s.images = OrdMap.empty)
    (hsnaps : s.stores.snapshots = OrdMap.empty) : SnapshotInv s := by
  refine ⟨?_, fun name hd => ?_, ?_⟩
  · rw [himages]
    exact lookupInv_empty.records
  · rw [HasDir, hsnaps] at hd
    cases hd
  · rintro chain ⟨id, r, hg, -⟩
    rw [himages] at hg
    cases hg

/-- **Snapshot directories along every sequence of successful requests** from empty stores. -/
theorem snapshots_listed_iff (h : Host Tree) {s₀ : ImageState Tree}
    (himages : s₀.images = OrdMap.empty) (hsnaps : s₀.stores.snapshots = OrdMap.empty)
    {ls : List ImageRequest}
    (hok : ∀ x ∈ steps (imageStep h) s₀ ls, Succeeds h x.1 x.2.1) :
    (∀ x ∈ steps (imageStep h) s₀ ls, SnapshotsListed x.2.2) ↔
      ∀ x ∈ steps (imageStep h) s₀ ls, KeepsListed h x.1 x.2.1 := by
  have hinv : SnapshotInv s₀ := snapshotInv_empty himages hsnaps
  have hstep : ∀ s l s', SnapshotInv s → Succeeds h s l → KeepsListed h s l →
      imageStep h s l = some s' → SnapshotInv s' := by
    intro s l s' hi hok hk hs
    obtain ⟨h1, h2, h3⟩ := snapshots_step hi hok hs
    exact ⟨h1, h3.2 hk, h2⟩
  exact forall_steps_iff_of hstep (fun s l s' hi hok hs => (snapshots_step hi hok hs).2.2) ls s₀
    hinv hok

/-- The code of a pull, on an image of one empty layer. -/
def oneLayerHost : Host Unit where
  sha256 b := if b = [] then emptyLayerDigest else oneLayerDigest
  parseConfig _ := .ok ⟨[emptyLayerDigest.toString], ""⟩
  computeDiffId _ _ := .ok emptyLayerDigest
  emptyDir := ()
  populated _ := false
  applyLayer _ _ _ := ((), none)

/-- The registry serves that image. -/
def oneLayerAnswer : Answer where
  parseError := none
  manifest :=
    .ok ([⟨emptyLayerDigest.toString, 0, "application/vnd.oci.image.layer.v1.tar"⟩], "",
      oneLayerConfig)
  blob _ := .ok []

/-- What the pull reports. -/
def oneLayerImage : PulledImage where
  reference := "empty"
  imageId := oneLayerDigest
  manifestDigest := none
  size := oneLayerConfig.length
  diffIds := [emptyLayerDigest]
  chainIds := [emptyLayerDigest]
  layerDigests := [emptyLayerDigest]
  user := ""

/-- The state after the pull. -/
def oneLayerState : ImageState Unit where
  images := pullTable OrdMap.empty "empty" oneLayerImage
  stores :=
    { blobs := (OrdMap.empty.insert oneLayerDigest.hex oneLayerConfig).insert
        emptyLayerDigest.hex []
      snapshots := OrdMap.empty.insert emptyLayerDigest.hex () }

/-- A pull that reaches the record writes it. -/
theorem pullImage_of_pulled {h : Host Tree} {a : Answer} {reference : String} {s : ImageState Tree}
    {pulled : PulledImage} {stores : Stores Tree} (hne : reference ≠ "")
    (hp : pullWithOptions h a reference s.stores = (.ok pulled, stores)) :
    pullImage h a .none reference s =
      (.ok (.pulled pulled.imageId.toString), ⟨pullTable s.images reference pulled, stores⟩) := by
  unfold pullImage
  rw [if_neg hne, hp]
  rfl

theorem pull_oneLayer :
    pullImage oneLayerHost oneLayerAnswer .none "empty" noImages =
      (.ok (.pulled oneLayerDigest.toString), oneLayerState) := by
  have hne : oneLayerConfig ≠ [] := by decide
  have hhex : emptyLayerDigest.hex ≠ oneLayerDigest.hex := by decide
  have hcommit : commitBlob oneLayerHost OrdMap.empty oneLayerConfig oneLayerConfig.length
      (oneLayerHost.sha256 oneLayerConfig) =
        .ok (OrdMap.empty.insert oneLayerDigest.hex oneLayerConfig) := by
    simp [commitBlob, oneLayerHost, hne]
  have hcommit' : commitBlob oneLayerHost (OrdMap.empty.insert oneLayerDigest.hex oneLayerConfig) []
      ([] : Bytes).length emptyLayerDigest = .ok oneLayerState.stores.blobs := by
    simp [commitBlob, oneLayerHost, OrdMap.get?_insert, hhex, oneLayerState]
  have hstored : oneLayerState.stores.blobs.get? emptyLayerDigest.hex = some [] := by
    simp [oneLayerState, OrdMap.get?_insert]
  have hunpack : unpackSnapshot oneLayerHost
      { noImages.stores with blobs := oneLayerState.stores.blobs } emptyLayerDigest []
      "application/vnd.oci.image.layer.v1.tar" = (.ok (), oneLayerState.stores) := by
    simp [unpackSnapshot, oneLayerHost, noImages, oneLayerState]
  have hp := pullWithOptions_single (a := oneLayerAnswer) "empty" rfl rfl rfl rfl rfl rfl hcommit
    hcommit' hstored rfl hunpack
  have himage : oneLayerHost.sha256 oneLayerConfig = oneLayerDigest := by
    simp [oneLayerHost, hne]
  rw [himage] at hp
  exact pullImage_of_pulled (by decide) hp

/-- The pull alone keeps every directory listed. -/
theorem pulled_snapshot_listed :
    noImages.images = OrdMap.empty ∧
    ∀ x ∈ steps (imageStep oneLayerHost) noImages [.pull "empty" oneLayerAnswer .none],
      SnapshotsListed x.2.2 := by
  have himages : noImages.images = OrdMap.empty := rfl
  refine ⟨himages, (snapshots_listed_iff oneLayerHost himages rfl ?_).2 ?_⟩
  · intro x hx
    simp only [steps, imageStep, List.mem_singleton] at hx
    subst hx
    exact ⟨.pulled oneLayerDigest.toString, by simp only [handle, pull_oneLayer]⟩
  · intro x hx
    simp only [steps, imageStep, List.mem_singleton] at hx
    subst hx
    intro pulled stores _ hsome
    simp [himages] at hsome

/-- The one record left goes with the removal, and the directory of its chainID is unlisted. -/
theorem remove_oneLayer_unsafe :
    ¬ KeepsListed oneLayerHost oneLayerState (.remove "empty" .none) := by
  intro hk
  obtain ⟨-, ⟨rec, hf, hid⟩, -⟩ :=
    (pull_found_iff lookupInv_empty).2
      (pullSafe_empty "empty" oneLayerImage.imageId.toString)
  have hother : ∀ id r, get oneLayerState.images ns id = some r → id = oneLayerDigest.toString := by
    intro id r hg
    by_contra hne
    rw [show oneLayerState.images = pullTable OrdMap.empty "empty" oneLayerImage from rfl,
      get_pullTable_other hne] at hg
    simp at hg
  obtain ⟨id, hg⟩ := findImage_get hf
  have hchain : emptyLayerDigest.toString ∈ rec.chainIds := by
    have h1 := hother id rec hg
    rw [h1] at hg
    rw [show oneLayerDigest.toString = oneLayerImage.imageId.toString from rfl,
      get_pullTable_self] at hg
    cases hg
    simp [pullRecord, newRecord, oneLayerImage]
  obtain ⟨id', r', hne, hg', -⟩ := hk rec hf _ hchain
  exact hne ((hother id' r' hg').trans hid.symm)

/-- After pull and remove no record is left, but the snapshot directory is. -/
theorem removed_image_leaks_snapshot :
    ¬ ∀ (h : Host Unit) (s₀ : ImageState Unit) (ls : List ImageRequest),
      s₀.images = OrdMap.empty → s₀.stores.snapshots = OrdMap.empty →
      (∀ x ∈ steps (imageStep h) s₀ ls, Succeeds h x.1 x.2.1) →
        ∀ x ∈ steps (imageStep h) s₀ ls, SnapshotsListed x.2.2 := by
  intro h
  have hx := h oneLayerHost noImages
    [.pull "empty" oneLayerAnswer .none, .remove "empty" .none] rfl rfl
  simp only [steps, imageStep, handle, pull_oneLayer, List.forall_mem_cons] at hx
  have hremove : (removeImage .none "empty" oneLayerState).1 = .ok .removed := by
    unfold removeImage
    simp only [Faults.none]
    split <;> rfl
  obtain ⟨-, hlast, -⟩ := hx
    ⟨⟨.pulled oneLayerDigest.toString, by simp only [handle, pull_oneLayer]⟩,
      ⟨.removed, hremove⟩, by simp⟩
  obtain ⟨h1, h2, h3⟩ := pull_snapshots (snapshotInv_empty rfl rfl) pull_oneLayer
  have hinv : SnapshotInv oneLayerState :=
    ⟨h1, h3.2 (fun _ _ _ hsome => by simp [noImages] at hsome), h2⟩
  have hr := (remove_snapshots (h := oneLayerHost) hinv (Prod.ext hremove rfl)).2.2
  exact remove_oneLayer_unsafe (hr.1 hlast)

end ContainerdRs.Cri
