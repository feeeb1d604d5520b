import ContainerdRs.Cri.BlobGc

/-!
# What stands behind an image record

A container is created from a record: the config is read under the image id, and the layers under
their digests, whatever has been pulled and removed in the meantime.

* `Complete` — the blobs of a record are there, they have the digests that the record lists, and
  the layers are those of the config.
* `pullWithOptions_complete` — a pull leaves the blobs of its record complete;
  `reclaim_keeps` — a removal leaves those of the other records alone.
* `stored_images_complete` — over every sequence of requests, failed ones among them.
-/

set_option autoImplicit false

namespace ContainerdRs.Cri

open Images Metadata Transition

variable {Tree : Type}

/-- Every blob has the digest that it is stored under. -/
def Hashed (h : Host Tree) (blobs : OrdMap String Bytes) : Prop :=
  ∀ name bytes, blobs.get? name = some bytes → (h.sha256 bytes).hex = name

/-- The blob of a layer is there, and it is the layer with that diffID. -/
def LayerStored (h : Host Tree) (blobs : OrdMap String Bytes) (layer : String) (diffId : Digest) :
    Prop :=
  ∃ bytes mediaType, (h.sha256 bytes).toString = layer ∧
    blobs.get? (h.sha256 bytes).hex = some bytes ∧ h.computeDiffId bytes mediaType = .ok diffId

/-- The blobs of a record are there: a config with the digest of `config` under the image id, and
    the layers that `config` lists. -/
structure Complete (h : Host Tree) (blobs : OrdMap String Bytes) (r : ImageRecord) (config : Bytes)
    (diffIds : List Digest) : Prop where
  imageId : (h.sha256 config).toString = r.imageId
  stored : ∃ bytes, blobs.get? (h.sha256 config).hex = some bytes ∧ h.sha256 bytes = h.sha256 config
  parsed : ∃ texts, h.parseConfig config = .ok ⟨texts, r.user⟩ ∧ parseDigests texts = .ok diffIds
  chainIds : r.chainIds = (Images.chainIds h.sha256 diffIds).map Digest.toString
  layers : List.Forall₂ (LayerStored h blobs) r.layerDigests diffIds

/-! ## Pulls -/

/-- Blobs are added only, under their digests. -/
structure Grown (h : Host Tree) (blobs blobs' : OrdMap String Bytes) : Prop where
  kept : ∀ name bytes, blobs.get? name = some bytes → blobs'.get? name = some bytes
  hashed : Hashed h blobs → Hashed h blobs'

variable {h : Host Tree} {blobs blobs' blobs'' : OrdMap String Bytes}

theorem Grown.refl (h : Host Tree) (blobs : OrdMap String Bytes) : Grown h blobs blobs :=
  ⟨fun _ _ hb => hb, id⟩

theorem Grown.trans (hg : Grown h blobs blobs') (hg' : Grown h blobs' blobs'') :
    Grown h blobs blobs'' :=
  ⟨fun name bytes hb => hg'.kept name bytes (hg.kept name bytes hb),
    fun hb => hg'.hashed (hg.hashed hb)⟩

theorem commitBlob_grown {bytes : Bytes} {n : Nat} {expected : Digest}
    (hc : commitBlob h blobs bytes n expected = .ok blobs') : Grown h blobs blobs' := by
  unfold commitBlob at hc
  split_ifs at hc with hsize hdigest hsome
  · cases hc
    exact .refl h blobs
  · cases hc
    constructor
    · intro name b hb
      rw [OrdMap.get?_insert, if_neg]
      · exact hb
      · rintro rfl
        rw [hb] at hsome
        exact hsome rfl
    · intro hhashed name b hb
      rw [OrdMap.get?_insert] at hb
      split at hb
      · rename_i hname
        cases hb
        rw [not_not.1 hdigest, hname]
      · exact hhashed name b hb

theorem pullLayer_grown (h : Host Tree) (a : Answer) (reference : String) (i : Nat) (d : Descriptor)
    (diffId chainId : Digest) (s : Stores Tree) :
    Grown h s.blobs (pullLayer h a reference i d diffId chainId s).2.blobs := by
  unfold pullLayer
  split
  · exact .refl h _
  · split
    · exact .refl h _
    · split
      · exact .refl h _
      · split
        · exact .refl h _
        · rename_i bytes _ blobs hcommit
          have hgrown := commitBlob_grown hcommit
          dsimp only
          split
          · exact hgrown
          · rename_i stored _
            split
            · exact hgrown
            · split
              · exact hgrown
              · have hsame :=
                  unpackSnapshot_blobs h { s with blobs := blobs } chainId stored d.mediaType
                split <;>
                · rename_i hunpack
                  rw [hunpack] at hsame
                  dsimp only at hsame ⊢
                  rw [hsame]
                  exact hgrown

theorem pullLayers_grown (h : Host Tree) (a : Answer) (reference : String) :
    ∀ (ls : List (Descriptor × Digest × Digest)) (i : Nat) (s : Stores Tree),
      Grown h s.blobs (pullLayers h a reference i ls s).2.blobs
  | [], _, s => .refl h s.blobs
  | (d, diffId, chainId) :: rest, i, s => by
    have hlayer := pullLayer_grown h a reference i d diffId chainId s
    unfold pullLayers
    split
    · rename_i hp
      rw [hp] at hlayer
      exact hlayer
    · rename_i s₁ hp
      rw [hp] at hlayer
      have hrest := pullLayers_grown h a reference rest (i + 1) s₁
      split <;>
      · rename_i hq
        rw [hq] at hrest
        exact hlayer.trans hrest

/-- A pull adds blobs only, also one that fails. -/
theorem pullWithOptions_grown (h : Host Tree) (a : Answer) (reference : String) (s : Stores Tree) :
    Grown h s.blobs (pullWithOptions h a reference s).2.blobs := by
  unfold pullWithOptions
  split
  · exact .refl h _
  · split
    · exact .refl h _
    · rename_i layers manifestDigest config _
      dsimp only
      split
      · exact .refl h _
      · rename_i blobs hcommit
        have hgrown := commitBlob_grown hcommit
        split
        · exact hgrown
        · rename_i parsed _
          split
          · exact hgrown
          · rename_i diffIds _
            split
            · exact hgrown
            · have hlayers := pullLayers_grown h a reference
                (layers.zip (diffIds.zip (Images.chainIds h.sha256 diffIds))) 0
                { s with blobs := blobs }
              split
              · rename_i hp
                rw [hp] at hlayers
                exact hgrown.trans hlayers
              · rename_i hp
                rw [hp] at hlayers
                split <;> exact hgrown.trans hlayers

theorem LayerStored.grown {layer : String} {diffId : Digest} (hl : LayerStored h blobs layer diffId)
    (hg : Grown h blobs blobs') : LayerStored h blobs' layer diffId := by
  obtain ⟨bytes, mediaType, hlayer, hstored, hdiff⟩ := hl
  exact ⟨bytes, mediaType, hlayer, hg.kept _ _ hstored, hdiff⟩

/-- The layers of a successful pull are there. -/
theorem pullLayers_stored {a : Answer} {reference : String} :
    ∀ {ls : List (Descriptor × Digest × Digest)} {i : Nat} {s s' : Stores Tree}
      {layers : List Digest}, Hashed h s.blobs →
      pullLayers h a reference i ls s = (.ok layers, s') →
      List.Forall₂ (LayerStored h s'.blobs) (layers.map Digest.toString) (ls.map fun l => l.2.1)
  | [], _, _, _, _, _, hp => by
    cases hp
    exact .nil
  | (d, diffId, chainId) :: rest, i, s, s', layers, hhashed, hp => by
    obtain ⟨layer, others, s₁, hlayer, hothers, rfl⟩ := pullLayers_cons_inv hp
    have hgrown := pullLayer_grown h a reference i d diffId chainId s
    have hrest := pullLayers_grown h a reference rest (i + 1) s₁
    rw [hlayer] at hgrown
    rw [hothers] at hrest
    refine .cons ?_ (pullLayers_stored (hgrown.hashed hhashed) hothers)
    obtain ⟨-, -, bytes, blobs, stored, -, hcommit, hstored, hdiff, hunpack⟩ := pullLayer_inv hlayer
    have hblobs := unpackSnapshot_blobs h { s with blobs := blobs } chainId stored d.mediaType
    rw [hunpack] at hblobs
    -- what was read back has the digest that it was stored under
    have hdigest : h.sha256 stored = layer :=
      Digest.hex_injective ((commitBlob_grown hcommit).hashed hhashed _ _ hstored)
    refine LayerStored.grown ⟨stored, d.mediaType, by rw [hdigest], ?_, hdiff⟩ hrest
    rw [hdigest]
    show s₁.blobs.get? layer.hex = some stored
    rw [hblobs]
    exact hstored

/-- The blobs of a pull that is through are complete. -/
theorem pullWithOptions_complete {a : Answer} {reference : String} (name : String)
    {s s' : Stores Tree} {pulled : PulledImage} (hhashed : Hashed h s.blobs)
    (hp : pullWithOptions h a reference s = (.ok pulled, s')) :
    ∃ config diffIds, Complete h s'.blobs (newRecord name pulled) config diffIds := by
  obtain ⟨layers, manifestDigest, config, blobs, diffIds, user, layerDigests, digest, -, -, hcommit,
    hparsed, rfl, hlen, hlayers, -⟩ := pullWithOptions_inv hp
  have hgrown := commitBlob_grown hcommit
  have hrest := pullLayers_grown h a reference
    (layers.zip (diffIds.zip (Images.chainIds h.sha256 diffIds))) 0 { s with blobs := blobs }
  rw [hlayers] at hrest
  refine ⟨config, diffIds, rfl, ?_, hparsed, rfl, ?_⟩
  · -- whatever was stored under the digest of the config has the same digest
    have hsome := (commitBlob_hasBlob hcommit (h.sha256 config).hex).2 (.inr rfl)
    obtain ⟨bytes, hbytes⟩ := Option.isSome_iff_exists.1 hsome
    exact ⟨bytes, hrest.kept _ _ hbytes,
      Digest.hex_injective (hgrown.hashed hhashed _ _ hbytes)⟩
  · have hstored := pullLayers_stored (hgrown.hashed hhashed) hlayers
    have hdiffs : (layers.zip (diffIds.zip (Images.chainIds h.sha256 diffIds))).map
        (fun l => l.2.1) = diffIds := by
      have hchains := chainIds_length h.sha256 diffIds
      have hsnd : (layers.zip (diffIds.zip (Images.chainIds h.sha256 diffIds))).map Prod.snd =
          diffIds.zip (Images.chainIds h.sha256 diffIds) := by
        apply List.map_snd_zip
        rw [List.length_zip]
        omega
      have hfst : (diffIds.zip (Images.chainIds h.sha256 diffIds)).map Prod.fst = diffIds :=
        List.map_fst_zip (by omega)
      conv_rhs => rw [← hfst, ← hsnd, List.map_map]
      rfl
    rw [hdiffs] at hstored
    exact hstored

/-! ## Removals -/

theorem reclaimBlob_get? {live : List String} {acc : ReclaimReport × Stores Tree}
    {blob name : String} {bytes : Bytes}
    (hget : (reclaimBlob live acc blob).2.blobs.get? name = some bytes) :
    acc.2.blobs.get? name = some bytes := by
  unfold reclaimBlob at hget
  split at hget
  · exact hget
  · split at hget
    · exact hget
    · split at hget
      · simp only [OrdMap.get?_erase] at hget
        split at hget
        · cases hget
        · exact hget
      · exact hget

theorem foldl_reclaimBlob_get? {live : List String} {name : String} {bytes : Bytes} :
    ∀ (removed : List String) {acc : ReclaimReport × Stores Tree},
      (removed.foldl (reclaimBlob live) acc).2.blobs.get? name = some bytes →
      acc.2.blobs.get? name = some bytes
  | [], _, hget => hget
  | _ :: removed, _, hget => reclaimBlob_get? (foldl_reclaimBlob_get? removed hget)

/-- What is left after a removal is what was there. -/
theorem reclaim_get? {s : Stores Tree} {removed : ImageRecord} {live : List ImageRecord}
    {name : String} {bytes : Bytes}
    (hget : (reclaim s removed live).2.blobs.get? name = some bytes) :
    s.blobs.get? name = some bytes := by
  unfold reclaim at hget
  dsimp only at hget
  rw [foldl_reclaimSnapshot_blobs] at hget
  exact foldl_reclaimBlob_get? (referencedBlobs removed) hget

/-- A removal leaves the blobs of the other records alone. -/
theorem reclaim_keeps {s : Stores Tree} {removed r : ImageRecord} {live : List ImageRecord}
    (hremoved : Canonical removed) (hr : r ∈ live) {d : Digest}
    (hd : d.toString ∈ referencedBlobs r) {bytes : Bytes} (hget : s.blobs.get? d.hex = some bytes) :
    (reclaim s removed live).2.blobs.get? d.hex = some bytes := by
  have hleft : HasBlob (reclaim s removed live).2 d.hex := by
    rw [reclaim_hasBlob]
    refine ⟨by rw [HasBlob, hget]; rfl, ?_⟩
    rintro blob hblob ⟨hnot, d', hparse, hhex⟩
    obtain ⟨d'', rfl⟩ := hremoved blob hblob
    rw [Digest.parse_toString, Except.ok.injEq] at hparse
    subst hparse
    rw [Digest.hex_injective hhex] at hnot
    exact hnot (List.mem_flatMap.2 ⟨r, hr, hd⟩)
  obtain ⟨bytes', hbytes'⟩ := Option.isSome_iff_exists.1 hleft
  rw [hbytes', ← reclaim_get? hbytes', hget]

variable {r : ImageRecord} {config : Bytes} {diffIds : List Digest}

/-- A record only looks at its own blobs. -/
theorem Complete.same (hc : Complete h blobs r config diffIds)
    (hkept : ∀ (d : Digest) (bytes : Bytes), d.toString ∈ referencedBlobs r →
      blobs.get? d.hex = some bytes → blobs'.get? d.hex = some bytes) :
    Complete h blobs' r config diffIds := by
  obtain ⟨bytes, hstored, hdigest⟩ := hc.stored
  refine ⟨hc.imageId, ⟨bytes, hkept _ _ ?_ hstored, hdigest⟩, hc.parsed, hc.chainIds, ?_⟩
  · rw [hc.imageId]
    exact List.mem_cons_self
  · refine ((List.forall₂_and_left _ _).2 ⟨fun _ hmem => hmem, hc.layers⟩).imp ?_
    rintro layer diffId ⟨hmem, bytes, mediaType, rfl, hstored, hdiff⟩
    exact ⟨bytes, mediaType, rfl, hkept _ _ (List.mem_cons_of_mem _ hmem) hstored, hdiff⟩

theorem Complete.canonical (hc : Complete h blobs r config diffIds) : Canonical r := by
  intro blob hblob
  have hlayers : ∀ layer ∈ r.layerDigests, ∃ d : Digest, layer = d.toString := by
    have hboth : List.Forall₂
        (fun layer diffId => (∃ d : Digest, layer = d.toString) ∧ LayerStored h blobs layer diffId)
        r.layerDigests diffIds := by
      refine hc.layers.imp ?_
      rintro layer diffId ⟨bytes, mediaType, hlayer, hstored, hdiff⟩
      exact ⟨⟨_, hlayer.symm⟩, bytes, mediaType, hlayer, hstored, hdiff⟩
    exact ((List.forall₂_and_left _ _).1 hboth).1
  rcases List.mem_cons.1 hblob with rfl | hblob
  · exact ⟨_, hc.imageId.symm⟩
  · exact hlayers blob hblob

/-! ## Sequences of requests -/

/-- What every request keeps. -/
structure StoredInv (h : Host Tree) (s : ImageState Tree) : Prop where
  records : RecordsInv s.images
  hashed : Hashed h s.stores.blobs
  complete : ∀ id r, get s.images ns id = some r →
    ∃ config diffIds, Complete h s.stores.blobs r config diffIds

variable {s s' : ImageState Tree}

theorem stored_pull {a : Answer} {f : Faults} {reference : String} (hi : StoredInv h s) :
    Hashed h (pullImage h a f reference s).2.stores.blobs ∧
      ∀ id r, get (pullImage h a f reference s).2.images ns id = some r →
        ∃ config diffIds,
          Complete h (pullImage h a f reference s).2.stores.blobs r config diffIds := by
  have hgrown := pullWithOptions_grown h a reference s.stores
  have hold : ∀ {stores : Stores Tree}, Grown h s.stores.blobs stores.blobs → ∀ id r,
      get s.images ns id = some r → ∃ config diffIds, Complete h stores.blobs r config diffIds := by
    intro stores hg id r hr
    obtain ⟨config, diffIds, hc⟩ := hi.complete id r hr
    exact ⟨config, diffIds, hc.same fun d bytes _ hb => hg.kept _ _ hb⟩
  unfold pullImage
  split
  · exact ⟨hi.hashed, hi.complete⟩
  · cases hp : pullWithOptions h a reference s.stores with
    | mk answer stores =>
      rw [hp] at hgrown
      have hkeep := hold hgrown
      cases answer with
      | error e =>
        dsimp only
        split <;> exact ⟨hgrown.hashed hi.hashed, hkeep⟩
      | ok pulled =>
        dsimp only
        split
        · exact ⟨hgrown.hashed hi.hashed, hkeep⟩
        · exact ⟨hgrown.hashed hi.hashed, hkeep⟩
        · refine ⟨hgrown.hashed hi.hashed, fun id r hr => ?_⟩
          rw [get_put] at hr
          split at hr
          · cases hr
            cases hold : get s.images ns pulled.imageId.toString with
            | some old =>
              -- the layers of the record that was found
              obtain ⟨config, diffIds, hc⟩ := hkeep _ old hold
              exact ⟨config, diffIds, hc.imageId, hc.stored, hc.parsed, hc.chainIds, hc.layers⟩
            | none =>
              obtain ⟨config, diffIds, hc⟩ :=
                pullWithOptions_complete reference hi.hashed hp
              exact ⟨config, diffIds, hc.imageId, hc.stored, hc.parsed, hc.chainIds, hc.layers⟩
          · exact hkeep id r hr

theorem stored_remove {f : Faults} {key : String} (hi : StoredInv h s) :
    Hashed h (removeImage f key s).2.stores.blobs ∧
      ∀ id r, get (removeImage f key s).2.images ns id = some r →
        ∃ config diffIds, Complete h (removeImage f key s).2.stores.blobs r config diffIds := by
  unfold removeImage
  split
  · exact ⟨hi.hashed, hi.complete⟩
  · split
    · exact ⟨hi.hashed, hi.complete⟩
    · rename_i rec hf
      split
      · exact ⟨hi.hashed, hi.complete⟩
      · dsimp only
        have hleft : ∀ id r, get (delete s.images ns rec.imageId).2 ns id = some r →
            get s.images ns id = some r := fun id r hr => get_of_get_delete hr
        split
        · exact ⟨hi.hashed, fun id r hr => hi.complete id r (hleft id r hr)⟩
        · constructor
          · exact fun name bytes hb => hi.hashed name bytes (reclaim_get? hb)
          · intro id r hr
            obtain ⟨config, diffIds, hc⟩ := hi.complete id r (hleft id r hr)
            obtain ⟨id', hfound⟩ := findImage_get hf
            obtain ⟨_, _, hremoved⟩ := hi.complete id' rec hfound
            refine ⟨config, diffIds, hc.same fun d bytes hd hb => ?_⟩
            exact reclaim_keeps hremoved.canonical (mem_list.2 ⟨id, hr⟩) hd hb

/-- **Every request keeps what stands behind the records.** -/
theorem stored_step {request : ImageRequest} (hi : StoredInv h s)
    (hstep : imageStep h s request = some s') : StoredInv h s' := by
  have hrecords := recordsInv_step hi.records hstep
  cases hstep
  cases request with
  | pull reference a f => exact ⟨hrecords, (stored_pull hi).1, (stored_pull hi).2⟩
  | remove key f => exact ⟨hrecords, (stored_remove hi).1, (stored_remove hi).2⟩

theorem stored_run {s₀ : ImageState Tree} (himages : s₀.images = OrdMap.empty)
    (hblobs : s₀.stores.blobs = OrdMap.empty) {ls : List ImageRequest}
    (hrun : run (imageStep h) s₀ ls = some s) : StoredInv h s := by
  refine run_keeps (fun _ _ _ hi hstep => stored_step hi hstep) ?_ hrun
  refine ⟨?_, ?_, ?_⟩
  · rw [himages]
    exact lookupInv_empty.records
  · intro name bytes hb
    rw [hblobs] at hb
    cases hb
  · intro id r hr
    rw [himages] at hr
    cases hr

/-- **What stands behind the records**, after every sequence of pulls and removals on empty stores:
    the config and the layers of every record are there under their digests, and the diffIDs of the
    layers are those of the config. -/
theorem stored_images_complete (h : Host Tree) (s₀ : ImageState Tree)
    (himages : s₀.images = OrdMap.empty) (hblobs : s₀.stores.blobs = OrdMap.empty)
    (ls : List ImageRequest) (s : ImageState Tree) (hrun : run (imageStep h) s₀ ls = some s)
    (id : String) (r : ImageRecord) (hr : get s.images ns id = some r) :
    ∃ config diffIds, Complete h s.stores.blobs r config diffIds :=
  (stored_run himages hblobs hrun).complete id r hr

theorem oneLayer_complete : ∃ r config diffIds,
    get oneLayerState.images ns oneLayerDigest.toString = some r ∧
    Complete oneLayerHost oneLayerState.stores.blobs r config diffIds := by
  have hrun : run (imageStep oneLayerHost) noImages [.pull "empty" oneLayerAnswer .none] =
      some oneLayerState := by
    simp only [run, imageStep, handle, pull_oneLayer]
  obtain ⟨r, hr⟩ : ∃ r, get oneLayerState.images ns oneLayerDigest.toString = some r :=
    ⟨_, get_pullTable_self ⟩
  obtain ⟨config, diffIds, hc⟩ := stored_images_complete oneLayerHost noImages rfl rfl _
    oneLayerState hrun _ r hr
  exact ⟨r, config, diffIds, hr, hc⟩

end ContainerdRs.Cri
