import ContainerdRs.Images.Gc

/-!
# The blobs of pulls and removals

Which blobs are in the content store after a successful pull, and after `reclaim`.

* `pullWithOptions_blobs` — those from before, the config and the layers of the manifest.
* `reclaim_hasBlob` — all but those that only the removed record lists.
* `reclaim_exact` — for canonical digest strings, and how many blobs are counted as removed.
-/

set_option autoImplicit false

namespace ContainerdRs.Images

variable {Tree : Type}

/-- The blob `sha256/<name>` exists. -/
def HasBlob (s : Stores Tree) (name : String) : Prop := (s.blobs.get? name).isSome = true

theorem commitBlob_hasBlob {h : Host Tree} {blobs blobs' : OrdMap String Bytes} {bytes : Bytes}
    {n : Nat} {expected : Digest} (hc : commitBlob h blobs bytes n expected = .ok blobs')
    (name : String) :
    (blobs'.get? name).isSome = true ↔
      (blobs.get? name).isSome = true ∨ expected.hex = name := by
  unfold commitBlob at hc
  split at hc
  · cases hc
  · split at hc
    · cases hc
    · split at hc
      · rename_i hsome
        cases hc
        constructor
        · exact .inl
        · rintro (hn | rfl)
          · exact hn
          · exact hsome
      · cases hc
        rw [OrdMap.get?_insert]
        by_cases hn : name = expected.hex
        · simp [hn]
        · simp [hn, Ne.symm hn]

theorem unpackSnapshot_blobs (h : Host Tree) (s : Stores Tree) (chainId : Digest) (bytes : Bytes)
    (mediaType : String) : (unpackSnapshot h s chainId bytes mediaType).2.blobs = s.blobs := by
  unfold unpackSnapshot
  dsimp only
  split
  · rfl
  · split <;> rfl

/-- One layer: its digest is that of the descriptor, and its blob is there. -/
theorem pullLayer_blobs {h : Host Tree} {a : Answer} {reference : String} {i : Nat}
    {d : Descriptor} {diffId chainId layer : Digest} {s s' : Stores Tree}
    (hp : pullLayer h a reference i d diffId chainId s = (.ok layer, s')) :
    Digest.parse d.digest = .ok layer ∧
      ∀ name, HasBlob s' name ↔ HasBlob s name ∨ layer.hex = name := by
  obtain ⟨hparse, -, bytes, blobs, stored, -, hcommit, -, -, hunpack⟩ := pullLayer_inv hp
  refine ⟨hparse, fun name => ?_⟩
  have hblobs := unpackSnapshot_blobs h { s with blobs := blobs } chainId stored d.mediaType
  rw [hunpack] at hblobs
  rw [HasBlob, hblobs]
  exact commitBlob_hasBlob hcommit name

theorem pullLayers_blobs {h : Host Tree} {a : Answer} {reference : String} :
    ∀ {ls : List (Descriptor × Digest × Digest)} {i : Nat} {s s' : Stores Tree}
      {layers : List Digest}, pullLayers h a reference i ls s = (.ok layers, s') →
      ls.map (fun l => Digest.parse l.1.digest) = layers.map .ok ∧
        ∀ name, HasBlob s' name ↔ HasBlob s name ∨ ∃ d ∈ layers, d.hex = name
  | [], _, _, _, _, hp => by
    cases hp
    simp
  | (d, diffId, chainId) :: rest, i, s, s', layers, hp => by
    obtain ⟨layer, others, s₁, hlayer, hothers, rfl⟩ := pullLayers_cons_inv hp
    obtain ⟨hparse, hblobs⟩ := pullLayer_blobs hlayer
    obtain ⟨hparses, hrest⟩ := pullLayers_blobs hothers
    refine ⟨?_, fun name => ?_⟩
    · rw [List.map_cons, List.map_cons, hparse, hparses]
    · rw [hrest name, hblobs name]
      simp [or_assoc]

/-- **A successful pull**: what the registry served, and the blobs after it. -/
theorem pullWithOptions_blobs {h : Host Tree} {a : Answer} {reference : String}
    {s s' : Stores Tree} {img : PulledImage}
    (hp : pullWithOptions h a reference s = (.ok img, s')) :
    ∃ layers manifestDigest config, a.manifest = .ok (layers, manifestDigest, config) ∧
      img.imageId = h.sha256 config ∧
      layers.map (fun d => Digest.parse d.digest) = img.layerDigests.map .ok ∧
      ∀ name, HasBlob s' name ↔
        HasBlob s name ∨ img.imageId.hex = name ∨ ∃ d ∈ img.layerDigests, d.hex = name := by
  obtain ⟨layers, manifestDigest, config, blobs, diffIds, user, layerDigests, digest, -, hmanifest,
    hcommit, -, rfl, hlen, hlayers, -⟩ := pullWithOptions_inv hp
  obtain ⟨hparses, hblobs⟩ := pullLayers_blobs hlayers
  refine ⟨layers, manifestDigest, config, hmanifest, rfl, ?_, fun name => ?_⟩
  · -- the loop goes over all descriptors
    have hzip : layers.length ≤ (diffIds.zip (chainIds h.sha256 diffIds)).length := by
      rw [List.length_zip, chainIds_length]
      omega
    have hdescriptors : (layers.zip (diffIds.zip (chainIds h.sha256 diffIds))).map Prod.fst =
        layers := List.map_fst_zip hzip
    conv_lhs => rw [← hdescriptors, List.map_map]
    exact hparses
  · rw [hblobs name]
    have hconfig := commitBlob_hasBlob hcommit name
    rw [HasBlob, hconfig]
    exact or_assoc

/-! ## Removal -/

/-- The turn of `reclaim` for `blob` deletes the blob `name`. -/
def Reclaims (live : List String) (name blob : String) : Prop :=
  blob ∉ live ∧ ∃ d, Digest.parse blob = .ok d ∧ d.hex = name

theorem reclaimBlob_hasBlob (live : List String) (acc : ReclaimReport × Stores Tree)
    (blob name : String) :
    HasBlob (reclaimBlob live acc blob).2 name ↔
      HasBlob acc.2 name ∧ ¬ Reclaims live name blob := by
  unfold reclaimBlob Reclaims
  split
  · rename_i hlive
    simp [hlive]
  · rename_i hlive
    split
    · rename_i e he
      simp [he]
    · rename_i d hd
      simp only [hd, hlive, not_false_eq_true, true_and, Except.ok.injEq, exists_eq_left']
      split
      · rename_i hsome
        by_cases hn : name = d.hex
        · simp [HasBlob, OrdMap.get?_erase, hn]
        · simp [HasBlob, OrdMap.get?_erase, hn, Ne.symm hn]
      · rename_i hnone
        constructor
        · intro hb
          refine ⟨hb, ?_⟩
          rintro rfl
          exact hnone hb
        · exact And.left

theorem foldl_reclaimBlob_hasBlob (live : List String) (name : String) :
    ∀ (blobs : List String) (acc : ReclaimReport × Stores Tree),
      HasBlob (blobs.foldl (reclaimBlob live) acc).2 name ↔
        HasBlob acc.2 name ∧ ∀ blob ∈ blobs, ¬ Reclaims live name blob
  | [], acc => by simp
  | blob :: blobs, acc => by
    rw [List.foldl_cons, foldl_reclaimBlob_hasBlob live name blobs, reclaimBlob_hasBlob]
    simp only [List.mem_cons, forall_eq_or_imp]
    exact and_assoc

theorem reclaimSnapshot_blobs (live : List String) (acc : ReclaimReport × Stores Tree)
    (chain : String) : (reclaimSnapshot live acc chain).2.blobs = acc.2.blobs := by
  unfold reclaimSnapshot
  split
  · rfl
  · split <;> rfl

theorem foldl_reclaimSnapshot_blobs (live : List String) : ∀ (chains : List String)
    (acc : ReclaimReport × Stores Tree),
    (chains.foldl (reclaimSnapshot live) acc).2.blobs = acc.2.blobs
  | [], _ => rfl
  | chain :: chains, acc => by
    rw [List.foldl_cons, foldl_reclaimSnapshot_blobs live chains, reclaimSnapshot_blobs]

/-- The blobs left: all but those that the removed record lists and no live one. -/
theorem reclaim_hasBlob (s : Stores Tree) (removed : ImageRecord) (live : List ImageRecord)
    (name : String) :
    HasBlob (reclaim s removed live).2 name ↔
      HasBlob s name ∧
        ∀ blob ∈ referencedBlobs removed, ¬ Reclaims (live.flatMap referencedBlobs) name blob := by
  unfold reclaim
  dsimp only
  rw [HasBlob, foldl_reclaimSnapshot_blobs]
  exact foldl_reclaimBlob_hasBlob (live.flatMap referencedBlobs) name (referencedBlobs removed)
    (⟨0, 0⟩, s)

/-! ## What is counted -/

/-- The names of the stored blobs. -/
def blobNames (s : Stores Tree) : Finset String := (s.blobs.entries.map (·.1)).toFinset

theorem mem_blobNames {s : Stores Tree} {name : String} : name ∈ blobNames s ↔ HasBlob s name := by
  rw [blobNames, List.mem_toFinset, List.mem_map, HasBlob, Option.isSome_iff_exists]
  constructor
  · rintro ⟨⟨_, bytes⟩, hmem, rfl⟩
    exact ⟨bytes, OrdMap.get?_eq_some.2 hmem⟩
  · rintro ⟨bytes, hget⟩
    exact ⟨(name, bytes), OrdMap.get?_eq_some.1 hget, rfl⟩

/-- Every removal that is counted takes one blob away. -/
def Counted (s : Stores Tree) (acc : ReclaimReport × Stores Tree) : Prop :=
  blobNames acc.2 ⊆ blobNames s ∧
    acc.1.blobsRemoved + (blobNames acc.2).card = (blobNames s).card

theorem reclaimBlob_counted {s : Stores Tree} {acc : ReclaimReport × Stores Tree}
    (h : Counted s acc) (live : List String) (blob : String) :
    Counted s (reclaimBlob live acc blob) := by
  unfold reclaimBlob
  split
  · exact h
  · split
    · exact h
    · rename_i d hd
      split
      · rename_i hsome
        have hmem : d.hex ∈ blobNames acc.2 := mem_blobNames.2 hsome
        have herase : blobNames { acc.2 with blobs := acc.2.blobs.erase d.hex } =
            (blobNames acc.2).erase d.hex := by
          ext name
          rw [Finset.mem_erase, mem_blobNames, mem_blobNames, HasBlob, OrdMap.get?_erase]
          by_cases hn : name = d.hex
          · simp [hn]
          · simp [hn, HasBlob]
        constructor
        · rw [herase]
          exact (Finset.erase_subset _ _).trans h.1
        · have hpos : 0 < (blobNames acc.2).card := Finset.card_pos.2 ⟨_, hmem⟩
          have hcount := h.2
          show acc.1.blobsRemoved + 1 +
            (blobNames { acc.2 with blobs := acc.2.blobs.erase d.hex }).card = _
          rw [herase, Finset.card_erase_of_mem hmem]
          omega
      · exact h

theorem foldl_reclaimBlob_counted {s : Stores Tree} (live : List String) :
    ∀ (blobs : List String) {acc : ReclaimReport × Stores Tree}, Counted s acc →
      Counted s (blobs.foldl (reclaimBlob live) acc)
  | [], _, h => h
  | blob :: blobs, _, h => foldl_reclaimBlob_counted live blobs (reclaimBlob_counted h live blob)

theorem foldl_reclaimSnapshot_count (live : List String) : ∀ (chains : List String)
    (acc : ReclaimReport × Stores Tree),
    (chains.foldl (reclaimSnapshot live) acc).1.blobsRemoved = acc.1.blobsRemoved
  | [], _ => rfl
  | chain :: chains, acc => by
    rw [List.foldl_cons, foldl_reclaimSnapshot_count live chains, reclaimSnapshot]
    split
    · rfl
    · split <;> rfl

theorem reclaim_counted (s : Stores Tree) (removed : ImageRecord) (live : List ImageRecord) :
    Counted s (reclaim s removed live) := by
  have hstart : Counted s (⟨0, 0⟩, s) := ⟨Finset.Subset.refl _, Nat.zero_add _⟩
  have hblobs := foldl_reclaimBlob_counted (live.flatMap referencedBlobs)
    (referencedBlobs removed) hstart
  unfold reclaim Counted
  dsimp only
  rw [foldl_reclaimSnapshot_count, blobNames, foldl_reclaimSnapshot_blobs]
  exact hblobs

/-- The ids and layer digests of a record are digests in canonical form. -/
def Canonical (rec : ImageRecord) : Prop :=
  ∀ blob ∈ referencedBlobs rec, ∃ d : Digest, blob = d.toString

/-- **Reclaim removes exactly the unreachable blobs**, and counts each of them once. -/
theorem reclaim_exact (s : Stores Tree) {removed : ImageRecord} (hremoved : Canonical removed)
    (live : List ImageRecord) :
    (∀ d : Digest, HasBlob (reclaim s removed live).2 d.hex ↔
      HasBlob s d.hex ∧ ¬ (d.toString ∈ referencedBlobs removed ∧
        d.toString ∉ live.flatMap referencedBlobs)) ∧
      (reclaim s removed live).1.blobsRemoved =
        (blobNames s \ blobNames (reclaim s removed live).2).card := by
  constructor
  · intro d
    rw [reclaim_hasBlob]
    refine and_congr_right fun _ => ?_
    constructor
    · rintro hkeeps ⟨href, hlive⟩
      exact hkeeps _ href ⟨hlive, d, Digest.parse_toString d, rfl⟩
    · rintro hno blob hblob ⟨hlive, d', hparse, hhex⟩
      -- a canonical string is read back as the digest it is
      obtain ⟨d'', rfl⟩ := hremoved blob hblob
      rw [Digest.parse_toString] at hparse
      cases hparse
      cases Digest.hex_injective hhex
      exact hno ⟨hblob, hlive⟩
  · obtain ⟨hsub, hcount⟩ := reclaim_counted s removed live
    rw [Finset.card_sdiff_of_subset hsub]
    omega

/-- Sixty-four times the same digit. -/
def digitDigest (c : Char) (hc : isLowerHex c = true) : Digest where
  hex := String.ofList (List.replicate 64 c)
  length := by rw [String.toList_ofList, List.length_replicate]
  lower := by
    rw [String.toList_ofList, List.all_replicate]
    simp [hc]

/-- A record of a config and layers. -/
def plainRecord (config : Digest) (layers : List Digest) : ImageRecord :=
  ⟨"", "", config.toString, [], [], 0, layers.map (·.toString), [], ""⟩

theorem plainRecord_canonical (config : Digest) (layers : List Digest) :
    Canonical (plainRecord config layers) := by
  intro blob hblob
  rcases List.mem_cons.1 hblob with rfl | hblob
  · exact ⟨config, rfl⟩
  · obtain ⟨d, -, rfl⟩ := List.mem_map.1 hblob
    exact ⟨d, rfl⟩

/-- The config of the removed image. -/
def configA : Digest := digitDigest 'a' (by decide)

/-- A layer of two images. -/
def doubledLayer : Digest := digitDigest 'b' (by decide)

/-- The config of the other image. -/
def configB : Digest := digitDigest 'c' (by decide)

/-- Both blobs of the first image. -/
def doubledStore : Stores Unit :=
  ⟨(OrdMap.empty.insert configA.hex []).insert doubledLayer.hex [], OrdMap.empty⟩

/-- An image with a layer twice that another image has as well: the layer stays, the config goes. -/
theorem reclaim_doubled :
    HasBlob (reclaim doubledStore (plainRecord configA [doubledLayer, doubledLayer])
        [plainRecord configB [doubledLayer]]).2 doubledLayer.hex ∧
      ¬ HasBlob (reclaim doubledStore (plainRecord configA [doubledLayer, doubledLayer])
        [plainRecord configB [doubledLayer]]).2 configA.hex := by
  obtain ⟨hexact, -⟩ := reclaim_exact doubledStore
    (plainRecord_canonical configA [doubledLayer, doubledLayer])
    [plainRecord configB [doubledLayer]]
  have hpresent : HasBlob doubledStore doubledLayer.hex := by
    show (doubledStore.blobs.get? doubledLayer.hex).isSome = true
    decide
  constructor
  · exact (hexact doubledLayer).2 ⟨hpresent, fun h => h.2 (by decide)⟩
  · intro h
    exact ((hexact configA).1 h).2 ⟨by decide, by decide⟩

end ContainerdRs.Images
