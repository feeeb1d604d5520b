import ContainerdRs.Content.Store
import ContainerdRs.Lib.OrdMap

/-!
# Pulling an image (`crates/images/src/pull.rs`, `identity.rs`)

`pull_with_options` as one uninterrupted call: the config blob is stored, then layer by layer the
blob is committed, its diffID checked and its snapshot directory populated.  What lies outside is
a parameter: `Host` holds the hash, the config parser and the layer code, `Answer` what the
registry delivers for one pull.

* `pullWithOptions_ok` — after a successful pull the snapshot directories are those from before
  and one for each chainID, named by its hex.
-/

set_option autoImplicit false

namespace ContainerdRs.Images

/-- A layer descriptor of the manifest. -/
structure Descriptor where
  digest : String
  size : Int
  mediaType : String

/-- `ImageConfigJson`: the diffIDs and the user of the image config. -/
structure ImageConfigJson where
  diffIds : List String
  user : String

/-- `PulledImage`. -/
structure PulledImage where
  reference : String
  imageId : Digest
  manifestDigest : Option Digest
  size : Nat
  diffIds : List Digest
  chainIds : List Digest
  layerDigests : List Digest
  user : String

/-- `pull::Error`; errors of other crates carry their text. -/
inductive Error where
  | reference (reference : String) (reason : String)
  | registry (authFailure : Bool) (reason : String)
  | content (e : Content.Error)
  | io (reason : String)
  | config (reason : String)
  | unpack (reason : String)
  | digest (e : DigestError)
  | diffIdMismatch (index : Nat) (expected computed : Digest)
  | layerCountMismatch (diffIds layers : Nat)

/-- `Error::is_auth_error`. -/
def Error.isAuthError : Error → Bool
  | .registry authFailure _ => authFailure
  | _ => false

/-- Code that a pull runs and that does not depend on the request.  `Tree` is the content of a
    snapshot's `fs` directory. -/
structure Host (Tree : Type) where
  sha256 : Bytes → Digest
  /-- `serde_json::from_slice::<ImageConfigJson>`. -/
  parseConfig : Bytes → Except String ImageConfigJson
  /-- `compute_diff_id_reader`, by media type. -/
  computeDiffId : Bytes → String → Except Error Digest
  emptyDir : Tree
  /-- `read_dir().next().is_some()`. -/
  populated : Tree → Bool
  /-- `apply_layer`: the directory afterwards, and the error if it failed. -/
  applyLayer : Tree → Bytes → String → Tree × Option String

/-- What the registry client answers during one pull. -/
structure Answer where
  /-- `Reference::from_str`: the error text, if any. -/
  parseError : Option String
  /-- `pull_manifest_and_config`: layers, manifest digest and config text. -/
  manifest : Except Error (List Descriptor × String × Bytes)
  /-- The streamed bytes of layer `i`. -/
  blob : Nat → Except Error Bytes

/-- Content store and snapshot directories: blobs by hex, `fs` directories by snapshot id. -/
structure Stores (Tree : Type) where
  blobs : OrdMap String Bytes
  snapshots : OrdMap String Tree

variable {Tree : Type}

/-- `identity::chain_ids`, after the first layer. -/
def chainIdsFrom (sha256 : Bytes → Digest) (prev : Digest) : List Digest → List Digest
  | [] => []
  | diff :: rest =>
    let next := sha256 (prev.toString ++ " " ++ diff.toString).toUTF8.data.toList
    next :: chainIdsFrom sha256 next rest

/-- `identity::chain_ids`. -/
def chainIds (sha256 : Bytes → Digest) : List Digest → List Digest
  | [] => []
  | diff :: rest => diff :: chainIdsFrom sha256 diff rest

theorem chainIdsFrom_length (sha256 : Bytes → Digest) : ∀ (ds : List Digest) (prev : Digest),
    (chainIdsFrom sha256 prev ds).length = ds.length
  | [], _ => rfl
  | _ :: ds, _ => by simp [chainIdsFrom, chainIdsFrom_length sha256 ds]

theorem chainIds_length (sha256 : Bytes → Digest) (ds : List Digest) :
    (chainIds sha256 ds).length = ds.length := by
  cases ds with
  | nil => rfl
  | cons d ds => simp [chainIds, chainIdsFrom_length]

/-- `Writer::commit` of a blob written in one go: size, digest, then the blob is there. -/
def commitBlob (h : Host Tree) (blobs : OrdMap String Bytes) (bytes : Bytes) (expectedSize : Nat)
    (expected : Digest) : Except Content.Error (OrdMap String Bytes) :=
  if bytes.length ≠ expectedSize then .error (.sizeMismatch expectedSize bytes.length)
  else if h.sha256 bytes ≠ expected then .error (.digestMismatch expected (h.sha256 bytes))
  else if (blobs.get? expected.hex).isSome then .ok blobs
  else .ok (blobs.insert expected.hex bytes)

/-- Populate the snapshot directory of a chainID, unless it has entries already. -/
def unpackSnapshot (h : Host Tree) (s : Stores Tree) (chainId : Digest) (bytes : Bytes)
    (mediaType : String) : Except Error Unit × Stores Tree :=
  let dir := (s.snapshots.get? chainId.hex).getD h.emptyDir
  if (s.snapshots.get? chainId.hex).isSome ∧ h.populated dir then (.ok (), s)
  else
    let r := h.applyLayer dir bytes mediaType
    let s' := { s with snapshots := s.snapshots.insert chainId.hex r.1 }
    match r.2 with
    | none => (.ok (), s')
    | some e => (.error (.unpack e), s')

/-- One turn of the layer loop: the layer's digest. -/
def pullLayer (h : Host Tree) (a : Answer) (reference : String) (i : Nat) (d : Descriptor)
    (diffId chainId : Digest) (s : Stores Tree) : Except Error Digest × Stores Tree :=
  match Digest.parse d.digest with
  | .error e => (.error (.digest e), s)
  | .ok expected =>
    if d.size < 0 then
      (.error (.reference reference
        ("layer " ++ toString i ++ " has negative size " ++ toString d.size)), s)
    else
      match a.blob i with
      | .error e => (.error e, s)
      | .ok bytes =>
        match commitBlob h s.blobs bytes d.size.toNat expected with
        | .error e => (.error (.content e), s)
        | .ok blobs =>
          let s := { s with blobs := blobs }
          -- the blob on disk is read back for the diffID and for the unpacking
          match s.blobs.get? expected.hex with
          | none => (.error (.io "not found"), s)
          | some stored =>
            match h.computeDiffId stored d.mediaType with
            | .error e => (.error e, s)
            | .ok computed =>
              if computed ≠ diffId then (.error (.diffIdMismatch i diffId computed), s)
              else
                match unpackSnapshot h s chainId stored d.mediaType with
                | (.error e, s) => (.error e, s)
                | (.ok _, s) => (.ok expected, s)

/-- The layer loop, over descriptors with their diffID and chainID. -/
def pullLayers (h : Host Tree) (a : Answer) (reference : String) :
    Nat → List (Descriptor × Digest × Digest) → Stores Tree →
      Except Error (List Digest) × Stores Tree
  | _, [], s => (.ok [], s)
  | i, (d, diffId, chainId) :: rest, s =>
    match pullLayer h a reference i d diffId chainId s with
    | (.error e, s) => (.error e, s)
    | (.ok layer, s) =>
      match pullLayers h a reference (i + 1) rest s with
      | (.error e, s) => (.error e, s)
      | (.ok layers, s) => (.ok (layer :: layers), s)

/-- Parse a list of digests, stopping at the first error. -/
def parseDigests : List String → Except DigestError (List Digest)
  | [] => .ok []
  | s :: rest =>
    match Digest.parse s with
    | .error e => .error e
    | .ok d =>
      match parseDigests rest with
      | .error e => .error e
      | .ok ds => .ok (d :: ds)

/-- The manifest digest: absent when the client reports none. -/
def parseManifestDigest (text : String) : Except DigestError (Option Digest) :=
  if text = "" then .ok none
  else
    match Digest.parse text with
    | .error e => .error e
    | .ok d => .ok (some d)

/-- `pull_with_options`. -/
def pullWithOptions (h : Host Tree) (a : Answer) (reference : String) (s : Stores Tree) :
    Except Error PulledImage × Stores Tree :=
  match a.parseError with
  | some e => (.error (.reference reference e), s)
  | none =>
    match a.manifest with
    | .error e => (.error e, s)
    | .ok (layers, manifestDigest, configBytes) =>
      let imageId := h.sha256 configBytes
      match commitBlob h s.blobs configBytes configBytes.length imageId with
      | .error e => (.error (.content e), s)
      | .ok blobs =>
        let s := { s with blobs := blobs }
        match h.parseConfig configBytes with
        | .error e => (.error (.config e), s)
        | .ok config =>
          match parseDigests config.diffIds with
          | .error e => (.error (.digest e), s)
          | .ok diffIds =>
            if diffIds.length ≠ layers.length then
              (.error (.layerCountMismatch diffIds.length layers.length), s)
            else
              let chains := chainIds h.sha256 diffIds
              match pullLayers h a reference 0 (layers.zip (diffIds.zip chains)) s with
              | (.error e, s) => (.error e, s)
              | (.ok layerDigests, s) =>
                match parseManifestDigest manifestDigest with
                | .error e => (.error (.digest e), s)
                | .ok manifestDigest =>
                  (.ok
                    { reference := reference
                      imageId := imageId
                      manifestDigest := manifestDigest
                      size := configBytes.length + (layers.map fun d => d.size.toNat).sum
                      diffIds := diffIds
                      chainIds := chains
                      layerDigests := layerDigests
                      user := config.user }, s)

/-! ## What a successful pull has done -/

/-- One layer: every check has passed. -/
theorem pullLayer_inv {h : Host Tree} {a : Answer} {reference : String} {i : Nat} {d : Descriptor}
    {diffId chainId layer : Digest} {s s' : Stores Tree}
    (hp : pullLayer h a reference i d diffId chainId s = (.ok layer, s')) :
    Digest.parse d.digest = .ok layer ∧ 0 ≤ d.size ∧ ∃ bytes blobs stored, a.blob i = .ok bytes ∧
      commitBlob h s.blobs bytes d.size.toNat layer = .ok blobs ∧
      blobs.get? layer.hex = some stored ∧ h.computeDiffId stored d.mediaType = .ok diffId ∧
      unpackSnapshot h { s with blobs := blobs } chainId stored d.mediaType = (.ok (), s') := by
  unfold pullLayer at hp
  split at hp
  · cases hp
  · rename_i expected hexpected
    split at hp
    · cases hp
    · rename_i hsize
      split at hp
      · cases hp
      · rename_i bytes hblob
        split at hp
        · cases hp
        · rename_i blobs hcommit
          dsimp only at hp
          split at hp
          · cases hp
          · rename_i stored hstored
            split at hp
            · cases hp
            · rename_i computed hcomputed
              split at hp
              · cases hp
              · rename_i hdiff
                split at hp
                · cases hp
                · rename_i u hunpack
                  cases hp
                  rw [not_not.1 hdiff] at hcomputed
                  exact ⟨hexpected, Int.not_lt.1 hsize, bytes, blobs, stored, hblob, hcommit,
                    hstored, hcomputed, hunpack⟩

/-- The pull: what the registry served, what was read from the config, and the layers. -/
theorem pullWithOptions_inv {h : Host Tree} {a : Answer} {reference : String} {s s' : Stores Tree}
    {img : PulledImage} (hp : pullWithOptions h a reference s = (.ok img, s')) :
    ∃ layers manifestDigest config blobs diffIds user layerDigests digest,
      a.parseError = none ∧ a.manifest = .ok (layers, manifestDigest, config) ∧
      commitBlob h s.blobs config config.length (h.sha256 config) = .ok blobs ∧
      (∃ texts, h.parseConfig config = .ok ⟨texts, user⟩ ∧ parseDigests texts = .ok diffIds) ∧
      img = { reference := reference
              imageId := h.sha256 config
              manifestDigest := digest
              size := config.length + (layers.map fun d => d.size.toNat).sum
              diffIds := diffIds
              chainIds := chainIds h.sha256 diffIds
              layerDigests := layerDigests
              user := user } ∧
      diffIds.length = layers.length ∧
      pullLayers h a reference 0 (layers.zip (diffIds.zip (chainIds h.sha256 diffIds)))
        { s with blobs := blobs } = (.ok layerDigests, s') ∧
      parseManifestDigest manifestDigest = .ok digest := by
  unfold pullWithOptions at hp
  split at hp
  · cases hp
  · rename_i hparse
    split at hp
    · cases hp
    · rename_i layers manifestDigest config hmanifest
      dsimp only at hp
      split at hp
      · cases hp
      · rename_i blobs hcommit
        split at hp
        · cases hp
        · rename_i parsed hconfig
          split at hp
          · cases hp
          · rename_i diffIds hdiffIds
            split at hp
            · cases hp
            · rename_i hlen
              split at hp
              · cases hp
              · rename_i layerDigests s₁ hlayers
                split at hp
                · cases hp
                · rename_i digest hdigest
                  cases hp
                  exact ⟨layers, manifestDigest, config, blobs, diffIds, parsed.user, layerDigests,
                    digest, hparse, hmanifest, hcommit, ⟨parsed.diffIds, hconfig, hdiffIds⟩, rfl,
                    not_not.1 hlen, hlayers, hdigest⟩

/-! ## Snapshot directories -/

/-- The directory `snapshots/<name>` exists. -/
def HasDir (s : Stores Tree) (name : String) : Prop := (s.snapshots.get? name).isSome = true

theorem unpackSnapshot_ok {h : Host Tree} {s s' : Stores Tree} {chainId : Digest} {bytes : Bytes}
    {mediaType : String} (hu : unpackSnapshot h s chainId bytes mediaType = (.ok (), s'))
    (name : String) : HasDir s' name ↔ HasDir s name ∨ chainId.hex = name := by
  unfold unpackSnapshot at hu
  dsimp only at hu
  split at hu
  · rename_i hp
    cases hu
    constructor
    · exact Or.inl
    · rintro (hd | rfl)
      · exact hd
      · exact hp.1
  · split at hu
    · cases hu
      simp only [HasDir, OrdMap.get?_insert]
      by_cases hn : name = chainId.hex
      · simp [hn]
      · simp [hn, Ne.symm hn]
    · cases hu

theorem pullLayer_ok {h : Host Tree} {a : Answer} {reference : String} {i : Nat} {d : Descriptor}
    {diffId chainId layer : Digest} {s s' : Stores Tree}
    (hp : pullLayer h a reference i d diffId chainId s = (.ok layer, s')) (name : String) :
    HasDir s' name ↔ HasDir s name ∨ chainId.hex = name := by
  obtain ⟨-, -, bytes, blobs, stored, -, -, -, -, hunpack⟩ := pullLayer_inv hp
  exact unpackSnapshot_ok hunpack name

/-- The first layer, then the others. -/
theorem pullLayers_cons_inv {h : Host Tree} {a : Answer} {reference : String} {i : Nat}
    {d : Descriptor} {diffId chainId : Digest} {rest : List (Descriptor × Digest × Digest)}
    {s s' : Stores Tree} {layers : List Digest}
    (hp : pullLayers h a reference i ((d, diffId, chainId) :: rest) s = (.ok layers, s')) :
    ∃ layer others s₁, pullLayer h a reference i d diffId chainId s = (.ok layer, s₁) ∧
      pullLayers h a reference (i + 1) rest s₁ = (.ok others, s') ∧ layers = layer :: others := by
  unfold pullLayers at hp
  split at hp
  · cases hp
  · rename_i layer s₁ hlayer
    split at hp
    · cases hp
    · rename_i others s₂ hothers
      cases hp
      exact ⟨layer, others, s₁, hlayer, hothers, rfl⟩

theorem pullLayers_ok {h : Host Tree} {a : Answer} {reference : String} :
    ∀ {ls : List (Descriptor × Digest × Digest)} {i : Nat} {s s' : Stores Tree}
      {layers : List Digest}, pullLayers h a reference i ls s = (.ok layers, s') →
      ∀ name, HasDir s' name ↔ HasDir s name ∨ ∃ c ∈ ls.map (fun l => l.2.2), c.hex = name
  | [], _, _, _, _, hp, name => by cases hp; simp
  | (d, diffId, chainId) :: rest, i, s, s', layers, hp, name => by
    obtain ⟨layer, others, s₁, hlayer, hothers, rfl⟩ := pullLayers_cons_inv hp
    rw [pullLayers_ok hothers name, pullLayer_ok hlayer name]
    simp [or_assoc]

theorem map_chain_zip {layers : List Descriptor} {diffIds chains : List Digest}
    (hd : diffIds.length = layers.length) (hc : chains.length = diffIds.length) :
    (layers.zip (diffIds.zip chains)).map (fun l => l.2.2) = chains := by
  have h1 : (layers.zip (diffIds.zip chains)).map (fun l => l.2.2) =
      ((layers.zip (diffIds.zip chains)).map Prod.snd).map Prod.snd := by
    rw [List.map_map]
    rfl
  rw [h1, List.map_snd_zip (by simp [hc, hd]), List.map_snd_zip (by simp [hc])]

/-- **A successful pull** creates the directories of its chainIDs and no others. -/
theorem pullWithOptions_ok {h : Host Tree} {a : Answer} {reference : String}
    {s s' : Stores Tree} {img : PulledImage}
    (hp : pullWithOptions h a reference s = (.ok img, s')) (name : String) :
    HasDir s' name ↔ HasDir s name ∨ ∃ c ∈ img.chainIds, c.hex = name := by
  obtain ⟨layers, manifestDigest, config, blobs, diffIds, user, layerDigests, digest, -, -, -, -,
    rfl, hlen, hlayers, -⟩ := pullWithOptions_inv hp
  have hzip := pullLayers_ok hlayers name
  rwa [map_chain_zip hlen (chainIds_length h.sha256 diffIds)] at hzip

/-- The pull of an image of one layer, from what its steps do. -/
theorem pullWithOptions_single {h : Host Tree} {a : Answer} {user : String} {s s' : Stores Tree}
    {layer : Descriptor} {expected diffId : Digest} {config bytes stored : Bytes}
    {blobs blobs' : OrdMap String Bytes} (reference : String) (hreference : a.parseError = none)
    (hmanifest : a.manifest = .ok ([layer], "", config))
    (hconfig : h.parseConfig config = .ok ⟨[diffId.toString], user⟩)
    (hblob : a.blob 0 = .ok bytes) (hdigest : layer.digest = expected.toString)
    (hsize : layer.size = bytes.length)
    (hcommit : commitBlob h s.blobs config config.length (h.sha256 config) = .ok blobs)
    (hcommit' : commitBlob h blobs bytes bytes.length expected = .ok blobs')
    (hstored : blobs'.get? expected.hex = some stored)
    (hdiff : h.computeDiffId stored layer.mediaType = .ok diffId)
    (hunpack : unpackSnapshot h { s with blobs := blobs' } diffId stored layer.mediaType =
      (.ok (), s')) :
    pullWithOptions h a reference s =
      (.ok
        { reference := reference
          imageId := h.sha256 config
          manifestDigest := none
          size := config.length + bytes.length
          diffIds := [diffId]
          chainIds := [diffId]
          layerDigests := [expected]
          user := user }, s') := by
  have hneg : ¬ layer.size < 0 := by omega
  have hnat : layer.size.toNat = bytes.length := by omega
  simp [pullWithOptions, hreference, hmanifest, hcommit, hconfig, parseDigests,
    Digest.parse_toString, chainIds, chainIdsFrom, pullLayers, pullLayer, hdigest, hneg, hblob,
    hnat, hcommit', hstored, hdiff, hunpack, parseManifestDigest]

end ContainerdRs.Images
