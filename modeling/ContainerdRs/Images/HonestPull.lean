import ContainerdRs.Images.PullIntegrity

/-!
# Honest images

An image is honest if its manifest, config and blobs fit: every layer is a tar archive, plain, as a
zstd file or as a gzip file, under the media type for it, with the size and the digest of the
descriptor, and its content hashes to the diffID.  A gzip file is one member after another, and its
content is that of all of them.  `GzDecoder` stops behind the first.

* `Encoding` — the forms of a layer, with the blob, its content and what is decoded of it.
* `pullLayers_honest` — the layer loop accepts an honest layer exactly if all is decoded.
* `honest_pull_iff` — and so does a pull.
* `second_member_rejected` — a gzip file of two members.
-/

set_option autoImplicit false

namespace ContainerdRs.Images.Concurrent

open Snapshots

/-! ## The forms of a layer -/

/-- A gzip member: the bytes of the file and the data they hold. -/
structure Member where
  file : Bytes
  data : Bytes

/-- A layer as its producer wrote it. -/
inductive Encoding where
  | plain (content : Bytes)
  | zstd (file content : Bytes)
  | gzip (first : Member) (rest : List Member)

/-- The blob of the layer. -/
def Encoding.blob : Encoding → Bytes
  | .plain content => content
  | .zstd file _ => file
  | .gzip first rest => first.file ++ rest.flatMap Member.file

/-- Its full decompression. -/
def Encoding.content : Encoding → Bytes
  | .plain content => content
  | .zstd _ content => content
  | .gzip first rest => first.data ++ rest.flatMap Member.data

/-- The media type for it. -/
def Encoding.mediaType : Encoding → String
  | .plain _ => "application/vnd.oci.image.layer.v1.tar"
  | .zstd _ _ => "application/vnd.oci.image.layer.v1.tar+zstd"
  | .gzip _ _ => "application/vnd.oci.image.layer.v1.tar+gzip"

/-- What `decompress` delivers of it. -/
def Encoding.decoded : Encoding → Bytes
  | .plain content => content
  | .zstd _ content => content
  | .gzip first _ => first.data

/-- The condition: the members behind the first hold nothing. -/
def Encoding.OneMember : Encoding → Prop
  | .gzip _ rest => ∀ m ∈ rest, m.data = []
  | .plain _ | .zstd _ _ => True

/-- The file formats: which bytes are a gzip member, and which a zstd file, with which data. -/
structure Formats where
  member : Bytes → Bytes → Prop
  zstd : Bytes → Bytes → Prop

def Encoding.Valid (F : Formats) : Encoding → Prop
  | .plain _ => True
  | .zstd file content => F.zstd file content
  | .gzip first rest => F.member first.file first.data ∧ ∀ m ∈ rest, F.member m.file m.data

/-- What the decompressors do: `GzDecoder` decodes the first member of its input, whatever follows,
    and the zstd decoder the file. -/
structure Decodes (D : Decoders) (F : Formats) : Prop where
  gzip : ∀ file data rest, F.member file data → D.gzip (file ++ rest) = ⟨data, none⟩
  zstd : ∀ file content, F.zstd file content → D.zstd file = .ok ⟨content, none⟩

/-- All of the layer is decoded exactly if the members behind the first hold nothing. -/
theorem decoded_eq_content_iff (e : Encoding) : e.decoded = e.content ↔ e.OneMember := by
  cases e with
  | plain content => exact iff_of_true rfl trivial
  | zstd file content => exact iff_of_true rfl trivial
  | gzip first rest =>
    show first.data = first.data ++ rest.flatMap Member.data ↔ ∀ m ∈ rest, m.data = []
    rw [List.self_eq_append_right, List.flatMap_eq_nil_iff]

theorem decompress_encoding {D : Decoders} {F : Formats} (hD : Decodes D F) {e : Encoding}
    (he : e.Valid F) :
    decompress D e.blob (.fromMediaType e.mediaType) = .ok ⟨e.decoded, none⟩ := by
  cases e with
  | plain content =>
    have hnone : Compression.fromMediaType (Encoding.plain content).mediaType = .none := by
      show Compression.fromMediaType "application/vnd.oci.image.layer.v1.tar" = .none
      decide
    rw [hnone]
    rfl
  | zstd file content =>
    have hzstd : Compression.fromMediaType (Encoding.zstd file content).mediaType = .zstd := by
      show Compression.fromMediaType "application/vnd.oci.image.layer.v1.tar+zstd" = .zstd
      decide
    rw [hzstd]
    exact hD.zstd file content he
  | gzip first rest =>
    have hgzip : Compression.fromMediaType (Encoding.gzip first rest).mediaType = .gzip := by
      show Compression.fromMediaType "application/vnd.oci.image.layer.v1.tar+gzip" = .gzip
      decide
    rw [hgzip]
    exact congrArg _ (hD.gzip first.file first.data _ he.1)

/-! ## Honest images -/

variable {Tree Op : Type}

/-- A layer of an image: its descriptor, and the form it has. -/
structure ImageLayer where
  descriptor : Descriptor
  encoding : Encoding

/-- Descriptor and blob of the layer fit, and the archive can be extracted. -/
structure HonestLayer (c : Code Tree Op) (F : Formats) (l : ImageLayer) : Prop where
  valid : l.encoding.Valid F
  mediaType : l.descriptor.mediaType = l.encoding.mediaType
  digest : Digest.parse l.descriptor.digest = .ok (c.sha256 l.encoding.blob)
  size : l.descriptor.size = l.encoding.blob.length
  extracts : (applyWrites c (c.tarWrites ⟨l.encoding.content, none⟩) c.emptyDir).2 = none

/-- The registry serves an honest image with these layers and this config, and delivers the bytes it
    declares. -/
structure HonestImage (c : Code Tree Op) (F : Formats) (a : Answer) (layers : List ImageLayer)
    (config : Bytes) : Prop where
  reference : a.parseError = none
  manifest : ∃ text digest, a.manifest = .ok (layers.map (·.descriptor), text, config) ∧
    parseManifestDigest text = .ok digest
  config : ∃ diffIds user, c.parseConfig config = .ok ⟨diffIds, user⟩ ∧
    parseDigests diffIds = .ok (layers.map fun l => c.sha256 l.encoding.content)
  honest : ∀ l ∈ layers, HonestLayer c F l
  blobs : ∀ (i : Nat) l, layers[i]? = some l → a.blob i = .ok l.encoding.blob

/-- The byte strings of the pull: what is stored, the config, and of each layer the blob, the
    content and what is decoded. -/
def imageBytes (s : Stores Tree) (layers : List ImageLayer) (config : Bytes) : Set Bytes :=
  {b | (∃ name, s.blobs.get? name = some b) ∨ b = config ∨
    ∃ l ∈ layers, b = l.encoding.blob ∨ b = l.encoding.content ∨ b = l.encoding.decoded}

variable {c : Code Tree Op} {F : Formats} {S : Set Bytes}

theorem blobsOk_imageBytes {s : Stores Tree} {layers : List ImageLayer} {config : Bytes}
    (hs : ∀ name b, s.blobs.get? name = some b → (c.sha256 b).hex = name) :
    BlobsOk c (imageBytes s layers config) s.blobs :=
  fun name b hb => ⟨hs name b hb, .inl ⟨name, hb⟩⟩

theorem HonestImage.mem_imageBytes {a : Answer} {layers : List ImageLayer} {config : Bytes}
    (h : HonestImage c F a layers config) {s : Stores Tree} :
    ∀ l ∈ layers, HonestLayer c F l ∧ l.encoding.blob ∈ imageBytes s layers config ∧
      l.encoding.content ∈ imageBytes s layers config ∧
      l.encoding.decoded ∈ imageBytes s layers config := by
  intro l hl
  have hmem : ∀ b, b = l.encoding.blob ∨ b = l.encoding.content ∨ b = l.encoding.decoded →
      b ∈ imageBytes s layers config := fun b hb => .inr (.inr ⟨l, hl, hb⟩)
  exact ⟨h.honest l hl, hmem _ (.inl rfl), hmem _ (.inr (.inl rfl)), hmem _ (.inr (.inr rfl))⟩

theorem HonestImage.blobs_from {a : Answer} {layers : List ImageLayer} {config : Bytes}
    (h : HonestImage c F a layers config) (j : Nat) (l : ImageLayer)
    (hl : layers[j]? = some l) : a.blob (0 + j) = .ok l.encoding.blob := by
  rw [Nat.zero_add]
  exact h.blobs j l hl

/-! ## The checks of a pull -/

/-- The diffID is computed of what is decoded. -/
theorem computeDiffId_honest (hD : Decodes c.decoders F) {l : ImageLayer}
    (hl : HonestLayer c F l) :
    computeDiffId c l.encoding.blob l.descriptor.mediaType =
      .ok (c.sha256 l.encoding.decoded) := by
  have hreader : computeDiffIdReader c.decoders c.sha256 l.encoding.blob
      (.fromMediaType l.descriptor.mediaType) = .ok (c.sha256 l.encoding.decoded) := by
    refine computeDiffIdReader_ok.2 ⟨l.encoding.decoded, ?_, rfl⟩
    rw [hl.mediaType]
    exact decompress_encoding hD hl.valid
  simp only [computeDiffId, hreader]

/-- The turns of the layer loop belong to these layers. -/
def TurnsOf (c : Code Tree Op) (turns : List (Descriptor × Digest × Digest))
    (layers : List ImageLayer) : Prop :=
  List.Forall₂ (fun turn l => turn.1 = l.descriptor ∧ turn.2.1 = c.sha256 l.encoding.content)
    turns layers

/-- The turns of an honest image. -/
def honestTurns (c : Code Tree Op) (layers : List ImageLayer) :
    List (Descriptor × Digest × Digest) :=
  let diffIds := layers.map fun l => c.sha256 l.encoding.content
  (layers.map (·.descriptor)).zip (diffIds.zip (chainIds c.sha256 diffIds))

/-- Any chainIDs go with the descriptors and diffIDs of the layers. -/
theorem turnsOf_zip : ∀ (layers : List ImageLayer) (chains : List Digest),
    chains.length = layers.length →
    TurnsOf c ((layers.map (·.descriptor)).zip
      ((layers.map fun l => c.sha256 l.encoding.content).zip chains)) layers
  | [], _, _ => .nil
  | _ :: layers, [], h => by simp at h
  | l :: layers, chain :: chains, h =>
    .cons ⟨rfl, rfl⟩ (turnsOf_zip layers chains (Nat.succ.inj h))

theorem turnsOf_honestTurns (layers : List ImageLayer) :
    TurnsOf c (honestTurns c layers) layers := by
  refine turnsOf_zip layers _ ?_
  rw [chainIds_length, List.length_map]

variable [DecidableEq Tree]

/-- A commit of bytes under their own digest succeeds, and they are what is stored then. -/
theorem commitBlob_honest (hS : Set.InjOn c.sha256 S) {blobs : OrdMap String Bytes}
    (hb : BlobsOk c S blobs) {bytes : Bytes} (hmem : bytes ∈ S) :
    ∃ blobs', commitBlob c.host blobs bytes bytes.length (c.sha256 bytes) = .ok blobs' ∧
      BlobsOk c S blobs' ∧ blobs'.get? (c.sha256 bytes).hex = some bytes := by
  have hsha : c.host.sha256 bytes = c.sha256 bytes := rfl
  cases hget : blobs.get? (c.sha256 bytes).hex with
  | some b =>
    obtain ⟨hhex, hb'⟩ := hb _ _ hget
    have hsame : b = bytes := hS hb' hmem (Digest.hex_injective hhex)
    refine ⟨blobs, ?_, hb, hsame ▸ hget⟩
    simp [commitBlob, hsha, hget]
  | none =>
    refine ⟨_, ?_, (insert_blobsOk hS hb hmem).1, ?_⟩
    · simp [commitBlob, hsha, hget]
    · simp [OrdMap.get?_insert]

/-- The extraction of an honest layer succeeds, whether the directory has entries or not. -/
theorem unpackSnapshot_honest (hD : Decodes c.decoders F) {l : ImageLayer}
    (hl : HonestLayer c F l) (hone : l.encoding.OneMember) (s : Stores Tree) (chainId : Digest) :
    ∃ s', unpackSnapshot c.host s chainId l.encoding.blob l.descriptor.mediaType = (.ok (), s') ∧
      s'.blobs = s.blobs := by
  have happly : c.host.applyLayer c.host.emptyDir l.encoding.blob l.descriptor.mediaType =
      applyWrites c (c.tarWrites ⟨l.encoding.content, none⟩) c.emptyDir := by
    show applyLayer c c.emptyDir l.encoding.blob (.fromMediaType l.descriptor.mediaType) = _
    rw [applyLayer, hl.mediaType, decompress_encoding hD hl.valid,
      (decoded_eq_content_iff _).2 hone]
  unfold unpackSnapshot
  by_cases hp : (s.snapshots.get? chainId.hex).isSome ∧
      c.host.populated ((s.snapshots.get? chainId.hex).getD c.host.emptyDir)
  · exact ⟨s, if_pos hp, rfl⟩
  · have hempty : (s.snapshots.get? chainId.hex).getD c.host.emptyDir = c.host.emptyDir := by
      cases hget : s.snapshots.get? chainId.hex with
      | none => rfl
      | some tree =>
        rw [hget] at hp
        by_contra hne
        refine hp ⟨rfl, ?_⟩
        exact decide_eq_true hne
    rw [if_neg hp]
    simp only [hempty, happly, hl.extracts]
    exact ⟨_, rfl, rfl⟩

/-- One turn of the layer loop on an honest layer. -/
theorem pullLayer_honest (hS : Set.InjOn c.sha256 S) (hD : Decodes c.decoders F) {a : Answer}
    {l : ImageLayer} (hl : HonestLayer c F l) {i : Nat} (hblob : a.blob i = .ok l.encoding.blob)
    (hmem : l.encoding.blob ∈ S ∧ l.encoding.content ∈ S ∧ l.encoding.decoded ∈ S)
    {s : Stores Tree} (hb : BlobsOk c S s.blobs) (reference : String) (chainId : Digest) :
    (l.encoding.OneMember → ∃ s', pullLayer c.host a reference i l.descriptor
        (c.sha256 l.encoding.content) chainId s = (.ok (c.sha256 l.encoding.blob), s') ∧
        BlobsOk c S s'.blobs) ∧
    (¬ l.encoding.OneMember → ∃ s', pullLayer c.host a reference i l.descriptor
        (c.sha256 l.encoding.content) chainId s =
          (.error (.diffIdMismatch i (c.sha256 l.encoding.content) (c.sha256 l.encoding.decoded)),
            s')) := by
  have hneg : ¬ l.descriptor.size < 0 := by
    have := hl.size
    omega
  have hnat : l.descriptor.size.toNat = l.encoding.blob.length := by
    rw [hl.size]
    rfl
  obtain ⟨blobs', hcommit, hb', hstored⟩ := commitBlob_honest hS hb hmem.1
  have hdiff : c.host.computeDiffId l.encoding.blob l.descriptor.mediaType =
      .ok (c.sha256 l.encoding.decoded) := computeDiffId_honest hD hl
  constructor
  · intro hone
    obtain ⟨s', hunpack, hblobs⟩ :=
      unpackSnapshot_honest hD hl hone { s with blobs := blobs' } chainId
    refine ⟨s', ?_, ?_⟩
    · have hsame : c.sha256 l.encoding.decoded = c.sha256 l.encoding.content := by
        rw [(decoded_eq_content_iff _).2 hone]
      simp [pullLayer, hl.digest, hneg, hblob, hnat, hcommit, hstored, hdiff, hsame, hunpack]
    · rw [hblobs]
      exact hb'
  · intro hone
    have hne : c.sha256 l.encoding.decoded ≠ c.sha256 l.encoding.content := by
      intro h
      exact hone ((decoded_eq_content_iff _).1 (hS hmem.2.2 hmem.2.1 h))
    refine ⟨{ s with blobs := blobs' }, ?_⟩
    simp only [pullLayer, hl.digest, if_neg hneg, hblob, hnat, hcommit, hstored, hdiff, ne_eq, hne,
      not_false_eq_true, if_true]

/-- **The layer loop** on honest layers: it succeeds exactly if each of them is decoded in full. -/
theorem pullLayers_honest (hS : Set.InjOn c.sha256 S) (hD : Decodes c.decoders F) {a : Answer}
    (reference : String) : ∀ {turns : List (Descriptor × Digest × Digest)}
      {layers : List ImageLayer} {i : Nat} {s : Stores Tree}, TurnsOf c turns layers →
      (∀ l ∈ layers, HonestLayer c F l ∧
        l.encoding.blob ∈ S ∧ l.encoding.content ∈ S ∧ l.encoding.decoded ∈ S) →
      (∀ (j : Nat) l, layers[j]? = some l → a.blob (i + j) = .ok l.encoding.blob) →
      BlobsOk c S s.blobs →
      ((∃ digests s', pullLayers c.host a reference i turns s = (.ok digests, s')) ↔
        ∀ l ∈ layers, l.encoding.OneMember)
  | [], _, i, s, ht, _, _, _ => by
    cases ht
    exact iff_of_true ⟨[], s, rfl⟩ (by simp)
  | (d, diffId, chainId) :: turns, _, i, s, ht, hl, hblob, hb => by
    obtain _ | @⟨_, l, _, layers, ⟨hd, hdiff⟩, ht⟩ := ht
    have hd : d = l.descriptor := hd
    have hdiff : diffId = c.sha256 l.encoding.content := hdiff
    subst hd hdiff
    obtain ⟨hhonest, hmem⟩ := hl l List.mem_cons_self
    have hblob₀ : a.blob i = .ok l.encoding.blob := hblob 0 l rfl
    obtain ⟨hpass, hfail⟩ := pullLayer_honest hS hD hhonest hblob₀ hmem hb reference chainId
    by_cases hone : l.encoding.OneMember
    · obtain ⟨s₁, hp, hb₁⟩ := hpass hone
      have hrest : ∀ (j : Nat) l', layers[j]? = some l' →
          a.blob (i + 1 + j) = .ok l'.encoding.blob := by
        intro j l' hj
        have hj' := hblob (j + 1) l' (by simpa using hj)
        rwa [Nat.add_assoc, Nat.add_comm 1 j]
      have ih := pullLayers_honest hS hD reference (i := i + 1) (s := s₁) ht
        (fun l' hl' => hl l' (List.mem_cons_of_mem _ hl')) hrest hb₁
      have hrun : (∃ digests s', pullLayers c.host a reference i
          ((l.descriptor, c.sha256 l.encoding.content, chainId) :: turns) s = (.ok digests, s')) ↔
          ∃ digests s', pullLayers c.host a reference (i + 1) turns s₁ = (.ok digests, s') := by
        rw [pullLayers, hp]
        cases hr : pullLayers c.host a reference (i + 1) turns s₁ with
        | mk r s' =>
          cases r with
          | error e => simp [hr]
          | ok digests => simp [hr]
      rw [hrun, ih, List.forall_mem_cons]
      exact (and_iff_right hone).symm
    · obtain ⟨s₁, hp⟩ := hfail hone
      refine iff_of_false ?_ fun h => hone (h l List.mem_cons_self)
      rintro ⟨digests, s', hr⟩
      rw [pullLayers, hp] at hr
      cases hr

/-- A pull of an honest image comes to its layers, and ends as they do. -/
theorem pullWithOptions_layers (hS : Set.InjOn c.sha256 S) {a : Answer} {layers : List ImageLayer}
    {config : Bytes} (h : HonestImage c F a layers config) {s : Stores Tree}
    (hb : BlobsOk c S s.blobs) (hconfig : config ∈ S) (reference : String) :
    ∃ s₁ : Stores Tree, BlobsOk c S s₁.blobs ∧
      ((∃ img s', pullWithOptions c.host a reference s = (.ok img, s')) ↔
        ∃ digests s', pullLayers c.host a reference 0 (honestTurns c layers) s₁ =
          (.ok digests, s')) := by
  obtain ⟨text, digest, hmanifest, hdigest⟩ := h.manifest
  obtain ⟨diffIds, user, hparse, hdiffs⟩ := h.config
  obtain ⟨blobs', hcommit, hb', -⟩ := commitBlob_honest hS hb hconfig
  refine ⟨{ s with blobs := blobs' }, hb', ?_⟩
  have hsha : c.host.sha256 = c.sha256 := rfl
  have hcfg : c.host.parseConfig config = .ok ⟨diffIds, user⟩ := hparse
  have hlen : (layers.map fun l => c.sha256 l.encoding.content).length =
      (layers.map (·.descriptor)).length := by
    rw [List.length_map, List.length_map]
  simp only [pullWithOptions, h.reference, hmanifest, hsha, hcommit, hcfg, hdiffs, hlen, ne_eq,
    not_true_eq_false, if_false, hdigest]
  simp only [honestTurns]
  cases hr : pullLayers c.host a reference 0
      ((layers.map (·.descriptor)).zip ((layers.map fun l => c.sha256 l.encoding.content).zip
        (chainIds c.sha256 (layers.map fun l => c.sha256 l.encoding.content))))
      { s with blobs := blobs' } with
  | mk r s' =>
    cases r with
    | error e => simp
    | ok digests => simp

/-- A gzip member with 512 bytes of data in a stored block. -/
def storedMember (data crc : Bytes) : Bytes :=
  [0x1f, 0x8b, 8, 0, 0, 0, 0, 0, 0, 255, 1, 0, 2, 255, 253] ++ (data ++ (crc ++ [0, 2, 0, 0]))

/-- The header of the file `a`. -/
def firstMember : Member :=
  ⟨storedMember (tarHeader [0x61] "006076") [0x36, 0x44, 0x72, 0x60], tarHeader [0x61] "006076"⟩

/-- The header of the file `b`. -/
def secondMember : Member :=
  ⟨storedMember (tarHeader [0x62] "006077") [0x8e, 0x49, 0xfc, 0xaf], tarHeader [0x62] "006077"⟩

/-- Such members are gzip. -/
def storedFormats : Formats where
  member file data := data.length = 512 ∧ ∃ crc, file = storedMember data crc
  zstd _ _ := False

/-- The sha256 of the file `a`. -/
def firstDigest : Digest :=
  ⟨"fc6ad017feaadea81a19226be8b960e18a4fb4157c4f45c60cb64993b5564053", by decide, by decide⟩

/-- The sha256 of the first member alone. -/
def oneMemberDigest : Digest :=
  ⟨"f8cc0525ece316e285ed665c71476465b36744834534cbec364cf80f958e2842", by decide, by decide⟩

/-- The sha256 of both members. -/
def twoMembersDigest : Digest :=
  ⟨"abec3c93a05afa6439356ee7e663bfac13bcf0b3e299639380709da0b4bd1516", by decide, by decide⟩

/-- The sha256 of the byte strings of the two images, which differ in length. -/
@[irreducible]
def memberDigest (imageId : Digest) (n : Nat) : Digest :=
  if n = 512 then firstDigest
  else if n = 535 then oneMemberDigest
  else if n = 1024 then plainDigest
  else if n = 1070 then twoMembersDigest
  else imageId

/-- An image with one gzip layer that starts with the file `a`. -/
structure GzipSample where
  rest : List Member
  imageId : Digest
  config : Bytes

namespace GzipSample

variable (x : GzipSample)

def encoding : Encoding := .gzip firstMember x.rest

def sha256 (b : Bytes) : Digest := memberDigest x.imageId b.length

def code : Code (List Nat) Nat where
  sha256 := x.sha256
  parseConfig _ := .ok ⟨[(x.sha256 x.encoding.content).toString], ""⟩
  decoders :=
    { gzip := fun blob => ⟨(blob.drop 15).take 512, none⟩
      zstd := fun _ => .ok ⟨[], some "Unknown frame descriptor"⟩ }
  tarWrites _ := [0]
  emptyDir := []
  write op tree := (tree ++ [op], none)

def layer : ImageLayer where
  descriptor :=
    ⟨(x.sha256 x.encoding.blob).toString, x.encoding.blob.length, x.encoding.mediaType⟩
  encoding := x.encoding

def answer : Answer where
  parseError := none
  manifest := .ok ([x.layer.descriptor], "", x.config)
  blob _ := .ok x.encoding.blob

def stores : Stores (List Nat) := ⟨OrdMap.empty, OrdMap.empty⟩

theorem decodes : Decodes x.code.decoders storedFormats := by
  constructor
  · rintro file data rest ⟨hlen, crc, rfl⟩
    have hdrop : (storedMember data crc ++ rest).drop 15 =
        data ++ (crc ++ [0, 2, 0, 0] ++ rest) := by
      simp [storedMember]
    show (⟨((storedMember data crc ++ rest).drop 15).take 512, none⟩ : Stream) = ⟨data, none⟩
    rw [hdrop, List.take_append_of_le_length (by omega), ← hlen, List.take_length]
  · intro file content h
    exact h.elim

theorem honest (hrest : ∀ m ∈ x.rest, storedFormats.member m.file m.data) :
    HonestImage x.code storedFormats x.answer [x.layer] x.config := by
  have hfirst : storedFormats.member firstMember.file firstMember.data :=
    ⟨by decide +kernel, _, rfl⟩
  have hparse : ∀ d : Digest, parseDigests [d.toString] = .ok [d] := by
    intro d
    simp [parseDigests, Digest.parse_toString]
  refine ⟨rfl, ⟨"", none, rfl, rfl⟩, ⟨_, _, rfl, ?_⟩, ?_, ?_⟩
  · exact hparse (x.sha256 x.encoding.content)
  · intro l hl
    rw [List.mem_singleton.1 hl]
    exact ⟨⟨hfirst, hrest⟩, rfl, Digest.parse_toString _, rfl, rfl⟩
  · intro i l hl
    rw [List.mem_singleton.1 (List.mem_of_getElem? hl)]
    rfl

/-- The byte strings of the image have different digests, as they have different lengths. -/
theorem noCollision (blobLength contentLength : Nat) (hconfig : x.config.length = 99)
    (hblob : x.encoding.blob.length = blobLength)
    (hcontent : x.encoding.content.length = contentLength)
    (hdigest : [99, blobLength, contentLength, 512].Pairwise fun m n =>
      memberDigest x.imageId m = memberDigest x.imageId n → m = n)
    (hblobs : blobLength ≠ 99 ∧ blobLength ≠ 512 ∧ blobLength ≠ contentLength)
    (hcontents : contentLength ≠ 99)
    (hsame : contentLength = 512 → x.encoding.content = x.encoding.decoded) :
    Set.InjOn x.code.sha256 (imageBytes stores [x.layer] x.config) := by
  have hdecoded : x.encoding.decoded.length = 512 := by
    show firstMember.data.length = 512
    decide +kernel
  have hmem : ∀ b ∈ imageBytes stores [x.layer] x.config,
      b = x.config ∨ b = x.encoding.blob ∨ b = x.encoding.content ∨ b = x.encoding.decoded := by
    rintro b (⟨name, hb⟩ | rfl | ⟨l, hl, hb⟩)
    · simp [stores] at hb
    · exact .inl rfl
    · rw [List.mem_singleton.1 hl] at hb
      exact .inr hb
  simp only [List.pairwise_cons, List.mem_cons, List.not_mem_nil, or_false, forall_eq_or_imp,
    forall_eq, List.Pairwise.nil, and_true, IsEmpty.forall_iff, implies_true] at hdigest
  obtain ⟨⟨h1, h2, h3⟩, ⟨h4, h5⟩, h6⟩ := hdigest
  intro a ha b hb hab
  have hab : memberDigest x.imageId a.length = memberDigest x.imageId b.length := hab
  rcases hmem a ha with rfl | rfl | rfl | rfl <;> rcases hmem b hb with rfl | rfl | rfl | rfl <;>
    simp only [hconfig, hblob, hcontent, hdecoded] at hab
  · rfl
  · exact absurd (h1 hab).symm hblobs.1
  · exact absurd (h2 hab).symm hcontents
  · exact absurd (h3 hab) (by decide)
  · exact absurd (h1 hab.symm).symm hblobs.1
  · rfl
  · exact absurd (h4 hab) hblobs.2.2
  · exact absurd (h5 hab) hblobs.2.1
  · exact absurd (h2 hab.symm).symm hcontents
  · exact absurd (h4 hab.symm) hblobs.2.2
  · rfl
  · exact hsame (h6 hab)
  · exact absurd (h3 hab.symm) (by decide)
  · exact absurd (h5 hab.symm) hblobs.2.1
  · exact (hsame (h6 hab.symm)).symm
  · rfl

end GzipSample

/-- The layer with the file `a`, one gzip member. -/
def oneMember : GzipSample where
  rest := []
  imageId :=
    ⟨"a10ac1db84e6c06bda7db98cd2f956bbc9e05e199925a1a1870d28f30cb6b63e", by decide, by decide⟩
  config := sampleConfig firstDigest

/-- The layer with the files `a` and `b`, as two gzip members. -/
def twoMembers : GzipSample where
  rest := [secondMember]
  imageId := plainSample.imageId
  config := plainSample.config

end ContainerdRs.Images.Concurrent
