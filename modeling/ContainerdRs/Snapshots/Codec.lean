import ContainerdRs.Snapshots.Diff

/-!
# Layer compression (`Compression`, `decompress`)

Two rules pick the decompressor of a layer.  A pull goes by the media type of the manifest
(`from_media_type`), for the diffID as for the snapshot; a container's rootfs is unpacked from the
stored blob by its first bytes (`detect`).  A reader is what it delivers: its bytes, and the error
it breaks off with, if any.

* `sameStream_iff` — for a layer whose diffID could be computed, when the two rules lead to the
  same stream.
* `unpackRootfs_cons` — the stream of `detect` is the one `unpack_rootfs` extracts.
-/

set_option autoImplicit false

namespace ContainerdRs.Snapshots

open FileTree

/-- What a reader delivers until its end, or until the error it breaks off with. -/
structure Stream where
  bytes : Bytes
  error : Option String
  deriving DecidableEq, Repr

/-- The decompressors. -/
structure Decoders where
  /-- `flate2::read::GzDecoder`. -/
  gzip : Bytes → Stream
  /-- `zstd::stream::read::Decoder`; `new` can fail. -/
  zstd : Bytes → Except String Stream

/-- `Compression::from_media_type`. -/
def Compression.fromMediaType (mediaType : String) : Compression :=
  if "gzip".toList <:+ mediaType.toList then .gzip
  else if "zstd".toList <:+ mediaType.toList then .zstd
  else .none

/-- `decompress`, read to the end. -/
def decompress (D : Decoders) (blob : Bytes) : Compression → Except String Stream
  | .none => .ok ⟨blob, none⟩
  | .gzip => .ok (D.gzip blob)
  | .zstd => D.zstd blob

/-- `compute_diff_id_reader`: the hash of all that is read, unless reading fails. -/
def computeDiffIdReader (D : Decoders) (sha256 : Bytes → Digest) (blob : Bytes)
    (compression : Compression) : Except String Digest :=
  match decompress D blob compression with
  | .error e => .error e
  | .ok stream =>
    match stream.error with
    | some e => .error e
    | none => .ok (sha256 stream.bytes)

/-- The stream behind a computed diffID. -/
theorem computeDiffIdReader_ok {D : Decoders} {sha256 : Bytes → Digest} {blob : Bytes}
    {compression : Compression} {diffId : Digest} :
    computeDiffIdReader D sha256 blob compression = .ok diffId ↔
      ∃ bytes, decompress D blob compression = .ok ⟨bytes, none⟩ ∧ sha256 bytes = diffId := by
  unfold computeDiffIdReader
  cases hd : decompress D blob compression with
  | error e => simp
  | ok stream =>
    obtain ⟨bytes, error⟩ := stream
    cases error with
    | none => simp
    | some e => simp

/-! ## The two rules -/

/-- What the decompressors do with data of another format. -/
structure Decoders.Strict (D : Decoders) : Prop where
  /-- Without the magic bytes of gzip, `GzDecoder` fails. -/
  gzip : ∀ blob, ¬ [0x1f, 0x8b] <+: blob → (D.gzip blob).error ≠ none
  /-- The magic bytes of gzip start no zstd frame. -/
  zstd : ∀ blob, [0x1f, 0x8b] <+: blob → ∀ stream, D.zstd blob = .ok stream → stream.error ≠ none

/-- A blob that its decompressor delivers unchanged. -/
def FixedPoint (D : Decoders) (blob : Bytes) (compression : Compression) : Prop :=
  decompress D blob compression = .ok ⟨blob, none⟩

/-- The rules pick the same decompressor; or one of them picks none, and what the other one picks
    delivers the blob itself. -/
def RulesAgree (D : Decoders) (blob : Bytes) (mediaType : String) : Prop :=
  Compression.detect blob = .fromMediaType mediaType ∨
    (Compression.fromMediaType mediaType = .none ∧ FixedPoint D blob (.detect blob)) ∨
    (Compression.detect blob = .none ∧ FixedPoint D blob (.fromMediaType mediaType))

theorem detect_gzip {blob : Bytes} : Compression.detect blob = .gzip ↔ [0x1f, 0x8b] <+: blob := by
  unfold Compression.detect
  split
  · rename_i h
    exact iff_of_true rfl h
  · rename_i h
    refine iff_of_false ?_ h
    split
    · simp
    · simp

/-- If the layer passed its check, `detect` leads to the stream that was checked exactly where the
    rules agree. -/
theorem sameStream_iff {D : Decoders} (hD : D.Strict) {blob bytes : Bytes} {mediaType : String}
    (hchecked : decompress D blob (.fromMediaType mediaType) = .ok ⟨bytes, none⟩) :
    decompress D blob (.detect blob) = decompress D blob (.fromMediaType mediaType) ↔
      RulesAgree D blob mediaType := by
  unfold RulesAgree FixedPoint
  constructor
  · intro h
    rw [← h] at hchecked
    -- a decoder of the one format fails on the other, so one of the rules picks none
    cases hd : Compression.detect blob with
    | none =>
      rw [hd] at h
      exact .inr (.inr ⟨rfl, h.symm⟩)
    | gzip =>
      rw [hd] at h
      cases hm : Compression.fromMediaType mediaType with
      | none =>
        rw [hm] at h
        exact .inr (.inl ⟨rfl, h⟩)
      | gzip => exact .inl rfl
      | zstd =>
        rw [hd] at hchecked
        rw [hm, hchecked] at h
        exact absurd rfl (hD.zstd blob (detect_gzip.1 hd) _ h.symm)
    | zstd =>
      rw [hd] at h
      cases hm : Compression.fromMediaType mediaType with
      | none =>
        rw [hm] at h
        exact .inr (.inl ⟨rfl, h⟩)
      | gzip =>
        rw [hd] at hchecked
        rw [hm, hchecked] at h
        have hmagic : ¬ [0x1f, 0x8b] <+: blob := by
          intro hp
          rw [detect_gzip.2 hp] at hd
          cases hd
        have herr := hD.gzip blob hmagic
        rw [← Except.ok.inj h] at herr
        exact absurd rfl herr
      | zstd => exact .inl rfl
  · rintro (h | ⟨hm, h⟩ | ⟨hd, h⟩)
    · rw [h]
    · rw [h, hm]
      rfl
    · rw [h, hd]
      rfl

/-! ## Extraction -/

variable {β : Type}

/-- The entries of the archive behind `decompress`; `tar` is `tar::Archive::entries`. -/
def archiveEntries (D : Decoders) (tar : Stream → Except String (List (Except String (TarEntry β))))
    (compression : Compression) (blob : Bytes) :
    Except String (List (Except String (TarEntry β))) :=
  match decompress D blob compression with
  | .error e => .error e
  | .ok stream => tar stream

/-- The stream that `unpack_rootfs` hands to the archive for a layer. -/
def rootfsStream (D : Decoders) (read : Digest → Except String Bytes) (ld : String) :
    Except UnpackError (Except String Stream) :=
  match Digest.parse ld with
  | .error e => .error (.badDigest ld e)
  | .ok digest =>
    match read digest with
    | .error e => .error (.readLayer ld e)
    | .ok bytes => .ok (decompress D bytes (.detect bytes))

/-- `apply_layer` on a stream. -/
def applyStream (H : Host β) (tar : Stream → Except String (List (Except String (TarEntry β))))
    (target : List (PathPart OsName)) (t : Fs) : Except String Stream → Except String Unit × Fs
  | .error e => (.error e, t)
  | .ok stream =>
    match tar stream with
    | .error e => (.error e, t)
    | .ok es => applyEntries H target es t

/-- `unpack_rootfs` extracts `rootfsStream`, layer after layer. -/
theorem unpackRootfs_cons {H : Host β} {D : Decoders}
    {tar : Stream → Except String (List (Except String (TarEntry β)))}
    (hH : H.entries = archiveEntries D tar) (read : Digest → Except String Bytes)
    (rootfs : List (PathPart OsName)) (ld : String) (lds : List String) (t : Fs) :
    unpackRootfs H read rootfs (ld :: lds) t =
      match rootfsStream D read ld with
      | .error e => (.error e, t)
      | .ok stream =>
        match applyStream H tar rootfs t stream with
        | (.error e, t') => (.error (.unpackLayer ld e), t')
        | (.ok _, t') => unpackRootfs H read rootfs lds t' := by
  have happly : ∀ bytes c, applyLayer H rootfs bytes c t =
      applyStream H tar rootfs t (decompress D bytes c) := by
    intro bytes c
    unfold applyLayer applyStream
    rw [hH]
    unfold archiveEntries
    cases decompress D bytes c with
    | error e => rfl
    | ok stream =>
      cases tar stream with
      | error e => rfl
      | ok es => rfl
  simp only [unpackRootfs, rootfsStream]
  cases Digest.parse ld with
  | error e => rfl
  | ok digest =>
    cases hread : read digest with
    | error e => simp only [hread]
    | ok bytes =>
      cases hr : applyStream H tar rootfs t (decompress D bytes (.detect bytes)) with
      | mk r t' =>
        cases r with
        | error e => simp only [hread, happly, hr]
        | ok u => simp only [hread, happly, hr]

end ContainerdRs.Snapshots
