import ContainerdRs.Images.PullIntegrity

/-!
# The extracted layer and the verified layer

A pull verifies the stream that the media type of the manifest leads to.  A container's rootfs is
unpacked from the stored blob, by its first bytes; the media type is not kept.

* `extracts_verified_iff` — for every layer of every pulled image, when both are the same stream.
* `magic_name_extracts_other_stream` — a tar archive whose first file name starts with the magic
  bytes of gzip.
-/

set_option autoImplicit false

namespace ContainerdRs.Images.Concurrent

open Snapshots Transition

variable {Tree Op : Type}

/-- `content.read`. -/
def readBlob (s : Stores Tree) (d : Digest) : Except String Bytes :=
  match s.blobs.get? d.hex with
  | none => .error "not found"
  | some blob => .ok blob

/-- `unpack_rootfs` extracts, for this layer digest, the stream whose sha256 was compared with the
    diffID. -/
def ExtractsVerified (c : Code Tree Op) (s : Stores Tree) (d : Descriptor)
    (diffId expected : Digest) : Prop :=
  ∃ blob bytes, s.blobs.get? expected.hex = some blob ∧
    decompress c.decoders blob (.fromMediaType d.mediaType) = .ok ⟨bytes, none⟩ ∧
    c.sha256 bytes = diffId ∧
    rootfsStream c.decoders (readBlob s) expected.toString = .ok (.ok ⟨bytes, none⟩)

/-- The stream of a stored blob. -/
theorem rootfsStream_stored {D : Decoders} {s : Stores Tree} {d : Digest} {blob : Bytes}
    (h : s.blobs.get? d.hex = some blob) :
    rootfsStream D (readBlob s) d.toString = .ok (decompress D blob (.detect blob)) := by
  have hread : readBlob s d = .ok blob := by
    simp only [readBlob, h]
  simp only [rootfsStream, Digest.parse_toString, hread]

variable [DecidableEq Tree]

/-- **Extracted and verified layer.**  For every layer of an image whose pull has returned `Ok`, in
    every later state: `unpack_rootfs` extracts the verified stream exactly where `detect` and
    `from_media_type` agree on the stored blob. -/
theorem extracts_verified_iff (c : Code Tree Op) (hD : c.decoders.Strict) {s₀ : St Tree Op}
    {ls : List Label} (h₀ : Idle c s₀) (hc : Set.InjOn c.sha256 (runBytes c s₀ ls)) :
    ∀ x ∈ steps (step c) s₀ ls, ∀ m img, .pulled m img ∈ x.2.2.tasks →
      ∀ (i : Nat) d expected diffId blob, m.layers[i]? = some d →
        img.layerDigests[i]? = some expected → img.diffIds[i]? = some diffId →
        x.2.2.stores.blobs.get? expected.hex = some blob →
        (ExtractsVerified c x.2.2.stores d diffId expected ↔
          RulesAgree c.decoders blob d.mediaType) := by
  intro x hx m img hpulled i d expected diffId blob hd hexpected hdiffId hblob
  have hintact : Intact c x.2.2.stores.blobs m img :=
    ((steps_pullsOk h₀ hc).2 x hx).tasks _ hpulled
  obtain ⟨expected', diffId', he, hdiff, hv⟩ := hintact.layers i d hd
  rw [hexpected] at he
  rw [hdiffId] at hdiff
  cases he
  cases hdiff
  obtain ⟨blob', bytes, hcommitted, hbytes, hsha⟩ := hv.content
  have hstored := hcommitted.stored
  rw [hblob] at hstored
  cases hstored
  rw [← sameStream_iff hD hbytes]
  constructor
  · rintro ⟨blob', bytes', hblob', hbytes', -, hstream⟩
    rw [hblob] at hblob'
    cases hblob'
    rw [rootfsStream_stored hblob] at hstream
    rw [Except.ok.inj hstream, hbytes']
  · intro hsame
    refine ⟨blob, bytes, hblob, hbytes, hsha, ?_⟩
    rw [rootfsStream_stored hblob, hsame, hbytes]

/-! ## A file name that looks like gzip -/

namespace Sample

theorem strict (x : Sample) : x.code.decoders.Strict := by
  constructor
  · intro blob _
    simp [code]
  · intro blob _ stream hstream
    simp only [code, Except.ok.injEq] at hstream
    simp [← hstream]

end Sample

/-- The layer with the files `a` and `b` is extracted as it was verified. -/
theorem plainSample_extracts_verified :
    plainSample.code.decoders.Strict ∧
      RulesAgree plainSample.code.decoders plainSample.blob plainSample.descriptor.mediaType ∧
      ExtractsVerified plainSample.code plainSample.fullStores plainSample.descriptor
        plainSample.digest plainSample.digest := by
  have hagree : RulesAgree plainSample.code.decoders plainSample.blob
      plainSample.descriptor.mediaType := .inl (by decide +kernel)
  refine ⟨plainSample.strict, hagree, ?_⟩
  exact (extracts_verified_iff plainSample.code plainSample.strict plainSample.idle_idle
    (plainSample.noCollision_alone "files") _ (plainSample.pulled_mem_steps "files") _ _
    List.mem_cons_self 0 plainSample.descriptor plainSample.digest plainSample.digest
    plainSample.blob rfl rfl rfl plainSample.blob_stored).2 hagree

/-- The sha256 of an archive whose first file name is the magic of gzip. -/
def magicDigest : Digest :=
  ⟨"3e82935365d5b660fccd6514107cfd477952eac3a6e0288bd6d8c611be295932", by decide, by decide⟩

/-- The files `\x1f\x8b` and `b`. -/
def magicSample : Sample where
  blob := tarHeader [0x1f, 0x8b] "006207" ++ tarHeader [0x62] "006077"
  digest := magicDigest
  config := sampleConfig magicDigest
  imageId :=
    ⟨"6506875acfd2207f1f07d243aa89c1d52941a4d62441495e284d1754c100e101", by decide, by decide⟩
  blob_length := by decide +kernel
  config_length := by decide +kernel
  hex_ne := by decide

/-- The pull verifies the archive as it is; `unpack_rootfs` takes it for a gzip file. -/
theorem magic_name_extracts_other_stream :
    ¬ ∀ (c : Code (List Nat) Nat) (s₀ : St (List Nat) Nat) (ls : List Label),
      c.decoders.Strict → Idle c s₀ → Set.InjOn c.sha256 (runBytes c s₀ ls) →
      ∀ x ∈ steps (step c) s₀ ls, ∀ m img, .pulled m img ∈ x.2.2.tasks →
        ∀ (i : Nat) d expected diffId, m.layers[i]? = some d →
          img.layerDigests[i]? = some expected → img.diffIds[i]? = some diffId →
          ExtractsVerified c x.2.2.stores d diffId expected := by
  intro h
  obtain ⟨-, bytes, -, -, -, hstream⟩ :=
    h magicSample.code Sample.idle (magicSample.alone "files") magicSample.strict
      magicSample.idle_idle (magicSample.noCollision_alone "files") _
      (magicSample.pulled_mem_steps "files") _ _ List.mem_cons_self 0 magicSample.descriptor
      magicSample.digest magicSample.digest rfl rfl rfl
  have hdetect : Compression.detect magicSample.blob = .gzip := by decide +kernel
  have hstored : magicSample.fullStores.blobs.get? magicSample.digest.hex = some magicSample.blob :=
    magicSample.blob_stored
  have hgzip := rootfsStream_stored (D := magicSample.code.decoders) hstored
  rw [hdetect] at hgzip
  have hsame := Except.ok.inj (hgzip.symm.trans hstream)
  have herror := congrArg Stream.error (Except.ok.inj hsame)
  cases herror

end ContainerdRs.Images.Concurrent
