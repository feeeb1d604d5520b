import Mathlib.Data.Set.Function
import ContainerdRs.Images.PullSteps

/-!
# Integrity of pulled images

Nothing that the registry sends is trusted: a blob is committed only with the declared size and
digest, and only a layer whose decompression hashes to its diffID is passed.  A commit that finds a
blob of that digest discards what was streamed, so the stored blob is the one that counts; it is
the streamed one unless two of the byte strings of the run have the same sha256.

* `move_ok` — one step of one pull keeps blobs, and establishes for its own task what the task has
  checked by then.
* `pull_integrity` — over every run: what holds of an image when its pull has returned `Ok`.
-/

set_option autoImplicit false

namespace ContainerdRs.Images.Concurrent

open Snapshots Transition

variable {Tree Op : Type}

/-! ## What is promised -/

/-- A blob of the declared size and digest is stored. -/
structure Committed (c : Code Tree Op) (blobs : OrdMap String Bytes) (d : Descriptor)
    (expected : Digest) (blob : Bytes) : Prop where
  stored : blobs.get? expected.hex = some blob
  size : (blob.length : Int) = d.size
  sha256 : c.sha256 blob = expected

/-- `expected` is the digest of the descriptor, its blob is stored, and decompressed by the media
    type it hashes to the diffID. -/
structure Verified (c : Code Tree Op) (blobs : OrdMap String Bytes) (d : Descriptor)
    (diffId expected : Digest) : Prop where
  digest : Digest.parse d.digest = .ok expected
  content : ∃ blob bytes, Committed c blobs d expected blob ∧
    decompress c.decoders blob (.fromMediaType d.mediaType) = .ok ⟨bytes, none⟩ ∧
    c.sha256 bytes = diffId

/-- **The image is what its manifest and config say.** -/
structure Intact (c : Code Tree Op) (blobs : OrdMap String Bytes) (m : Manifest)
    (img : PulledImage) : Prop where
  imageId : img.imageId = c.sha256 m.config
  diffIds_length : img.diffIds.length = m.layers.length
  chainIds_length : img.chainIds.length = m.layers.length
  layerDigests_length : img.layerDigests.length = m.layers.length
  layers : ∀ (i : Nat) d, m.layers[i]? = some d → ∃ expected diffId,
    img.layerDigests[i]? = some expected ∧ img.diffIds[i]? = some diffId ∧
      Verified c blobs d diffId expected
  chainIds : img.chainIds = chainIds c.sha256 img.diffIds

/-- The bytes that a pull hashes for a commit. -/
def hashes : Task Op → Action → Option Bytes
  | .storingConfig m, .probeConfig => some m.config
  | .layer _ _ _ (.streaming written), .commit => some written
  | _, _ => none

/-- The bytes that a step hashes. -/
def hashedBy (s : St Tree Op) : Label → Option Bytes
  | .act t a => s.tasks[t]?.bind (hashes · a)
  | .pull _ | .restart => none

/-! ## The invariant -/

/-- `S` are the byte strings of the run: every blob is one of them, under its digest. -/
def BlobsOk (c : Code Tree Op) (S : Set Bytes) (blobs : OrdMap String Bytes) : Prop :=
  ∀ name b, blobs.get? name = some b → (c.sha256 b).hex = name ∧ b ∈ S

/-- Blobs are added only. -/
def Extends (blobs blobs' : OrdMap String Bytes) : Prop :=
  ∀ name b, blobs.get? name = some b → blobs'.get? name = some b

/-- The layers behind a pull. -/
structure DoneOk (c : Code Tree Op) (blobs : OrdMap String Bytes) (p : Plan)
    (done : List Digest) : Prop where
  length : done.length ≤ p.manifest.layers.length
  layers : ∀ (i : Nat) d diffId chainId expected, (p.turns c)[i]? = some (d, diffId, chainId) →
    done[i]? = some expected → Verified c blobs d diffId expected

/-- What a turn has established at a stage. -/
def StageOk (c : Code Tree Op) (S : Set Bytes) (blobs : OrdMap String Bytes) (l : Layer) :
    Stage Op → Prop
  | .streaming _ => True
  | .moving bytes => c.sha256 bytes = l.expected ∧ (bytes.length : Int) = l.descriptor.size ∧
      bytes ∈ S
  | .checking => ∃ blob, Committed c blobs l.descriptor l.expected blob
  | .looking | .creating | .unpacking _ => Verified c blobs l.descriptor l.diffId l.expected

/-- The turn is the one behind `done`. -/
structure TurnOk (c : Code Tree Op) (p : Plan) (done : List Digest) (l : Layer) : Prop where
  turn : (p.turns c)[done.length]? = some (l.descriptor, l.diffId, l.chainId)
  digest : Digest.parse l.descriptor.digest = .ok l.expected
  size : 0 ≤ l.descriptor.size

/-- What a pull has established by now. -/
def TaskOk (c : Code Tree Op) (S : Set Bytes) (blobs : OrdMap String Bytes) : Task Op → Prop
  | .movingConfig m => m.config ∈ S
  | .layer p done l stage => TurnOk c p done l ∧ DoneOk c blobs p done ∧ StageOk c S blobs l stage
  | .pulled m img => Intact c blobs m img
  | .resolving _ | .storingConfig _ | .failed _ _ => True

variable {c : Code Tree Op} {S : Set Bytes} {blobs blobs' : OrdMap String Bytes}

/-! ## More blobs -/

theorem Extends.refl (blobs : OrdMap String Bytes) : Extends blobs blobs := fun _ _ h => h

theorem Verified.extends {d : Descriptor} {diffId expected : Digest}
    (h : Verified c blobs d diffId expected) (he : Extends blobs blobs') :
    Verified c blobs' d diffId expected := by
  obtain ⟨hdigest, blob, bytes, hcommitted, hrest⟩ := h
  exact ⟨hdigest, blob, bytes,
    ⟨he _ _ hcommitted.stored, hcommitted.size, hcommitted.sha256⟩, hrest⟩

theorem DoneOk.extends {p : Plan} {done : List Digest} (h : DoneOk c blobs p done)
    (he : Extends blobs blobs') : DoneOk c blobs' p done :=
  ⟨h.length, fun i d diffId chainId expected ht hd =>
    (h.layers i d diffId chainId expected ht hd).extends he⟩

theorem StageOk.extends {l : Layer} {stage : Stage Op} (h : StageOk c S blobs l stage)
    (he : Extends blobs blobs') : StageOk c S blobs' l stage := by
  cases stage with
  | streaming written => trivial
  | moving bytes => exact h
  | checking =>
    obtain ⟨blob, hblob⟩ := h
    exact ⟨blob, he _ _ hblob.stored, hblob.size, hblob.sha256⟩
  | looking => exact Verified.extends h he
  | creating => exact Verified.extends h he
  | unpacking todo => exact Verified.extends h he

/-- What a pull has established stays when others commit. -/
theorem TaskOk.extends {task : Task Op} (h : TaskOk c S blobs task) (he : Extends blobs blobs') :
    TaskOk c S blobs' task := by
  cases task with
  | resolving reference => trivial
  | storingConfig m => trivial
  | movingConfig m => exact h
  | failed reference e => trivial
  | layer p done l stage => exact ⟨h.1, h.2.1.extends he, h.2.2.extends he⟩
  | pulled m img =>
    refine { h with layers := ?_ }
    intro i d hd
    obtain ⟨expected, diffId, h1, h2, hv⟩ := h.layers i d hd
    exact ⟨expected, diffId, h1, h2, hv.extends he⟩

/-- A blob that is renamed into the store replaces at most itself: the run has no collision. -/
theorem insert_blobsOk (hS : Set.InjOn c.sha256 S) (hb : BlobsOk c S blobs) {bytes : Bytes}
    (hbytes : bytes ∈ S) :
    BlobsOk c S (blobs.insert (c.sha256 bytes).hex bytes) ∧
      Extends blobs (blobs.insert (c.sha256 bytes).hex bytes) := by
  constructor
  · intro name b hget
    rw [OrdMap.get?_insert] at hget
    split at hget
    · rename_i hname
      cases hget
      exact ⟨hname.symm, hbytes⟩
    · exact hb name b hget
  · intro name b hget
    rw [OrdMap.get?_insert]
    split
    · rename_i hname
      obtain ⟨hhex, hmem⟩ := hb name b hget
      have hsha : c.sha256 b = c.sha256 bytes := Digest.hex_injective (hhex.trans hname)
      rw [hS hmem hbytes hsha]
    · exact hget

/-! ## The turns of a pull -/

theorem turns_get {p : Plan} {i : Nat} {d : Descriptor} {diffId chainId : Digest} :
    (p.turns c)[i]? = some (d, diffId, chainId) ↔
      p.manifest.layers[i]? = some d ∧ p.diffIds[i]? = some diffId ∧
        (chainIds c.sha256 p.diffIds)[i]? = some chainId := by
  simp only [Plan.turns, List.getElem?_zip_eq_some]

theorem turns_length (p : Plan) : (p.turns c).length = p.manifest.layers.length := by
  simp [Plan.turns, chainIds_length, p.count]

/-- Behind the last layer the image is intact. -/
theorem finish_ok {p : Plan} {done : List Digest} (hd : DoneOk c blobs p done)
    (hlen : done.length = p.manifest.layers.length) : TaskOk c S blobs (finish c p done) := by
  unfold finish
  split
  · trivial
  · refine ⟨rfl, p.count, ?_, hlen, ?_, rfl⟩
    · rw [chainIds_length]
      exact p.count
    · intro i d hi
      have hlt : i < p.manifest.layers.length := by
        obtain ⟨h, -⟩ := List.getElem?_eq_some_iff.1 hi
        exact h
      have hchain : i < (chainIds c.sha256 p.diffIds).length := by
        rw [chainIds_length, p.count]
        exact hlt
      have hdiff : i < p.diffIds.length := by
        rw [p.count]
        exact hlt
      have hdone : i < done.length := by
        rw [hlen]
        exact hlt
      refine ⟨_, _, List.getElem?_eq_getElem hdone, List.getElem?_eq_getElem hdiff, ?_⟩
      exact hd.layers i d _ _ _
        (turns_get.2 ⟨hi, List.getElem?_eq_getElem hdiff, List.getElem?_eq_getElem hchain⟩)
        (List.getElem?_eq_getElem hdone)

/-- At the head of the layer loop. -/
theorem nextTurn_ok {p : Plan} {done : List Digest} (hd : DoneOk c blobs p done) :
    TaskOk c S blobs (nextTurn c p done) := by
  unfold nextTurn
  split
  · rename_i hnone
    have hge : p.manifest.layers.length ≤ done.length := by
      rw [← turns_length (c := c) p]
      exact List.getElem?_eq_none_iff.1 hnone
    exact finish_ok hd (Nat.le_antisymm hd.length hge)
  · rename_i d diffId chainId hturn
    split
    · trivial
    · rename_i expected hparse
      split
      · trivial
      · rename_i hsize
        exact ⟨⟨hturn, hparse, Int.not_lt.1 hsize⟩, hd, trivial⟩

/-- A layer that has been checked is behind the pull. -/
theorem doneOk_snoc {p : Plan} {done : List Digest} {l : Layer} (ht : TurnOk c p done l)
    (hd : DoneOk c blobs p done) (hv : Verified c blobs l.descriptor l.diffId l.expected) :
    DoneOk c blobs p (done ++ [l.expected]) := by
  constructor
  · have hlt : done.length < (p.turns c).length := by
      obtain ⟨h, -⟩ := List.getElem?_eq_some_iff.1 ht.turn
      exact h
    rw [turns_length] at hlt
    simpa using hlt
  · intro i d diffId chainId expected hturn hget
    rcases Nat.lt_trichotomy i done.length with hlt | rfl | hgt
    · rw [List.getElem?_append_left hlt] at hget
      exact hd.layers i d diffId chainId expected hturn hget
    · rw [ht.turn] at hturn
      cases hturn
      simp only [List.getElem?_concat_length, Option.some.injEq] at hget
      exact hget ▸ hv
    · rw [List.getElem?_eq_none (by simp; omega)] at hget
      cases hget

theorem readConfig_ok (m : Manifest) : TaskOk c S blobs (readConfig c m) := by
  unfold readConfig
  split
  · trivial
  · split
    · trivial
    · split
      · refine nextTurn_ok ⟨Nat.zero_le _, ?_⟩
        intro i d diffId chainId expected _ hget
        simp at hget
      · trivial

/-! ## One step of one pull -/

/-- A commit passes on only bytes of the declared size and digest; what it finds instead is, without
    a collision, the same. -/
theorem commitLayer_ok {s : Stores Tree} {p : Plan} {done : List Digest} {l : Layer}
    {written : Bytes} (hS : Set.InjOn c.sha256 S) (hb : BlobsOk c S s.blobs)
    (ht : TurnOk c p done l) (hd : DoneOk c s.blobs p done) (hw : written ∈ S) :
    TaskOk c S s.blobs (commitLayer c s p done l written) := by
  unfold commitLayer
  split
  · trivial
  · rename_i hlen
    split
    · trivial
    · rename_i hsha
      have hlen : (written.length : Int) = l.descriptor.size := by
        have := ht.size
        omega
      have hsha : c.sha256 written = l.expected := not_not.1 hsha
      split
      · rename_i hsome
        obtain ⟨blob, hblob⟩ := Option.isSome_iff_exists.1 hsome
        obtain ⟨hhex, hmem⟩ := hb _ _ hblob
        have heq : c.sha256 blob = l.expected := Digest.hex_injective hhex
        have hsame : blob = written := hS hmem hw (heq.trans hsha.symm)
        exact ⟨ht, hd, blob, hblob, hsame ▸ hlen, heq⟩
      · exact ⟨ht, hd, hsha, hlen, hw⟩

theorem checkLayer_ok {s : Stores Tree} {p : Plan} {done : List Digest} {l : Layer}
    (ht : TurnOk c p done l) (hd : DoneOk c s.blobs p done)
    (hblob : ∃ blob, Committed c s.blobs l.descriptor l.expected blob) :
    TaskOk c S s.blobs (checkLayer c s p done l) := by
  obtain ⟨blob, hblob⟩ := hblob
  unfold checkLayer
  rw [hblob.stored]
  simp only [computeDiffId]
  cases hc : computeDiffIdReader c.decoders c.sha256 blob
      (.fromMediaType l.descriptor.mediaType) with
  | error e => trivial
  | ok computed =>
    simp only
    split
    · trivial
    · rename_i heq
      obtain ⟨bytes, hbytes, hsha⟩ := computeDiffIdReader_ok.1 hc
      refine ⟨ht, hd, ht.digest, blob, bytes, hblob, hbytes, ?_⟩
      rw [hsha]
      exact not_not.1 heq

theorem openLayer_ok {s : Stores Tree} {p : Plan} {done : List Digest} {l : Layer}
    (ht : TurnOk c p done l) (hd : DoneOk c s.blobs p done)
    (hv : Verified c s.blobs l.descriptor l.diffId l.expected) :
    TaskOk c S s.blobs (openLayer c s p done l) := by
  unfold openLayer
  split
  · trivial
  · split
    · trivial
    · exact ⟨ht, hd, hv⟩

theorem writeEntry_ok {s : Stores Tree} {p : Plan} {done : List Digest} {l : Layer}
    (ht : TurnOk c p done l) (hd : DoneOk c s.blobs p done)
    (hv : Verified c s.blobs l.descriptor l.diffId l.expected) (todo : List Op) :
    (writeEntry c s p done l todo).1.blobs = s.blobs ∧
      TaskOk c S s.blobs (writeEntry c s p done l todo).2 := by
  cases todo with
  | nil => exact ⟨rfl, nextTurn_ok (doneOk_snoc ht hd hv)⟩
  | cons op todo =>
    refine ⟨rfl, ?_⟩
    simp only [writeEntry]
    cases (c.write op (dirOf c s l.chainId)).2 with
    | none => exact ⟨ht, hd, hv⟩
    | some e => trivial

theorem cut_ok {task : Task Op} (h : TaskOk c S blobs task) : TaskOk c S blobs task.cut := by
  unfold Task.cut
  split
  · trivial
  · exact h

variable [DecidableEq Tree]

/-- The byte strings of a run: what is stored at its start and what its commits hash. -/
def runBytes (c : Code Tree Op) (s : St Tree Op) (ls : List Label) : Set Bytes :=
  {b | (∃ name, s.stores.blobs.get? name = some b) ∨
    ∃ x ∈ steps (step c) s ls, hashedBy x.1 x.2.1 = some b}

theorem lookAtDir_ok {s : Stores Tree} {p : Plan} {done : List Digest} {l : Layer}
    (ht : TurnOk c p done l) (hd : DoneOk c s.blobs p done)
    (hv : Verified c s.blobs l.descriptor l.diffId l.expected) :
    TaskOk c S s.blobs (lookAtDir c s p done l) := by
  unfold lookAtDir
  split
  · exact nextTurn_ok (doneOk_snoc ht hd hv)
  · exact ⟨ht, hd, hv⟩

/-- **One step of one pull**: blobs are added only, each under its digest, and the pull has
    established what it is to have by then. -/
theorem move_ok (hS : Set.InjOn c.sha256 S) {s s' : Stores Tree} {task task' : Task Op}
    {a : Action} (hb : BlobsOk c S s.blobs) (ht : TaskOk c S s.blobs task)
    (hh : ∀ b, hashes task a = some b → b ∈ S) (h : move c s task a = some (s', task')) :
    BlobsOk c S s'.blobs ∧ Extends s.blobs s'.blobs ∧ TaskOk c S s'.blobs task' := by
  cases a with
  | resolve layers manifestDigest config =>
    simp only [move] at h
    split at h <;> cases h
    exact ⟨hb, .refl _, trivial⟩
  | probeConfig =>
    simp only [move] at h
    split at h
    · rename_i m
      split at h <;> cases h
      · exact ⟨hb, .refl _, readConfig_ok m⟩
      · exact ⟨hb, .refl _, hh m.config rfl⟩
    · cases h
  | renameConfig =>
    simp only [move] at h
    split at h <;> cases h
    obtain ⟨hb', he⟩ := insert_blobsOk hS hb ht
    exact ⟨hb', he, readConfig_ok _⟩
  | chunk bytes =>
    simp only [move] at h
    split at h <;> cases h
    exact ⟨hb, .refl _, ht.1, ht.2.1, trivial⟩
  | commit =>
    simp only [move] at h
    split at h <;> cases h
    exact ⟨hb, .refl _, commitLayer_ok hS hb ht.1 ht.2.1 (hh _ rfl)⟩
  | rename =>
    simp only [move] at h
    split at h <;> cases h
    rename_i p done l bytes
    obtain ⟨hturn, hdone, hsha, hsize, hmem⟩ := ht
    obtain ⟨hb', he⟩ := insert_blobsOk hS hb hmem
    rw [hsha] at hb' he
    refine ⟨hb', he, hturn, hdone.extends he, bytes, ?_, hsize, hsha⟩
    simp [OrdMap.get?_insert]
  | check =>
    simp only [move] at h
    split at h <;> cases h
    exact ⟨hb, .refl _, checkLayer_ok ht.1 ht.2.1 ht.2.2⟩
  | readDir =>
    simp only [move] at h
    split at h <;> cases h
    exact ⟨hb, .refl _, lookAtDir_ok ht.1 ht.2.1 ht.2.2⟩
  | createDir =>
    simp only [move] at h
    split at h <;> cases h
    exact ⟨hb, .refl _, openLayer_ok ht.1 ht.2.1 ht.2.2⟩
  | write =>
    simp only [move] at h
    split at h
    · rename_i p done l todo
      obtain ⟨hblobs, htask⟩ := writeEntry_ok (S := S) ht.1 ht.2.1 ht.2.2 todo
      rw [Option.some.inj h] at hblobs htask
      rw [hblobs]
      exact ⟨hb, .refl _, htask⟩
    · cases h
  | fail e =>
    simp only [move] at h
    split at h <;> cases h
    exact ⟨hb, .refl _, trivial⟩

/-! ## Runs -/

/-- The invariant of all pulls together. -/
structure PullsOk (c : Code Tree Op) (S : Set Bytes) (s : St Tree Op) : Prop where
  blobs : BlobsOk c S s.stores.blobs
  tasks : ∀ task ∈ s.tasks, TaskOk c S s.stores.blobs task

theorem step_ok (hS : Set.InjOn c.sha256 S) {s s' : St Tree Op} {l : Label} (hi : PullsOk c S s)
    (hh : ∀ b, hashedBy s l = some b → b ∈ S) (h : step c s l = some s') :
    PullsOk c S s' := by
  obtain ⟨reference, rfl, rfl⟩ | ⟨t, a, task, stores, task', rfl, ht, hm, rfl⟩ | ⟨rfl, rfl⟩ :=
    step_cases h
  · refine ⟨hi.blobs, ?_⟩
    intro task htask
    rcases List.mem_append.1 htask with htask | htask
    · exact hi.tasks task htask
    · rw [List.mem_singleton.1 htask]
      trivial
  · have hbytes : ∀ b, hashes task a = some b → b ∈ S := by
      intro b hb
      apply hh
      simp only [hashedBy, ht, Option.bind_some]
      exact hb
    obtain ⟨hb, he, hnew⟩ :=
      move_ok hS hi.blobs (hi.tasks task (List.mem_of_getElem? ht)) hbytes hm
    refine ⟨hb, ?_⟩
    intro other hother
    rcases List.mem_or_eq_of_mem_set hother with hother | rfl
    · exact (hi.tasks other hother).extends he
    · exact hnew
  · refine ⟨hi.blobs, ?_⟩
    intro task htask
    obtain ⟨old, hold, rfl⟩ := List.mem_map.1 htask
    exact cut_ok (hi.tasks old hold)

/-- A store whose blobs carry the digest they are named by, without a pull. -/
structure Idle (c : Code Tree Op) (s : St Tree Op) : Prop where
  tasks : s.tasks = []
  blobs : ∀ name b, s.stores.blobs.get? name = some b → (c.sha256 b).hex = name

/-- The invariant before and after every step of a run without a collision. -/
theorem steps_pullsOk {s₀ : St Tree Op} {ls : List Label} (h₀ : Idle c s₀)
    (hc : Set.InjOn c.sha256 (runBytes c s₀ ls)) :
    PullsOk c (runBytes c s₀ ls) s₀ ∧
      ∀ x ∈ steps (step c) s₀ ls, PullsOk c (runBytes c s₀ ls) x.2.2 := by
  have hinit : PullsOk c (runBytes c s₀ ls) s₀ := by
    refine ⟨fun name b hb => ⟨h₀.blobs name b hb, .inl ⟨name, hb⟩⟩, ?_⟩
    rw [h₀.tasks]
    simp
  have hstep : ∀ s l s', PullsOk c (runBytes c s₀ ls) s →
      (∀ b, hashedBy s l = some b → b ∈ runBytes c s₀ ls) → step c s l = some s' →
      PullsOk c (runBytes c s₀ ls) s' := fun _ _ _ hi hok h => step_ok hc hi hok h
  refine ⟨hinit, fun x hx => ?_⟩
  exact (steps_invariant hstep ls s₀ hinit (fun y hy b hb => .inr ⟨y, hy, hb⟩) x hx).2

/-- **Integrity of pulls.**  Whatever the registry sends to whichever pulls, in whatever chunks and
    order: in every state, an image whose pull has returned `Ok` is intact. -/
theorem pull_integrity (c : Code Tree Op) {s₀ : St Tree Op} {ls : List Label} (h₀ : Idle c s₀)
    (hc : Set.InjOn c.sha256 (runBytes c s₀ ls)) :
    ∀ x ∈ steps (step c) s₀ ls, ∀ m img, .pulled m img ∈ x.2.2.tasks →
      Intact c x.2.2.stores.blobs m img := by
  intro x hx m img hpulled
  exact ((steps_pullsOk h₀ hc).2 x hx).tasks _ hpulled

/-! ## A pull of one layer -/

/-- A field of a tar header. -/
def tarField (s : String) (n : Nat) : Bytes :=
  s.toList.map (fun ch => UInt8.ofNat ch.toNat) ++ List.replicate (n - s.length) 0

/-- The header of an empty file. -/
def tarHeader (name : Bytes) (checksum : String) : Bytes :=
  name ++ List.replicate (100 - name.length) 0 ++ tarField "0000644" 8 ++ tarField "0000000" 8 ++
    tarField "0000000" 8 ++ tarField "00000000000" 12 ++ tarField "00000000000" 12 ++
    tarField checksum 7 ++ tarField " 0" 102 ++ tarField "ustar" 6 ++ tarField "00" 249

/-- An image with one layer, a tar archive of two empty files that is not compressed. -/
structure Sample where
  blob : Bytes
  digest : Digest
  config : Bytes
  imageId : Digest
  blob_length : blob.length = 1024
  config_length : config.length ≠ 1024
  hex_ne : imageId.hex ≠ digest.hex

/-- The config of an image with one diffID. -/
def sampleConfig (diffId : Digest) : Bytes :=
  ("\x7b\"rootfs\":\x7b\"diff_ids\":[\"" ++ diffId.toString ++ "\"]\x7d\x7d").toList.map
    fun ch => UInt8.ofNat ch.toNat

/-- The sha256 of the archive of `a` and `b`. -/
def plainDigest : Digest :=
  ⟨"116e559de0e1a65b011cdc0542f67ec245085f0cf9261fa04e18da104054ce4d", by decide, by decide⟩

/-- The files `a` and `b`. -/
def plainSample : Sample where
  blob := tarHeader [0x61] "006076" ++ tarHeader [0x62] "006077"
  digest := plainDigest
  config := sampleConfig plainDigest
  imageId :=
    ⟨"9e0c12f0da371552062076f62b2c1e9485e551c45a37f5aeb51a6193cd769802", by decide, by decide⟩
  blob_length := by decide +kernel
  config_length := by decide +kernel
  hex_ne := by decide

namespace Sample

variable (x : Sample)

/-- The code of a pull, on that image: a directory is the list of its files, and the archive writes
    the files 0 and 1. -/
def code : Code (List Nat) Nat where
  sha256 b := if b.length = 1024 then x.digest else x.imageId
  parseConfig _ := .ok ⟨[x.digest.toString], ""⟩
  decoders :=
    { gzip := fun _ => ⟨[], some "invalid gzip header"⟩
      zstd := fun _ => .ok ⟨[], some "Unknown frame descriptor"⟩ }
  tarWrites _ := [0, 1]
  emptyDir := []
  write op tree := (tree ++ [op], none)

def descriptor : Descriptor :=
  ⟨x.digest.toString, 1024, "application/vnd.oci.image.layer.v1.tar"⟩

def manifest (reference : String) : Manifest := ⟨reference, [x.descriptor], "", x.config⟩

def plan (reference : String) : Plan := ⟨x.manifest reference, [x.digest], "", rfl⟩

def layer : Layer := ⟨x.descriptor, x.digest, x.digest, x.digest⟩

def image (reference : String) : PulledImage where
  reference := reference
  imageId := x.imageId
  manifestDigest := none
  size := x.config.length + 1024
  diffIds := [x.digest]
  chainIds := [x.digest]
  layerDigests := [x.digest]
  user := ""

theorem sha256_blob : x.code.sha256 x.blob = x.digest := if_pos x.blob_length

theorem sha256_config : x.code.sha256 x.config = x.imageId := if_neg x.config_length

theorem readConfig_eq (reference : String) :
    readConfig x.code (x.manifest reference) =
      .layer (x.plan reference) [] x.layer (.streaming []) := by
  simp [readConfig, code, manifest, parseDigests, Digest.parse_toString, nextTurn, Plan.turns,
    chainIds, chainIdsFrom, descriptor, plan, layer]

theorem nextTurn_eq (reference : String) :
    nextTurn x.code (x.plan reference) [x.digest] =
      .pulled (x.manifest reference) (x.image reference) := by
  simp [nextTurn, Plan.turns, chainIds, chainIdsFrom, plan, manifest, finish, parseManifestDigest,
    x.sha256_config, image, descriptor]

/-- The stores of the pull: with the config, the blob, the created directory, one file and both. -/
def configStores : Stores (List Nat) := ⟨OrdMap.empty.insert x.imageId.hex x.config, OrdMap.empty⟩

def blobStores : Stores (List Nat) :=
  ⟨x.configStores.blobs.insert x.digest.hex x.blob, OrdMap.empty⟩

def createdStores : Stores (List Nat) :=
  ⟨x.blobStores.blobs, OrdMap.empty.insert x.digest.hex []⟩

def halfStores : Stores (List Nat) :=
  ⟨x.blobStores.blobs, x.createdStores.snapshots.insert x.digest.hex [0]⟩

def fullStores : Stores (List Nat) :=
  ⟨x.blobStores.blobs, x.halfStores.snapshots.insert x.digest.hex [0, 1]⟩

/-- The pull at a stage of its layer. -/
def turn (reference : String) (stage : Stage Nat) : Task Nat :=
  .layer (x.plan reference) [] x.layer stage

theorem blob_stored : x.blobStores.blobs.get? x.digest.hex = some x.blob := by
  simp [blobStores, OrdMap.get?_insert]

theorem config_stored : x.blobStores.blobs.get? x.imageId.hex = some x.config := by
  simp [blobStores, configStores, OrdMap.get?_insert, x.hex_ne]

theorem checkLayer_eq {s : Stores (List Nat)} (reference : String)
    (hs : s.blobs.get? x.digest.hex = some x.blob) :
    checkLayer x.code s (x.plan reference) [] x.layer = x.turn reference .looking := by
  have hnone : Compression.fromMediaType "application/vnd.oci.image.layer.v1.tar" = .none := by
    decide
  have hdiff : computeDiffId x.code x.blob "application/vnd.oci.image.layer.v1.tar" =
      .ok x.digest := by
    simp only [computeDiffId, computeDiffIdReader, hnone, decompress, x.sha256_blob]
  simp [checkLayer, layer, descriptor, hs, hdiff, turn]

theorem commitLayer_new (reference : String) :
    commitLayer x.code x.configStores (x.plan reference) [] x.layer x.blob =
      x.turn reference (.moving x.blob) := by
  simp [commitLayer, layer, descriptor, x.blob_length, x.sha256_blob, configStores,
    OrdMap.get?_insert, x.hex_ne.symm, turn]

theorem commitLayer_found {s : Stores (List Nat)} (reference : String)
    (hs : s.blobs.get? x.digest.hex = some x.blob) :
    commitLayer x.code s (x.plan reference) [] x.layer x.blob = x.turn reference .checking := by
  simp [commitLayer, layer, descriptor, x.blob_length, x.sha256_blob, hs, turn]

theorem openLayer_eq {s : Stores (List Nat)} (reference : String)
    (hs : s.blobs.get? x.digest.hex = some x.blob) :
    openLayer x.code s (x.plan reference) [] x.layer = x.turn reference (.unpacking [0, 1]) := by
  have hnone : Compression.fromMediaType "application/vnd.oci.image.layer.v1.tar" = .none := by
    decide
  simp [openLayer, layer, descriptor, hs, hnone, decompress, code, turn]

theorem dirOf_insert (blobs : OrdMap String Bytes) (dirs : OrdMap String (List Nat))
    (files : List Nat) : dirOf x.code ⟨blobs, dirs.insert x.digest.hex files⟩ x.digest = files := by
  simp [dirOf, OrdMap.get?_insert]

theorem lookAtDir_empty {s : Stores (List Nat)} (reference : String)
    (hs : dirOf x.code s x.digest = []) :
    lookAtDir x.code s (x.plan reference) [] x.layer = x.turn reference .creating := by
  have hdir : dirOf x.code s x.layer.chainId = x.code.emptyDir := hs
  simp [lookAtDir, hdir, turn]

theorem lookAtDir_populated {s : Stores (List Nat)} (reference : String)
    (hs : dirOf x.code s x.digest ≠ []) :
    lookAtDir x.code s (x.plan reference) [] x.layer =
      .pulled (x.manifest reference) (x.image reference) := by
  have hdir : dirOf x.code s x.layer.chainId ≠ x.code.emptyDir := hs
  simp only [lookAtDir, if_pos hdir, List.nil_append]
  exact x.nextTurn_eq reference

/-- Nothing is stored and nothing runs. -/
def idle : St (List Nat) Nat := ⟨⟨OrdMap.empty, OrdMap.empty⟩, []⟩

/-- The registry serves the image. -/
def resolve : Action := .resolve [x.descriptor] "" x.config

/-- One pull, up to its first write. -/
def half (r : String) : List Label :=
  [.pull r, .act 0 x.resolve, .act 0 .probeConfig, .act 0 .renameConfig, .act 0 (.chunk x.blob),
    .act 0 .commit, .act 0 .rename, .act 0 .check, .act 0 .readDir, .act 0 .createDir,
    .act 0 .write]

/-- Its transitions. -/
def halfSteps (r : String) : List (St (List Nat) Nat × Label × St (List Nat) Nat) :=
  [(idle, .pull r, ⟨idle.stores, [.resolving r]⟩),
    (⟨idle.stores, [.resolving r]⟩, .act 0 x.resolve,
      ⟨idle.stores, [.storingConfig (x.manifest r)]⟩),
    (⟨idle.stores, [.storingConfig (x.manifest r)]⟩, .act 0 .probeConfig,
      ⟨idle.stores, [.movingConfig (x.manifest r)]⟩),
    (⟨idle.stores, [.movingConfig (x.manifest r)]⟩, .act 0 .renameConfig,
      ⟨x.configStores, [x.turn r (.streaming [])]⟩),
    (⟨x.configStores, [x.turn r (.streaming [])]⟩, .act 0 (.chunk x.blob),
      ⟨x.configStores, [x.turn r (.streaming x.blob)]⟩),
    (⟨x.configStores, [x.turn r (.streaming x.blob)]⟩, .act 0 .commit,
      ⟨x.configStores, [x.turn r (.moving x.blob)]⟩),
    (⟨x.configStores, [x.turn r (.moving x.blob)]⟩, .act 0 .rename,
      ⟨x.blobStores, [x.turn r .checking]⟩),
    (⟨x.blobStores, [x.turn r .checking]⟩, .act 0 .check, ⟨x.blobStores, [x.turn r .looking]⟩),
    (⟨x.blobStores, [x.turn r .looking]⟩, .act 0 .readDir, ⟨x.blobStores, [x.turn r .creating]⟩),
    (⟨x.blobStores, [x.turn r .creating]⟩, .act 0 .createDir,
      ⟨x.createdStores, [x.turn r (.unpacking [0, 1])]⟩),
    (⟨x.createdStores, [x.turn r (.unpacking [0, 1])]⟩, .act 0 .write,
      ⟨x.halfStores, [x.turn r (.unpacking [1])]⟩)]

theorem trace_half (r : String) :
    Trace (step x.code) idle (x.half r) ⟨x.halfStores, [x.turn r (.unpacking [1])]⟩
      (x.halfSteps r) := by
  have hconfig : move x.code idle.stores (.movingConfig (x.manifest r)) .renameConfig =
      some (x.configStores, x.turn r (.streaming [])) := by
    simp only [move, x.readConfig_eq]
    rw [show (x.manifest r).config = x.config from rfl, x.sha256_config]
    rfl
  have hcommit : move x.code x.configStores (x.turn r (.streaming x.blob)) .commit =
      some (x.configStores, x.turn r (.moving x.blob)) := by
    simp only [move, turn, x.commitLayer_new]
  have hcheck : move x.code x.blobStores (x.turn r .checking) .check =
      some (x.blobStores, x.turn r .looking) := by
    simp only [move, turn, x.checkLayer_eq r x.blob_stored]
  have hread : move x.code x.blobStores (x.turn r .looking) .readDir =
      some (x.blobStores, x.turn r .creating) := by
    simp only [move, turn, x.lookAtDir_empty r (s := x.blobStores) rfl]
  have hcreate : move x.code x.blobStores (x.turn r .creating) .createDir =
      some (x.createdStores, x.turn r (.unpacking [0, 1])) := by
    simp only [move, turn, x.openLayer_eq r x.blob_stored]
    rfl
  have hwrite : move x.code x.createdStores (x.turn r (.unpacking [0, 1])) .write =
      some (x.halfStores, x.turn r (.unpacking [1])) := by
    simp only [move, turn, writeEntry]
    rw [show dirOf x.code x.createdStores x.layer.chainId = [] from x.dirOf_insert _ _ _]
    rfl
  exact .cons rfl (.cons (step_act rfl rfl) (.cons (step_act rfl rfl)
    (.cons (step_act rfl hconfig) (.cons (step_act rfl rfl) (.cons (step_act rfl hcommit)
    (.cons (step_act rfl rfl) (.cons (step_act rfl hcheck) (.cons (step_act rfl hread)
    (.cons (step_act rfl hcreate) (.cons (step_act rfl hwrite) (.nil _)))))))))))

/-- One pull, alone, to its end. -/
def alone (r : String) : List Label := x.half r ++ [.act 0 .write, .act 0 .write]

theorem trace_alone (r : String) :
    Trace (step x.code) idle (x.alone r) ⟨x.fullStores, [.pulled (x.manifest r) (x.image r)]⟩
      (x.halfSteps r ++
        [(⟨x.halfStores, [x.turn r (.unpacking [1])]⟩, .act 0 .write,
            ⟨x.fullStores, [x.turn r (.unpacking [])]⟩),
          (⟨x.fullStores, [x.turn r (.unpacking [])]⟩, .act 0 .write,
            ⟨x.fullStores, [.pulled (x.manifest r) (x.image r)]⟩)]) := by
  have hwrite : move x.code x.halfStores (x.turn r (.unpacking [1])) .write =
      some (x.fullStores, x.turn r (.unpacking [])) := by
    simp only [move, turn, writeEntry]
    rw [show dirOf x.code x.halfStores x.layer.chainId = [0] from x.dirOf_insert _ _ _]
    rfl
  have hlast : move x.code x.fullStores (x.turn r (.unpacking [])) .write =
      some (x.fullStores, .pulled (x.manifest r) (x.image r)) := by
    simp only [move, turn, writeEntry, List.nil_append]
    rw [show x.layer.expected = x.digest from rfl, x.nextTurn_eq]
  exact .append (.cons (step_act rfl hwrite) (.cons (step_act rfl hlast) (.nil _)))
    (x.trace_half r)

theorem idle_idle : Idle x.code idle :=
  ⟨rfl, fun name b hb => by simp [idle] at hb⟩

/-- The first pull hashes the config and the blob. -/
theorem hashedBy_half {r : String} {y : St (List Nat) Nat × Label × St (List Nat) Nat} {b : Bytes}
    (hy : y ∈ x.halfSteps r) (hb : hashedBy y.1 y.2.1 = some b) : b = x.config ∨ b = x.blob := by
  simp only [halfSteps, List.mem_cons, List.not_mem_nil, or_false] at hy
  rcases hy with rfl | rfl | rfl | rfl | rfl | rfl | rfl | rfl | rfl | rfl | rfl
  all_goals first
    | exact .inl (Option.some.inj hb).symm
    | exact .inr (Option.some.inj hb).symm
    | cases hb

/-- The config and the blob have different digests. -/
theorem noCollision {ls : List Label}
    (h : ∀ y ∈ steps (step x.code) idle ls, ∀ b, hashedBy y.1 y.2.1 = some b →
      b = x.config ∨ b = x.blob) : Set.InjOn x.code.sha256 (runBytes x.code idle ls) := by
  have hne : x.imageId ≠ x.digest := fun h => x.hex_ne (congrArg Digest.hex h)
  have hmem : ∀ b ∈ runBytes x.code idle ls, b = x.config ∨ b = x.blob := by
    rintro b (⟨name, hb⟩ | ⟨y, hy, hb⟩)
    · simp [idle] at hb
    · exact h y hy b hb
  intro a ha b hb hab
  rcases hmem a ha with rfl | rfl
  · rcases hmem b hb with rfl | rfl
    · rfl
    · rw [x.sha256_config, x.sha256_blob] at hab
      exact absurd hab hne
  · rcases hmem b hb with rfl | rfl
    · rw [x.sha256_config, x.sha256_blob] at hab
      exact absurd hab.symm hne
    · rfl

theorem noCollision_alone (r : String) :
    Set.InjOn x.code.sha256 (runBytes x.code idle (x.alone r)) := by
  refine x.noCollision fun y hy b hb => ?_
  rw [(x.trace_alone r).steps] at hy
  rcases List.mem_append.1 hy with hy | hy
  · exact x.hashedBy_half hy hb
  · simp only [List.mem_cons, List.not_mem_nil, or_false] at hy
    rcases hy with rfl | rfl
    · cases hb
    · cases hb

/-- The last state of the pull. -/
theorem pulled_mem_steps (r : String) :
    (⟨x.fullStores, [x.turn r (.unpacking [])]⟩, .act 0 .write,
      ⟨x.fullStores, [.pulled (x.manifest r) (x.image r)]⟩) ∈
        steps (step x.code) idle (x.alone r) := by
  rw [(x.trace_alone r).steps]
  exact List.mem_append_right _ (List.mem_of_getElem? (i := 1) rfl)

end Sample

/-- The pull of the image with the files `a` and `b`. -/
theorem plainSample_intact :
    Idle plainSample.code Sample.idle ∧
      Set.InjOn plainSample.code.sha256
        (runBytes plainSample.code Sample.idle (plainSample.alone "files")) ∧
      Intact plainSample.code plainSample.fullStores.blobs (plainSample.manifest "files")
        (plainSample.image "files") := by
  have hidle := plainSample.idle_idle
  have hc := plainSample.noCollision_alone "files"
  refine ⟨hidle, hc, ?_⟩
  exact pull_integrity plainSample.code hidle hc _ (plainSample.pulled_mem_steps "files") _ _
    List.mem_cons_self

end ContainerdRs.Images.Concurrent
