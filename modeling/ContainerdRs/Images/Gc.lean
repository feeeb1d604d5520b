import ContainerdRs.Images.Pull
import ContainerdRs.Metadata.Records

/-!
# Reclaiming storage (`crates/images/src/gc.rs`)

After an image record is removed, the blobs and snapshot directories that only it referenced are
deleted.  Deletions succeed (no I/O errors).

* `reclaim_hasDir` — which snapshot directories are left.
-/

set_option autoImplicit false

namespace ContainerdRs.Images

variable {Tree : Type}

/-- `ReclaimReport`. -/
structure ReclaimReport where
  blobsRemoved : Nat
  snapshotsRemoved : Nat
  deriving DecidableEq, Repr

/-- `referenced_blobs`: config and layers. -/
def referencedBlobs (rec : ImageRecord) : List String := rec.imageId :: rec.layerDigests

/-- One turn of the blob loop. -/
def reclaimBlob (liveBlobs : List String) (acc : ReclaimReport × Stores Tree) (blob : String) :
    ReclaimReport × Stores Tree :=
  if blob ∈ liveBlobs then acc
  else
    match Digest.parse blob with
    | .error _ => acc
    | .ok digest =>
      if (acc.2.blobs.get? digest.hex).isSome then
        ({ acc.1 with blobsRemoved := acc.1.blobsRemoved + 1 },
          { acc.2 with blobs := acc.2.blobs.erase digest.hex })
      else acc

/-- One turn of the snapshot loop: `snapshots/<chain>` goes if it is a directory. -/
def reclaimSnapshot (liveChains : List String) (acc : ReclaimReport × Stores Tree)
    (chain : String) : ReclaimReport × Stores Tree :=
  if chain ∈ liveChains then acc
  else if (acc.2.snapshots.get? chain).isSome then
    ({ acc.1 with snapshotsRemoved := acc.1.snapshotsRemoved + 1 },
      { acc.2 with snapshots := acc.2.snapshots.erase chain })
  else acc

/-- `reclaim`. -/
def reclaim (s : Stores Tree) (removed : ImageRecord) (live : List ImageRecord) :
    ReclaimReport × Stores Tree :=
  let liveBlobs := live.flatMap referencedBlobs
  let liveChains := live.flatMap (·.chainIds)
  let acc := (referencedBlobs removed).foldl (reclaimBlob liveBlobs) (⟨0, 0⟩, s)
  removed.chainIds.foldl (reclaimSnapshot liveChains) acc

theorem foldl_reclaimBlob_snapshots (live : List String) : ∀ (bs : List String)
    (acc : ReclaimReport × Stores Tree),
    (bs.foldl (reclaimBlob live) acc).2.snapshots = acc.2.snapshots
  | [], _ => rfl
  | b :: bs, acc => by
    rw [List.foldl_cons, foldl_reclaimBlob_snapshots live bs]
    unfold reclaimBlob
    split
    · rfl
    · split
      · rfl
      · split <;> rfl

theorem reclaimSnapshot_hasDir (live : List String) (acc : ReclaimReport × Stores Tree)
    (chain name : String) :
    HasDir (reclaimSnapshot live acc chain).2 name ↔
      HasDir acc.2 name ∧ ¬ (name = chain ∧ name ∉ live) := by
  unfold reclaimSnapshot
  by_cases hn : name = chain
  · subst hn
    split
    · rename_i hl
      simp [hl]
    · rename_i hl
      split
      · simp [HasDir, OrdMap.get?_erase, hl]
      · rename_i hd
        simp [HasDir, hd, hl]
  · split
    · simp [hn]
    · split
      · simp [HasDir, OrdMap.get?_erase, hn]
      · simp [hn]

theorem foldl_reclaimSnapshot_hasDir (live : List String) (name : String) :
    ∀ (cs : List String) (acc : ReclaimReport × Stores Tree),
      HasDir (cs.foldl (reclaimSnapshot live) acc).2 name ↔
        HasDir acc.2 name ∧ ¬ (name ∈ cs ∧ name ∉ live)
  | [], acc => by simp
  | c :: cs, acc => by
    rw [List.foldl_cons, foldl_reclaimSnapshot_hasDir live name cs, reclaimSnapshot_hasDir]
    simp only [List.mem_cons]
    tauto

/-- The directories left: all but those named like a chainID that only the removed record
    lists. -/
theorem reclaim_hasDir (s : Stores Tree) (removed : ImageRecord) (live : List ImageRecord)
    (name : String) :
    HasDir (reclaim s removed live).2 name ↔
      HasDir s name ∧ ¬ (name ∈ removed.chainIds ∧ name ∉ live.flatMap (·.chainIds)) := by
  unfold reclaim
  dsimp only
  rw [foldl_reclaimSnapshot_hasDir]
  simp only [HasDir, foldl_reclaimBlob_snapshots]

end ContainerdRs.Images
