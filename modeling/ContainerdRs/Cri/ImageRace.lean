import ContainerdRs.Cri.Images

/-!
# Concurrent pulls and removals

`pull_image` and `remove_image` cut into their steps on the stores, any number of them at once.
A pull holds the lock of its own reference only; a removal takes no lock.

* pull — commit the config blob, then for each layer commit the blob, open it for the diffID
  check, open it again to unpack (unless the snapshot is there); read the record of the image
  id, put the merged record.  It may fail at any point.
* remove — find the record, delete it, list the live records, then delete one by one the blobs
  of the removed record that no live record references.

Results:

* `Complete` — every stored record has its config blob and its layer blobs.
* `RaceInv` — and so has everything a pull in flight has committed or read.
* `records_complete` — this holds in every run in which no removal deletes a blob that a stored
  record or a pull in flight relies on.
* `shared_layer_lost` — the run in which one does: the mark set of `reclaim` is stale.
-/

set_option autoImplicit false

namespace ContainerdRs.Cri.Race

open Images Metadata Transition

/-- Where a request stands. -/
inductive Task where
  /-- The lock of the reference is held, nothing is stored yet. -/
  | locked (reference : String)
  /-- The first `i` layers are committed, checked and unpacked. -/
  | layers (reference : String) (img : PulledImage) (i : Nat)
  /-- Layer `i` is committed; the diffID check comes next. -/
  | check (reference : String) (img : PulledImage) (i : Nat)
  /-- Layer `i` is checked; unpacking comes next. -/
  | unpack (reference : String) (img : PulledImage) (i : Nat)
  | putRecord (reference : String) (img : PulledImage) (existing : Option ImageRecord)
  /-- A removal has found the record. -/
  | deleteRecord (rec : ImageRecord)
  | listLive (rec : ImageRecord)
  | reclaim (live : List ImageRecord) (todo : List String)
  | returned
  | failed

/-- Image table, blobs of the content store, requests. -/
structure St where
  images : Table ImageRecord
  blobs : Finset Digest
  tasks : List Task

/-- One step; `ok = false` is an error of the call made in it. -/
inductive Label where
  | pullImage (reference : String)
  | commitConfig (t : Nat) (img : PulledImage)
  | commitLayer (t : Nat)
  | checkLayer (t : Nat) (ok : Bool)
  | unpackLayer (t : Nat) (already ok : Bool)
  | readRecord (t : Nat)
  | putRecord (t : Nat)
  | fail (t : Nat)
  | removeImage (key : String)
  | deleteRecord (t : Nat)
  | listLive (t : Nat)
  | reclaimBlob (t : Nat) (ok : Bool)

/-- The reference whose lock a task holds. -/
def Task.lock : Task → Option String
  | .locked reference => some reference
  | .layers reference _ _ => some reference
  | .check reference _ _ => some reference
  | .unpack reference _ _ => some reference
  | .putRecord reference _ _ => some reference
  | _ => none

/-- The blob a `reclaim` turn is about to delete: listed by no live record, and a digest. -/
def reclaimed (live : List ImageRecord) (blob : String) : Option Digest :=
  if blob ∈ live.flatMap referencedBlobs then none
  else
    match Digest.parse blob with
    | .ok d => some d
    | .error _ => none

/-- Replace task `t`. -/
def St.goto (s : St) (t : Nat) (next : Task) : St := { s with tasks := s.tasks.set t next }

/-- One step of one request. -/
def step (s : St) : Label → Option St
  | .pullImage reference =>
    if reference = "" ∨ s.tasks.any (fun t => t.lock == some reference) then none
    else some { s with tasks := s.tasks ++ [.locked reference] }
  | .commitConfig t img =>
    match s.tasks[t]? with
    | some (.locked reference) =>
      some { (s.goto t (.layers reference img 0)) with blobs := insert img.imageId s.blobs }
    | _ => none
  | .commitLayer t =>
    match s.tasks[t]? with
    | some (.layers reference img i) =>
      match img.layerDigests[i]? with
      | none => none
      | some d => some { (s.goto t (.check reference img i)) with blobs := insert d s.blobs }
    | _ => none
  | .checkLayer t ok =>
    match s.tasks[t]? with
    | some (.check reference img i) =>
      if ok ∧ ∀ d ∈ img.layerDigests[i]?, d ∈ s.blobs then
        some (s.goto t (.unpack reference img i))
      else some (s.goto t .failed)
    | _ => none
  | .unpackLayer t already ok =>
    match s.tasks[t]? with
    | some (.unpack reference img i) =>
      if already ∨ (ok ∧ ∀ d ∈ img.layerDigests[i]?, d ∈ s.blobs) then
        some (s.goto t (.layers reference img (i + 1)))
      else some (s.goto t .failed)
    | _ => none
  | .readRecord t =>
    match s.tasks[t]? with
    | some (.layers reference img i) =>
      if i = img.layerDigests.length then
        some (s.goto t (.putRecord reference img (get s.images ns img.imageId.toString)))
      else none
    | _ => none
  | .putRecord t =>
    match s.tasks[t]? with
    | some (.putRecord reference img existing) =>
      some { (s.goto t .returned) with
        images := put s.images ns img.imageId.toString (pullRecord existing reference img) }
    | _ => none
  | .fail t =>
    match s.tasks[t]? with
    | none => none
    | some .returned => none
    | some _ => some (s.goto t .failed)
  | .removeImage key =>
    match ImageSvc.findImage s.images key with
    | none => some { s with tasks := s.tasks ++ [.returned] }
    | some rec => some { s with tasks := s.tasks ++ [.deleteRecord rec] }
  | .deleteRecord t =>
    match s.tasks[t]? with
    | some (.deleteRecord rec) =>
      some { (s.goto t (.listLive rec)) with images := (delete s.images ns rec.imageId).2 }
    | _ => none
  | .listLive t =>
    match s.tasks[t]? with
    | some (.listLive rec) =>
      some (s.goto t (.reclaim (list s.images ns) (referencedBlobs rec)))
    | _ => none
  | .reclaimBlob t ok =>
    match s.tasks[t]? with
    | some (.reclaim _ []) => some (s.goto t .returned)
    | some (.reclaim live (blob :: todo)) =>
      match reclaimed live blob with
      | none => some (s.goto t (.reclaim live todo))
      | some d =>
        if ok then some { (s.goto t (.reclaim live todo)) with blobs := s.blobs.erase d }
        else some (s.goto t (.reclaim live todo))
    | _ => none

/-! ## The invariant -/

/-- The blob with this digest string is in the content store. -/
def Has (blobs : Finset Digest) (blob : String) : Prop := ∃ d ∈ blobs, d.toString = blob

/-- **Every stored record has its blobs.** -/
def Complete (s : St) : Prop :=
  ∀ id r, get s.images ns id = some r → ∀ b ∈ referencedBlobs r, Has s.blobs b

/-- The blobs an image has committed after `i` layers. -/
def committed (img : PulledImage) (i : Nat) : List String :=
  img.imageId.toString :: (img.layerDigests.take i).map (·.toString)

/-- What a pull in flight relies on: the blobs it has committed, then those of the record it is
    about to store. -/
def Task.holds : Task → List String
  | .layers _ img i => committed img i
  | .check _ img i => committed img (i + 1)
  | .unpack _ img i => committed img (i + 1)
  | .putRecord reference img existing => referencedBlobs (pullRecord existing reference img)
  | _ => []

/-- Stored records and pulls in flight have their blobs. -/
structure RaceInv (s : St) : Prop where
  complete : Complete s
  held : ∀ t ∈ s.tasks, ∀ b ∈ t.holds, Has s.blobs b

/-- The condition on a step, on the state before it: a removal deletes no blob that a stored
    record references or that a pull in flight holds. -/
def ReclaimSafe (s : St) : Label → Prop
  | .reclaimBlob t ok =>
    match s.tasks[t]? with
    | some (.reclaim live (blob :: _)) =>
      ∀ d, reclaimed live blob = some d → ok = true →
        (∀ id r, get s.images ns id = some r → d.toString ∉ referencedBlobs r) ∧
          ∀ p ∈ s.tasks, d.toString ∉ p.holds
    | _ => True
  | _ => True

theorem Has.mono {blobs blobs' : Finset Digest} (h : blobs ⊆ blobs') {b : String}
    (hb : Has blobs b) : Has blobs' b := by
  obtain ⟨d, hd, rfl⟩ := hb
  exact ⟨d, h hd, rfl⟩

theorem Has.erase {blobs : Finset Digest} {b : String} {d : Digest} (hb : Has blobs b)
    (hne : b ≠ d.toString) : Has (blobs.erase d) b := by
  obtain ⟨d', hd', rfl⟩ := hb
  exact ⟨d', Finset.mem_erase.2 ⟨fun h => hne (h ▸ rfl), hd'⟩, rfl⟩

/-- Task `t` moves on and the stores change: what remains is to see that the records, the other
    tasks and the new one have their blobs. -/
theorem RaceInv.set {s : St} (t : Nat) {next : Task} {images : Table ImageRecord}
    {blobs : Finset Digest}
    (hrec : ∀ id r, get images ns id = some r → ∀ b ∈ referencedBlobs r, Has blobs b)
    (hheld : ∀ p ∈ s.tasks, ∀ b ∈ p.holds, Has blobs b)
    (hnext : ∀ b ∈ next.holds, Has blobs b) :
    RaceInv { (s.goto t next) with images := images, blobs := blobs } := by
  refine ⟨hrec, fun p hp b hb => ?_⟩
  rcases List.mem_or_eq_of_mem_set hp with hp | rfl
  · exact hheld p hp b hb
  · exact hnext b hb

/-- A task moves on and the blobs only grow. -/
theorem RaceInv.goto {s : St} (hi : RaceInv s) (t : Nat) {next : Task} {blobs : Finset Digest}
    (hsub : s.blobs ⊆ blobs) (hnext : ∀ b ∈ next.holds, Has blobs b) :
    RaceInv { (s.goto t next) with blobs := blobs } :=
  RaceInv.set t (fun id r hg b hb => (hi.complete id r hg b hb).mono hsub)
    (fun p hp b hb => (hi.held p hp b hb).mono hsub) hnext

/-- A task moves on to one that holds nothing. -/
theorem RaceInv.release {s : St} (hi : RaceInv s) (t : Nat) {next : Task} (h : next.holds = []) :
    RaceInv (s.goto t next) :=
  hi.goto t (Finset.Subset.refl _) (by simp [h])

/-- A new task that holds nothing. -/
theorem RaceInv.push {s : St} (hi : RaceInv s) {task : Task} (h : task.holds = []) :
    RaceInv { s with tasks := s.tasks ++ [task] } := by
  refine ⟨hi.complete, fun p hp b hb => ?_⟩
  rcases List.mem_append.1 hp with hp | hp
  · exact hi.held p hp b hb
  · rw [List.mem_singleton.1 hp, h] at hb
    cases hb

theorem mem_committed_succ {img : PulledImage} {i : Nat} {d : Digest} {b : String}
    (hd : img.layerDigests[i]? = some d) (hb : b ∈ committed img (i + 1)) :
    b ∈ committed img i ∨ b = d.toString := by
  simp only [committed, List.take_add_one, hd, Option.toList_some, List.map_append,
    List.mem_cons, List.mem_append, List.map_cons, List.map_nil, List.not_mem_nil, or_false] at hb ⊢
  tauto

/-- With no record to merge into, the new record references what the pull has committed. -/
theorem referencedBlobs_new (reference : String) (img : PulledImage) :
    referencedBlobs (pullRecord none reference img) = committed img img.layerDigests.length := by
  simp [referencedBlobs, pullRecord, newRecord, committed]

theorem referencedBlobs_existing (reference : String) (img : PulledImage) (r : ImageRecord) :
    referencedBlobs (pullRecord (some r) reference img) = referencedBlobs r := rfl

/-! ## Steps -/

theorem commitLayer_inv {s : St} (hi : RaceInv s) {t i : Nat} {reference : String}
    {img : PulledImage} {d : Digest} (ht : s.tasks[t]? = some (.layers reference img i))
    (hd : img.layerDigests[i]? = some d) :
    RaceInv { (s.goto t (.check reference img i)) with blobs := insert d s.blobs } := by
  refine hi.goto t (Finset.subset_insert _ _) fun b hb => ?_
  rcases mem_committed_succ hd hb with hb | rfl
  · exact (hi.held _ (List.mem_of_getElem? ht) b hb).mono (Finset.subset_insert _ _)
  · exact ⟨d, Finset.mem_insert_self _ _, rfl⟩

/-- The record about to be stored has its blobs: those of the record that was read, else those
    the pull has committed. -/
theorem readRecord_inv {s : St} (hi : RaceInv s) {t : Nat} {reference : String}
    {img : PulledImage}
    (ht : s.tasks[t]? = some (.layers reference img img.layerDigests.length)) :
    RaceInv (s.goto t (.putRecord reference img (get s.images ns img.imageId.toString))) := by
  refine hi.goto t (Finset.Subset.refl _) fun b hb => ?_
  simp only [Task.holds] at hb
  cases hg : get s.images ns img.imageId.toString with
  | none =>
    rw [hg, referencedBlobs_new] at hb
    exact hi.held _ (List.mem_of_getElem? ht) b hb
  | some r =>
    rw [hg, referencedBlobs_existing] at hb
    exact hi.complete _ r hg b hb

theorem putRecord_inv {s : St} (hi : RaceInv s) {t : Nat} {reference : String}
    {img : PulledImage} {existing : Option ImageRecord}
    (ht : s.tasks[t]? = some (.putRecord reference img existing)) :
    RaceInv { (s.goto t .returned) with
      images := put s.images ns img.imageId.toString (pullRecord existing reference img) } := by
  refine RaceInv.set t (fun id r hg => ?_) hi.held (by simp [Task.holds])
  rw [get_put] at hg
  split at hg
  · cases hg
    exact hi.held _ (List.mem_of_getElem? ht)
  · exact hi.complete id r hg

theorem deleteRecord_inv {s : St} (hi : RaceInv s) (t : Nat) (rec : ImageRecord) :
    RaceInv { (s.goto t (.listLive rec)) with images := (delete s.images ns rec.imageId).2 } := by
  refine RaceInv.set t (fun id r hg => ?_) hi.held (by simp [Task.holds])
  exact hi.complete id r (get_of_get_delete hg)

/-- The deletion of a blob that nothing stored or in flight relies on. -/
theorem eraseBlob_inv {s : St} (hi : RaceInv s) (t : Nat) {d : Digest} {next : Task}
    (hnext : next.holds = [])
    (hrec : ∀ id r, get s.images ns id = some r → d.toString ∉ referencedBlobs r)
    (hheld : ∀ p ∈ s.tasks, d.toString ∉ p.holds) :
    RaceInv { (s.goto t next) with blobs := s.blobs.erase d } := by
  refine RaceInv.set t (fun id r hg b hb => ?_) (fun p hp b hb => ?_) (by simp [hnext])
  · exact (hi.complete id r hg b hb).erase fun h => hrec id r hg (h ▸ hb)
  · exact (hi.held p hp b hb).erase fun h => hheld p hp (h ▸ hb)

/-- **One step** that meets the condition keeps the invariant. -/
theorem raceInv_step {s s' : St} {l : Label} (hi : RaceInv s) (hsafe : ReclaimSafe s l)
    (h : step s l = some s') : RaceInv s' := by
  cases l with
  | pullImage reference =>
    simp only [step] at h
    split at h
    · cases h
    · cases h
      exact hi.push rfl
  | removeImage key =>
    simp only [step] at h
    split at h <;> cases h <;> exact hi.push rfl
  | commitConfig t img =>
    simp only [step] at h
    split at h
    · cases h
      refine hi.goto t (Finset.subset_insert _ _) fun b hb => ?_
      simp only [Task.holds, committed, List.take_zero, List.map_nil, List.mem_singleton] at hb
      exact ⟨img.imageId, Finset.mem_insert_self _ _, hb.symm⟩
    · cases h
  | commitLayer t =>
    simp only [step] at h
    split at h
    · rename_i reference img i ht
      split at h
      · cases h
      · rename_i d hd
        cases h
        exact commitLayer_inv hi ht hd
    · cases h
  | checkLayer t ok | unpackLayer t already ok =>
    -- the task holds the same blobs before and after
    simp only [step] at h
    split at h
    · rename_i reference img i ht
      have hheld := hi.held _ (List.mem_of_getElem? ht)
      split at h
      · cases h
        exact hi.goto t (Finset.Subset.refl _) hheld
      · cases h
        exact hi.release t rfl
    · cases h
  | readRecord t =>
    simp only [step] at h
    split at h
    · rename_i reference img i ht
      split at h
      · rename_i hlen
        cases h
        exact readRecord_inv hi (hlen ▸ ht)
      · cases h
    · cases h
  | putRecord t =>
    simp only [step] at h
    split at h
    · rename_i reference img existing ht
      cases h
      exact putRecord_inv hi ht
    · cases h
  | fail t =>
    simp only [step] at h
    split at h
    · cases h
    · cases h
    · cases h
      exact hi.release t rfl
  | deleteRecord t =>
    simp only [step] at h
    split at h
    · rename_i rec ht
      cases h
      exact deleteRecord_inv hi t rec
    · cases h
  | listLive t =>
    simp only [step] at h
    split at h
    · cases h
      exact hi.release t rfl
    · cases h
  | reclaimBlob t ok =>
    simp only [step] at h
    split at h
    · cases h
      exact hi.release t rfl
    · rename_i live blob todo ht
      split at h
      · cases h
        exact hi.release t rfl
      · rename_i d hd
        split at h
        · rename_i hok
          cases h
          simp only [ReclaimSafe, ht] at hsafe
          obtain ⟨hrec, hheld⟩ := hsafe d hd hok
          exact eraseBlob_inv hi t rfl hrec hheld
        · cases h
          exact hi.release t rfl
    · cases h

/-- **Concurrent pulls and removals.**  In every run from an empty image table whose steps all
    meet `ReclaimSafe`, every stored record has its config blob and its layer blobs. -/
theorem records_complete {s₀ s : St} (himages : s₀.images = OrdMap.empty) (htasks : s₀.tasks = [])
    {ls : List Label} (hsafe : ∀ x ∈ steps step s₀ ls, ReclaimSafe x.1 x.2.1)
    (hrun : run step s₀ ls = some s) : Complete s := by
  have hinv : RaceInv s₀ := by
    refine ⟨fun id r hg => ?_, fun t ht => ?_⟩
    · rw [himages] at hg
      simp at hg
    · rw [htasks] at ht
      cases ht
  exact (run_invariant (fun _ _ _ hi hs h => raceInv_step hi hs h) ls s₀ s hinv hsafe hrun).complete

/-- The layer two images share: the empty one. -/
def sharedLayer : Digest := emptyLayerDigest

/-- An image with that layer. -/
def sharedImage (imageId : Digest) : PulledImage :=
  ⟨"", imageId, none, 0, [sharedLayer], [sharedLayer], [sharedLayer], ""⟩

/-- Image ids of two such images, that differ in their user. -/
def rootImage : PulledImage := sharedImage oneLayerDigest

def userImage : PulledImage := sharedImage
  ⟨"85aa5f75a89cdb9345c4f16638a4dbaa9689c3873b9b4d0b98f8501acbd933fa", by decide, by decide⟩

/-- The steps of a whole pull of a one-layer image by task `t`, up to the last unpacking. -/
def pullLabels (t : Nat) (img : PulledImage) : List Label :=
  [.commitConfig t img, .commitLayer t, .checkLayer t true, .unpackLayer t false true]

/-- An empty node. -/
def emptyNode : St := ⟨OrdMap.empty, ∅, []⟩

/-- `a` is pulled, then removed; between the listing and the deletions of the removal, the pull
    of `b` finds the shared layer and keeps it. -/
def staleReclaim : List Label :=
  [Label.pullImage "a"] ++ pullLabels 0 rootImage ++ [Label.readRecord 0, Label.putRecord 0,
    Label.removeImage "a", Label.deleteRecord 1, Label.listLive 1, Label.pullImage "b"] ++
    pullLabels 2 userImage ++ [Label.reclaimBlob 1 true, Label.reclaimBlob 1 true,
    Label.readRecord 2, Label.putRecord 2]

/-- A single pull. -/
theorem single_pull_complete :
    ∃ s, run step emptyNode ([Label.pullImage "a"] ++ pullLabels 0 rootImage ++
        [Label.readRecord 0, Label.putRecord 0]) = some s ∧ Complete s := by
  have hrun : (run step emptyNode ([Label.pullImage "a"] ++ pullLabels 0 rootImage ++
      [Label.readRecord 0, Label.putRecord 0])).isSome = true := by
    decide +kernel
  obtain ⟨s, hs⟩ := Option.isSome_iff_exists.1 hrun
  refine ⟨s, hs, records_complete rfl rfl ?_ hs⟩
  intro x hx
  have hl := label_mem_of_mem_steps _ _ x hx
  simp only [pullLabels, List.cons_append, List.nil_append, List.mem_cons, List.not_mem_nil,
    or_false] at hl
  rcases hl with hl | hl | hl | hl | hl | hl | hl <;> rw [hl] <;> trivial

/-- After `staleReclaim` the record of `b` is stored and its layer is gone. -/
theorem shared_layer_lost :
    ¬ ∀ (s₀ s : St) (ls : List Label), s₀.images = OrdMap.empty → s₀.tasks = [] →
      run step s₀ ls = some s → Complete s := by
  intro h
  have hrun : (run step emptyNode staleReclaim).map (fun s =>
      ((get s.images ns userImage.imageId.toString).map (·.layerDigests), s.blobs)) =
        some (some [sharedLayer.toString], {userImage.imageId}) := by
    decide +kernel
  obtain ⟨s, hs, hmap⟩ := Option.map_eq_some_iff.1 hrun
  simp only [Prod.mk.injEq] at hmap
  obtain ⟨r, hr, hlayers⟩ := Option.map_eq_some_iff.1 hmap.1
  obtain ⟨d, hd, hds⟩ := h emptyNode s staleReclaim rfl rfl hs _ r hr sharedLayer.toString
    (by simp [referencedBlobs, hlayers])
  rw [hmap.2, Finset.mem_singleton] at hd
  rw [hd] at hds
  exact absurd hds (by decide)

end ContainerdRs.Cri.Race
