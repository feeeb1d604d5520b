import ContainerdRs.Images.SnapshotInvariant

/-!
# Complete snapshots

The steps of a pull, one after another, keep the invariant of the snapshot directories, and a pull
that returns `Ok` has complete snapshots.

* `snapshots_complete` — over every run whose steps are safe.
* `shared_layer_incomplete` — two references with a layer in common.
-/

set_option autoImplicit false

namespace ContainerdRs.Images.Concurrent

open Snapshots Transition

variable {Tree Op : Type} {c : Code Tree Op} {content : Digest → Bytes}

/-! ## One step of one pull -/

section moves

variable {s : St Tree Op} {t : Nat} {stores : Stores Tree} {p : Plan} {done : List Digest}
  {l : Layer}

theorem readConfig_snap (hi : SnapInv c content s) {old : Task Op} {m : Manifest}
    (ht : s.tasks[t]? = some old) (hold : ∀ chainId, ¬ old.Fills chainId)
    (hblobs : Extends s.stores.blobs stores.blobs)
    (hsnapshots : stores.snapshots = s.stores.snapshots) :
    SnapInv c content ⟨stores, s.tasks.set t (readConfig c m)⟩ ∧
      ∀ m' img, readConfig c m = .pulled m' img → Complete c stores m' img := by
  rcases readConfig_cases c m with ⟨p, -, h⟩ | ⟨e, h⟩
  · have hd : DoneContent c content stores.blobs p [] := by
      intro j d diffId chainId expected _ hdone
      simp at hdone
    rw [h]
    constructor
    · refine hi.quiet ht hblobs hsnapshots (nextTurn_contentOk hd) hold nextTurn_not_fills ?_
      intro chainId hp
      obtain ⟨j, d, diffId, hj, -⟩ := nextTurn_passed hp
      exact absurd hj (Nat.not_lt_zero j)
    · intro m' img hpulled
      refine nextTurn_complete hd ?_ hpulled
      intro j d diffId chainId hj
      exact absurd hj (Nat.not_lt_zero j)
  · rw [h]
    constructor
    · exact hi.quiet ht hblobs hsnapshots trivial hold (fun _ => id) (fun _ => False.elim)
    · intro m' img hpulled
      cases hpulled

theorem commit_snap (hi : SnapInv c content s) {written : Bytes}
    (ht : s.tasks[t]? = some (.layer p done l (.streaming written))) :
    SnapInv c content ⟨s.stores, s.tasks.set t (commitLayer c s.stores p done l written)⟩ ∧
      ∀ m img, commitLayer c s.stores p done l written ≠ .pulled m img := by
  have hd := (hi.checked _ (List.mem_of_getElem? ht)).1
  have hfailed : ∀ e,
      SnapInv c content ⟨s.stores, s.tasks.set t (.failed p.manifest.reference e)⟩ :=
    fun e => hi.quiet ht (.refl _) rfl trivial (fun _ => id) (fun _ => id) (fun _ => False.elim)
  unfold commitLayer
  split
  · exact ⟨hfailed _, by simp⟩
  · split
    · exact ⟨hfailed _, by simp⟩
    · split
      · exact ⟨hi.quiet ht (.refl _) rfl ⟨hd, False.elim⟩ (fun _ => id) (fun _ => id) (fun _ => id),
          by simp⟩
      · exact ⟨hi.quiet ht (.refl _) rfl ⟨hd, False.elim⟩ (fun _ => id) (fun _ => id) (fun _ => id),
          by simp⟩

theorem check_snap (hi : SnapInv c content s)
    (ht : s.tasks[t]? = some (.layer p done l .checking))
    (hsafe : Safe c content s (.act t .check)) :
    SnapInv c content ⟨s.stores, s.tasks.set t (checkLayer c s.stores p done l)⟩ ∧
      ∀ m img, checkLayer c s.stores p done l ≠ .pulled m img := by
  have hd := (hi.checked _ (List.mem_of_getElem? ht)).1
  have hfailed : ∀ e,
      SnapInv c content ⟨s.stores, s.tasks.set t (.failed p.manifest.reference e)⟩ :=
    fun e => hi.quiet ht (.refl _) rfl trivial (fun _ => id) (fun _ => id) (fun _ => False.elim)
  unfold checkLayer
  cases hblob : s.stores.blobs.get? l.expected.hex with
  | none => exact ⟨hfailed _, by simp⟩
  | some blob =>
    simp only [computeDiffId]
    cases hc : computeDiffIdReader c.decoders c.sha256 blob
        (.fromMediaType l.descriptor.mediaType) with
    | error e => exact ⟨hfailed _, by simp⟩
    | ok computed =>
      simp only
      split
      · exact ⟨hfailed _, by simp⟩
      · rename_i hdiff
        obtain ⟨bytes, hbytes, hsha⟩ := computeDiffIdReader_ok.1 hc
        have hcontent := hsafe p done l ht blob bytes hblob hbytes (hsha.trans (not_not.1 hdiff))
        rw [hcontent] at hbytes
        exact ⟨hi.quiet ht (.refl _) rfl ⟨hd, fun _ => ⟨blob, hblob, hbytes⟩⟩ (fun _ => id)
          (fun _ => id) (fun _ => id), by simp⟩

/-- Behind a layer: what was passed before, and the layer itself. -/
theorem passed_snoc {chainId : Digest} (hturn : (p.turns c)[done.length]? =
      some (l.descriptor, l.diffId, l.chainId)) {j : Nat} {d : Descriptor} {diffId : Digest}
    (hj : j < (done ++ [l.expected]).length)
    (hget : (p.turns c)[j]? = some (d, diffId, chainId)) :
    j < done.length ∨ l.chainId = chainId := by
  rw [List.length_append, List.length_singleton] at hj
  rcases Nat.lt_or_eq_of_le (Nat.lt_succ_iff.1 hj) with h | h
  · exact .inl h
  · rw [h, hturn] at hget
    cases hget
    exact .inr rfl

theorem doneContent_snoc {blobs : OrdMap String Bytes}
    (hturn : (p.turns c)[done.length]? = some (l.descriptor, l.diffId, l.chainId))
    (hd : DoneContent c content blobs p done)
    (hl : LayerContent c content blobs l.descriptor l.expected l.chainId) :
    DoneContent c content blobs p (done ++ [l.expected]) := by
  intro j d diffId chainId expected hget hdone
  rcases Nat.lt_trichotomy j done.length with hlt | rfl | hgt
  · rw [List.getElem?_append_left hlt] at hdone
    exact hd j d diffId chainId expected hget hdone
  · rw [hturn] at hget
    cases hget
    simp only [List.getElem?_concat_length, Option.some.injEq] at hdone
    exact hdone ▸ hl
  · rw [List.getElem?_eq_none (by simp; omega)] at hdone
    cases hdone

/-- A pull passes its layer, whose directory is complete and is not being filled by another. -/
theorem pass_snap (hi : SnapInv c content s) {stage : Stage Op}
    (ht : s.tasks[t]? = some (.layer p done l stage)) (hs : stage.Checked)
    (hturn : (p.turns c)[done.length]? = some (l.descriptor, l.diffId, l.chainId))
    (hdelivered : Delivered c content s.stores l.chainId)
    (hothers : ∀ u task, s.tasks[u]? = some task → u ≠ t → ¬ task.Fills l.chainId) :
    SnapInv c content ⟨s.stores, s.tasks.set t (nextTurn c p (done ++ [l.expected]))⟩ ∧
      ∀ m img, nextTurn c p (done ++ [l.expected]) = .pulled m img → Complete c s.stores m img := by
  have hmem := List.mem_of_getElem? ht
  obtain ⟨hd, hl⟩ := hi.checked _ hmem
  have hd' := doneContent_snoc hturn hd (hl hs)
  have hbehind : ∀ (j : Nat) d diffId chainId, j < (done ++ [l.expected]).length →
      (p.turns c)[j]? = some (d, diffId, chainId) →
      (Task.layer p done l stage).Passed c chainId ∨ l.chainId = chainId := by
    intro j d diffId chainId hj hget
    rcases passed_snoc hturn hj hget with h | h
    · exact .inl ⟨j, d, diffId, h, hget⟩
    · exact .inr h
  constructor
  · refine hi.set ht (.refl _) (fun _ _ => rfl) (nextTurn_contentOk hd') ?_
      (fillOk_of_not_fills nextTurn_not_fills) ?_ ?_
    · intro chainId h
      exact absurd h (nextTurn_not_fills chainId)
    · intro chainId hfills _
      have heq : l.chainId = chainId := by
        cases stage with
        | creating => exact hfills
        | unpacking todo => exact hfills
        | streaming written => exact hfills.elim
        | moving bytes => exact hfills.elim
        | checking => exact hfills.elim
        | looking => exact hfills.elim
      obtain ⟨tree, htree, hfull⟩ := hdelivered
      rw [← heq]
      refine .inr ?_
      rw [dirOf, htree]
      exact hfull
    · intro chainId hp
      obtain ⟨j, d, diffId, hj, hget⟩ := nextTurn_passed hp
      rcases hbehind j d diffId chainId hj hget with h | rfl
      · exact .inl h
      · exact .inr ⟨hdelivered, nextTurn_not_fills _, hothers⟩
  · intro m img hpulled
    refine nextTurn_complete hd' ?_ hpulled
    intro j d diffId chainId hj hget
    rcases hbehind j d diffId chainId hj hget with h | rfl
    · exact (hi.passed _ hmem chainId h).1
    · exact hdelivered

/-- A directory with entries is there. -/
theorem get?_of_dirOf {stores : Stores Tree} {chainId : Digest}
    (h : dirOf c stores chainId ≠ c.emptyDir) :
    stores.snapshots.get? chainId.hex = some (dirOf c stores chainId) := by
  unfold dirOf at h ⊢
  cases hget : stores.snapshots.get? chainId.hex with
  | none =>
    rw [hget] at h
    exact absurd rfl h
  | some tree => rfl

theorem readDir_snap [DecidableEq Tree] (hi : SnapInv c content s)
    (ht : s.tasks[t]? = some (.layer p done l .looking))
    (hturn : (p.turns c)[done.length]? = some (l.descriptor, l.diffId, l.chainId))
    (hsafe : Safe c content s (.act t .readDir)) :
    SnapInv c content ⟨s.stores, s.tasks.set t (lookAtDir c s.stores p done l)⟩ ∧
      ∀ m img, lookAtDir c s.stores p done l = .pulled m img → Complete c s.stores m img := by
  obtain ⟨hnone, hunpassed⟩ := hsafe p done l ht
  unfold lookAtDir
  split
  · rename_i hpopulated
    refine pass_snap hi ht trivial hturn ?_ ?_
    · rcases hi.settled l.chainId hnone with h | h
      · exact absurd h hpopulated
      · exact ⟨_, get?_of_dirOf hpopulated, h⟩
    · intro u task hu _
      exact hnone task (List.mem_of_getElem? hu)
  · rename_i hempty
    have hempty : dirOf c s.stores l.chainId = c.emptyDir := not_not.1 hempty
    obtain ⟨hd, hl⟩ := hi.checked _ (List.mem_of_getElem? ht)
    constructor
    · refine hi.set ht (.refl _) (fun _ _ => rfl) ⟨hd, hl⟩ ?_ hempty ?_ (fun _ => .inl)
      · rintro chainId rfl
        exact .inr ⟨hnone, hunpassed hempty⟩
      · intro chainId h
        exact h.elim
    · intro m img hpulled
      cases hpulled

theorem createDir_snap (hi : SnapInv c content s)
    (ht : s.tasks[t]? = some (.layer p done l .creating)) :
    SnapInv c content ⟨createDir c s.stores l.chainId,
        s.tasks.set t (openLayer c s.stores p done l)⟩ ∧
      ∀ m img, openLayer c s.stores p done l ≠ .pulled m img := by
  have hmem := List.mem_of_getElem? ht
  obtain ⟨hd, hl⟩ := hi.checked _ hmem
  have hempty : dirOf c s.stores l.chainId = c.emptyDir := hi.filling _ hmem
  obtain ⟨blob, hblob, hbytes⟩ := hl trivial
  have hopen : openLayer c s.stores p done l =
      .layer p done l (.unpacking (c.tarWrites ⟨content l.chainId, none⟩)) := by
    simp only [openLayer, hblob, hbytes]
  rw [hopen]
  constructor
  · refine hi.set ht (.refl _) ?_ ⟨hd, hl⟩ (fun _ => .inl) ?_ ?_ (fun _ => .inl)
    · intro chainId hne
      have hhex : chainId.hex ≠ l.chainId.hex := by
        intro h
        exact hne (Digest.hex_injective h).symm
      simp only [createDir, OrdMap.get?_insert, if_neg hhex]
    · refine ⟨c.emptyDir, [], ?_, rfl, rfl⟩
      simp [createDir, OrdMap.get?_insert, hempty]
    · intro chainId h hn
      exact absurd h hn
  · intro m img hpulled
    cases hpulled

/-- Writes in two parts. -/
theorem applyWrites_append {past : List Op} {tree tree' : Tree}
    (h : applyWrites c past tree = (tree', none)) (todo : List Op) :
    applyWrites c (past ++ todo) tree = applyWrites c todo tree' := by
  induction past generalizing tree with
  | nil =>
    cases h
    rfl
  | cons op past ih =>
    rw [applyWrites] at h
    rw [List.cons_append, applyWrites]
    cases hw : c.write op tree with
    | mk tree₁ e =>
      rw [hw] at h
      cases e with
      | none => exact ih h
      | some e => cases h

theorem write_snap (hi : SnapInv c content s) {todo : List Op}
    (ht : s.tasks[t]? = some (.layer p done l (.unpacking todo)))
    (hturn : (p.turns c)[done.length]? = some (l.descriptor, l.diffId, l.chainId))
    (hsafe : Safe c content s (.act t .write)) :
    SnapInv c content ⟨(writeEntry c s.stores p done l todo).1,
        s.tasks.set t (writeEntry c s.stores p done l todo).2⟩ ∧
      ∀ m img, (writeEntry c s.stores p done l todo).2 = .pulled m img →
        Complete c (writeEntry c s.stores p done l todo).1 m img := by
  have hmem := List.mem_of_getElem? ht
  obtain ⟨tree, past, htree, hwrites, hpast⟩ := hi.filling _ hmem
  have hdir : dirOf c s.stores l.chainId = tree := by
    rw [dirOf, htree]
    rfl
  cases todo with
  | nil =>
    -- all is written: the directory is complete
    rw [List.append_nil] at hwrites
    refine pass_snap hi ht trivial hturn ⟨tree, htree, ?_⟩ ?_
    · rw [fullSnapshot, hwrites]
      exact hpast
    · intro u task hu hut hfills
      exact hut (hi.alone u t task _ l.chainId hu ht hfills rfl)
  | cons op todo =>
    obtain ⟨hd, hl⟩ := hi.checked _ hmem
    have hframe : ∀ tree' chainId, ¬ (Task.layer p done l (.unpacking (op :: todo))).Fills chainId →
        (s.stores.snapshots.insert l.chainId.hex tree').get? chainId.hex =
          s.stores.snapshots.get? chainId.hex := by
      intro tree' chainId hne
      have hhex : chainId.hex ≠ l.chainId.hex := by
        intro h
        exact hne (Digest.hex_injective h).symm
      rw [OrdMap.get?_insert, if_neg hhex]
    have hfail := hsafe p done l op todo ht
    rw [hdir] at hfail
    simp only [writeEntry, hdir]
    cases hw : c.write op tree with
    | mk tree' e =>
      rw [hw] at hfail
      cases e with
      | none =>
        constructor
        · refine hi.set ht (.refl _) (hframe tree') ⟨hd, hl⟩ (fun _ => .inl) ?_ ?_
            (fun _ => .inl)
          · refine ⟨tree', past ++ [op], ?_, ?_, ?_⟩
            · simp [OrdMap.get?_insert]
            · rw [hwrites, List.append_assoc]
              rfl
            · rw [applyWrites_append hpast, applyWrites, hw]
              rfl
          · intro chainId h hn
            exact absurd h hn
        · intro m img hpulled
          cases hpulled
      | some e =>
        have hempty : tree' = c.emptyDir := hfail (by simp)
        constructor
        · refine hi.set ht (.refl _) (hframe tree') trivial (fun _ => False.elim) trivial ?_
            (fun _ => False.elim)
          rintro chainId rfl _
          refine .inl ?_
          simp [dirOf, OrdMap.get?_insert, hempty]
        · intro m img hpulled
          cases hpulled

/-- A pull that ends early leaves its directory empty or complete, if it is whole. -/
theorem settled_of_whole (hi : SnapInv c content s) {task : Task Op} (hmem : task ∈ s.tasks)
    (hw : task.Whole c s.stores) {chainId : Digest} (hf : task.Fills chainId) :
    Settled c content s.stores chainId := by
  have hfill := hi.filling task hmem
  cases task with
  | layer p done l stage =>
    cases stage with
    | creating =>
      have heq : l.chainId = chainId := hf
      rw [← heq]
      exact .inl hfill
    | unpacking todo =>
      have heq : l.chainId = chainId := hf
      rw [← heq]
      rcases hw with rfl | hempty
      · obtain ⟨tree, past, htree, hwrites, hpast⟩ := hfill
        rw [List.append_nil] at hwrites
        refine .inr ?_
        rw [dirOf, htree, fullSnapshot, hwrites]
        exact hpast
      · exact .inl hempty
    | streaming written => exact hf.elim
    | moving bytes => exact hf.elim
    | checking => exact hf.elim
    | looking => exact hf.elim
  | resolving reference => exact hf.elim
  | storingConfig m => exact hf.elim
  | movingConfig m => exact hf.elim
  | pulled m img => exact hf.elim
  | failed reference e => exact hf.elim

end moves

/-! ## Restarts and new pulls -/

theorem cut_idle (task : Task Op) (chainId : Digest) :
    ¬ task.cut.Fills chainId ∧ ¬ task.cut.Passed c chainId := by
  cases task with
  | layer p done l stage => exact ⟨id, id⟩
  | resolving reference => exact ⟨id, id⟩
  | storingConfig m => exact ⟨id, id⟩
  | movingConfig m => exact ⟨id, id⟩
  | pulled m img => exact ⟨id, id⟩
  | failed reference e => exact ⟨id, id⟩

theorem cut_contentOk {blobs : OrdMap String Bytes} (task : Task Op) :
    ContentOk c content blobs task.cut := by
  cases task <;> trivial

theorem restart_snap {s : St Tree Op} (hi : SnapInv c content s)
    (hsafe : Safe c content s .restart) :
    SnapInv c content { s with tasks := s.tasks.map Task.cut } := by
  have hcut : ∀ task ∈ s.tasks.map Task.cut, ∀ chainId,
      ¬ task.Fills chainId ∧ ¬ task.Passed c chainId := by
    intro task htask chainId
    obtain ⟨old, -, rfl⟩ := List.mem_map.1 htask
    exact cut_idle old chainId
  constructor
  · intro task htask
    obtain ⟨old, -, rfl⟩ := List.mem_map.1 htask
    exact cut_contentOk old
  · intro chainId _
    by_cases hf : ∃ task ∈ s.tasks, task.Fills chainId
    · obtain ⟨task, htask, hf⟩ := hf
      exact settled_of_whole hi htask (hsafe task htask) hf
    · exact hi.settled chainId fun task htask h => hf ⟨task, htask, h⟩
  · intro task htask
    exact fillOk_of_not_fills fun chainId => (hcut task htask chainId).1
  · intro t u a b chainId ha _ hfa
    exact absurd hfa (hcut a (List.mem_of_getElem? ha) chainId).1
  · intro task htask chainId hp
    exact absurd hp (hcut task htask chainId).2

theorem pull_snap {s : St Tree Op} (hi : SnapInv c content s) (reference : String) :
    SnapInv c content { s with tasks := s.tasks ++ [.resolving reference] } := by
  have hmem : ∀ task ∈ s.tasks ++ [.resolving reference],
      task ∈ s.tasks ∨ task = .resolving reference := by
    intro task htask
    rcases List.mem_append.1 htask with h | h
    · exact .inl h
    · exact .inr (List.mem_singleton.1 h)
  constructor
  · intro task htask
    rcases hmem task htask with h | rfl
    · exact hi.checked task h
    · trivial
  · intro chainId hnone
    exact hi.settled chainId fun task htask => hnone task (List.mem_append_left _ htask)
  · intro task htask
    rcases hmem task htask with h | rfl
    · exact hi.filling task h
    · trivial
  · intro t u a b chainId ha hb hfa hfb
    rcases Nat.lt_or_ge t s.tasks.length with hlt | hge
    · rcases Nat.lt_or_ge u s.tasks.length with hlt' | hge'
      · rw [List.getElem?_append_left hlt] at ha
        rw [List.getElem?_append_left hlt'] at hb
        exact hi.alone t u a b chainId ha hb hfa hfb
      · rw [List.getElem?_append_right hge'] at hb
        rw [List.mem_singleton.1 (List.mem_of_getElem? hb)] at hfb
        exact hfb.elim
    · rw [List.getElem?_append_right hge] at ha
      rw [List.mem_singleton.1 (List.mem_of_getElem? ha)] at hfa
      exact hfa.elim
  · intro task htask chainId hp
    rcases hmem task htask with h | rfl
    · obtain ⟨hdelivered, hnone⟩ := hi.passed task h chainId hp
      refine ⟨hdelivered, ?_⟩
      intro other hother
      rcases hmem other hother with h' | rfl
      · exact hnone other h'
      · exact id
    · exact hp.elim

theorem snapInv_idle {s : St Tree Op} (htasks : s.tasks = [])
    (hsnapshots : s.stores.snapshots = OrdMap.empty) : SnapInv c content s := by
  constructor
  · rw [htasks]
    simp
  · intro chainId _
    refine .inl ?_
    simp [dirOf, hsnapshots]
  · rw [htasks]
    simp
  · intro t u a b chainId ha
    rw [htasks] at ha
    simp at ha
  · rw [htasks]
    simp

variable [DecidableEq Tree] {S : Set Bytes}

/-- **One step of one pull** keeps the invariant, if it is safe, and when the pull returns `Ok` its
    snapshots are complete. -/
theorem move_snap {s : St Tree Op} {t : Nat} {old new : Task Op} {a : Action} {stores : Stores Tree}
    (hi : SnapInv c content s) (hok : TaskOk c S s.stores.blobs old)
    (ht : s.tasks[t]? = some old) (hblobs : Extends s.stores.blobs stores.blobs)
    (hsafe : Safe c content s (.act t a)) (hm : move c s.stores old a = some (stores, new)) :
    SnapInv c content ⟨stores, s.tasks.set t new⟩ ∧
      ∀ m img, new = .pulled m img → Complete c stores m img := by
  have hmem := List.mem_of_getElem? ht
  cases a with
  | resolve layers manifestDigest config =>
    simp only [move] at hm
    split at hm <;> cases hm
    refine ⟨hi.quiet ht hblobs rfl trivial (fun _ => id) (fun _ => id) (fun _ => False.elim), ?_⟩
    intro m img hpulled
    cases hpulled
  | probeConfig =>
    simp only [move] at hm
    split at hm
    · split at hm <;> cases hm
      · exact readConfig_snap hi ht (fun _ => id) hblobs rfl
      · refine ⟨hi.quiet ht hblobs rfl trivial (fun _ => id) (fun _ => id)
          (fun _ => False.elim), ?_⟩
        intro m img hpulled
        cases hpulled
    · cases hm
  | renameConfig =>
    simp only [move] at hm
    split at hm <;> cases hm
    exact readConfig_snap hi ht (fun _ => id) hblobs rfl
  | chunk bytes =>
    simp only [move] at hm
    split at hm <;> cases hm
    obtain ⟨hd, -⟩ := hi.checked _ hmem
    refine ⟨hi.quiet ht hblobs rfl ⟨hd, False.elim⟩ (fun _ => id) (fun _ => id) (fun _ => id), ?_⟩
    intro m img hpulled
    cases hpulled
  | commit =>
    simp only [move] at hm
    split at hm <;> cases hm
    obtain ⟨hinv, hne⟩ := commit_snap hi ht
    exact ⟨hinv, fun m img hpulled => absurd hpulled (hne m img)⟩
  | rename =>
    simp only [move] at hm
    split at hm <;> cases hm
    obtain ⟨hd, -⟩ := (hi.checked _ hmem).extends hblobs
    refine ⟨hi.quiet ht hblobs rfl ⟨hd, False.elim⟩ (fun _ => id) (fun _ => id) (fun _ => id), ?_⟩
    intro m img hpulled
    cases hpulled
  | check =>
    simp only [move] at hm
    split at hm <;> cases hm
    obtain ⟨hinv, hne⟩ := check_snap hi ht hsafe
    exact ⟨hinv, fun m img hpulled => absurd hpulled (hne m img)⟩
  | readDir =>
    simp only [move] at hm
    split at hm <;> cases hm
    exact readDir_snap hi ht hok.1.turn hsafe
  | createDir =>
    simp only [move] at hm
    split at hm <;> cases hm
    obtain ⟨hinv, hne⟩ := createDir_snap hi ht
    exact ⟨hinv, fun m img hpulled => absurd hpulled (hne m img)⟩
  | write =>
    simp only [move] at hm
    split at hm
    · rename_i p done l todo
      obtain ⟨hinv, hcomplete⟩ := write_snap hi ht hok.1.turn hsafe
      rw [Option.some.inj hm] at hinv hcomplete
      exact ⟨hinv, hcomplete⟩
    · cases hm
  | fail e =>
    simp only [move] at hm
    split at hm <;> cases hm
    constructor
    · refine hi.set ht hblobs (fun _ _ => rfl) trivial (fun _ => False.elim) trivial ?_
        (fun _ => False.elim)
      intro chainId hf _
      exact settled_of_whole hi hmem (hsafe old ht) hf
    · intro m img hpulled
      cases hpulled

/-! ## Runs -/

/-- One step of all pulls together. -/
theorem step_snap (hS : Set.InjOn c.sha256 S) {s s' : St Tree Op} {l : Label} (hp : PullsOk c S s)
    (hi : SnapInv c content s) (hh : ∀ b, hashedBy s l = some b → b ∈ S)
    (hsafe : Safe c content s l) (h : step c s l = some s') :
    SnapInv c content s' ∧ ∀ m img, returned s' l = some (m, img) → Complete c s'.stores m img := by
  obtain ⟨reference, rfl, rfl⟩ | ⟨t, a, task, stores, task', rfl, ht, hm, rfl⟩ | ⟨rfl, rfl⟩ :=
    step_cases h
  · refine ⟨pull_snap hi reference, ?_⟩
    intro m img hr
    cases hr
  · have hbytes : ∀ b, hashes task a = some b → b ∈ S := by
      intro b hb
      apply hh
      simp only [hashedBy, ht, Option.bind_some]
      exact hb
    have hok := hp.tasks task (List.mem_of_getElem? ht)
    obtain ⟨-, he, -⟩ := move_ok hS hp.blobs hok hbytes hm
    obtain ⟨hinv, hcomplete⟩ := move_snap hi hok ht he hsafe hm
    refine ⟨hinv, ?_⟩
    intro m img hr
    have hlt : t < s.tasks.length := by
      obtain ⟨hlt, -⟩ := List.getElem?_eq_some_iff.1 ht
      exact hlt
    simp only [returned, List.getElem?_set_self hlt] at hr
    cases task' with
    | pulled m' img' =>
      cases hr
      exact hcomplete m img rfl
    | layer p done l stage => cases hr
    | resolving reference => cases hr
    | storingConfig m => cases hr
    | movingConfig m => cases hr
    | failed reference e => cases hr
  · refine ⟨restart_snap hi hsafe, ?_⟩
    intro m img hr
    cases hr

/-- **Complete snapshots.**  In every run of pulls on empty stores whose steps are safe, whatever
    failed or was cut off before and whatever runs beside it: when a pull returns `Ok`, each of its
    snapshots holds exactly what `apply_layer` makes of the layer in an empty directory. -/
theorem snapshots_complete (c : Code Tree Op) (content : Digest → Bytes) {s₀ : St Tree Op}
    {ls : List Label} (h₀ : Idle c s₀) (hsnapshots : s₀.stores.snapshots = OrdMap.empty)
    (hc : Set.InjOn c.sha256 (runBytes c s₀ ls))
    (hsafe : ∀ x ∈ steps (step c) s₀ ls, Safe c content x.1 x.2.1) :
    ∀ x ∈ steps (step c) s₀ ls, ∀ m img, returned x.2.2 x.2.1 = some (m, img) →
      Complete c x.2.2.stores m img := by
  intro x hx
  have hok : ∀ y ∈ steps (step c) s₀ ls,
      (∀ b, hashedBy y.1 y.2.1 = some b → b ∈ runBytes c s₀ ls) ∧ Safe c content y.1 y.2.1 :=
    fun y hy => ⟨fun b hb => .inr ⟨y, hy, hb⟩, hsafe y hy⟩
  have hstep : ∀ s l s', (PullsOk c (runBytes c s₀ ls) s ∧ SnapInv c content s) →
      ((∀ b, hashedBy s l = some b → b ∈ runBytes c s₀ ls) ∧ Safe c content s l) →
      step c s l = some s' → PullsOk c (runBytes c s₀ ls) s' ∧ SnapInv c content s' :=
    fun _ _ _ hi hok h => ⟨step_ok hc hi.1 hok.1 h, (step_snap hc hi.1 hi.2 hok.1 hok.2 h).1⟩
  have hinit : PullsOk c (runBytes c s₀ ls) s₀ ∧ SnapInv c content s₀ :=
    ⟨(steps_pullsOk h₀ hc).1, snapInv_idle h₀.tasks hsnapshots⟩
  obtain ⟨⟨hp, hi⟩, -⟩ := steps_invariant hstep ls s₀ hinit hok x hx
  exact (step_snap hc hp hi (hok x hx).1 (hok x hx).2 (step_of_mem_steps ls s₀ x hx)).2

/-! ## A pull alone, and two that share a layer -/

namespace Sample

variable (x : Sample)

theorem decompress_blob :
    decompress x.code.decoders x.blob (.fromMediaType x.descriptor.mediaType) =
      .ok ⟨x.blob, none⟩ := by
  have hnone : Compression.fromMediaType x.descriptor.mediaType = .none := by
    show Compression.fromMediaType "application/vnd.oci.image.layer.v1.tar" = .none
    decide
  rw [hnone]
  rfl

/-- A pull that runs alone is safe. -/
theorem safe_alone (r : String) :
    ∀ y ∈ steps (step x.code) idle (x.alone r), Safe x.code (fun _ => x.blob) y.1 y.2.1 := by
  have hwrite : ∀ (s : St (List Nat) Nat) t, Safe x.code (fun _ => x.blob) s (.act t .write) :=
    fun _ _ _ _ _ _ _ _ hfail => absurd rfl hfail
  have hcheck : Safe x.code (fun _ => x.blob) ⟨x.blobStores, [x.turn r .checking]⟩
      (.act 0 .check) := by
    intro p done l hl blob bytes hblob hbytes _
    cases hl
    have hstored : x.blobStores.blobs.get? x.digest.hex = some blob := hblob
    rw [x.blob_stored] at hstored
    cases hstored
    have hbytes : decompress x.code.decoders x.blob (.fromMediaType x.descriptor.mediaType) =
      .ok ⟨bytes, none⟩ := hbytes
    rw [x.decompress_blob] at hbytes
    cases hbytes
    rfl
  have hread : Safe x.code (fun _ => x.blob) ⟨x.blobStores, [x.turn r .looking]⟩
      (.act 0 .readDir) := by
    intro p done l hl
    cases hl
    constructor
    · intro task htask
      rw [List.mem_singleton.1 htask]
      exact id
    · intro _ task htask
      rw [List.mem_singleton.1 htask]
      rintro ⟨j, d, diffId, hj, -⟩
      exact Nat.not_lt_zero j hj
  rw [(x.trace_alone r).steps]
  simp only [halfSteps, List.cons_append, List.nil_append, List.forall_mem_cons]
  exact ⟨trivial, trivial, trivial, trivial, trivial, trivial, trivial, hcheck, hread, trivial,
    hwrite _ _, hwrite _ _, hwrite _ _, by simp⟩

/-- While the pull of `a` has written the first of two files, the layer is pulled as `b`. -/
def shared : List Label :=
  x.half "a" ++ [.pull "b", .act 1 x.resolve, .act 1 .probeConfig, .act 1 (.chunk x.blob),
    .act 1 .commit, .act 1 .check, .act 1 .readDir]

/-- The state of the two pulls. -/
def both (task : Task Nat) : St (List Nat) Nat :=
  ⟨x.halfStores, [x.turn "a" (.unpacking [1]), task]⟩

/-- The transitions of the pull of `b`. -/
def secondSteps : List (St (List Nat) Nat × Label × St (List Nat) Nat) :=
  [(⟨x.halfStores, [x.turn "a" (.unpacking [1])]⟩, .pull "b", x.both (.resolving "b")),
    (x.both (.resolving "b"), .act 1 x.resolve, x.both (.storingConfig (x.manifest "b"))),
    (x.both (.storingConfig (x.manifest "b")), .act 1 .probeConfig,
      x.both (x.turn "b" (.streaming []))),
    (x.both (x.turn "b" (.streaming [])), .act 1 (.chunk x.blob),
      x.both (x.turn "b" (.streaming x.blob))),
    (x.both (x.turn "b" (.streaming x.blob)), .act 1 .commit, x.both (x.turn "b" .checking)),
    (x.both (x.turn "b" .checking), .act 1 .check, x.both (x.turn "b" .looking)),
    (x.both (x.turn "b" .looking), .act 1 .readDir,
      x.both (.pulled (x.manifest "b") (x.image "b")))]

theorem trace_shared :
    Trace (step x.code) idle x.shared (x.both (.pulled (x.manifest "b") (x.image "b")))
      (x.halfSteps "a" ++ x.secondSteps) := by
  have hblob : x.halfStores.blobs.get? x.digest.hex = some x.blob := x.blob_stored
  have hconfig : move x.code x.halfStores (.storingConfig (x.manifest "b")) .probeConfig =
      some (x.halfStores, x.turn "b" (.streaming [])) := by
    have hstored : (x.halfStores.blobs.get? (x.code.sha256 (x.manifest "b").config).hex).isSome =
        true := by
      rw [show (x.manifest "b").config = x.config from rfl, x.sha256_config]
      exact Option.isSome_iff_exists.2 ⟨_, x.config_stored⟩
    simp only [move, if_pos hstored, x.readConfig_eq]
    rfl
  have hcommit : move x.code x.halfStores (x.turn "b" (.streaming x.blob)) .commit =
      some (x.halfStores, x.turn "b" .checking) := by
    simp only [move, turn, x.commitLayer_found "b" hblob]
  have hcheck : move x.code x.halfStores (x.turn "b" .checking) .check =
      some (x.halfStores, x.turn "b" .looking) := by
    simp only [move, turn, x.checkLayer_eq "b" hblob]
  have hread : move x.code x.halfStores (x.turn "b" .looking) .readDir =
      some (x.halfStores, .pulled (x.manifest "b") (x.image "b")) := by
    have hdir : dirOf x.code x.halfStores x.digest ≠ [] := by
      rw [show dirOf x.code x.halfStores x.digest = [0] from x.dirOf_insert _ _ _]
      simp
    simp only [move, turn, x.lookAtDir_populated "b" hdir]
  have hsecond : Trace (step x.code) ⟨x.halfStores, [x.turn "a" (.unpacking [1])]⟩
      [.pull "b", .act 1 x.resolve, .act 1 .probeConfig, .act 1 (.chunk x.blob), .act 1 .commit,
        .act 1 .check, .act 1 .readDir] (x.both (.pulled (x.manifest "b") (x.image "b")))
      x.secondSteps :=
    .cons rfl (.cons (step_act rfl rfl) (.cons (step_act rfl hconfig)
      (.cons (step_act rfl rfl) (.cons (step_act rfl hcommit) (.cons (step_act rfl hcheck)
      (.cons (step_act rfl hread) (.nil _)))))))
  exact .append hsecond (x.trace_half "a")

theorem noCollision_shared : Set.InjOn x.code.sha256 (runBytes x.code idle x.shared) := by
  refine x.noCollision fun y hy b hb => ?_
  rw [x.trace_shared.steps] at hy
  rcases List.mem_append.1 hy with hy | hy
  · exact x.hashedBy_half hy hb
  · simp only [secondSteps, List.mem_cons, List.not_mem_nil, or_false] at hy
    rcases hy with rfl | rfl | rfl | rfl | rfl | rfl | rfl
    all_goals first
      | exact .inl (Option.some.inj hb).symm
      | exact .inr (Option.some.inj hb).symm
      | cases hb

end Sample

/-- The pull of the files `a` and `b`, alone, leaves both in the snapshot. -/
theorem plainSample_complete :
    (∀ y ∈ steps (step plainSample.code) Sample.idle (plainSample.alone "files"),
      Safe plainSample.code (fun _ => plainSample.blob) y.1 y.2.1) ∧
    Complete plainSample.code plainSample.fullStores (plainSample.manifest "files")
      (plainSample.image "files") := by
  have hsafe := plainSample.safe_alone "files"
  refine ⟨hsafe, ?_⟩
  exact snapshots_complete plainSample.code (fun _ => plainSample.blob) plainSample.idle_idle rfl
    (plainSample.noCollision_alone "files") hsafe _ (plainSample.pulled_mem_steps "files") _ _ rfl

/-- The pull of `b` finds a file in the snapshot of the layer and returns `Ok`, with half of it
    there. -/
theorem shared_layer_incomplete :
    ¬ ∀ (c : Code (List Nat) Nat) (s₀ : St (List Nat) Nat) (ls : List Label),
      Idle c s₀ → s₀.stores.snapshots = OrdMap.empty → Set.InjOn c.sha256 (runBytes c s₀ ls) →
      ∀ x ∈ steps (step c) s₀ ls, ∀ m img, returned x.2.2 x.2.1 = some (m, img) →
        Complete c x.2.2.stores m img := by
  intro h
  have hmem : (plainSample.both (plainSample.turn "b" .looking), .act 1 .readDir,
      plainSample.both (.pulled (plainSample.manifest "b") (plainSample.image "b"))) ∈
        steps (step plainSample.code) Sample.idle plainSample.shared := by
    rw [plainSample.trace_shared.steps]
    exact List.mem_append_right _ (List.mem_of_getElem? (i := 6) rfl)
  obtain ⟨blob, tree, hblob, htree, hfull⟩ :=
    h plainSample.code Sample.idle plainSample.shared plainSample.idle_idle rfl
      plainSample.noCollision_shared _ hmem _ _ rfl 0 plainSample.descriptor plainSample.digest
      plainSample.digest rfl rfl rfl
  have hstored : plainSample.halfStores.blobs.get? plainSample.digest.hex = some blob := hblob
  rw [show plainSample.halfStores.blobs = plainSample.blobStores.blobs from rfl,
    plainSample.blob_stored] at hstored
  cases hstored
  have htree : plainSample.halfStores.snapshots.get? plainSample.digest.hex = some tree := htree
  simp only [Sample.halfStores, OrdMap.get?_insert, if_true, Option.some.injEq] at htree
  rw [applyLayer, plainSample.decompress_blob, ← htree] at hfull
  have hfiles := congrArg Prod.fst hfull
  exact absurd hfiles (by decide)

end ContainerdRs.Images.Concurrent
