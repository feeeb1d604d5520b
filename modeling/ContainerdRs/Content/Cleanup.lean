import ContainerdRs.Content.Integrity

/-!
# What a writer leaves under `ingest/`

A writer removes its staging file when it is dropped and where `commit` finds that it must not
move it; `commit` gives up the file handle first, and `Drop` only looks at the handle.

* `Tidy` — the step that ends a writer leaves no staging file, and no step of a commit but the one
  that returns `Ok` changes a blob.
* `staging_cleaned_iff` — a run is tidy exactly when no call between the handle and the rename
  fails.
* `failed_rename_leaves_staging` — a rename that fails.
-/

set_option autoImplicit false

namespace ContainerdRs.Content

open Transition

variable {sha256 : Bytes → Digest} {pid : Nat}

/-- The writer of a task that has not come to its end. -/
def Task.writer : Task → Option Writer
  | .writing w | .flushed w _ _ | .rejecting w _ | .verified w _ | .deduping w _ | .moving w _
  | .renaming w _ => some w
  | .reserved _ | .returned _ | .dropped | .removing _ | .removed _ => none

/-- The task that moves. -/
def Label.task : Label → Option Nat
  | .create t _ | .write t _ _ | .dropWriter t _ | .commit t _ _ _ | .verify t | .reject t _
  | .probe t | .discard t _ | .createDir t _ | .rename t _ | .unlink t _ => some t
  | .openWriter _ | .remove _ => none

/-- A step leaves what a writer that ends with it must leave. -/
structure Tidy (x : St × Label × St) : Prop where
  gone : ∀ (t : Nat) (old new : Task) (w : Writer), x.1.tasks[t]? = some old →
    old.writer = some w → x.2.2.tasks[t]? = some new → new.writer = none →
    x.2.2.fs.isFile (.ingest w.staging) = false
  blobs : ∀ (t : Nat) (old new : Task) (w : Writer), x.2.1.task = some t →
    x.1.tasks[t]? = some old → old.writer = some w → x.2.2.tasks[t]? = some new →
    (∀ d, new ≠ .returned (.ok d)) →
    ∀ hex, x.2.2.fs.dirent (.blob hex) = x.1.fs.dirent (.blob hex)

/-- The file is deleted, where the step deletes the staging file. -/
def Label.deletes : Label → Bool
  | .dropWriter _ ok | .reject _ ok | .discard _ ok => ok
  | _ => true

/-- The flush and sync, the creation of the directory or the rename succeeds, where the step makes
    one of them. -/
def Label.finishes : Label → Bool
  | .commit _ _ _ ok | .createDir _ ok | .rename _ ok => ok
  | _ => true

/-! ## One step -/

section step

variable {s : St} {l : Label} {t : Nat} {old new : Task} {fs' : InodeFs StorePath UInt8}

/-- A task goes from `old` to `new`. -/
theorem tidy_set (ht : s.tasks[t]? = some old)
    (hgone : ∀ w, old.writer = some w → new.writer = none →
      fs'.isFile (.ingest w.staging) = false)
    (hblobs : ∀ w, old.writer = some w → (∀ d, new ≠ .returned (.ok d)) →
      ∀ hex, fs'.dirent (.blob hex) = s.fs.dirent (.blob hex)) (htask : l.task = some t) :
    Tidy (s, l, { s with fs := fs', tasks := s.tasks.set t new }) where
  gone u a b w ha hw hb hnone := by
    rcases getElem?_set_cases hb with ⟨rfl, rfl⟩ | ⟨-, hb⟩
    · rw [ht] at ha
      cases ha
      exact hgone w hw hnone
    · rw [ha] at hb
      cases hb
      rw [hw] at hnone
      cases hnone
  blobs u a b w hl ha hw hb hnot := by
    rcases getElem?_set_cases hb with ⟨rfl, rfl⟩ | ⟨hne, -⟩
    · rw [ht] at ha
      cases ha
      exact hblobs w hw hnot
    · rw [htask] at hl
      exact absurd (Option.some.inj hl).symm hne

/-- A task goes on, and the blobs stay. -/
theorem tidy_goes (ht : s.tasks[t]? = some old) (hwriter : new.writer.isSome = true)
    (hblobs : ∀ hex, fs'.dirent (.blob hex) = s.fs.dirent (.blob hex))
    (htask : l.task = some t) :
    Tidy (s, l, { s with fs := fs', tasks := s.tasks.set t new }) := by
  refine tidy_set ht ?_ (fun _ _ _ => hblobs) htask
  intro w _ hnone
  rw [hnone] at hwriter
  cases hwriter

/-- A task without a writer moves. -/
theorem tidy_idle (ht : s.tasks[t]? = some old) (hwriter : old.writer = none)
    (htask : l.task = some t) :
    Tidy (s, l, { s with fs := fs', tasks := s.tasks.set t new }) := by
  have hno : ∀ w, old.writer ≠ some w := by
    intro w hw
    rw [hwriter] at hw
    cases hw
  exact tidy_set ht (fun w hw => absurd hw (hno w)) (fun w hw => absurd hw (hno w)) htask

theorem tidy_push (hl : l.task = none) (seq' : Nat) :
    Tidy (s, l, { s with seq := seq', tasks := s.tasks ++ [new] }) where
  gone u a b w ha hw hb hnone := by
    rw [getElem?_push_other ha] at hb
    cases hb
    rw [hw] at hnone
    cases hnone
  blobs u a b w hu := by
    rw [hl] at hu
    cases hu

/-- A writer ends, and its staging file is deleted. -/
theorem tidy_delete {w : Writer} (ht : s.tasks[t]? = some old) (hw : old.writer = some w)
    (htask : l.task = some t) :
    Tidy (s, l, { s with
      fs := removeFile s.fs (.ingest w.staging) true
      tasks := s.tasks.set t new }) := by
  refine tidy_set ht ?_ ?_ htask
  · intro w' hw' _
    rw [hw] at hw'
    cases hw'
    exact InodeFs.unlink_isFile_self _
  · intro w' _ _ hex
    exact InodeFs.unlink_dirent_ne (by simp)

/-- A writer ends, and its staging file stays. -/
theorem not_tidy (hi : StagingInv sha256 pid s) {w : Writer} (ht : s.tasks[t]? = some old)
    (hintact : old.intact = some w) (hw : old.writer = some w) (hnew : new.writer = none) :
    ¬ Tidy (s, l, { s with tasks := s.tasks.set t new }) := by
  intro h
  obtain ⟨i, hdirent, -⟩ := hi.intact t old w ht hintact
  have hset : (s.tasks.set t new)[t]? = some new := by
    rw [List.getElem?_set_self (List.getElem?_eq_some_iff.1 ht).1]
  have hgone := h.gone t old new w ht hw hset hnew
  rw [InodeFs.isFile, hdirent] at hgone
  cases hgone

/-- A step is tidy exactly when the call it makes succeeds. -/
theorem tidy_step_iff {s' : St} (hi : StagingInv sha256 pid s) (hdel : l.deletes = true)
    (h : step sha256 pid s l = some s') : Tidy (s, l, s') ↔ l.finishes = true := by
  cases moves_of_step h with
  | openWriter _ => exact iff_of_true (tidy_push rfl _) rfl
  | create ht => exact iff_of_true (tidy_idle ht rfl rfl) rfl
  | createFailed ht => exact iff_of_true (tidy_idle ht rfl rfl) rfl
  | write ht _ => exact iff_of_true (tidy_goes ht rfl (fun _ => rfl) rfl) rfl
  | dropWriter ht =>
    obtain rfl := hdel
    exact iff_of_true (tidy_delete ht rfl rfl) rfl
  | commit ht => exact iff_of_true (tidy_goes ht rfl (fun _ => rfl) rfl) rfl
  | commitFailed ht => exact iff_of_false (not_tidy hi ht rfl rfl rfl) nofun
  | verify ht =>
    refine iff_of_true (tidy_goes ht ?_ (fun _ => rfl) rfl) rfl
    unfold verifyTask
    split
    · rfl
    · split <;> rfl
  | reject ht =>
    obtain rfl := hdel
    exact iff_of_true (tidy_delete ht rfl rfl) rfl
  | present ht _ => exact iff_of_true (tidy_goes ht rfl (fun _ => rfl) rfl) rfl
  | absent ht _ => exact iff_of_true (tidy_goes ht rfl (fun _ => rfl) rfl) rfl
  | discard ht =>
    obtain rfl := hdel
    exact iff_of_true (tidy_delete ht rfl rfl) rfl
  | createDir ht => exact iff_of_true (tidy_goes ht rfl (fun _ => rfl) rfl) rfl
  | createDirFailed ht => exact iff_of_false (not_tidy hi ht rfl rfl rfl) nofun
  | @rename _ w d ht =>
    refine iff_of_true (tidy_set ht ?_ ?_ rfl) rfl
    · intro w' hw' _
      cases hw'
      exact InodeFs.rename_isFile_source (by simp)
    · intro w' _ hnot
      exact absurd rfl (hnot d)
  | renameFailed ht => exact iff_of_false (not_tidy hi ht rfl rfl rfl) nofun
  | remove _ => exact iff_of_true (tidy_push rfl _) rfl
  | removeAbsent _ => exact iff_of_true (tidy_push rfl _) rfl
  | unlink ht => exact iff_of_true (tidy_idle ht rfl rfl) rfl
  | unlinkFailed ht => exact iff_of_true (tidy_idle ht rfl rfl) rfl

end step

/-! ## Whole runs -/

/-- **No staging file stays**, on any store and with any number of other writers and
    removals in between, and no failed commit changes a blob, exactly when in every step that
    flushes and syncs, creates the directory or renames the call succeeds; deletions of staging
    files succeed. -/
theorem staging_cleaned_iff (sha256 : Bytes → Digest) (pid : Nat) (s₀ : St)
    (h₀ : Idle s₀) (ls : List Label)
    (hdel : ∀ x ∈ steps (step sha256 pid) s₀ ls, x.2.1.deletes = true) :
    (∀ x ∈ steps (step sha256 pid) s₀ ls, Tidy x) ↔
      ∀ x ∈ steps (step sha256 pid) s₀ ls, x.2.1.finishes = true := by
  have hstep : ∀ s l s', StagingInv sha256 pid s → l.deletes = true → l.finishes = true →
      step sha256 pid s l = some s' → StagingInv sha256 pid s' :=
    fun s l s' hi _ _ h => step_staging hi h
  have hiff : ∀ s l s', StagingInv sha256 pid s → l.deletes = true →
      step sha256 pid s l = some s' → (Tidy (s, l, s') ↔ l.finishes = true) :=
    fun s l s' hi hd h => tidy_step_iff hi hd h
  exact forall_steps_iff_of hstep hiff ls s₀ (h₀.inv sha256 pid) hdel

/-- A commit on an empty store is tidy. -/
theorem empty_blob_tidy :
    (steps (step (fun _ => emptyDigest) 1) emptyStore emptyBlobSchedule).length =
        emptyBlobSchedule.length ∧
      ∀ x ∈ steps (step (fun _ => emptyDigest) 1) emptyStore emptyBlobSchedule, Tidy x := by
  have hlabels : ∀ x ∈ steps (step (fun _ => emptyDigest) 1) emptyStore emptyBlobSchedule,
      x.2.1 ∈ emptyBlobSchedule := fun x hx => label_mem_of_mem_steps _ _ x hx
  have hdel : ∀ l ∈ emptyBlobSchedule, l.deletes = true := by decide
  have hfin : ∀ l ∈ emptyBlobSchedule, l.finishes = true := by decide
  refine ⟨by decide, ?_⟩
  exact (staging_cleaned_iff _ 1 emptyStore opened_emptyStore.idleStore emptyBlobSchedule
    fun x hx => hdel _ (hlabels x hx)).2 fun x hx => hfin _ (hlabels x hx)

/-- The same writer, and the rename fails. -/
def failedRenameSchedule : List Label :=
  [.openWriter "", .create 0 true, .commit 0 0 emptyDigest true, .verify 0, .probe 0,
    .createDir 0 true, .rename 0 false]

/-- The staging file stays. -/
theorem failed_rename_leaves_staging :
    ¬ ∀ (sha256 : Bytes → Digest) (pid : Nat) (s₀ : St), Idle s₀ → ∀ ls : List Label,
      (∀ x ∈ steps (step sha256 pid) s₀ ls, x.2.1.deletes = true) →
        ∀ x ∈ steps (step sha256 pid) s₀ ls, Tidy x := by
  intro h
  have hdel : ∀ l ∈ failedRenameSchedule, l.deletes = true := by decide
  have hlabels : ∀ x ∈ steps (step (fun _ => emptyDigest) 1) emptyStore failedRenameSchedule,
      x.2.1.deletes = true := fun x hx => hdel _ (label_mem_of_mem_steps _ _ x hx)
  -- the last step of the run
  have hlast : (steps (step (fun _ => emptyDigest) 1) emptyStore failedRenameSchedule).any
      (fun x => !x.2.1.finishes) = true := by decide
  obtain ⟨x, hx, hfails⟩ := List.any_eq_true.1 hlast
  have hkeep : ∀ s l s', StagingInv (fun _ => emptyDigest) 1 s → True →
      step (fun _ => emptyDigest) 1 s l = some s' → StagingInv (fun _ => emptyDigest) 1 s' :=
    fun s l s' hi _ hs => step_staging hi hs
  have hstart := opened_emptyStore.idleStore.inv (fun _ => emptyDigest) 1
  have hinv := (steps_invariant hkeep _ _ hstart (fun _ _ => trivial) x hx).1
  have htidy := h _ 1 emptyStore opened_emptyStore.idleStore failedRenameSchedule hlabels x hx
  rw [(tidy_step_iff hinv (hlabels x hx) (step_of_mem_steps _ _ x hx)).1 htidy] at hfails
  cases hfails

end ContainerdRs.Content
