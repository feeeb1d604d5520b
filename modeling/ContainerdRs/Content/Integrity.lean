import Mathlib
import ContainerdRs.Content.Store

/-!
# Integrity of the content store

Every blob file holds contents with the sha256 in its name, in every state any interleaving of
writers and removals can reach, and a blob is never modified once it is visible.

The invariant `StagingInv` ties each open writer to its staging file: the file holds exactly the
bytes the writer has hashed (`Staged`).  It survives the steps of all other tasks because staging
names are never shared (`StagingInv.names`, from `stagingName_seq`) and names never share an inode
(`InodeFs.WellFormed`).  `StagingInv.set` is the one place where a step's effect on the other tasks
is argued; each label then only states what it does to its own task.  `StoreInv` adds the blobs,
of which only a rename brings a new one (`step_blobs`).
-/

set_option autoImplicit false

namespace ContainerdRs.Content

open Transition

variable (sha256 : Bytes → Digest) (pid : Nat)

/-- Every blob file is named after the hash of its contents. -/
def BlobsValid (fs : InodeFs StorePath UInt8) : Prop :=
  ∀ hex i, fs.dirent (.blob hex) = some i → (sha256 (fs.data i)).hex = hex

/-- The staging name a task works on. -/
def Task.owned : Task → Option String
  | .reserved staging => some staging
  | .writing w | .flushed w _ _ | .rejecting w _ | .verified w _ | .deduping w _ | .moving w _
  | .renaming w _ => some w.staging
  | .returned _ | .dropped | .removing _ | .removed _ => none

/-- The writer whose staging file must still hold what was hashed. -/
def Task.intact : Task → Option Writer
  | .writing w | .flushed w _ _ | .verified w _ | .moving w _ | .renaming w _ => some w
  | _ => none

/-- The digest a committing writer has computed. -/
def Task.computed : Task → Option (Writer × Digest)
  | .verified w d | .moving w d | .renaming w d => some (w, d)
  | _ => none

/-- The staging file of `w` holds the bytes `w` has hashed and counted; the open handle, if
    any, is that file. -/
def Staged (fs : InodeFs StorePath UInt8) (w : Writer) : Prop :=
  ∃ i, fs.dirent (.ingest w.staging) = some i ∧ fs.data i = w.hasher ∧
    w.written = w.hasher.length ∧ ∀ j, w.file = some j → j = i

/-- The invariant of the store. -/
structure StoreInv (s : St) : Prop where
  wf : s.fs.WellFormed
  blobs : BlobsValid sha256 s.fs
  intact : ∀ (t : Nat) (task : Task) (w : Writer), s.tasks[t]? = some task →
    task.intact = some w → Staged s.fs w
  digest : ∀ (t : Nat) (task : Task) (w : Writer) (d : Digest), s.tasks[t]? = some task →
    task.computed = some (w, d) → sha256 w.hasher = d
  names : ∀ (t u : Nat) (a b : Task) (n : String), s.tasks[t]? = some a → s.tasks[u]? = some b →
    a.owned = some n → b.owned = some n → t = u
  bound : ∀ (t : Nat) (task : Task) (n : String), s.tasks[t]? = some task →
    task.owned = some n → ∃ r k, k < s.seq ∧ n = stagingName sha256 pid r k

/-- The part of the invariant that is about `ingest/` alone; the blobs may hold anything. -/
structure StagingInv (s : St) : Prop where
  wf : s.fs.WellFormed
  intact : ∀ (t : Nat) (task : Task) (w : Writer), s.tasks[t]? = some task →
    task.intact = some w → Staged s.fs w
  digest : ∀ (t : Nat) (task : Task) (w : Writer) (d : Digest), s.tasks[t]? = some task →
    task.computed = some (w, d) → sha256 w.hasher = d
  names : ∀ (t u : Nat) (a b : Task) (n : String), s.tasks[t]? = some a → s.tasks[u]? = some b →
    a.owned = some n → b.owned = some n → t = u
  bound : ∀ (t : Nat) (task : Task) (n : String), s.tasks[t]? = some task →
    task.owned = some n → ∃ r k, k < s.seq ∧ n = stagingName sha256 pid r k

variable {sha256 pid} in
theorem StoreInv.staging {s : St} (h : StoreInv sha256 pid s) : StagingInv sha256 pid s :=
  ⟨h.wf, h.intact, h.digest, h.names, h.bound⟩

variable {sha256 pid} in
theorem StagingInv.store {s : St} (h : StagingInv sha256 pid s) (hb : BlobsValid sha256 s.fs) :
    StoreInv sha256 pid s :=
  ⟨h.wf, hb, h.intact, h.digest, h.names, h.bound⟩

/-- A store no task works on yet, whatever its files hold. -/
structure Idle (s : St) : Prop where
  wf : s.fs.WellFormed
  idle : s.tasks = []

theorem Idle.inv {s : St} (h : Idle s) : StagingInv sha256 pid s := by
  have hno : ∀ (t : Nat) (task : Task), s.tasks[t]? = some task → False := by
    intro t task ht; rw [h.idle] at ht; simp at ht
  exact ⟨h.wf, fun t task _ ht => (hno t task ht).elim,
    fun t task _ _ ht => (hno t task ht).elim, fun t _ a _ _ ht => (hno t a ht).elim,
    fun t task _ ht => (hno t task ht).elim⟩

/-- A store as `Store::open` finds it: no task yet, valid blobs; anything may be left under
    `ingest/`. -/
structure Opened (s : St) : Prop where
  wf : s.fs.WellFormed
  blobs : BlobsValid sha256 s.fs
  idle : s.tasks = []

theorem Opened.idleStore {s : St} (h : Opened sha256 s) : Idle s := ⟨h.wf, h.idle⟩

theorem Opened.inv {s : St} (h : Opened sha256 s) : StoreInv sha256 pid s :=
  (h.idleStore.inv sha256 pid).store h.blobs

variable {sha256 pid}

/-! ## Staging names -/

/-- Two staging names of one process are equal only if their counters are. -/
theorem stagingName_seq {r r' : String} {k k' : Nat}
    (h : stagingName sha256 pid r k = stagingName sha256 pid r' k') : k = k' := by
  have hl := congrArg String.toList h
  simp only [stagingName, String.toList_append] at hl
  have hlen := List.append_inj hl (by simp only [List.length_append, Digest.length])
  exact Nat.repr_inj.1 (String.toList_inj.1 hlen.2)

theorem intact_owned {task : Task} {w : Writer} (h : task.intact = some w) :
    task.owned = some w.staging := by
  cases task <;> simp_all [Task.intact, Task.owned]

theorem computed_intact {task : Task} {w : Writer} {d : Digest}
    (h : task.computed = some (w, d)) : task.intact = some w := by
  cases task <;> simp_all [Task.intact, Task.computed]

/-! ## Frame rules -/

theorem Staged.frame {fs fs' : InodeFs StorePath UInt8} {w : Writer} (h : Staged fs w)
    (hu : fs.Untouched fs' (.ingest w.staging)) : Staged fs' w := by
  obtain ⟨i, hi, hd, hw, hf⟩ := h
  obtain ⟨hi', hd'⟩ := hu i hi
  exact ⟨i, hi', hd'.trans hd, hw, hf⟩

theorem BlobsValid.frame {fs fs' : InodeFs StorePath UInt8} (h : BlobsValid sha256 fs)
    (hsub : ∀ hex i, fs'.dirent (.blob hex) = some i →
      fs.dirent (.blob hex) = some i ∧ fs'.data i = fs.data i) : BlobsValid sha256 fs' := by
  intro hex i hi
  obtain ⟨hi', hd⟩ := hsub hex i hi
  rw [hd]; exact h hex i hi'

/-- One task moves from `old` to `new` and the file system to `fs'`: enough is that the step
    keeps to the task's own staging name. -/
theorem StagingInv.set {s : St} (hi : StagingInv sha256 pid s) {t : Nat} {old new : Task}
    {fs' : InodeFs StorePath UInt8} (ht : s.tasks[t]? = some old)
    (hown : ∀ n, new.owned = some n → old.owned = some n) (hwf : fs'.WellFormed)
    (hframe : ∀ n, old.owned ≠ some n → s.fs.Untouched fs' (.ingest n))
    (hint : ∀ w, new.intact = some w → Staged fs' w)
    (hdig : ∀ w d, new.computed = some (w, d) → sha256 w.hasher = d) :
    StagingInv sha256 pid { s with fs := fs', tasks := s.tasks.set t new } := by
  refine ⟨hwf, ?_, ?_, ?_, ?_⟩
  · intro u task w hu hw
    rcases getElem?_set_cases hu with ⟨rfl, rfl⟩ | ⟨hne, hu⟩
    · exact hint w hw
    · refine (hi.intact u task w hu hw).frame (hframe _ fun ho => hne ?_)
      exact hi.names u t task old _ hu ht (intact_owned hw) ho
  · intro u task w d hu hc
    rcases getElem?_set_cases hu with ⟨rfl, rfl⟩ | ⟨_, hu⟩
    · exact hdig w d hc
    · exact hi.digest u task w d hu hc
  · intro u v a b n hu hv ha hb
    rcases getElem?_set_cases hu with ⟨rfl, rfl⟩ | ⟨_, hu'⟩ <;>
      rcases getElem?_set_cases hv with ⟨rfl, rfl⟩ | ⟨_, hv'⟩
    · rfl
    · exact hi.names _ v old b n ht hv' (hown n ha) hb
    · exact hi.names u _ a old n hu' ht ha (hown n hb)
    · exact hi.names u v a b n hu' hv' ha hb
  · intro u task n hu hn
    rcases getElem?_set_cases hu with ⟨rfl, rfl⟩ | ⟨_, hu⟩
    · exact hi.bound _ old n ht (hown n hn)
    · exact hi.bound u task n hu hn

/-- A task moves and the file system stays. -/
theorem StagingInv.move {s : St} (hi : StagingInv sha256 pid s) {t : Nat} {old new : Task}
    (ht : s.tasks[t]? = some old) (hown : ∀ n, new.owned = some n → old.owned = some n)
    (hint : ∀ w, new.intact = some w → Staged s.fs w)
    (hdig : ∀ w d, new.computed = some (w, d) → sha256 w.hasher = d) :
    StagingInv sha256 pid { s with tasks := s.tasks.set t new } :=
  hi.set ht hown hi.wf (fun _ _ _ h => ⟨h, rfl⟩) hint hdig

/-- A task gives up its staging name and leaves the file behind. -/
theorem StagingInv.release {s : St} (hi : StagingInv sha256 pid s) {t : Nat} {old new : Task}
    (ht : s.tasks[t]? = some old) (hown : new.owned = none) :
    StagingInv sha256 pid { s with tasks := s.tasks.set t new } := by
  refine hi.move ht (fun n hn => ?_) (fun w hw => ?_) (fun w d hd => ?_)
  · rw [hown] at hn; cases hn
  · rw [intact_owned hw] at hown; cases hown
  · rw [intact_owned (computed_intact hd)] at hown; cases hown

/-- A committing writer goes on with the digest it has computed. -/
theorem StagingInv.carry {s : St} (hi : StagingInv sha256 pid s) {t : Nat} {old new : Task}
    (ht : s.tasks[t]? = some old) (hown : new.owned = old.owned)
    (hint : new.intact = old.intact) (hdig : new.computed = old.computed) :
    StagingInv sha256 pid { s with tasks := s.tasks.set t new } :=
  hi.move ht (fun _ hn => hown ▸ hn) (fun w hw => hi.intact t old w ht (hint ▸ hw))
    (fun w d hd => hi.digest t old w d ht (hdig ▸ hd))

/-- A task that returns keeps no claim on its staging file, removed or not. -/
theorem StagingInv.discard {s : St} (hi : StagingInv sha256 pid s) {t : Nat} {old new : Task}
    {n : String} (ok : Bool) (ht : s.tasks[t]? = some old) (hold : old.owned = some n)
    (hown : new.owned = none) :
    StagingInv sha256 pid
      { s with fs := removeFile s.fs (.ingest n) ok, tasks := s.tasks.set t new } := by
  have hint : ∀ w, new.intact ≠ some w := fun w hw => by
    rw [intact_owned hw] at hown; cases hown
  have hwf : (removeFile s.fs (.ingest n) ok).WellFormed := by
    unfold removeFile; split
    · exact InodeFs.unlink_wellFormed hi.wf _
    · exact hi.wf
  refine hi.set ht (fun m hm => ?_) hwf (fun m hm => ?_) (fun w hw => absurd hw (hint w))
    (fun w d hd => absurd (computed_intact hd) (hint w))
  · rw [hown] at hm; cases hm
  · unfold removeFile; split
    · refine InodeFs.unlink_untouched fun e => hm ?_
      rw [hold, StorePath.ingest.inj e]
    · exact fun _ h => ⟨h, rfl⟩

/-- A new task arrives, with a staging name no other task has. -/
theorem StagingInv.push {s : St} (hi : StagingInv sha256 pid s) {new : Task} (seq' : Nat)
    (hseq : s.seq ≤ seq')
    (hint : ∀ w, new.intact ≠ some w)
    (hown : ∀ n, new.owned = some n → ∃ r, n = stagingName sha256 pid r s.seq ∧ s.seq < seq') :
    StagingInv sha256 pid { s with seq := seq', tasks := s.tasks ++ [new] } := by
  have hfresh : ∀ (u : Nat) (task : Task) n, s.tasks[u]? = some task → task.owned = some n →
      new.owned ≠ some n := by
    intro u task n hu hn hnew
    obtain ⟨r, hr, _⟩ := hown n hnew
    obtain ⟨r', k, hk, hn'⟩ := hi.bound u task n hu hn
    have := stagingName_seq (hr.symm.trans hn')
    omega
  refine ⟨hi.wf, ?_, ?_, ?_, ?_⟩
  · intro u task w hu hw
    rcases getElem?_push_cases hu with ⟨_, rfl⟩ | hu
    · exact absurd hw (hint w)
    · exact hi.intact u task w hu hw
  · intro u task w d hu hc
    rcases getElem?_push_cases hu with ⟨_, rfl⟩ | hu
    · exact absurd (computed_intact hc) (hint w)
    · exact hi.digest u task w d hu hc
  · intro u v a b n hu hv ha hb
    rcases getElem?_push_cases hu with ⟨hu', rfl⟩ | hu' <;>
      rcases getElem?_push_cases hv with ⟨hv', rfl⟩ | hv'
    · rw [hu', hv']
    · exact absurd ha (hfresh v b n hv' hb)
    · exact absurd hb (hfresh u a n hu' ha)
    · exact hi.names u v a b n hu' hv' ha hb
  · intro u task n hu hn
    rcases getElem?_push_cases hu with ⟨_, rfl⟩ | hu
    · obtain ⟨r, hr, hlt⟩ := hown n hn
      exact ⟨r, s.seq, hlt, hr⟩
    · obtain ⟨r, k, hk, hn'⟩ := hi.bound u task n hu hn
      exact ⟨r, k, by show k < seq'; omega, hn'⟩

/-! ## Steps -/

theorem createFile_staging {s : St} (hi : StagingInv sha256 pid s) {t : Nat} {staging : String}
    (ht : s.tasks[t]? = some (.reserved staging)) :
    StagingInv sha256 pid
      { s with fs := (s.fs.createFile (.ingest staging)).2
               tasks := s.tasks.set t
                 (.writing ⟨staging, some (s.fs.createFile (.ingest staging)).1, [], 0⟩) } := by
  refine hi.set ht (fun n hn => hn) (InodeFs.createFile_wellFormed hi.wf _) ?_ ?_ ?_
  · intro n hn
    refine InodeFs.createFile_untouched hi.wf fun e => hn ?_
    rw [StorePath.ingest.inj e]; rfl
  · intro w hw
    cases hw
    exact ⟨_, InodeFs.createFile_dirent_self _, InodeFs.createFile_data_self _, rfl,
      fun j hj => (Option.some.inj hj).symm⟩
  · intro w d h; cases h

theorem write_staging {s : St} (hi : StagingInv sha256 pid s) {t i written : Nat} {staging : String}
    {hasher : Bytes} (ht : s.tasks[t]? = some (.writing ⟨staging, some i, hasher, written⟩))
    {buf : Bytes} {n : Nat} (hn : n ≤ buf.length) :
    StagingInv sha256 pid
      { s with fs := s.fs.append i (buf.take n)
               tasks := s.tasks.set t
                 (.writing ⟨staging, some i, hasher ++ buf.take n, written + n⟩) } := by
  obtain ⟨j, hj, hdata, hlen, hfile⟩ := hi.intact t _ _ ht rfl
  obtain rfl : i = j := hfile i rfl
  simp only at hdata hlen hj
  refine hi.set ht (fun n hn => hn) (InodeFs.append_wellFormed hi.wf _ _) ?_ ?_ ?_
  · intro m hm
    refine InodeFs.append_untouched hi.wf hj (fun e => hm ?_) _
    rw [StorePath.ingest.inj e]; rfl
  · intro w hw
    cases hw
    refine ⟨i, hj, ?_, ?_, fun k hk => (Option.some.inj hk).symm⟩
    · rw [InodeFs.append_data_self, hdata]
    · simp only [List.length_append, List.length_take, hlen]; omega
  · intro w d h; cases h

theorem rename_staging {s : St} (hi : StagingInv sha256 pid s) {t : Nat} {w : Writer} {d : Digest}
    (ht : s.tasks[t]? = some (.renaming w d)) :
    StagingInv sha256 pid
      { s with fs := s.fs.rename (.ingest w.staging) (.blob d.hex)
               tasks := s.tasks.set t (.returned (.ok d)) } := by
  refine hi.set ht (fun n hn => by cases hn) (InodeFs.rename_wellFormed hi.wf _ _) ?_
    (fun w hw => by cases hw) (fun w d h => by cases h)
  intro n hn
  refine InodeFs.rename_untouched (fun e => hn ?_) (by simp)
  rw [StorePath.ingest.inj e]; rfl

theorem unlinkBlob_staging {s : St} (hi : StagingInv sha256 pid s) {t : Nat} {d : Digest}
    {new : Task} (ht : s.tasks[t]? = some (.removing d)) (hown : new.owned = none) :
    StagingInv sha256 pid
      { s with fs := s.fs.unlink (.blob d.hex), tasks := s.tasks.set t new } := by
  refine hi.set ht (fun n hn => by rw [hown] at hn; cases hn) (InodeFs.unlink_wellFormed hi.wf _)
    (fun n _ => InodeFs.unlink_untouched (by simp)) ?_ ?_
  · intro w hw; rw [intact_owned hw] at hown; cases hown
  · intro w d h; rw [intact_owned (computed_intact h)] at hown; cases hown

/-- The comparison step: only a writer whose digest matched goes on. -/
theorem verify_staging {s : St} (hi : StagingInv sha256 pid s) {t size : Nat} {w : Writer}
    {expected : Digest} (ht : s.tasks[t]? = some (.flushed w size expected)) :
    StagingInv sha256 pid
      { s with tasks := s.tasks.set t (verifyTask sha256 w size expected) } := by
  have hst := hi.intact t _ w ht rfl
  unfold verifyTask
  split
  · exact hi.move ht (fun n hn => hn) (fun _ h => by cases h) (fun _ _ h => by cases h)
  split
  · exact hi.move ht (fun n hn => hn) (fun _ h => by cases h) (fun _ _ h => by cases h)
  · exact hi.move ht (fun n hn => hn) (fun w' h => by cases h; exact hst)
      (fun w' d h => by cases h; rfl)

/-- Every step keeps the staging files apart, whatever the other tasks are doing. -/
theorem step_staging {s s' : St} {l : Label} (hi : StagingInv sha256 pid s)
    (h : step sha256 pid s l = some s') : StagingInv sha256 pid s' := by
  cases moves_of_step h with
  | openWriter ingestRef =>
    exact hi.push _ (Nat.le_succ _) (fun _ h => by cases h)
      (fun n hn => ⟨ingestRef, (Option.some.inj hn).symm, Nat.lt_succ_self _⟩)
  | create ht => exact createFile_staging hi ht
  | write ht hn => exact write_staging hi ht hn
  | @dropWriter _ _ ok ht => exact hi.discard ok ht rfl rfl
  | commit ht =>
    refine hi.move ht (fun n hn => hn) (fun w' hw => ?_) (fun _ _ h => by cases h)
    cases hw
    obtain ⟨i, hdir, hdata, hlen, _⟩ := hi.intact _ _ _ ht rfl
    exact ⟨i, hdir, hdata, hlen, fun j hj => by cases hj⟩
  | verify ht => exact verify_staging hi ht
  | @reject _ _ _ ok ht => exact hi.discard ok ht rfl rfl
  | present ht _ =>
    exact hi.move ht (fun n hn => hn) (fun _ h => by cases h) (fun _ _ h => by cases h)
  | absent ht _ => exact hi.carry ht rfl rfl rfl
  | @discard _ _ _ ok ht => exact hi.discard ok ht rfl rfl
  | createDir ht => exact hi.carry ht rfl rfl rfl
  | rename ht => exact rename_staging hi ht
  | remove _ | removeAbsent _ =>
    exact hi.push s.seq (Nat.le_refl _) (fun _ h => by cases h) (fun _ h => by cases h)
  | unlink ht => exact unlinkBlob_staging hi ht rfl
  | createFailed ht | commitFailed ht | createDirFailed ht | renameFailed ht | unlinkFailed ht =>
    exact hi.release ht rfl

/-- A blob file is never written to: the inodes behind blob names are not those of open
    handles or staging names. -/
theorem step_blob_data {s s' : St} {l : Label} (hi : StagingInv sha256 pid s)
    (h : step sha256 pid s l = some s') {hex : String} {i : Nat}
    (hb : s.fs.dirent (.blob hex) = some i) : s'.fs.data i = s.fs.data i := by
  cases moves_of_step h with
  | create _ => exact (InodeFs.createFile_untouched hi.wf (by simp) i hb).2
  | write ht _ =>
    obtain ⟨k, hk, _, _, hfile⟩ := hi.intact _ _ _ ht rfl
    obtain rfl := hfile _ rfl
    exact (InodeFs.append_untouched hi.wf hk (by simp) _ i hb).2
  | @dropWriter _ _ ok _ | @reject _ _ _ ok _ | @discard _ _ _ ok _ => cases ok <;> rfl
  | rename _ => exact congrFun (InodeFs.rename_data _ _) i
  | _ => rfl

/-- Every step keeps the blobs valid: only a rename brings one, with the digest of its staging
    file. -/
theorem step_blobs {s s' : St} {l : Label} (hi : StagingInv sha256 pid s)
    (hb : BlobsValid sha256 s.fs) (h : step sha256 pid s l = some s') :
    BlobsValid sha256 s'.fs := by
  have hframe : (∀ hex i, s'.fs.dirent (.blob hex) = some i →
      s.fs.dirent (.blob hex) = some i) → BlobsValid sha256 s'.fs := by
    intro hsub
    refine hb.frame fun hex i hi' => ?_
    exact ⟨hsub hex i hi', step_blob_data hi h (hsub hex i hi')⟩
  cases moves_of_step h with
  | @create _ staging ht =>
    refine hframe fun hex i hd => ?_
    have hne : StorePath.blob hex ≠ .ingest staging := by simp
    rwa [InodeFs.createFile_dirent_ne hne] at hd
  | @dropWriter _ _ ok _ | @reject _ _ _ ok _ | @discard _ _ _ ok _ =>
    refine hframe fun hex i hd => ?_
    cases ok with
    | true => exact InodeFs.unlink_dirent hd
    | false => exact hd
  | unlink _ => exact hframe fun hex i hd => InodeFs.unlink_dirent hd
  | @rename t w d ht =>
    obtain ⟨i, hdir, hdata, _, _⟩ := hi.intact t _ w ht rfl
    have hdig := hi.digest t _ w d ht rfl
    intro hex j hj
    rw [InodeFs.rename_data]
    rcases InodeFs.rename_dirent hdir hj with ⟨hp, rfl⟩ | ⟨_, _, hj⟩
    · rw [hdata, hdig, StorePath.blob.inj hp]
    · exact hb hex j hj
  | _ => exact hframe fun _ _ hd => hd

/-- **Every step keeps the invariant**, whatever the other tasks are doing. -/
theorem step_inv {s s' : St} {l : Label} (hi : StoreInv sha256 pid s)
    (h : step sha256 pid s l = some s') : StoreInv sha256 pid s' :=
  (step_staging hi.staging h).store (step_blobs hi.staging hi.blobs h)

/-! ## Runs -/

/-- **Content-store integrity.**  After any interleaving of writers and removals on an opened
    store, every blob file holds contents with the sha256 in its name, a successful read
    returns bytes with the requested digest, and no step of the run changed the contents of a
    visible blob. -/
theorem reachable_blobs_verified {s₀ s : St} (h₀ : Opened sha256 s₀) {ls : List Label}
    (hrun : run (step sha256 pid) s₀ ls = some s) :
    (∀ hex b, s.fs.read (.blob hex) = some b → (sha256 b).hex = hex) ∧
    (∀ d b, read s d = some b → sha256 b = d) ∧
    ∀ x ∈ steps (step sha256 pid) s₀ ls, ∀ hex i, x.1.fs.dirent (.blob hex) = some i →
      x.2.2.fs.data i = x.1.fs.data i := by
  have hstep : ∀ s l s', StoreInv sha256 pid s → True → step sha256 pid s l = some s' →
      StoreInv sha256 pid s' := fun _ _ _ hi _ h => step_inv hi h
  have hs := run_invariant hstep ls s₀ s (h₀.inv sha256 pid) (fun _ _ => trivial) hrun
  have hread : ∀ hex b, s.fs.read (.blob hex) = some b → (sha256 b).hex = hex := by
    intro hex b hb
    obtain ⟨i, hi, rfl⟩ := Option.map_eq_some_iff.1 hb
    exact hs.blobs hex i hi
  refine ⟨hread, fun d b hb => Digest.hex_injective (hread d.hex b hb), ?_⟩
  intro x hx hex i hb
  have hx1 := (steps_invariant hstep ls s₀ (h₀.inv sha256 pid) (fun _ _ => trivial) x hx).1
  exact step_blob_data hx1.staging (step_of_mem_steps ls s₀ x hx) hb

/-- A store directory with no file in it. -/
def emptyStore : St := ⟨⟨fun _ => none, fun _ => [], 0⟩, 0, []⟩

/-- One writer that commits the empty blob. -/
def emptyBlobSchedule : List Label :=
  [.openWriter "", .create 0 true, .commit 0 0 emptyDigest true, .verify 0, .probe 0,
    .createDir 0 true, .rename 0 true]

theorem opened_emptyStore : Opened (fun _ => emptyDigest) emptyStore :=
  ⟨⟨fun _ _ _ h => by simp [emptyStore] at h, fun _ _ h => by simp [emptyStore] at h⟩,
    fun _ _ h => by simp [emptyStore] at h, rfl⟩

/-- The empty blob, written and committed on an empty store, reads back verified. -/
theorem empty_blob_verified :
    ∃ s, run (step (fun _ => emptyDigest) 1) emptyStore emptyBlobSchedule = some s ∧
      read s emptyDigest = some [] ∧
      ∀ d b, read s d = some b → (fun _ => emptyDigest : Bytes → Digest) b = d := by
  have hread : (run (step (fun _ => emptyDigest) 1) emptyStore emptyBlobSchedule).bind
      (read · emptyDigest) = some [] := by decide
  obtain ⟨s, hs, hb⟩ := Option.bind_eq_some_iff.1 hread
  exact ⟨s, hs, hb, (reachable_blobs_verified opened_emptyStore hs).2.1⟩

end ContainerdRs.Content
