import ContainerdRs.Content.Cleanup

/-!
# Concurrent commits

Any number of writers, whose steps come in any order; no I/O error, no removal.  Two writers of
one digest can both find no blob and both rename, or one of them can find the blob of the other and
discard its own file: the answers and the blobs that are left are the same.

* `History` — what each writer has written and what its commit expects, read off the labels.
* `Account` — a task, its history and the blobs agree; `account_step`, `account_run`.
* `finishes_alone` — a commit can always be taken to its end, whatever the others have done.
* `commits_order_independent` — the answers and the blobs of every run.
-/

set_option autoImplicit false

namespace ContainerdRs.Content

open Transition

variable {sha256 : Bytes → Digest} {pid : Nat}

/-! ## What the writers do -/

/-- No removal, and no I/O error. -/
def Label.calm : Label → Bool
  | .create _ ok | .dropWriter _ ok | .commit _ _ _ ok | .reject _ ok | .discard _ ok
  | .createDir _ ok | .rename _ ok => ok
  | .openWriter _ | .write .. | .verify _ | .probe _ => true
  | .remove _ | .unlink .. => false

/-- What each writer has written, and the size and digest its commit expects. -/
structure History where
  content : Nat → Bytes
  expected : Nat → Option (Nat × Digest)

def History.start : History := ⟨fun _ => [], fun _ => none⟩

/-- One step of the history. -/
def History.step (g : History) : Label → History
  | .write t buf n => { g with content := Function.update g.content t (g.content t ++ buf.take n) }
  | .commit t size d _ => { g with expected := Function.update g.expected t (some (size, d)) }
  | _ => g

/-- The history of a run. -/
def history (ls : List Label) : History := ls.foldl History.step .start

variable (sha256) in
/-- The bytes have the size and the digest. -/
def Matches (content : Bytes) (size : Nat) (d : Digest) : Prop :=
  content.length = size ∧ sha256 content = d

variable (sha256) in
/-- A task agrees with the history of its writer. -/
def Fits (content : Bytes) (expected : Option (Nat × Digest)) : Task → Prop
  | .reserved _ => content = [] ∧ expected = none
  | .writing w => w.hasher = content ∧ w.written = content.length ∧ expected = none
  | .flushed w size d =>
    w.hasher = content ∧ w.written = content.length ∧ expected = some (size, d)
  | .verified _ d | .deduping _ d | .moving _ d | .renaming _ d | .returned (.ok d) =>
    ∃ size, expected = some (size, d) ∧ Matches sha256 content size d
  | .rejecting _ _ | .returned (.error _) =>
    ∃ size d, expected = some (size, d) ∧ ¬ Matches sha256 content size d
  | .dropped => expected = none
  | .removing _ | .removed _ => False

/-- The blob whose presence the task has seen or brought about. -/
def Task.stored : Task → Option Digest
  | .deduping _ d | .returned (.ok d) => some d
  | _ => none

variable (sha256) in
/-- Every task agrees with its history, and the blobs are those of `s₀` and of the commits that
    have returned `Ok`. -/
structure Account (s₀ s : St) (g : History) : Prop where
  fits : ∀ (t : Nat) (task : Task), s.tasks[t]? = some task →
    Fits sha256 (g.content t) (g.expected t) task
  fresh : ∀ t, s.tasks.length ≤ t → g.content t = [] ∧ g.expected t = none
  kept : ∀ hex, s₀.fs.isFile (.blob hex) = true → s.fs.isFile (.blob hex) = true
  stored : ∀ (t : Nat) (task : Task) (d : Digest), s.tasks[t]? = some task →
    task.stored = some d → s.fs.isFile (.blob d.hex) = true
  origin : ∀ hex, s.fs.isFile (.blob hex) = true → s₀.fs.isFile (.blob hex) = true ∨
    ∃ (t : Nat) (d : Digest), s.tasks[t]? = some (.returned (.ok d)) ∧ d.hex = hex

theorem account_start {s₀ : St} (h : s₀.tasks = []) : Account sha256 s₀ s₀ .start where
  fits t task ht := by
    rw [h] at ht
    cases ht
  fresh t _ := ⟨rfl, rfl⟩
  kept _ h := h
  stored t task d ht := by
    rw [h] at ht
    cases ht
  origin _ h := .inl h

/-! ## One step -/

section step

variable {s₀ s : St} {g : History} {t : Nat} {l : Label} {old new : Task}
  {fs' : InodeFs StorePath UInt8}

/-- The history of the others does not change. -/
theorem history_others (hl : l.task = some t) {u : Nat} (hu : u ≠ t) :
    (g.step l).content u = g.content u ∧ (g.step l).expected u = g.expected u := by
  cases l with
  | write t' buf n =>
    cases hl
    exact ⟨Function.update_of_ne hu _ _, rfl⟩
  | commit t' size d ok =>
    cases hl
    exact ⟨rfl, Function.update_of_ne hu _ _⟩
  | _ => exact ⟨rfl, rfl⟩

/-- A task moves, and with it its own history. -/
theorem Account.set (h : Account sha256 s₀ s g) (ht : s.tasks[t]? = some old)
    (hl : l.task = some t)
    (hfits : Fits sha256 ((g.step l).content t) ((g.step l).expected t) new)
    (hgrow : ∀ hex, s.fs.isFile (.blob hex) = true → fs'.isFile (.blob hex) = true)
    (hstored : ∀ d, new.stored = some d → fs'.isFile (.blob d.hex) = true)
    (horigin : ∀ hex, fs'.isFile (.blob hex) = true → s.fs.isFile (.blob hex) = true ∨
      ∃ d, new = .returned (.ok d) ∧ d.hex = hex)
    (hold : ∀ d, old ≠ .returned (.ok d)) :
    Account sha256 s₀ { s with fs := fs', tasks := s.tasks.set t new } (g.step l) where
  fits u task hu := by
    rcases getElem?_set_cases hu with ⟨rfl, rfl⟩ | ⟨hne, hu⟩
    · exact hfits
    · rw [(history_others hl hne).1, (history_others hl hne).2]
      exact h.fits u task hu
  fresh u hu := by
    rw [List.length_set] at hu
    have hne : u ≠ t := by
      rintro rfl
      have hlt := (List.getElem?_eq_some_iff.1 ht).1
      omega
    rw [(history_others hl hne).1, (history_others hl hne).2]
    exact h.fresh u hu
  kept hex hs := hgrow hex (h.kept hex hs)
  stored u task d hu hd := by
    rcases getElem?_set_cases hu with ⟨rfl, rfl⟩ | ⟨-, hu⟩
    · exact hstored d hd
    · exact hgrow _ (h.stored u task d hu hd)
  origin hex hf := by
    rcases horigin hex hf with hf | ⟨d, rfl, hd⟩
    · rcases h.origin hex hf with hf | ⟨u, d, hu, hd⟩
      · exact .inl hf
      · refine .inr ⟨u, d, getElem?_set_other hu ?_, hd⟩
        rintro rfl
        rw [ht] at hu
        exact hold d (Option.some.inj hu)
    · refine .inr ⟨t, d, ?_, hd⟩
      exact List.getElem?_set_self (List.getElem?_eq_some_iff.1 ht).1

/-- A task moves, and the blobs stay. -/
theorem Account.moves (h : Account sha256 s₀ s g) (ht : s.tasks[t]? = some old)
    (hl : l.task = some t)
    (hfits : Fits sha256 ((g.step l).content t) ((g.step l).expected t) new)
    (hblobs : ∀ hex, fs'.dirent (.blob hex) = s.fs.dirent (.blob hex))
    (hstored : ∀ d, new.stored = some d → s.fs.isFile (.blob d.hex) = true)
    (hold : ∀ d, old ≠ .returned (.ok d)) :
    Account sha256 s₀ { s with fs := fs', tasks := s.tasks.set t new } (g.step l) := by
  have hsame : ∀ hex, fs'.isFile (.blob hex) = s.fs.isFile (.blob hex) := by
    intro hex
    rw [InodeFs.isFile, hblobs]
    rfl
  refine h.set ht hl hfits ?_ ?_ ?_ hold
  · intro hex hf
    rw [hsame]
    exact hf
  · intro d hd
    rw [hsame]
    exact hstored d hd
  · intro hex hf
    rw [hsame] at hf
    exact .inl hf

/-- A writer arrives. -/
theorem Account.push (h : Account sha256 s₀ s g) (staging : String) (seq' : Nat) :
    Account sha256 s₀ { s with seq := seq', tasks := s.tasks ++ [.reserved staging] } g where
  fits u task hu := by
    rcases getElem?_push_cases hu with ⟨rfl, rfl⟩ | hu
    · exact h.fresh _ (Nat.le_refl _)
    · exact h.fits u task hu
  fresh u hu := by
    rw [List.length_append] at hu
    exact h.fresh u (by omega)
  kept := h.kept
  stored u task d hu hd := by
    rcases getElem?_push_cases hu with ⟨rfl, rfl⟩ | hu
    · cases hd
    · exact h.stored u task d hu hd
  origin hex hf := by
    rcases h.origin hex hf with hf | ⟨u, d, hu, hd⟩
    · exact .inl hf
    · exact .inr ⟨u, d, getElem?_push_other hu, hd⟩

/-- The comparison of `commit` decides which of the two ways the writer goes. -/
theorem verifyTask_fits {content : Bytes} {w : Writer} {size : Nat} {d : Digest}
    (h : Fits sha256 content (some (size, d)) (.flushed w size d)) :
    Fits sha256 content (some (size, d)) (verifyTask sha256 w size d) := by
  obtain ⟨hcontent, hlen, -⟩ := h
  unfold verifyTask
  split
  · rename_i hne
    refine ⟨size, d, rfl, ?_⟩
    intro hm
    rw [hlen] at hne
    exact hne hm.1
  · rename_i hsize
    have hsize : content.length = size := by
      rw [← hlen]
      exact not_not.1 hsize
    rw [hcontent]
    split
    · rename_i hne
      exact ⟨size, d, rfl, fun hm => hne hm.2⟩
    · rename_i hd
      rw [not_not.1 hd]
      exact ⟨size, rfl, hsize, not_not.1 hd⟩

theorem verifyTask_stored (w : Writer) (size : Nat) (d : Digest) :
    (verifyTask sha256 w size d).stored = none := by
  unfold verifyTask
  split
  · rfl
  · split <;> rfl

/-- **Every step keeps the account**, whichever way a race between two writers goes. -/
theorem account_step {s' : St} (hi : StagingInv sha256 pid s)
    (h : Account sha256 s₀ s g) (hcalm : l.calm = true) (hs : step sha256 pid s l = some s') :
    Account sha256 s₀ s' (g.step l) := by
  cases moves_of_step hs with
  | openWriter _ => exact h.push _ _
  | @create t staging ht =>
    have hfits := h.fits _ _ ht
    refine h.moves ht rfl ?_ ?_ (fun _ hd => by cases hd)
      (fun _ hd => by cases hd)
    · have hempty : 0 = (g.content t).length := by
        rw [hfits.1]
        rfl
      exact ⟨hfits.1.symm, hempty, hfits.2⟩
    · intro hex
      exact InodeFs.createFile_dirent_ne (by simp)
  | @write t _ written n buf hasher _ ht hn =>
    obtain ⟨hcontent, hlen, hexp⟩ := h.fits _ _ ht
    simp only at hcontent hlen
    refine h.moves ht rfl ?_ (fun _ => rfl)
      (fun _ hd => by cases hd) (fun _ hd => by cases hd)
    have hnew : (g.step (.write t buf n)).content t = g.content t ++ buf.take n :=
      Function.update_self ..
    rw [hnew]
    refine ⟨by rw [hcontent], ?_, hexp⟩
    show written + n = _
    rw [List.length_append, List.length_take]
    omega
  | dropWriter ht =>
    obtain rfl := hcalm
    refine h.moves ht rfl (h.fits _ _ ht).2.2 ?_
      (fun _ hd => by cases hd) (fun _ hd => by cases hd)
    intro hex
    exact InodeFs.unlink_dirent_ne (by simp)
  | @commit t w size d ht =>
    obtain ⟨hcontent, hlen, -⟩ := h.fits _ _ ht
    refine h.moves ht rfl ?_ (fun _ => rfl)
      (fun _ hd => by cases hd) (fun _ hd => by cases hd)
    exact ⟨hcontent, hlen, Function.update_self ..⟩
  | verify ht =>
    have hfits := h.fits _ _ ht
    refine h.moves ht rfl ?_ (fun _ => rfl) ?_
      (fun _ hd => by cases hd)
    · have hexp := hfits.2.2
      show Fits sha256 (g.content _) (g.expected _) _
      rw [hexp] at hfits ⊢
      exact verifyTask_fits hfits
    · intro d hd
      rw [verifyTask_stored] at hd
      cases hd
  | reject ht =>
    obtain rfl := hcalm
    have hfits := h.fits _ _ ht
    refine h.moves ht rfl hfits ?_
      (fun _ hd => by cases hd) (fun _ hd => by cases hd)
    intro hex
    exact InodeFs.unlink_dirent_ne (by simp)
  | present ht hfile =>
    have hfits := h.fits _ _ ht
    refine h.moves ht rfl hfits (fun _ => rfl) ?_
      (fun _ hd => by cases hd)
    intro d hd
    cases hd
    exact hfile
  | absent ht _ | createDir ht =>
    have hfits := h.fits _ _ ht
    exact h.moves ht rfl hfits (fun _ => rfl)
      (fun _ hd => by cases hd) (fun _ hd => by cases hd)
  | discard ht =>
    obtain rfl := hcalm
    have hfits := h.fits _ _ ht
    refine h.moves ht rfl hfits ?_ ?_
      (fun _ hd => by cases hd)
    · intro hex
      exact InodeFs.unlink_dirent_ne (by simp)
    -- the blob that was seen is still there
    · intro d hd
      exact h.stored _ _ d ht hd
  | @rename t w d ht =>
    obtain ⟨i, hdirent, -⟩ := hi.intact t _ w ht rfl
    have hsource : s.fs.isFile (.ingest w.staging) = true := by
      rw [InodeFs.isFile, hdirent]
      rfl
    have hothers : ∀ hex, hex ≠ d.hex →
        (s.fs.rename (.ingest w.staging) (.blob d.hex)).isFile (.blob hex) =
          s.fs.isFile (.blob hex) := by
      intro hex hne
      rw [InodeFs.isFile, InodeFs.rename_dirent_ne (by simp) (by simpa using hne)]
      rfl
    have hfits := h.fits _ _ ht
    refine h.set ht rfl hfits ?_ ?_ ?_
      (fun _ hd => by cases hd)
    · intro hex hf
      by_cases heq : hex = d.hex
      · rw [heq]
        exact InodeFs.rename_isFile_target hsource
      · rw [hothers hex heq]
        exact hf
    · intro d' hd
      cases hd
      exact InodeFs.rename_isFile_target hsource
    · intro hex hf
      by_cases heq : hex = d.hex
      · exact .inr ⟨d, rfl, heq.symm⟩
      · rw [hothers hex heq] at hf
        exact .inl hf
  | createFailed _ | commitFailed _ | createDirFailed _ | renameFailed _ | remove _
  | removeAbsent _ | unlink _ | unlinkFailed _ => cases hcalm

end step

/-! ## Whole runs -/

theorem account_run : ∀ (ls : List Label) {s₀ s s' : St} {g : History},
    StagingInv sha256 pid s → Account sha256 s₀ s g → (∀ l ∈ ls, l.calm = true) →
      run (step sha256 pid) s ls = some s' → Account sha256 s₀ s' (ls.foldl History.step g)
  | [], _, _, _, _, _, h, _, hrun => by
    cases hrun
    exact h
  | l :: ls, s₀, s, s', g, hi, h, hcalm, hrun => by
    obtain ⟨t, hs, hrun⟩ := run_cons_some hrun
    have ht := account_step hi h (hcalm l List.mem_cons_self) hs
    exact account_run ls (step_staging hi hs) ht
      (fun l' hl' => hcalm l' (List.mem_cons_of_mem _ hl')) hrun

/-- The calls a commit still has to make. -/
def Task.left : Task → Nat
  | .flushed .. => 4
  | .verified .. => 3
  | .moving .. => 2
  | .rejecting .. | .deduping .. | .renaming .. => 1
  | .reserved _ | .writing _ | .returned _ | .dropped | .removing _ | .removed _ => 0

/-- The commit has returned, or it has calls to make. -/
def Task.committing (task : Task) : Prop := (∃ r, task = .returned r) ∨ 0 < task.left

theorem committing_of_fits {content : Bytes} {size : Nat} {d : Digest} {task : Task}
    (h : Fits sha256 content (some (size, d)) task) : task.committing := by
  cases task with
  | returned r => exact .inl ⟨r, rfl⟩
  | reserved _ => cases h.2
  | writing _ => cases h.2.2
  | dropped => cases h
  | removing _ => cases h
  | removed _ => cases h
  | flushed _ _ _ => exact .inr (by show 0 < 4; omega)
  | verified _ _ => exact .inr (by show 0 < 3; omega)
  | moving _ _ => exact .inr Nat.two_pos
  | _ => exact .inr Nat.one_pos

/-- A call of the commit itself that brings it further. -/
structure NextCall (sha256 : Bytes → Digest) (pid : Nat) (s : St) (t : Nat) (task : Task)
    (l : Label) (fs' : InodeFs StorePath UInt8) (new : Task) : Prop where
  calm : l.calm = true
  own : l.task = some t
  step : step sha256 pid s l = some { s with fs := fs', tasks := s.tasks.set t new }
  left : new.left < task.left
  committing : new.committing

/-- A commit can make its next call in every state. -/
theorem next_call (sha256 : Bytes → Digest) (pid : Nat) {s : St} {t : Nat} {task : Task}
    (ht : s.tasks[t]? = some task) (hleft : 0 < task.left) :
    ∃ l fs' new, NextCall sha256 pid s t task l fs' new := by
  cases task with
  | flushed w size d =>
    have hnew : 0 < (verifyTask sha256 w size d).left ∧ (verifyTask sha256 w size d).left < 4 := by
      unfold verifyTask
      split_ifs
      · exact ⟨Nat.one_pos, by show 1 < 4; omega⟩
      · exact ⟨Nat.one_pos, by show 1 < 4; omega⟩
      · exact ⟨by show 0 < 3; omega, by show 3 < 4; omega⟩
    refine ⟨.verify t, s.fs, _, rfl, rfl, ?_, hnew.2, .inr hnew.1⟩
    simp only [step, ht]
  | rejecting w e =>
    refine ⟨.reject t true, removeFile s.fs (.ingest w.staging) true, .returned (.error e), rfl,
      rfl, ?_, Nat.one_pos, .inl ⟨_, rfl⟩⟩
    simp only [step, ht]
  | verified w d =>
    by_cases hfile : s.fs.isFile (.blob d.hex) = true
    · refine ⟨.probe t, s.fs, .deduping w d, rfl, rfl, ?_, ?_, .inr Nat.one_pos⟩
      · simp only [step, ht, hfile, if_true]
      · show 1 < 3
        omega
    · refine ⟨.probe t, s.fs, .moving w d, rfl, rfl, ?_, ?_, .inr Nat.two_pos⟩
      · simp only [step, ht, hfile]
        rfl
      · show 2 < 3
        omega
  | deduping w d =>
    refine ⟨.discard t true, removeFile s.fs (.ingest w.staging) true, .returned (.ok d), rfl,
      rfl, ?_, Nat.one_pos, .inl ⟨_, rfl⟩⟩
    simp only [step, ht]
  | moving w d =>
    refine ⟨.createDir t true, s.fs, .renaming w d, rfl, rfl, ?_, ?_, .inr Nat.one_pos⟩
    · simp only [step, ht, if_true]
    · show 1 < 2
      omega
  | «renaming» w d =>
    refine ⟨.rename t true, s.fs.rename (.ingest w.staging) (.blob d.hex), .returned (.ok d), rfl,
      rfl, ?_, Nat.one_pos, .inl ⟨_, rfl⟩⟩
    simp only [step, ht, if_true]
  | reserved _ => cases hleft
  | writing _ => cases hleft
  | returned _ => cases hleft
  | dropped => cases hleft
  | removing _ => cases hleft
  | removed _ => cases hleft

/-- A commit can be taken to its end by its own calls. -/
theorem finishes_alone (sha256 : Bytes → Digest) (pid : Nat) (t : Nat) :
    ∀ (n : Nat) (s : St) (task : Task), s.tasks[t]? = some task → task.left ≤ n →
      task.committing →
      ∃ (ls : List Label) (s' : St) (r : Except Error Digest),
        (∀ l ∈ ls, l.calm = true ∧ l.task = some t) ∧ ls.length ≤ n ∧
        run (step sha256 pid) s ls = some s' ∧ s'.tasks[t]? = some (.returned r) := by
  intro n
  induction n with
  | zero =>
    intro s task ht hn hend
    rcases hend with ⟨r, rfl⟩ | hleft
    · exact ⟨[], s, r, by simp, Nat.le_refl _, rfl, ht⟩
    · omega
  | succ n ih =>
    intro s task ht hn hend
    rcases hend with ⟨r, rfl⟩ | hleft
    · exact ⟨[], s, r, by simp, Nat.zero_le _, rfl, ht⟩
    · obtain ⟨l, fs', new, hnext⟩ := next_call sha256 pid ht hleft
      have hlt := hnext.left
      have hnew : (s.tasks.set t new)[t]? = some new :=
        List.getElem?_set_self (List.getElem?_eq_some_iff.1 ht).1
      obtain ⟨ls, s'', r, hls, hlen, hrun, hret⟩ :=
        ih { s with fs := fs', tasks := s.tasks.set t new } new hnew (by omega) hnext.committing
      refine ⟨l :: ls, s'', r, ?_, Nat.succ_le_succ hlen, ?_, hret⟩
      · intro l' hl'
        rcases List.mem_cons.1 hl' with rfl | hl'
        · exact ⟨hnext.calm, hnext.own⟩
        · exact hls l' hl'
      · rw [run, hnext.step]
        exact hrun

/-- **Commits do not depend on the order of the steps.**  At the end of every run: a commit that
    has returned has returned `Ok` with its digest if its writer has written the size and digest it
    expects and an error if not; one that has not returned can, whatever the others have done;
    and where all have, the blobs are those of before and the digests that matched. -/
theorem commits_order_independent (sha256 : Bytes → Digest) (pid : Nat) (s₀ s : St) (h₀ : Idle s₀)
    (ls : List Label) (hcalm : ∀ l ∈ ls, l.calm = true)
    (hrun : run (step sha256 pid) s₀ ls = some s) :
    (∀ (t size : Nat) (d : Digest), (history ls).expected t = some (size, d) →
      (∀ r, s.tasks[t]? = some (.returned r) →
        (Matches sha256 ((history ls).content t) size d → r = .ok d) ∧
        (¬ Matches sha256 ((history ls).content t) size d → ∃ e, r = .error e)) ∧
      ∃ (own : List Label) (s' : St) (r : Except Error Digest),
        (∀ l ∈ own, l.calm = true ∧ l.task = some t) ∧ own.length ≤ 4 ∧
        run (step sha256 pid) s own = some s' ∧ s'.tasks[t]? = some (.returned r)) ∧
    ((∀ t, (history ls).expected t ≠ none → ∃ r, s.tasks[t]? = some (.returned r)) →
      ∀ hex, s.fs.isFile (.blob hex) = true ↔ s₀.fs.isFile (.blob hex) = true ∨
        ∃ (t size : Nat) (d : Digest), (history ls).expected t = some (size, d) ∧
          Matches sha256 ((history ls).content t) size d ∧ d.hex = hex) := by
  have h : Account sha256 s₀ s (history ls) :=
    account_run ls (h₀.inv sha256 pid) (account_start h₀.idle) hcalm hrun
  have hreturned : ∀ (t size : Nat) (d : Digest), (history ls).expected t = some (size, d) →
      ∀ r, s.tasks[t]? = some (.returned r) →
        (Matches sha256 ((history ls).content t) size d → r = .ok d) ∧
        (¬ Matches sha256 ((history ls).content t) size d → ∃ e, r = .error e) := by
    intro t size d hexp r ht
    have hfits := h.fits t _ ht
    rw [hexp] at hfits
    cases r with
    | ok d' =>
      obtain ⟨size', heq, hm⟩ := hfits
      cases heq
      exact ⟨fun _ => rfl, fun hno => absurd hm hno⟩
    | error e =>
      obtain ⟨size', d', heq, hm⟩ := hfits
      cases heq
      exact ⟨fun hyes => absurd hyes hm, fun _ => ⟨e, rfl⟩⟩
  refine ⟨?_, ?_⟩
  · intro t size d hexp
    refine ⟨hreturned t size d hexp, ?_⟩
    have hlt : t < s.tasks.length := by
      by_contra hge
      rw [(h.fresh t (by omega)).2] at hexp
      cases hexp
    obtain ⟨task, ht⟩ : ∃ task, s.tasks[t]? = some task := ⟨_, List.getElem?_eq_getElem hlt⟩
    have hfits := h.fits t task ht
    rw [hexp] at hfits
    refine finishes_alone sha256 pid t 4 s task ht ?_ (committing_of_fits hfits)
    unfold Task.left
    split <;> omega
  · intro hall hex
    constructor
    · intro hf
      rcases h.origin hex hf with hf | ⟨t, d, ht, hd⟩
      · exact .inl hf
      · obtain ⟨size, hexp, hm⟩ := h.fits t _ ht
        exact .inr ⟨t, size, d, hexp, hm, hd⟩
    · rintro (hf | ⟨t, size, d, hexp, hm, rfl⟩)
      · exact h.kept hex hf
      · obtain ⟨r, ht⟩ := hall t (by rw [hexp]; simp)
        obtain rfl := (hreturned t size d hexp r ht).1 hm
        exact h.stored t _ d ht rfl

/-- Two writers of the empty blob that both find none and both rename. -/
def raceSchedule : List Label :=
  [.openWriter "", .openWriter "", .create 0 true, .create 1 true, .commit 0 0 emptyDigest true,
    .commit 1 0 emptyDigest true, .verify 0, .verify 1, .probe 0, .probe 1, .createDir 0 true,
    .createDir 1 true, .rename 0 true, .rename 1 true]

/-- Whoever comes second returns `Ok` too. -/
theorem race_both_commit :
    ∃ s, run (step (fun _ => emptyDigest) 1) emptyStore raceSchedule = some s ∧
      ∀ r, s.tasks[1]? = some (.returned r) → r = .ok emptyDigest := by
  have hsome : (run (step (fun _ => emptyDigest) 1) emptyStore raceSchedule).isSome = true := by
    decide
  obtain ⟨s, hs⟩ := Option.isSome_iff_exists.1 hsome
  refine ⟨s, hs, ?_⟩
  intro r hr
  have hboth := commits_order_independent (fun _ => emptyDigest) 1 emptyStore s
    opened_emptyStore.idleStore raceSchedule (by decide) hs
  exact ((hboth.1 1 0 emptyDigest rfl).1 r hr).1 ⟨rfl, rfl⟩

end ContainerdRs.Content
