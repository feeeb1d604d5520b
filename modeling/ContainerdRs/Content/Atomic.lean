import ContainerdRs.Content.Integrity

/-!
# The content store is a map from digests to contents

What the store is for: blobs are put under the sha256 of their contents, found, and deleted.  Every
run of the store, with any interleaving of its file-system calls and any of them failing, is a
run of this map: each commit and each removal takes effect at once, at one of its own steps, and one
that fails does not take effect.

* `Op`, `mapStep` — the map.
* `effect` — the steps at which something takes effect.
* `view_step` — such a step is one of the map, and every other leaves the map alone.
* `Took` — what a task has done to the map, by where it stands.
* `blobs_refine_map` — for every run.
-/

set_option autoImplicit false

namespace ContainerdRs.Content

open Transition

/-! ## The map -/

/-- The contents of the blobs, by the digits of their digests. -/
abbrev Blobs := String → Option Bytes

/-- The operations of the map. -/
inductive Op where
  | put (bytes : Bytes)
  /-- The blob is there already. -/
  | find (d : Digest)
  | delete (d : Digest)
  deriving DecidableEq

/-- One operation of the map; only what is there is found. -/
def mapStep (sha256 : Bytes → Digest) (m : Blobs) : Op → Option Blobs
  | .put bytes => some (Function.update m (sha256 bytes).hex (some bytes))
  | .find d => if (m d.hex).isSome then some m else none
  | .delete d => some (Function.update m d.hex none)

/-- The blobs of the store. -/
def view (s : St) : Blobs := fun hex => s.fs.read (.blob hex)

/-! ## Where it takes effect -/

/-- What a step does to the map, and for which task. -/
def effect (s : St) : Label → Option (Nat × Op)
  | .probe t =>
    match s.tasks[t]? with
    | some (.verified _ d) => if s.fs.isFile (.blob d.hex) then some (t, .find d) else none
    | _ => none
  | .rename t true =>
    match s.tasks[t]? with
    | some (.renaming w _) => some (t, .put w.hasher)
    | _ => none
  | .unlink t true =>
    match s.tasks[t]? with
    | some (.removing d) => some (t, .delete d)
    | _ => none
  | _ => none

/-- What a run does to the map. -/
def effects (sha256 : Bytes → Digest) (pid : Nat) (s : St) (ls : List Label) : List (Nat × Op) :=
  (steps (step sha256 pid) s ls).filterMap fun x => effect x.1 x.2.1

variable {sha256 : Bytes → Digest} {pid : Nat} {s s' : St} {l : Label}

theorem view_same (hi : StagingInv sha256 pid s) (hstep : step sha256 pid s l = some s')
    (hdirent : ∀ hex, s'.fs.dirent (.blob hex) = s.fs.dirent (.blob hex)) : view s' = view s := by
  funext hex
  rw [view, view, InodeFs.read, InodeFs.read, hdirent]
  cases hd : s.fs.dirent (.blob hex) with
  | none => rfl
  | some i => rw [Option.map_some, Option.map_some, step_blob_data hi hstep hd]

/-- **A step is an operation of the map, or leaves the map alone.** -/
theorem view_step (hi : StagingInv sha256 pid s) (hstep : step sha256 pid s l = some s') :
    match effect s l with
    | none => view s' = view s
    | some e => mapStep sha256 (view s) e.2 = some (view s') := by
  have hdelete : ∀ (name : String) (ok : Bool) (hex : String),
      (removeFile s.fs (.ingest name) ok).dirent (.blob hex) = s.fs.dirent (.blob hex) := by
    intro name ok hex
    cases ok with
    | false => rfl
    | true => exact InodeFs.unlink_dirent_ne (by simp)
  cases moves_of_step hstep with
  | create ht =>
    exact view_same hi hstep fun hex => InodeFs.createFile_dirent_ne (by simp)
  | dropWriter _ | reject _ | discard _ => exact view_same hi hstep fun hex => hdelete _ _ hex
  | present ht hfile =>
    simp only [effect, ht, hfile, if_true, mapStep]
    rw [if_pos]
    · rfl
    · simpa [view, InodeFs.read, InodeFs.isFile] using hfile
  | absent ht hfile =>
    simp only [effect, ht, hfile]
    rfl
  | @rename t w d ht =>
    obtain ⟨i, hdir, hdata, -⟩ := hi.intact t _ w ht rfl
    have hdig : sha256 w.hasher = d := hi.digest t _ w d ht rfl
    simp only [effect, ht, mapStep, Option.some.injEq, hdig]
    funext hex
    by_cases hhex : hex = d.hex
    · subst hhex
      have hnew :
          (s.fs.rename (.ingest w.staging) (.blob d.hex)).dirent (.blob d.hex) = some i := by
        simp [InodeFs.rename, hdir]
      simp [view, InodeFs.read, hnew, InodeFs.rename_data, hdata]
    · rw [Function.update_of_ne hhex, view, view, InodeFs.read, InodeFs.read,
        InodeFs.rename_dirent_ne (by simp) (by simpa using hhex), InodeFs.rename_data]
  | @unlink t d ht =>
    simp only [effect, ht, mapStep, Option.some.injEq]
    funext hex
    by_cases hhex : hex = d.hex
    · subst hhex
      simp [view, InodeFs.read, InodeFs.unlink]
    · rw [Function.update_of_ne hhex, view, view, InodeFs.read, InodeFs.read,
        InodeFs.unlink_dirent_ne (by simpa using hhex)]
      rfl
  | _ => exact view_same hi hstep fun _ => rfl

/-! ## What a task has done -/

variable (sha256) in
/-- The operations of a task, by where it stands. -/
def Took (ops : List Op) : Task → Prop
  | .returned (.ok d) => (∃ bytes, ops = [.put bytes] ∧ sha256 bytes = d) ∨ ops = [.find d]
  | .deduping _ d => ops = [.find d]
  | .removed (.ok true) => ∃ d, ops = [.delete d]
  | _ => ops = []

/-- The operations of the task `t`. -/
def opsOf (t : Nat) (es : List (Nat × Op)) : List Op :=
  es.filterMap fun e => if e.1 = t then some e.2 else none

variable (sha256) in
/-- Every task has done to the map what it should have. -/
structure Done (s : St) (es : List (Nat × Op)) : Prop where
  took : ∀ (t : Nat) (task : Task), s.tasks[t]? = some task → Took sha256 (opsOf t es) task
  fresh : ∀ t, s.tasks.length ≤ t → opsOf t es = []

variable {es : List (Nat × Op)} {t : Nat} {old new : Task}

theorem opsOf_append (t : Nat) (es es' : List (Nat × Op)) :
    opsOf t (es ++ es') = opsOf t es ++ opsOf t es' := List.filterMap_append

/-- A task moves, and does something or nothing to the map. -/
theorem Done.set (h : Done sha256 s es) (ht : s.tasks[t]? = some old) (op : Option Op)
    (htook : ∀ ops, Took sha256 ops old → Took sha256 (ops ++ op.toList) new)
    (fs' : InodeFs StorePath UInt8) :
    Done sha256 { s with fs := fs', tasks := s.tasks.set t new }
      (es ++ (op.map fun o => (t, o)).toList) where
  took u task hu := by
    rw [opsOf_append]
    rcases getElem?_set_cases hu with ⟨rfl, rfl⟩ | ⟨hne, hu⟩
    · have hown : opsOf u (op.map fun o => (u, o)).toList = op.toList := by
        cases op <;> simp [opsOf]
      rw [hown]
      exact htook _ (h.took u old ht)
    · have hother : opsOf u (op.map fun o => (t, o)).toList = [] := by
        cases op <;> simp [opsOf, Ne.symm hne]
      rw [hother, List.append_nil]
      exact h.took u task hu
  fresh u hu := by
    rw [List.length_set] at hu
    have hlt := (List.getElem?_eq_some_iff.1 ht).1
    have hne : t ≠ u := by omega
    rw [opsOf_append, h.fresh u hu]
    cases op <;> simp [opsOf, hne]

/-- A task moves, and the map stays. -/
theorem Done.quiet (h : Done sha256 s es) (ht : s.tasks[t]? = some old)
    (htook : ∀ ops, Took sha256 ops old → Took sha256 ops new) (fs' : InodeFs StorePath UInt8) :
    Done sha256 { s with fs := fs', tasks := s.tasks.set t new } es := by
  have hset : Done sha256 { s with fs := fs', tasks := s.tasks.set t new } (es ++ _) :=
    h.set ht none (fun ops ho => by simpa using htook ops ho) fs'
  simpa using hset

/-- A task arrives. -/
theorem Done.push (h : Done sha256 s es) (hnew : Took sha256 [] new) (seq' : Nat) :
    Done sha256 { s with seq := seq', tasks := s.tasks ++ [new] } es where
  took u task hu := by
    rcases getElem?_push_cases hu with ⟨rfl, rfl⟩ | hu
    · rw [h.fresh _ (Nat.le_refl _)]
      exact hnew
    · exact h.took u task hu
  fresh u hu := by
    rw [List.length_append] at hu
    exact h.fresh u (by omega)

/-- **One step**: what it does to the map is what the task has done next. -/
theorem done_step (hi : StagingInv sha256 pid s) (h : Done sha256 s es)
    (hstep : step sha256 pid s l = some s') : Done sha256 s' (es ++ (effect s l).toList) := by
  -- most steps do nothing to the map
  have hnone : effect s l = none → Done sha256 s' es →
      Done sha256 s' (es ++ (effect s l).toList) := by
    intro he hd
    rw [he]
    simpa using hd
  cases moves_of_step hstep with
  | openWriter _ | remove _ | removeAbsent _ =>
    refine hnone rfl (h.push ?_ _)
    rfl
  | create ht | write ht _ | dropWriter ht | commit ht | reject ht | createDir ht
  | createFailed ht | commitFailed ht | createDirFailed ht | renameFailed ht | unlinkFailed ht =>
    refine hnone rfl (h.quiet ht ?_ _)
    exact fun _ ho => ho
  | @verify _ w size d ht =>
    refine hnone rfl (h.quiet ht ?_ _)
    intro ops ho
    unfold verifyTask
    split
    · exact ho
    · split <;> exact ho
  | @absent t w d ht hfile =>
    have he : effect s (.probe t) = none := by simp [effect, ht, hfile]
    refine hnone he (h.quiet ht ?_ _)
    exact fun _ ho => ho
  | discard ht =>
    refine hnone rfl (h.quiet ht ?_ _)
    exact fun _ ho => .inr ho
  | @present t w d ht hfile =>
    have he : effect s (.probe t) = some (t, .find d) := by simp [effect, ht, hfile]
    rw [he]
    refine h.set ht (some (.find d)) ?_ _
    intro ops ho
    obtain rfl : ops = [] := ho
    rfl
  | @rename t w d ht =>
    have he : effect s (.rename t true) = some (t, .put w.hasher) := by simp [effect, ht]
    have hdig : sha256 w.hasher = d := hi.digest t _ w d ht rfl
    rw [he]
    refine h.set ht (some (.put w.hasher)) ?_ _
    intro ops ho
    obtain rfl : ops = [] := ho
    exact .inl ⟨w.hasher, rfl, hdig⟩
  | @unlink t d ht =>
    have he : effect s (.unlink t true) = some (t, .delete d) := by simp [effect, ht]
    rw [he]
    refine h.set ht (some (.delete d)) ?_ _
    intro ops ho
    obtain rfl : ops = [] := ho
    exact ⟨d, rfl⟩

/-! ## Whole runs -/

theorem effects_cons {ls : List Label} (hstep : step sha256 pid s l = some s') :
    effects sha256 pid s (l :: ls) = (effect s l).toList ++ effects sha256 pid s' ls := by
  rw [effects, steps_cons ls hstep, List.filterMap_cons]
  cases effect s l <;> rfl

theorem view_run : ∀ {ls : List Label} {s s' : St}, StagingInv sha256 pid s →
    run (step sha256 pid) s ls = some s' →
    run (mapStep sha256) (view s) ((effects sha256 pid s ls).map Prod.snd) = some (view s')
  | [], s, s', _, hrun => by
    cases hrun
    rfl
  | l :: ls, s, s', hi, hrun => by
    obtain ⟨mid, hstep, hrest⟩ := run_cons_some hrun
    have hview := view_step hi hstep
    have ih := view_run (step_staging hi hstep) hrest
    rw [effects_cons hstep]
    cases he : effect s l with
    | none =>
      rw [he] at hview
      rw [← hview]
      exact ih
    | some e =>
      rw [he] at hview
      simp only [Option.toList_some, List.singleton_append, List.map_cons, run, hview]
      exact ih

theorem done_run : ∀ {ls : List Label} {s s' : St} {es : List (Nat × Op)},
    StagingInv sha256 pid s → Done sha256 s es → run (step sha256 pid) s ls = some s' →
    Done sha256 s' (es ++ effects sha256 pid s ls)
  | [], s, s', es, _, h, hrun => by
    cases hrun
    simpa [effects, steps] using h
  | l :: ls, s, s', es, hi, h, hrun => by
    obtain ⟨mid, hstep, hrest⟩ := run_cons_some hrun
    rw [effects_cons hstep, ← List.append_assoc]
    exact done_run (step_staging hi hstep) (done_step hi h hstep) hrest

/-- **The store refines the map.**  Every run, whatever the order of its calls and whichever of
    them fail, is a run of the map on the blobs.  A commit that has returned `Ok` has put its bytes
    or found a blob there, once; a removal that has returned `true` has deleted once; no other call
    that is over, failed ones among them, has done anything. -/
theorem blobs_refine_map {s₀ s : St} (h₀ : Idle s₀) {ls : List Label}
    (hrun : run (step sha256 pid) s₀ ls = some s) :
    run (mapStep sha256) (view s₀) ((effects sha256 pid s₀ ls).map Prod.snd) = some (view s) ∧
      ∀ t task, s.tasks[t]? = some task →
        Took sha256 (opsOf t (effects sha256 pid s₀ ls)) task := by
  have hi := h₀.inv sha256 pid
  have hdone : Done sha256 s₀ [] := by
    refine ⟨fun t task ht => ?_, fun t _ => rfl⟩
    rw [h₀.idle] at ht
    cases ht
  refine ⟨view_run hi hrun, fun t task ht => ?_⟩
  have h := done_run hi hdone hrun
  rw [List.nil_append] at h
  exact h.took t task ht

/-- The empty blob is stored, stored again and removed. -/
def againAndGone : List Label :=
  emptyBlobSchedule ++ [.openWriter "", .create 1 true, .commit 1 0 emptyDigest true, .verify 1,
    .probe 1, .discard 1 true, .remove emptyDigest, .unlink 2 true]

theorem again_and_gone : ∃ s,
    run (step (fun _ => emptyDigest) 1) emptyStore againAndGone = some s ∧
    run (mapStep fun _ => emptyDigest) (view emptyStore)
      [.put [], .find emptyDigest, .delete emptyDigest] = some (view s) := by
  have hsome : (run (step (fun _ => emptyDigest) 1) emptyStore againAndGone).isSome = true := by
    decide +kernel
  obtain ⟨s, hs⟩ := Option.isSome_iff_exists.1 hsome
  have heffects : (effects (fun _ => emptyDigest) 1 emptyStore againAndGone).map Prod.snd =
      [.put [], .find emptyDigest, .delete emptyDigest] := by decide +kernel
  have hmap := (blobs_refine_map opened_emptyStore.idleStore hs).1
  rw [heffects] at hmap
  exact ⟨s, hs, hmap⟩

end ContainerdRs.Content
