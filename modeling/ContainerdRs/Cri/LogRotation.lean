import Mathlib.Algebra.BigOperators.Group.Finset.Piecewise
import ContainerdRs.Lib.InodeFs
import ContainerdRs.Lib.Transition
import ContainerdRs.Cri.Log

/-!
# Log rotation (`supervise_container`, `pump_stream`, `reopen_container_log`)

The two pumps of a container write through one file handle behind a mutex.  The supervisor
creates the file, the kubelet renames it away, and a ReopenContainerLog call creates a file at
the path — before it takes the mutex — and then swaps it in.  `File::create` truncates what it
finds at the path, and a handle writes at an offset of its own: there is no `O_APPEND`.

* `Lossless` — the files the log has lived in hold every line once, whole and in order.
* `step_cases` — what a step can do.
* `Lossless.balance` — then the files are exactly as long as the lines.
* `rotation_lossless_iff` — over every run, when no line is lost.
* `reopen_truncates` — a second call without a rename in between empties the log.
-/

set_option autoImplicit false

namespace ContainerdRs.Cri.LogRotation

open Transition

/-! ## The parties -/

/-- A `tokio::fs::File`: the file behind it and where the next write goes.  What it has taken
    counts as written. -/
structure Handle where
  inode : Nat
  offset : Nat
  deriving DecidableEq, Repr

/-- The log handle of the container. -/
inductive Log where
  /-- The supervisor has not created the file yet. -/
  | pending
  /-- `register_log`; the mutex holds `None` when `File::create` has failed. -/
  | registered (file : Option Handle)
  /-- `close_log`: the container has exited. -/
  | closed
  deriving DecidableEq, Repr

structure St where
  fs : InodeFs String UInt8
  log : Log
  /-- The files that have been in the mutex, the present one last. -/
  lived : List Nat
  /-- ReopenContainerLog calls that have opened their file and not got the mutex yet. -/
  opened : List Handle
  /-- The output of `cri_log_line`, in the order of the calls. -/
  formatted : List (Stream × Bytes)
  /-- What a pump has formatted and not written yet. -/
  waiting : Stream → Option Bytes
  /-- The pump that holds the mutex, and the bytes of its line that are written. -/
  writing : Option (Stream × Nat)

/-- The container is being started. -/
def St.start (fs : InodeFs String UInt8) : St := ⟨fs, .pending, [], [], [], fun _ => none, none⟩

/-- Who moves, with the choices of the environment. -/
inductive Label where
  /-- The supervisor's `File::create`. -/
  | create (ok : Bool)
  /-- A pump has read a chunk. -/
  | format (stream : Stream) (ts : Timestamp) (chunk : Bytes)
  /-- A pump gets the mutex. -/
  | lock (stream : Stream)
  /-- A part of `write_all` takes `n` bytes. -/
  | wrote (n : Nat)
  /-- `write_all` returns, and the mutex is free. -/
  | unlock
  | writeFailed
  /-- The kubelet renames the log file. -/
  | rename (target : String)
  /-- `File::create` of a ReopenContainerLog call. -/
  | reopen
  /-- The rest of the call. -/
  | swap (call : Nat)
  /-- The pumps have returned and the supervisor closes the log. -/
  | exit

/-- One step; the log is at `path`. -/
def step (path : String) (s : St) : Label → Option St
  | .create ok =>
    if s.log = .pending then
      if ok then
        some { s with
          fs := (s.fs.createFile path).2
          log := .registered (some ⟨(s.fs.createFile path).1, 0⟩)
          lived := s.lived ++ [(s.fs.createFile path).1] }
      else some { s with log := .registered none }
    else none
  | .format stream ts chunk =>
    match s.log with
    | .registered _ =>
      if s.waiting stream = none ∧ chunk ≠ [] then
        -- blank lines give no text, and writing that does nothing
        if criLogLine ts stream chunk = [] then some s
        else
          some { s with
            formatted := s.formatted ++ [(stream, criLogLine ts stream chunk)]
            waiting := Function.update s.waiting stream (some (criLogLine ts stream chunk)) }
      else none
    | _ => none
  | .lock stream =>
    if s.writing = none ∧ s.waiting stream ≠ none then
      match s.log with
      | .registered (some _) => some { s with writing := some (stream, 0) }
      | .registered none => some { s with waiting := Function.update s.waiting stream none }
      | _ => none
    else none
  | .wrote n =>
    match s.writing, s.log with
    | some (stream, k), .registered (some h) =>
      match s.waiting stream with
      | some line =>
        if 0 < n ∧ k + n ≤ line.length then
          some { s with
            fs := s.fs.writeAt 0 h.inode h.offset ((line.drop k).take n)
            log := .registered (some ⟨h.inode, h.offset + n⟩)
            writing := some (stream, k + n) }
        else none
      | none => none
    | _, _ => none
  | .unlock =>
    match s.writing with
    | some (stream, k) =>
      if (s.waiting stream).map List.length = some k then
        some { s with waiting := Function.update s.waiting stream none, writing := none }
      else none
    | none => none
  | .writeFailed =>
    match s.writing with
    | some (stream, k) =>
      if ((s.waiting stream).map List.length).any (k < ·) then
        some { s with waiting := Function.update s.waiting stream none, writing := none }
      else none
    | none => none
  | .rename target => if target = path then none else some { s with fs := s.fs.rename path target }
  | .reopen =>
    some { s with
      fs := (s.fs.createFile path).2
      opened := s.opened ++ [⟨(s.fs.createFile path).1, 0⟩] }
  | .swap call =>
    match s.opened[call]? with
    | none => none
    | some h =>
      match s.log with
      | .registered _ =>
        if s.writing = none then
          some { s with
            log := .registered (some h)
            lived := s.lived ++ [h.inode]
            opened := s.opened.eraseIdx call }
        else none
      -- no handle is registered: the file is dropped
      | _ => some { s with opened := s.opened.eraseIdx call }
  | .exit =>
    match s.log with
    | .registered _ =>
      if s.writing = none ∧ s.waiting .stdout = none ∧ s.waiting .stderr = none then
        some { s with log := .closed }
      else none
    | _ => none

/-! ## What is promised -/

/-- The file in the mutex. -/
def Log.current : Log → Option Nat
  | .registered (some h) => some h.inode
  | _ => none

/-- What a pump has written of the line it is at. -/
def St.inFlight (s : St) : Bytes :=
  match s.writing with
  | some (stream, k) => ((s.waiting stream).getD []).take k
  | none => []

/-- The lines of one stream. -/
def linesOf (stream : Stream) (lines : List (Stream × Bytes)) : List Bytes :=
  (lines.filter (·.1 = stream)).map Prod.snd

/-- The text of lines. -/
def textOf (lines : List (Stream × Bytes)) : Bytes := lines.flatMap Prod.snd

/-- What stands in file `i` when the log has lived in the files of `parts`, one after the other,
    and each part was written to its file. -/
def contents (parts : List (Nat × List (Stream × Bytes))) (i : Nat) : Bytes :=
  (parts.filter (·.1 = i)).flatMap fun part => textOf part.2

/-- `parts` says which lines went to which file. -/
structure Placed (s : St) (parts : List (Nat × List (Stream × Bytes))) : Prop where
  files : parts.map Prod.fst = s.lived
  whole : ∀ i ∈ s.lived, s.fs.data i =
    contents parts i ++ if s.log.current = some i then s.inFlight else []
  each : ∀ stream, linesOf stream s.formatted =
    linesOf stream (parts.flatMap Prod.snd) ++ (s.waiting stream).toList

/-- The files the log has lived in, taken in that order, hold every line that was formatted, and
    is not about to be written, exactly once: whole, and each stream's lines in order. -/
def Lossless (s : St) : Prop := ∃ parts, Placed s parts

/-- When a step loses nothing, seen from the state before it. -/
def Ok (path : String) (s : St) : Label → Prop
  -- what `File::create` finds at the path is not a file of the log, or it is empty
  | .reopen => ∀ i ∈ s.lived, s.fs.dirent path = some i → s.fs.data i = []
  | .lock _ => s.log ≠ .registered none
  -- the handle stands at the end of its file
  | .wrote _ => ∀ h, s.log = .registered (some h) → h.offset = (s.fs.data h.inode).length
  | .writeFailed => False
  | _ => True

/-! ## What a step can do -/

/-- The steps, one constructor for each branch. -/
inductive Moves (path : String) (s : St) : Label → St → Prop where
  | created (hlog : s.log = .pending) : Moves path s (.create true)
      { s with
        fs := (s.fs.createFile path).2
        log := .registered (some ⟨(s.fs.createFile path).1, 0⟩)
        lived := s.lived ++ [(s.fs.createFile path).1] }
  | notCreated (hlog : s.log = .pending) :
      Moves path s (.create false) { s with log := .registered none }
  | blank {file : Option Handle} {stream : Stream} {ts : Timestamp} {chunk : Bytes}
      (hlog : s.log = .registered file) (hline : criLogLine ts stream chunk = []) :
      Moves path s (.format stream ts chunk) s
  | formatted {file : Option Handle} {stream : Stream} {ts : Timestamp} {chunk line : Bytes}
      (hlog : s.log = .registered file) (hwait : s.waiting stream = none) (hne : line ≠ [])
      (hline : criLogLine ts stream chunk = line) :
      Moves path s (.format stream ts chunk)
        { s with
          formatted := s.formatted ++ [(stream, line)]
          waiting := Function.update s.waiting stream (some line) }
  | locked {stream : Stream} {line : Bytes} {h : Handle} (hlog : s.log = .registered (some h))
      (hwait : s.waiting stream = some line) (hfree : s.writing = none) :
      Moves path s (.lock stream) { s with writing := some (stream, 0) }
  | unloggable {stream : Stream} {line : Bytes} (hlog : s.log = .registered none)
      (hwait : s.waiting stream = some line) (hfree : s.writing = none) :
      Moves path s (.lock stream) { s with waiting := Function.update s.waiting stream none }
  | wrote {stream : Stream} {k n : Nat} {line : Bytes} {h : Handle}
      (hlog : s.log = .registered (some h)) (hwait : s.waiting stream = some line)
      (hwriting : s.writing = some (stream, k)) (hn : 0 < n) (hle : k + n ≤ line.length) :
      Moves path s (.wrote n)
        { s with
          fs := s.fs.writeAt 0 h.inode h.offset ((line.drop k).take n)
          log := .registered (some ⟨h.inode, h.offset + n⟩)
          writing := some (stream, k + n) }
  | unlocked {stream : Stream} {line : Bytes} (hwait : s.waiting stream = some line)
      (hwriting : s.writing = some (stream, line.length)) :
      Moves path s .unlock
        { s with waiting := Function.update s.waiting stream none, writing := none }
  | writeFailed {stream : Stream} {k : Nat} {line : Bytes} (hwait : s.waiting stream = some line)
      (hwriting : s.writing = some (stream, k)) (hlt : k < line.length) :
      Moves path s .writeFailed
        { s with waiting := Function.update s.waiting stream none, writing := none }
  | renamed {target : String} (hne : target ≠ path) :
      Moves path s (.rename target) { s with fs := s.fs.rename path target }
  | reopened : Moves path s .reopen
      { s with
        fs := (s.fs.createFile path).2
        opened := s.opened ++ [⟨(s.fs.createFile path).1, 0⟩] }
  | swapped {call : Nat} {h : Handle} {file : Option Handle} (hcall : s.opened[call]? = some h)
      (hlog : s.log = .registered file) (hfree : s.writing = none) :
      Moves path s (.swap call)
        { s with
          log := .registered (some h)
          lived := s.lived ++ [h.inode]
          opened := s.opened.eraseIdx call }
  | dropped {call : Nat} {h : Handle} (hcall : s.opened[call]? = some h)
      (hlog : ∀ file, s.log ≠ .registered file) :
      Moves path s (.swap call) { s with opened := s.opened.eraseIdx call }
  | exited {file : Option Handle} (hlog : s.log = .registered file) (hfree : s.writing = none) :
      Moves path s .exit { s with log := .closed }

theorem moves_of_step {path : String} {s s' : St} {l : Label} (h : step path s l = some s') :
    Moves path s l s' := by
  cases l with
  | create ok =>
    simp only [step] at h
    split at h
    · rename_i hlog
      cases ok with
      | true => cases h; exact .created hlog
      | false => cases h; exact .notCreated hlog
    · cases h
  | format stream ts chunk =>
    simp only [step] at h
    split at h
    · rename_i file hlog
      split at h
      · rename_i hwait
        split at h
        · rename_i hline
          cases h
          exact .blank hlog hline
        · rename_i hne
          cases h
          exact .formatted hlog hwait.1 hne rfl
      · cases h
    · cases h
  | lock stream =>
    simp only [step] at h
    split at h
    · rename_i hguard
      obtain ⟨line, hwait⟩ := Option.ne_none_iff_exists'.1 hguard.2
      split at h
      · rename_i hlog
        cases h
        exact .locked hlog hwait hguard.1
      · rename_i hlog
        cases h
        exact .unloggable hlog hwait hguard.1
      · cases h
    · cases h
  | wrote n =>
    simp only [step] at h
    split at h
    · rename_i hwriting hlog
      split at h
      · rename_i hwait
        split at h
        · rename_i hn
          cases h
          exact .wrote hlog hwait hwriting hn.1 hn.2
        · cases h
      · cases h
    · cases h
  | unlock =>
    simp only [step] at h
    split at h
    · rename_i hwriting
      split at h
      · rename_i hlen
        obtain ⟨line, hwait, rfl⟩ := Option.map_eq_some_iff.1 hlen
        cases h
        exact .unlocked hwait hwriting
      · cases h
    · cases h
  | writeFailed =>
    simp only [step] at h
    split at h
    · rename_i stream k hwriting
      split at h
      · rename_i hlen
        cases h
        cases hwait : s.waiting stream with
        | none => simp [hwait] at hlen
        | some line =>
          simp only [hwait, Option.map_some, Option.any_some, decide_eq_true_eq] at hlen
          exact .writeFailed hwait hwriting hlen
      · cases h
    · cases h
  | rename target =>
    simp only [step] at h
    split at h
    · cases h
    · rename_i hne
      cases h
      exact .renamed hne
  | reopen =>
    cases h
    exact .reopened
  | swap call =>
    simp only [step] at h
    split at h
    · cases h
    · rename_i hcall
      split at h
      · rename_i hlog
        split at h
        · rename_i hfree
          cases h
          exact .swapped hcall hlog hfree
        · cases h
      · rename_i hlog
        cases h
        exact .dropped hcall hlog
  | exit =>
    simp only [step] at h
    split at h
    · rename_i hlog
      split at h
      · rename_i hguard
        cases h
        exact .exited hlog hguard.1
      · cases h
    · cases h

/-! ## What every state is like -/

/-- Kept by every step, also by those that lose something. -/
structure Base (s : St) : Prop where
  wellFormed : s.fs.WellFormed
  known : ∀ i ∈ s.lived, i < s.fs.next
  openedKnown : ∀ h ∈ s.opened, h.inode < s.fs.next
  /-- Nobody but the pumps writes. -/
  openedEmpty : ∀ h ∈ s.opened, h.inode ∈ s.lived ∨ s.fs.data h.inode = []
  last : ∀ i, s.log.current = some i → s.lived.getLast? = some i
  pending : s.log = .pending → s.lived = []
  holder : ∀ stream k, s.writing = some (stream, k) →
    s.log.current ≠ none ∧ ∃ line, s.waiting stream = some line ∧ k ≤ line.length
  text : ∀ stream line, s.waiting stream = some line → line ≠ []

theorem base_start {fs : InodeFs String UInt8} (hfs : fs.WellFormed) : Base (St.start fs) where
  wellFormed := hfs
  known _ h := by cases h
  openedKnown _ h := by cases h
  openedEmpty _ h := by cases h
  last _ h := by cases h
  pending _ := rfl
  holder _ _ h := by cases h
  text _ _ h := by cases h

theorem Base.current_mem {s : St} (hb : Base s) {i : Nat} (h : s.log.current = some i) :
    i ∈ s.lived :=
  List.mem_of_getLast? (hb.last i h)

/-- Without a file nobody holds the mutex. -/
theorem Base.free {s : St} (hb : Base s) (hcur : s.log.current = none) : s.writing = none := by
  cases hw : s.writing with
  | none => rfl
  | some w => exact absurd hcur (hb.holder w.1 w.2 hw).1

/-- One pump has nothing left to write. -/
theorem Base.text_update_none {s : St} (hb : Base s) {stream : Stream} (stream' : Stream)
    (line : Bytes) (h : Function.update s.waiting stream none stream' = some line) : line ≠ [] := by
  rw [Function.update_apply] at h
  split at h
  · cases h
  · exact hb.text stream' line h

theorem base_step {path : String} {s s' : St} {l : Label} (hb : Base s)
    (h : step path s l = some s') : Base s' := by
  have hge : s.fs.next ≤ (s.fs.createFile path).2.next := InodeFs.createFile_next_le path
  have hlt := InodeFs.createFile_fst_lt hb.wellFormed path
  cases moves_of_step h with
  | created hlog =>
    have hnil := hb.pending hlog
    refine ⟨InodeFs.createFile_wellFormed hb.wellFormed path, ?_, ?_, ?_, ?_, ?_, ?_, hb.text⟩
    · intro i hi
      simp only [hnil, List.nil_append, List.mem_singleton] at hi
      exact hi ▸ hlt
    · intro c hc
      exact (hb.openedKnown c hc).trans_le hge
    · intro c hc
      by_cases hci : c.inode = (s.fs.createFile path).1
      · exact .inl (by simp [hci])
      · refine .inr ?_
        rw [InodeFs.createFile_data_ne path hci]
        exact (hb.openedEmpty c hc).resolve_left (by simp [hnil])
    · intro i hi
      cases hi
      exact List.getLast?_concat
    · intro hp
      cases hp
    · intro stream k hw
      exact ⟨nofun, (hb.holder stream k hw).2⟩
  | notCreated hlog =>
    refine ⟨hb.wellFormed, hb.known, hb.openedKnown, hb.openedEmpty, nofun, nofun, ?_, hb.text⟩
    intro stream k hw
    exact absurd (by rw [hlog]; rfl) (hb.holder stream k hw).1
  | blank => exact hb
  | formatted hlog hwait hne _ =>
    refine ⟨hb.wellFormed, hb.known, hb.openedKnown, hb.openedEmpty, hb.last, hb.pending, ?_, ?_⟩
    · intro stream' k hw
      obtain ⟨hcur, line', hline', hk⟩ := hb.holder stream' k hw
      refine ⟨hcur, line', ?_, hk⟩
      simp only [Function.update_apply]
      rw [if_neg, hline']
      rintro rfl
      rw [hwait] at hline'
      cases hline'
    · intro stream' line' h'
      simp only [Function.update_apply] at h'
      split at h'
      · cases h'
        exact hne
      · exact hb.text stream' line' h'
  | locked hlog hwait _ =>
    refine ⟨hb.wellFormed, hb.known, hb.openedKnown, hb.openedEmpty, hb.last, hb.pending, ?_,
      hb.text⟩
    intro stream' k hw
    cases hw
    exact ⟨by rw [hlog]; nofun, _, hwait, Nat.zero_le _⟩
  | unloggable _ _ hfree =>
    refine ⟨hb.wellFormed, hb.known, hb.openedKnown, hb.openedEmpty, hb.last, hb.pending, ?_,
      hb.text_update_none⟩
    intro stream' k hw
    rw [hfree] at hw
    cases hw
  | @wrote stream k n line c hlog hwait hwriting hn hle =>
    have hcur : s.log.current = some c.inode := by rw [hlog]; rfl
    refine ⟨⟨hb.wellFormed.inj, hb.wellFormed.fresh⟩, hb.known, hb.openedKnown, ?_, ?_, nofun, ?_,
      hb.text⟩
    · intro d hd
      by_cases hdc : d.inode = c.inode
      · exact .inl (by rw [hdc]; exact hb.current_mem hcur)
      · refine (hb.openedEmpty d hd).imp_right fun he => ?_
        dsimp only
        rw [InodeFs.writeAt_data_ne 0 hdc, he]
    · intro i hi
      cases hi
      exact hb.last _ hcur
    · intro stream' k' hw
      cases hw
      exact ⟨nofun, line, hwait, hle⟩
  | unlocked =>
    exact ⟨hb.wellFormed, hb.known, hb.openedKnown, hb.openedEmpty, hb.last, hb.pending, nofun,
      hb.text_update_none⟩
  | writeFailed =>
    exact ⟨hb.wellFormed, hb.known, hb.openedKnown, hb.openedEmpty, hb.last, hb.pending, nofun,
      hb.text_update_none⟩
  | renamed hne =>
    refine ⟨InodeFs.rename_wellFormed hb.wellFormed _ _, ?_, ?_, ?_, hb.last, hb.pending,
      hb.holder, hb.text⟩
    · intro i hi
      rw [InodeFs.rename_next]
      exact hb.known i hi
    · intro c hc
      rw [InodeFs.rename_next]
      exact hb.openedKnown c hc
    · intro c hc
      rw [InodeFs.rename_data]
      exact hb.openedEmpty c hc
  | reopened =>
    refine ⟨InodeFs.createFile_wellFormed hb.wellFormed path, ?_, ?_, ?_, hb.last, hb.pending,
      hb.holder, hb.text⟩
    · intro i hi
      exact (hb.known i hi).trans_le hge
    · intro c hc
      rcases List.mem_append.1 hc with hc | hc
      · exact (hb.openedKnown c hc).trans_le hge
      · rw [List.mem_singleton.1 hc]
        exact hlt
    · intro c hc
      by_cases hci : c.inode = (s.fs.createFile path).1
      · exact .inr (by rw [hci, InodeFs.createFile_data_self])
      · have hc' : c ∈ s.opened := by
          rcases List.mem_append.1 hc with hc | hc
          · exact hc
          · exact absurd (by rw [List.mem_singleton.1 hc]) hci
        rw [InodeFs.createFile_data_ne path hci]
        exact hb.openedEmpty c hc'
  | @swapped call c file hcall hlog hfree =>
    refine ⟨hb.wellFormed, ?_, ?_, ?_, ?_, nofun, ?_, hb.text⟩
    · intro i hi
      rcases List.mem_append.1 hi with hi | hi
      · exact hb.known i hi
      · rw [List.mem_singleton.1 hi]
        exact hb.openedKnown c (List.mem_of_getElem? hcall)
    · intro d hd
      exact hb.openedKnown d (List.mem_of_mem_eraseIdx hd)
    · intro d hd
      exact (hb.openedEmpty d (List.mem_of_mem_eraseIdx hd)).imp_left (List.mem_append_left _)
    · intro i hi
      cases hi
      exact List.getLast?_concat
    · intro stream k hw
      rw [hfree] at hw
      cases hw
  | dropped =>
    exact ⟨hb.wellFormed, hb.known, fun d hd => hb.openedKnown d (List.mem_of_mem_eraseIdx hd),
      fun d hd => hb.openedEmpty d (List.mem_of_mem_eraseIdx hd), hb.last, hb.pending, hb.holder,
      hb.text⟩
  | exited _ hfree =>
    refine ⟨hb.wellFormed, hb.known, hb.openedKnown, hb.openedEmpty, nofun, nofun, ?_, hb.text⟩
    intro stream k hw
    rw [hfree] at hw
    cases hw

/-! ## Lengths

A step that is not `Ok` shows in the lengths: the files are not as long as the lines. -/

/-- The length of all the files. -/
def fileBytes (files : List Nat) (data : Nat → Bytes) : Nat :=
  ∑ i ∈ files.toFinset, (data i).length

/-- The length of what is about to be written. -/
def waitingBytes (waiting : Stream → Option Bytes) : Nat :=
  ((waiting .stdout).getD []).length + ((waiting .stderr).getD []).length

theorem linesOf_append (stream : Stream) (xs ys : List (Stream × Bytes)) :
    linesOf stream (xs ++ ys) = linesOf stream xs ++ linesOf stream ys := by
  simp [linesOf]

/-- Every line is a line of one of the two streams. -/
theorem length_textOf (lines : List (Stream × Bytes)) :
    (textOf lines).length =
      (linesOf .stdout lines).flatten.length + (linesOf .stderr lines).flatten.length := by
  induction lines with
  | nil => rfl
  | cons line lines ih =>
    obtain ⟨stream, text⟩ := line
    simp only [textOf, linesOf, List.flatMap_cons, List.length_append] at ih ⊢
    rw [ih]
    cases stream
    · simp
      omega
    · simp
      omega

theorem contents_cons (part : Nat × List (Stream × Bytes))
    (parts : List (Nat × List (Stream × Bytes))) (i : Nat) :
    contents (part :: parts) i =
      (if part.1 = i then textOf part.2 else []) ++ contents parts i := by
  by_cases h : part.1 = i <;> simp [contents, h]

theorem contents_append (parts parts' : List (Nat × List (Stream × Bytes))) (i : Nat) :
    contents (parts ++ parts') i = contents parts i ++ contents parts' i := by
  simp [contents]

/-- Text that stands in one of the files. -/
theorem sum_length_ite {files : Finset Nat} {j : Nat} (h : j ∈ files) (text : Bytes) :
    ∑ i ∈ files, (if j = i then text else []).length = text.length := by
  have hite : ∀ i, (if j = i then text else []).length = if j = i then text.length else 0 := by
    intro i
    split <;> rfl
  simp only [hite]
  rw [Finset.sum_ite_eq, if_pos h]

/-- The files together hold the text of all parts. -/
theorem sum_contents (files : Finset Nat) : ∀ parts : List (Nat × List (Stream × Bytes)),
    (∀ part ∈ parts, part.1 ∈ files) →
      ∑ i ∈ files, (contents parts i).length = (textOf (parts.flatMap Prod.snd)).length
  | [], _ => by simp [contents, textOf]
  | part :: parts, h => by
    have ih := sum_contents files parts fun p hp => h p (List.mem_cons_of_mem _ hp)
    have hmem := h part List.mem_cons_self
    simp only [contents_cons, List.length_append, Finset.sum_add_distrib, ih,
      sum_length_ite hmem]
    simp [textOf]

/-- Between two lines nothing is in flight. -/
theorem inFlight_of_free {s : St} (h : s.writing = none) : s.inFlight = [] := by
  simp [St.inFlight, h]

theorem Placed.balance {s : St} {parts : List (Nat × List (Stream × Bytes))} (hb : Base s)
    (hp : Placed s parts) :
    fileBytes s.lived s.fs.data + waitingBytes s.waiting =
      (textOf s.formatted).length + s.inFlight.length := by
  have hparts : ∑ i ∈ s.lived.toFinset, (contents parts i).length =
      (textOf (parts.flatMap Prod.snd)).length := by
    refine sum_contents _ parts fun part hpart => ?_
    rw [List.mem_toFinset, ← hp.files]
    exact List.mem_map_of_mem hpart
  have hflight : ∑ i ∈ s.lived.toFinset,
      (if s.log.current = some i then s.inFlight else []).length = s.inFlight.length := by
    cases hcur : s.log.current with
    | none => simp [inFlight_of_free (hb.free hcur)]
    | some j =>
      simp only [Option.some.injEq]
      exact sum_length_ite (List.mem_toFinset.2 (hb.current_mem hcur)) _
  have hfiles : fileBytes s.lived s.fs.data =
      (textOf (parts.flatMap Prod.snd)).length + s.inFlight.length := by
    rw [← hparts, ← hflight, ← Finset.sum_add_distrib]
    refine Finset.sum_congr rfl fun i hi => ?_
    rw [hp.whole i (List.mem_toFinset.1 hi), List.length_append]
  have hlines : (textOf s.formatted).length =
      (textOf (parts.flatMap Prod.snd)).length + waitingBytes s.waiting := by
    have hout := hp.each .stdout
    have herr := hp.each .stderr
    rw [length_textOf s.formatted, length_textOf (parts.flatMap _), hout, herr]
    simp only [List.flatten_append, List.length_append, waitingBytes]
    cases s.waiting .stdout <;> cases s.waiting .stderr <;> simp <;> omega
  omega

/-! ## Steps that lose nothing -/

section keeps

variable {path : String} {s : St} {parts : List (Nat × List (Stream × Bytes))}

/-- Nothing is being written, and neither files nor lines change. -/
theorem Placed.of_free (hp : Placed s parts) (hfree : s.writing = none) {s' : St}
    (hfree' : s'.inFlight = []) (hfs : s'.fs = s.fs)
    (hlived : s'.lived = s.lived) (hformatted : s'.formatted = s.formatted)
    (hwaiting : s'.waiting = s.waiting) : Placed s' parts where
  files := by rw [hlived, hp.files]
  whole i hi := by
    rw [hlived] at hi
    rw [hfs, hp.whole i hi, hfree', inFlight_of_free hfree]
    simp
  each stream := by rw [hformatted, hwaiting, hp.each stream]

/-- A pump has formatted a line. -/
theorem Placed.format (hb : Base s) (hp : Placed s parts) {stream : Stream} (line : Bytes)
    (hwait : s.waiting stream = none) :
    Placed
      { s with
        formatted := s.formatted ++ [(stream, line)]
        waiting := Function.update s.waiting stream (some line) } parts := by
  refine ⟨hp.files, ?_, ?_⟩
  · intro i hi
    rw [hp.whole i hi]
    -- the pump that holds the mutex is the other one
    simp only [St.inFlight]
    cases hw : s.writing with
    | none => rfl
    | some w =>
      obtain ⟨-, line', hline', -⟩ := hb.holder w.1 w.2 hw
      have hne : w.1 ≠ stream := by
        rintro rfl
        rw [hwait] at hline'
        cases hline'
      simp only [Function.update_of_ne hne]
  · intro stream'
    dsimp only
    rw [linesOf_append, hp.each stream']
    by_cases hs : stream' = stream
    · subst hs
      simp [hwait, linesOf]
    · simp [linesOf, Function.update_of_ne hs, Ne.symm hs]

/-- A part of a line is written at the end of the file. -/
theorem Placed.write (hp : Placed s parts) {stream : Stream} {k n : Nat} {line : Bytes}
    {h : Handle} (hlog : s.log = .registered (some h)) (hwait : s.waiting stream = some line)
    (hwriting : s.writing = some (stream, k)) (hend : h.offset = (s.fs.data h.inode).length) :
    Placed
      { s with
        fs := s.fs.writeAt 0 h.inode h.offset ((line.drop k).take n)
        log := .registered (some ⟨h.inode, h.offset + n⟩)
        writing := some (stream, k + n) } parts := by
  refine ⟨hp.files, ?_, hp.each⟩
  intro i hi
  have hold := hp.whole i hi
  simp only [hlog, Log.current, St.inFlight, hwriting, hwait, Option.getD_some] at hold ⊢
  rw [hend, InodeFs.writeAt_length]
  by_cases hc : h.inode = i
  · subst hc
    rw [InodeFs.append_data_self, hold, if_pos rfl, if_pos rfl, List.take_add, List.append_assoc]
  · simp only [Option.some.injEq, hc, if_false] at hold ⊢
    simp [InodeFs.append, Function.update_of_ne (Ne.symm hc), hold]

/-- The last part, in the file that is in the mutex. -/
theorem Placed.exists_last (hb : Base s) (hp : Placed s parts) {i : Nat}
    (hcur : s.log.current = some i) : ∃ init lines, parts = init ++ [(i, lines)] := by
  have hlast := hb.last i hcur
  rw [← hp.files, List.getLast?_map] at hlast
  obtain ⟨part, hpart, rfl⟩ := Option.map_eq_some_iff.1 hlast
  obtain ⟨init, hinit⟩ := List.getLast?_eq_some_iff.1 hpart
  exact ⟨init, part.2, hinit⟩

/-- `write_all` has returned: the line belongs to the last part. -/
theorem Placed.finish (hb : Base s) (hp : Placed s parts) {stream : Stream} {line : Bytes}
    (hwait : s.waiting stream = some line) (hwriting : s.writing = some (stream, line.length)) :
    Lossless { s with waiting := Function.update s.waiting stream none, writing := none } := by
  obtain ⟨i, hcur⟩ := Option.ne_none_iff_exists'.1 (hb.holder _ _ hwriting).1
  obtain ⟨init, lines, rfl⟩ := hp.exists_last hb hcur
  refine ⟨init ++ [(i, lines ++ [(stream, line)])], ?_, ?_, ?_⟩
  · rw [← hp.files]
    simp
  · intro j hj
    have hold := hp.whole j hj
    simp only [St.inFlight, hwriting, hwait, Option.getD_some, List.take_length, hcur,
      Option.some.injEq, contents_append, contents_cons] at hold ⊢
    rw [hold]
    by_cases hij : i = j
    · simp [hij, textOf, contents]
    · simp [hij, contents]
  · intro stream'
    have hold := hp.each stream'
    dsimp only
    rw [hold]
    by_cases hs : stream' = stream
    · subst hs
      simp [hwait, linesOf]
    · simp [linesOf, Function.update_of_ne hs, Ne.symm hs]

/-- A file that `File::create` has opened gets into the mutex. -/
theorem Placed.enter (hp : Placed s parts) (hfree : s.writing = none) {fs : InodeFs String UInt8}
    {h : Handle} {opened : List Handle} (hdata : ∀ i ∈ s.lived, fs.data i = s.fs.data i)
    (hempty : h.inode ∈ s.lived ∨ fs.data h.inode = []) :
    Placed
      { s with
        fs := fs
        log := .registered (some h)
        lived := s.lived ++ [h.inode]
        opened := opened } (parts ++ [(h.inode, [])]) := by
  have hcontents : ∀ i, contents (parts ++ [(h.inode, [])]) i = contents parts i := by
    intro i
    rw [contents_append, contents_cons]
    simp [textOf, contents]
  refine ⟨by simp [hp.files], ?_, ?_⟩
  · intro i hi
    rw [hcontents, inFlight_of_free (by exact hfree), ite_self, List.append_nil]
    by_cases hmem : i ∈ s.lived
    · dsimp only
      rw [hdata i hmem, hp.whole i hmem, inFlight_of_free hfree, ite_self, List.append_nil]
    · have hieq : i = h.inode := by simpa [hmem] using hi
      have hnone : parts.filter (·.1 = i) = [] := by
        rw [List.filter_eq_nil_iff]
        intro part hpart hfst
        refine hmem ?_
        rw [← hp.files, ← of_decide_eq_true hfst]
        exact List.mem_map_of_mem hpart
      have hnil := hempty.resolve_left (hieq ▸ hmem)
      dsimp only
      rw [hieq, hnil, ← hieq, contents, hnone]
      rfl
  · intro stream
    simpa using hp.each stream

/-- **Steps that lose nothing.** -/
theorem lossless_step (hb : Base s) (hl : Lossless s) {l : Label} {s' : St} (hok : Ok path s l)
    (h : step path s l = some s') : Lossless s' := by
  obtain ⟨parts, hp⟩ := hl
  cases moves_of_step h with
  | created hlog =>
    have hnil := hb.pending hlog
    have hfree := hb.free (by rw [hlog]; rfl)
    refine ⟨_, hp.enter hfree ?_ (.inr (InodeFs.createFile_data_self path))⟩
    simp [hnil]
  | notCreated hlog =>
    have hfree := hb.free (by rw [hlog]; rfl)
    exact ⟨parts, hp.of_free hfree (inFlight_of_free hfree) rfl rfl rfl rfl⟩
  | blank => exact ⟨parts, hp⟩
  | formatted _ hwait => exact ⟨parts, hp.format hb _ hwait⟩
  | locked _ _ hfree =>
    exact ⟨parts, hp.of_free hfree (by simp [St.inFlight]) rfl rfl rfl rfl⟩
  | unloggable hlog => exact absurd hlog hok
  | wrote hlog hwait hwriting => exact ⟨parts, hp.write hlog hwait hwriting (hok _ hlog)⟩
  | unlocked hwait hwriting => exact hp.finish hb hwait hwriting
  | writeFailed => exact absurd hok id
  | renamed =>
    refine ⟨parts, hp.files, ?_, hp.each⟩
    dsimp only
    rw [InodeFs.rename_data]
    exact hp.whole
  | reopened =>
    refine ⟨parts, hp.files, ?_, hp.each⟩
    intro i hi
    have hsame : (s.fs.createFile path).2.data i = s.fs.data i := by
      by_cases hc : i = (s.fs.createFile path).1
      · have hfst : s.fs.dirent path = some (s.fs.createFile path).1 ∨ _ :=
          InodeFs.createFile_fst path
        rcases hfst with hdir | hnext
        · rw [hc, InodeFs.createFile_data_self, ← hc, hok i hi (hc ▸ hdir)]
        · exact absurd (hb.known i hi) (by omega)
      · exact InodeFs.createFile_data_ne path hc
    exact hsame.trans (hp.whole i hi)
  | swapped hcall _ hfree =>
    exact ⟨_, hp.enter hfree (fun _ _ => rfl) (hb.openedEmpty _ (List.mem_of_getElem? hcall))⟩
  | dropped => exact ⟨parts, hp.files, hp.whole, hp.each⟩
  | exited _ hfree =>
    exact ⟨parts, hp.of_free hfree (inFlight_of_free hfree) rfl rfl rfl rfl⟩

end keeps

/-! ## Steps that lose something -/

section loses

variable {path : String} {s : St}

theorem Lossless.balance (hb : Base s) (hl : Lossless s) :
    fileBytes s.lived s.fs.data + waitingBytes s.waiting =
      (textOf s.formatted).length + s.inFlight.length := by
  obtain ⟨parts, hp⟩ := hl
  exact hp.balance hb

theorem waitingBytes_update_none {waiting : Stream → Option Bytes} {stream : Stream} {line : Bytes}
    (h : waiting stream = some line) :
    waitingBytes (Function.update waiting stream none) + line.length = waitingBytes waiting := by
  unfold waitingBytes
  cases stream
  · simp [h]
    omega
  · simp [h]

/-- One of the files has changed. -/
theorem fileBytes_change (data data' : Nat → Bytes) {files : List Nat} {i : Nat} (hi : i ∈ files)
    (h : ∀ j, j ≠ i → data' j = data j) :
    fileBytes files data' + (data i).length = fileBytes files data + (data' i).length := by
  have hmem := List.mem_toFinset.2 hi
  have hrest : ∑ j ∈ files.toFinset.erase i, (data' j).length =
      ∑ j ∈ files.toFinset.erase i, (data j).length :=
    Finset.sum_congr rfl fun j hj => by rw [h j (Finset.ne_of_mem_erase hj)]
  unfold fileBytes
  rw [← Finset.add_sum_erase _ _ hmem, ← Finset.add_sum_erase _ _ hmem, hrest]
  omega

/-- **A step that is not `Ok` loses something.** -/
theorem ok_of_lossless (hb : Base s) (hl : Lossless s) {l : Label} {s' : St}
    (h : step path s l = some s') (hl' : Lossless s') : Ok path s l := by
  have hbal := hl.balance hb
  have hbal' := hl'.balance (base_step hb h)
  cases moves_of_step h with
  | unloggable hlog hwait hfree =>
    -- the line is gone from the pump and stands in no file
    have hline := List.length_pos_iff.2 (hb.text _ _ hwait)
    have hgone := waitingBytes_update_none hwait
    simp only [St.inFlight, hfree] at hbal hbal'
    omega
  | @wrote stream k n line c hlog hwait hwriting hn hle =>
    intro c' hc'
    obtain rfl : c = c' := by
      rw [hlog] at hc'
      cases hc'
      rfl
    by_contra hoff
    have hne : (line.drop k).take n ≠ [] := by
      rw [ne_eq, List.take_eq_nil_iff, List.drop_eq_nil_iff]
      omega
    have hmem : c.inode ∈ s.lived := hb.current_mem (by rw [hlog]; rfl)
    have hchange := fileBytes_change s.fs.data
      (s.fs.writeAt 0 c.inode c.offset ((line.drop k).take n)).data hmem
      fun j hj => InodeFs.writeAt_data_ne 0 hj _ _
    have hlen := InodeFs.writeAt_length_ne 0 hoff hne
    simp only [St.inFlight, hwriting, hwait, Option.getD_some, List.length_take,
      List.length_drop] at hbal hbal' hlen
    omega
  | writeFailed hwait hwriting hlt =>
    have hgone := waitingBytes_update_none hwait
    simp only [St.inFlight, hwriting, hwait, Option.getD_some, List.length_take,
      List.length_nil] at hbal hbal'
    omega
  | reopened =>
    intro i hi hdir
    have hfst : (s.fs.createFile path).1 = i := by
      rw [InodeFs.createFile, hdir]
    have hempty : (s.fs.createFile path).2.data i = [] := by
      rw [← hfst]
      exact InodeFs.createFile_data_self path
    have hchange := fileBytes_change s.fs.data (s.fs.createFile path).2.data hi
      fun j hj => InodeFs.createFile_data_ne path (hfst ▸ hj)
    simp only [hempty, List.length_nil] at hchange
    simp only [St.inFlight] at hbal hbal'
    rw [← List.length_eq_zero_iff]
    omega
  | locked hlog =>
    intro hnone
    rw [hlog] at hnone
    cases hnone
  | _ => trivial

end loses

/-! ## Whole runs -/

/-- **Log rotation.**  For every run of the supervisor, the two pumps, the kubelet's renames and
    any number of ReopenContainerLog calls: the log loses nothing in any state of the run
    exactly when every call finds no file of the log at the path, or an empty one, every write
    goes to the end of its file and succeeds, and the mutex holds a file for every line. -/
theorem rotation_lossless_iff (path : String) (fs : InodeFs String UInt8) (hfs : fs.WellFormed)
    (labels : List Label) :
    (∀ x ∈ steps (step path) (St.start fs) labels, Lossless x.2.2) ↔
      ∀ x ∈ steps (step path) (St.start fs) labels, Ok path x.1 x.2.1 := by
  have hstart : Base (St.start fs) ∧ Lossless (St.start fs) :=
    ⟨base_start hfs, [], rfl, nofun, fun _ => rfl⟩
  have hstep : ∀ s l s', (Base s ∧ Lossless s) → Ok path s l → step path s l = some s' →
      Base s' ∧ Lossless s' :=
    fun s l s' hi hok h => ⟨base_step hi.1 h, lossless_step hi.1 hi.2 hok h⟩
  refine forall_steps_iff hstep ?_ labels _ hstart
  rintro s l s' ⟨hb, hl⟩ h
  exact ⟨ok_of_lossless hb hl h, fun hok => lossless_step hb hl hok h⟩

theorem base_run {path : String} {fs : InodeFs String UInt8} (hfs : fs.WellFormed)
    {labels : List Label} {s : St} (h : run (step path) (St.start fs) labels = some s) : Base s :=
  run_invariant (fun _ _ _ hb (_ : True) hs => base_step hb hs) labels _ s (base_start hfs)
    (fun _ _ => trivial) h

/-- A directory without files. -/
def emptyDir : InodeFs String UInt8 := ⟨fun _ => none, fun _ => [], 0⟩

/-- The container writes `a`. -/
def writesA : List Label :=
  [.format .stdout epoch [97], .lock .stdout, .wrote 16, .unlock]

/-- The line is `1970 stdout P a`. -/
theorem criLogLine_a : criLogLine epoch .stdout [97] =
    [49, 57, 55, 48, 32, 115, 116, 100, 111, 117, 116, 32, 80, 32, 97, 10] := by
  rw [criLogLine]
  rfl

/-- One rotation, as the kubelet does it. -/
def rotated : List Label :=
  .create true :: writesA ++ .rename "0.log.1" :: .reopen :: .swap 0 :: writesA

theorem rotated_lossless :
    emptyDir.WellFormed ∧ (run (step "0.log") (St.start emptyDir) rotated).isSome = true ∧
      ∀ x ∈ steps (step "0.log") (St.start emptyDir) rotated, Lossless x.2.2 := by
  have hfs : emptyDir.WellFormed := ⟨nofun, nofun⟩
  refine ⟨hfs, ?_, (rotation_lossless_iff "0.log" emptyDir hfs rotated).2 ?_⟩
  · simp [rotated, writesA, run, step, St.start, criLogLine_a, Function.update]
  · simp [rotated, writesA, steps, step, St.start, criLogLine_a, Function.update, Ok]
    decide

/-- A call without a rename before it. -/
def notRenamed : List Label := .create true :: writesA ++ [.reopen]

/-- `File::create` empties the file the pumps write to. -/
theorem reopen_truncates :
    ¬ ∀ (path : String) (fs : InodeFs String UInt8) (labels : List Label) (s : St),
      fs.WellFormed → run (step path) (St.start fs) labels = some s → Lossless s := by
  intro h
  have hfs : emptyDir.WellFormed := ⟨nofun, nofun⟩
  have hsome : (run (step "0.log") (St.start emptyDir) notRenamed).isSome = true := by
    simp [notRenamed, writesA, run, step, St.start, criLogLine_a, Function.update]
  obtain ⟨s, hs⟩ := Option.isSome_iff_exists.1 hsome
  have hbal := (h "0.log" emptyDir notRenamed s hfs hs).balance (base_run hfs hs)
  -- one line of 16 bytes, and no byte in the files
  simp [notRenamed, writesA, run, step, St.start, criLogLine_a, Function.update] at hs
  subst hs
  revert hbal
  decide

end ContainerdRs.Cri.LogRotation
