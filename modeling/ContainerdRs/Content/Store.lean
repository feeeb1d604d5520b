import ContainerdRs.CoreTypes
import ContainerdRs.Lib.InodeFs
import ContainerdRs.Lib.Transition

/-!
# The content store (`crates/content`)

Model of `content::Store` and `content::Writer` at the granularity of file-system calls.  Any
number of tasks (writers and `Store::remove` calls) move in any order; the label of a step
carries the outcome of the system call it makes (`ok = false` is an I/O error).

* `Store::writer` — `INGEST_SEQ.fetch_add` (`openWriter`), then `File::create` of
  `ingest/<sha256(ref)>.<pid>.<seq>` (`create`).
* `Write::write` — `n` bytes of the buffer reach the file, the hasher and the counter (`write`).
* `Writer::commit` — take the handle, flush and sync (`commit`), compare size and digest
  (`verify`), then either remove the staging file and fail (`reject`), or test whether the blob
  is there (`probe`) and discard the staging file (`discard`) or create the parent directory
  (`createDir`) and rename (`rename`).
* `Drop for Writer` — remove the staging file of an uncommitted writer (`dropWriter`).
* `Store::remove` — test (`remove`), then unlink (`unlink`).

The hasher is the sequence of bytes fed to it; `sha256` is an arbitrary fixed function.
`INGEST_SEQ` is a natural number (no wrap-around).
-/

set_option autoImplicit false

namespace ContainerdRs.Content

/-- The files of a store: `ingest/<name>` and `blobs/sha256/<hex>`. -/
inductive StorePath where
  | ingest (name : String)
  | blob (hex : String)
  deriving DecidableEq, Repr

/-- `content::Error`. -/
inductive Error where
  | io
  | digestMismatch (expected computed : Digest)
  | sizeMismatch (expected wrote : Nat)
  deriving DecidableEq

/-- `content::Writer`: the staging name, the open handle, the bytes hashed so far and the
    byte counter. -/
structure Writer where
  staging : String
  file : Option Nat
  hasher : Bytes
  written : Nat
  deriving DecidableEq

/-- Where a task stands. -/
inductive Task where
  /-- `fetch_add` done, staging file not created yet. -/
  | reserved (staging : String)
  | writing (w : Writer)
  /-- Handle flushed, synced and closed by `commit`. -/
  | flushed (w : Writer) (expectedSize : Nat) (expected : Digest)
  /-- Size or digest mismatch: the staging file is about to be removed. -/
  | rejecting (w : Writer) (e : Error)
  | verified (w : Writer) (computed : Digest)
  /-- The blob is already there: the staging file is about to be discarded. -/
  | deduping (w : Writer) (computed : Digest)
  | moving (w : Writer) (computed : Digest)
  | renaming (w : Writer) (computed : Digest)
  /-- `commit` (or `writer`) has returned. -/
  | returned (r : Except Error Digest)
  | dropped
  /-- `Store::remove` has seen the blob. -/
  | removing (d : Digest)
  | removed (r : Except Error Bool)

/-- The store and everything that works on it. -/
structure St where
  fs : InodeFs StorePath UInt8
  seq : Nat
  tasks : List Task

/-- One file-system step of one task (`t` is the task's index). -/
inductive Label where
  | openWriter (ingestRef : String)
  | create (t : Nat) (ok : Bool)
  | write (t : Nat) (buf : Bytes) (n : Nat)
  | dropWriter (t : Nat) (ok : Bool)
  | commit (t : Nat) (expectedSize : Nat) (expected : Digest) (ok : Bool)
  | verify (t : Nat)
  | reject (t : Nat) (ok : Bool)
  | probe (t : Nat)
  | discard (t : Nat) (ok : Bool)
  | createDir (t : Nat) (ok : Bool)
  | rename (t : Nat) (ok : Bool)
  | remove (d : Digest)
  | unlink (t : Nat) (ok : Bool)

variable (sha256 : Bytes → Digest) (pid : Nat)

/-- The staging name `format!("{}.{}.{}", sha256(ref).hex(), pid, seq)`. -/
def stagingName (ingestRef : String) (seq : Nat) : String :=
  (sha256 ingestRef.toUTF8.data.toList).hex ++ "." ++ pid.repr ++ "." ++ seq.repr

/-- Remove a file, or leave it when the call fails (`let _ = fs::remove_file(..)`). -/
def removeFile (fs : InodeFs StorePath UInt8) (p : StorePath) (ok : Bool) :
    InodeFs StorePath UInt8 := if ok then fs.unlink p else fs

/-- `Store::read`. -/
def read (s : St) (d : Digest) : Option Bytes := s.fs.read (.blob d.hex)

/-- The size and digest comparison of `Writer::commit`. -/
def verifyTask (w : Writer) (expectedSize : Nat) (expected : Digest) : Task :=
  if w.written ≠ expectedSize then .rejecting w (.sizeMismatch expectedSize w.written)
  else if sha256 w.hasher ≠ expected then
    .rejecting w (.digestMismatch expected (sha256 w.hasher))
  else .verified w (sha256 w.hasher)

/-- One step; `none` when the task is not at that point. -/
def step (s : St) : Label → Option St
  | .openWriter ingestRef =>
    some { s with seq := s.seq + 1
                  tasks := s.tasks ++ [.reserved (stagingName sha256 pid ingestRef s.seq)] }
  | .create t ok =>
    match s.tasks[t]? with
    | some (.reserved staging) =>
      if ok then
        let r := s.fs.createFile (.ingest staging)
        some { s with fs := r.2, tasks := s.tasks.set t (.writing ⟨staging, some r.1, [], 0⟩) }
      else some { s with tasks := s.tasks.set t (.returned (.error .io)) }
    | _ => none
  | .write t buf n =>
    match s.tasks[t]? with
    | some (.writing ⟨staging, some i, hasher, written⟩) =>
      if n ≤ buf.length then
        some { s with
          fs := s.fs.append i (buf.take n)
          tasks := s.tasks.set t (.writing ⟨staging, some i, hasher ++ buf.take n, written + n⟩) }
      else none
    | _ => none
  | .dropWriter t ok =>
    match s.tasks[t]? with
    | some (.writing w) =>
      some { s with fs := removeFile s.fs (.ingest w.staging) ok, tasks := s.tasks.set t .dropped }
    | _ => none
  | .commit t expectedSize expected ok =>
    match s.tasks[t]? with
    | some (.writing w) =>
      if ok then
        some { s with
          tasks := s.tasks.set t (.flushed { w with file := none } expectedSize expected) }
      else some { s with tasks := s.tasks.set t (.returned (.error .io)) }
    | _ => none
  | .verify t =>
    match s.tasks[t]? with
    | some (.flushed w expectedSize expected) =>
      some { s with tasks := s.tasks.set t (verifyTask sha256 w expectedSize expected) }
    | _ => none
  | .reject t ok =>
    match s.tasks[t]? with
    | some (.rejecting w e) =>
      some { s with fs := removeFile s.fs (.ingest w.staging) ok
                    tasks := s.tasks.set t (.returned (.error e)) }
    | _ => none
  | .probe t =>
    match s.tasks[t]? with
    | some (.verified w computed) =>
      if s.fs.isFile (.blob computed.hex) then
        some { s with tasks := s.tasks.set t (.deduping w computed) }
      else some { s with tasks := s.tasks.set t (.moving w computed) }
    | _ => none
  | .discard t ok =>
    match s.tasks[t]? with
    | some (.deduping w computed) =>
      some { s with fs := removeFile s.fs (.ingest w.staging) ok
                    tasks := s.tasks.set t (.returned (.ok computed)) }
    | _ => none
  | .createDir t ok =>
    match s.tasks[t]? with
    | some (.moving w computed) =>
      if ok then some { s with tasks := s.tasks.set t (.renaming w computed) }
      else some { s with tasks := s.tasks.set t (.returned (.error .io)) }
    | _ => none
  | .rename t ok =>
    match s.tasks[t]? with
    | some (.renaming w computed) =>
      if ok then
        some { s with fs := s.fs.rename (.ingest w.staging) (.blob computed.hex)
                      tasks := s.tasks.set t (.returned (.ok computed)) }
      else some { s with tasks := s.tasks.set t (.returned (.error .io)) }
    | _ => none
  | .remove d =>
    if s.fs.isFile (.blob d.hex) then some { s with tasks := s.tasks ++ [.removing d] }
    else some { s with tasks := s.tasks ++ [.removed (.ok false)] }
  | .unlink t ok =>
    match s.tasks[t]? with
    | some (.removing d) =>
      if ok then
        some { s with fs := s.fs.unlink (.blob d.hex)
                      tasks := s.tasks.set t (.removed (.ok true)) }
      else some { s with tasks := s.tasks.set t (.removed (.error .io)) }
    | _ => none

/-! ## What a step can be -/

/-- The steps, each with what it needs. -/
inductive Moves (s : St) : Label → St → Prop
  | openWriter (ingestRef : String) :
      Moves s (.openWriter ingestRef) { s with
        seq := s.seq + 1
        tasks := s.tasks ++ [.reserved (stagingName sha256 pid ingestRef s.seq)] }
  | create {t : Nat} {staging : String} (ht : s.tasks[t]? = some (.reserved staging)) :
      Moves s (.create t true) { s with
        fs := (s.fs.createFile (.ingest staging)).2
        tasks := s.tasks.set t
          (.writing ⟨staging, some (s.fs.createFile (.ingest staging)).1, [], 0⟩) }
  | createFailed {t : Nat} {staging : String} (ht : s.tasks[t]? = some (.reserved staging)) :
      Moves s (.create t false) { s with tasks := s.tasks.set t (.returned (.error .io)) }
  | write {t i written n : Nat} {buf hasher : Bytes} {staging : String}
      (ht : s.tasks[t]? = some (.writing ⟨staging, some i, hasher, written⟩))
      (hn : n ≤ buf.length) :
      Moves s (.write t buf n) { s with
        fs := s.fs.append i (buf.take n)
        tasks := s.tasks.set t
          (.writing ⟨staging, some i, hasher ++ buf.take n, written + n⟩) }
  | dropWriter {t : Nat} {w : Writer} {ok : Bool} (ht : s.tasks[t]? = some (.writing w)) :
      Moves s (.dropWriter t ok) { s with
        fs := removeFile s.fs (.ingest w.staging) ok
        tasks := s.tasks.set t .dropped }
  | commit {t : Nat} {w : Writer} {size : Nat} {expected : Digest}
      (ht : s.tasks[t]? = some (.writing w)) :
      Moves s (.commit t size expected true) { s with
        tasks := s.tasks.set t (.flushed { w with file := none } size expected) }
  | commitFailed {t : Nat} {w : Writer} {size : Nat} {expected : Digest}
      (ht : s.tasks[t]? = some (.writing w)) :
      Moves s (.commit t size expected false) { s with
        tasks := s.tasks.set t (.returned (.error .io)) }
  | verify {t : Nat} {w : Writer} {size : Nat} {expected : Digest}
      (ht : s.tasks[t]? = some (.flushed w size expected)) :
      Moves s (.verify t) { s with tasks := s.tasks.set t (verifyTask sha256 w size expected) }
  | reject {t : Nat} {w : Writer} {e : Error} {ok : Bool}
      (ht : s.tasks[t]? = some (.rejecting w e)) :
      Moves s (.reject t ok) { s with
        fs := removeFile s.fs (.ingest w.staging) ok
        tasks := s.tasks.set t (.returned (.error e)) }
  | present {t : Nat} {w : Writer} {d : Digest} (ht : s.tasks[t]? = some (.verified w d))
      (hfile : s.fs.isFile (.blob d.hex) = true) :
      Moves s (.probe t) { s with tasks := s.tasks.set t (.deduping w d) }
  | absent {t : Nat} {w : Writer} {d : Digest} (ht : s.tasks[t]? = some (.verified w d))
      (hfile : s.fs.isFile (.blob d.hex) = false) :
      Moves s (.probe t) { s with tasks := s.tasks.set t (.moving w d) }
  | discard {t : Nat} {w : Writer} {d : Digest} {ok : Bool}
      (ht : s.tasks[t]? = some (.deduping w d)) :
      Moves s (.discard t ok) { s with
        fs := removeFile s.fs (.ingest w.staging) ok
        tasks := s.tasks.set t (.returned (.ok d)) }
  | createDir {t : Nat} {w : Writer} {d : Digest} (ht : s.tasks[t]? = some (.moving w d)) :
      Moves s (.createDir t true) { s with tasks := s.tasks.set t (.renaming w d) }
  | createDirFailed {t : Nat} {w : Writer} {d : Digest} (ht : s.tasks[t]? = some (.moving w d)) :
      Moves s (.createDir t false) { s with tasks := s.tasks.set t (.returned (.error .io)) }
  | rename {t : Nat} {w : Writer} {d : Digest} (ht : s.tasks[t]? = some (.renaming w d)) :
      Moves s (.rename t true) { s with
        fs := s.fs.rename (.ingest w.staging) (.blob d.hex)
        tasks := s.tasks.set t (.returned (.ok d)) }
  | renameFailed {t : Nat} {w : Writer} {d : Digest} (ht : s.tasks[t]? = some (.renaming w d)) :
      Moves s (.rename t false) { s with tasks := s.tasks.set t (.returned (.error .io)) }
  | remove {d : Digest} (hfile : s.fs.isFile (.blob d.hex) = true) :
      Moves s (.remove d) { s with tasks := s.tasks ++ [.removing d] }
  | removeAbsent {d : Digest} (hfile : s.fs.isFile (.blob d.hex) = false) :
      Moves s (.remove d) { s with tasks := s.tasks ++ [.removed (.ok false)] }
  | unlink {t : Nat} {d : Digest} (ht : s.tasks[t]? = some (.removing d)) :
      Moves s (.unlink t true) { s with
        fs := s.fs.unlink (.blob d.hex)
        tasks := s.tasks.set t (.removed (.ok true)) }
  | unlinkFailed {t : Nat} {d : Digest} (ht : s.tasks[t]? = some (.removing d)) :
      Moves s (.unlink t false) { s with tasks := s.tasks.set t (.removed (.error .io)) }

variable {sha256 pid}

/-- **Inversion of a step.** -/
theorem moves_of_step {s s' : St} {l : Label} (h : step sha256 pid s l = some s') :
    Moves sha256 pid s l s' := by
  cases l with
  | openWriter ingestRef =>
    cases h
    exact .openWriter ingestRef
  | create t ok =>
    simp only [step] at h
    split at h
    · rename_i staging ht
      cases ok <;> cases h
      · exact .createFailed ht
      · exact .create ht
    · cases h
  | write t buf n =>
    simp only [step] at h
    split at h
    · rename_i staging i hasher written ht
      split_ifs at h with hn
      cases h
      exact .write ht hn
    · cases h
  | dropWriter t ok =>
    simp only [step] at h
    split at h
    · rename_i w ht
      cases h
      exact .dropWriter ht
    · cases h
  | commit t size expected ok =>
    simp only [step] at h
    split at h
    · rename_i w ht
      cases ok <;> cases h
      · exact .commitFailed ht
      · exact .commit ht
    · cases h
  | verify t =>
    simp only [step] at h
    split at h
    · rename_i w size expected ht
      cases h
      exact .verify ht
    · cases h
  | reject t ok =>
    simp only [step] at h
    split at h
    · rename_i w e ht
      cases h
      exact .reject ht
    · cases h
  | probe t =>
    simp only [step] at h
    split at h
    · rename_i w d ht
      split_ifs at h with hfile <;> cases h
      · exact .present ht hfile
      · exact .absent ht (by simpa using hfile)
    · cases h
  | discard t ok =>
    simp only [step] at h
    split at h
    · rename_i w d ht
      cases h
      exact .discard ht
    · cases h
  | createDir t ok =>
    simp only [step] at h
    split at h
    · rename_i w d ht
      cases ok <;> cases h
      · exact .createDirFailed ht
      · exact .createDir ht
    · cases h
  | rename t ok =>
    simp only [step] at h
    split at h
    · rename_i w d ht
      cases ok <;> cases h
      · exact .renameFailed ht
      · exact .rename ht
    · cases h
  | remove d =>
    simp only [step] at h
    split_ifs at h with hfile <;> cases h
    · exact .remove hfile
    · exact .removeAbsent (by simpa using hfile)
  | unlink t ok =>
    simp only [step] at h
    split at h
    · rename_i d ht
      cases ok <;> cases h
      · exact .unlinkFailed ht
      · exact .unlink ht
    · cases h

end ContainerdRs.Content
