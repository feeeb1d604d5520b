import ContainerdRs.Content.Integrity

/-!
# Reads of blobs while the store is in use

`Store::read` and a stream of `Store::open_blob` next to the writers and removals of the store.  A
reader opens the file of a blob, and then reads it in pieces of any size; between two of its calls
the blob can be removed, and stored again.

* `Held` — an inode that was once behind a blob name: no writer ever gets it.
* `step_held` — its contents stay, whatever is removed or renamed.
* `Began` — what a reader has got, against the contents at its open.
* `reads_atomic` — a read that runs to its end returns the contents at its open, with the digest
  it was asked for; no other task makes it fail or wait.
-/

set_option autoImplicit false

namespace ContainerdRs.Content.Reads

open Transition

/-- A call of `Store::read`, or a stream of `Store::open_blob`. -/
inductive Reader where
  /-- `File::open` is through, and `got` was read. -/
  | opened (d : Digest) (inode : Nat) (got : Bytes)
  /-- `Ok(0)`, the end of the file. -/
  | finished (d : Digest) (bytes : Bytes)
  | failed (d : Digest) (e : String)
  deriving DecidableEq

/-- The store with its readers. -/
structure St where
  store : Content.St
  readers : List Reader

/-- One call of a reader (`r` is its index), or a step of another task. -/
inductive Label where
  | store (l : Content.Label)
  | openBlob (d : Digest)
  | openFailed (d : Digest) (e : String)
  | read (r n : Nat)
  | readFailed (r : Nat) (e : String)

/-- The text of `ENOENT`. -/
def notFound : String := "io error: No such file or directory (os error 2)"

/-- `Store::open_blob`. -/
def openBlob (fs : InodeFs StorePath UInt8) (d : Digest) : Reader :=
  match fs.dirent (.blob d.hex) with
  | some i => .opened d i []
  | none => .failed d notFound

/-- `read(2)` with `n` bytes as its answer: none at the end of the file only. -/
def Reader.read (fs : InodeFs StorePath UInt8) (n : Nat) : Reader → Option Reader
  | .opened d i got =>
    let rest := (fs.data i).drop got.length
    if rest.length < n then none
    else if 0 < n then some (.opened d i (got ++ rest.take n))
    else if rest = [] then some (.finished d got)
    else none
  | .finished .. | .failed .. => none

/-- `read(2)` fails. -/
def Reader.fail (e : String) : Reader → Option Reader
  | .opened d _ _ => some (.failed d e)
  | .finished .. | .failed .. => none

variable (sha256 : Bytes → Digest) (pid : Nat)

/-- The reader `r` makes a call. -/
def St.turn (s : St) (r : Nat) (f : Reader → Option Reader) : Option St :=
  (s.readers[r]?.bind f).map fun reader => { s with readers := s.readers.set r reader }

/-- One step. -/
def step (s : St) : Label → Option St
  | .store l => (Content.step sha256 pid s.store l).map fun t => { s with store := t }
  | .openBlob d => some { s with readers := s.readers ++ [openBlob s.store.fs d] }
  | .openFailed d e => some { s with readers := s.readers ++ [.failed d e] }
  | .read r n => s.turn r (Reader.read s.store.fs n)
  | .readFailed r e => s.turn r (Reader.fail e)

/-! ## The inode of a reader -/

/-- No name under `ingest/` has the inode, and no new file will get it. -/
structure Held (fs : InodeFs StorePath UInt8) (i : Nat) : Prop where
  used : i < fs.next
  ingest : ∀ name, fs.dirent (.ingest name) ≠ some i

theorem held_of_blob {fs : InodeFs StorePath UInt8} (hwf : fs.WellFormed) {hex : String} {i : Nat}
    (hi : fs.dirent (.blob hex) = some i) : Held fs i where
  used := hwf.fresh _ i hi
  ingest name hn := by
    have := hwf.inj _ _ i hi hn
    cases this

variable {sha256 pid}

/-- **No step writes to an inode that is held**, and it stays held. -/
theorem step_held {s s' : Content.St} {l : Content.Label} {i : Nat}
    (hi : StagingInv sha256 pid s) (h : Held s.fs i)
    (hstep : Content.step sha256 pid s l = some s') :
    Held s'.fs i ∧ s'.fs.data i = s.fs.data i := by
  have hremove : ∀ (p : StorePath) (ok : Bool),
      Held (removeFile s.fs p ok) i ∧ (removeFile s.fs p ok).data i = s.fs.data i := by
    intro p ok
    cases ok with
    | false => exact ⟨h, rfl⟩
    | true => exact ⟨⟨h.used, fun name hn => h.ingest name (InodeFs.unlink_dirent hn)⟩, rfl⟩
  cases moves_of_step hstep with
  | @create _ staging ht =>
    have hne : i ≠ (s.fs.createFile (.ingest staging)).1 := by
      obtain hd | hd : s.fs.dirent (StorePath.ingest staging) = some _ ∨ _ :=
        InodeFs.createFile_fst (StorePath.ingest staging)
      · rintro rfl
        exact h.ingest staging hd
      · rw [hd]
        exact Nat.ne_of_lt h.used
    refine ⟨⟨Nat.lt_of_lt_of_le h.used (InodeFs.createFile_next_le _), ?_⟩,
      InodeFs.createFile_data_ne _ hne⟩
    intro name hn
    by_cases hname : name = staging
    · subst hname
      rw [InodeFs.createFile_dirent_self] at hn
      exact hne (Option.some.inj hn).symm
    · have hpath : StorePath.ingest name ≠ .ingest staging := by simpa using hname
      rw [InodeFs.createFile_dirent_ne hpath] at hn
      exact h.ingest name hn
  | @write t j _ _ _ _ _ ht _ =>
    obtain ⟨k, hk, -, -, hfile⟩ := hi.intact _ _ _ ht rfl
    obtain rfl := hfile _ rfl
    have hne : i ≠ j := by
      rintro rfl
      exact h.ingest _ hk
    exact ⟨⟨h.used, h.ingest⟩, Function.update_of_ne hne _ _⟩
  | dropWriter _ | reject _ | discard _ => exact hremove _ _
  | unlink _ => exact hremove _ true
  | @rename t w d ht =>
    obtain ⟨j, hj, -⟩ := hi.intact t _ w ht rfl
    refine ⟨⟨by rw [InodeFs.rename_next]; exact h.used, fun name hn => ?_⟩,
      congrFun (InodeFs.rename_data _ _) i⟩
    rcases InodeFs.rename_dirent hj hn with ⟨he, -⟩ | ⟨-, -, hn⟩
    · cases he
    · exact h.ingest name hn
  | _ => exact ⟨h, rfl⟩

/-! ## One reader -/

/-- The reader of `d` that found `b` behind the inode at its open. -/
inductive Began (fs : InodeFs StorePath UInt8) (d : Digest) (b : Bytes) : Reader → Prop
  | opened {i : Nat} {got : Bytes} (held : Held fs i) (data : fs.data i = b) (part : got <+: b) :
      Began fs d b (.opened d i got)
  | finished : Began fs d b (.finished d b)
  | failed {e : String} : Began fs d b (.failed d e)

theorem Began.frame {fs fs' : InodeFs StorePath UInt8} {d : Digest} {b : Bytes} {reader : Reader}
    (h : Began fs d b reader)
    (hframe : ∀ i, Held fs i → Held fs' i ∧ fs'.data i = fs.data i) : Began fs' d b reader := by
  cases h with
  | opened held data part =>
    obtain ⟨hheld, hdata⟩ := hframe _ held
    exact .opened hheld (hdata.trans data) part
  | finished => exact .finished
  | failed => exact .failed

/-- What a call returns is the next piece of the contents. -/
theorem Began.read {fs : InodeFs StorePath UInt8} {d : Digest} {b : Bytes}
    {reader reader' : Reader} {n : Nat} (h : Began fs d b reader)
    (hread : reader.read fs n = some reader') : Began fs d b reader' := by
  cases h with
  | @opened i got held data part =>
    obtain ⟨rest, rfl⟩ := part
    simp only [Reader.read, data, List.drop_left] at hread
    split_ifs at hread with hlen hpos hend
    · cases hread
      refine .opened held data ⟨rest.drop n, ?_⟩
      rw [List.append_assoc, List.take_append_drop]
    · cases hread
      rw [hend, List.append_nil]
      exact .finished
  | finished => cases hread
  | failed => cases hread

theorem Began.fail {fs : InodeFs StorePath UInt8} {d : Digest} {b : Bytes}
    {reader reader' : Reader} {e : String} (h : Began fs d b reader)
    (hfail : reader.fail e = some reader') : Began fs d b reader' := by
  cases h with
  | opened held data part =>
    cases hfail
    exact .failed
  | finished => cases hfail
  | failed => cases hfail

/-! ## Steps and runs -/

/-- A step is one of the store or of a reader. -/
theorem step_cases {s s' : St} {l : Label} (hstep : step sha256 pid s l = some s') :
    (∃ t cl, Content.step sha256 pid s.store cl = some t ∧ s' = { s with store := t }) ∨
    (∃ reader, s' = { s with readers := s.readers ++ [reader] }) ∨
    ∃ r old new, s.readers[r]? = some old ∧ s' = { s with readers := s.readers.set r new } ∧
      ((∃ n, l = .read r n ∧ old.read s.store.fs n = some new) ∨
        ∃ e, l = .readFailed r e ∧ old.fail e = some new) := by
  have hturn : ∀ {r : Nat} {f : Reader → Option Reader}, s.turn r f = some s' →
      ∃ old new, s.readers[r]? = some old ∧ f old = some new ∧
        s' = { s with readers := s.readers.set r new } := by
    intro r f h
    obtain ⟨new, hnew, rfl⟩ := Option.map_eq_some_iff.1 h
    obtain ⟨old, hold, hf⟩ := Option.bind_eq_some_iff.1 hnew
    exact ⟨old, new, hold, hf, rfl⟩
  cases l with
  | store cl =>
    obtain ⟨t, ht, rfl⟩ := Option.map_eq_some_iff.1 hstep
    exact .inl ⟨t, cl, ht, rfl⟩
  | openBlob d =>
    cases hstep
    exact .inr (.inl ⟨_, rfl⟩)
  | openFailed d e =>
    cases hstep
    exact .inr (.inl ⟨_, rfl⟩)
  | read r n =>
    obtain ⟨old, new, hold, hnew, rfl⟩ := hturn hstep
    exact .inr (.inr ⟨r, old, new, hold, rfl, .inl ⟨n, rfl, hnew⟩⟩)
  | readFailed r e =>
    obtain ⟨old, new, hold, hnew, rfl⟩ := hturn hstep
    exact .inr (.inr ⟨r, old, new, hold, rfl, .inr ⟨e, rfl, hnew⟩⟩)

theorem step_store {s s' : St} {l : Label} (hi : StoreInv sha256 pid s.store)
    (hstep : step sha256 pid s l = some s') : StoreInv sha256 pid s'.store := by
  obtain ⟨t, cl, ht, rfl⟩ | ⟨reader, rfl⟩ | ⟨r, old, new, -, rfl, -⟩ := step_cases hstep
  · exact step_inv hi ht
  · exact hi
  · exact hi

/-- The reader `r` goes on from the contents at its open, and fails by its own calls only. -/
theorem step_began {s s' : St} {l : Label} {r : Nat} {reader : Reader} {d : Digest} {b : Bytes}
    (hi : StoreInv sha256 pid s.store) (hr : s.readers[r]? = some reader)
    (h : Began s.store.fs d b reader) (hstep : step sha256 pid s l = some s') :
    ∃ reader', s'.readers[r]? = some reader' ∧ Began s'.store.fs d b reader' ∧
      ∀ e, reader' = .failed d e → reader = .failed d e ∨ l = .readFailed r e := by
  obtain ⟨t, cl, ht, rfl⟩ | ⟨other, rfl⟩ | ⟨u, old, new, hu, rfl, hcall⟩ := step_cases hstep
  · exact ⟨reader, hr, h.frame fun i hheld => step_held hi.staging hheld ht, fun e he => .inl he⟩
  · exact ⟨reader, getElem?_push_other hr, h, fun e he => .inl he⟩
  · by_cases hur : u = r
    · subst hur
      rw [hr, Option.some.injEq] at hu
      subst hu
      have hset : (s.readers.set u new)[u]? = some new :=
        List.getElem?_set_self (List.getElem?_eq_some_iff.1 hr).1
      obtain ⟨n, rfl, hread⟩ | ⟨e, rfl, hfail⟩ := hcall
      · refine ⟨new, hset, h.read hread, fun e he => ?_⟩
        subst he
        cases h with
        | opened held data part =>
          simp only [Reader.read] at hread
          split_ifs at hread <;> cases hread
        | finished => cases hread
        | failed => cases hread
      · refine ⟨new, hset, h.fail hfail, fun e' he => .inr ?_⟩
        subst he
        cases h with
        | opened held data part =>
          cases hfail
          rfl
        | finished => cases hfail
        | failed => cases hfail
    · exact ⟨reader, (List.getElem?_set_ne hur).trans hr, h, fun e he => .inl he⟩

theorem run_began {d : Digest} {b : Bytes} {r : Nat} : ∀ {ls : List Label} {s s' : St}
    {reader : Reader}, StoreInv sha256 pid s.store → s.readers[r]? = some reader →
    Began s.store.fs d b reader → run (step sha256 pid) s ls = some s' →
    ∃ reader', s'.readers[r]? = some reader' ∧ Began s'.store.fs d b reader' ∧
      ∀ e, reader' = .failed d e → reader = .failed d e ∨ .readFailed r e ∈ ls
  | [], s, s', reader, _, hr, h, hrun => by
    cases hrun
    exact ⟨reader, hr, h, fun e he => .inl he⟩
  | l :: ls, s, s', reader, hi, hr, h, hrun => by
    obtain ⟨t, hstep, hrest⟩ := run_cons_some hrun
    obtain ⟨mid, hmid, hbegan, hfailed⟩ := step_began hi hr h hstep
    obtain ⟨last, hlast, hend, hfailed'⟩ := run_began (step_store hi hstep) hmid hbegan hrest
    refine ⟨last, hlast, hend, fun e he => ?_⟩
    rcases hfailed' e he with hm | hm
    · rcases hfailed e hm with h0 | rfl
      · exact .inl h0
      · exact .inr (by simp)
    · exact .inr (List.mem_cons_of_mem _ hm)

/-- A call that has failed is over. -/
theorem step_failed {s s' : St} {l : Label} {d : Digest} {e : String} {r : Nat}
    (hr : s.readers[r]? = some (.failed d e)) (hstep : step sha256 pid s l = some s') :
    s'.readers[r]? = some (.failed d e) := by
  obtain ⟨t, cl, -, rfl⟩ | ⟨other, rfl⟩ | ⟨u, old, new, hu, rfl, hcall⟩ := step_cases hstep
  · exact hr
  · exact getElem?_push_other hr
  · refine (List.getElem?_set_ne ?_).trans hr
    rintro rfl
    rw [hr, Option.some.injEq] at hu
    subst hu
    obtain ⟨n, -, hread⟩ | ⟨e', -, hfail⟩ := hcall
    · cases hread
    · cases hfail

theorem run_failed {d : Digest} {e : String} {r : Nat} {ls : List Label} {s s' : St}
    (hr : s.readers[r]? = some (.failed d e)) (hrun : run (step sha256 pid) s ls = some s') :
    s'.readers[r]? = some (.failed d e) :=
  run_keeps (fun _ _ _ => step_failed) hr hrun

theorem run_store {ls : List Label} {s s' : St} (hi : StoreInv sha256 pid s.store)
    (hrun : run (step sha256 pid) s ls = some s') : StoreInv sha256 pid s'.store :=
  run_keeps (fun _ _ _ => step_store) hi hrun

/-- The reader `r` is brought to its end by its own calls. -/
theorem Began.completes {s : St} {r : Nat} {reader : Reader} {d : Digest} {b : Bytes}
    (hr : s.readers[r]? = some reader) (h : Began s.store.fs d b reader)
    (hfailed : ∀ e, reader ≠ .failed d e) :
    ∃ (ns : List Nat) (s' : St), run (step sha256 pid) s (ns.map (.read r)) = some s' ∧
      s'.readers[r]? = some (.finished d b) ∧ s'.store = s.store := by
  have hlt := (List.getElem?_eq_some_iff.1 hr).1
  cases h with
  | @opened i got held data part =>
    obtain ⟨rest, rfl⟩ := part
    have hend : ∀ (s₁ : St), s₁.store = s.store →
        s₁.readers[r]? = some (.opened d i (got ++ rest)) →
        ∃ s', run (step sha256 pid) s₁ [.read r 0] = some s' ∧
          s'.readers[r]? = some (.finished d (got ++ rest)) ∧ s'.store = s.store := by
      intro s₁ hs₁ hr₁
      have hlt₁ := (List.getElem?_eq_some_iff.1 hr₁).1
      refine ⟨{ s₁ with readers := s₁.readers.set r (.finished d (got ++ rest)) }, ?_,
        List.getElem?_set_self hlt₁, hs₁⟩
      simp [run, step, St.turn, hr₁, Reader.read, hs₁, data]
    by_cases hrest : rest = []
    · subst hrest
      rw [List.append_nil] at hend
      obtain ⟨s', hrun, hfin, hstore⟩ := hend s rfl hr
      exact ⟨[0], s', hrun, by simpa using hfin, hstore⟩
    · have hpos := List.length_pos_iff.2 hrest
      have hstep : step sha256 pid s (.read r rest.length) =
          some { s with readers := s.readers.set r (.opened d i (got ++ rest)) } := by
        simp [step, St.turn, hr, Reader.read, data, hpos]
      obtain ⟨s', hrun, hfin, hstore⟩ :=
        hend { s with readers := s.readers.set r (.opened d i (got ++ rest)) } rfl
          (List.getElem?_set_self hlt)
      exact ⟨[rest.length, 0], s', by simpa [run, hstep] using hrun, hfin, hstore⟩
  | finished => exact ⟨[], s, rfl, hr, rfl⟩
  | failed => exact absurd rfl (hfailed _)

/-- **Reads are atomic.**  Let `d` be opened at any point of any run of writers, removals and other
    readers.  Without a blob the call fails; with the blob `b`, the sha256 of `b` is `d`, and
    whatever happens to the store from then on, the reader has got a part of `b` or ends with all
    of it, it only fails when one of its own calls does, and until then it can be brought to its
    end without a step of another task. -/
theorem reads_atomic {s₀ : Content.St} (h₀ : Opened sha256 s₀) {ls ls' : List Label} {s₁ s₂ s : St}
    {d : Digest} (hbefore : run (step sha256 pid) ⟨s₀, []⟩ ls = some s₁)
    (hopen : step sha256 pid s₁ (.openBlob d) = some s₂)
    (hafter : run (step sha256 pid) s₂ ls' = some s) :
    ∃ reader, s.readers[s₁.readers.length]? = some reader ∧
      match Content.read s₁.store d with
      | none => reader = .failed d notFound
      | some b => sha256 b = d ∧
        ((∃ i got, reader = .opened d i got ∧ got <+: b) ∨ reader = .finished d b ∨
          ∃ e, reader = .failed d e ∧ .readFailed s₁.readers.length e ∈ ls') ∧
        ((∀ e, reader ≠ .failed d e) →
          ∃ (ns : List Nat) (s' : St),
            run (step sha256 pid) s (ns.map (.read s₁.readers.length)) = some s' ∧
            s'.readers[s₁.readers.length]? = some (.finished d b)) := by
  have hi₁ : StoreInv sha256 pid s₁.store := run_store (h₀.inv sha256 pid) hbefore
  have hi₂ : StoreInv sha256 pid s₂.store := step_store hi₁ hopen
  have hs₂ : s₂ = { s₁ with readers := s₁.readers ++ [openBlob s₁.store.fs d] } :=
    (Option.some.inj hopen).symm
  have hpush : s₂.readers[s₁.readers.length]? = some (openBlob s₁.store.fs d) := by
    rw [hs₂]
    exact List.getElem?_concat_length
  cases hd : s₁.store.fs.dirent (.blob d.hex) with
  | none =>
    have hread : Content.read s₁.store d = none := by simp [Content.read, InodeFs.read, hd]
    have hfailed : openBlob s₁.store.fs d = .failed d notFound := by simp [openBlob, hd]
    rw [hfailed] at hpush
    refine ⟨_, run_failed hpush hafter, ?_⟩
    rw [hread]
  | some i =>
    have hread : Content.read s₁.store d = some (s₁.store.fs.data i) := by
      simp [Content.read, InodeFs.read, hd]
    have hopened : openBlob s₁.store.fs d = .opened d i [] := by simp [openBlob, hd]
    rw [hopened] at hpush
    have hbegan : Began s₂.store.fs d (s₁.store.fs.data i) (.opened d i []) := by
      rw [hs₂]
      exact .opened (held_of_blob hi₁.wf hd) rfl List.nil_prefix
    obtain ⟨reader, hreader, hend, hown⟩ := run_began hi₂ hpush hbegan hafter
    refine ⟨reader, hreader, ?_⟩
    rw [hread]
    refine ⟨Digest.hex_injective (hi₁.blobs d.hex i hd), ?_, fun hfailed => ?_⟩
    · cases hend with
      | @opened j got held data part => exact .inl ⟨j, got, rfl, part⟩
      | finished => exact .inr (.inl rfl)
      | @failed e =>
        refine .inr (.inr ⟨e, rfl, ?_⟩)
        rcases hown e rfl with h | h
        · cases h
        · exact h
    · obtain ⟨ns, s', hrun, hfin, -⟩ := hend.completes hreader hfailed
      exact ⟨ns, s', hrun, hfin⟩

/-- The empty blob is stored. -/
def storedEmpty : List Label := emptyBlobSchedule.map .store

/-- The blob is removed while it is read. -/
def removedSchedule : List Label :=
  [.store (.remove emptyDigest), .store (.unlink 1 true), .read 0 0]

/-- The number of readers and the blob at the open, the blob and the reader at the end. -/
def removedRun : Option (Nat × Option Bytes × Option Bytes × Option Reader) :=
  (run (step (fun _ => emptyDigest) 1) ⟨emptyStore, []⟩ storedEmpty).bind fun s₁ =>
  (step (fun _ => emptyDigest) 1 s₁ (.openBlob emptyDigest)).bind fun s₂ =>
  (run (step (fun _ => emptyDigest) 1) s₂ removedSchedule).map fun s =>
    (s₁.readers.length, Content.read s₁.store emptyDigest, Content.read s.store emptyDigest,
      s.readers[0]?)

theorem removed_blob_read : ∃ s₁ s₂ s b,
    run (step (fun _ => emptyDigest) 1) ⟨emptyStore, []⟩ storedEmpty = some s₁ ∧
    step (fun _ => emptyDigest) 1 s₁ (.openBlob emptyDigest) = some s₂ ∧
    run (step (fun _ => emptyDigest) 1) s₂ removedSchedule = some s ∧
    Content.read s₁.store emptyDigest = some b ∧ (fun _ => emptyDigest) b = emptyDigest ∧
    Content.read s.store emptyDigest = none ∧
    s.readers[s₁.readers.length]? = some (.finished emptyDigest b) := by
  have hall : removedRun = some (0, some [], none, some (.finished emptyDigest [])) := by decide
  obtain ⟨s₁, h₁, hall⟩ := Option.bind_eq_some_iff.1 hall
  obtain ⟨s₂, h₂, hall⟩ := Option.bind_eq_some_iff.1 hall
  obtain ⟨s, h, hall⟩ := Option.map_eq_some_iff.1 hall
  simp only [Prod.mk.injEq] at hall
  obtain ⟨hlen, hread, hgone, hlast⟩ := hall
  rw [← hlen] at hlast
  obtain ⟨reader, -, hcase⟩ := reads_atomic opened_emptyStore h₁ h₂ h
  rw [hread] at hcase
  exact ⟨s₁, s₂, s, [], h₁, h₂, h, hread, hcase.1, hgone, hlast⟩

end ContainerdRs.Content.Reads
