import ContainerdRs.Cri.Streaming.Exec

/-!
# A process in an exec session

A process writes any amount to its outputs, reads stdin to the end and exits.  It is stuck if it
waits for a pipe and no schedule in which the client keeps the connection open, sends no more stdin
and nothing fails ever lets it move.

* `Ready`, `InStep` — what every run keeps of the pipes and of the process.
* `not_stuck` — with a stdin task that sees the client's end, and room or a pump for every output.
-/

set_option autoImplicit false

namespace ContainerdRs.Cri.Streaming.Exec

open Transition Pump ContainerdRs.Cri.Spdy

/-! ## The process -/

/-- A process that writes, reads stdin to its end, and exits. -/
structure Process where
  State : Type
  init : State
  /-- What it writes before its next read. -/
  out : State → List (Output × UInt8)
  /-- It has read some bytes. -/
  next : State → Bytes → State
  /-- What it writes after the end of stdin. -/
  last : State → List (Output × UInt8)
  /-- Its exit code. -/
  code : State → Option Int

/-- The process and the session. -/
structure Sys (P : Process) (F : Type) where
  state : P.State
  /-- What it writes next; it reads, or exits, when nothing is left. -/
  todo : List (Output × UInt8)
  /-- It has read the end of stdin. -/
  eof : Bool
  /-- What its reads have returned. -/
  reads : List Bytes
  /-- How often it has moved. -/
  moves : Nat
  exec : St F

variable {P : Process} {F : Type}

/-- The session when `crun exec` has been spawned. -/
def Sys.start (P : Process) (p : Plan F) : Sys P F :=
  ⟨P.init, P.out P.init, false, [], 0, .start p (.ok ())⟩

/-- Steps of the process. -/
def Label.isProcess : Label → Bool
  | .write _ _ => true
  | .brokenPipe _ => true
  | .close _ => true
  | .readIn _ => true
  | .readInEof => true
  | .closeIn => true
  | .exit _ => true
  | _ => false

/-- The write that comes next has no reader: SIGPIPE may end the process. -/
def Sys.broken (p : Plan F) (s : Sys P F) : Bool :=
  match s.todo with
  | [] => false
  | (c, _) :: _ => !s.exec.readerOpen p c

/-- Whether this step is what the process does next. -/
def Sys.does (p : Plan F) (s : Sys P F) : Label → Bool
  | .write c bytes =>
    match s.todo with
    | [] => false
    | (d, b) :: _ => s.exec.exited = none && c == d && bytes == [b]
  | .brokenPipe c =>
    match s.todo with
    | [] => false
    | (d, _) :: _ => s.exec.exited = none && c == d
  | .readIn _ => s.exec.exited = none && s.todo.isEmpty && !s.eof
  | .readInEof => s.exec.exited = none && s.todo.isEmpty && !s.eof
  | .exit code =>
    (s.todo.isEmpty && s.eof && code == P.code s.state) || (s.broken p && code == none)
  -- the pipes of the process are closed when it has exited
  | .close _ => s.exec.exited.isSome
  | .closeIn => s.exec.exited.isSome
  | _ => false

/-- The process after a read that has returned a chunk. -/
def Sys.took (s : Sys P F) (chunk : Bytes) (e : St F) : Sys P F where
  state := P.next s.state chunk
  todo := P.out (P.next s.state chunk)
  eof := s.eof
  reads := s.reads ++ [chunk]
  moves := s.moves + 1
  exec := e

/-- The process after its step. -/
def Sys.done (s : Sys P F) (e : St F) : Label → Sys P F
  | .write _ _ => { s with todo := s.todo.tail, moves := s.moves + 1, exec := e }
  | .brokenPipe _ => { s with todo := s.todo.tail, moves := s.moves + 1, exec := e }
  | .readIn n => s.took (s.exec.pipeIn.take n) e
  | .readInEof =>
    { s with todo := P.last s.state, eof := true, moves := s.moves + 1, exec := e }
  | _ => { s with exec := e }

/-- One step of the process or of anyone else. -/
def sysStep (p : Plan F) (cap : Nat) (s : Sys P F) (l : Label) : Option (Sys P F) :=
  if l.isProcess && !s.does p l then none else (step p cap s.exec l).map fun e => s.done e l

/-- The client keeps the connection, and nothing fails. -/
def Label.calm : Label → Bool
  | .hangup => false
  | .readFailed _ => false
  | .sendFailed _ => false
  | .waitFailed => false
  | _ => true

/-- **Stuck**: the client has finished its stdin, and the process never moves again while the client
    keeps the connection. -/
def Stuck (p : Plan F) (cap : Nat) (s : Sys P F) : Prop :=
  s.exec.clientDone = true ∧ s.exec.exited = none ∧
    ∀ (ls : List Label) (t : Sys P F), (∀ l ∈ ls, l.calm = true) →
      run (sysStep p cap) s ls = some t → t.moves = s.moves ∧ t.exec.exited = none

/-- No state of a session whose client keeps the connection is stuck. -/
def NeverWedges (P : Process) (p : Plan F) (cap : Nat) : Prop :=
  ∀ (ls : List Label) (s : Sys P F), (∀ l ∈ ls, l ≠ .hangup) →
    run (sysStep p cap) (.start P p) ls = some s → ¬ Stuck p cap s

/-! ## What a process writes -/

/-- The state after these reads. -/
def stateAfter (P : Process) (reads : List Bytes) : P.State := reads.foldl P.next P.init

/-- What the process writes until it reads once more. -/
def outputs (P : Process) : P.State → List Bytes → List (Output × UInt8)
  | st, [] => P.out st
  | st, chunk :: reads => P.out st ++ outputs P (P.next st chunk) reads

/-- Everything it writes, the end of stdin coming after these reads. -/
def allOutputs (P : Process) (reads : List Bytes) : List (Output × UInt8) :=
  outputs P P.init reads ++ P.last (stateAfter P reads)

/-- How much of it goes to an output. -/
def countOf (c : Output) (ws : List (Output × UInt8)) : Nat := ws.countP fun w => w.1 == c

/-- Reads from a pipe. -/
def Readable (cap : Nat) (reads : List Bytes) : Prop :=
  ∀ chunk ∈ reads, chunk ≠ [] ∧ chunk.length ≤ cap

theorem outputs_snoc (chunk : Bytes) : ∀ (reads : List Bytes) (st : P.State),
    outputs P st (reads ++ [chunk]) =
      outputs P st reads ++ P.out (P.next (reads.foldl P.next st) chunk)
  | [], st => rfl
  | c :: reads, st => by
    rw [List.cons_append, outputs, outputs, outputs_snoc chunk reads, List.append_assoc]
    rfl

/-! ## What every run keeps -/

/-- The pipes and the stdin task. -/
structure Ready (p : Plan F) (cap : Nat) (e : St F) : Prop where
  writers : e.exited = none → ∀ c, e.writers c = true
  stdinReader : e.exited = none → e.stdinReader = true
  holding : ∀ rest, e.stdinStage = .holding rest → rest ≠ []
  pipeIn : e.pipeIn.length ≤ cap
  pending : ∀ c, (e.lines c).pending.length ≤ cap
  inbox : e.clientDone = true → p.seesEnd = true → e.inboxOpen = false

/-- Bytes that a step writes to an output. -/
def Label.bytesTo (c : Output) : Label → Nat
  | .write d bytes => if d = c then bytes.length else 0
  | _ => 0

section

variable {p : Plan F} {cap : Nat} {e e' : St F}

theorem ready_start (p : Plan F) (cap : Nat) : Ready p cap (.start p (.ok ())) := by
  refine ⟨fun _ _ => rfl, fun _ => rfl, ?_, Nat.zero_le _, fun _ => Nat.zero_le _, ?_⟩
  · intro rest h
    cases h
  · intro h
    cases h

/-- Another content of one pipe. -/
theorem Ready.line (h : Ready p cap e) {c : Output} {l : Line UInt8}
    (hl : l.pending.length ≤ cap) : Ready p cap (e.setLine c l) := by
  refine ⟨h.writers, h.stdinReader, h.holding, h.pipeIn, ?_, h.inbox⟩
  intro d
  by_cases hd : d = c
  · subst hd
    rw [setLine_same]
    exact hl
  · rw [setLine_other e hd]
    exact h.pending d

/-- What a step does to the pending bytes of each output. -/
def Grows (l : Label) (e e' : St F) : Prop :=
  ∀ c, (e'.lines c).pending.length ≤ (e.lines c).pending.length + l.bytesTo c

theorem grows_same (l : Label) (h : e'.lines = e.lines) : Grows l e e' := by
  intro c
  rw [h]
  exact Nat.le_add_right _ _

theorem grows_line {l : Label} {c : Output} {x : Line UInt8}
    (h : x.pending.length ≤ (e.lines c).pending.length + l.bytesTo c) :
    Grows l e (e.setLine c x) := by
  intro d
  by_cases hd : d = c
  · subst hd
    rw [setLine_same]
    exact h
  · rw [setLine_other e hd]
    exact Nat.le_add_right _ _

/-- A pump never adds to its pipe. -/
theorem pending_le_of_pump {l l' : Line UInt8} {n : Nat}
    (h : l.read bufSize n = some l' ∨ l.leave = some l' ∨ l.deliver = some l' ∨
      l.refuse = some l') : l'.pending.length ≤ l.pending.length := by
  rcases h with h | h | h | h
  · obtain ⟨-, -, -, -, rfl⟩ := read_some h
    rw [List.length_drop]
    omega
  · obtain ⟨-, rfl⟩ := leave_some h
    exact Nat.le_refl _
  · obtain ⟨chunk, -, rfl⟩ := deliver_some h
    exact Nat.le_refl _
  · obtain ⟨chunk, -, rfl⟩ := refuse_some h
    exact Nat.le_refl _

theorem Ready.pump (h : Ready p cap e) {l : Label} {c : Output} {x : Line UInt8}
    (hx : x.pending.length ≤ (e.lines c).pending.length) :
    Ready p cap (e.setLine c x) ∧ Grows l e (e.setLine c x) :=
  ⟨h.line (hx.trans (h.pending c)), grows_line (hx.trans (Nat.le_add_right _ _))⟩

/-- **One step of the session**, where the process closes its pipes only once it has exited. -/
theorem Ready.step {l : Label} (h : Ready p cap e)
    (hclose : (∃ c, l = .close c) ∨ l = .closeIn → e.exited ≠ none)
    (hstep : step p cap e l = some e') : Ready p cap e' ∧ Grows l e e' := by
  have hquiet : ∀ {phase : Phase F} {sent : List F}, Ready p cap { e with phase, sent } :=
    ⟨h.writers, h.stdinReader, h.holding, h.pipeIn, h.pending, h.inbox⟩
  cases moves_of_step hstep with
  | @write c bytes _ _ _ hroom =>
    have hlen : ((e.lines c).arrive bytes).pending.length =
        (e.lines c).pending.length + bytes.length := by
      simp [Line.arrive]
    refine ⟨h.line (by rw [hlen]; exact hroom), grows_line ?_⟩
    rw [hlen]
    simp [Label.bytesTo]
  | brokenPipe => exact ⟨h, grows_same _ rfl⟩
  | @close c _ =>
    exact ⟨⟨fun hx => absurd hx (hclose (.inl ⟨c, rfl⟩)), h.stdinReader, h.holding, h.pipeIn,
      h.pending, h.inbox⟩, grows_same _ rfl⟩
  | readIn =>
    refine ⟨⟨h.writers, h.stdinReader, h.holding, ?_, h.pending, h.inbox⟩, grows_same _ rfl⟩
    rw [List.length_drop]
    exact (Nat.sub_le _ _).trans h.pipeIn
  | readInEof => exact ⟨h, grows_same _ rfl⟩
  | closeIn =>
    exact ⟨⟨h.writers, fun hx => absurd hx (hclose (.inr rfl)), h.holding, h.pipeIn, h.pending,
      h.inbox⟩, grows_same _ rfl⟩
  | exit =>
    refine ⟨⟨?_, ?_, h.holding, h.pipeIn, h.pending, h.inbox⟩, grows_same _ rfl⟩
    · intro hx
      cases hx
    · intro hx
      cases hx
  | read _ hread => exact h.pump (pending_le_of_pump (.inl hread))
  | readEof _ _ _ hleave => exact h.pump (pending_le_of_pump (n := 0) (.inr (.inl hleave)))
  | readFailed _ hleave => exact h.pump (pending_le_of_pump (n := 0) (.inr (.inl hleave)))
  | @send c _ _ _ _ _ hdeliver =>
    obtain ⟨hr, hg⟩ :=
      h.pump (l := .send c) (pending_le_of_pump (n := 0) (.inr (.inr (.inl hdeliver))))
    exact ⟨⟨hr.writers, hr.stdinReader, hr.holding, hr.pipeIn, hr.pending, hr.inbox⟩, hg⟩
  | sendFailed _ hrefuse =>
    exact h.pump (pending_le_of_pump (n := 0) (.inr (.inr (.inr hrefuse))))
  | recv =>
    refine ⟨⟨h.writers, h.stdinReader, ?_, h.pipeIn, h.pending, h.inbox⟩, grows_same _ rfl⟩
    intro rest hrest
    dsimp only at hrest
    split at hrest
    · cases hrest
    · cases hrest
      assumption
  | recvNone | writeFailed =>
    refine ⟨⟨h.writers, h.stdinReader, ?_, h.pipeIn, h.pending, h.inbox⟩, grows_same _ rfl⟩
    intro rest hrest
    cases hrest
  | @wrote n rest _ _ _ hpos hle hroom =>
    refine ⟨⟨h.writers, h.stdinReader, ?_, ?_, h.pending, h.inbox⟩, grows_same _ rfl⟩
    · intro rest' hrest
      dsimp only at hrest
      split at hrest
      · cases hrest
      · cases hrest
        rw [Ne, List.drop_eq_nil_iff]
        omega
    · rw [List.length_append, List.length_take]
      omega
  | waited | waitFailed | joined | reported | left => exact ⟨hquiet, grows_same _ rfl⟩
  | input =>
    exact ⟨⟨h.writers, h.stdinReader, h.holding, h.pipeIn, h.pending, h.inbox⟩, grows_same _ rfl⟩
  | inputEnd =>
    refine ⟨⟨h.writers, h.stdinReader, h.holding, h.pipeIn, h.pending, ?_⟩, grows_same _ rfl⟩
    intro _ hsees
    simp [hsees]
  | hangup =>
    exact ⟨⟨h.writers, h.stdinReader, h.holding, h.pipeIn, h.pending, fun _ _ => rfl⟩,
      grows_same _ rfl⟩

end

/-- The process has written what its reads make it write, and no pipe holds more. -/
structure InStep (p : Plan F) (cap : Nat) (s : Sys P F) : Prop where
  ready : Ready p cap s.exec
  state : s.state = stateAfter P s.reads
  reads : Readable cap s.reads
  account : ∃ written, written ++ s.todo =
      outputs P P.init s.reads ++ (if s.eof then P.last s.state else []) ∧
    ∀ c, (s.exec.lines c).pending.length ≤ countOf c written

section

variable {p : Plan F} {cap : Nat} {s t : Sys P F}

theorem inStep_start (P : Process) (p : Plan F) (cap : Nat) : InStep p cap (Sys.start P p) := by
  refine ⟨ready_start p cap, rfl, ?_, [], ?_, fun _ => Nat.zero_le _⟩
  · intro chunk h
    cases h
  · simp [Sys.start, outputs]

theorem sysStep_some {l : Label} (h : sysStep p cap s l = some t) :
    ∃ e, step p cap s.exec l = some e ∧ t = s.done e l ∧
      (l.isProcess = true → s.does p l = true) := by
  unfold sysStep at h
  split_ifs at h with hd
  obtain ⟨e, he, rfl⟩ := Option.map_eq_some_iff.1 h
  refine ⟨e, he, rfl, ?_⟩
  intro hp
  simpa [hp] using hd

/-- What the process does next is a write. -/
theorem todo_of_write {c : Output} {bytes : Bytes} (h : s.does p (.write c bytes) = true) :
    ∃ b, s.todo = (c, b) :: s.todo.tail ∧ bytes = [b] ∧ s.exec.exited = none := by
  simp only [Sys.does] at h
  split at h
  · cases h
  · rename_i d b rest htodo
    simp only [Bool.and_eq_true, decide_eq_true_eq, beq_iff_eq] at h
    obtain ⟨⟨hx, rfl⟩, rfl⟩ := h
    exact ⟨b, by rw [htodo, List.tail_cons], rfl, hx⟩

theorem todo_of_brokenPipe {c : Output} (h : s.does p (.brokenPipe c) = true) :
    ∃ b, s.todo = (c, b) :: s.todo.tail ∧ s.exec.exited = none := by
  simp only [Sys.does] at h
  split at h
  · cases h
  · rename_i d b rest htodo
    simp only [Bool.and_eq_true, decide_eq_true_eq, beq_iff_eq] at h
    obtain ⟨hx, rfl⟩ := h
    exact ⟨b, by rw [htodo, List.tail_cons], hx⟩

theorem todo_of_read {n : Nat} (h : s.does p (.readIn n) = true) :
    s.todo = [] ∧ s.eof = false ∧ s.exec.exited = none := by
  simp only [Sys.does, Bool.and_eq_true, decide_eq_true_eq, List.isEmpty_iff,
    Bool.not_eq_true'] at h
  exact ⟨h.1.2, h.2, h.1.1⟩

theorem countOf_snoc (c d : Output) (b : UInt8) (ws : List (Output × UInt8)) :
    countOf c (ws ++ [(d, b)]) = countOf c ws + if d = c then 1 else 0 := by
  rw [countOf, List.countP_append, List.countP_singleton]
  by_cases hd : d = c <;> simp [countOf, hd]

/-- A byte is written, or lost because nobody reads. -/
theorem InStep.wrote (h : InStep p cap s) {e : St F} (he : Ready p cap e) {c : Output} {b : UInt8}
    (htodo : s.todo = (c, b) :: s.todo.tail)
    (hgrow : ∀ d, (e.lines d).pending.length ≤
      (s.exec.lines d).pending.length + if c = d then 1 else 0) :
    InStep p cap { s with todo := s.todo.tail, moves := s.moves + 1, exec := e } := by
  obtain ⟨written, hall, hpending⟩ := h.account
  refine ⟨he, h.state, h.reads, written ++ [(c, b)], ?_, ?_⟩
  · rw [htodo] at hall
    rw [← hall, List.append_assoc]
    rfl
  · intro d
    rw [countOf_snoc]
    have hd := hgrow d
    have hp := hpending d
    change (e.lines d).pending.length ≤ _
    omega

/-- Nothing is written. -/
theorem InStep.other (h : InStep p cap s) {e : St F} (he : Ready p cap e)
    (hgrow : ∀ d, (e.lines d).pending.length ≤ (s.exec.lines d).pending.length) :
    InStep p cap { s with exec := e } := by
  obtain ⟨written, hall, hpending⟩ := h.account
  exact ⟨he, h.state, h.reads, written, hall, fun d => (hgrow d).trans (hpending d)⟩

/-- The process reads stdin. -/
theorem InStep.readIn (h : InStep p cap s) {e : St F} (he : Ready p cap e) {n : Nat}
    (hgrow : ∀ d, (e.lines d).pending.length ≤ (s.exec.lines d).pending.length)
    (htodo : s.todo = []) (heof : s.eof = false) (hpos : 0 < n) (hle : n ≤ s.exec.pipeIn.length) :
    InStep p cap (s.done e (.readIn n)) := by
  obtain ⟨written, hall, hpending⟩ := h.account
  refine ⟨he, ?_, ?_, written, ?_, fun d => (hgrow d).trans (hpending d)⟩
  · simp only [Sys.done, Sys.took, stateAfter, List.foldl_append, List.foldl_cons, List.foldl_nil]
    rw [h.state, stateAfter]
  · intro chunk hchunk
    rcases List.mem_append.1 hchunk with hchunk | hchunk
    · exact h.reads chunk hchunk
    · rw [List.mem_singleton.1 hchunk]
      have hlen : (s.exec.pipeIn.take n).length = n := by
        rw [List.length_take, Nat.min_eq_left hle]
      refine ⟨?_, ?_⟩
      · intro hnil
        rw [hnil, List.length_nil] at hlen
        omega
      · rw [hlen]
        exact hle.trans h.ready.pipeIn
  · rw [htodo, heof] at hall
    simp only [List.append_nil, Bool.false_eq_true, if_false] at hall
    simp only [Sys.done, Sys.took, heof, Bool.false_eq_true, if_false, List.append_nil]
    rw [outputs_snoc, hall, h.state]
    rfl

/-- The process reads the end of stdin. -/
theorem InStep.readInEof (h : InStep p cap s) (htodo : s.todo = []) (heof : s.eof = false) :
    InStep p cap (s.done s.exec .readInEof) := by
  obtain ⟨written, hall, hpending⟩ := h.account
  refine ⟨h.ready, h.state, h.reads, written, ?_, hpending⟩
  rw [htodo, heof] at hall
  simp only [List.append_nil, Bool.false_eq_true, if_false] at hall
  simp only [Sys.done, if_true]
  rw [hall]

theorem inStep_step {l : Label} (h : InStep p cap s) (hstep : sysStep p cap s l = some t) :
    InStep p cap t := by
  obtain ⟨e, he, rfl, hdoes⟩ := sysStep_some hstep
  have hclose : (∃ c, l = .close c) ∨ l = .closeIn → s.exec.exited ≠ none := by
    rintro (⟨c, rfl⟩ | rfl)
    · have hd := hdoes rfl
      simp only [Sys.does] at hd
      intro hx
      rw [hx] at hd
      cases hd
    · have hd := hdoes rfl
      simp only [Sys.does] at hd
      intro hx
      rw [hx] at hd
      cases hd
  obtain ⟨hready, hgrow⟩ := h.ready.step hclose he
  cases l with
  | write c bytes =>
    obtain ⟨b, htodo, rfl, -⟩ := todo_of_write (hdoes rfl)
    refine h.wrote hready htodo ?_
    intro d
    have hd := hgrow d
    simpa [Label.bytesTo] using hd
  | brokenPipe c =>
    obtain ⟨b, htodo, -⟩ := todo_of_brokenPipe (hdoes rfl)
    refine h.wrote hready htodo ?_
    intro d
    exact (hgrow d).trans (Nat.le_add_right _ _)
  | readIn n =>
    obtain ⟨htodo, heof, -⟩ := todo_of_read (hdoes rfl)
    obtain ⟨hpos, hle⟩ : 0 < n ∧ n ≤ s.exec.pipeIn.length := by
      cases moves_of_step he with
      | readIn _ hpos hle => exact ⟨hpos, hle⟩
    exact h.readIn hready hgrow htodo heof hpos hle
  | readInEof =>
    obtain ⟨htodo, heof, -⟩ := todo_of_read (show s.does p (.readIn 0) = true from hdoes rfl)
    simp only [step] at he
    split_ifs at he
    cases he
    exact h.readInEof htodo heof
  | _ => exact h.other hready hgrow

theorem inStep_run {ls : List Label} (hrun : run (sysStep p cap) (.start P p) ls = some s) :
    InStep p cap s := by
  have hkeep : ∀ s l s', InStep p cap s → True → sysStep p cap s l = some s' →
      InStep p cap (P := P) s' := fun s l s' h _ hstep => inStep_step h hstep
  exact run_invariant hkeep ls _ s (inStep_start P p cap) (fun _ _ => trivial) hrun

end

/-! ## The process moves on -/

/-- Some calm schedule lets the process move or exit. -/
def CanMove (p : Plan F) (cap : Nat) (s : Sys P F) : Prop :=
  ∃ (ls : List Label) (t : Sys P F), (∀ l ∈ ls, l.calm = true) ∧
    run (sysStep p cap) s ls = some t ∧ (s.moves < t.moves ∨ t.exec.exited ≠ none)

section

variable {p : Plan F} {cap : Nat} {s t : Sys P F}

theorem CanMove.not_stuck (h : CanMove p cap s) : ¬ Stuck p cap s := by
  rintro ⟨-, -, hall⟩
  obtain ⟨ls, t, hcalm, hrun, hmoved⟩ := h
  obtain ⟨hsame, hx⟩ := hall ls t hcalm hrun
  rcases hmoved with hlt | hx'
  · omega
  · exact hx' hx

theorem sysStep_eq {l : Label} {e : St F} (hdoes : l.isProcess = true → s.does p l = true)
    (he : step p cap s.exec l = some e) : sysStep p cap s l = some (s.done e l) := by
  unfold sysStep
  cases hl : l.isProcess with
  | true => simp [hdoes hl, he]
  | false => simp [he]

theorem canMove_now {l : Label} (hcalm : l.calm = true) (h : sysStep p cap s l = some t)
    (hmoved : s.moves < t.moves ∨ t.exec.exited ≠ none) : CanMove p cap s := by
  refine ⟨[l], t, ?_, ?_, hmoved⟩
  · intro l' hl'
    rw [List.mem_singleton.1 hl']
    exact hcalm
  · rw [run, h]
    rfl

/-- Steps that are not of the process leave it alone. -/
theorem done_session {l : Label} (hl : l.isProcess = false) (e : St F) :
    s.done e l = { s with exec := e } := by
  cases l <;> first | rfl | cases hl

theorem sysStep_session {l : Label} {e : St F} (hl : l.isProcess = false)
    (hstep : step p cap s.exec l = some e) : sysStep p cap s l = some { s with exec := e } := by
  rw [← done_session hl]
  refine sysStep_eq ?_ hstep
  rw [hl]
  intro hp
  cases hp

/-- Somebody else moves first. -/
theorem canMove_after {l : Label} {e : St F} (hcalm : l.calm = true) (hl : l.isProcess = false)
    (hstep : step p cap s.exec l = some e) (h : CanMove p cap { s with exec := e }) :
    CanMove p cap s := by
  have hsys := sysStep_session hl hstep
  obtain ⟨ls, u, hcalm', hrun, hmoved⟩ := h
  refine ⟨l :: ls, u, ?_, ?_, hmoved⟩
  · intro l' hl'
    rcases List.mem_cons.1 hl' with rfl | hl'
    · exact hcalm
    · exact hcalm' l' hl'
  · rw [run, hsys]
    exact hrun

/-- There is room in the pipe, or nobody reads it. -/
theorem canMove_write {c : Output} {b : UInt8} {rest : List (Output × UInt8)}
    (hx : s.exec.exited = none) (hw : s.exec.writers c = true) (htodo : s.todo = (c, b) :: rest)
    (hroom : s.exec.readerOpen p c = true → (s.exec.lines c).pending.length + 1 ≤ cap) :
    CanMove p cap s := by
  cases hopen : s.exec.readerOpen p c with
  | false =>
    have hstep : step p cap s.exec (.brokenPipe c) = some s.exec := by
      simp [step, hw, hopen]
    refine canMove_now rfl (sysStep_eq (fun _ => ?_) hstep) (.inl (Nat.lt_succ_self _))
    simp [Sys.does, htodo, hx]
  | true =>
    have hstep : step p cap s.exec (.write c [b]) =
        some (s.exec.setLine c ((s.exec.lines c).arrive [b])) := by
      simp [step, hw, hopen, hroom hopen]
    refine canMove_now rfl (sysStep_eq (fun _ => ?_) hstep) (.inl (Nat.lt_succ_self _))
    simp [Sys.does, htodo, hx]

/-- The pump makes room. -/
theorem canMove_pumped {c : Output} {b : UInt8} {rest : List (Output × UInt8)}
    {frame : Bytes → F} (hr : p.reader c = .pumped frame) (hx : s.exec.exited = none)
    (hw : s.exec.writers c = true) (htodo : s.todo = (c, b) :: rest)
    (ht : (s.exec.lines c).task = .reading) (hpos : 0 < (s.exec.lines c).pending.length)
    (hle : (s.exec.lines c).pending.length ≤ cap) : CanMove p cap s := by
  have hread : (s.exec.lines c).read bufSize 1 = some { s.exec.lines c with
      task := .holding ((s.exec.lines c).pending.take 1)
      pending := (s.exec.lines c).pending.drop 1 } := by
    have hone : 1 ≤ bufSize ∧ 1 ≤ (s.exec.lines c).pending.length := ⟨by decide, hpos⟩
    simp [Line.read, ht, hone]
  have hstep : step p cap s.exec (.read c 1) = some (s.exec.setLine c { s.exec.lines c with
      task := .holding ((s.exec.lines c).pending.take 1)
      pending := (s.exec.lines c).pending.drop 1 }) := by
    simp [step, hr, hread]
  refine canMove_after rfl rfl hstep (canMove_write hx hw htodo ?_)
  intro _
  simp only [setLine_same, List.length_drop]
  omega

/-- The process can write, whoever reads. -/
theorem canMove_todo (hcap : 0 < cap) (h : Ready p cap s.exec) (hx : s.exec.exited = none)
    {c : Output} {b : UInt8} {rest : List (Output × UInt8)} (htodo : s.todo = (c, b) :: rest)
    (hkept : p.reader c = .kept → (s.exec.lines c).pending.length + 1 ≤ cap) :
    CanMove p cap s := by
  have hw := h.writers hx c
  by_cases hroom : (s.exec.lines c).pending.length + 1 ≤ cap
  · exact canMove_write hx hw htodo fun _ => hroom
  · have hpos : 0 < (s.exec.lines c).pending.length := by omega
    cases hr : p.reader c with
    | kept => exact absurd (hkept hr) hroom
    | dropped =>
      refine canMove_write hx hw htodo ?_
      intro hopen
      rw [St.readerOpen, hr] at hopen
      cases hopen
    | pumped frame =>
      cases ht : (s.exec.lines c).task with
      | reading => exact canMove_pumped hr hx hw htodo ht hpos (h.pending c)
      | holding chunk =>
        have hstep : step p cap s.exec (.send c) = some { s.exec.setLine c { s.exec.lines c with
            task := .reading, out := (s.exec.lines c).out ++ [chunk] } with
            sent := s.exec.sent ++ [frame chunk] } := by
          simp [step, hr, ht, Line.deliver]
        refine canMove_after rfl rfl hstep (canMove_pumped hr hx hw htodo ?_ ?_ ?_)
        · simp
        · simpa using hpos
        · simpa using h.pending c
      | done dropped =>
        refine canMove_write hx hw htodo ?_
        intro hopen
        rw [St.readerOpen, hr, ht] at hopen
        cases hopen

/-- Bytes wait in the stdin pipe. -/
theorem canMove_readIn (hx : s.exec.exited = none) (hr : s.exec.stdinReader = true)
    (htodo : s.todo = []) (heof : s.eof = false) (hin : 0 < s.exec.pipeIn.length) :
    CanMove p cap s := by
  have hstep : step p cap s.exec (.readIn 1) =
      some { s.exec with pipeIn := s.exec.pipeIn.drop 1 } := by
    have hone : 1 ≤ s.exec.pipeIn.length := hin
    simp [step, hr, hone]
  refine canMove_now rfl (sysStep_eq (fun _ => ?_) hstep) (.inl (Nat.lt_succ_self _))
  simp [Sys.does, hx, htodo, heof]

/-- The stdin pipe is closed. -/
theorem canMove_readInEof (hx : s.exec.exited = none) (hr : s.exec.stdinReader = true)
    (htodo : s.todo = []) (heof : s.eof = false) (hin : s.exec.pipeIn = [])
    (hheld : s.exec.stdinHeld p = false) : CanMove p cap s := by
  have hstep : step p cap s.exec .readInEof = some s.exec := by
    simp [step, hr, hin, hheld]
  refine canMove_now rfl (sysStep_eq (fun _ => ?_) hstep) (.inl (Nat.lt_succ_self _))
  simp [Sys.does, hx, htodo, heof]

/-- The stdin task holds bytes for the process. -/
theorem canMove_holding (hcap : 0 < cap) (htask : p.stdinTask = true) (hx : s.exec.exited = none)
    (hr : s.exec.stdinReader = true) (htodo : s.todo = []) (heof : s.eof = false)
    (hin : s.exec.pipeIn = []) {b : UInt8} {more : Bytes}
    (hstage : s.exec.stdinStage = .holding (b :: more)) : CanMove p cap s := by
  have hstep : step p cap s.exec (.wrote 1) = some { s.exec with
      pipeIn := s.exec.pipeIn ++ [b]
      stdinStage := if 1 = (b :: more).length then .reading else .holding more } := by
    have hone : 1 ≤ cap := hcap
    simp [step, htask, hstage, hr, hin, hone]
  refine canMove_after rfl rfl hstep (canMove_readIn hx hr htodo heof ?_)
  simp

/-- The stdin task empties its inbox and sees the end. -/
theorem canMove_inbox (hcap : 0 < cap) (htask : p.stdinTask = true) :
    ∀ {inbox : List Bytes} {s : Sys P F}, s.exec.inbox = inbox → s.exec.inboxOpen = false →
      s.exec.exited = none → s.exec.stdinReader = true → s.todo = [] → s.eof = false →
      s.exec.pipeIn = [] → s.exec.stdinStage = .reading → CanMove p cap s
  | [], s, hinbox, hopen, hx, hr, htodo, heof, hin, hstage => by
    have hstep : step p cap s.exec .recvNone = some { s.exec with stdinStage := .done [] } := by
      simp [step, htask, hstage, hinbox, hopen]
    refine canMove_after rfl rfl hstep (canMove_readInEof hx hr htodo heof hin ?_)
    simp [St.stdinHeld, htask, Stage.isOver]
  | chunk :: inbox, s, hinbox, hopen, hx, hr, htodo, heof, hin, hstage => by
    have hstep : step p cap s.exec .recv = some { s.exec with
        stdinStage := if chunk = [] then .reading else .holding chunk, inbox := inbox } := by
      simp [step, htask, hstage, hinbox]
    cases chunk with
    | nil =>
      exact canMove_after rfl rfl hstep
        (canMove_inbox hcap htask rfl hopen hx hr htodo heof hin rfl)
    | cons b more =>
      exact canMove_after rfl rfl hstep
        (canMove_holding hcap htask hx hr htodo heof hin rfl)

/-- **Not stuck**, if the client's end of stdin reaches the process and an output nobody reads has
    room for all that is written to it. -/
theorem not_stuck (hcap : 0 < cap) (h : InStep p cap s) (htask : p.stdinTask = true)
    (hsees : p.seesEnd = true)
    (hroom : ∀ c, p.reader c = .kept → ∀ reads, Readable cap reads →
      countOf c (allOutputs P reads) ≤ cap) : ¬ Stuck p cap s := by
  intro hstuck
  have hdone := hstuck.1
  have hx := hstuck.2.1
  refine CanMove.not_stuck ?_ hstuck
  cases htodo : s.todo with
  | cons w rest =>
    obtain ⟨c, b⟩ := w
    refine canMove_todo hcap h.ready hx htodo ?_
    intro hkept
    obtain ⟨written, hall, hpending⟩ := h.account
    have hbound := hroom c hkept s.reads h.reads
    have hcount : countOf c (written ++ s.todo) ≤ countOf c (allOutputs P s.reads) := by
      rw [hall, allOutputs, ← h.state]
      cases s.eof with
      | true => exact Nat.le_refl _
      | false =>
        simp only [Bool.false_eq_true, if_false, List.append_nil, countOf, List.countP_append]
        omega
    unfold countOf at hcount hbound
    rw [htodo, List.countP_append, List.countP_cons_of_pos (by simp)] at hcount
    have hp := hpending c
    unfold countOf at hp
    omega
  | nil =>
    have hr := h.ready.stdinReader hx
    cases heof : s.eof with
    | true =>
      have hstep : step p cap s.exec (.exit (P.code s.state)) =
          some { s.exec with exited := some (P.code s.state) } := by
        simp [step, hx]
      refine canMove_now rfl (sysStep_eq (fun _ => ?_) hstep) (.inr ?_)
      · simp [Sys.does, htodo, heof]
      · simp [Sys.done]
    | false =>
      by_cases hin : s.exec.pipeIn = []
      · cases hstage : s.exec.stdinStage with
        | reading =>
          exact canMove_inbox hcap htask rfl (h.ready.inbox hdone hsees) hx hr htodo heof hin hstage
        | holding rest =>
          cases rest with
          | nil => exact absurd rfl (h.ready.holding [] hstage)
          | cons b more => exact canMove_holding hcap htask hx hr htodo heof hin hstage
        | done dropped =>
          refine canMove_readInEof hx hr htodo heof hin ?_
          simp [St.stdinHeld, htask, hstage, Stage.isOver]
      · exact canMove_readIn hx hr htodo heof (List.length_pos_of_ne_nil hin)

end

end ContainerdRs.Cri.Streaming.Exec
