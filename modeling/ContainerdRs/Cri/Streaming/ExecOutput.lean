import ContainerdRs.Cri.Spdy.Demux
import ContainerdRs.Cri.Streaming.Exec

/-!
# Exec output comes before the exit status

The pumps and the handler share one connection; the handler sends the status only once it has
joined the pumps, and a pump returns only at the end of its pipe.

* `Accounted` — what has been sent is the chunks of the pumps, in the order they were sent, and
  then what the handler has added.
* `accounted_run` — along every run in which no send and no read of a pipe fails.
* `finishes` — once the child is gone and its pipes are closed, the handler returns.
* `output_before_status` — for the two handlers.
-/

set_option autoImplicit false

namespace ContainerdRs.Cri.Streaming.Exec

open Transition Pump ContainerdRs.Cri.Spdy

variable {F : Type}

/-! ## The account of what is sent -/

/-- No send and no read of a pipe fails at this step. -/
def Label.succeeds : Label → Bool
  | .readFailed _ => false
  | .sendFailed _ => false
  | .reported ok => ok
  | .left ok => ok
  | _ => true

/-- The frame of a chunk, if its output has a pump. -/
def render (p : Plan F) (x : Output × Bytes) : Option F :=
  match p.reader x.1 with
  | .pumped frame => some (frame x.2)
  | _ => none

/-- The chunk, if it is of this output. -/
def chunkOf (c : Output) (x : Output × Bytes) : Option Bytes := if x.1 = c then some x.2 else none

/-- What the handler itself has sent. -/
def Ending (p : Plan F) : Phase F → List F → Prop
  | .waiting, tail => tail = []
  | .joining _, tail => tail = []
  | .reporting frames, tail => tail = [] ∧ ∃ code, frames = p.status code
  | .closing, tail => ∃ code, tail = p.status code
  | .returned, tail => ∃ code, tail = p.status code ++ [p.bye]

/-- The handler has joined the pumps. -/
def Phase.isJoined : Phase F → Bool
  | .waiting => false
  | .joining _ => false
  | _ => true

/-- **The account**: `log` lists the chunks of both outputs in the order they were sent. -/
structure Accounted (p : Plan F) (s : St F) (log : List (Output × Bytes)) (tail : List F) :
    Prop where
  sound : ∀ c, Sound (s.lines c)
  out : ∀ c, log.filterMap (chunkOf c) = (s.lines c).out
  rendered : ∀ x ∈ log, (render p x).isSome = true
  sent : s.sent = log.filterMap (render p) ++ tail
  ending : Ending p s.phase tail
  /-- A pump that has returned was at the end of its pipe. -/
  atEnd : ∀ c, (∃ frame, p.reader c = .pumped frame) → (s.lines c).task.isOver = true →
    (s.lines c).task.held = [] ∧ (s.lines c).pending = [] ∧ s.writers c = false
  joined : s.phase.isJoined = true → ∀ c, s.pumpOver p c = true

section

variable {p : Plan F} {cap : Nat} {s s' : St F} {log : List (Output × Bytes)} {tail : List F}

theorem accounted_start : Accounted p (.start p (.ok ())) [] [] := by
  refine ⟨fun _ => sound_new, fun _ => rfl, ?_, rfl, rfl, ?_, ?_⟩
  · intro x hx
    cases hx
  · intro c _ hover
    cases hover
  · intro h
    cases h

/-- Steps that touch neither the pumps nor the handler. -/
theorem Accounted.quiet (h : Accounted p s log tail) (hlines : s'.lines = s.lines)
    (hsent : s'.sent = s.sent) (hphase : s'.phase = s.phase)
    (hwriters : ∀ c, s.writers c = false → s'.writers c = false) : Accounted p s' log tail := by
  refine ⟨?_, ?_, h.rendered, ?_, ?_, ?_, ?_⟩
  · rw [hlines]
    exact h.sound
  · rw [hlines]
    exact h.out
  · rw [hsent]
    exact h.sent
  · rw [hphase]
    exact h.ending
  · intro c hp hover
    rw [hlines] at hover ⊢
    obtain ⟨hheld, hpending, hw⟩ := h.atEnd c hp hover
    exact ⟨hheld, hpending, hwriters c hw⟩
  · intro hj c
    have hover := h.joined (hphase ▸ hj) c
    unfold St.pumpOver at hover ⊢
    rw [hlines]
    exact hover

/-- One pipe or its pump moves, and nothing is sent. -/
theorem Accounted.line (h : Accounted p s log tail) {c : Output} {l : Line UInt8} (hl : Sound l)
    (hout : l.out = (s.lines c).out)
    (hend : (∃ frame, p.reader c = .pumped frame) → l.task.isOver = true →
      l.task.held = [] ∧ l.pending = [] ∧ s.writers c = false)
    (hover : (s.lines c).task.isOver = true → l.task.isOver = true) :
    Accounted p (s.setLine c l) log tail := by
  refine ⟨?_, ?_, h.rendered, h.sent, h.ending, ?_, ?_⟩
  · intro d
    by_cases hd : d = c
    · subst hd
      rw [setLine_same]
      exact hl
    · rw [setLine_other s hd]
      exact h.sound d
  · intro d
    by_cases hd : d = c
    · subst hd
      rw [setLine_same, hout]
      exact h.out d
    · rw [setLine_other s hd]
      exact h.out d
  · intro d hp hd
    by_cases hdc : d = c
    · subst hdc
      rw [setLine_same] at hd ⊢
      exact hend hp hd
    · rw [setLine_other s hdc] at hd ⊢
      exact h.atEnd d hp hd
  · intro hj d
    have hd := h.joined hj d
    unfold St.pumpOver at hd ⊢
    by_cases hdc : d = c
    · subst hdc
      rw [setLine_same]
      cases hr : p.reader d with
      | pumped frame =>
        rw [hr] at hd
        exact hover hd
      | _ => rfl
    · rw [setLine_other s hdc]
      exact hd

/-- A pump sends its chunk. -/
theorem Accounted.send (h : Accounted p s log tail) {c : Output} {frame : Bytes → F}
    (hr : p.reader c = .pumped frame) {chunk : Bytes} (ht : (s.lines c).task = .holding chunk)
    {l : Line UInt8} (hl : (s.lines c).deliver = some l) :
    ∃ log', Accounted p { s.setLine c l with sent := s.sent ++ [frame chunk] } log' tail := by
  have hsound := (h.sound c).deliver hl
  obtain ⟨chunk', ht', rfl⟩ := deliver_some hl
  rw [ht] at ht'
  cases ht'
  -- a pump that still sends has not been joined
  have hphase : s.phase.isJoined = false := by
    by_contra hj
    have hover := h.joined (by simpa using hj) c
    simp [St.pumpOver, hr, ht, Stage.isOver] at hover
  have htail : tail = [] := by
    have hend := h.ending
    cases hp : s.phase with
    | waiting =>
      rw [hp] at hend
      exact hend
    | joining code =>
      rw [hp] at hend
      exact hend
    | _ =>
      rw [hp] at hphase
      cases hphase
  refine ⟨log ++ [(c, chunk)], ?_, ?_, ?_, ?_, h.ending, ?_, ?_⟩
  · intro d
    by_cases hd : d = c
    · subst hd
      simp only [setLine_same]
      exact hsound
    · simp only [setLine_other s hd]
      exact h.sound d
  · intro d
    by_cases hd : d = c
    · subst hd
      simp only [setLine_same, List.filterMap_append, h.out d]
      simp [chunkOf]
    · simp only [setLine_other s hd, List.filterMap_append, h.out d]
      simp [chunkOf, Ne.symm hd]
  · intro x hx
    rcases List.mem_append.1 hx with hx | hx
    · exact h.rendered x hx
    · rw [List.mem_singleton.1 hx, render, hr]
      rfl
  · simp only [h.sent, htail, List.append_nil, List.filterMap_append]
    simp [render, hr]
  · intro d hp hd
    by_cases hdc : d = c
    · subst hdc
      simp only [setLine_same] at hd
      cases hd
    · simp only [setLine_other s hdc] at hd ⊢
      exact h.atEnd d hp hd
  · intro hj
    change s.phase.isJoined = true at hj
    rw [hphase] at hj
    cases hj

/-- The handler moves on. -/
theorem Accounted.handler (h : Accounted p s log tail) {phase : Phase F} {more : List F}
    (hend : Ending p phase (tail ++ more))
    (hjoined : phase.isJoined = true → ∀ c, s.pumpOver p c = true) :
    ∃ log' tail', Accounted p { s with phase := phase, sent := s.sent ++ more } log' tail' := by
  refine ⟨log, tail ++ more, h.sound, h.out, h.rendered, ?_, hend, h.atEnd, hjoined⟩
  rw [h.sent, List.append_assoc]

theorem Accounted.handler_quiet (h : Accounted p s log tail) {phase : Phase F}
    (hend : Ending p phase tail)
    (hjoined : phase.isJoined = true → ∀ c, s.pumpOver p c = true) :
    ∃ log' tail', Accounted p { s with phase := phase } log' tail' :=
  ⟨log, tail, h.sound, h.out, h.rendered, h.sent, hend, h.atEnd, hjoined⟩

/-- Whatever the step. -/
theorem accounted_step {l : Label} (h : Accounted p s log tail) (hl : l.succeeds = true)
    (hstep : step p cap s l = some s') : ∃ log' tail', Accounted p s' log' tail' := by
  cases moves_of_step hstep with
  | @write c bytes _ hopen _ _ =>
    refine ⟨log, tail, h.line ((h.sound c).arrive bytes) rfl ?_ fun ho => ho⟩
    rintro ⟨frame, hr⟩ hover
    rw [St.readerOpen, hr] at hopen
    rw [show ((s.lines c).arrive bytes).task = (s.lines c).task from rfl] at hover
    simp [hover] at hopen
  | brokenPipe => exact ⟨log, tail, h⟩
  | @close c _ =>
    refine ⟨log, tail, h.quiet rfl rfl rfl ?_⟩
    intro d hd
    by_cases hdc : d = c
    · subst hdc
      simp
    · simp [Function.update_of_ne hdc, hd]
  | readInEof => exact ⟨log, tail, h⟩
  | @read c n _ l hr hread =>
    have hsound := (h.sound c).read hread
    obtain ⟨ht, -, -, -, rfl⟩ := read_some hread
    refine ⟨log, tail, h.line hsound rfl ?_ ?_⟩
    · intro _ hover
      cases hover
    · intro hover
      rw [ht] at hover
      cases hover
  | @readEof c _ l hr hwriters hempty hleave =>
    have hsound := (h.sound c).leave hleave
    obtain ⟨-, rfl⟩ := leave_some hleave
    exact ⟨log, tail, h.line hsound rfl (fun _ _ => ⟨rfl, hempty, hwriters⟩) fun _ => rfl⟩
  | readFailed => cases hl
  | send hr ht hdeliver =>
    obtain ⟨log', h'⟩ := h.send hr ht hdeliver
    exact ⟨log', tail, h'⟩
  | sendFailed => cases hl
  | waited hp hx =>
    have hend := h.ending
    rw [hp] at hend
    refine h.handler_quiet hend ?_
    intro hj
    cases hj
  | waitFailed hp =>
    have hend := h.ending
    rw [hp] at hend
    refine h.handler_quiet hend ?_
    intro hj
    cases hj
  | @joined code hp hover =>
    have hend := h.ending
    rw [hp] at hend
    exact h.handler_quiet ⟨hend, code, rfl⟩ fun _ => hover
  | reported hp =>
    obtain rfl := hl
    have hend := h.ending
    rw [hp] at hend
    obtain ⟨rfl, code, rfl⟩ := hend
    exact h.handler ⟨code, rfl⟩ fun _ => h.joined (by rw [hp]; rfl)
  | left hp =>
    obtain rfl := hl
    have hend := h.ending
    rw [hp] at hend
    obtain ⟨code, rfl⟩ := hend
    exact h.handler ⟨code, rfl⟩ fun _ => h.joined (by rw [hp]; rfl)
  | readIn | closeIn | exit | recv | recvNone | wrote | writeFailed | input | inputEnd | hangup =>
    -- the stdin side, and what the process does besides writing
    exact ⟨log, tail, h.quiet rfl rfl rfl fun _ hd => hd⟩

/-- **The account holds along every run** in which no send and no read of a pipe fails. -/
theorem accounted_run {ls : List Label} (hok : ∀ l ∈ ls, l.succeeds = true)
    (hrun : run (step p cap) (.start p (.ok ())) ls = some s) :
    ∃ log tail, Accounted p s log tail := by
  have hkeep : ∀ s l s', (∃ log tail, Accounted p s log tail) → l.succeeds = true →
      step p cap s l = some s' → ∃ log tail, Accounted p s' log tail := by
    rintro s l s' ⟨log, tail, h⟩ hl hstep
    exact accounted_step h hl hstep
  refine run_invariant hkeep ls _ s ⟨[], [], accounted_start⟩ ?_ hrun
  intro x hx
  exact hok _ (label_mem_of_mem_steps ls _ x hx)

/-- When the handler has returned, all is delivered, then the status and the last frame. -/
theorem Accounted.complete (h : Accounted p s log tail) (hret : s.phase = .returned) :
    (∃ code, s.sent = log.filterMap (render p) ++ p.status code ++ [p.bye]) ∧
    ∀ c, (∃ frame, p.reader c = .pumped frame) →
      (log.filterMap (chunkOf c)).flatten = (s.lines c).arrived := by
  refine ⟨?_, ?_⟩
  · have hend := h.ending
    rw [hret] at hend
    obtain ⟨code, rfl⟩ := hend
    exact ⟨code, by rw [h.sent, List.append_assoc]⟩
  · intro c hc
    have hover := h.joined (by rw [hret]; rfl) c
    obtain ⟨frame, hr⟩ := hc
    rw [St.pumpOver, hr] at hover
    obtain ⟨hheld, hpending, -⟩ := h.atEnd c ⟨frame, hr⟩ hover
    rw [h.out c]
    exact (h.sound c).all_delivered.2 ⟨hheld, hpending⟩

end

/-! ## The handler returns -/

/-- Steps of the pumps and of the handler that do not fail. -/
def Label.isHandler : Label → Bool
  | .read _ _ => true
  | .readEof _ => true
  | .send _ => true
  | .waited => true
  | .joined => true
  | .reported ok => ok
  | .left ok => ok
  | _ => false

/-- Steps that a pump has before it. -/
def lineWork (l : Line UInt8) : Nat :=
  2 * l.pending.length +
    match l.task with
    | .reading => 1
    | .holding _ => 2
    | .done _ => 0

def phaseWork : Phase F → Nat
  | .waiting => 4
  | .joining _ => 3
  | .reporting _ => 2
  | .closing => 1
  | .returned => 0

def work (s : St F) : Nat :=
  lineWork (s.lines .stdout) + lineWork (s.lines .stderr) + phaseWork s.phase

/-- The child has ended and nobody can write to its pipes. -/
def Gone (s : St F) : Prop := s.exited.isSome = true ∧ ∀ c, s.writers c = false

section

variable {p : Plan F} {cap : Nat} {s s' : St F}

theorem lineWork_read {l l' : Line UInt8} {n : Nat} (h : l.read bufSize n = some l') :
    lineWork l' < lineWork l := by
  obtain ⟨ht, hpos, -, hle, rfl⟩ := read_some h
  simp only [lineWork, ht, List.length_drop]
  omega

theorem lineWork_deliver {l l' : Line UInt8} (h : l.deliver = some l') :
    lineWork l' < lineWork l := by
  obtain ⟨chunk, ht, rfl⟩ := deliver_some h
  simp only [lineWork, ht]
  omega

theorem lineWork_leave {l l' : Line UInt8} (h : l.leave = some l') :
    lineWork l' < lineWork l := by
  obtain ⟨ht, rfl⟩ := leave_some h
  simp only [lineWork, ht]
  omega

theorem work_setLine {c : Output} {l : Line UInt8} (h : lineWork l < lineWork (s.lines c)) :
    work (s.setLine c l) < work s := by
  cases c <;> simp only [work, St.setLine, Function.update] <;> simp <;> omega

/-- A step of the pumps or the handler is one step less. -/
theorem work_step {l : Label} (hl : l.isHandler = true) (hstep : step p cap s l = some s') :
    work s' < work s ∧ (Gone s → Gone s') := by
  cases moves_of_step hstep with
  | read _ hread => exact ⟨work_setLine (lineWork_read hread), fun hg => hg⟩
  | readEof _ _ _ hleave => exact ⟨work_setLine (lineWork_leave hleave), fun hg => hg⟩
  | send _ _ hdeliver =>
    have hlt := work_setLine (s := s) (lineWork_deliver hdeliver)
    exact ⟨hlt, fun hg => hg⟩
  | waited hp _ =>
    simp only [work, phaseWork, hp]
    exact ⟨by omega, fun hg => hg⟩
  | joined hp _ =>
    simp only [work, phaseWork, hp]
    exact ⟨by omega, fun hg => hg⟩
  | reported hp =>
    simp only [work, phaseWork, hp]
    exact ⟨by omega, fun hg => hg⟩
  | left hp =>
    simp only [work, phaseWork, hp]
    exact ⟨by omega, fun hg => hg⟩
  | _ => cases hl

/-- A pump of a process that is gone can move until it has returned. -/
theorem pump_moves (hg : Gone s) {c : Output} (hover : s.pumpOver p c = false) :
    ∃ l, l.isHandler = true ∧ l.succeeds = true ∧ (step p cap s l).isSome = true := by
  unfold St.pumpOver at hover
  cases hr : p.reader c with
  | pumped frame =>
    rw [hr] at hover
    cases ht : (s.lines c).task with
    | reading =>
      by_cases hp : (s.lines c).pending = []
      · refine ⟨.readEof c, rfl, rfl, ?_⟩
        simp [step, hr, hg.2 c, hp, Line.leave, ht]
      · have hlen : 0 < (s.lines c).pending.length := List.length_pos_of_ne_nil hp
        have hread : 1 ≤ bufSize ∧ 1 ≤ (s.lines c).pending.length := ⟨by decide, hlen⟩
        refine ⟨.read c 1, rfl, rfl, ?_⟩
        simp [step, hr, Line.read, ht, hread]
    | holding chunk =>
      refine ⟨.send c, rfl, rfl, ?_⟩
      simp [step, hr, Line.deliver, ht]
    | done dropped =>
      rw [ht] at hover
      cases hover
  | kept =>
    rw [hr] at hover
    cases hover
  | dropped =>
    rw [hr] at hover
    cases hover

/-- **Progress**: while the handler has not returned, a pump or the handler can move. -/
theorem handler_moves (hg : Gone s) (hret : s.phase ≠ .returned) :
    ∃ l, l.isHandler = true ∧ l.succeeds = true ∧ (step p cap s l).isSome = true := by
  cases hp : s.phase with
  | waiting =>
    refine ⟨.waited, rfl, rfl, ?_⟩
    obtain ⟨code, hcode⟩ := Option.isSome_iff_exists.1 hg.1
    simp [step, hp, hcode]
  | joining code =>
    cases ho : s.pumpOver p .stdout with
    | false => exact pump_moves hg ho
    | true =>
      cases he : s.pumpOver p .stderr with
      | false => exact pump_moves hg he
      | true => exact ⟨.joined, rfl, rfl, by simp [step, hp, ho, he]⟩
  | reporting frames => exact ⟨.reported true, rfl, rfl, by simp [step, hp]⟩
  | closing => exact ⟨.left true, rfl, rfl, by simp [step, hp]⟩
  | returned => exact absurd hp hret

/-- **The handler returns**: from here the pumps and the handler take a bounded number of steps, and
    only a handler that has returned has none left. -/
def Finishes (p : Plan F) (cap : Nat) (s : St F) : Prop :=
  ∃ n, ∀ (ls : List Label) (t : St F), (∀ l ∈ ls, l.isHandler = true) →
    run (step p cap) s ls = some t → ls.length ≤ n ∧
      (t.phase ≠ .returned →
        ∃ l, l.isHandler = true ∧ l.succeeds = true ∧ (step p cap t l).isSome = true)

theorem work_run : ∀ {ls : List Label} {s t : St F}, (∀ l ∈ ls, l.isHandler = true) → Gone s →
    run (step p cap) s ls = some t → ls.length + work t ≤ work s ∧ Gone t
  | [], s, t, _, hg, hrun => by
    cases hrun
    exact ⟨by simp, hg⟩
  | l :: ls, s, t, hls, hg, hrun => by
    obtain ⟨u, hu, hrun⟩ := run_cons_some hrun
    obtain ⟨hlt, hgone⟩ := work_step (hls l List.mem_cons_self) hu
    obtain ⟨hle, hg'⟩ :=
      work_run (fun l' hl' => hls l' (List.mem_cons_of_mem _ hl')) (hgone hg) hrun
    rw [List.length_cons]
    exact ⟨by omega, hg'⟩

theorem finishes (hg : Gone s) : Finishes p cap s := by
  refine ⟨work s, ?_⟩
  intro ls t hls hrun
  obtain ⟨hle, hg'⟩ := work_run hls hg hrun
  exact ⟨by omega, fun hret => handler_moves hg' hret⟩

end

/-! ## The streams that are used -/

/-- The streams the client opens. -/
def opened (arrivals : List Arrival) : List RcStream :=
  arrivals.filterMap fun
    | .stream s => some s
    | _ => none

/-- The ids are those of streams of their type. -/
structure FromStreams (streams : List RcStream) (c : Collected) : Prop where
  error : ∀ id, c.errorId = some id → ∃ s ∈ streams, s.id = id ∧ s.streamType = some stError
  stdout : ∀ id, c.stdoutId = some id → ∃ s ∈ streams, s.id = id ∧ s.streamType = some stStdout
  stderr : ∀ id, c.stderrId = some id → ∃ s ∈ streams, s.id = id ∧ s.streamType = some stStderr

theorem FromStreams.add {streams : List RcStream} {c : Collected} (h : FromStreams streams c)
    {s : RcStream} (hs : s ∈ streams) : FromStreams streams (c.add s) := by
  unfold Collected.add
  split_ifs with h1 h2 h3 h4
  · refine ⟨?_, h.stdout, h.stderr⟩
    intro id hid
    cases hid
    exact ⟨s, hs, rfl, h1⟩
  · refine ⟨h.error, ?_, h.stderr⟩
    intro id hid
    cases hid
    exact ⟨s, hs, rfl, h2⟩
  · refine ⟨h.error, h.stdout, ?_⟩
    intro id hid
    cases hid
    exact ⟨s, hs, rfl, h3⟩
  · exact ⟨h.error, h.stdout, h.stderr⟩
  · exact h

theorem fromStreams_collect (want : Wants) {streams : List RcStream} :
    ∀ {arrivals : List Arrival} {c : Collected}, FromStreams streams c →
      (∀ s ∈ opened arrivals, s ∈ streams) → FromStreams streams (collectRcStreams want c arrivals)
  | [], c, h, _ => h
  | a :: arrivals, c, h, hall => by
    unfold collectRcStreams
    split
    · exact h
    · cases a with
      | stream s =>
        have hs : s ∈ opened (.stream s :: arrivals) := List.mem_cons_self
        refine fromStreams_collect want (h.add (hall s hs)) ?_
        intro t ht
        exact hall t (List.mem_cons_of_mem _ ht)
      | idle => exact h
      | closed => exact h

/-- `spdy_exec`, the streams it uses. -/
def collectedFor (session : ExecSession) (arrivals : List Arrival) : Collected :=
  collectRcStreams (.of session) .empty arrivals

theorem fromStreams_collected (session : ExecSession) (arrivals : List Arrival) :
    FromStreams (opened arrivals) (collectedFor session arrivals) := by
  refine fromStreams_collect _ ⟨?_, ?_, ?_⟩ fun s hs => hs
  · intro id hid
    cases hid
  · intro id hid
    cases hid
  · intro id hid
    cases hid

/-- Streams of different types have different ids. -/
theorem id_ne_of_type {streams : List RcStream} (hids : (streams.map RcStream.id).Nodup)
    {i j : UInt32} {ti tj : String} (hi : ∃ s ∈ streams, s.id = i ∧ s.streamType = some ti)
    (hj : ∃ s ∈ streams, s.id = j ∧ s.streamType = some tj) (htype : ti ≠ tj) : i ≠ j := by
  rintro rfl
  obtain ⟨s, hs, hsid, hst⟩ := hi
  obtain ⟨t, ht, htid, htt⟩ := hj
  obtain rfl : s = t := List.inj_on_of_nodup_map hids hs ht (hsid.trans htid.symm)
  rw [hst] at htt
  exact htype (Option.some.inj htt)

/-! ## What the client gets -/

/-- The data of a frame on a stream. -/
def dataOn (id : UInt32) : Frame → Option Bytes
  | .data i _ payload => if i = id then some payload else none
  | _ => none

/-- What the client has got when `spdy_exec` has returned. -/
structure SpdyReport (c : Collected) (errorId : UInt32) (s : St Frame) : Prop where
  /-- Frames of the output streams that are used, the status, GOAWAY. -/
  order : ∃ outs code, s.sent = outs ++ [sendData errorId true (statusExit code), .goAway 0 0] ∧
    s.sent.filterMap (dataOn errorId) = [statusExit code] ∧
    ∀ f ∈ outs, ∃ id chunk, f = sendData id false chunk ∧
      (c.stdoutId = some id ∨ c.stderrId = some id)
  stdout : ∀ id, c.stdoutId = some id →
    (s.sent.filterMap (dataOn id)).flatten = (s.lines .stdout).arrived
  stderr : ∀ id, c.stderrId = some id →
    (s.sent.filterMap (dataOn id)).flatten = (s.lines .stderr).arrived

/-- The data of a message on a channel. -/
def channelData (channel : UInt8) : Message → Option Bytes
  | .binary (b :: data) => if b = channel then some data else none
  | _ => none

/-- What the client has got when `handle_exec` has returned. -/
structure WsReport (s : St Message) : Prop where
  order : ∃ outs code,
    s.sent = outs ++ [channelFrame chError (statusExit code), .close closeNormal ""] ∧
    s.sent.filterMap (channelData chError) = [statusExit code] ∧
    ∀ f ∈ outs, ∃ channel chunk, f = channelFrame channel chunk ∧
      (channel = chStdout ∨ channel = chStderr)
  stdout : (s.sent.filterMap (channelData chStdout)).flatten = (s.lines .stdout).arrived
  stderr : (s.sent.filterMap (channelData chStderr)).flatten = (s.lines .stderr).arrived

/-- The chunks of one output among all frames, where a frame tells its output. -/
theorem filterMap_render {p : Plan F} {log : List (Output × Bytes)} {pick : F → Option Bytes}
    {c : Output} (h : ∀ x ∈ log, (render p x).bind pick = chunkOf c x) :
    (log.filterMap (render p)).filterMap pick = log.filterMap (chunkOf c) := by
  rw [List.filterMap_filterMap]
  exact List.filterMap_congr h

/-- All bytes of an output arrive, if its frames can be told from the others. -/
theorem Accounted.delivered {p : Plan F} {s : St F} {log : List (Output × Bytes)} {tail : List F}
    (h : Accounted p s log tail) (hret : s.phase = .returned) {c : Output} {pick : F → Option Bytes}
    (hc : ∃ frame, p.reader c = .pumped frame)
    (hpick : ∀ x ∈ log, (render p x).bind pick = chunkOf c x)
    (hstatus : ∀ code, ∀ f ∈ p.status code ++ [p.bye], pick f = none) :
    (s.sent.filterMap pick).flatten = (s.lines c).arrived := by
  obtain ⟨⟨code, hsent⟩, hall⟩ := h.complete hret
  have hnone : (p.status code ++ [p.bye]).filterMap pick = [] :=
    List.filterMap_eq_nil_iff.2 (hstatus code)
  rw [hsent, List.append_assoc, List.filterMap_append, hnone, List.append_nil,
    filterMap_render hpick]
  exact hall c hc

theorem dataOn_sendData (id i : UInt32) (fin : Bool) (data : Bytes) :
    dataOn id (sendData i fin data) = if i = id then some data else none := rfl

/-- The frame of a chunk that `spdy_exec` has sent. -/
theorem render_spdy {c : Collected} {x : Output × Bytes}
    (h : (render (spdyPlan c) x).isSome = true) :
    ∃ id, render (spdyPlan c) x = some (sendData id false x.2) ∧
      ((x.1 = .stdout ∧ c.stdoutId = some id) ∨ (x.1 = .stderr ∧ c.stderrId = some id)) := by
  obtain ⟨o, chunk⟩ := x
  cases o with
  | stdout =>
    cases hid : c.stdoutId with
    | none => simp [render, spdyPlan, spdyReader, hid] at h
    | some id => exact ⟨id, by simp [render, spdyPlan, spdyReader, hid], .inl ⟨rfl, rfl⟩⟩
  | stderr =>
    cases hid : c.stderrId with
    | none => simp [render, spdyPlan, spdyReader, hid] at h
    | some id => exact ⟨id, by simp [render, spdyPlan, spdyReader, hid], .inr ⟨rfl, rfl⟩⟩

theorem spdy_report {session : ExecSession} {arrivals : List Arrival}
    (hids : ((opened arrivals).map RcStream.id).Nodup) {errorId : UInt32}
    (herror : (collectedFor session arrivals).errorId = some errorId) {s : St Frame}
    {log : List (Output × Bytes)} {tail : List Frame}
    (h : Accounted (spdyPlan (collectedFor session arrivals)) s log tail)
    (hret : s.phase = .returned) : SpdyReport (collectedFor session arrivals) errorId s := by
  have hfrom := fromStreams_collected session arrivals
  generalize hc : collectedFor session arrivals = c at *
  have hstatus : ∀ code, (spdyPlan c).status code = [sendData errorId true (statusExit code)] := by
    intro code
    simp [spdyPlan, herror]
  have hbye : (spdyPlan c).bye = .goAway 0 0 := rfl
  have hout : ∀ id, c.stdoutId = some id → id ≠ errorId := fun id hid =>
    id_ne_of_type hids (hfrom.stdout id hid) (hfrom.error errorId herror) (by decide)
  have herr : ∀ id, c.stderrId = some id → id ≠ errorId := fun id hid =>
    id_ne_of_type hids (hfrom.stderr id hid) (hfrom.error errorId herror) (by decide)
  have hboth : ∀ i j, c.stdoutId = some i → c.stderrId = some j → i ≠ j := fun i j hi hj =>
    id_ne_of_type hids (hfrom.stdout i hi) (hfrom.stderr j hj) (by decide)
  have htail : ∀ id, id ≠ errorId → ∀ code, ∀ f ∈ (spdyPlan c).status code ++ [(spdyPlan c).bye],
      dataOn id f = none := by
    intro id hid code f hf
    rw [hstatus, hbye] at hf
    simp only [List.cons_append, List.nil_append, List.mem_cons, List.not_mem_nil, or_false] at hf
    rcases hf with rfl | rfl
    · rw [dataOn_sendData, if_neg (Ne.symm hid)]
    · rfl
  refine ⟨?_, ?_, ?_⟩
  · obtain ⟨⟨code, hsent⟩, -⟩ := h.complete hret
    refine ⟨log.filterMap (render (spdyPlan c)), code, ?_, ?_, ?_⟩
    · rw [hsent, hstatus, hbye, List.append_assoc]
      rfl
    · rw [hsent, hstatus, hbye, List.filterMap_append, List.filterMap_append]
      have hnone : (log.filterMap (render (spdyPlan c))).filterMap (dataOn errorId) = [] := by
        rw [List.filterMap_eq_nil_iff]
        intro f hf
        obtain ⟨x, hx, hf⟩ := List.mem_filterMap.1 hf
        obtain ⟨id, hr, hcase⟩ := render_spdy (h.rendered x hx)
        rw [hr] at hf
        cases hf
        have hne : id ≠ errorId := by
          rcases hcase with ⟨-, hid⟩ | ⟨-, hid⟩
          · exact hout id hid
          · exact herr id hid
        rw [dataOn_sendData, if_neg hne]
      rw [hnone]
      simp [dataOn, sendData]
    · intro f hf
      obtain ⟨x, hx, hf⟩ := List.mem_filterMap.1 hf
      obtain ⟨id, hr, hcase⟩ := render_spdy (h.rendered x hx)
      rw [hr] at hf
      cases hf
      refine ⟨id, x.2, rfl, ?_⟩
      rcases hcase with ⟨-, hid⟩ | ⟨-, hid⟩
      · exact .inl hid
      · exact .inr hid
  · intro id hid
    refine h.delivered hret ⟨sendData id false, by simp [spdyPlan, spdyReader, hid]⟩ ?_
      (htail id (hout id hid))
    intro x hx
    obtain ⟨i, hr, hcase⟩ := render_spdy (h.rendered x hx)
    rw [hr, Option.bind_some, dataOn_sendData, chunkOf]
    rcases hcase with ⟨ho, hi⟩ | ⟨ho, hi⟩
    · rw [hid] at hi
      cases hi
      rw [if_pos rfl, if_pos ho]
    · rw [if_neg (Ne.symm (hboth id i hid hi)), if_neg (by rw [ho]; decide)]
  · intro id hid
    refine h.delivered hret ⟨sendData id false, by simp [spdyPlan, spdyReader, hid]⟩ ?_
      (htail id (herr id hid))
    intro x hx
    obtain ⟨i, hr, hcase⟩ := render_spdy (h.rendered x hx)
    rw [hr, Option.bind_some, dataOn_sendData, chunkOf]
    rcases hcase with ⟨ho, hi⟩ | ⟨ho, hi⟩
    · rw [if_neg (hboth i id hi hid), if_neg (by rw [ho]; decide)]
    · rw [hid] at hi
      cases hi
      rw [if_pos rfl, if_pos ho]

/-- The message of a chunk that `handle_exec` has sent. -/
theorem render_ws (proto : String) (x : Output × Bytes) :
    (x.1 = .stdout ∧ render (wsPlan proto) x = some (channelFrame chStdout x.2)) ∨
    (x.1 = .stderr ∧ render (wsPlan proto) x = some (channelFrame chStderr x.2)) := by
  obtain ⟨o, chunk⟩ := x
  cases o with
  | stdout => exact .inl ⟨rfl, rfl⟩
  | stderr => exact .inr ⟨rfl, rfl⟩

theorem ws_report {proto : String} (hproto : hasErrorChannel proto = true) {s : St Message}
    {log : List (Output × Bytes)} {tail : List Message}
    (h : Accounted (wsPlan proto) s log tail) (hret : s.phase = .returned) : WsReport s := by
  have hstatus : ∀ code, (wsPlan proto).status code = [channelFrame chError (statusExit code)] := by
    intro code
    simp [wsPlan, hproto]
  have hbye : (wsPlan proto).bye = .close closeNormal "" := rfl
  have htail : ∀ channel, channel ≠ chError → ∀ code,
      ∀ f ∈ (wsPlan proto).status code ++ [(wsPlan proto).bye], channelData channel f = none := by
    intro channel hne code f hf
    rw [hstatus, hbye] at hf
    simp only [List.cons_append, List.nil_append, List.mem_cons, List.not_mem_nil, or_false] at hf
    rcases hf with rfl | rfl
    · simp [channelData, channelFrame, Ne.symm hne]
    · rfl
  refine ⟨?_, ?_, ?_⟩
  · obtain ⟨⟨code, hsent⟩, -⟩ := h.complete hret
    refine ⟨log.filterMap (render (wsPlan proto)), code, ?_, ?_, ?_⟩
    · rw [hsent, hstatus, hbye, List.append_assoc]
      rfl
    · rw [hsent, hstatus, hbye, List.filterMap_append, List.filterMap_append]
      have hnone :
          (log.filterMap (render (wsPlan proto))).filterMap (channelData chError) = [] := by
        rw [List.filterMap_eq_nil_iff]
        intro f hf
        obtain ⟨x, -, hf⟩ := List.mem_filterMap.1 hf
        rcases render_ws proto x with ⟨-, hr⟩ | ⟨-, hr⟩
        · rw [hr] at hf
          cases hf
          rfl
        · rw [hr] at hf
          cases hf
          rfl
      rw [hnone]
      simp [channelData, channelFrame]
    · intro f hf
      obtain ⟨x, -, hf⟩ := List.mem_filterMap.1 hf
      rcases render_ws proto x with ⟨-, hr⟩ | ⟨-, hr⟩
      · rw [hr] at hf
        cases hf
        exact ⟨chStdout, x.2, rfl, .inl rfl⟩
      · rw [hr] at hf
        cases hf
        exact ⟨chStderr, x.2, rfl, .inr rfl⟩
  · refine h.delivered hret ⟨_, rfl⟩ ?_ (htail chStdout (by decide))
    intro x _
    rcases render_ws proto x with ⟨ho, hr⟩ | ⟨ho, hr⟩ <;> rw [hr, chunkOf, ho] <;> rfl
  · refine h.delivered hret ⟨_, rfl⟩ ?_ (htail chStderr (by decide))
    intro x _
    rcases render_ws proto x with ⟨ho, hr⟩ | ⟨ho, hr⟩ <;> rw [hr, chunkOf, ho] <;> rfl

/-- **Exec output precedes the exit status**, in every run in which no send and no read of a pipe
    fails, for SPDY with a collected error stream and for WebSocket with an error channel; and once
    the child is gone and its pipes are closed, the handler returns. -/
theorem output_before_status (cap : Nat) (ls : List Label)
    (hok : ∀ l ∈ ls, l.succeeds = true) :
    (∀ (session : ExecSession) (arrivals : List Arrival) (errorId : UInt32) (s : St Frame),
      session.tty = false → ((opened arrivals).map RcStream.id).Nodup →
      (collectedFor session arrivals).errorId = some errorId →
      run (step (spdyPlan (collectedFor session arrivals)) cap)
        (.start (spdyPlan (collectedFor session arrivals)) (.ok ())) ls = some s →
      (s.phase = .returned → SpdyReport (collectedFor session arrivals) errorId s) ∧
      (Gone s → Finishes (spdyPlan (collectedFor session arrivals)) cap s)) ∧
    ∀ (proto : String) (s : St Message), hasErrorChannel proto = true →
      run (step (wsPlan proto) cap) (.start (wsPlan proto) (.ok ())) ls = some s →
      (s.phase = .returned → WsReport s) ∧ (Gone s → Finishes (wsPlan proto) cap s) := by
  refine ⟨?_, ?_⟩
  · intro session arrivals errorId s _ hids herror hrun
    obtain ⟨log, tail, h⟩ := accounted_run hok hrun
    exact ⟨fun hret => spdy_report hids herror h hret, fun hg => finishes hg⟩
  · intro proto s hproto hrun
    obtain ⟨log, tail, h⟩ := accounted_run hok hrun
    exact ⟨fun hret => ws_report hproto h hret, fun hg => finishes hg⟩

/-- A session that asks for both outputs. -/
def echoSession : ExecSession := ⟨"c", ["echo", "hi"], false, false, true, true⟩

/-- A stream of a type. -/
def rcStream (id : UInt32) (type : String) : Arrival := .stream ⟨id, [("streamType", type)]⟩

/-- The three streams, at once. -/
def promptStreams : List Arrival := [rcStream 1 "error", rcStream 3 "stdout", rcStream 5 "stderr"]

/-- The process writes and ends; the child is waited for before its output is read. -/
def echoRun : List Label :=
  [.write .stdout [0x68, 0x69], .exit (some 0), .close .stdout, .close .stderr, .waited,
    .readEof .stderr, .read .stdout 1, .send .stdout, .read .stdout 1, .send .stdout,
    .readEof .stdout, .joined, .reported true, .left true]

theorem echoRun_reported :
    (∃ s, run (step (spdyPlan (collectedFor echoSession promptStreams)) 65536)
        (.start (spdyPlan (collectedFor echoSession promptStreams)) (.ok ())) echoRun = some s ∧
      SpdyReport (collectedFor echoSession promptStreams) 1 s) ∧
    ∃ s, run (step (wsPlan "v5.channel.k8s.io") 65536)
        (.start (wsPlan "v5.channel.k8s.io") (.ok ())) echoRun = some s ∧ WsReport s := by
  have h := output_before_status 65536 echoRun (by decide)
  refine ⟨⟨_, rfl, ?_⟩, ⟨_, rfl, ?_⟩⟩
  · exact (h.1 echoSession promptStreams 1 _ rfl (by decide) (by decide) rfl).1 rfl
  · exact (h.2 "v5.channel.k8s.io" _ (by decide) rfl).1 rfl

/-- The client takes more than ten seconds to open its stdout stream. -/
def lateStdout : List Arrival := [rcStream 1 "error", .idle, rcStream 3 "stdout"]

/-- What the process writes then stays in the pipe. -/
def unreadRun : List Label :=
  [.write .stdout [0x68, 0x69], .exit (some 0), .close .stdout, .close .stderr, .waited, .joined,
    .reported true, .left true]

/-- An output stream that the client opens can stay without output. -/
theorem opened_stream_unused :
    ¬ ∀ (cap : Nat) (ls : List Label) (session : ExecSession) (arrivals : List Arrival)
        (s : St Frame), (∀ l ∈ ls, l.succeeds = true) → session.tty = false →
      ((opened arrivals).map RcStream.id).Nodup →
      (∃ t ∈ opened arrivals, t.streamType = some stError) →
      run (step (spdyPlan (collectedFor session arrivals)) cap)
        (.start (spdyPlan (collectedFor session arrivals)) (.ok ())) ls = some s →
      s.phase = .returned → ∀ t ∈ opened arrivals, t.streamType = some stStdout →
        (s.sent.filterMap (dataOn t.id)).flatten = (s.lines .stdout).arrived := by
  intro h
  have hbytes := h 65536 unreadRun echoSession lateStdout _ (by decide) rfl (by decide) (by decide)
    rfl rfl ⟨3, [("streamType", "stdout")]⟩ (by decide) (by decide)
  revert hbytes
  decide

end ContainerdRs.Cri.Streaming.Exec
