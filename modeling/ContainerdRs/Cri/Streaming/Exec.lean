import ContainerdRs.Cri.Spdy.Streams
import ContainerdRs.Cri.Streaming.Sessions
import ContainerdRs.Lib.Pump
import ContainerdRs.Lib.Transition

/-!
# Streaming exec (`spdy_exec` without a tty, `handle_exec`)

The handler starts `crun exec` with three pipes.  A task writes the client's stdin to the process,
one pump for each output sends what it reads to the client, and the handler waits for the child,
then for the pumps, sends the exit status and ends the connection.  SPDY collects the streams the
client opens first; an output without a stream has no pump.

`Plan` is what the two handlers differ in; `step` is one step of anyone: the process (and whoever
shares its pipes), the pumps, the stdin task, the handler and the client.

* `collectRcStreams` — which streams are used.
* `spdyPlan`, `wsPlan` — the two handlers.
-/

set_option autoImplicit false

namespace ContainerdRs.Cri.Streaming.Exec

open Pump ContainerdRs.Cri.Spdy

/-! ## The streams of the client -/

/-- A stream that `server.accept()` yields. -/
structure RcStream where
  id : UInt32
  headers : Headers
  deriving DecidableEq, Repr

/-- `SpdyStream::stream_type`. -/
def RcStream.streamType (s : RcStream) : Option String := header s.headers headerStreamType

/-- What the client does next: it opens a stream, or the ten seconds pass, or the connection
    ends. -/
inductive Arrival where
  | stream (s : RcStream)
  | idle
  | closed
  deriving DecidableEq, Repr

/-- The streams requested besides the error stream. -/
structure Wants where
  stdin : Bool
  stdout : Bool
  stderr : Bool
  deriving DecidableEq, Repr

/-- What `spdy_exec` asks for. -/
def Wants.of (session : ExecSession) : Wants :=
  ⟨session.stdin, session.stdout, session.stderr && !session.tty⟩

/-- The result of `collect_rc_streams`; of the receiver of stdin only that it is there. -/
structure Collected where
  errorId : Option UInt32
  stdoutId : Option UInt32
  stderrId : Option UInt32
  stdin : Bool
  deriving DecidableEq, Repr

def Collected.empty : Collected := ⟨none, none, none, false⟩

/-- `have`: the error stream and whatever was requested. -/
def Collected.complete (want : Wants) (c : Collected) : Bool :=
  c.errorId.isSome && (!want.stdout || c.stdoutId.isSome) && (!want.stdin || c.stdin) &&
    (!want.stderr || c.stderrId.isSome)

/-- One accepted stream; a resize stream is drained, and others are ignored. -/
def Collected.add (c : Collected) (s : RcStream) : Collected :=
  if s.streamType = some stError then { c with errorId := some s.id }
  else if s.streamType = some stStdout then { c with stdoutId := some s.id }
  else if s.streamType = some stStderr then { c with stderrId := some s.id }
  else if s.streamType = some stStdin then { c with stdin := true }
  else c

/-- `collect_rc_streams`, the loop; a client that does nothing more is idle. -/
def collectRcStreams (want : Wants) : Collected → List Arrival → Collected
  | c, [] => c
  | c, a :: rest =>
    if c.complete want then c
    else
      match a with
      | .stream s => collectRcStreams want (c.add s) rest
      | .idle => c
      | .closed => c

/-! ## The two handlers -/

/-- The outputs of the process. -/
inductive Output where
  | stdout
  | stderr
  deriving DecidableEq, Repr

/-- Who has the read end of an output. -/
inductive Reader (F : Type) where
  /-- A pump that sends each chunk in such a frame. -/
  | pumped (frame : Bytes → F)
  /-- The handler, until it returns. -/
  | kept
  /-- Nobody: it is closed before the handler waits. -/
  | dropped

/-- What a handler does with the pipes and what it sends. -/
structure Plan (F : Type) where
  /-- A task writes the client's stdin to the process; else the handler keeps the pipe. -/
  stdinTask : Bool
  /-- The client can end its stdin and keep the connection. -/
  seesEnd : Bool
  reader : Output → Reader F
  /-- What is sent for an exit code. -/
  status : Int → List F
  /-- The last frame. -/
  bye : F
  /-- What is sent when `crun exec` does not start. -/
  spawnFailed : String → List F

/-- The read end of an output for which SPDY has collected a stream or not. -/
def spdyReader (other : Reader Frame) : Option UInt32 → Reader Frame
  | some id => .pumped (sendData id false)
  | none => other

/-- `spdy_exec` with the streams it has collected.  Without a stream `stdout` stays with the
    handler, while `stderr` goes away with the tuple it is matched in. -/
def spdyPlan (c : Collected) : Plan Frame where
  stdinTask := c.stdin
  seesEnd := true
  reader
    | .stdout => spdyReader .kept c.stdoutId
    | .stderr => spdyReader .dropped c.stderrId
  status code := (c.errorId.map fun id => sendData id true (statusExit code)).toList
  bye := .goAway 0 0
  spawnFailed e :=
    (c.errorId.map fun id => sendData id true (statusFailure ("crun exec: " ++ e))).toList ++
      [.goAway 0 0]

/-- The messages of a WebSocket. -/
inductive Message where
  | binary (data : Bytes)
  | close (code : UInt16) (reason : String)
  deriving DecidableEq, Repr

/-- The channels of remotecommand. -/
def chStdout : UInt8 := 1
def chStderr : UInt8 := 2
def chError : UInt8 := 3

/-- A frame on a channel. -/
def channelFrame (channel : UInt8) (data : Bytes) : Message := .binary (channel :: data)

/-- `close_code::NORMAL`. -/
def closeNormal : UInt16 := 1000

/-- `has_error_channel`, from the negotiated protocol. -/
def hasErrorChannel (proto : String) : Bool := proto != "channel.k8s.io" && proto != ""

/-- `handle_exec`.  Frames other than those of channel 0 are drained, so the end of the client's
    stdin is the end of the connection. -/
def wsPlan (proto : String) : Plan Message where
  stdinTask := true
  seesEnd := false
  reader
    | .stdout => .pumped (channelFrame chStdout)
    | .stderr => .pumped (channelFrame chStderr)
  status code :=
    if hasErrorChannel proto then [channelFrame chError (statusExit code)]
    else if code ≠ 0 then
      [channelFrame chStderr (asBytes ("command terminated with exit code " ++ toString code))]
    else []
  bye := .close closeNormal ""
  spawnFailed e :=
    [channelFrame chError (statusFailure ("crun exec: " ++ e)),
      .close closeNormal "exec spawn failed"]

/-! ## One step -/

/-- Where the handler stands. -/
inductive Phase (F : Type) where
  | waiting
  | joining (code : Int)
  | reporting (frames : List F)
  | closing
  | returned

def Phase.isReturned {F : Type} : Phase F → Bool
  | .returned => true
  | _ => false

/-- An exec session while it runs. -/
structure St (F : Type) where
  /-- Each output pipe with its pump, if it has one. -/
  lines : Output → Line UInt8
  /-- Somebody can still write to the pipe. -/
  writers : Output → Bool
  /-- The child has ended, with its exit code unless a signal ended it. -/
  exited : Option (Option Int)
  /-- The process has not closed its stdin. -/
  stdinReader : Bool
  /-- Chunks of stdin the client has sent and the stdin task has not received. -/
  inbox : List Bytes
  inboxOpen : Bool
  /-- The client sends no more stdin. -/
  clientDone : Bool
  stdinStage : Stage UInt8
  pipeIn : Bytes
  phase : Phase F
  sent : List F

variable {F : Type}

/-- The handler when `crun exec` has been spawned, or has failed to. -/
def St.start (p : Plan F) (spawn : Except String Unit) : St F where
  lines _ := .new
  writers _ := true
  exited := none
  stdinReader := true
  inbox := []
  inboxOpen := true
  clientDone := false
  stdinStage := .reading
  pipeIn := []
  phase :=
    match spawn with
    | .ok _ => .waiting
    | .error _ => .returned
  sent :=
    match spawn with
    | .ok _ => []
    | .error e => p.spawnFailed e

/-- Somebody reads the pipe, or at least has its read end. -/
def St.readerOpen (p : Plan F) (s : St F) (c : Output) : Bool :=
  match p.reader c with
  | .pumped _ => !(s.lines c).task.isOver
  | .kept => !s.phase.isReturned
  | .dropped => false

/-- Somebody has the write end of the stdin pipe. -/
def St.stdinHeld (p : Plan F) (s : St F) : Bool :=
  if p.stdinTask then !s.stdinStage.isOver else !s.phase.isReturned

/-- The pump of an output, if it has one, has returned. -/
def St.pumpOver (p : Plan F) (s : St F) (c : Output) : Bool :=
  match p.reader c with
  | .pumped _ => (s.lines c).task.isOver
  | _ => true

def St.setLine (s : St F) (c : Output) (l : Line UInt8) : St F :=
  { s with lines := Function.update s.lines c l }

@[simp] theorem setLine_same (s : St F) (c : Output) (l : Line UInt8) :
    (s.setLine c l).lines c = l := by
  simp [St.setLine]

theorem setLine_other (s : St F) {c d : Output} (h : d ≠ c) (l : Line UInt8) :
    (s.setLine c l).lines d = s.lines d := by
  simp [St.setLine, Function.update_of_ne h]

/-- Who moves, with the choices of the environment. -/
inductive Label where
  /-- Bytes are written to an output, or find no reader. -/
  | write (c : Output) (bytes : Bytes)
  | brokenPipe (c : Output)
  /-- The last one who could write to an output closes it. -/
  | close (c : Output)
  /-- The process reads `n` bytes of stdin, or its end. -/
  | readIn (n : Nat)
  | readInEof
  | closeIn
  | exit (code : Option Int)
  /-- A pump reads `n` bytes, the end of the pipe, or fails to; it sends, or fails to. -/
  | read (c : Output) (n : Nat)
  | readEof (c : Output)
  | readFailed (c : Output)
  | send (c : Output)
  | sendFailed (c : Output)
  /-- The stdin task receives a chunk or the end, and writes. -/
  | recv
  | recvNone
  | wrote (n : Nat)
  | writeFailed
  /-- `child.wait()` returns, the pumps are joined, the status is sent, then the last frame. -/
  | waited
  | waitFailed
  | joined
  | reported (ok : Bool)
  | left (ok : Bool)
  /-- The client sends stdin, ends it, or ends the connection. -/
  | input (bytes : Bytes)
  | inputEnd
  | hangup
  deriving DecidableEq, Repr

/-- One step; a pipe holds `cap` bytes. -/
def step (p : Plan F) (cap : Nat) (s : St F) : Label → Option (St F)
  | .write c bytes =>
    if s.writers c = true ∧ s.readerOpen p c = true ∧ bytes ≠ [] ∧
        (s.lines c).pending.length + bytes.length ≤ cap then
      some (s.setLine c ((s.lines c).arrive bytes))
    else none
  | .brokenPipe c => if s.writers c = true ∧ s.readerOpen p c = false then some s else none
  | .close c =>
    if s.writers c = true then some { s with writers := Function.update s.writers c false }
    else none
  | .readIn n =>
    if s.stdinReader = true ∧ 0 < n ∧ n ≤ s.pipeIn.length then
      some { s with pipeIn := s.pipeIn.drop n }
    else none
  | .readInEof =>
    if s.stdinReader = true ∧ s.pipeIn = [] ∧ s.stdinHeld p = false then some s else none
  | .closeIn => some { s with stdinReader := false }
  | .exit code => if s.exited = none then some { s with exited := some code } else none
  | .read c n =>
    match p.reader c with
    | .pumped _ => ((s.lines c).read bufSize n).map (s.setLine c)
    | _ => none
  | .readEof c =>
    match p.reader c with
    | .pumped _ =>
      if s.writers c = false ∧ (s.lines c).pending = [] then (s.lines c).leave.map (s.setLine c)
      else none
    | _ => none
  | .readFailed c =>
    match p.reader c with
    | .pumped _ => (s.lines c).leave.map (s.setLine c)
    | _ => none
  | .send c =>
    match p.reader c, (s.lines c).task with
    | .pumped frame, .holding chunk =>
      (s.lines c).deliver.map fun l => { s.setLine c l with sent := s.sent ++ [frame chunk] }
    | _, _ => none
  | .sendFailed c =>
    match p.reader c with
    | .pumped _ => (s.lines c).refuse.map (s.setLine c)
    | _ => none
  | .recv =>
    match p.stdinTask, s.stdinStage, s.inbox with
    | true, .reading, chunk :: rest =>
      some { s with
        stdinStage := if chunk = [] then .reading else .holding chunk
        inbox := rest }
    | _, _, _ => none
  | .recvNone =>
    if p.stdinTask = true ∧ s.stdinStage = .reading ∧ s.inbox = [] ∧ s.inboxOpen = false then
      some { s with stdinStage := .done [] }
    else none
  | .wrote n =>
    match p.stdinTask, s.stdinStage with
    | true, .holding rest =>
      if s.stdinReader = true ∧ 0 < n ∧ n ≤ rest.length ∧ s.pipeIn.length + n ≤ cap then
        some { s with
          pipeIn := s.pipeIn ++ rest.take n
          stdinStage := if n = rest.length then .reading else .holding (rest.drop n) }
      else none
    | _, _ => none
  | .writeFailed =>
    match p.stdinTask, s.stdinStage with
    | true, .holding rest =>
      if s.stdinReader = false then some { s with stdinStage := .done rest } else none
    | _, _ => none
  | .waited =>
    match s.phase, s.exited with
    | .waiting, some code => some { s with phase := .joining (code.getD (-1)) }
    | _, _ => none
  | .waitFailed =>
    match s.phase with
    | .waiting => some { s with phase := .joining (-1) }
    | _ => none
  | .joined =>
    match s.phase with
    | .joining code =>
      if s.pumpOver p .stdout && s.pumpOver p .stderr then
        some { s with phase := .reporting (p.status code) }
      else none
    | _ => none
  | .reported ok =>
    match s.phase with
    | .reporting frames =>
      some { s with phase := .closing, sent := s.sent ++ if ok then frames else [] }
    | _ => none
  | .left ok =>
    match s.phase with
    | .closing =>
      some { s with phase := .returned, sent := s.sent ++ if ok then [p.bye] else [] }
    | _ => none
  | .input bytes =>
    if s.clientDone = false ∧ s.inboxOpen = true then some { s with inbox := s.inbox ++ [bytes] }
    else none
  | .inputEnd =>
    if s.clientDone = false then
      some { s with clientDone := true, inboxOpen := s.inboxOpen && !p.seesEnd }
    else none
  | .hangup => some { s with clientDone := true, inboxOpen := false }

/-! ## What a step can be -/

/-- The steps, each with what it needs. -/
inductive Moves (p : Plan F) (cap : Nat) (s : St F) : Label → St F → Prop
  | write {c : Output} {bytes : Bytes} (hwriter : s.writers c = true)
      (hopen : s.readerOpen p c = true) (hsome : bytes ≠ [])
      (hroom : (s.lines c).pending.length + bytes.length ≤ cap) :
      Moves p cap s (.write c bytes) (s.setLine c ((s.lines c).arrive bytes))
  | brokenPipe {c : Output} (hwriter : s.writers c = true) (hclosed : s.readerOpen p c = false) :
      Moves p cap s (.brokenPipe c) s
  | close {c : Output} (hwriter : s.writers c = true) :
      Moves p cap s (.close c) { s with writers := Function.update s.writers c false }
  | readIn {n : Nat} (hreader : s.stdinReader = true) (hpos : 0 < n) (hle : n ≤ s.pipeIn.length) :
      Moves p cap s (.readIn n) { s with pipeIn := s.pipeIn.drop n }
  | readInEof (hreader : s.stdinReader = true) (hempty : s.pipeIn = [])
      (hheld : s.stdinHeld p = false) : Moves p cap s .readInEof s
  | closeIn : Moves p cap s .closeIn { s with stdinReader := false }
  | exit {code : Option Int} (hruns : s.exited = none) :
      Moves p cap s (.exit code) { s with exited := some code }
  | read {c : Output} {n : Nat} {frame : Bytes → F} {l : Line UInt8}
      (hr : p.reader c = .pumped frame) (hread : (s.lines c).read bufSize n = some l) :
      Moves p cap s (.read c n) (s.setLine c l)
  | readEof {c : Output} {frame : Bytes → F} {l : Line UInt8} (hr : p.reader c = .pumped frame)
      (hwriters : s.writers c = false) (hempty : (s.lines c).pending = [])
      (hleave : (s.lines c).leave = some l) : Moves p cap s (.readEof c) (s.setLine c l)
  | readFailed {c : Output} {frame : Bytes → F} {l : Line UInt8} (hr : p.reader c = .pumped frame)
      (hleave : (s.lines c).leave = some l) : Moves p cap s (.readFailed c) (s.setLine c l)
  | send {c : Output} {frame : Bytes → F} {chunk : Bytes} {l : Line UInt8}
      (hr : p.reader c = .pumped frame) (ht : (s.lines c).task = .holding chunk)
      (hdeliver : (s.lines c).deliver = some l) :
      Moves p cap s (.send c) { s.setLine c l with sent := s.sent ++ [frame chunk] }
  | sendFailed {c : Output} {frame : Bytes → F} {l : Line UInt8} (hr : p.reader c = .pumped frame)
      (hrefuse : (s.lines c).refuse = some l) : Moves p cap s (.sendFailed c) (s.setLine c l)
  | recv {chunk : Bytes} {rest : List Bytes} (htask : p.stdinTask = true)
      (hstage : s.stdinStage = .reading) (hinbox : s.inbox = chunk :: rest) :
      Moves p cap s .recv { s with
        stdinStage := if chunk = [] then .reading else .holding chunk
        inbox := rest }
  | recvNone (htask : p.stdinTask = true) (hstage : s.stdinStage = .reading)
      (hinbox : s.inbox = []) (hclosed : s.inboxOpen = false) :
      Moves p cap s .recvNone { s with stdinStage := .done [] }
  | wrote {n : Nat} {rest : Bytes} (htask : p.stdinTask = true)
      (hstage : s.stdinStage = .holding rest) (hreader : s.stdinReader = true) (hpos : 0 < n)
      (hle : n ≤ rest.length) (hroom : s.pipeIn.length + n ≤ cap) :
      Moves p cap s (.wrote n) { s with
        pipeIn := s.pipeIn ++ rest.take n
        stdinStage := if n = rest.length then .reading else .holding (rest.drop n) }
  | writeFailed {rest : Bytes} (htask : p.stdinTask = true) (hstage : s.stdinStage = .holding rest)
      (hreader : s.stdinReader = false) :
      Moves p cap s .writeFailed { s with stdinStage := .done rest }
  | waited {code : Option Int} (hp : s.phase = .waiting) (hx : s.exited = some code) :
      Moves p cap s .waited { s with phase := .joining (code.getD (-1)) }
  | waitFailed (hp : s.phase = .waiting) :
      Moves p cap s .waitFailed { s with phase := .joining (-1) }
  | joined {code : Int} (hp : s.phase = .joining code) (hover : ∀ c, s.pumpOver p c = true) :
      Moves p cap s .joined { s with phase := .reporting (p.status code) }
  | reported {ok : Bool} {frames : List F} (hp : s.phase = .reporting frames) :
      Moves p cap s (.reported ok) { s with
        phase := .closing
        sent := s.sent ++ if ok then frames else [] }
  | left {ok : Bool} (hp : s.phase = .closing) :
      Moves p cap s (.left ok) { s with
        phase := .returned
        sent := s.sent ++ if ok then [p.bye] else [] }
  | input {bytes : Bytes} (hdone : s.clientDone = false) (hopen : s.inboxOpen = true) :
      Moves p cap s (.input bytes) { s with inbox := s.inbox ++ [bytes] }
  | inputEnd (hdone : s.clientDone = false) :
      Moves p cap s .inputEnd { s with
        clientDone := true
        inboxOpen := s.inboxOpen && !p.seesEnd }
  | hangup : Moves p cap s .hangup { s with clientDone := true, inboxOpen := false }

/-- **Inversion of a step.** -/
theorem moves_of_step {p : Plan F} {cap : Nat} {s s' : St F} {l : Label}
    (hstep : step p cap s l = some s') : Moves p cap s l s' := by
  cases l with
  | write c bytes =>
    simp only [step] at hstep
    split_ifs at hstep with hc
    cases hstep
    exact .write hc.1 hc.2.1 hc.2.2.1 hc.2.2.2
  | brokenPipe c =>
    simp only [step] at hstep
    split_ifs at hstep with hc
    cases hstep
    exact .brokenPipe hc.1 hc.2
  | close c =>
    simp only [step] at hstep
    split_ifs at hstep with hc
    cases hstep
    exact .close hc
  | readIn n =>
    simp only [step] at hstep
    split_ifs at hstep with hc
    cases hstep
    exact .readIn hc.1 hc.2.1 hc.2.2
  | readInEof =>
    simp only [step] at hstep
    split_ifs at hstep with hc
    cases hstep
    exact .readInEof hc.1 hc.2.1 hc.2.2
  | closeIn =>
    cases hstep
    exact .closeIn
  | exit code =>
    simp only [step] at hstep
    split_ifs at hstep with hc
    cases hstep
    exact .exit hc
  | read c n =>
    simp only [step] at hstep
    split at hstep
    · rename_i frame hr
      obtain ⟨l, hread, rfl⟩ := Option.map_eq_some_iff.1 hstep
      exact .read hr hread
    · cases hstep
  | readEof c =>
    simp only [step] at hstep
    split at hstep
    · rename_i frame hr
      split_ifs at hstep with hc
      obtain ⟨l, hleave, rfl⟩ := Option.map_eq_some_iff.1 hstep
      exact .readEof hr hc.1 hc.2 hleave
    · cases hstep
  | readFailed c =>
    simp only [step] at hstep
    split at hstep
    · rename_i frame hr
      obtain ⟨l, hleave, rfl⟩ := Option.map_eq_some_iff.1 hstep
      exact .readFailed hr hleave
    · cases hstep
  | send c =>
    simp only [step] at hstep
    split at hstep
    · rename_i frame chunk hr ht
      obtain ⟨l, hdeliver, rfl⟩ := Option.map_eq_some_iff.1 hstep
      exact .send hr ht hdeliver
    · cases hstep
  | sendFailed c =>
    simp only [step] at hstep
    split at hstep
    · rename_i frame hr
      obtain ⟨l, hrefuse, rfl⟩ := Option.map_eq_some_iff.1 hstep
      exact .sendFailed hr hrefuse
    · cases hstep
  | recv =>
    simp only [step] at hstep
    split at hstep
    · rename_i chunk rest htask hstage hinbox
      cases hstep
      exact .recv htask hstage hinbox
    · cases hstep
  | recvNone =>
    simp only [step] at hstep
    split_ifs at hstep with hc
    cases hstep
    exact .recvNone hc.1 hc.2.1 hc.2.2.1 hc.2.2.2
  | wrote n =>
    simp only [step] at hstep
    split at hstep
    · rename_i rest htask hstage
      split at hstep
      · rename_i hc
        cases hstep
        exact .wrote htask hstage hc.1 hc.2.1 hc.2.2.1 hc.2.2.2
      · cases hstep
    · cases hstep
  | writeFailed =>
    simp only [step] at hstep
    split at hstep
    · rename_i rest htask hstage
      split_ifs at hstep with hc
      cases hstep
      exact .writeFailed htask hstage hc
    · cases hstep
  | waited =>
    simp only [step] at hstep
    split at hstep
    · rename_i code hp hx
      cases hstep
      exact .waited hp hx
    · cases hstep
  | waitFailed =>
    simp only [step] at hstep
    split at hstep
    · rename_i hp
      cases hstep
      exact .waitFailed hp
    · cases hstep
  | joined =>
    simp only [step] at hstep
    split at hstep
    · rename_i code hp
      split_ifs at hstep with hover
      cases hstep
      rw [Bool.and_eq_true] at hover
      refine .joined hp ?_
      intro c
      cases c
      · exact hover.1
      · exact hover.2
    · cases hstep
  | reported ok =>
    simp only [step] at hstep
    split at hstep
    · rename_i frames hp
      cases hstep
      exact .reported hp
    · cases hstep
  | left ok =>
    simp only [step] at hstep
    split at hstep
    · rename_i hp
      cases hstep
      exact .left hp
    · cases hstep
  | input bytes =>
    simp only [step] at hstep
    split_ifs at hstep with hc
    cases hstep
    exact .input hc.1 hc.2
  | inputEnd =>
    simp only [step] at hstep
    split_ifs at hstep with hc
    cases hstep
    exact .inputEnd hc
  | hangup =>
    cases hstep
    exact .hangup

end ContainerdRs.Cri.Streaming.Exec
