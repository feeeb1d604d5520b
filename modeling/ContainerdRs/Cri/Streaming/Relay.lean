import ContainerdRs.Cri.Spdy.Demux
import ContainerdRs.Cri.Spdy.Streams
import ContainerdRs.Lib.Pump

/-!
# Relaying a port-forward stream (`spdy_portforward`, the two tasks of a data stream)

The socket is split; one task writes what the channel of the stream yields to it, the other reads
it and sends DATA frames.  The read loop fills the channel and drops its sender when the client
ends the stream.  A half of the socket that is dropped does not shut it down while the other half
lives.

* `Transparent` — bytes arrive unchanged and in order, in both directions.
* `Closing` — an end-of-stream is passed on, or the task that would pass it on can move.
* `relayed_iff` — over every run, when both hold.
* `ends_not_relayed` — the two ways in which an end gets lost.
-/

set_option autoImplicit false

namespace ContainerdRs.Cri.Streaming.Relay

open Transition Pump ContainerdRs.Cri.Spdy

/-! ## The tasks -/

/-- A data stream whose connect has succeeded. -/
structure St where
  /-- The read loop. -/
  session : Session
  /-- The frames it has handled since the stream was accepted. -/
  handled : List Frame
  /-- Payloads that the first task has received from the channel. -/
  taken : Nat
  /-- The first task, client to TCP; it holds what is left of its chunk. -/
  up : Stage UInt8
  written : Bytes
  /-- The second task, TCP to client. -/
  down : Line UInt8
  /-- The end of the TCP stream has arrived. -/
  eof : Bool
  /-- A read of the socket has failed; nothing arrives after that. -/
  failed : Bool
  /-- The frames the second task has sent. -/
  sent : List Frame
  /-- The write side of the socket is shut down. -/
  shutdown : Bool

/-- The stream when it is accepted. -/
def St.start (session : Session) : St :=
  ⟨session, [], 0, .reading, [], .new, false, false, [], false⟩

/-- Who moves, with the choices of the environment. -/
inductive Label where
  /-- The read loop handles a frame. -/
  | frame (f : Frame) (a : Answers)
  /-- The connection ends or a frame does not parse; the read loop returns. -/
  | hangup
  /-- `rx.recv()` yields a chunk. -/
  | recv
  /-- `rx.recv()` yields `None`. -/
  | recvNone
  /-- A part of `write_all` takes `n` bytes. -/
  | wrote (n : Nat)
  | writeFailed
  /-- The TCP peer sends bytes, or closes its side. -/
  | arrive (bytes : Bytes)
  | peerEof
  /-- `rd.read` yields `n` bytes, `Ok(0)`, or an error. -/
  | read (n : Nat)
  | readEof
  | readFailed
  /-- `send_data` succeeds or fails. -/
  | send
  | sendFailed

/-- A task has returned; with the second half the socket is dropped too. -/
def St.dropHalf (s : St) : St :=
  if s.up.isOver && s.down.task.isOver then { s with shutdown := true } else s

/-- What the channel has been sent. -/
def St.inbound (k : Nat) (s : St) : List Bytes := received k s.session.conn.trace

/-- One step.  The data stream has the id `id` and the channel `k`. -/
def step (id : UInt32) (k : Nat) (s : St) : Label → Option St
  | .frame f a =>
    (sessionStep s.session (f, a)).map fun session =>
      { s with session := session, handled := s.handled ++ [f] }
  | .hangup =>
    if s.session.running then
      some { s with session := { s.session with conn := s.session.conn.close, running := false } }
    else none
  | .recv =>
    match s.up, (s.inbound k)[s.taken]? with
    | .reading, some chunk => some { s with up := .holding chunk, taken := s.taken + 1 }
    | _, _ => none
  | .recvNone =>
    if s.up = .reading ∧ (s.inbound k)[s.taken]? = none ∧ s.session.conn.streams id ≠ some k then
      some { s with up := .done [] }.dropHalf
    else none
  | .wrote n =>
    match s.up with
    | .holding rest =>
      if 0 < n ∧ n ≤ rest.length then
        some { s with
          written := s.written ++ rest.take n
          up := if n = rest.length then .reading else .holding (rest.drop n) }
      else none
    | _ => none
  | .writeFailed =>
    match s.up with
    | .holding rest => some { s with up := .done rest }.dropHalf
    | _ => none
  | .arrive bytes =>
    if s.eof || s.failed then none else some { s with down := s.down.arrive bytes }
  | .peerEof => if s.eof || s.failed then none else some { s with eof := true }
  | .read n => (s.down.read bufSize n).map fun down => { s with down := down }
  | .readEof =>
    if s.eof = true ∧ s.down.pending = [] then
      s.down.leave.map fun down => { s with down := down }.dropHalf
    else none
  | .readFailed => s.down.leave.map fun down => { s with down := down, failed := true }.dropHalf
  | .send =>
    match s.down.task with
    | .holding chunk =>
      s.down.deliver.map fun down =>
        { s with down := down, sent := s.sent ++ [sendData id false chunk] }
    | _ => none
  | .sendFailed => s.down.refuse.map fun down => { s with down := down }.dropHalf

/-! ## What is promised -/

/-- The stream has just been accepted: its channel is new. -/
structure Accepted (id : UInt32) (k : Nat) (session : Session) : Prop where
  running : session.running = true
  owned : Owned session.conn k id
  made : k < session.conn.channels
  fresh : received k session.conn.trace = []

/-- The frame is DATA with FLAG_FIN on the stream. -/
def signalsEnd (id : UInt32) : Frame → Bool
  | .data i flags _ => i == id && isFin flags
  | _ => false

/-- What the client has sent on the stream. -/
def clientBytes (id : UInt32) (s : St) : Bytes := (payloads id (upToEnd id s.handled)).flatten

/-- The client has ended the stream. -/
def ClientEnded (id : UInt32) (s : St) : Prop := ∃ f ∈ upToEnd id s.handled, signalsEnd id f = true

/-- What the client gets on the stream. -/
def answered (id : UInt32) (s : St) : Bytes := (payloads id s.sent).flatten

/-- **Transparent**: in each direction what has been passed on, what the task holds (or has
    dropped at a failure) and what it has not taken yet are the bytes received, in order. -/
structure Transparent (id : UInt32) (k : Nat) (s : St) : Prop where
  toTcp : s.written ++ s.up.held ++ ((s.inbound k).drop s.taken).flatten = clientBytes id s
  toClient : answered id s ++ s.down.task.held ++ s.down.pending = s.down.arrived

/-- **Closing**: once a side has ended and all its bytes are forwarded, the end is signalled to the
    other side, or the task of that direction is about to see it. -/
structure Closing (id : UInt32) (k : Nat) (s : St) : Prop where
  toTcp : ClientEnded id s → s.written = clientBytes id s →
    s.shutdown = true ∨ (step id k s .recvNone).isSome = true
  toClient : s.eof = true → answered id s = s.down.arrived →
    (∃ f ∈ s.sent, signalsEnd id f = true) ∨ (step id k s .readEof).isSome = true

/-- The task that sees an end of stream is the last one, and the end of the TCP stream is never
    seen. -/
def Ok (id : UInt32) (s : St) : Label → Prop
  | .recvNone => ClientEnded id s → s.down.task.isOver = true
  | .readEof => False
  | .readFailed => ¬ (s.eof = true ∧ s.down.pending = [])
  | _ => True

instance (id : UInt32) (s : St) : Decidable (ClientEnded id s) :=
  inferInstanceAs (Decidable (∃ f ∈ upToEnd id s.handled, signalsEnd id f = true))

instance (id : UInt32) (s : St) (l : Label) : Decidable (Ok id s l) :=
  match l with
  | .recvNone => inferInstanceAs (Decidable (ClientEnded id s → s.down.task.isOver = true))
  | .readEof => isFalse (fun h => h)
  | .readFailed => inferInstanceAs (Decidable (¬ (s.eof = true ∧ s.down.pending = [])))
  | .frame _ _ | .hangup | .recv | .wrote _ | .writeFailed | .arrive _ | .peerEof | .read _ | .send
  | .sendFailed => isTrue trivial

/-! ## The channel -/

section channel

variable {id : UInt32} {k : Nat}

theorem upToEnd_open : ∀ {fs : List Frame}, fs.any (closes id) = false → upToEnd id fs = fs
  | [], _ => rfl
  | f :: fs, h => by
    rw [List.any_cons, Bool.or_eq_false_iff] at h
    rw [upToEnd, h.1, if_neg (by simp), upToEnd_open h.2]

theorem upToEnd_snoc_open {fs : List Frame} (f : Frame) (h : fs.any (closes id) = false) :
    upToEnd id (fs ++ [f]) = fs ++ [f] := by
  induction fs with
  | nil =>
    rw [List.nil_append, upToEnd]
    split <;> rfl
  | cons g fs ih =>
    rw [List.any_cons, Bool.or_eq_false_iff] at h
    rw [List.cons_append, upToEnd, h.1, if_neg (by simp), ih h.2]

theorem upToEnd_snoc_closed {fs : List Frame} (f : Frame) (h : fs.any (closes id) = true) :
    upToEnd id (fs ++ [f]) = upToEnd id fs := by
  induction fs with
  | nil => simp at h
  | cons g fs ih =>
    rw [List.cons_append, upToEnd, upToEnd]
    cases hg : closes id g with
    | true => rfl
    | false =>
      rw [List.any_cons, hg, Bool.false_or] at h
      rw [ih h]

/-- The channel of the stream, as the read loop leaves it. -/
structure Channel (id : UInt32) (k : Nat) (session : Session) (handled : List Frame) : Prop where
  made : k < session.conn.channels
  filled : received k session.conn.trace = payloads id (upToEnd id handled)
  alive : session.running = true → handled.any (closes id) = false → Owned session.conn k id
  dead : session.running = false ∨ handled.any (closes id) = true → Closed session.conn k

theorem Accepted.channel {session : Session} (h : Accepted id k session) :
    Channel id k session [] := by
  refine ⟨h.made, h.fresh, fun _ _ => h.owned, ?_⟩
  rintro (hrun | hany)
  · rw [h.running] at hrun
    cases hrun
  · cases hany

theorem payloads_snoc (fs : List Frame) (f : Frame) :
    payloads id (fs ++ [f]) = payloads id fs ++ payloads id [f] := by
  rw [payloads, List.filterMap_append]
  rfl

/-- One frame of the read loop. -/
theorem Channel.frame {session session' : Session} {handled : List Frame} {f : Frame} {a : Answers}
    (h : Channel id k session handled) (hstep : sessionStep session (f, a) = some session') :
    Channel id k session' (handled ++ [f]) := by
  obtain ⟨hrun, hconn, hgo, -⟩ := sessionStep_some hstep
  have hmade : k < session'.conn.channels := h.made.trans_le (channels_le_of_step hstep)
  cases hany : handled.any (closes id) with
  | true =>
    have hclosed := h.dead (.inr hany)
    refine ⟨hmade, ?_, ?_, ?_⟩
    · rw [hconn, handle_received, hclosed.delivered, List.append_nil, h.filled,
        upToEnd_snoc_closed f hany]
    · intro _ hnone
      rw [List.any_append, hany, Bool.true_or] at hnone
      cases hnone
    · intro _
      rw [hconn]
      exact hclosed.handle h.made f
  | false =>
    have howned := h.alive hrun hany
    have hlast : (handled ++ [f]).any (closes id) = closes id f := by
      simp [List.any_append, hany]
    refine ⟨hmade, ?_, ?_, ?_⟩
    · rw [hconn, handle_received, howned.delivered, h.filled, upToEnd_snoc_open f hany,
        upToEnd_open hany, payloads_snoc]
    · intro hrun' hnone
      rw [hlast] at hnone
      rw [hconn]
      exact howned.handle h.made hnone (hgo ▸ hrun')
    · rintro (hstop | hcloses)
      · rw [hconn]
        exact handle_stopped (hgo ▸ hstop) k
      · rw [hlast] at hcloses
        rw [hconn]
        exact howned.closed h.made hcloses

theorem Channel.hangup {session : Session} {handled : List Frame}
    (h : Channel id k session handled) :
    Channel id k { session with conn := session.conn.close, running := false } handled := by
  refine ⟨h.made, h.filled, ?_, ?_⟩
  · intro hrun
    cases hrun
  · intro _ i hi
    cases hi

/-- The sender is gone once the loop has returned or a frame has closed the stream. -/
theorem Channel.gone {session : Session} {handled : List Frame} (h : Channel id k session handled)
    (hgone : session.conn.streams id ≠ some k) :
    session.running = false ∨ handled.any (closes id) = true := by
  by_contra hno
  simp only [not_or, Bool.not_eq_false, Bool.not_eq_true] at hno
  exact hgone (h.alive hno.1 hno.2).sender

end channel

/-! ## The invariant -/

section invariant

variable {id : UInt32} {k : Nat} {s s' : St}

theorem dropHalf_eq (s : St) : s.dropHalf = { s with
    shutdown := s.shutdown || (s.up.isOver && s.down.task.isOver) } := by
  unfold St.dropHalf
  cases s.up.isOver && s.down.task.isOver <;> simp

/-- What every run keeps, whatever its steps. -/
structure Base (id : UInt32) (k : Nat) (s : St) : Prop where
  channel : Channel id k s.session s.handled
  took : s.taken ≤ (s.inbound k).length
  toTcp : s.written ++ s.up.held = ((s.inbound k).take s.taken).flatten
  holding : ∀ rest, s.up = .holding rest → rest ≠ []
  /-- The first task returns at the end of the channel, or holds what it could not write. -/
  upOver : s.up = .done [] →
    s.session.conn.streams id ≠ some k ∧ s.taken = (s.inbound k).length
  sound : Sound s.down
  sent : s.sent = s.down.out.map (sendData id false)
  chunks : ∀ chunk ∈ s.down.out, chunk ≠ []
  downOver : s.down.task = .done [] → s.failed = true ∨ s.eof = true
  shut : s.shutdown = true → s.up.isOver = true ∧ s.down.task.isOver = true

theorem base_start {session : Session} (h : Accepted id k session) :
    Base id k (.start session) := by
  refine ⟨h.channel, Nat.zero_le _, rfl, ?_, ?_, sound_new, rfl, ?_, ?_, ?_⟩
  · intro rest hr
    cases hr
  · intro ho
    cases ho
  · intro chunk hc
    cases hc
  · intro ho
    cases ho
  · intro hs
    cases hs

theorem payload_nonempty {fs : List Frame} {chunk : Bytes} (h : chunk ∈ payloads id fs) :
    chunk ≠ [] := by
  obtain ⟨f, -, hf⟩ := List.mem_filterMap.1 h
  cases f with
  | data i flags payload =>
    simp only at hf
    split_ifs at hf with hc
    cases hf
    exact hc.2
  | _ => cases hf

theorem Base.inbound_eq (h : Base id k s) : s.inbound k = payloads id (upToEnd id s.handled) :=
  h.channel.filled

/-- The read loop moves on. -/
theorem Base.session_step (h : Base id k s) {session : Session} {handled : List Frame}
    (hnew : Channel id k session handled) {more : List Bytes}
    (hmore : received k session.conn.trace = s.inbound k ++ more)
    (hgone : s.session.conn.streams id ≠ some k →
      session.conn.streams id ≠ some k ∧ more = []) :
    Base id k { s with session := session, handled := handled } := by
  have heq : St.inbound k { s with session := session, handled := handled } =
      s.inbound k ++ more := hmore
  refine ⟨hnew, ?_, ?_, h.holding, ?_, h.sound, h.sent, h.chunks, h.downOver, h.shut⟩
  · rw [heq, List.length_append]
    exact Nat.le_add_right_of_le h.took
  · rw [heq, List.take_append_of_le_length h.took]
    exact h.toTcp
  · intro hover
    obtain ⟨hsender, htaken⟩ := h.upOver hover
    obtain ⟨hsender', rfl⟩ := hgone hsender
    refine ⟨hsender', ?_⟩
    rw [heq, List.append_nil]
    exact htaken

theorem Base.frame (h : Base id k s) {f : Frame} {a : Answers} {session : Session}
    (hstep : sessionStep s.session (f, a) = some session) :
    Base id k { s with session := session, handled := s.handled ++ [f] } := by
  obtain ⟨hrun, hconn, -, -⟩ := sessionStep_some hstep
  refine h.session_step (h.channel.frame hstep) (by rw [hconn, handle_received]; rfl) ?_
  intro hsender
  have hclosed : Closed s.session.conn k := h.channel.dead (h.channel.gone hsender)
  refine ⟨?_, hclosed.delivered f⟩
  rw [hconn]
  exact hclosed.handle h.channel.made f id

theorem Base.hangup (h : Base id k s) :
    Base id k { s with
      session := { s.session with conn := s.session.conn.close, running := false } } := by
  refine h.session_step h.channel.hangup (List.append_nil _).symm ?_
  intro _
  refine ⟨?_, rfl⟩
  intro hsender
  cases hsender

/-- The first task moves; what it holds and what it has written are its chunks. -/
theorem Base.up_step (h : Base id k s) {taken : Nat} {up : Stage UInt8} {written : Bytes}
    (htook : taken ≤ (s.inbound k).length)
    (hwritten : written ++ up.held = ((s.inbound k).take taken).flatten)
    (hholding : ∀ rest, up = .holding rest → rest ≠ [])
    (hover : up = .done [] → s.session.conn.streams id ≠ some k ∧ taken = (s.inbound k).length)
    (hlive : s.up.isOver = false) :
    Base id k { s with taken := taken, up := up, written := written } := by
  refine ⟨h.channel, htook, hwritten, hholding, hover, h.sound, h.sent, h.chunks, h.downOver, ?_⟩
  intro hs
  have hup := (h.shut hs).1
  rw [hlive] at hup
  cases hup

/-- The second task moves. -/
theorem Base.down_step (h : Base id k s) {down : Line UInt8} {eof failed : Bool}
    {sent : List Frame} (hsound : Sound down) (hsent : sent = down.out.map (sendData id false))
    (hchunks : ∀ chunk ∈ down.out, chunk ≠ [])
    (hover : down.task = .done [] → failed = true ∨ eof = true)
    (hlive : s.down.task.isOver = true → down.task.isOver = true) :
    Base id k { s with down := down, eof := eof, failed := failed, sent := sent } := by
  refine ⟨h.channel, h.took, h.toTcp, h.holding, h.upOver, hsound, hsent, hchunks, hover, ?_⟩
  intro hs
  exact ⟨(h.shut hs).1, hlive (h.shut hs).2⟩

theorem Base.dropHalf (h : Base id k s) : Base id k s.dropHalf := by
  rw [dropHalf_eq]
  refine ⟨h.channel, h.took, h.toTcp, h.holding, h.upOver, h.sound, h.sent, h.chunks, h.downOver,
    ?_⟩
  intro hs
  simp only [Bool.or_eq_true, Bool.and_eq_true] at hs
  rcases hs with hs | hs
  · exact h.shut hs
  · exact hs

/-- What a step does, by the part that moves. -/
inductive Moved (id : UInt32) (k : Nat) (s : St) : Label → St → Prop
  | frame {f : Frame} {a : Answers} {session : Session}
      (hstep : sessionStep s.session (f, a) = some session) :
      Moved id k s (.frame f a) { s with session := session, handled := s.handled ++ [f] }
  | hangup : Moved id k s .hangup { s with
      session := { s.session with conn := s.session.conn.close, running := false } }
  | recv {chunk : Bytes} (hup : s.up = .reading) (hchunk : (s.inbound k)[s.taken]? = some chunk) :
      Moved id k s .recv { s with up := .holding chunk, taken := s.taken + 1 }
  | recvNone (hup : s.up = .reading) (hnone : (s.inbound k)[s.taken]? = none)
      (hgone : s.session.conn.streams id ≠ some k) :
      Moved id k s .recvNone { s with up := .done [] }.dropHalf
  | wrote {n : Nat} {rest : Bytes} (hup : s.up = .holding rest) (hpos : 0 < n)
      (hle : n ≤ rest.length) : Moved id k s (.wrote n) { s with
        written := s.written ++ rest.take n
        up := if n = rest.length then .reading else .holding (rest.drop n) }
  | writeFailed {rest : Bytes} (hup : s.up = .holding rest) :
      Moved id k s .writeFailed { s with up := .done rest }.dropHalf
  | arrive {bytes : Bytes} (heof : s.eof = false) (hfailed : s.failed = false) :
      Moved id k s (.arrive bytes) { s with down := s.down.arrive bytes }
  | peerEof (heof : s.eof = false) (hfailed : s.failed = false) :
      Moved id k s .peerEof { s with eof := true }
  | read {n : Nat} {down : Line UInt8} (hread : s.down.read bufSize n = some down) :
      Moved id k s (.read n) { s with down := down }
  | readEof {down : Line UInt8} (heof : s.eof = true) (hpending : s.down.pending = [])
      (hleave : s.down.leave = some down) :
      Moved id k s .readEof { s with down := down }.dropHalf
  | readFailed {down : Line UInt8} (hleave : s.down.leave = some down) :
      Moved id k s .readFailed { s with down := down, failed := true }.dropHalf
  | send {down : Line UInt8} {chunk : Bytes} (hchunk : s.down.task = .holding chunk)
      (hdeliver : s.down.deliver = some down) :
      Moved id k s .send { s with
        down := down, sent := s.sent ++ [sendData id false chunk] }
  | sendFailed {down : Line UInt8} (hrefuse : s.down.refuse = some down) :
      Moved id k s .sendFailed { s with down := down }.dropHalf

theorem moved_of_step {l : Label} (h : step id k s l = some s') : Moved id k s l s' := by
  cases l with
  | frame f a =>
    obtain ⟨session, hstep, rfl⟩ := Option.map_eq_some_iff.1 h
    exact .frame hstep
  | hangup =>
    simp only [step] at h
    split at h
    · cases h
      exact .hangup
    · cases h
  | recv =>
    simp only [step] at h
    split at h
    · rename_i chunk hup hchunk
      cases h
      exact .recv hup hchunk
    · cases h
  | recvNone =>
    simp only [step] at h
    split at h
    · rename_i hc
      cases h
      exact .recvNone hc.1 hc.2.1 hc.2.2
    · cases h
  | wrote n =>
    simp only [step] at h
    split at h
    · rename_i rest hup
      split at h
      · rename_i hn
        cases h
        exact .wrote hup hn.1 hn.2
      · cases h
    · cases h
  | writeFailed =>
    simp only [step] at h
    split at h
    · rename_i rest hup
      cases h
      exact .writeFailed hup
    · cases h
  | arrive bytes =>
    simp only [step] at h
    split at h
    · cases h
    · rename_i hc
      rw [Bool.not_eq_true, Bool.or_eq_false_iff] at hc
      cases h
      exact .arrive hc.1 hc.2
  | peerEof =>
    simp only [step] at h
    split at h
    · cases h
    · rename_i hc
      rw [Bool.not_eq_true, Bool.or_eq_false_iff] at hc
      cases h
      exact .peerEof hc.1 hc.2
  | read n =>
    obtain ⟨down, hread, rfl⟩ := Option.map_eq_some_iff.1 h
    exact .read hread
  | readEof =>
    simp only [step] at h
    split at h
    · rename_i hc
      obtain ⟨down, hleave, rfl⟩ := Option.map_eq_some_iff.1 h
      exact .readEof hc.1 hc.2 hleave
    · cases h
  | readFailed =>
    obtain ⟨down, hleave, rfl⟩ := Option.map_eq_some_iff.1 h
    exact .readFailed hleave
  | send =>
    simp only [step] at h
    split at h
    · rename_i chunk hchunk
      obtain ⟨down, hdeliver, rfl⟩ := Option.map_eq_some_iff.1 h
      exact .send hchunk hdeliver
    · cases h
  | sendFailed =>
    obtain ⟨down, hrefuse, rfl⟩ := Option.map_eq_some_iff.1 h
    exact .sendFailed hrefuse

/-- What the first task writes. -/
theorem Base.wrote (h : Base id k s) {n : Nat} {rest : Bytes} (hup : s.up = .holding rest)
    (hle : n ≤ rest.length) : Base id k { s with
      written := s.written ++ rest.take n
      up := if n = rest.length then .reading else .holding (rest.drop n) } := by
  have htcp := h.toTcp
  rw [hup] at htcp
  refine h.up_step h.took ?_ ?_ ?_ (by rw [hup]; rfl)
  · rw [← htcp]
    split
    · rename_i hn
      rw [hn, List.take_length]
      exact List.append_nil _
    · simp only [Stage.held]
      rw [List.append_assoc, List.take_append_drop]
  · intro rest' hrest
    split at hrest
    · cases hrest
    · cases hrest
      rw [Ne, List.drop_eq_nil_iff]
      omega
  · intro hover
    split at hover <;> cases hover

/-- The second task, at a read. -/
theorem Base.down_stage (h : Base id k s) {down : Line UInt8} {failed : Bool}
    (hsound : Sound down) (hout : down.out = s.down.out)
    (hover : down.task = .done [] → failed = true ∨ s.eof = true)
    (hlive : s.down.task.isOver = false) :
    Base id k { s with down := down, failed := failed } := by
  refine h.down_step hsound (by rw [hout, h.sent]) ?_ hover ?_
  · rw [hout]
    exact h.chunks
  · intro ho
    rw [hlive] at ho
    cases ho

theorem base_step {l : Label} (h : Base id k s) (hstep : step id k s l = some s') :
    Base id k s' := by
  cases moved_of_step hstep with
  | frame hs => exact h.frame hs
  | hangup => exact h.hangup
  | recv hup hchunk =>
    rename_i chunk
    obtain ⟨hlt, hget⟩ := List.getElem?_eq_some_iff.1 hchunk
    have hmem : chunk ∈ payloads id (upToEnd id s.handled) := by
      rw [← h.inbound_eq, ← hget]
      exact List.getElem_mem hlt
    refine h.up_step hlt ?_ ?_ ?_ (by rw [hup]; rfl)
    · have htcp := h.toTcp
      rw [hup] at htcp
      simp only [Stage.held, List.append_nil] at htcp ⊢
      rw [List.take_add_one, hchunk, htcp]
      simp
    · intro rest hrest
      cases hrest
      exact payload_nonempty hmem
    · intro hover
      cases hover
  | recvNone hup hnone hgone =>
    have htaken : s.taken = (s.inbound k).length :=
      Nat.le_antisymm h.took (List.getElem?_eq_none_iff.1 hnone)
    refine (h.up_step h.took ?_ ?_ (fun _ => ⟨hgone, htaken⟩) (by rw [hup]; rfl)).dropHalf
    · have htcp := h.toTcp
      rw [hup] at htcp
      exact htcp
    · intro rest hrest
      cases hrest
  | wrote hup hpos hle => exact h.wrote hup hle
  | writeFailed hup =>
    refine (h.up_step h.took ?_ ?_ ?_ (by rw [hup]; rfl)).dropHalf
    · have htcp := h.toTcp
      rw [hup] at htcp
      exact htcp
    · intro rest hrest
      cases hrest
    · intro hover
      cases hover
      exact absurd rfl (h.holding [] hup)
  | arrive heof hfailed =>
    exact h.down_step (h.sound.arrive _) h.sent h.chunks h.downOver fun ho => ho
  | peerEof heof hfailed =>
    exact h.down_step h.sound h.sent h.chunks (fun _ => .inr rfl) fun ho => ho
  | read hread =>
    have hsound := h.sound.read hread
    obtain ⟨htask, -, -, -, rfl⟩ := read_some hread
    refine h.down_stage hsound rfl ?_ (by rw [htask]; rfl)
    intro hover
    cases hover
  | readEof heof hpending hleave =>
    have hsound := h.sound.leave hleave
    obtain ⟨htask, rfl⟩ := leave_some hleave
    exact (h.down_stage hsound rfl (fun _ => .inr heof) (by rw [htask]; rfl)).dropHalf
  | readFailed hleave =>
    have hsound := h.sound.leave hleave
    obtain ⟨htask, rfl⟩ := leave_some hleave
    exact (h.down_stage hsound rfl (fun _ => .inl rfl) (by rw [htask]; rfl)).dropHalf
  | send hchunk hdeliver =>
    rename_i chunk
    have hsound := h.sound.deliver hdeliver
    obtain ⟨chunk', htask, rfl⟩ := deliver_some hdeliver
    rw [hchunk] at htask
    cases htask
    refine h.down_step hsound ?_ ?_ ?_ ?_
    · rw [h.sent, List.map_append]
      rfl
    · intro c hc
      rcases List.mem_append.1 hc with hc | hc
      · exact h.chunks c hc
      · rw [List.mem_singleton.1 hc]
        exact h.sound.held chunk hchunk
    · intro hover
      cases hover
    · intro hover
      rw [hchunk] at hover
      cases hover
  | sendFailed hrefuse =>
    have hsound := h.sound.refuse hrefuse
    obtain ⟨chunk, htask, rfl⟩ := refuse_some hrefuse
    refine (h.down_stage hsound rfl ?_ (by rw [htask]; rfl)).dropHalf
    intro hover
    cases hover
    exact absurd rfl (h.sound.held [] htask)

/-! ## Closing, from the stages of the tasks -/

theorem Base.clientBytes_eq (h : Base id k s) : clientBytes id s =
    s.written ++ s.up.held ++ ((s.inbound k).drop s.taken).flatten := by
  rw [clientBytes, ← h.inbound_eq, h.toTcp, ← List.flatten_append, List.take_append_drop]

theorem payloads_map_sendData {chunks : List Bytes} (h : ∀ chunk ∈ chunks, chunk ≠ []) :
    payloads id (chunks.map (sendData id false)) = chunks := by
  induction chunks with
  | nil => rfl
  | cons chunk chunks ih =>
    have hchunk : chunk ≠ [] := h chunk List.mem_cons_self
    rw [List.map_cons, payloads_cons, ih fun c hc => h c (List.mem_cons_of_mem _ hc)]
    simp [payloads, sendData, hchunk]

theorem Base.answered_eq (h : Base id k s) : answered id s = s.down.out.flatten := by
  rw [answered, h.sent, payloads_map_sendData h.chunks]

theorem Base.transparent (h : Base id k s) : Transparent id k s := by
  refine ⟨h.clientBytes_eq.symm, ?_⟩
  rw [h.answered_eq]
  exact h.sound.balance

/-- Everything the client sent is written. -/
theorem Base.written_all (h : Base id k s) :
    s.written = clientBytes id s ↔ s.up.held = [] ∧ s.taken = (s.inbound k).length := by
  rw [h.clientBytes_eq]
  constructor
  · intro hall
    have hlen := congrArg List.length hall
    rw [List.length_append, List.length_append] at hlen
    have hdrop : ((s.inbound k).drop s.taken).flatten = [] :=
      List.eq_nil_of_length_eq_zero (by omega)
    refine ⟨List.eq_nil_of_length_eq_zero (by omega), Nat.le_antisymm h.took ?_⟩
    -- no payload is empty
    by_contra hlt
    have hlt' : s.taken < (s.inbound k).length := by omega
    rw [List.drop_eq_getElem_cons hlt', List.flatten_cons, List.append_eq_nil_iff] at hdrop
    have hmem : (s.inbound k)[s.taken] ∈ payloads id (upToEnd id s.handled) := by
      rw [← h.inbound_eq]
      exact List.getElem_mem hlt'
    exact payload_nonempty hmem hdrop.1
  · rintro ⟨hheld, htaken⟩
    rw [hheld, htaken, List.drop_length]
    simp

theorem closes_of_signalsEnd {f : Frame} (h : signalsEnd id f = true) : closes id f = true := by
  cases f with
  | data i flags payload => exact h
  | _ => cases h

theorem mem_of_mem_upToEnd : ∀ {fs : List Frame} {f : Frame}, f ∈ upToEnd id fs → f ∈ fs
  | [], _, h => h
  | g :: fs, f, h => by
    rw [upToEnd] at h
    split at h
    · rw [List.mem_singleton.1 h]
      exact List.mem_cons_self
    · rcases List.mem_cons.1 h with rfl | h
      · exact List.mem_cons_self
      · exact List.mem_cons_of_mem _ (mem_of_mem_upToEnd h)

theorem Base.sender_gone (h : Base id k s) (hend : ClientEnded id s) :
    s.session.conn.streams id ≠ some k := by
  obtain ⟨f, hf, hsig⟩ := hend
  have hany : s.handled.any (closes id) = true :=
    List.any_eq_true.2 ⟨f, mem_of_mem_upToEnd hf, closes_of_signalsEnd hsig⟩
  exact h.channel.dead (.inr hany) id

/-- The client's end gets lost only when the first task has returned at it. -/
theorem Base.closing_toTcp_iff (h : Base id k s) :
    (ClientEnded id s → s.written = clientBytes id s →
      s.shutdown = true ∨ (step id k s .recvNone).isSome = true) ↔
    (ClientEnded id s → s.up = .done [] → s.shutdown = true) := by
  refine forall_congr' fun hend => ?_
  rw [h.written_all]
  constructor
  · intro hall hover
    rcases hall ⟨by rw [hover]; rfl, (h.upOver hover).2⟩ with hs | hs
    · exact hs
    · simp [step, hover] at hs
  · rintro hover ⟨hheld, htaken⟩
    cases hup : s.up with
    | reading =>
      right
      have hnone : (s.inbound k)[s.taken]? = none := by
        rw [List.getElem?_eq_none_iff, htaken]
      simp [step, hup, hnone, h.sender_gone hend]
    | holding rest =>
      rw [hup] at hheld
      exact absurd hheld (h.holding rest hup)
    | done dropped =>
      rw [hup] at hheld
      simp only [Stage.held] at hheld
      subst hheld
      exact .inl (hover hup)

theorem not_signalsEnd_sent (h : Base id k s) : ¬ ∃ f ∈ s.sent, signalsEnd id f = true := by
  rintro ⟨f, hf, hsig⟩
  rw [h.sent, List.mem_map] at hf
  obtain ⟨chunk, -, rfl⟩ := hf
  simp [sendData, signalsEnd, isFin] at hsig

/-- The end of the TCP stream gets lost as soon as the second task has returned. -/
theorem Base.closing_toClient_iff (h : Base id k s) :
    (s.eof = true → answered id s = s.down.arrived →
      (∃ f ∈ s.sent, signalsEnd id f = true) ∨ (step id k s .readEof).isSome = true) ↔
    (s.eof = true → s.down.task = .done [] → s.down.pending ≠ []) := by
  refine forall_congr' fun heof => ?_
  rw [h.answered_eq, h.sound.all_delivered, or_iff_right (not_signalsEnd_sent h)]
  constructor
  · intro hall hover hpending
    have hs := hall ⟨by rw [hover]; rfl, hpending⟩
    simp [step, Line.leave, hover] at hs
  · rintro hover ⟨hheld, hpending⟩
    cases htask : s.down.task with
    | reading => simp [step, heof, hpending, Line.leave, htask]
    | holding chunk =>
      rw [htask] at hheld
      exact absurd hheld (h.sound.held chunk htask)
    | done dropped =>
      rw [htask] at hheld
      simp only [Stage.held] at hheld
      subst hheld
      exact absurd hpending (hover htask)

/-- The two ways in which an end gets lost, as states. -/
theorem Base.closing_iff (h : Base id k s) : Closing id k s ↔
    (ClientEnded id s → s.up = .done [] → s.shutdown = true) ∧
    (s.eof = true → s.down.task = .done [] → s.down.pending ≠ []) := by
  rw [← h.closing_toTcp_iff, ← h.closing_toClient_iff]
  exact ⟨fun hc => ⟨hc.toTcp, hc.toClient⟩, fun hc => ⟨hc.1, hc.2⟩⟩

/-- Once the first task has seen the end of the channel, no frame can end the stream. -/
theorem Base.clientEnded_frame (h : Base id k s) {f : Frame} {a : Answers} {session : Session}
    (hstep : sessionStep s.session (f, a) = some session)
    (hgone : s.session.conn.streams id ≠ some k)
    (hend : ClientEnded id { s with session := session, handled := s.handled ++ [f] }) :
    ClientEnded id s := by
  obtain ⟨hrun, -, -, -⟩ := sessionStep_some hstep
  rcases h.channel.gone hgone with hstop | hany
  · rw [hrun] at hstop
    cases hstop
  · unfold ClientEnded at hend ⊢
    rw [upToEnd_snoc_closed f hany] at hend
    exact hend

/-- **Whether an end is passed on** is decided at the steps that see one. -/
theorem closing_step {l : Label} (h : Base id k s) (hc : Closing id k s)
    (hstep : step id k s l = some s') : Closing id k s' ↔ Ok id s l := by
  have h' := base_step h hstep
  rw [h'.closing_iff]
  obtain ⟨hup, hdown⟩ := h.closing_iff.1 hc
  cases moved_of_step hstep with
  | frame hs =>
    refine iff_of_true ⟨?_, hdown⟩ trivial
    intro hend hover
    exact hup (h.clientEnded_frame hs (h.upOver hover).1 hend) hover
  | hangup => exact iff_of_true ⟨hup, hdown⟩ trivial
  | recv hreading hchunk =>
    refine iff_of_true ⟨?_, hdown⟩ trivial
    intro _ hover
    cases hover
  | recvNone hreading hnone hgone =>
    have hnot : s.shutdown = false := by
      by_contra hs
      have hover := (h.shut (by simpa using hs)).1
      rw [hreading] at hover
      cases hover
    rw [dropHalf_eq]
    simp only [hnot, Bool.false_or, Stage.isOver, Bool.true_and]
    exact ⟨fun hboth hend => hboth.1 hend trivial, fun hok => ⟨fun hend _ => hok hend, hdown⟩⟩
  | wrote hholding hpos hle =>
    refine iff_of_true ⟨?_, hdown⟩ trivial
    intro _ hover
    dsimp only at hover
    split at hover <;> cases hover
  | writeFailed hholding =>
    rw [dropHalf_eq]
    refine iff_of_true ⟨?_, hdown⟩ trivial
    intro _ hover
    cases hover
    exact absurd rfl (h.holding [] hholding)
  | arrive heof hfailed =>
    refine iff_of_true ⟨hup, ?_⟩ trivial
    intro heof'
    rw [show s.eof = true from heof'] at heof
    cases heof
  | peerEof heof hfailed =>
    refine iff_of_true ⟨hup, ?_⟩ trivial
    intro _ hover
    rcases h.downOver hover with hf | hf
    · rw [hf] at hfailed
      cases hfailed
    · rw [hf] at heof
      cases heof
  | read hread =>
    obtain ⟨-, -, -, -, rfl⟩ := read_some hread
    refine iff_of_true ⟨hup, ?_⟩ trivial
    intro _ hover
    cases hover
  | readEof heof hpending hleave =>
    obtain ⟨-, rfl⟩ := leave_some hleave
    rw [dropHalf_eq]
    refine iff_of_false ?_ (fun hok => hok)
    rintro ⟨-, hno⟩
    exact hno heof rfl hpending
  | readFailed hleave =>
    obtain ⟨-, rfl⟩ := leave_some hleave
    rw [dropHalf_eq]
    constructor
    · rintro ⟨-, hno⟩ ⟨heof, hpending⟩
      exact hno heof rfl hpending
    · intro hok
      refine ⟨?_, fun heof _ hpending => hok ⟨heof, hpending⟩⟩
      intro hend hover
      rw [hup hend hover]
      rfl
  | send hchunk hdeliver =>
    obtain ⟨chunk, -, rfl⟩ := deliver_some hdeliver
    refine iff_of_true ⟨hup, ?_⟩ trivial
    intro _ hover
    cases hover
  | sendFailed hrefuse =>
    obtain ⟨chunk, htask, rfl⟩ := refuse_some hrefuse
    rw [dropHalf_eq]
    refine iff_of_true ⟨?_, ?_⟩ trivial
    · intro hend hover
      rw [hup hend hover]
      rfl
    · intro _ hover
      cases hover
      exact absurd rfl (h.sound.held [] htask)

theorem closing_start {session : Session} (h : Accepted id k session) :
    Closing id k (.start session) := by
  rw [(base_start h).closing_iff]
  refine ⟨?_, ?_⟩
  · intro _ hover
    cases hover
  · intro heof
    cases heof

end invariant

/-- **The relay of a data stream** is transparent and passes on every end-of-stream, in every state
    of a run, exactly if no read of the socket ever sees its end and the client's end is seen by the
    first task only after the second has returned. -/
theorem relayed_iff {id : UInt32} {k : Nat} {session : Session} (h : Accepted id k session)
    (ls : List Label) :
    (∀ x ∈ steps (step id k) (.start session) ls,
      Transparent id k x.2.2 ∧ Closing id k x.2.2) ↔
    ∀ x ∈ steps (step id k) (.start session) ls, Ok id x.1 x.2.1 := by
  have hkeep : ∀ s l s', Base id k s ∧ Closing id k s → Ok id s l → step id k s l = some s' →
      Base id k s' ∧ Closing id k s' := by
    rintro s l s' ⟨hb, hc⟩ hok hstep
    exact ⟨base_step hb hstep, (closing_step hb hc hstep).2 hok⟩
  have hiff : ∀ s l s', Base id k s ∧ Closing id k s → step id k s l = some s' →
      (Transparent id k s' ∧ Closing id k s' ↔ Ok id s l) := by
    rintro s l s' ⟨hb, hc⟩ hstep
    rw [← closing_step hb hc hstep]
    exact and_iff_right (base_step hb hstep).transparent
  exact forall_steps_iff hkeep hiff ls _ ⟨base_start h, closing_start h⟩

/-- The session once it has opened stream 1. -/
def opened : Session :=
  ⟨(handle ⟨true, true⟩ .new (.synStream 1 0 [])).1, true, []⟩

theorem opened_accepted : Accepted 1 0 opened := by
  refine ⟨rfl, ⟨rfl, ?_⟩, by decide, rfl⟩
  intro id h
  by_contra hne
  simp [opened, handle, Conn.setStream, Conn.emit, Conn.new, Function.update_of_ne hne] at h

/-- The client sends bytes, the peer answers and fails, and then the client ends the stream. -/
def answeredThenEnded : List Label :=
  [.frame (.data 1 0 [0x47, 0x45]) ⟨true, true⟩, .recv, .wrote 1, .wrote 1, .arrive [0x4f, 0x4b],
    .read 2, .send, .readFailed, .frame (.data 1 flagFin []) ⟨true, true⟩, .recvNone]

theorem answeredThenEnded_relayed :
    Accepted 1 0 opened ∧ (run (step 1 0) (.start opened) answeredThenEnded).isSome = true ∧
    ∀ x ∈ steps (step 1 0) (.start opened) answeredThenEnded,
      Transparent 1 0 x.2.2 ∧ Closing 1 0 x.2.2 := by
  refine ⟨opened_accepted, by decide, (relayed_iff opened_accepted answeredThenEnded).2 ?_⟩
  decide

/-- The peer closes its side, resp. the client ends the stream: the task that sees it returns, and
    neither a frame with FLAG_FIN nor a shutdown follows. -/
theorem ends_not_relayed :
    (∃ s, run (step 1 0) (.start opened) [.peerEof, .readEof] = some s ∧ ¬ Closing 1 0 s) ∧
    (∃ s, run (step 1 0) (.start opened)
      [.frame (.data 1 flagFin []) ⟨true, true⟩, .recvNone] = some s ∧ ¬ Closing 1 0 s) ∧
    ¬ ∀ (id : UInt32) (k : Nat) (session : Session), Accepted id k session → ∀ ls : List Label,
      ∀ x ∈ steps (step id k) (.start session) ls,
        Transparent id k x.2.2 ∧ Closing id k x.2.2 := by
  have heof : ∀ s, run (step 1 0) (.start opened) [.peerEof, .readEof] = some s →
      ¬ Closing 1 0 s := by
    intro s hs hc
    cases hs
    rcases hc.toClient rfl rfl with ⟨f, hf, -⟩ | hstep
    · cases hf
    · cases hstep
  refine ⟨⟨_, rfl, heof _ rfl⟩, ⟨_, rfl, ?_⟩, ?_⟩
  · intro hc
    have hend : ClientEnded 1 { St.start opened with handled := [.data 1 flagFin []] } := by
      decide
    rcases hc.toTcp hend rfl with hshut | hstep
    · cases hshut
    · cases hstep
  · intro h
    have hlast := h 1 0 opened opened_accepted [.peerEof, .readEof] _
      (List.mem_cons_of_mem _ List.mem_cons_self)
    exact heof _ rfl hlast.2

end ContainerdRs.Cri.Streaming.Relay
