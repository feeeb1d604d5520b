import Mathlib
import ContainerdRs.Cri.Spdy.Roundtrip
import ContainerdRs.Lib.Incremental

/-!
# The SPDY read loop (`read_loop`)

The loop reads from the connection, parses the frames that are complete and handles them: a
stream that opens gets a reply, a channel and a place in the queue of `accept`, data goes to the
channel of its stream, a ping is answered.  A channel is closed when its sender leaves the map
`streams`.

`Answers` says, frame by frame, whether a write to the peer succeeds and whether `accept` is
still served.  `trace` records what the loop does, in order.

* `parseFrame_append`, `parseFrame_incomplete` — a frame is decided by its own bytes, and the
  codec is used only once they are all there.
* `readLoop_chunking` — how the stream is cut into reads makes no difference.
-/

set_option autoImplicit false

namespace ContainerdRs.Cri.Spdy

open BigEndian

/-- `FLAG_FIN`. -/
def flagFin : UInt8 := 0x01

/-- `flags & FLAG_FIN != 0`. -/
def isFin (flags : UInt8) : Bool := flags &&& flagFin != 0

/-- What the loop does, as its peers see it.  Channels are numbered in the order they are made. -/
inductive Event where
  /-- A frame written to the connection. -/
  | wrote (frame : Frame)
  /-- A `SpdyStream` put into the queue of `accept`. -/
  | offered (channel : Nat) (id : UInt32) (headers : Headers)
  /-- A payload sent into a channel. -/
  | sent (channel : Nat) (payload : Bytes)
  deriving DecidableEq, Repr

/-- The connection: the senders of the open streams, the channels made so far, the trace. -/
structure Conn where
  streams : UInt32 → Option Nat
  channels : Nat
  trace : List Event

/-- The connection before the first frame. -/
def Conn.new : Conn := ⟨fun _ => none, 0, []⟩

/-- `streams.insert` and `streams.remove`. -/
def Conn.setStream (c : Conn) (id : UInt32) (sender : Option Nat) : Conn :=
  { c with streams := Function.update c.streams id sender }

/-- The return of `read_loop` drops every sender. -/
def Conn.close (c : Conn) : Conn := { c with streams := fun _ => none }

/-- One more event. -/
def Conn.emit (c : Conn) (e : Event) : Conn := { c with trace := c.trace ++ [e] }

/-- The environment's part in handling one frame. -/
structure Answers where
  /-- The write to the peer succeeds. -/
  writeOk : Bool
  /-- `incoming.send` succeeds: the queue of `accept` still has its receiver. -/
  acceptOk : Bool
  deriving DecidableEq, Repr

/-- `read_loop`, what it does with a frame; `false` when it returns. -/
def handle (a : Answers) (c : Conn) : Frame → Conn × Bool
  | .synStream id _ headers =>
    if a.writeOk = false then (c.close, false)
    else
      let k := c.channels
      let c1 := { (c.emit (.wrote (.synReply id 0 []))).setStream id (some k) with
        channels := k + 1 }
      if a.acceptOk then (c1.emit (.offered k id headers), true) else (c1.close, false)
  | .data id flags payload =>
    let c1 :=
      if payload = [] then c
      else
        match c.streams id with
        | some k => c.emit (.sent k payload)
        | none => c
    (if isFin flags then c1.setStream id none else c1, true)
  -- the result of the write is ignored
  | .ping id => (if a.writeOk then c.emit (.wrote (.ping id)) else c, true)
  | .rstStream id _ => (c.setStream id none, true)
  | .goAway _ _ => (c.close, false)
  -- settings, window updates, headers and replies are ignored
  | _ => (c, true)

/-- How the loop ends: the stream of reads does, `parse_frame` fails, or a handler returns. -/
inductive Stop where
  | failed (e : Fail)
  | returned
  deriving DecidableEq, Repr

variable {D I : Type}

/-- The locals of the loop, without the buffer; `dispatched` lists the frames handled so far,
    each with the codec after it. -/
structure Loop (D I : Type) where
  nv : NvCodec D I
  conn : Conn
  dispatched : List (Frame × NvCodec D I)

/-- `read_loop`, one round of the inner loop. -/
def iteration (Z : Flate D I) (fuel : Nat) (env : Nat → Answers) (l : Loop D I) (buf : Bytes) :
    Incremental.Answer (Loop D I) Stop :=
  match parseFrame Z fuel buf l.nv with
  | (.error e, nv) => .stop (.failed e) 0 { l with nv := nv }
  | (.ok none, nv) => .more { l with nv := nv }
  | (.ok (some (frame, n)), nv) =>
    let (conn, goOn) := handle (env l.dispatched.length) l.conn frame
    let l1 := { nv := nv, conn := conn, dispatched := l.dispatched ++ [(frame, nv)] }
    if goOn then .next n l1 else .stop .returned n l1

/-! ## A frame is decided by its own bytes -/

theorem parseFrame_incomplete {Z : Flate D I} {fuel : Nat} {buf : Bytes} {nv nv' : NvCodec D I}
    (h : parseFrame Z fuel buf nv = (.ok none, nv')) : nv' = nv := by
  unfold parseFrame at h
  split at h
  · dsimp only at h
    split_ifs at h with hlen hdata
    · exact (Prod.mk.inj h).2.symm
    · simp at h
    · split at h <;> simp at h
  · exact (Prod.mk.inj h).2.symm

/-- Bytes behind a complete frame do not matter. -/
theorem parseFrame_append {Z : Flate D I} {fuel : Nat} {buf : Bytes} {nv : NvCodec D I}
    (h : (parseFrame Z fuel buf nv).1 ≠ .ok none) (rest : Bytes) :
    parseFrame Z fuel (buf ++ rest) nv = parseFrame Z fuel buf nv := by
  unfold parseFrame at h ⊢
  split at h
  · rename_i b0 b1 b2 b3 flags l0 l1 l2 body
    dsimp only [List.cons_append] at h ⊢
    by_cases hlen : body.length < rdU24 l0 l1 l2
    · simp [hlen] at h
    · have hlen' : ¬ (body ++ rest).length < rdU24 l0 l1 l2 := by
        rw [List.length_append]
        omega
      have htake : (body ++ rest).take (rdU24 l0 l1 l2) = body.take (rdU24 l0 l1 l2) :=
        List.take_append_of_le_length (by omega)
      simp only [hlen, hlen', htake, if_false]
  · simp at h

/-- The inner loop as a machine on the buffer. -/
def readMachine (Z : Flate D I) (fuel : Nat) (env : Nat → Answers) :
    Incremental.Machine (Loop D I) UInt8 Stop where
  look := iteration Z fuel env
  idle := by
    intro l l' buf h
    unfold iteration at h
    split at h
    · cases h
    · rename_i nv hp
      obtain rfl := parseFrame_incomplete hp
      cases h
      rfl
    · dsimp only at h
      split at h <;> cases h
  progress := by
    intro l l' buf n h
    unfold iteration at h
    split at h
    · cases h
    · cases h
    · rename_i frame m nv hp
      have hm := parseFrame_consumed hp
      dsimp only at h
      split at h
      · cases h
        omega
      · cases h
  stable := by
    intro l buf h rest
    have hp : (parseFrame Z fuel buf l.nv).1 ≠ .ok none := by
      intro hn
      unfold iteration at h
      rcases hpf : parseFrame Z fuel buf l.nv with ⟨r, nv⟩
      rw [hpf] at hn h
      subst hn
      exact h _ rfl
    unfold iteration
    rw [parseFrame_append hp]

/-- What one `rd.read` returns into the 16 KiB buffer when the stream has not ended. -/
structure Chunk where
  bytes : Bytes
  nonempty : bytes ≠ []
  fits : bytes.length ≤ 16 * 1024

/-- `read_loop` on the reads of a connection, the last of which is followed by its end (or an
    error of `read`).  The codec is `NvCodec::new()`. -/
def readLoop (Z : Flate D I) (fuel : Nat) (env : Nat → Answers) (reads : List Chunk) :
    Except Fail (Incremental.Outcome (Loop D I) Stop) :=
  match NvCodec.new Z with
  | .error e => .error e
  | .ok nv =>
    .ok (Incremental.feed (readMachine Z fuel env) ⟨nv, .new, []⟩ [] (reads.map Chunk.bytes))

/-- **Independence of read chunking.**  Two ways to cut the same bytes into reads give the same
    run: the frames dispatched with the codec after each, the connection, the number of bytes
    taken, and how the loop ends.  A frame that is complete is the same with any bytes behind
    it, and an incomplete one leaves the codec alone. -/
theorem readLoop_chunking (Z : Flate D I) (fuel : Nat) (env : Nat → Answers)
    {reads reads' : List Chunk} (h : reads.flatMap Chunk.bytes = reads'.flatMap Chunk.bytes) :
    readLoop Z fuel env reads = readLoop Z fuel env reads' ∧
    (∀ (buf rest : Bytes) (nv nv' : NvCodec D I) (frame : Frame) (n : Nat),
      parseFrame Z fuel buf nv = (.ok (some (frame, n)), nv') →
        parseFrame Z fuel (buf ++ rest) nv = (.ok (some (frame, n)), nv')) ∧
    ∀ (buf : Bytes) (nv nv' : NvCodec D I), parseFrame Z fuel buf nv = (.ok none, nv') →
      nv' = nv := by
  refine ⟨?_, fun buf rest nv nv' frame n hp => ?_, fun buf nv nv' hp => ?_⟩
  · unfold readLoop
    cases NvCodec.new Z with
    | error e => rfl
    | ok nv =>
      simp only [Incremental.feed_eq_drain, ← List.flatMap_def, h]
  · rw [parseFrame_append (by rw [hp]; simp), hp]
  · exact parseFrame_incomplete hp

/-- A PING with id 42, whole and cut inside its head. -/
def pingWhole : Chunk := ⟨[0x80, 3, 0, 6, 0, 0, 0, 4, 0, 0, 0, 42], by decide, by decide⟩

def pingHead : Chunk := ⟨[0x80, 3, 0, 6, 0], by decide, by decide⟩

def pingTail : Chunk := ⟨[0, 0, 4, 0, 0, 0, 42], by decide, by decide⟩

theorem split_ping_same :
    [pingHead, pingTail].flatMap Chunk.bytes = [pingWhole].flatMap Chunk.bytes ∧
    readLoop storedFlate 1 (fun _ => ⟨true, true⟩) [pingHead, pingTail] =
      readLoop storedFlate 1 (fun _ => ⟨true, true⟩) [pingWhole] := by
  have hbytes : [pingHead, pingTail].flatMap Chunk.bytes = [pingWhole].flatMap Chunk.bytes := rfl
  exact ⟨hbytes, (readLoop_chunking storedFlate 1 _ hbytes).1⟩

end ContainerdRs.Cri.Spdy
