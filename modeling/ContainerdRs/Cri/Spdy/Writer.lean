import ContainerdRs.Cri.Spdy.Streams
import ContainerdRs.Lib.FairLock
import ContainerdRs.Lib.Transition

/-!
# The write side of a SPDY connection (`SpdyWriter`)

The read loop and the tasks of a session have clones of one `SpdyWriter`.  A write waits for the
mutex, encodes its frame with the codec of the connection, hands the bytes to the connection in
pieces, flushes, and lets the mutex go.  A connection that has failed once takes no more bytes.

* `Reads` — what a reader makes of the bytes of complete frames, whatever comes behind them.
* `parseFrames_partial` — of a frame that is not complete it makes nothing.
* `carried_step` — every step keeps whole frames on the wire.
* `writer_serializes` — over every interleaving of any number of tasks the peer reads whole frames,
  in the order in which they were asked for.
-/

set_option autoImplicit false

namespace ContainerdRs.Cri.Spdy

open Transition FairLock

variable {D I : Type}

/-! ## The frames of the server -/

/-- `SpdyWriter::syn_reply`. -/
def synReply (id : UInt32) : Frame := .synReply id 0 []

/-- `SpdyWriter::rst`. -/
def rst (id status : UInt32) : Frame := .rstStream id status

/-- `SpdyWriter::goaway`. -/
def goaway (lastGoodStreamId : UInt32) : Frame := .goAway lastGoodStreamId 0

/-- `SETTINGS_INITIAL_WINDOW_SIZE`. -/
def settingsInitialWindowSize : UInt32 := 7

/-- `BIG_WINDOW`. -/
def bigWindow : UInt32 := 0x7fffffff

/-- `serve`, the frame that it writes before it starts the read loop. -/
def initialSettings : Frame := .settings [(settingsInitialWindowSize, bigWindow)]

namespace Writer

/-- A call of `SpdyWriter::write`. -/
structure Call where
  task : Nat
  frame : Frame
  deriving DecidableEq, Repr

/-- `WriterInner` behind its mutex, the connection, and what the calls have come to. -/
structure St (D I : Type) where
  nv : NvCodec D I
  inner : Lock Call
  /-- `write_all` of the holder: what is left of its buffer. -/
  left : Bytes
  /-- The bytes that the connection has taken. -/
  wire : Bytes
  /-- A write or a flush has failed. -/
  broken : Bool
  /-- The frames of which the connection has taken all bytes. -/
  log : List Call
  /-- The calls that have returned, with `is_ok`. -/
  returned : List (Call × Bool)
  /-- The buffers that `write_frame` has made. -/
  buffers : List Bytes

def St.start (nv : NvCodec D I) : St D I := ⟨nv, .new, [], [], false, [], [], []⟩

/-- Who moves. -/
inductive Label where
  /-- A task calls `write`; it waits for the end of one call before the next. -/
  | call (c : Call)
  /-- The first in the queue gets the mutex and encodes its frame. -/
  | lock
  /-- The connection takes `n` bytes of the holder's buffer. -/
  | wrote (n : Nat)
  /-- `flush` succeeds. -/
  | flushed
  /-- `write_all` or `flush` fails. -/
  | failed
  deriving DecidableEq, Repr

/-- The call of the holder returns. -/
def St.done (s : St D I) (c : Call) (ok : Bool) : St D I :=
  { s with inner := s.inner.release, returned := s.returned ++ [(c, ok)] }

/-- The connection has taken `n` bytes of the holder's buffer. -/
def St.took (s : St D I) (c : Call) (n : Nat) : St D I :=
  { s with
    wire := s.wire ++ s.left.take n
    left := s.left.drop n
    log := if n = s.left.length then s.log ++ [c] else s.log }

/-- One step. -/
def step (Z : Flate D I) (fuel : Nat) (s : St D I) : Label → Option (St D I)
  | .call c =>
    if s.inner.line.any (fun other => other.task == c.task) then none
    else some { s with inner := s.inner.request c }
  | .lock =>
    match s.inner.grant with
    | none => none
    | some (c, inner) =>
      match writeFrame Z fuel [] c.frame s.nv with
      | (.error _, nv) => some ({ s with nv := nv, inner := inner }.done c false)
      | (.ok buf, nv) =>
        some { s with nv := nv, inner := inner, left := buf, buffers := s.buffers ++ [buf] }
  | .wrote n =>
    match s.inner.holder with
    | none => none
    | some c =>
      if s.broken = false ∧ 0 < n ∧ n ≤ s.left.length then some (s.took c n) else none
  | .flushed =>
    match s.inner.holder with
    | none => none
    | some c => if s.broken = false ∧ s.left = [] then some (s.done c true) else none
  | .failed =>
    match s.inner.holder with
    | none => none
    | some c => some { s.done c false with broken := true }

/-- The calls of a schedule, in order. -/
def called (ls : List Label) : List Call :=
  ls.filterMap fun
    | .call c => some c
    | _ => none

/-- The bodies of all frames are shorter than `2^24`. -/
def St.Short (s : St D I) : Prop := ∀ buf ∈ s.buffers, buf.length < 8 + 2 ^ 24

/-- The peer gets whole frames. -/
structure Serialized (Z : Flate D I) (fuel : Nat) (nv : NvCodec D I) (calls : List Call)
    (s : St D I) : Prop where
  /-- It reads the frames of the log, and behind them at most a part of one more. -/
  parsed : ∃ part, (parseFrames Z fuel s.wire nv).1 = .ok (s.log.map Call.frame, part)
  /-- They come in the order of the calls, none left out and none twice. -/
  inOrder : s.log <+: calls
  /-- A call that has returned `Ok` has put its frame there. -/
  reported : ((s.returned.filter (·.2)).map (·.1)) <+: s.log
  /-- Once nobody is writing, and nothing has failed, all is there. -/
  complete : s.broken = false → s.inner.line = [] →
    s.log = calls ∧ (parseFrames Z fuel s.wire nv).1 = .ok (calls.map Call.frame, [])

/-! ## Complete frames on the wire -/

variable {Z : Flate D I} {fuel : Nat}

/-- A reader at `dec` takes `bytes` for `frames` and is at `dec'` then, whatever follows. -/
def Reads (Z : Flate D I) (fuel : Nat) (dec : NvCodec D I) (bytes : Bytes) (frames : List Frame)
    (dec' : NvCodec D I) : Prop :=
  ∀ rest more left dec'', parseFrames Z fuel rest dec' = (.ok (more, left), dec'') →
    parseFrames Z fuel (bytes ++ rest) dec = (.ok (frames ++ more, left), dec'')

theorem Reads.nil (dec : NvCodec D I) : Reads Z fuel dec [] [] dec :=
  fun _ _ _ _ h => h

theorem Reads.snoc {dec dec' dec'' : NvCodec D I} {bytes buf : Bytes} {frames : List Frame}
    {frame : Frame} (h : Reads Z fuel dec bytes frames dec')
    (hframe : ParsesTo Z fuel buf frame dec' dec'') (hshort : buf.length < 8 + 2 ^ 24) :
    Reads Z fuel dec (bytes ++ buf) (frames ++ [frame]) dec'' := by
  intro rest more left dec₃ hrest
  have hone := parseFrames_cons (hframe hshort rest) hrest
  have hall := h (buf ++ rest) (frame :: more) left dec₃ hone
  rwa [List.append_assoc, List.append_assoc]

/-- A part of a frame is left where it is. -/
theorem parseFrames_partial {dec dec' : NvCodec D I} {part missing : Bytes} {frame : Frame}
    (hframe : ParsesTo Z fuel (part ++ missing) frame dec dec')
    (hshort : (part ++ missing).length < 8 + 2 ^ 24) (hmissing : missing ≠ []) :
    parseFrames Z fuel part dec = (.ok ([], part), dec) := by
  have hwhole := hframe hshort []
  rw [List.append_nil] at hwhole
  have hnone : (parseFrame Z fuel part dec).1 = .ok none := by
    by_contra hdecided
    -- a decided front would end where the frame does, which is behind it
    have hsame := parseFrame_append hdecided missing
    rw [hwhole] at hsame
    have hconsumed := (parseFrame_consumed hsame.symm).2
    have hpos : 0 < missing.length := List.length_pos_iff.2 hmissing
    rw [List.length_append] at hconsumed
    omega
  cases hp : parseFrame Z fuel part dec with
  | mk r nv =>
    rw [hp] at hnone
    simp only at hnone
    subst hnone
    obtain rfl := parseFrame_incomplete hp
    rw [parseFrames]
    split <;> simp_all

theorem parseFrames_nil (dec : NvCodec D I) : parseFrames Z fuel [] dec = (.ok ([], []), dec) := by
  rw [parseFrames]
  rfl

/-- A frame has bytes. -/
theorem writeFrame_ne_nil {frame : Frame} {nv nv' : NvCodec D I} {buf : Bytes}
    (h : writeFrame Z fuel [] frame nv = (.ok buf, nv')) : buf ≠ [] := by
  rintro rfl
  have hnv : ∀ ftype flags lead headers,
      writeNv Z fuel [] ftype flags lead headers nv ≠ (.ok [], nv') := by
    intro ftype flags lead headers hw
    unfold writeNv at hw
    split at hw <;> simp [controlHeader] at hw
  cases frame with
  | synStream | synReply | headers => exact hnv _ _ _ _ h
  | rstStream | settings | ping | goAway | windowUpdate =>
    simp [writeFrame, controlHeader] at h
  | data => simp [writeFrame, wrU32, BigEndian.toBytes] at h

/-! ## One step -/

variable {Sync : Bool → D → I → Bytes → Bytes → Prop} {Ready Flushed : D → Prop}
  {nv₀ : NvCodec D I} {s s' : St D I}

/-- Where the wire stands with the holder: at the end of a frame, or inside the holder's. -/
inductive Between (Z : Flate D I) (fuel : Nat) (s : St D I) (taken : Bytes)
    (dec dec' : NvCodec D I) : Prop
  | whole (htaken : taken = []) (hdec : dec' = dec) (hidle : s.inner.holder = none ∨ s.left = [])
  | inside (c : Call) (hholder : s.inner.holder = some c) (hleft : s.left ≠ [])
      (hparses : ParsesTo Z fuel (taken ++ s.left) c.frame dec dec')
      (hshort : (taken ++ s.left).length < 8 + 2 ^ 24)

/-- The wire holds the frames of the log and a part of the holder's; behind the latter a reader is
    at `dec'`. -/
def Synced (Z : Flate D I) (fuel : Nat) (nv₀ : NvCodec D I) (s : St D I) (dec' : NvCodec D I) :
    Prop :=
  ∃ dec bytes taken, Reads Z fuel nv₀ bytes (s.log.map Call.frame) dec ∧
    s.wire = bytes ++ taken ∧ Between Z fuel s taken dec dec'

/-- The wire holds the frames of the log and a part of a frame. -/
def Carried (Z : Flate D I) (fuel : Nat) (nv₀ : NvCodec D I) (s : St D I) : Prop :=
  ∃ dec bytes part, Reads Z fuel nv₀ bytes (s.log.map Call.frame) dec ∧
    s.wire = bytes ++ part ∧ parseFrames Z fuel part dec = (.ok ([], part), dec)

/-- Everything is in step: nothing has failed. -/
structure Going (Sync : Bool → D → I → Bytes → Bytes → Prop) (Ready : D → Prop) (Z : Flate D I)
    (fuel : Nat) (nv₀ : NvCodec D I) (s : St D I) : Prop where
  log : s.log = s.returned.map (·.1) ++ (if s.left = [] then s.inner.holder.toList else [])
  succeeded : ∀ x ∈ s.returned, x.2 = true
  paired : ∃ dec', Paired Sync Ready s.nv dec' ∧ (s.Short → Synced Z fuel nv₀ s dec')

/-- What every step keeps. -/
structure Writing (Sync : Bool → D → I → Bytes → Bytes → Prop) (Ready : D → Prop) (Z : Flate D I)
    (fuel : Nat) (nv₀ : NvCodec D I) (s : St D I) : Prop where
  fits : ∀ c ∈ s.inner.line, c.frame.Fits ∧ c.frame.loopFuel ≤ fuel
  inOrder : s.log <+: s.returned.map (·.1) ++ s.inner.holder.toList
  reported : ((s.returned.filter (·.2)).map (·.1)) <+: s.log
  carried : s.Short → Carried Z fuel nv₀ s
  going : s.broken = false → Going Sync Ready Z fuel nv₀ s

theorem Synced.carried {dec' : NvCodec D I} (h : Synced Z fuel nv₀ s dec') :
    Carried Z fuel nv₀ s := by
  obtain ⟨dec, bytes, taken, hreads, hwire, hbetween⟩ := h
  refine ⟨dec, bytes, taken, hreads, hwire, ?_⟩
  cases hbetween with
  | whole htaken _ _ =>
    rw [htaken]
    exact parseFrames_nil dec
  | inside c _ hleft hparses hshort => exact parseFrames_partial hparses hshort hleft

/-- What all have succeeded in returning. -/
theorem Going.filter (h : Going Sync Ready Z fuel nv₀ s) :
    s.returned.filter (·.2) = s.returned :=
  List.filter_eq_self.2 h.succeeded

/-- While nobody holds the mutex, the wire is at the end of a frame. -/
theorem Synced.whole {dec' : NvCodec D I} (h : Synced Z fuel nv₀ s dec')
    (hidle : s.inner.holder = none ∨ s.left = []) :
    Reads Z fuel nv₀ s.wire (s.log.map Call.frame) dec' := by
  obtain ⟨dec, bytes, taken, hreads, hwire, hbetween⟩ := h
  cases hbetween with
  | whole htaken hdec _ =>
    rw [hwire, htaken, List.append_nil, hdec]
    exact hreads
  | inside c hholder hleft _ _ =>
    rcases hidle with hnone | hnil
    · rw [hnone] at hholder
      cases hholder
    · exact absurd hnil hleft

theorem writing_start (hp : Paired Sync Ready nv₀ nv₀) :
    Writing Sync Ready Z fuel nv₀ (.start nv₀) := by
  have hsynced : Synced Z fuel nv₀ (.start nv₀) nv₀ :=
    ⟨nv₀, [], [], Reads.nil nv₀, rfl, .whole rfl rfl (.inl rfl)⟩
  refine ⟨by simp [St.start], List.prefix_refl _, List.prefix_refl _, fun _ => hsynced.carried,
    fun _ => ⟨rfl, by simp [St.start], nv₀, hp, fun _ => hsynced⟩⟩

/-- A call queues up. -/
theorem Writing.call (h : Writing Sync Ready Z fuel nv₀ s) {c : Call} (hfits : c.frame.Fits)
    (hfuel : c.frame.loopFuel ≤ fuel) :
    Writing Sync Ready Z fuel nv₀ { s with inner := s.inner.request c } := by
  refine ⟨?_, h.inOrder, h.reported, h.carried, fun hb => ?_⟩
  · intro other hmem
    rw [line_request, List.mem_append, List.mem_singleton] at hmem
    rcases hmem with hmem | rfl
    · exact h.fits other hmem
    · exact ⟨hfits, hfuel⟩
  · obtain ⟨hlog, hok, dec', hp, hsync⟩ := h.going hb
    refine ⟨hlog, hok, dec', hp, fun hshort => ?_⟩
    obtain ⟨dec, bytes, taken, hreads, hwire, hbetween⟩ := hsync hshort
    refine ⟨dec, bytes, taken, hreads, hwire, ?_⟩
    cases hbetween with
    | whole htaken hdec hidle => exact .whole htaken hdec hidle
    | inside c' hholder hleft hparses hlen => exact .inside c' hholder hleft hparses hlen

/-- The holder's call returns with an error: the wire stays as it is from here on. -/
theorem Writing.fail (h : Writing Sync Ready Z fuel nv₀ s) {c : Call}
    (hholder : s.inner.holder = some c) :
    Writing Sync Ready Z fuel nv₀ { s.done c false with broken := true } := by
  refine ⟨?_, ?_, ?_, h.carried, fun hb => by cases hb⟩
  · intro other hmem
    apply h.fits other
    rw [line_release hholder]
    exact List.mem_cons_of_mem _ hmem
  · have := h.inOrder
    rw [hholder] at this
    simpa [St.done, Lock.release] using this
  · simpa [St.done] using h.reported

/-- The first in the queue encodes its frame. -/
theorem Writing.lock (hZ : Z.Lawful Sync Ready Flushed) (h : Writing Sync Ready Z fuel nv₀ s)
    {c : Call} {inner : Lock Call} (hgrant : s.inner.grant = some (c, inner))
    (hstep : step Z fuel s .lock = some s') : Writing Sync Ready Z fuel nv₀ s' := by
  obtain ⟨hfree, hqueue, hholder⟩ := grant_some hgrant
  have hline := line_grant hgrant
  have hmem : c ∈ s.inner.line := by
    rw [Lock.line, hqueue]
    exact List.mem_append_right _ List.mem_cons_self
  obtain ⟨hfits, hfuel⟩ := h.fits c hmem
  have hprefix := h.inOrder
  rw [hfree, Option.toList_none, List.append_nil] at hprefix
  simp only [step, hgrant] at hstep
  cases hwrite : writeFrame Z fuel [] c.frame s.nv with
  | mk r nv =>
    rw [hwrite] at hstep
    cases r with
    | error e =>
      -- only behind a failure
      have hb : s.broken ≠ false := by
        intro hb
        obtain ⟨-, -, dec', hp, -⟩ := h.going hb
        obtain ⟨buf, enc', dec'', hok, -⟩ := frame_roundtrip hZ c.frame hfits hfuel hp
        rw [hwrite] at hok
        cases hok
      cases hstep
      refine ⟨?_, ?_, ?_, h.carried, fun hb' => absurd hb' hb⟩
      · intro other hmem
        apply h.fits other
        rw [← hline, line_release hholder]
        exact List.mem_cons_of_mem _ hmem
      · simpa [St.done, Lock.release] using hprefix.trans (List.prefix_append _ _)
      · simpa [St.done] using h.reported
    | ok buf =>
      cases hstep
      have hshorter : St.Short { s with
          nv := nv, inner := inner, left := buf, buffers := s.buffers ++ [buf] } → s.Short :=
        fun hshort b hb => hshort b (List.mem_append_left _ hb)
      have hne := writeFrame_ne_nil hwrite
      refine ⟨fun other hother => h.fits other (hline ▸ hother), ?_, h.reported,
        fun hs => h.carried (hshorter hs), fun hb => ?_⟩
      · simpa [hholder] using hprefix.trans (List.prefix_append _ _)
      · obtain ⟨hlog, hok, dec', hp, hsync⟩ := h.going hb
        obtain ⟨buf', enc', dec'', hok', hp', hparses⟩ :=
          frame_roundtrip hZ c.frame hfits hfuel hp
        rw [hwrite] at hok'
        cases hok'
        refine ⟨?_, hok, dec'', hp', fun hshort => ?_⟩
        · simpa [hfree, hne] using hlog
        · have hreads := (hsync (hshorter hshort)).whole (.inl hfree)
          exact ⟨dec', s.wire, [], hreads, (List.append_nil _).symm,
            .inside c hholder hne hparses (hshort buf (by simp))⟩

/-- The connection takes a part of the holder's buffer. -/
theorem Writing.wrote (h : Writing Sync Ready Z fuel nv₀ s) {c : Call} {n : Nat}
    (hholder : s.inner.holder = some c) (hb : s.broken = false) (hpos : 0 < n)
    (hn : n ≤ s.left.length) :
    Writing Sync Ready Z fuel nv₀ (s.took c n) := by
  obtain ⟨hlog, hok, dec', hp, hsync⟩ := h.going hb
  have hleft : s.left ≠ [] := by
    intro hnil
    rw [hnil, List.length_nil] at hn
    omega
  rw [if_neg hleft, List.append_nil] at hlog
  have hfilter := (h.going hb).filter
  have hdrop : s.left.drop n = [] ↔ n = s.left.length := by
    rw [List.drop_eq_nil_iff]
    omega
  have hsync' : s.Short → Synced Z fuel nv₀ (s.took c n) dec' := by
    intro hshort
    obtain ⟨dec, bytes, taken, hreads, hwire, hbetween⟩ := hsync hshort
    cases hbetween with
    | whole _ _ hidle =>
      rcases hidle with hnone | hnil
      · rw [hnone] at hholder
        cases hholder
      · exact absurd hnil hleft
    | inside c' hholder' _ hparses hlen =>
      rw [hholder, Option.some.injEq] at hholder'
      subst hholder'
      by_cases hall : n = s.left.length
      · subst hall
        refine ⟨dec', bytes ++ (taken ++ s.left), [], ?_, ?_, .whole rfl rfl (.inr ?_)⟩
        · simpa [St.took] using hreads.snoc hparses hlen
        · simp [St.took, hwire]
        · simp [St.took]
      · refine ⟨dec, bytes, taken ++ s.left.take n, ?_, ?_, .inside c hholder ?_ ?_ ?_⟩
        · simpa [St.took, hall] using hreads
        · simp [St.took, hwire]
        · rwa [Ne, St.took, hdrop]
        · simpa [St.took] using hparses
        · simpa [St.took] using hlen
  refine ⟨h.fits, ?_, ?_, fun hs => (hsync' hs).carried, fun _ => ⟨?_, hok, dec', hp, hsync'⟩⟩
  · simp only [St.took]
    split_ifs with hall
    · simp [hholder, hlog]
    · exact h.inOrder
  · simp only [St.took, hfilter]
    split_ifs with hall
    · exact hlog ▸ List.prefix_append _ _
    · exact hlog ▸ List.prefix_refl _
  · by_cases hall : n = s.left.length
    · simp [St.took, hall, hholder, hlog]
    · simp [St.took, hall, hdrop, hlog]

/-- The flush is done, and the call returns. -/
theorem Writing.flushed (h : Writing Sync Ready Z fuel nv₀ s) {c : Call}
    (hholder : s.inner.holder = some c) (hb : s.broken = false) (hleft : s.left = []) :
    Writing Sync Ready Z fuel nv₀ (s.done c true) := by
  obtain ⟨hlog, hok, dec', hp, hsync⟩ := h.going hb
  rw [if_pos hleft, hholder, Option.toList_some] at hlog
  have hok' : ∀ x ∈ (s.done c true).returned, x.2 = true := by
    intro x hx
    rcases List.mem_append.1 hx with hx | hx
    · exact hok x hx
    · rw [List.mem_singleton.1 hx]
  have hreturned : (s.done c true).returned.map (·.1) = s.log := by
    simp [St.done, hlog]
  have hsync' : (s.done c true).Short → Synced Z fuel nv₀ (s.done c true) dec' := fun hshort =>
    ⟨dec', s.wire, [], (hsync hshort).whole (.inr hleft), (List.append_nil _).symm,
      .whole rfl rfl (.inl rfl)⟩
  refine ⟨?_, ?_, ?_, fun hs => (hsync' hs).carried, fun _ => ⟨?_, hok', dec', hp, hsync'⟩⟩
  · intro other hmem
    apply h.fits other
    rw [line_release hholder]
    exact List.mem_cons_of_mem _ hmem
  · rw [hreturned]
    exact List.prefix_append _ _
  · rw [List.filter_eq_self.2 hok', hreturned]
    exact List.prefix_refl _
  · have hfree : (s.done c true).inner.holder = none := rfl
    rw [hreturned, hfree, Option.toList_none, ite_self, List.append_nil]
    rfl

/-- **Every step keeps whole frames on the wire.** -/
theorem carried_step (hZ : Z.Lawful Sync Ready Flushed) {label : Label}
    (h : Writing Sync Ready Z fuel nv₀ s)
    (hlabel : ∀ c, label = .call c → c.frame.Fits ∧ c.frame.loopFuel ≤ fuel)
    (hstep : step Z fuel s label = some s') : Writing Sync Ready Z fuel nv₀ s' := by
  cases label with
  | call c =>
    obtain ⟨hfits, hfuel⟩ := hlabel c rfl
    simp only [step] at hstep
    split_ifs at hstep
    cases hstep
    exact h.call hfits hfuel
  | lock =>
    cases hgrant : s.inner.grant with
    | none => simp [step, hgrant] at hstep
    | some x => exact h.lock hZ hgrant hstep
  | wrote n =>
    simp only [step] at hstep
    split at hstep
    · cases hstep
    · rename_i c hholder
      split_ifs at hstep with hn
      cases hstep
      exact h.wrote hholder hn.1 hn.2.1 hn.2.2
  | flushed =>
    simp only [step] at hstep
    split at hstep
    · cases hstep
    · rename_i c hholder
      split_ifs at hstep with hleft
      cases hstep
      exact h.flushed hholder hleft.1 hleft.2
  | failed =>
    simp only [step] at hstep
    split at hstep
    · cases hstep
    · rename_i c hholder
      cases hstep
      exact h.fail hholder

/-! ## Runs -/

/-- The calls that have returned or stand at the mutex, in the order in which they came. -/
def St.came (s : St D I) : List Call := s.returned.map (·.1) ++ s.inner.line

theorem came_step {label : Label} (hstep : step Z fuel s label = some s') :
    s'.came = s.came ++ called [label] := by
  cases label with
  | call c =>
    simp only [step] at hstep
    split_ifs at hstep
    cases hstep
    simp [St.came, line_request, called]
  | lock =>
    simp only [step] at hstep
    split at hstep
    · cases hstep
    · rename_i c inner hgrant
      have hline := line_grant hgrant
      split at hstep
      · cases hstep
        rw [line_release (grant_some hgrant).2.2] at hline
        simp [St.came, St.done, called, ← hline]
      · cases hstep
        simp [St.came, called, hline]
  | wrote n =>
    simp only [step] at hstep
    split at hstep
    · cases hstep
    · split_ifs at hstep
      cases hstep
      simp [St.came, St.took, called]
  | flushed =>
    simp only [step] at hstep
    split at hstep
    · cases hstep
    · rename_i c hholder
      split_ifs at hstep
      cases hstep
      simp [St.came, St.done, called, line_release hholder]
  | failed =>
    simp only [step] at hstep
    split at hstep
    · cases hstep
    · rename_i c hholder
      cases hstep
      simp [St.came, St.done, called, line_release hholder]

theorem came_run : ∀ {ls : List Label} {s s' : St D I}, run (step Z fuel) s ls = some s' →
    s'.came = s.came ++ called ls
  | [], s, s', hrun => by
    simp only [run, Option.some.injEq] at hrun
    simp [hrun, called]
  | label :: ls, s, s', hrun => by
    obtain ⟨t, hstep, hrest⟩ := run_cons_some hrun
    have happend : called (label :: ls) = called [label] ++ called ls :=
      @List.filterMap_append _ _ [label] ls _
    rw [came_run hrest, came_step hstep, happend, List.append_assoc]

theorem Writing.serialized {ls : List Label} (h : Writing Sync Ready Z fuel nv₀ s)
    (hrun : run (step Z fuel) (.start nv₀) ls = some s) (hshort : s.Short) :
    Serialized Z fuel nv₀ (called ls) s := by
  have hcame : s.returned.map (·.1) ++ s.inner.line = called ls := by
    have := came_run hrun
    simpa [St.came, St.start] using this
  refine ⟨?_, ?_, h.reported, fun hb hline => ?_⟩
  · obtain ⟨dec, bytes, part, hreads, hwire, hpart⟩ := h.carried hshort
    refine ⟨part, ?_⟩
    rw [hwire, hreads part [] part dec hpart, List.append_nil]
  · rw [← hcame, Lock.line, ← List.append_assoc]
    exact h.inOrder.trans (List.prefix_append _ _)
  · obtain ⟨hlog, hok, dec', hp, hsync⟩ := h.going hb
    have hfree : s.inner.holder = none := by
      rw [Lock.line, List.append_eq_nil_iff] at hline
      simpa using hline.1
    have hlog' : s.log = called ls := by
      rw [← hcame, hline, hlog, hfree]
      simp
    have hparse := (hsync hshort).whole (.inl hfree) [] [] [] dec' (parseFrames_nil dec')
    rw [List.append_nil, List.append_nil, hlog'] at hparse
    exact ⟨hlog', by rw [hparse]⟩

/-- **Frames are never torn apart.**  Any number of tasks write frames that fit the wire through
    clones of one writer, the connection takes the bytes in any pieces, and a write or flush may
    fail; then, as long as every body is shorter than `2^24`, the peer reads whole frames, first
    come first served. -/
theorem writer_serializes (hZ : Z.Lawful Sync Ready Flushed) (ls : List Label)
    (hfits : ∀ c ∈ called ls, c.frame.Fits) :
    ∃ nv fuel₀, NvCodec.new Z = .ok nv ∧ ∀ fuel, fuel₀ ≤ fuel → ∀ s,
      run (step Z fuel) (.start nv) ls = some s → s.Short →
        Serialized Z fuel nv (called ls) s := by
  obtain ⟨nv, hnew, hp⟩ := new_paired hZ
  refine ⟨nv, ((called ls).map fun c => c.frame.loopFuel).sum, hnew, ?_⟩
  intro fuel hfuel s hrun hshort
  have hloop : ∀ c ∈ called ls, c.frame.loopFuel ≤ fuel := fun c hc =>
    le_trans (List.single_le_sum (by simp) _ (List.mem_map.2 ⟨c, hc, rfl⟩)) hfuel
  have hkeep : ∀ (s : St D I) (label : Label) (s' : St D I), Writing Sync Ready Z fuel nv s →
      (∀ c, label = .call c → c.frame.Fits ∧ c.frame.loopFuel ≤ fuel) →
      step Z fuel s label = some s' → Writing Sync Ready Z fuel nv s' :=
    fun s label s' hs hlabel hstep => carried_step hZ hs hlabel hstep
  refine Writing.serialized (run_invariant hkeep ls _ s (writing_start hp) ?_ hrun) hrun hshort
  rintro x hx c hc
  have hmem : c ∈ called ls :=
    List.mem_filterMap.2 ⟨x.2.1, label_mem_of_mem_steps ls _ x hx, by rw [hc]⟩
  exact ⟨hfits c hmem, hloop c hmem⟩

/-- The settings, then data of two tasks: the second has to wait, and its frame is on the way. -/
def twoTasks : List Label :=
  [.call ⟨0, initialSettings⟩, .lock, .wrote 20, .flushed, .call ⟨1, sendData 3 false [104, 105]⟩,
    .lock, .wrote 3, .call ⟨2, sendData 5 true [33]⟩, .wrote 7, .flushed, .lock, .wrote 4]

theorem twoTasks_serialized : ∃ nv fuel₀, NvCodec.new storedFlate = .ok nv ∧
    ∀ fuel, fuel₀ ≤ fuel → ∃ s, run (step storedFlate fuel) (.start nv) twoTasks = some s ∧
      s.log.map Call.task = [0, 1] ∧ Serialized storedFlate fuel nv (called twoTasks) s := by
  have hfits : ∀ c ∈ called twoTasks, c.frame.Fits := by
    simp [called, twoTasks, initialSettings, sendData, Frame.Fits, settingsInitialWindowSize]
  obtain ⟨nv, fuel₀, hnew, h⟩ := writer_serializes storedFlate_lawful twoTasks hfits
  refine ⟨nv, fuel₀, hnew, fun fuel hfuel => ?_⟩
  obtain ⟨s, hs, hlog, hlengths⟩ :
      ∃ s, run (step storedFlate fuel) (.start nv) twoTasks = some s ∧
        s.log.map Call.task = [0, 1] ∧ s.buffers.map List.length = [20, 10, 9] :=
    ⟨_, rfl, rfl, rfl⟩
  have hshort : s.Short := by
    intro buf hbuf
    have hmem : buf.length ∈ s.buffers.map List.length := List.mem_map_of_mem hbuf
    rw [hlengths] at hmem
    simp only [List.mem_cons, List.not_mem_nil, or_false] at hmem
    omega
  exact ⟨s, hs, hlog, h fuel hfuel s hs hshort⟩

end Writer

end ContainerdRs.Cri.Spdy
