import ContainerdRs.Cri.Spdy.NvCodec

/-!
# SPDY frames (`parse_frame`, `write_frame`)

Every frame has an eight-byte head: a stream id, flags and a length for data, and a version, a
type, flags and a length for a control frame.  The header-bearing frames put their headers
through the codec of the connection.
-/

set_option autoImplicit false

namespace ContainerdRs.Cri.Spdy

open BigEndian

/-- `Frame`. -/
inductive Frame where
  | synStream (streamId : UInt32) (flags : UInt8) (headers : Headers)
  | synReply (streamId : UInt32) (flags : UInt8) (headers : Headers)
  | rstStream (streamId status : UInt32)
  | settings (entries : List (UInt32 × UInt32))
  | ping (id : UInt32)
  | goAway (lastGoodStreamId status : UInt32)
  | headers (streamId : UInt32) (flags : UInt8) (headers : Headers)
  | windowUpdate (streamId delta : UInt32)
  | data (streamId : UInt32) (flags : UInt8) (payload : Bytes)
  deriving DecidableEq, Repr

/-- `TYPE_SYN_STREAM`. -/
@[match_pattern] abbrev typeSynStream : UInt16 := 1
/-- `TYPE_SYN_REPLY`. -/
@[match_pattern] abbrev typeSynReply : UInt16 := 2
/-- `TYPE_RST_STREAM`. -/
@[match_pattern] abbrev typeRstStream : UInt16 := 3
/-- `TYPE_SETTINGS`. -/
@[match_pattern] abbrev typeSettings : UInt16 := 4
/-- `TYPE_PING`. -/
@[match_pattern] abbrev typePing : UInt16 := 6
/-- `TYPE_GOAWAY`. -/
@[match_pattern] abbrev typeGoAway : UInt16 := 7
/-- `TYPE_HEADERS`. -/
@[match_pattern] abbrev typeHeaders : UInt16 := 8
/-- `TYPE_WINDOW_UPDATE`. -/
@[match_pattern] abbrev typeWindowUpdate : UInt16 := 9

/-- `SPDY_VERSION`. -/
abbrev spdyVersion : UInt16 := 3

/-- `x & 0x7fff_ffff`. -/
def low31 (x : UInt32) : UInt32 := x &&& 0x7fffffff

variable {D I : Type}

/-! ## Reading -/

/-- `parse_frame`, the loop over the entries of SETTINGS: `n` entries, fewer when the body ends. -/
def settingsEntries : Nat → Bytes → List (UInt32 × UInt32)
  | 0, _ => []
  | n + 1, _ :: i0 :: i1 :: i2 :: v0 :: v1 :: v2 :: v3 :: rest =>
    (UInt32.ofNat (rdU24 i0 i1 i2), UInt32.ofNat (ofBytes [v0, v1, v2, v3])) ::
      settingsEntries n rest
  | _ + 1, _ => []

/-- `parse_frame`, the arm of `TYPE_RST_STREAM`. -/
def parseRstStream (body : Bytes) : Except Fail Frame := do
  let id ← rdU32 body
  let status ← rdU32 (body.drop 4)
  return .rstStream (low31 id) status

/-- `parse_frame`, the arm of `TYPE_SETTINGS`. -/
def parseSettings (body : Bytes) : Except Fail Frame := do
  let n ← rdU32 body
  return .settings (settingsEntries n.toNat (body.drop 4))

/-- `parse_frame`, the arm of `TYPE_PING`. -/
def parsePing (body : Bytes) : Except Fail Frame := do
  let id ← rdU32 body
  return .ping id

/-- `parse_frame`, the arm of `TYPE_GOAWAY`: the status may be missing. -/
def parseGoAway (body : Bytes) : Except Fail Frame := do
  let id ← rdU32 body
  let status ← if 8 ≤ body.length then rdU32 (body.drop 4) else .ok 0
  return .goAway (low31 id) status

/-- `parse_frame`, the arm of `TYPE_WINDOW_UPDATE`. -/
def parseWindowUpdate (body : Bytes) : Except Fail Frame := do
  let id ← rdU32 body
  let delta ← rdU32 (body.drop 4)
  return .windowUpdate (low31 id) (low31 delta)

/-- `parse_frame`, a control frame whose headers start at `skip`. -/
def parseNv (Z : Flate D I) (fuel : Nat) (make : UInt32 → Headers → Frame) (skip : Nat)
    (body : Bytes) (nv : NvCodec D I) : Except Fail Frame × NvCodec D I :=
  match rdU32 body with
  | .error e => (.error e, nv)
  | .ok id =>
    if body.length < skip then (.error .panicked, nv)
    else
      match decompressNv Z fuel nv (body.drop skip) with
      | (.error e, nv1) => (.error e, nv1)
      | (.ok headers, nv1) => (.ok (make (low31 id) headers), nv1)

/-- `parse_frame`, a control frame. -/
def parseControl (Z : Flate D I) (fuel : Nat) (ftype : UInt16) (flags : UInt8) (body : Bytes)
    (nv : NvCodec D I) : Except Fail Frame × NvCodec D I :=
  match ftype with
  -- [stream_id:32][assoc:32][pri:3|unused:5][slot:8] then compressed NV
  | typeSynStream => parseNv Z fuel (.synStream · flags ·) 10 body nv
  | typeSynReply => parseNv Z fuel (.synReply · flags ·) 4 body nv
  | typeHeaders => parseNv Z fuel (.headers · flags ·) 4 body nv
  | typeRstStream => (parseRstStream body, nv)
  | typeSettings => (parseSettings body, nv)
  | typePing => (parsePing body, nv)
  | typeGoAway => (parseGoAway body, nv)
  | typeWindowUpdate => (parseWindowUpdate body, nv)
  -- unknown control frame: consume and ignore (empty SETTINGS is a no-op)
  | _ => (.ok (.settings []), nv)

/-- `parse_frame`: `none` when `buf` does not hold a complete frame yet, else the frame and the
    number of bytes consumed. -/
def parseFrame (Z : Flate D I) (fuel : Nat) (buf : Bytes) (nv : NvCodec D I) :
    Except Fail (Option (Frame × Nat)) × NvCodec D I :=
  match buf with
  | b0 :: b1 :: b2 :: b3 :: flags :: l0 :: l1 :: l2 :: rest =>
    let length := rdU24 l0 l1 l2
    if rest.length < length then (.ok none, nv)
    else
      let body := rest.take length
      if b0 &&& 0x80 = 0 then
        -- DATA frame: [0|stream_id:31][flags:8][len:24][payload]
        let id := UInt32.ofNat (ofBytes [b0, b1, b2, b3])
        (.ok (some (.data (low31 id) flags body, 8 + length)), nv)
      else
        match parseControl Z fuel (b2.toUInt16 <<< 8 ||| b3.toUInt16) flags body nv with
        | (.error e, nv1) => (.error e, nv1)
        | (.ok frame, nv1) => (.ok (some (frame, 8 + length)), nv1)
  | _ => (.ok none, nv)

/-! ## Writing -/

/-- `write_frame`, `control_header`. -/
def controlHeader (ftype : UInt16) (flags : UInt8) (len : Nat) : Bytes :=
  [(0x80 : UInt8) ||| (spdyVersion >>> 8).toUInt8, spdyVersion.toUInt8, (ftype >>> 8).toUInt8,
    ftype.toUInt8, flags] ++ wrU24 len

/-- `write_frame`, one entry of SETTINGS. -/
def wrSetting (e : UInt32 × UInt32) : Bytes := 0 :: (wrU24 e.1.toNat ++ wrU32 e.2)

/-- `write_frame`, a control frame with `lead` before its headers. -/
def writeNv (Z : Flate D I) (fuel : Nat) (out : Bytes) (ftype : UInt16) (flags : UInt8)
    (lead : Bytes) (headers : Headers) (nv : NvCodec D I) : Except Fail Bytes × NvCodec D I :=
  match compressNv Z fuel nv headers with
  | (.error e, nv1) => (.error e, nv1)
  | (.ok nvb, nv1) =>
    let body := lead ++ nvb
    (.ok (out ++ (controlHeader ftype flags body.length ++ body)), nv1)

/-- `write_frame`: the buffer with the frame appended. -/
def writeFrame (Z : Flate D I) (fuel : Nat) (out : Bytes) (frame : Frame) (nv : NvCodec D I) :
    Except Fail Bytes × NvCodec D I :=
  match frame with
  | .synReply id flags headers =>
    writeNv Z fuel out typeSynReply flags (wrU32 (low31 id)) headers nv
  | .synStream id flags headers =>
    writeNv Z fuel out typeSynStream flags (wrU32 (low31 id) ++ (wrU32 0 ++ [0, 0])) headers nv
  | .rstStream id status =>
    (.ok (out ++ (controlHeader typeRstStream 0 8 ++ (wrU32 (low31 id) ++ wrU32 status))), nv)
  | .settings entries =>
    (.ok (out ++ (controlHeader typeSettings 0 (4 + entries.length * 8) ++
      (wrU32 (UInt32.ofNat entries.length) ++ entries.flatMap wrSetting))), nv)
  | .ping id => (.ok (out ++ (controlHeader typePing 0 4 ++ wrU32 id)), nv)
  | .goAway id status =>
    (.ok (out ++ (controlHeader typeGoAway 0 8 ++ (wrU32 (low31 id) ++ wrU32 status))), nv)
  | .headers id flags headers =>
    writeNv Z fuel out typeHeaders flags (wrU32 (low31 id)) headers nv
  | .windowUpdate id delta =>
    (.ok (out ++ (controlHeader typeWindowUpdate 0 8 ++
      (wrU32 (low31 id) ++ wrU32 (low31 delta)))), nv)
  | .data id flags payload =>
    (.ok (out ++ (wrU32 (low31 id) ++ (flags :: (wrU24 payload.length ++ payload)))), nv)

/-! ## Whole connections -/

/-- `SpdyWriter::write` of one frame after another: the buffers handed to the connection. -/
def writeFrames (Z : Flate D I) (fuel : Nat) :
    List Frame → NvCodec D I → Except Fail (List Bytes) × NvCodec D I
  | [], nv => (.ok [], nv)
  | frame :: frames, nv =>
    match writeFrame Z fuel [] frame nv with
    | (.error e, nv1) => (.error e, nv1)
    | (.ok buf, nv1) =>
      match writeFrames Z fuel frames nv1 with
      | (.error e, nv2) => (.error e, nv2)
      | (.ok bufs, nv2) => (.ok (buf :: bufs), nv2)

/-- A parsed frame takes eight bytes or more, all of them in the buffer. -/
theorem parseFrame_consumed {Z : Flate D I} {fuel : Nat} {buf : Bytes} {nv nv' : NvCodec D I}
    {frame : Frame} {n : Nat} (h : parseFrame Z fuel buf nv = (.ok (some (frame, n)), nv')) :
    8 ≤ n ∧ n ≤ buf.length := by
  unfold parseFrame at h
  split at h
  · rename_i b0 b1 b2 b3 flags l0 l1 l2 rest
    have hn : n = 8 + rdU24 l0 l1 l2 ∧ ¬ rest.length < rdU24 l0 l1 l2 := by
      dsimp only at h
      split_ifs at h with hlen hdata
      · simp at h
      · simp only [Prod.mk.injEq, Except.ok.injEq, Option.some.injEq] at h
        exact ⟨h.1.2.symm, hlen⟩
      · split at h
        · simp at h
        · simp only [Prod.mk.injEq, Except.ok.injEq, Option.some.injEq] at h
          exact ⟨h.1.2.symm, hlen⟩
    simp only [List.length_cons]
    omega
  · simp at h

/-- `read_loop`, the inner loop without what it does with the frames: parse until no complete
    frame is buffered.  The frames and the bytes left. -/
def parseFrames (Z : Flate D I) (fuel : Nat) (buf : Bytes) (nv : NvCodec D I) :
    Except Fail (List Frame × Bytes) × NvCodec D I :=
  match _h : parseFrame Z fuel buf nv with
  | (.error e, nv1) => (.error e, nv1)
  | (.ok none, nv1) => (.ok ([], buf), nv1)
  | (.ok (some (frame, n)), nv1) =>
    match parseFrames Z fuel (buf.drop n) nv1 with
    | (.error e, nv2) => (.error e, nv2)
    | (.ok (frames, left), nv2) => (.ok (frame :: frames, left), nv2)
  termination_by buf.length
  decreasing_by
    have := parseFrame_consumed _h
    rw [List.length_drop]
    omega

end ContainerdRs.Cri.Spdy
