import ContainerdRs.Cri.Spdy.Roundtrip

/-!
# The slices of `parse_frame`

`parse_frame` with every slice and every index written out as the source has them, each one a
check that panics.  The parser of `Frame` reads the same bytes through patterns; the two agree,
so that what is in bounds here is in bounds there.

* `Checked.readNvBlock_eq`, `Checked.settingsEntries_eq` — the loops over a block.
* `Checked.parseFrame_eq` — the checked parser is the parser.
-/

set_option autoImplicit false

namespace ContainerdRs.Cri.Spdy

open BigEndian

variable {D I : Type}

/-- The behaviour of zlib's inflate that bounds the loop, on any input.  `pending` is how much
    output the decompressor holds back. -/
structure Flate.Bounded (Z : Flate D I) (pending : I → Nat) : Prop where
  /-- A call takes no more than it is given, and fills no more than the room left. -/
  consumed : ∀ i input spare, (Z.decompressVec i input spare).2.1 ≤ input.length
  room : ∀ i input spare, (Z.decompressVec i input spare).2.2.1.length ≤ spare
  /-- Inflate grows at most 1032 times. -/
  ratio : ∀ {i input spare k out i'}, Z.decompressVec i input spare = (.ok, k, out, i') →
    out.length + pending i' ≤ pending i + 1032 * k
  /-- A dictionary is asked for before any output. -/
  dictionary : ∀ {i input spare e k out i'},
    Z.decompressVec i input spare = (.needsDictionary e, k, out, i') → out = []
  /-- Where no progress was possible, the same call makes none again. -/
  still : ∀ {i input spare i'}, Z.decompressVec i input spare = (.ok, 0, [], i') →
    Z.decompressVec i' input spare = (.ok, 0, [], i')

namespace Checked

/-- `&b[lo..hi]`. -/
def slice (b : Bytes) (lo hi : Nat) : Except Fail Bytes :=
  if lo ≤ hi ∧ hi ≤ b.length then .ok ((b.take hi).drop lo) else .error .panicked

/-- `b[i]`. -/
def index (b : Bytes) (i : Nat) : Except Fail UInt8 :=
  match b[i]? with
  | some x => .ok x
  | none => .error .panicked

/-- `rd_u32`. -/
def rdU32 (b : Bytes) : Except Fail UInt32 := do
  let b0 ← index b 0
  let b1 ← index b 1
  let b2 ← index b 2
  let b3 ← index b 3
  return UInt32.ofNat (ofBytes [b0, b1, b2, b3])

/-- `rd_u24`. -/
def rdU24 (b : Bytes) : Except Fail Nat := do
  let b0 ← index b 0
  let b1 ← index b 1
  let b2 ← index b 2
  return Spdy.rdU24 b0 b1 b2

/-- `read_nv_block`, the closure `take`. -/
def takeText (buf : Bytes) (off : Nat) : Except Fail (String × Nat) :=
  if off + 4 > buf.length then .error (.io "spdy nv: truncated length")
  else do
    let n ← rdU32 (← slice buf off (off + 4))
    let off := off + 4
    if off + n.toNat > buf.length then .error (.io "spdy nv: truncated value")
    else do
      let s ← slice buf off (off + n.toNat)
      return (fromUtf8Lossy s, off + n.toNat)

/-- `read_nv_block`, the loop over the pairs. -/
def readPairs (buf : Bytes) : Nat → Nat → Except Fail Headers
  | 0, _ => .ok []
  | n + 1, off => do
    let (name, off) ← takeText buf off
    let (value, off) ← takeText buf off
    let pairs ← readPairs buf n off
    return (name, value) :: pairs

/-- `read_nv_block`. -/
def readNvBlock (buf : Bytes) : Except Fail Headers :=
  if buf.length < 4 then .ok []
  else do
    let count ← rdU32 (← slice buf 0 4)
    readPairs buf count.toNat 4

/-- `decompress_nv`, the loop, with its slice `&raw[in_off..]`. -/
def decompressLoop (Z : Flate D I) (raw : Bytes) :
    Nat → NvCodec D I → Bytes → Nat → Nat → Except Fail Bytes × NvCodec D I
  | 0, nv, _, _, _ => (.error .outOfFuel, nv)
  | fuel + 1, nv, out, cap, inOff =>
    match slice raw inOff raw.length with
    | .error e => (.error e, nv)
    | .ok input =>
      match Z.decompressVec nv.inflate input (cap - out.length) with
      | (.ok, consumed, produced, i) =>
        let inOff1 := inOff + consumed
        let out1 := out ++ produced
        if raw.length ≤ inOff1 ∧ produced = [] then (.ok out1, { nv with inflate := i })
        else
          let cap1 := if out1.length = cap then reserve cap out1.length (max cap 256) else cap
          decompressLoop Z raw fuel { nv with inflate := i } out1 cap1 inOff1
      | (.needsDictionary e, consumed, produced, i) =>
        if nv.inflateDictSet then (.error (.io ("spdy inflate: " ++ e)), { nv with inflate := i })
        else
          match Z.inflateDictionary i spdyDictionary with
          | .error e' => (.error (.io ("spdy inflate dict: " ++ e')), { nv with inflate := i })
          | .ok i' =>
            decompressLoop Z raw fuel { nv with inflate := i', inflateDictSet := true }
              (out ++ produced) cap (inOff + consumed)
      | (.failed e, _, _, i) => (.error (.io ("spdy inflate: " ++ e)), { nv with inflate := i })

/-- `decompress_nv`. -/
def decompressNv (Z : Flate D I) (fuel : Nat) (nv : NvCodec D I) (raw : Bytes) :
    Except Fail Headers × NvCodec D I :=
  match decompressLoop Z raw fuel nv [] (raw.length * 4 + 64) 0 with
  | (.error e, nv1) => (.error e, nv1)
  | (.ok out, nv1) => (readNvBlock out, nv1)

/-- `parse_frame`, the loop of SETTINGS from offset `off` on. -/
def settingsEntries (body : Bytes) : Nat → Nat → Except Fail (List (UInt32 × UInt32))
  | 0, _ => .ok []
  | n + 1, off =>
    if off + 8 > body.length then .ok []
    else do
      let id ← rdU24 (← slice body (off + 1) (off + 4))
      let value ← rdU32 (← slice body (off + 4) (off + 8))
      let entries ← settingsEntries body n (off + 8)
      return (UInt32.ofNat id, value) :: entries

/-- `parse_frame`, the arms that use no codec. -/
def parsePlain (ftype : UInt16) (body : Bytes) : Except Fail Frame :=
  match ftype with
  | typeRstStream => do
    let id ← rdU32 (← slice body 0 4)
    let status ← rdU32 (← slice body 4 8)
    return .rstStream (low31 id) status
  | typeSettings => do
    let n ← rdU32 (← slice body 0 4)
    return .settings (← settingsEntries body n.toNat 4)
  | typePing => do
    let id ← rdU32 (← slice body 0 4)
    return .ping id
  | typeGoAway => do
    let id ← rdU32 (← slice body 0 4)
    let status ← if body.length ≥ 8 then do rdU32 (← slice body 4 8) else pure 0
    return .goAway (low31 id) status
  | typeWindowUpdate => do
    let id ← rdU32 (← slice body 0 4)
    let delta ← rdU32 (← slice body 4 8)
    return .windowUpdate (low31 id) (low31 delta)
  | _ => .ok (.settings [])

/-- `parse_frame`, the arms whose headers start at `skip`. -/
def parseNv (Z : Flate D I) (fuel : Nat) (make : UInt32 → Headers → Frame) (skip : Nat)
    (body : Bytes) (nv : NvCodec D I) : Except Fail Frame × NvCodec D I :=
  match slice body 0 4 >>= rdU32 with
  | .error e => (.error e, nv)
  | .ok id =>
    match slice body skip body.length with
    | .error e => (.error e, nv)
    | .ok raw =>
      match decompressNv Z fuel nv raw with
      | (.error e, nv1) => (.error e, nv1)
      | (.ok headers, nv1) => (.ok (make (low31 id) headers), nv1)

/-- `parse_frame`, a control frame. -/
def parseControl (Z : Flate D I) (fuel : Nat) (ftype : UInt16) (flags : UInt8) (body : Bytes)
    (nv : NvCodec D I) : Except Fail Frame × NvCodec D I :=
  match ftype with
  | typeSynStream => parseNv Z fuel (.synStream · flags ·) 10 body nv
  | typeSynReply => parseNv Z fuel (.synReply · flags ·) 4 body nv
  | typeHeaders => parseNv Z fuel (.headers · flags ·) 4 body nv
  | ftype => (parsePlain ftype body, nv)

/-- `parse_frame`, its first lines: the control bit, the body and its end once they are there. -/
def frameHead (buf : Bytes) : Except Fail (Option (Bool × Bytes × Nat)) :=
  if buf.length < 8 then .ok none
  else do
    let b0 ← index buf 0
    let length ← rdU24 (← slice buf 5 8)
    let total := 8 + length
    if buf.length < total then return none
    else do
      let body ← slice buf 8 total
      return some (b0 &&& 0x80 != 0, body, total)

/-- `parse_frame`. -/
def parseFrame (Z : Flate D I) (fuel : Nat) (buf : Bytes) (nv : NvCodec D I) :
    Except Fail (Option (Frame × Nat)) × NvCodec D I :=
  match frameHead buf with
  | .error e => (.error e, nv)
  | .ok none => (.ok none, nv)
  | .ok (some (false, body, total)) =>
    match (do return (← rdU32 (← slice buf 0 4), ← index buf 4)) with
    | .error e => (.error e, nv)
    | .ok (id, flags) => (.ok (some (.data (low31 id) flags body, total)), nv)
  | .ok (some (true, body, total)) =>
    match (do return (← index buf 2, ← index buf 3, ← index buf 4)) with
    | .error e => (.error e, nv)
    | .ok (b2, b3, flags) =>
      match parseControl Z fuel (b2.toUInt16 <<< 8 ||| b3.toUInt16) flags body nv with
      | (.error e, nv1) => (.error e, nv1)
      | (.ok frame, nv1) => (.ok (some (frame, total)), nv1)

/-! ## Both parsers read the same bytes -/

/-- A slice behind an offset. -/
theorem slice_drop (b : Bytes) (off : Nat) {lo hi : Nat} (hlo : lo ≤ hi)
    (hhi : off + hi ≤ b.length) :
    slice b (off + lo) (off + hi) = .ok (((b.drop off).take hi).drop lo) := by
  rw [slice, if_pos ⟨by omega, hhi⟩, List.take_drop, List.drop_drop]

theorem slice_to_end {b : Bytes} {lo : Nat} (h : lo ≤ b.length) :
    slice b lo b.length = .ok (b.drop lo) := by
  rw [slice, if_pos ⟨h, Nat.le_refl _⟩, List.take_length]

theorem slice_out_of_range {b : Bytes} {lo hi : Nat} (h : b.length < hi) :
    slice b lo hi = .error .panicked := by
  rw [slice, if_neg (by omega)]

/-- Four bytes in front of a list, or a panic on both sides. -/
theorem rdU32_eq (b : Bytes) : rdU32 b = Spdy.rdU32 b := by
  match b with
  | [] => rfl
  | [_] => rfl
  | [_, _] => rfl
  | [_, _, _] => rfl
  | _ :: _ :: _ :: _ :: _ => rfl

theorem rdU32_take (b : Bytes) : Spdy.rdU32 (b.take 4) = Spdy.rdU32 b := by
  match b with
  | [] => rfl
  | [_] => rfl
  | [_, _] => rfl
  | [_, _, _] => rfl
  | _ :: _ :: _ :: _ :: _ => rfl

theorem rdU32_short {b : Bytes} (h : b.length < 4) : Spdy.rdU32 b = .error .panicked := by
  match b with
  | [] => rfl
  | [_] => rfl
  | [_, _] => rfl
  | [_, _, _] => rfl
  | _ :: _ :: _ :: _ :: _ =>
    simp only [List.length_cons] at h
    omega

/-- `rd_u32(&b[lo..lo + 4])`, with what follows it. -/
theorem rdU32_slice {α : Type} (b : Bytes) (lo : Nat) (k : UInt32 → Except Fail α) :
    (slice b lo (lo + 4) >>= fun x => rdU32 x >>= k) = Spdy.rdU32 (b.drop lo) >>= k := by
  by_cases h : lo + 4 ≤ b.length
  · have hs := slice_drop b lo (Nat.zero_le 4) h
    rw [Nat.add_zero] at hs
    rw [hs, List.drop_zero]
    show rdU32 ((b.drop lo).take 4) >>= k = _
    rw [rdU32_eq, rdU32_take]
  · rw [slice_out_of_range (by omega), rdU32_short (by rw [List.length_drop]; omega)]
    rfl

theorem rdU32_slice_zero {α : Type} (b : Bytes) (k : UInt32 → Except Fail α) :
    (slice b 0 4 >>= fun x => rdU32 x >>= k) = Spdy.rdU32 b >>= k :=
  rdU32_slice b 0 k

theorem rdU32_slice_four {α : Type} (b : Bytes) (k : UInt32 → Except Fail α) :
    (slice b 4 8 >>= fun x => rdU32 x >>= k) = Spdy.rdU32 (b.drop 4) >>= k :=
  rdU32_slice b 4 k

/-- Eight bytes in front of a list. -/
theorem exists_eight {b : Bytes} (h : 8 ≤ b.length) :
    ∃ b0 b1 b2 b3 b4 b5 b6 b7 rest, b = b0 :: b1 :: b2 :: b3 :: b4 :: b5 :: b6 :: b7 :: rest := by
  match b with
  | b0 :: b1 :: b2 :: b3 :: b4 :: b5 :: b6 :: b7 :: rest =>
    exact ⟨b0, b1, b2, b3, b4, b5, b6, b7, rest, rfl⟩
  | [] | [_] | [_, _] | [_, _, _] | [_, _, _, _] | [_, _, _, _, _] | [_, _, _, _, _, _]
  | [_, _, _, _, _, _, _] =>
    simp only [List.length_cons, List.length_nil] at h
    omega

theorem takeText_eq (buf : Bytes) (off : Nat) : takeText buf off = Spdy.takeText buf off := by
  unfold takeText Spdy.takeText
  by_cases h : off + 4 > buf.length
  · rw [if_pos h, if_pos h]
  · rw [if_neg h, if_neg h, rdU32_slice]
    cases Spdy.rdU32 (buf.drop off) with
    | error e => rfl
    | ok n =>
      show (if off + 4 + n.toNat > buf.length then _ else _) = _
      by_cases hn : off + 4 + n.toNat > buf.length
      · rw [if_pos hn]
        exact (if_pos hn).symm
      · have hs := slice_drop buf (off + 4) (Nat.zero_le n.toNat) (Nat.not_lt.1 hn)
        rw [Nat.add_zero] at hs
        rw [if_neg hn, hs]
        exact (if_neg hn).symm

theorem readPairs_eq (buf : Bytes) : ∀ n off, readPairs buf n off = Spdy.readPairs buf n off
  | 0, _ => rfl
  | n + 1, off => by
    unfold readPairs Spdy.readPairs
    rw [takeText_eq]
    cases Spdy.takeText buf off with
    | error e => rfl
    | ok p =>
      show (takeText buf p.2 >>= _) = _
      rw [takeText_eq]
      dsimp only
      cases Spdy.takeText buf p.2 with
      | error e => rfl
      | ok q =>
        show (readPairs buf n q.2 >>= _) = _
        rw [readPairs_eq buf n q.2]
        dsimp only
        cases Spdy.readPairs buf n q.2 <;> rfl

theorem readNvBlock_eq (buf : Bytes) : readNvBlock buf = Spdy.readNvBlock buf := by
  unfold readNvBlock Spdy.readNvBlock
  split
  · rfl
  · rw [rdU32_slice_zero]
    cases Spdy.rdU32 buf with
    | error e => rfl
    | ok n => exact readPairs_eq buf n.toNat 4

theorem settingsEntries_eq (body : Bytes) : ∀ n off,
    settingsEntries body n off = .ok (Spdy.settingsEntries n (body.drop off))
  | 0, _ => rfl
  | n + 1, off => by
    rw [settingsEntries]
    by_cases h : off + 8 > body.length
    · rw [if_pos h]
      have hshort : (body.drop off).length < 8 := by
        rw [List.length_drop]
        omega
      generalize body.drop off = b at hshort ⊢
      unfold Spdy.settingsEntries
      split
      · rfl
      · simp only [List.length_cons] at hshort
        omega
      · rfl
    · have h8 : 8 ≤ (body.drop off).length := by
        rw [List.length_drop]
        omega
      obtain ⟨f, i0, i1, i2, v0, v1, v2, v3, rest, hb⟩ := exists_eight h8
      have hrest : body.drop (off + 8) = rest := by
        rw [← List.drop_drop, hb]
        rfl
      have hs1 := slice_drop body off (show 1 ≤ 4 by omega) (by omega)
      have hs2 := slice_drop body off (show 4 ≤ 8 by omega) (by omega)
      rw [if_neg h, hs1, hs2, settingsEntries_eq body n (off + 8), hrest, hb]
      rfl

theorem parsePlain_eq (Z : Flate D I) (fuel : Nat) (flags : UInt8) (ftype : UInt16) (body : Bytes)
    (nv : NvCodec D I) (hsyn : ftype ≠ typeSynStream) (hreply : ftype ≠ typeSynReply)
    (hheaders : ftype ≠ typeHeaders) :
    (parsePlain ftype body, nv) = Spdy.parseControl Z fuel ftype flags body nv := by
  unfold parsePlain
  split
  · show _ = (parseRstStream body, nv)
    simp only [rdU32_slice_zero, rdU32_slice_four, parseRstStream]
  · show _ = (parseSettings body, nv)
    simp only [rdU32_slice_zero, settingsEntries_eq, parseSettings]
    rfl
  · show _ = (parsePing body, nv)
    simp only [rdU32_slice_zero, parsePing]
  · show _ = (parseGoAway body, nv)
    simp only [rdU32_slice_zero, rdU32_slice_four, parseGoAway]
    rfl
  · show _ = (parseWindowUpdate body, nv)
    simp only [rdU32_slice_zero, rdU32_slice_four, parseWindowUpdate]
  · unfold Spdy.parseControl
    split <;> first | rfl | contradiction

theorem decompressLoop_eq {Z : Flate D I} {pending : I → Nat} (hZ : Z.Bounded pending)
    {raw : Bytes} : ∀ fuel nv out cap inOff, inOff ≤ raw.length →
      decompressLoop Z raw fuel nv out cap inOff = Spdy.decompressLoop Z raw fuel nv out cap inOff
  | 0, _, _, _, _, _ => rfl
  | fuel + 1, nv, out, cap, inOff, hin => by
    rw [decompressLoop, Spdy.decompressLoop, slice_to_end hin]
    have hk := hZ.consumed nv.inflate (raw.drop inOff) (cap - out.length)
    rw [List.length_drop] at hk
    dsimp only
    generalize Z.decompressVec nv.inflate (raw.drop inOff) (cap - out.length) = call at hk ⊢
    obtain ⟨status, consumed, produced, i⟩ := call
    -- every call that goes on leaves the offset inside the block
    have hin' : inOff + consumed ≤ raw.length := by
      dsimp only at hk
      omega
    cases status with
    | ok => simp only [decompressLoop_eq hZ fuel _ _ _ _ hin']
    | needsDictionary e =>
      show ite _ _ _ = ite _ _ _
      split
      · rfl
      · cases Z.inflateDictionary i spdyDictionary with
        | error e' => rfl
        | ok i' => exact decompressLoop_eq hZ fuel _ _ _ _ hin'
    | failed e => rfl

theorem decompressNv_eq {Z : Flate D I} {pending : I → Nat} (hZ : Z.Bounded pending) (fuel : Nat)
    (nv : NvCodec D I) (raw : Bytes) :
    decompressNv Z fuel nv raw = Spdy.decompressNv Z fuel nv raw := by
  unfold decompressNv Spdy.decompressNv
  rw [decompressLoop_eq hZ fuel nv [] _ 0 (Nat.zero_le _)]
  obtain ⟨_ | out, nv1⟩ := Spdy.decompressLoop Z raw fuel nv [] (raw.length * 4 + 64) 0
  · rfl
  · exact congrArg (·, nv1) (readNvBlock_eq out)

theorem parseNv_eq {Z : Flate D I} {pending : I → Nat} (hZ : Z.Bounded pending) (fuel : Nat)
    (make : UInt32 → Headers → Frame) (skip : Nat) (body : Bytes) (nv : NvCodec D I) :
    parseNv Z fuel make skip body nv = Spdy.parseNv Z fuel make skip body nv := by
  have hid : (slice body 0 4 >>= rdU32) = Spdy.rdU32 body := by
    have h := rdU32_slice_zero body pure
    simp only [bind_pure] at h
    exact h
  unfold parseNv Spdy.parseNv
  rw [hid]
  cases Spdy.rdU32 body with
  | error e => rfl
  | ok id =>
    dsimp only
    by_cases hskip : body.length < skip
    · rw [if_pos hskip, slice, if_neg (by omega)]
    · rw [if_neg hskip, slice_to_end (by omega)]
      dsimp only
      rewrite [decompressNv_eq hZ]
      rfl

theorem parseControl_eq {Z : Flate D I} {pending : I → Nat} (hZ : Z.Bounded pending) (fuel : Nat)
    (ftype : UInt16) (flags : UInt8) (body : Bytes) (nv : NvCodec D I) :
    parseControl Z fuel ftype flags body nv = Spdy.parseControl Z fuel ftype flags body nv := by
  unfold parseControl
  split
  · exact parseNv_eq hZ fuel _ 10 body nv
  · exact parseNv_eq hZ fuel _ 4 body nv
  · exact parseNv_eq hZ fuel _ 4 body nv
  · exact parsePlain_eq Z fuel flags _ body nv ‹_› ‹_› ‹_›

/-- The first lines on a buffer that holds a header. -/
theorem frameHead_eight (b0 b1 b2 b3 flags l0 l1 l2 : UInt8) (rest : Bytes) :
    frameHead (b0 :: b1 :: b2 :: b3 :: flags :: l0 :: l1 :: l2 :: rest) =
      if rest.length < Spdy.rdU24 l0 l1 l2 then .ok none
      else .ok (some (b0 &&& 0x80 != 0, rest.take (Spdy.rdU24 l0 l1 l2),
        8 + Spdy.rdU24 l0 l1 l2)) := by
  have hlength : (b0 :: b1 :: b2 :: b3 :: flags :: l0 :: l1 :: l2 :: rest).length =
      rest.length + 8 := rfl
  have hs : slice (b0 :: b1 :: b2 :: b3 :: flags :: l0 :: l1 :: l2 :: rest) 5 8 =
      .ok [l0, l1, l2] := by
    rw [slice, if_pos (by omega)]
    rfl
  rw [frameHead, if_neg (by omega), hs]
  show (if _ < 8 + Spdy.rdU24 l0 l1 l2 then _ else _) = _
  by_cases hlen : rest.length < Spdy.rdU24 l0 l1 l2
  · rw [if_pos (by omega), if_pos hlen]
    rfl
  · have hbody := slice_drop (b0 :: b1 :: b2 :: b3 :: flags :: l0 :: l1 :: l2 :: rest) 8
      (Nat.zero_le (Spdy.rdU24 l0 l1 l2)) (by omega)
    rw [if_neg (by omega), if_neg hlen, hbody]
    rfl

theorem parseFrame_short (Z : Flate D I) (fuel : Nat) {buf : Bytes} (nv : NvCodec D I)
    (h : ¬8 ≤ buf.length) : Spdy.parseFrame Z fuel buf nv = (.ok none, nv) := by
  unfold Spdy.parseFrame
  split
  · simp only [List.length_cons] at h
    omega
  · rfl

/-- The checked parser is the parser. -/
theorem parseFrame_eq {Z : Flate D I} {pending : I → Nat} (hZ : Z.Bounded pending) (fuel : Nat)
    (buf : Bytes) (nv : NvCodec D I) :
    parseFrame Z fuel buf nv = Spdy.parseFrame Z fuel buf nv := by
  by_cases h8 : 8 ≤ buf.length
  · obtain ⟨b0, b1, b2, b3, flags, l0, l1, l2, rest, rfl⟩ := exists_eight h8
    rw [parseFrame, frameHead_eight, Spdy.parseFrame]
    by_cases hlen : rest.length < Spdy.rdU24 l0 l1 l2
    · rw [if_pos hlen]
      exact (if_pos hlen).symm
    · rw [if_neg hlen]
      refine Eq.trans ?_ (if_neg hlen).symm
      by_cases hdata : b0 &&& 0x80 = 0
      · rw [if_pos hdata, show (b0 &&& 0x80 != 0) = false by simp [hdata]]
        rfl
      · rw [if_neg hdata, show (b0 &&& 0x80 != 0) = true by simp [hdata], ← parseControl_eq hZ]
        rfl
  · have hshort : frameHead buf = .ok none := by
      rw [frameHead, if_pos (by omega)]
    rw [parseFrame_short Z fuel nv h8]
    unfold parseFrame
    rw [hshort]

end Checked

end ContainerdRs.Cri.Spdy
