import ContainerdRs.Cri.Spdy.Frame

/-!
# Round trip of a SPDY connection

What one side writes frame after frame, the other side parses back, with one codec on each side.
`Paired enc dec` is the invariant: the decompressor of `dec` has given back everything that went
into the compressor of `enc`, which stands between two blocks.

* `parseFrame_control`, `parseFrame_data` — a complete frame in front of other bytes is cut off
  at its end.
* `frame_roundtrip` — one frame, one case per constructor; it keeps `Paired`.
* `parseFrames_writeFrames` — whole connections, by induction on the frames.
-/

set_option autoImplicit false

namespace ContainerdRs.Cri.Spdy

open BigEndian

variable {D I : Type}

/-- The fields of a frame fit the wire: stream ids and window deltas below `2^31`, settings ids
    below `2^24`, names and values shorter than `2^32`. -/
def Frame.Fits : Frame → Prop
  | .synStream id _ hs => id.toNat < 2 ^ 31 ∧ HeadersFit hs
  | .synReply id _ hs => id.toNat < 2 ^ 31 ∧ HeadersFit hs
  | .rstStream id _ => id.toNat < 2 ^ 31
  | .settings entries => ∀ e ∈ entries, e.1.toNat < 2 ^ 24
  | .ping _ => True
  | .goAway id _ => id.toNat < 2 ^ 31
  | .headers id _ hs => id.toNat < 2 ^ 31 ∧ HeadersFit hs
  | .windowUpdate id delta => id.toNat < 2 ^ 31 ∧ delta.toNat < 2 ^ 31
  | .data id _ _ => id.toNat < 2 ^ 31

/-- Iterations after which the codec loops of a frame have ended. -/
def Frame.loopFuel : Frame → Nat
  | .synStream _ _ hs | .synReply _ _ hs | .headers _ _ hs => (writeNvBlock hs).length + 2
  | _ => 0

/-! ## Heads -/

/-- The two type bytes give the type back. -/
theorem ftype_bytes (t : UInt16) :
    (t >>> 8).toUInt8.toUInt16 <<< 8 ||| t.toUInt8.toUInt16 = t := by
  apply UInt16.toNat_inj.mp
  have ht := t.toNat_lt
  have hlow : t.toNat % 256 < 2 ^ 8 := Nat.mod_lt _ (by decide)
  have hhigh : t.toNat / 256 % 256 = t.toNat / 256 := Nat.mod_eq_of_lt (by omega)
  have hshift : (t.toNat / 256) <<< 8 % 65536 = (t.toNat / 256) <<< 8 :=
    Nat.mod_eq_of_lt (by rw [Nat.shiftLeft_eq]; omega)
  have hsum : (t.toNat / 256) <<< 8 ||| t.toNat % 256 = t.toNat := by
    rw [← Nat.shiftLeft_add_eq_or_of_lt hlow, Nat.shiftLeft_eq]
    omega
  simpa [Nat.shiftRight_eq_div_pow, hhigh, hshift] using hsum

/-- A complete control frame goes to `parseControl` with its body. -/
theorem parseFrame_control (Z : Flate D I) (fuel : Nat) (ftype : UInt16) (flags : UInt8)
    {body : Bytes} {len : Nat} (rest : Bytes) (nv nv' : NvCodec D I) {frame : Frame}
    (hlen : len = body.length) (hshort : body.length < 2 ^ 24)
    (hparse : parseControl Z fuel ftype flags body nv = (.ok frame, nv')) :
    parseFrame Z fuel (controlHeader ftype flags len ++ body ++ rest) nv =
      (.ok (some (frame, (controlHeader ftype flags len ++ body).length)), nv') := by
  subst hlen
  have hfit : ¬ (body ++ rest).length < body.length := by simp
  have hcontrol : ¬ ((0x80 : UInt8) ||| (spdyVersion >>> 8).toUInt8) &&& 0x80 = 0 := by decide
  have htotal : (controlHeader ftype flags body.length ++ body).length = 8 + body.length := by
    simp only [controlHeader, List.length_append, List.length_cons, List.length_nil, length_wrU24]
  rw [htotal]
  simp only [controlHeader, wrU24, List.cons_append, List.nil_append, parseFrame,
    rdU24_wrU24 hshort, hfit, if_false, hcontrol, ftype_bytes, List.take_left, hparse]

/-- A complete data frame is cut off with its payload. -/
theorem parseFrame_data (Z : Flate D I) (fuel : Nat) {id : UInt32} (flags : UInt8)
    {payload : Bytes} (rest : Bytes) (nv : NvCodec D I) (hid : id.toNat < 2 ^ 31)
    (hshort : payload.length < 2 ^ 24) :
    parseFrame Z fuel
        ((wrU32 (low31 id) ++ (flags :: (wrU24 payload.length ++ payload))) ++ rest) nv =
      (.ok (some (.data id flags payload, 8 + payload.length)), nv) := by
  have hlow : low31 id = id := and_low31 hid
  have hfit : ¬ (payload ++ rest).length < payload.length := by simp
  have hhead : UInt8.ofNat (id.toNat / 256 ^ 3) &&& 0x80 = 0 := topBit_clear 3 (by omega)
  rw [hlow]
  simp only [wrU32, toBytes, wrU24, List.cons_append, List.nil_append, parseFrame,
    rdU24_wrU24 hshort, hfit, if_false, hhead, if_true, List.take_left, ofBytes_word, hlow]

/-! ## Bodies -/

/-- The entries of SETTINGS read back. -/
theorem settingsEntries_wrSetting : ∀ entries : List (UInt32 × UInt32),
    (∀ e ∈ entries, e.1.toNat < 2 ^ 24) →
    settingsEntries entries.length (entries.flatMap wrSetting) = entries
  | [], _ => rfl
  | (id, value) :: entries, h => by
    have hid : id.toNat < 2 ^ 24 := h (id, value) (by simp)
    have ih := settingsEntries_wrSetting entries fun e he => h e (by simp [he])
    simp only [List.flatMap_cons, wrSetting, wrU24, wrU32, toBytes, List.cons_append,
      List.nil_append, List.length_cons, settingsEntries, rdU24_wrU24 hid, ofBytes_word,
      UInt32.ofNat_toNat]
    exact congrArg _ ih

theorem length_wrSettings : ∀ entries : List (UInt32 × UInt32),
    (entries.flatMap wrSetting).length = entries.length * 8
  | [] => rfl
  | e :: entries => by
    simp only [List.flatMap_cons, List.length_append, length_wrSettings entries, wrSetting,
      List.length_cons, length_wrU24, length_wrU32]
    omega

/-- The second field of a body that starts with a word. -/
@[simp] theorem drop_wrU32 (v : UInt32) (rest : Bytes) : (wrU32 v ++ rest).drop 4 = rest :=
  List.drop_left' (length_wrU32 v)

@[simp] theorem rdU32_word (v : UInt32) : rdU32 (wrU32 v) = .ok v := by
  simpa using rdU32_wrU32 v []

/-! ## One frame -/

section Connection

variable {Z : Flate D I} {Sync : Bool → D → I → Bytes → Bytes → Prop} {Ready Flushed : D → Prop}
  {enc dec : NvCodec D I} {fuel : Nat}

/-- The reader has caught up with the writer, which stands between two blocks. -/
structure Paired (Sync : Bool → D → I → Bytes → Bytes → Prop) (Ready : D → Prop)
    (enc dec : NvCodec D I) : Prop where
  sync : Sync dec.inflateDictSet enc.deflate dec.inflate [] []
  ready : Ready enc.deflate

/-- What the frame on the wire is for the reader, when its body is shorter than `2^24`: the frame,
    taking all of its bytes. -/
def ParsesTo (Z : Flate D I) (fuel : Nat) (buf : Bytes) (frame : Frame) (dec dec' : NvCodec D I) :
    Prop :=
  buf.length < 8 + 2 ^ 24 →
    ∀ rest, parseFrame Z fuel (buf ++ rest) dec = (.ok (some (frame, buf.length)), dec')

/-- One header block through both codecs. -/
theorem nv_roundtrip (hZ : Z.Lawful Sync Ready Flushed) {headers : Headers}
    (hfit : HeadersFit headers) (hfuel : (writeNvBlock headers).length + 2 ≤ fuel)
    (hp : Paired Sync Ready enc dec) :
    ∃ wire enc' dec', compressNv Z fuel enc headers = (.ok wire, enc') ∧
      Paired Sync Ready enc' dec' ∧
      (wire.length < 2 ^ 24 → decompressNv Z fuel dec wire = (.ok headers, dec')) := by
  obtain ⟨wire, d, hwrite, hs, hf⟩ :=
    compressNv_spec hZ headers (show 2 ≤ fuel by omega) hp.sync hp.ready
  obtain ⟨dec', hs', hread⟩ := decompressNv_spec hZ hfit hfuel hp.sync hs hf
  exact ⟨wire, _, dec', hwrite, ⟨hs', hZ.ready_of_flushed hf⟩, hread⟩

/-- A header-bearing frame: `pad` stands between its stream id and its headers. -/
theorem nvFrame_roundtrip (hZ : Z.Lawful Sync Ready Flushed) {headers : Headers} {id : UInt32}
    (ftype : UInt16) (flags : UInt8) (make : UInt32 → Headers → Frame) (pad : Bytes)
    (hid : id.toNat < 2 ^ 31) (hfit : HeadersFit headers)
    (hfuel : (writeNvBlock headers).length + 2 ≤ fuel) (hp : Paired Sync Ready enc dec)
    (hcontrol : ∀ body nv, parseControl Z fuel ftype flags body nv =
      parseNv Z fuel make (4 + pad.length) body nv) :
    ∃ buf enc' dec',
      writeNv Z fuel [] ftype flags (wrU32 (low31 id) ++ pad) headers enc = (.ok buf, enc') ∧
      Paired Sync Ready enc' dec' ∧ ParsesTo Z fuel buf (make id headers) dec dec' := by
  obtain ⟨wire, enc', dec', hwrite, hp', hread⟩ := nv_roundtrip hZ hfit hfuel hp
  have hlow : low31 id = id := and_low31 hid
  obtain ⟨body, hbody⟩ : ∃ body, body = wrU32 id ++ pad ++ wire := ⟨_, rfl⟩
  have hlen : body.length = 4 + pad.length + wire.length := by
    rw [hbody]
    simp only [List.length_append, length_wrU32]
  refine ⟨controlHeader ftype flags body.length ++ body, enc', dec', ?_, hp', ?_⟩
  · simp only [writeNv, hwrite, hlow, hbody, List.nil_append]
  · intro hshort rest
    have hshort' : body.length < 2 ^ 24 := by
      simp only [controlHeader, List.length_append, List.length_cons, List.length_nil,
        length_wrU24] at hshort
      omega
    apply parseFrame_control Z fuel ftype flags rest dec dec' rfl hshort'
    have hskip : body.drop (4 + pad.length) = wire := by
      rw [hbody]
      exact List.drop_left' (by simp only [List.length_append, length_wrU32])
    have hlead : rdU32 body = .ok id := by rw [hbody, List.append_assoc, rdU32_wrU32]
    rw [hcontrol, parseNv, hlead]
    simp only [hskip, hread (by omega), hlow]
    rw [if_neg (by omega)]

/-- A control frame without headers. -/
theorem plainFrame_roundtrip {ftype : UInt16} {flags : UInt8} {body : Bytes} {frame : Frame}
    {len : Nat} (hlen : len = body.length)
    (hcontrol : body.length < 2 ^ 24 →
      parseControl Z fuel ftype flags body dec = (.ok frame, dec)) :
    ParsesTo Z fuel (controlHeader ftype flags len ++ body) frame dec dec := by
  intro hshort rest
  have hbody : body.length < 2 ^ 24 := by
    simp only [controlHeader, List.length_append, List.length_cons, List.length_nil,
      length_wrU24] at hshort
    omega
  exact parseFrame_control Z fuel ftype flags rest dec dec hlen hbody (hcontrol hbody)

/-- One frame is written, parses back, and the codecs are in step again. -/
theorem frame_roundtrip (hZ : Z.Lawful Sync Ready Flushed) (frame : Frame) (hfit : frame.Fits)
    (hfuel : frame.loopFuel ≤ fuel) (hp : Paired Sync Ready enc dec) :
    ∃ buf enc' dec', writeFrame Z fuel [] frame enc = (.ok buf, enc') ∧
      Paired Sync Ready enc' dec' ∧ ParsesTo Z fuel buf frame dec dec' := by
  cases frame with
  | synStream id flags headers =>
    exact nvFrame_roundtrip hZ typeSynStream flags (.synStream · flags ·) (wrU32 0 ++ [0, 0])
      hfit.1 hfit.2 hfuel hp fun _ _ => rfl
  | synReply id flags headers =>
    have h := nvFrame_roundtrip hZ typeSynReply flags (.synReply · flags ·) [] hfit.1 hfit.2
      hfuel hp fun _ _ => rfl
    rw [List.append_nil] at h
    exact h
  | headers id flags headers =>
    have h := nvFrame_roundtrip hZ typeHeaders flags (.headers · flags ·) [] hfit.1 hfit.2
      hfuel hp fun _ _ => rfl
    rw [List.append_nil] at h
    exact h
  | rstStream id status =>
    have hlow : low31 id = id := and_low31 hfit
    refine ⟨_, enc, dec, rfl, hp, plainFrame_roundtrip (by simp) fun _ => ?_⟩
    show (parseRstStream _, dec) = _
    simp [parseRstStream, bind, Except.bind, pure, Except.pure, hlow]
  | settings entries =>
    have hlen : 4 + entries.length * 8 = (wrU32 (UInt32.ofNat entries.length) ++
        entries.flatMap wrSetting).length := by
      rw [List.length_append, length_wrU32, length_wrSettings]
    refine ⟨_, enc, dec, rfl, hp, plainFrame_roundtrip hlen fun hshort => ?_⟩
    have hcount : (UInt32.ofNat entries.length).toNat = entries.length :=
      UInt32.toNat_ofNat_of_lt' (show entries.length < 2 ^ 32 by omega)
    show (parseSettings _, dec) = _
    simp [parseSettings, bind, Except.bind, pure, Except.pure, hcount,
      settingsEntries_wrSetting entries hfit, -UInt32.toNat_ofNat']
  | ping id =>
    refine ⟨_, enc, dec, rfl, hp, plainFrame_roundtrip (by simp) fun _ => ?_⟩
    show (parsePing _, dec) = _
    simp [parsePing, bind, Except.bind, pure, Except.pure]
  | goAway id status =>
    have hlow : low31 id = id := and_low31 hfit
    refine ⟨_, enc, dec, rfl, hp, plainFrame_roundtrip (by simp) fun _ => ?_⟩
    show (parseGoAway _, dec) = _
    simp [parseGoAway, bind, Except.bind, pure, Except.pure, hlow]
  | windowUpdate id delta =>
    have hlow : low31 id = id := and_low31 hfit.1
    have hdelta : low31 delta = delta := and_low31 hfit.2
    refine ⟨_, enc, dec, rfl, hp, plainFrame_roundtrip (by simp) fun _ => ?_⟩
    show (parseWindowUpdate _, dec) = _
    simp [parseWindowUpdate, bind, Except.bind, pure, Except.pure, hlow, hdelta]
  | data id flags payload =>
    refine ⟨_, enc, dec, rfl, hp, fun hshort rest => ?_⟩
    have hlen : ([] ++ (wrU32 (low31 id) ++ (flags :: (wrU24 payload.length ++ payload)))).length =
        8 + payload.length := by
      simp only [List.nil_append, List.length_append, List.length_cons, length_wrU32, length_wrU24]
      omega
    rw [hlen] at hshort ⊢
    exact parseFrame_data Z fuel flags rest dec hfit (by omega)

/-! ## Whole connections -/

/-- Parsing goes on behind a frame that was cut off. -/
theorem parseFrames_cons {buf rest left : Bytes} {frame : Frame} {frames : List Frame}
    {dec' dec'' : NvCodec D I}
    (hframe : parseFrame Z fuel (buf ++ rest) dec = (.ok (some (frame, buf.length)), dec'))
    (hrest : parseFrames Z fuel rest dec' = (.ok (frames, left), dec'')) :
    parseFrames Z fuel (buf ++ rest) dec = (.ok (frame :: frames, left), dec'') := by
  rw [parseFrames]
  split
  · rename_i e nv1 h
    simp [hframe] at h
  · rename_i nv1 h
    simp [hframe] at h
  · rename_i frame' n nv1 h
    rw [hframe] at h
    simp only [Prod.mk.injEq, Except.ok.injEq, Option.some.injEq] at h
    obtain ⟨⟨rfl, rfl⟩, rfl⟩ := h
    rw [List.drop_left, hrest]

/-- From paired codecs on, all frames are written and parse back, and no byte is left. -/
theorem frames_roundtrip (hZ : Z.Lawful Sync Ready Flushed) : ∀ (frames : List Frame)
    (enc dec : NvCodec D I), (∀ f ∈ frames, f.Fits) → (∀ f ∈ frames, f.loopFuel ≤ fuel) →
    Paired Sync Ready enc dec →
    ∃ bufs enc' dec', writeFrames Z fuel frames enc = (.ok bufs, enc') ∧
      Paired Sync Ready enc' dec' ∧
      ((∀ buf ∈ bufs, buf.length < 8 + 2 ^ 24) →
        parseFrames Z fuel bufs.flatten dec = (.ok (frames, []), dec'))
  | [], enc, dec, _, _, hp => by
    refine ⟨[], enc, dec, rfl, hp, fun _ => ?_⟩
    rw [List.flatten_nil, parseFrames]
    rfl
  | frame :: frames, enc, dec, hfit, hfuel, hp => by
    obtain ⟨buf, enc₁, dec₁, hwrite, hp₁, hparse⟩ :=
      frame_roundtrip hZ frame (hfit _ (by simp)) (hfuel _ (by simp)) hp
    obtain ⟨bufs, enc₂, dec₂, hwrites, hp₂, hparses⟩ :=
      frames_roundtrip hZ frames enc₁ dec₁ (fun f hf => hfit f (by simp [hf]))
        (fun f hf => hfuel f (by simp [hf])) hp₁
    refine ⟨buf :: bufs, enc₂, dec₂, by simp [writeFrames, hwrite, hwrites], hp₂, fun hshort => ?_⟩
    rw [List.flatten_cons]
    exact parseFrames_cons (hparse (hshort buf (by simp)) bufs.flatten)
      (hparses fun b hb => hshort b (by simp [hb]))

/-- Fresh codecs are paired. -/
theorem new_paired (hZ : Z.Lawful Sync Ready Flushed) :
    ∃ nv, NvCodec.new Z = .ok nv ∧ Paired Sync Ready nv nv := by
  obtain ⟨d, hd, hr, hs⟩ := hZ.start
  exact ⟨⟨d, Z.newInflate, false⟩, by simp [NvCodec.new, hd], hs, hr⟩

/-- Frames written one after another through a fresh codec, each with a body shorter than `2^24`,
    are parsed back by a fresh codec: the same frames, and all bytes consumed. -/
theorem parseFrames_writeFrames (hZ : Z.Lawful Sync Ready Flushed) (frames : List Frame)
    (hfit : ∀ f ∈ frames, f.Fits) :
    ∃ nv fuel₀, NvCodec.new Z = .ok nv ∧ ∀ fuel, fuel₀ ≤ fuel →
      ∃ bufs, (writeFrames Z fuel frames nv).1 = .ok bufs ∧
        ((∀ buf ∈ bufs, buf.length < 8 + 2 ^ 24) →
          (parseFrames Z fuel bufs.flatten nv).1 = .ok (frames, [])) := by
  obtain ⟨nv, hnew, hp⟩ := new_paired hZ
  refine ⟨nv, (frames.map Frame.loopFuel).sum, hnew, fun fuel hfuel => ?_⟩
  have hloop : ∀ f ∈ frames, f.loopFuel ≤ fuel := fun f hf =>
    le_trans (List.single_le_sum (by simp) _ (List.mem_map_of_mem hf)) hfuel
  obtain ⟨bufs, enc', dec', hwrite, -, hparse⟩ := frames_roundtrip hZ frames nv nv hfit hloop hp
  exact ⟨bufs, by rw [hwrite], fun hshort => by rw [hparse hshort]⟩

end Connection

/-- Streams that pass bytes through unchanged. -/
def storedFlate : Flate Unit Unit where
  newDeflate := ()
  deflateDictionary := fun _ _ => .ok ()
  compressVec := fun _ input spare => (.ok (min input.length spare, input.take spare), ())
  newInflate := ()
  inflateDictionary := fun _ _ => .ok ()
  decompressVec := fun _ input spare => (.ok, min input.length spare, input.take spare, ())

/-- Passing bytes through keeps all of the promises: what is outstanding on both sides is equal. -/
theorem storedFlate_lawful :
    storedFlate.Lawful (fun _ _ _ plain wire => plain = wire) (fun _ => True) (fun _ => True) where
  start := ⟨(), rfl, trivial, rfl⟩
  ready_of_flushed := fun _ => trivial
  compress := by
    rintro set d i plain wire input spare rfl
    refine ⟨min input.length spare, input.take spare, (), rfl, by omega, by simp, ?_, ?_⟩
    · rw [Nat.min_comm, ← List.take_take, List.take_length]
    · intro hroom
      rw [List.length_take] at hroom
      exact ⟨by omega, trivial⟩
  idle := by
    rintro d d' spare consumed out - - hcall
    simp only [storedFlate, List.take_nil, Prod.mk.injEq, Except.ok.injEq] at hcall
    exact hcall.1.2.symm
  bound := by
    rintro d d₁ d₂ input spare consumed out consumed₂ out₂ - hcall hspare hcall₂
    simp only [storedFlate, Prod.mk.injEq, Except.ok.injEq] at hcall hcall₂
    obtain ⟨⟨rfl, -⟩, -⟩ := hcall
    obtain ⟨⟨-, rfl⟩, -⟩ := hcall₂
    simp only [Nat.min_self, List.drop_length, List.take_nil, List.length_nil]
    omega
  ratio := by
    rintro set d₀ d i plain wire - rfl -
    omega
  decompress := by
    rintro set d i plain wire spare rfl - -
    refine .inl ⟨min plain.length spare, plain.take spare, (), rfl, by omega, by simp,
      List.take_prefix .., ?_, ?_⟩
    · rw [List.length_take, Nat.min_comm]
    · intro hroom
      rw [List.length_take] at hroom ⊢
      simp only [List.drop_eq_nil_iff]
      omega

/-- Data and control frames without headers, as a client sends them. -/
def sampleFrames : List Frame :=
  [.data 1 1 [104, 105], .rstStream 3 5, .ping 42, .goAway 5 0, .settings [(7, 0x7fffffff)],
    .windowUpdate 1 65536]

/-- They come back. -/
theorem sampleFrames_roundtrip : ∃ nv bytes fuel₀, NvCodec.new storedFlate = .ok nv ∧
    ∀ fuel, fuel₀ ≤ fuel → (writeFrames storedFlate fuel sampleFrames nv).1 = .ok bytes ∧
      (parseFrames storedFlate fuel bytes.flatten nv).1 = .ok (sampleFrames, []) := by
  have hfit : ∀ f ∈ sampleFrames, f.Fits := by simp [sampleFrames, Frame.Fits]
  obtain ⟨nv, fuel₀, hnew, h⟩ := parseFrames_writeFrames storedFlate_lawful sampleFrames hfit
  obtain ⟨bytes, hbytes, hshort⟩ : ∃ bytes, (∀ fuel,
      (writeFrames storedFlate fuel sampleFrames nv).1 = .ok bytes) ∧
      ∀ buf ∈ bytes, buf.length < 8 + 2 ^ 24 := by
    refine ⟨_, fun fuel => rfl, ?_⟩
    decide
  refine ⟨nv, bytes, fuel₀, hnew, fun fuel hfuel => ?_⟩
  obtain ⟨bufs, hwrite, hparse⟩ := h fuel hfuel
  rw [hbytes fuel, Except.ok.injEq] at hwrite
  subst hwrite
  exact ⟨hbytes fuel, hparse hshort⟩

end ContainerdRs.Cri.Spdy
