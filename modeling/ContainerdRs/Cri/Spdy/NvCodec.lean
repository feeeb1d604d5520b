import ContainerdRs.Lib.BigEndian
import ContainerdRs.CoreTypes

/-!
# SPDY name/value blocks (`write_nv_block`, `read_nv_block`, `NvCodec`)

A header block is a count and length-prefixed names and values.  On the wire it goes through one
zlib stream per direction that lives as long as the connection, flushed after every block and
seeded with a fixed dictionary.  zlib is not part of the repository: `Flate` is its interface as
`flate2` shows it, `Flate.Lawful` what its documentation promises.

* `readNvBlock_append` — a plaintext block reads back, whatever follows.
* `compressNv_spec` — a block comes out of the deflate loop whole and flushed.
* `decompressNv_spec` — the inflate loop gives the block back and leaves both streams in step.
-/

set_option autoImplicit false

namespace ContainerdRs.Cri.Spdy

open BigEndian

/-- A list of header names and values. -/
abbrev Headers := List (String × String)

/-- How a call ends without a value: an `io::Error` with its text, a slice out of range, or a
    loop that did not end within the fuel. -/
inductive Fail where
  | io (text : String)
  | panicked
  | outOfFuel
  deriving DecidableEq, Repr

/-! ## Integer fields -/

/-- `rd_u32`: it panics on fewer than four bytes. -/
def rdU32 : Bytes → Except Fail UInt32
  | b0 :: b1 :: b2 :: b3 :: _ => .ok (UInt32.ofNat (ofBytes [b0, b1, b2, b3]))
  | _ => .error .panicked

/-- `rd_u24` of three bytes. -/
def rdU24 (b0 b1 b2 : UInt8) : Nat := b0.toNat <<< 16 ||| b1.toNat <<< 8 ||| b2.toNat

/-- `wr_u32`: the bytes it appends. -/
def wrU32 (v : UInt32) : Bytes := toBytes 4 v.toNat

/-- `wr_u24`: the bytes it appends. -/
def wrU24 (v : Nat) : Bytes := [UInt8.ofNat (v >>> 16), UInt8.ofNat (v >>> 8), UInt8.ofNat v]

@[simp] theorem length_wrU32 (v : UInt32) : (wrU32 v).length = 4 := length_toBytes 4 _

@[simp] theorem length_wrU24 (v : Nat) : (wrU24 v).length = 3 := rfl

/-- The four bytes of a word, read as a number. -/
theorem ofBytes_word (v : UInt32) :
    UInt32.ofNat (ofBytes [UInt8.ofNat (v.toNat / 256 ^ 3), UInt8.ofNat (v.toNat / 256 ^ 2),
      UInt8.ofNat (v.toNat / 256 ^ 1), UInt8.ofNat (v.toNat / 256 ^ 0)]) = v := by
  have hv : ofBytes (toBytes 4 v.toNat) = v.toNat := by
    rw [ofBytes_toBytes]
    exact Nat.mod_eq_of_lt v.toNat_lt
  show UInt32.ofNat (ofBytes (toBytes 4 v.toNat)) = v
  rw [hv, UInt32.ofNat_toNat]

@[simp] theorem rdU32_wrU32 (v : UInt32) (rest : Bytes) : rdU32 (wrU32 v ++ rest) = .ok v := by
  simp only [wrU32, toBytes, List.cons_append, List.nil_append, rdU32, ofBytes_word]

/-- Three bytes read with shifts are the big-endian number. -/
theorem rdU24_eq (b0 b1 b2 : UInt8) : rdU24 b0 b1 b2 = ofBytes [b0, b1, b2] := by
  have h1 := b1.toNat_lt
  have h2 := b2.toNat_lt
  have e1 : b0.toNat <<< 16 ||| b1.toNat <<< 8 = (b0.toNat <<< 8 + b1.toNat) <<< 8 := by
    rw [show b0.toNat <<< 16 = (b0.toNat <<< 8) <<< 8 by rw [← Nat.shiftLeft_add],
      ← Nat.shiftLeft_or_distrib, Nat.shiftLeft_add_eq_or_of_lt h1]
  rw [rdU24, e1, ← Nat.shiftLeft_add_eq_or_of_lt h2]
  simp only [ofBytes, List.foldl_cons, List.foldl_nil, Nat.shiftLeft_eq]
  omega

/-- A length below `2^24` reads back. -/
theorem rdU24_wrU24 {v : Nat} (hv : v < 2 ^ 24) :
    rdU24 (UInt8.ofNat (v >>> 16)) (UInt8.ofNat (v >>> 8)) (UInt8.ofNat v) = v := by
  have h := ofBytes_toBytes 3 v
  rw [Nat.mod_eq_of_lt (by omega)] at h
  rw [rdU24_eq]
  simpa [toBytes, Nat.shiftRight_eq_div_pow] using h

/-! ## The plaintext block -/

/-- Text of the bytes of a Rust string. -/
def asBytes (s : String) : Bytes := s.toUTF8.data.toList

/-- One scalar value at the front of `b` and the bytes it takes, or the length of the maximal
    ill-formed part that one replacement character stands for. -/
def utf8Step (b0 : UInt8) (rest : Bytes) : Char × Nat :=
  let cont (b : UInt8) : Bool := 0x80 ≤ b && b ≤ 0xbf
  let low (b : UInt8) : Nat := b.toNat % 64
  if b0 < 0x80 then (Char.ofNat b0.toNat, 1)
  else if 0xc2 ≤ b0 && b0 ≤ 0xdf then
    match rest with
    | b1 :: _ => if cont b1 then (Char.ofNat (b0.toNat % 32 * 64 + low b1), 2) else ('\uFFFD', 1)
    | [] => ('\uFFFD', 1)
  else if 0xe0 ≤ b0 && b0 ≤ 0xef then
    match rest with
    | b1 :: more =>
      -- no overlong forms and no surrogates
      if cont b1 && (b0 != 0xe0 || 0xa0 ≤ b1) && (b0 != 0xed || b1 ≤ 0x9f) then
        match more with
        | b2 :: _ =>
          if cont b2 then (Char.ofNat (b0.toNat % 16 * 4096 + low b1 * 64 + low b2), 3)
          else ('\uFFFD', 2)
        | [] => ('\uFFFD', 2)
      else ('\uFFFD', 1)
    | [] => ('\uFFFD', 1)
  else if 0xf0 ≤ b0 && b0 ≤ 0xf4 then
    match rest with
    | b1 :: more =>
      if cont b1 && (b0 != 0xf0 || 0x90 ≤ b1) && (b0 != 0xf4 || b1 ≤ 0x8f) then
        match more with
        | b2 :: more' =>
          if cont b2 then
            match more' with
            | b3 :: _ =>
              if cont b3 then
                (Char.ofNat (b0.toNat % 8 * 262144 + low b1 * 4096 + low b2 * 64 + low b3), 4)
              else ('\uFFFD', 3)
            | [] => ('\uFFFD', 3)
          else ('\uFFFD', 2)
        | [] => ('\uFFFD', 2)
      else ('\uFFFD', 1)
    | [] => ('\uFFFD', 1)
  else ('\uFFFD', 1)

/-- The characters of `b`, with a replacement character for each ill-formed part. -/
def lossyChars : Nat → Bytes → List Char
  | _, [] => []
  | 0, _ => []
  | n + 1, b0 :: rest =>
    let (c, width) := utf8Step b0 rest
    c :: lossyChars n (rest.drop (width - 1))

/-- `String::from_utf8_lossy`: well-formed text is kept as it is. -/
def fromUtf8Lossy (b : Bytes) : String :=
  match String.fromUTF8? ⟨b.toArray⟩ with
  | some s => s
  | none => String.ofList (lossyChars b.length b)

/-- The text of a string comes back. -/
@[simp] theorem fromUtf8Lossy_asBytes (s : String) : fromUtf8Lossy (asBytes s) = s := by
  have hs : String.fromUTF8? ⟨(asBytes s).toArray⟩ = some s := by
    have hb : (⟨(asBytes s).toArray⟩ : ByteArray) = s.toUTF8 := by simp [asBytes]
    rw [hb]
    simp only [String.fromUTF8?, String.toUTF8_eq_toByteArray, dif_pos s.isValidUTF8]
    rfl
  simp [fromUtf8Lossy, hs]

/-- `write_nv_block`, one length-prefixed text. -/
def wrText (s : String) : Bytes := wrU32 (UInt32.ofNat (asBytes s).length) ++ asBytes s

/-- `write_nv_block`, the pairs. -/
def wrPairs : Headers → Bytes
  | [] => []
  | (k, v) :: rest => wrText k ++ (wrText v ++ wrPairs rest)

/-- `write_nv_block`. -/
def writeNvBlock (headers : Headers) : Bytes :=
  wrU32 (UInt32.ofNat headers.length) ++ wrPairs headers

/-- `read_nv_block`, the closure `take`: the text at `off` and the offset behind it. -/
def takeText (buf : Bytes) (off : Nat) : Except Fail (String × Nat) :=
  if buf.length < off + 4 then .error (.io "spdy nv: truncated length")
  else
    match rdU32 (buf.drop off) with
    | .error e => .error e
    | .ok n =>
      if buf.length < off + 4 + n.toNat then .error (.io "spdy nv: truncated value")
      else .ok (fromUtf8Lossy ((buf.drop (off + 4)).take n.toNat), off + 4 + n.toNat)

/-- `read_nv_block`, the loop over the pairs. -/
def readPairs (buf : Bytes) : Nat → Nat → Except Fail Headers
  | 0, _ => .ok []
  | n + 1, off =>
    match takeText buf off with
    | .error e => .error e
    | .ok (name, off1) =>
      match takeText buf off1 with
      | .error e => .error e
      | .ok (value, off2) =>
        match readPairs buf n off2 with
        | .error e => .error e
        | .ok pairs => .ok ((name, value) :: pairs)

/-- `read_nv_block`. -/
def readNvBlock (buf : Bytes) : Except Fail Headers :=
  if buf.length < 4 then .ok []
  else
    match rdU32 buf with
    | .error e => .error e
    | .ok count => readPairs buf count.toNat 4

/-- Names and values are shorter than `2^32` bytes. -/
def HeadersFit (headers : Headers) : Prop :=
  ∀ h ∈ headers, (asBytes h.1).length < 2 ^ 32 ∧ (asBytes h.2).length < 2 ^ 32

theorem length_wrText (s : String) : (wrText s).length = 4 + (asBytes s).length := by
  simp [wrText]

/-- Every pair takes eight bytes or more. -/
theorem length_wrPairs : ∀ headers : Headers, 8 * headers.length ≤ (wrPairs headers).length
  | [] => by simp [wrPairs]
  | (k, v) :: rest => by
    have := length_wrPairs rest
    simp only [wrPairs, List.length_append, length_wrText, List.length_cons]
    omega

/-- The reader finds a text that the writer put behind `pre`. -/
theorem takeText_wrText {s : String} (hs : (asBytes s).length < 2 ^ 32) (pre rest : Bytes) :
    takeText (pre ++ (wrText s ++ rest)) pre.length = .ok (s, pre.length + (wrText s).length) := by
  have hn : (UInt32.ofNat (asBytes s).length).toNat = (asBytes s).length :=
    UInt32.toNat_ofNat_of_lt' hs
  have hdrop : (pre ++ (wrText s ++ rest)).drop pre.length =
      wrU32 (UInt32.ofNat (asBytes s).length) ++ (asBytes s ++ rest) := by
    simp [wrText]
  have hdrop4 : (pre ++ (wrText s ++ rest)).drop (pre.length + 4) = asBytes s ++ rest := by
    rw [← List.drop_drop, hdrop]
    exact List.drop_left' (length_wrU32 _)
  have hlen : (pre ++ (wrText s ++ rest)).length =
      pre.length + 4 + (asBytes s).length + rest.length := by
    simp only [List.length_append, length_wrText]
    omega
  unfold takeText
  rw [if_neg (by omega), hdrop, rdU32_wrU32]
  simp only [hn]
  rw [if_neg (by omega), hdrop4, List.take_left, fromUtf8Lossy_asBytes, length_wrText,
    Nat.add_assoc]

/-- The loop of the reader over the pairs the writer put behind `pre`, whatever follows. -/
theorem readPairs_wrPairs : ∀ (headers : Headers) (pre extra : Bytes), HeadersFit headers →
    readPairs (pre ++ (wrPairs headers ++ extra)) headers.length pre.length = .ok headers
  | [], pre, extra, _ => by simp [readPairs]
  | (k, v) :: rest, pre, extra, h => by
    have hkv := h (k, v) (by simp)
    have hrest : HeadersFit rest := fun x hx => h x (by simp [hx])
    have hname := takeText_wrText hkv.1 pre (wrText v ++ (wrPairs rest ++ extra))
    have hvalue := takeText_wrText hkv.2 (pre ++ wrText k) (wrPairs rest ++ extra)
    have ih := readPairs_wrPairs rest (pre ++ wrText k ++ wrText v) extra hrest
    simp only [List.append_assoc, List.length_append] at hvalue ih
    simp only [wrPairs, List.length_cons, readPairs, List.append_assoc]
    rw [hname]
    simp only
    rw [hvalue]
    simp only
    rw [← Nat.add_assoc] at ih
    rw [ih]

/-- The reader stops at the end of a block whose count fits in 32 bits. -/
theorem readNvBlock_append {headers : Headers} (hfit : HeadersFit headers)
    (hcount : headers.length < 2 ^ 32) (extra : Bytes) :
    readNvBlock (writeNvBlock headers ++ extra) = .ok headers := by
  have hn : (UInt32.ofNat headers.length).toNat = headers.length :=
    UInt32.toNat_ofNat_of_lt' hcount
  have hpairs := readPairs_wrPairs headers (wrU32 (UInt32.ofNat headers.length)) extra hfit
  rw [length_wrU32] at hpairs
  unfold readNvBlock
  rw [if_neg (by simp [writeNvBlock])]
  rw [writeNvBlock, List.append_assoc, rdU32_wrU32]
  simp only [hn]
  exact hpairs

/-- A plaintext block whose count fits in 32 bits reads back. -/
theorem readNvBlock_writeNvBlock {headers : Headers} (hfit : HeadersFit headers)
    (hcount : headers.length < 2 ^ 32) : readNvBlock (writeNvBlock headers) = .ok headers := by
  have happend := readNvBlock_append hfit hcount []
  rwa [List.append_nil] at happend

/-! ## The zlib streams -/

/-- `SPDY_DICTIONARY`, its first part: texts with their length in front. -/
def dictionaryWords : List String :=
  ["options", "head", "post", "put", "delete", "trace", "accept", "accept-charset",
   "accept-encoding", "accept-language", "accept-ranges", "age", "allow", "authorization",
   "cache-control", "connection", "content-base", "content-encoding", "content-language",
   "content-length", "content-location", "content-md5", "content-range", "content-type", "date",
   "etag", "expect", "expires", "from", "host", "if-match", "if-modified-since", "if-none-match",
   "if-range", "if-unmodified-since", "last-modified", "location", "max-forwards", "pragma",
   "proxy-authenticate", "proxy-authorization", "range", "referer", "retry-after", "server", "te",
   "trailer", "transfer-encoding", "upgrade", "user-agent", "vary", "via", "warning",
   "www-authenticate", "method", "get", "status", "200 OK", "version", "HTTP/1.1", "url",
   "public", "set-cookie", "keep-alive", "origin"]

/-- `SPDY_DICTIONARY`, its second part. -/
def dictionaryText : String :=
  "10010120120220520630030230330430530630740240540640740840941041141241341441541641750250" ++
  "4505203 Non-Authoritative Information204 No Content301 Moved Permanently400 Bad Reques" ++
  "t401 Unauthorized403 Forbidden404 Not Found500 Internal Server Error501 Not Implemente" ++
  "d503 Service UnavailableJan Feb Mar Apr May Jun Jul Aug Sept Oct Nov Dec 00:00:00 Mon," ++
  " Tue, Wed, Thu, Fri, Sat, Sun, GMTchunked,text/html,image/png,image/jpg,image/gif,appl" ++
  "ication/xml,application/xhtml+xml,text/plain,text/javascript,publicprivatemax-age=gzip" ++
  ",deflate,sdchcharset=utf-8charset=iso-8859-1,utf-,*,enq=0."

/-- `SPDY_DICTIONARY`. -/
def spdyDictionary : Bytes := dictionaryWords.flatMap wrText ++ asBytes dictionaryText

/-- What one `decompress_vec` call says. -/
inductive InflateStatus where
  | ok
  | needsDictionary (error : String)
  | failed (error : String)
  deriving DecidableEq, Repr

/-- `flate2` with its zlib backend: `D` and `I` are the states of a compressor and of a
    decompressor.  A call that takes a vector gets the room left in it and returns the input
    bytes it consumed and the bytes it appended; errors carry their debug text. -/
structure Flate (D I : Type) where
  /-- `Compress::new(Compression::default(), true)`. -/
  newDeflate : D
  /-- `Compress::set_dictionary`. -/
  deflateDictionary : D → Bytes → Except String D
  /-- `Compress::compress_vec` with `FlushCompress::Sync`. -/
  compressVec : D → Bytes → Nat → Except String (Nat × Bytes) × D
  /-- `Decompress::new(true)`. -/
  newInflate : I
  /-- `Decompress::set_dictionary`. -/
  inflateDictionary : I → Bytes → Except String I
  /-- `Decompress::decompress_vec` with `FlushDecompress::Sync`. -/
  decompressVec : I → Bytes → Nat → InflateStatus × Nat × Bytes × I

/-- `NvCodec`. -/
structure NvCodec (D I : Type) where
  deflate : D
  inflate : I
  inflateDictSet : Bool

/-- `Vec::reserve(additional)` of a byte vector: its new capacity. -/
def reserve (cap len additional : Nat) : Nat :=
  if additional ≤ cap - len then cap else max (max (2 * cap) (len + additional)) 8

variable {D I : Type}

/-- `NvCodec::new`. -/
def NvCodec.new (Z : Flate D I) : Except Fail (NvCodec D I) :=
  match Z.deflateDictionary Z.newDeflate spdyDictionary with
  | .error _ => .error .panicked
  | .ok d => .ok { deflate := d, inflate := Z.newInflate, inflateDictSet := false }

/-- `compress_nv`, the loop: the compressor, the output with its capacity and the offset into
    the plaintext. -/
def compressLoop (Z : Flate D I) (plain : Bytes) :
    Nat → D → Bytes → Nat → Nat → Except Fail Bytes × D
  | 0, d, _, _, _ => (.error .outOfFuel, d)
  | fuel + 1, d, out, cap, inOff =>
    match Z.compressVec d (plain.drop inOff) (cap - out.length) with
    | (.error e, d1) => (.error (.io ("spdy deflate: " ++ e)), d1)
    | (.ok (consumed, produced), d1) =>
      let inOff1 := inOff + consumed
      let out1 := out ++ produced
      if plain.length ≤ inOff1 ∧ produced = [] then (.ok out1, d1)
      else
        let cap1 := if out1.length = cap then reserve cap out1.length 256 else cap
        if plain.length ≤ inOff1 then
          -- drain any remaining flushed bytes
          match Z.compressVec d1 [] (cap1 - out1.length) with
          | (.error e, d2) => (.error (.io ("spdy deflate: " ++ e)), d2)
          | (.ok (_, drained), d2) =>
            if drained = [] then (.ok (out1 ++ drained), d2)
            else compressLoop Z plain fuel d2 (out1 ++ drained) cap1 inOff1
        else compressLoop Z plain fuel d1 out1 cap1 inOff1

/-- `compress_nv`. -/
def compressNv (Z : Flate D I) (fuel : Nat) (nv : NvCodec D I) (headers : Headers) :
    Except Fail Bytes × NvCodec D I :=
  let plain := writeNvBlock headers
  let (r, d) := compressLoop Z plain fuel nv.deflate [] plain.length 0
  (r, { nv with deflate := d })

/-- `decompress_nv`, the loop: the codec, the output with its capacity and the offset into the
    block. -/
def decompressLoop (Z : Flate D I) (raw : Bytes) :
    Nat → NvCodec D I → Bytes → Nat → Nat → Except Fail Bytes × NvCodec D I
  | 0, nv, _, _, _ => (.error .outOfFuel, nv)
  | fuel + 1, nv, out, cap, inOff =>
    match Z.decompressVec nv.inflate (raw.drop inOff) (cap - out.length) with
    | (.ok, consumed, produced, i) =>
      let inOff1 := inOff + consumed
      let out1 := out ++ produced
      if raw.length ≤ inOff1 ∧ produced = [] then (.ok out1, { nv with inflate := i })
      else
        let cap1 := if out1.length = cap then reserve cap out1.length (max cap 256) else cap
        decompressLoop Z raw fuel { nv with inflate := i } out1 cap1 inOff1
    | (.needsDictionary e, consumed, produced, i) =>
      if nv.inflateDictSet then (.error (.io ("spdy inflate: " ++ e)), { nv with inflate := i })
      else
        match Z.inflateDictionary i spdyDictionary with
        | .error e' => (.error (.io ("spdy inflate dict: " ++ e')), { nv with inflate := i })
        | .ok i' =>
          decompressLoop Z raw fuel { nv with inflate := i', inflateDictSet := true }
            (out ++ produced) cap (inOff + consumed)
    | (.failed e, _, _, i) => (.error (.io ("spdy inflate: " ++ e)), { nv with inflate := i })

/-- `decompress_nv`. -/
def decompressNv (Z : Flate D I) (fuel : Nat) (nv : NvCodec D I) (raw : Bytes) :
    Except Fail Headers × NvCodec D I :=
  match decompressLoop Z raw fuel nv [] (raw.length * 4 + 64) 0 with
  | (.error e, nv1) => (.error e, nv1)
  | (.ok out, nv1) => (readNvBlock out, nv1)

/-! ## What zlib promises -/

/-- The behaviour of zlib the loops rely on.

    `Sync set d i plain wire`: the two streams are in step (with the dictionary of `i` set or
    not), except that `plain` went into `d` and has not come out of `i` yet, and `wire` came out
    of `d` and has not gone into `i` yet.  `Flushed d`: a sync flush of `d` has completed.
    `Ready d`: `d` is fresh or flushed. -/
structure Flate.Lawful (Z : Flate D I) (Sync : Bool → D → I → Bytes → Bytes → Prop)
    (Ready Flushed : D → Prop) : Prop where
  /-- A fresh compressor takes the dictionary, and a fresh decompressor is in step with it. -/
  start : ∃ d, Z.deflateDictionary Z.newDeflate spdyDictionary = .ok d ∧
    Ready d ∧ Sync false d Z.newInflate [] []
  ready_of_flushed : ∀ {d}, Flushed d → Ready d
  /-- A call appends output for the input it consumes; when it leaves room, it has consumed all
      of the input and completed the flush. -/
  compress : ∀ {set d i plain wire} (input : Bytes) (spare : Nat), Sync set d i plain wire →
    ∃ consumed out d', Z.compressVec d input spare = (.ok (consumed, out), d') ∧
      consumed ≤ input.length ∧ out.length ≤ spare ∧
      Sync set d' i (plain ++ input.take consumed) (wire ++ out) ∧
      (out.length < spare → consumed = input.length ∧ Flushed d')
  /-- A completed flush is not repeated. -/
  idle : ∀ {d d' spare consumed out}, Flushed d → 0 < spare →
    Z.compressVec d [] spare = (.ok (consumed, out), d') → out = []
  /-- `deflateBound`: what is left of a block after a call with as much room as the block is
      long fits into as much room again (256 bytes for a short block). -/
  bound : ∀ {d d₁ d₂ input spare consumed out consumed₂ out₂}, Ready d →
    Z.compressVec d input input.length = (.ok (consumed, out), d₁) →
    max input.length 256 ≤ spare →
    Z.compressVec d₁ (input.drop consumed) spare = (.ok (consumed₂, out₂), d₂) →
    out₂.length < spare
  /-- Deflate shrinks at most 1032 times. -/
  ratio : ∀ {set d₀ d i plain wire}, Sync set d₀ i [] [] → Sync set d i plain wire → Flushed d →
    plain.length ≤ 1032 * wire.length
  /-- On flushed output a call gives the next part of the plaintext, all of it when it leaves
      room; or it asks, before any output, for the dictionary that has not been set. -/
  decompress : ∀ {set d i plain wire} (spare : Nat), Sync set d i plain wire → Flushed d →
    0 < spare →
    (∃ consumed out i', Z.decompressVec i wire spare = (.ok, consumed, out, i') ∧
      consumed ≤ wire.length ∧ out.length ≤ spare ∧ out <+: plain ∧
      Sync set d i' (plain.drop out.length) (wire.drop consumed) ∧
      (out.length < spare → wire.drop consumed = [] ∧ plain.drop out.length = [])) ∨
    (set = false ∧ ∃ e consumed i' i'',
      Z.decompressVec i wire spare = (.needsDictionary e, consumed, [], i') ∧
      consumed ≤ wire.length ∧ Z.inflateDictionary i' spdyDictionary = .ok i'' ∧
      Sync true d i'' plain (wire.drop consumed))

/-! ## The loops -/

section Loops

variable {Z : Flate D I} {Sync : Bool → D → I → Bytes → Bytes → Prop} {Ready Flushed : D → Prop}

theorem length_writeNvBlock (headers : Headers) :
    4 + 8 * headers.length ≤ (writeNvBlock headers).length := by
  have := length_wrPairs headers
  simp only [writeNvBlock, List.length_append, length_wrU32]
  omega

/-- A call on a flushed compressor without input changes nothing on the wire. -/
theorem Flate.Lawful.compress_idle (hZ : Z.Lawful Sync Ready Flushed) {set : Bool} {d : D} {i : I}
    {plain wire : Bytes} {spare : Nat} (hs : Sync set d i plain wire) (hf : Flushed d)
    (hspare : 0 < spare) :
    ∃ consumed d', Z.compressVec d [] spare = (.ok (consumed, []), d') ∧
      Sync set d' i plain wire ∧ Flushed d' := by
  obtain ⟨consumed, out, d', hcall, -, -, hs', hdone⟩ := hZ.compress [] spare hs
  have hout : out = [] := hZ.idle hf hspare hcall
  subst hout
  simp only [List.take_nil, List.append_nil] at hs'
  exact ⟨consumed, d', hcall, hs', (hdone (by simpa using hspare)).2⟩

/-- The loop on a compressor that has flushed all of the plaintext, with room left. -/
theorem compressLoop_flushed (hZ : Z.Lawful Sync Ready Flushed) {set : Bool} {d : D} {i : I}
    {plain out : Bytes} {cap inOff : Nat} (fuel : Nat) (hs : Sync set d i plain out)
    (hf : Flushed d) (hin : plain.length ≤ inOff) (hcap : out.length < cap) :
    ∃ d', compressLoop Z plain (fuel + 1) d out cap inOff = (.ok out, d') ∧
      Sync set d' i plain out ∧ Flushed d' := by
  obtain ⟨consumed, d', hcall, hs', hf'⟩ :=
    hZ.compress_idle hs hf (show 0 < cap - out.length by omega)
  refine ⟨d', ?_, hs', hf'⟩
  have hdrop : plain.drop inOff = [] := List.drop_eq_nil_of_le hin
  have hin' : plain.length ≤ inOff + consumed := by omega
  simp [compressLoop, hdrop, hcall, hin']

/-- One iteration that leaves room: the block is complete. -/
theorem compressLoop_room (hZ : Z.Lawful Sync Ready Flushed) {set : Bool} {d d₁ : D} {i : I}
    {plain out produced : Bytes} {cap inOff consumed : Nat} (fuel : Nat)
    (hcall : Z.compressVec d (plain.drop inOff) (cap - out.length) =
      (.ok (consumed, produced), d₁))
    (hs : Sync set d₁ i plain (out ++ produced)) (hf : Flushed d₁)
    (hin : plain.length ≤ inOff + consumed) (hroom : (out ++ produced).length < cap) :
    ∃ d', compressLoop Z plain (fuel + 1) d out cap inOff = (.ok (out ++ produced), d') ∧
      Sync set d' i plain (out ++ produced) ∧ Flushed d' := by
  by_cases hp : produced = []
  · exact ⟨d₁, by simp [compressLoop, hcall, hin, hp], hs, hf⟩
  · -- the drain call finds nothing to do
    obtain ⟨c, d₂, hdrain, hs₂, hf₂⟩ :=
      hZ.compress_idle hs hf (show 0 < cap - (out ++ produced).length by omega)
    refine ⟨d₂, ?_, hs₂, hf₂⟩
    have hcap : ¬ (out ++ produced).length = cap := by omega
    simp only [compressLoop, hcall, hin, hp, hcap, hdrain, and_false, if_false, if_true,
      List.append_nil]

/-- `compress_nv` ends: the whole block is on the wire and flushed. -/
theorem compressNv_spec (hZ : Z.Lawful Sync Ready Flushed) {set : Bool} {nv : NvCodec D I} {i : I}
    (headers : Headers) {fuel : Nat} (hfuel : 2 ≤ fuel) (hs : Sync set nv.deflate i [] [])
    (hr : Ready nv.deflate) :
    ∃ wire d, compressNv Z fuel nv headers = (.ok wire, { nv with deflate := d }) ∧
      Sync set d i (writeNvBlock headers) wire ∧ Flushed d := by
  obtain ⟨fuel, rfl⟩ : ∃ n, fuel = n + 2 := ⟨fuel - 2, by omega⟩
  suffices h : ∀ plain : Bytes, 4 ≤ plain.length →
      ∃ wire d, compressLoop Z plain (fuel + 2) nv.deflate [] plain.length 0 = (.ok wire, d) ∧
        Sync set d i plain wire ∧ Flushed d by
    obtain ⟨wire, d, hloop, hsync⟩ := h (writeNvBlock headers)
      (by have := length_writeNvBlock headers; omega)
    exact ⟨wire, d, by simp [compressNv, hloop], hsync⟩
  intro plain hplain
  obtain ⟨k, out, d₁, hcall, hk, hout, hs₁, hdone⟩ := hZ.compress plain plain.length hs
  simp only [List.nil_append] at hs₁
  have hcall' : Z.compressVec nv.deflate (plain.drop 0) (plain.length - ([] : Bytes).length) =
      (.ok (k, out), d₁) := by simpa using hcall
  rcases Nat.lt_or_ge out.length plain.length with hroom | hfull
  · -- the block fitted into its own length
    obtain ⟨rfl, hf₁⟩ := hdone hroom
    rw [List.take_length] at hs₁
    obtain ⟨d', h⟩ := compressLoop_room hZ (fuel + 1) hcall' (by simpa using hs₁) hf₁ (by omega)
      (by simpa using hroom)
    exact ⟨_, d', h⟩
  · -- the output is full: it grows, and the rest fits
    have hlen : out.length = plain.length := by omega
    have hne : out ≠ [] := by
      rintro rfl
      simp only [List.length_nil] at hlen
      omega
    have hcap : reserve plain.length plain.length 256 - plain.length = max plain.length 256 := by
      simp only [reserve]
      split <;> omega
    obtain ⟨cap, hcapdef⟩ : ∃ c, c = reserve plain.length plain.length 256 := ⟨_, rfl⟩
    rw [← hcapdef] at hcap
    obtain ⟨k₂, out₂, d₂, hcall₂, hk₂, hout₂, hs₂, hdone₂⟩ :=
      hZ.compress (plain.drop k) (cap - out.length) hs₁
    have hroom₂ : out₂.length < cap - out.length :=
      hZ.bound hr hcall (by rw [hlen, hcap]) hcall₂
    obtain ⟨hall, hf₂⟩ := hdone₂ hroom₂
    have hs₂' : Sync set d₂ i plain (out ++ out₂) := by
      rwa [hall, List.take_length, List.take_append_drop] at hs₂
    have hroom : (out ++ out₂).length < cap := by
      rw [List.length_append]
      omega
    rcases Nat.lt_or_ge k plain.length with hk' | hk'
    · -- input is left for the second iteration
      obtain ⟨d', h, hsync⟩ := compressLoop_room hZ fuel hcall₂ hs₂' hf₂
        (by rw [hall, List.length_drop]; omega) hroom
      refine ⟨_, d', ?_, hsync⟩
      rw [← h]
      conv_lhs => rw [compressLoop]
      simp [hcall, hne, hlen, ← hcapdef, Nat.not_le.mpr hk']
    · -- all input is consumed: the drain call completes the flush
      have hdrop : plain.drop k = [] := List.drop_eq_nil_of_le hk'
      rw [hdrop] at hcall₂
      by_cases h₂ : out₂ = []
      · refine ⟨out ++ out₂, d₂, ?_, hs₂', hf₂⟩
        rw [hlen] at hcall₂
        rw [compressLoop]
        simp [hcall, hne, hlen, ← hcapdef, hk', hcall₂, h₂]
      · obtain ⟨d', h, hsync⟩ := compressLoop_flushed hZ fuel hs₂' hf₂ hk' hroom
        refine ⟨_, d', ?_, hsync⟩
        rw [← h]
        rw [hlen] at hcall₂
        conv_lhs => rw [compressLoop]
        simp [hcall, hne, hlen, ← hcapdef, hk', hcall₂, h₂]

/-- The fuel the inflate loop needs for a block of `n` bytes. -/
def inflateFuel (set : Bool) (n : Nat) : Nat := n + (if set then 0 else 1) + 1

/-- The inflate loop gives back the plaintext that is left, and then both streams are in step.

    Induction on the fuel: a call that fills the buffer shortens what is left, a call that asks
    for the dictionary sets it, and a call that leaves room is the last but one. -/
theorem decompressLoop_spec (hZ : Z.Lawful Sync Ready Flushed) {d : D} (hf : Flushed d)
    {raw : Bytes} : ∀ (fuel : Nat) (nv : NvCodec D I) (plain out : Bytes) (cap inOff : Nat),
    Sync nv.inflateDictSet d nv.inflate plain (raw.drop inOff) → out.length < cap →
    inflateFuel nv.inflateDictSet plain.length ≤ fuel →
    ∃ nv', decompressLoop Z raw fuel nv out cap inOff = (.ok (out ++ plain), nv') ∧
      Sync nv'.inflateDictSet d nv'.inflate [] []
  | 0, nv, plain, out, cap, inOff, _, _, hfuel => by
    simp [inflateFuel] at hfuel
  | fuel + 1, nv, plain, out, cap, inOff, hs, hcap, hfuel => by
    have hspare : 0 < cap - out.length := by omega
    rcases hZ.decompress (cap - out.length) hs hf hspare with
      ⟨k, o, i', hcall, hk, ho, hpre, hs', hdone⟩ | ⟨hset, e, k, i', i'', hcall, hk, hdict, hs'⟩
    · rw [List.drop_drop] at hs' hdone
      by_cases hlast : raw.length ≤ inOff + k ∧ o = []
      · -- nothing produced: the loop ends here
        obtain ⟨hin, rfl⟩ := hlast
        obtain ⟨hw, hp⟩ := hdone (by simpa using hspare)
        simp only [List.length_nil, List.drop_zero] at hp hs'
        subst hp
        rw [hw] at hs'
        exact ⟨{ nv with inflate := i' }, by simp [decompressLoop, hcall, hin], hs'⟩
      · -- progress: the call produced something
        have ho' : o ≠ [] := by
          rintro rfl
          obtain ⟨hw, -⟩ := hdone (by simpa using hspare)
          exact hlast ⟨by simpa using hw, rfl⟩
        obtain ⟨rest, rfl⟩ := hpre
        rw [List.drop_left] at hs'
        have hpos : 0 < o.length := List.length_pos_iff.mpr ho'
        obtain ⟨cap1, hcap1⟩ : ∃ c, c = if (out ++ o).length = cap then
            reserve cap (out ++ o).length (max cap 256) else cap := ⟨_, rfl⟩
        have hgrow : (out ++ o).length < cap1 := by
          rw [hcap1]
          simp only [reserve, List.length_append]
          split_ifs <;> omega
        obtain ⟨nv', hloop, hsync⟩ := decompressLoop_spec hZ hf fuel
          { nv with inflate := i' } rest (out ++ o) cap1 (inOff + k) hs' hgrow
          (by simp only [inflateFuel, List.length_append] at hfuel ⊢; omega)
        refine ⟨nv', ?_, hsync⟩
        rw [← List.append_assoc, ← hloop, hcap1]
        simp only [decompressLoop, hcall, hlast, if_false]
    · -- the dictionary is asked for at most once
      rw [List.drop_drop] at hs'
      obtain ⟨nv', hloop, hsync⟩ := decompressLoop_spec hZ hf fuel
        { nv with inflate := i'', inflateDictSet := true } plain out cap (inOff + k) hs' hcap
        (by simp only [inflateFuel, hset] at hfuel ⊢; simp at hfuel ⊢; omega)
      refine ⟨nv', ?_, hsync⟩
      rw [← hloop]
      simp [decompressLoop, hcall, hset, hdict]

/-- The decompressor gets in step with the wire of one block; `decompress_nv` reads the headers
    back from it when it is short enough for a frame. -/
theorem decompressNv_spec (hZ : Z.Lawful Sync Ready Flushed) {d d₀ : D} {nv : NvCodec D I}
    {headers : Headers} {wire : Bytes} {fuel : Nat} (hfit : HeadersFit headers)
    (hfuel : (writeNvBlock headers).length + 2 ≤ fuel)
    (h₀ : Sync nv.inflateDictSet d₀ nv.inflate [] [])
    (hs : Sync nv.inflateDictSet d nv.inflate (writeNvBlock headers) wire) (hf : Flushed d) :
    ∃ nv', Sync nv'.inflateDictSet d nv'.inflate [] [] ∧
      (wire.length < 2 ^ 24 → decompressNv Z fuel nv wire = (.ok headers, nv')) := by
  obtain ⟨nv', hloop, hsync⟩ := decompressLoop_spec hZ hf fuel nv (writeNvBlock headers) []
    (wire.length * 4 + 64) 0 hs (by simp)
    (by simp only [inflateFuel]; split <;> omega)
  refine ⟨nv', hsync, fun hwire => ?_⟩
  -- a block this short cannot hold 2^32 pairs
  have hcount : headers.length < 2 ^ 32 := by
    have hratio := hZ.ratio h₀ hs hf
    have hblock := length_writeNvBlock headers
    omega
  simp only [List.nil_append] at hloop
  simp [decompressNv, hloop, readNvBlock_writeNvBlock hfit hcount]

end Loops

end ContainerdRs.Cri.Spdy
