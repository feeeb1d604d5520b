import ContainerdRs.Cri.Spdy.Slices

/-!
# When `parse_frame` returns

The only length `parse_frame` checks is that the declared body is there.  The arms then index the
body at their own offsets, and three of them run the inflate loop, which waits for zlib to take
its whole block.

* `decompressLoop_ends`, `decompressLoop_stalls` — the inflate loop ends unless zlib comes to a
  call that makes no progress with input left, as it does behind the end of its stream.
* `readNvBlock_returned` — the block it leaves is read with every length checked.
* `parseFrame_returns_iff` — when `parse_frame` returns.
* `short_ping_panics` — a PING without a body.
-/

set_option autoImplicit false

namespace ContainerdRs.Cri.Spdy

variable {D I : Type}

/-! ## The inflate loop -/

/-- The capacity behind a call that left `len` bytes in the vector. -/
def grown (cap len : Nat) : Nat := if len = cap then reserve cap len (max cap 256) else cap

/-- One turn of the loop of `decompress_nv` that goes on to another. -/
inductive Round (Z : Flate D I) (raw : Bytes) :
    NvCodec D I → Bytes → Nat → Nat → NvCodec D I → Bytes → Nat → Nat → Prop where
  | call {nv : NvCodec D I} {out produced : Bytes} {cap inOff consumed : Nat} {i : I} :
      Z.decompressVec nv.inflate (raw.drop inOff) (cap - out.length) =
        (.ok, consumed, produced, i) →
      ¬ (raw.length ≤ inOff + consumed ∧ produced = []) →
      Round Z raw nv out cap inOff { nv with inflate := i } (out ++ produced)
        (grown cap (out ++ produced).length) (inOff + consumed)
  | dictionary {nv : NvCodec D I} {out produced : Bytes} {cap inOff consumed : Nat} {i i' : I}
      {e : String} :
      Z.decompressVec nv.inflate (raw.drop inOff) (cap - out.length) =
        (.needsDictionary e, consumed, produced, i) →
      nv.inflateDictSet = false →
      Z.inflateDictionary i spdyDictionary = .ok i' →
      Round Z raw nv out cap inOff { nv with inflate := i', inflateDictSet := true }
        (out ++ produced) cap (inOff + consumed)

/-- The loop comes to a call that neither consumes nor produces anything although there is input
    and room: zlib is behind the end of its stream. -/
inductive Stalls (Z : Flate D I) (raw : Bytes) : NvCodec D I → Bytes → Nat → Nat → Prop where
  | here {nv : NvCodec D I} {out : Bytes} {cap inOff : Nat} {i : I} :
      inOff < raw.length → out.length < cap →
      Z.decompressVec nv.inflate (raw.drop inOff) (cap - out.length) = (.ok, 0, [], i) →
      Stalls Z raw nv out cap inOff
  | later {nv nv' : NvCodec D I} {out out' : Bytes} {cap cap' inOff inOff' : Nat} :
      Round Z raw nv out cap inOff nv' out' cap' inOff' → Stalls Z raw nv' out' cap' inOff' →
      Stalls Z raw nv out cap inOff

/-- A value or an `io::Error`. -/
def Returned {α : Type} : Except Fail α → Prop
  | .ok _ => True
  | .error (.io _) => True
  | .error .panicked => False
  | .error .outOfFuel => False

/-- An error is passed on as it is. -/
theorem Returned.of_error {α β : Type} {e : Fail} (h : Returned (.error e : Except Fail α)) :
    Returned (.error e : Except Fail β) := by
  cases e <;> exact h

section Inflate

variable {Z : Flate D I} {raw : Bytes} {nv nv' : NvCodec D I} {out out' : Bytes}
  {cap cap' inOff inOff' : Nat}

theorem decompressLoop_round (h : Round Z raw nv out cap inOff nv' out' cap' inOff') (fuel : Nat) :
    decompressLoop Z raw (fuel + 1) nv out cap inOff =
      decompressLoop Z raw fuel nv' out' cap' inOff' := by
  cases h with
  | call hcall hgo =>
    rw [decompressLoop, hcall]
    exact if_neg hgo
  | dictionary hcall hset hdict =>
    rw [decompressLoop, hcall]
    simp [hset, hdict]

/-- Every turn returns or goes on. -/
theorem decompressLoop_turn (Z : Flate D I) (raw : Bytes) (nv : NvCodec D I) (out : Bytes)
    (cap inOff : Nat) :
    (∃ nv' out' cap' inOff', Round Z raw nv out cap inOff nv' out' cap' inOff') ∨
      ∃ r nv', Returned r ∧
        ∀ fuel, decompressLoop Z raw (fuel + 1) nv out cap inOff = (r, nv') := by
  rcases hcall : Z.decompressVec nv.inflate (raw.drop inOff) (cap - out.length) with
    ⟨_ | e | e, consumed, produced, i⟩
  · by_cases hend : raw.length ≤ inOff + consumed ∧ produced = []
    · exact .inr ⟨.ok (out ++ produced), _, trivial, fun fuel => by
        rw [decompressLoop, hcall]
        exact if_pos hend⟩
    · exact .inl ⟨_, _, _, _, .call hcall hend⟩
  · cases hset : nv.inflateDictSet with
    | true =>
      refine .inr ⟨.error (.io ("spdy inflate: " ++ e)), { nv with inflate := i }, trivial, ?_⟩
      intro fuel
      simp [decompressLoop, hcall, hset]
    | false =>
      cases hdict : Z.inflateDictionary i spdyDictionary with
      | error e' =>
        refine .inr ⟨.error (.io ("spdy inflate dict: " ++ e')), { nv with inflate := i },
          trivial, ?_⟩
        intro fuel
        simp [decompressLoop, hcall, hset, hdict]
      | ok i' => exact .inl ⟨_, _, _, _, .dictionary hcall hset hdict⟩
  · refine .inr ⟨.error (.io ("spdy inflate: " ++ e)), { nv with inflate := i }, trivial, ?_⟩
    intro fuel
    rw [decompressLoop, hcall]

variable {pending : I → Nat}

/-- A call that can make no progress is repeated for ever. -/
theorem decompressLoop_still (hZ : Z.Bounded pending) (hin : inOff < raw.length)
    (hroom : out.length < cap) : ∀ (fuel : Nat) (nv : NvCodec D I) (i : I),
    Z.decompressVec nv.inflate (raw.drop inOff) (cap - out.length) = (.ok, 0, [], i) →
    (decompressLoop Z raw fuel nv out cap inOff).1 = .error .outOfFuel
  | 0, _, _, _ => rfl
  | fuel + 1, nv, i, hcall => by
    have hround : Round Z raw nv out cap inOff { nv with inflate := i } (out ++ [])
        (grown cap (out ++ []).length) (inOff + 0) := .call hcall (by omega)
    rw [List.append_nil, grown, if_neg (by omega), Nat.add_zero] at hround
    rw [decompressLoop_round hround]
    exact decompressLoop_still hZ hin hroom fuel _ i (hZ.still hcall)

theorem decompressLoop_stalls (hZ : Z.Bounded pending) (h : Stalls Z raw nv out cap inOff) :
    ∀ fuel, (decompressLoop Z raw fuel nv out cap inOff).1 = .error .outOfFuel := by
  induction h with
  | here hin hroom hcall =>
    intro fuel
    exact decompressLoop_still hZ hin hroom fuel _ _ hcall
  | later hround _ ih =>
    intro fuel
    cases fuel with
    | zero => rfl
    | succ fuel =>
      rw [decompressLoop_round hround]
      exact ih fuel

/-- What a turn leaves: the offset in the block and room in the vector. -/
theorem Round.bounds (hZ : Z.Bounded pending)
    (h : Round Z raw nv out cap inOff nv' out' cap' inOff') (hin : inOff ≤ raw.length)
    (hroom : out.length < cap) : inOff' ≤ raw.length ∧ out'.length < cap' := by
  have hk := hZ.consumed nv.inflate (raw.drop inOff) (cap - out.length)
  have ho := hZ.room nv.inflate (raw.drop inOff) (cap - out.length)
  rw [List.length_drop] at hk
  cases h with
  | call hcall hgo =>
    rw [hcall] at hk ho
    dsimp only at hk ho
    refine ⟨by omega, ?_⟩
    simp only [grown, reserve, List.length_append]
    split_ifs <;> omega
  | dictionary hcall hset hdict =>
    rw [hcall] at hk
    dsimp only at hk
    rw [hZ.dictionary hcall, List.append_nil]
    exact ⟨by omega, hroom⟩

/-- What is left to do: the input, with the output it can still turn into. -/
def work (pending : I → Nat) (raw : Bytes) (nv : NvCodec D I) (inOff : Nat) : Nat :=
  1033 * (raw.length - inOff) + pending nv.inflate

/-- A turn sets the dictionary, or there is less left to do. -/
theorem Round.progress (hZ : Z.Bounded pending)
    (h : Round Z raw nv out cap inOff nv' out' cap' inOff') (hin : inOff ≤ raw.length)
    (hroom : out.length < cap) (hs : ¬ Stalls Z raw nv out cap inOff) :
    (nv.inflateDictSet = false ∧ nv'.inflateDictSet = true) ∨
      (nv'.inflateDictSet = nv.inflateDictSet ∧
        work pending raw nv' inOff' < work pending raw nv inOff) := by
  have hk := hZ.consumed nv.inflate (raw.drop inOff) (cap - out.length)
  rw [List.length_drop] at hk
  cases h with
  | call hcall hgo =>
    rename_i produced consumed i
    right
    refine ⟨rfl, ?_⟩
    have hratio := hZ.ratio hcall
    rw [hcall] at hk
    -- something was consumed or produced, else the loop would stall here
    have hmove : 0 < consumed + produced.length := by
      by_contra hnone
      have hp : produced = [] := List.length_eq_zero_iff.mp (by omega)
      have hc : consumed = 0 := by omega
      subst hp hc
      have hleft : inOff < raw.length := by
        by_contra hdone
        exact hgo ⟨by omega, rfl⟩
      exact hs (.here hleft hroom hcall)
    simp only [work]
    dsimp only at hk
    omega
  | dictionary hcall hset hdict => exact .inl ⟨hset, rfl⟩

/-- The loop ends where it does not stall. -/
theorem decompressLoop_ends (hZ : Z.Bounded pending) (nv : NvCodec D I) (out : Bytes)
    (cap inOff : Nat) (hin : inOff ≤ raw.length) (hroom : out.length < cap)
    (hs : ¬ Stalls Z raw nv out cap inOff) :
    ∃ fuel₀ r nv', Returned r ∧
      ∀ fuel, fuel₀ ≤ fuel → decompressLoop Z raw fuel nv out cap inOff = (r, nv') := by
  rcases decompressLoop_turn Z raw nv out cap inOff with
    ⟨nv₁, out₁, cap₁, inOff₁, hround⟩ | ⟨r, nv', hr, hret⟩
  · obtain ⟨hin₁, hroom₁⟩ := hround.bounds hZ hin hroom
    have hless := hround.progress hZ hin hroom hs
    obtain ⟨fuel₀, r, nv', hr, hret⟩ := decompressLoop_ends hZ nv₁ out₁ cap₁ inOff₁ hin₁ hroom₁
      (fun h => hs (.later hround h))
    refine ⟨fuel₀ + 1, r, nv', hr, ?_⟩
    intro fuel hfuel
    obtain ⟨n, rfl⟩ : ∃ n, fuel = n + 1 := ⟨fuel - 1, by omega⟩
    rw [decompressLoop_round hround]
    exact hret n (by omega)
  · refine ⟨1, r, nv', hr, ?_⟩
    intro fuel hfuel
    obtain ⟨n, rfl⟩ : ∃ n, fuel = n + 1 := ⟨fuel - 1, by omega⟩
    exact hret n
  termination_by ((!nv.inflateDictSet).toNat, work pending raw nv inOff)
  decreasing_by
    rcases hless with ⟨h, h'⟩ | ⟨h, h'⟩
    · rw [h, h']
      exact Prod.Lex.left _ _ (by decide)
    · rw [h]
      exact Prod.Lex.right _ h'

end Inflate

/-! ## When `parse_frame` returns -/

theorem exists_rdU32 {b : Bytes} (h : 4 ≤ b.length) : ∃ v, rdU32 b = .ok v := by
  match b with
  | b0 :: b1 :: b2 :: b3 :: _ => exact ⟨_, rfl⟩
  | [] | [_] | [_, _] | [_, _, _] => simp at h

theorem takeText_returned (buf : Bytes) (off : Nat) : Returned (takeText buf off) := by
  unfold takeText
  split
  · trivial
  · rename_i h
    obtain ⟨n, hn⟩ := exists_rdU32 (b := buf.drop off)
      (by rw [List.length_drop]; omega)
    rw [hn]
    dsimp only
    split <;> trivial

/-- `read_nv_block` checks every length before it slices. -/
theorem readPairs_returned (buf : Bytes) : ∀ n off, Returned (readPairs buf n off)
  | 0, _ => trivial
  | n + 1, off => by
    have h := takeText_returned buf off
    rw [readPairs]
    cases hname : takeText buf off with
    | error e =>
      rw [hname] at h
      exact h.of_error
    | ok name =>
      have h' := takeText_returned buf name.2
      dsimp only
      cases hvalue : takeText buf name.2 with
      | error e =>
        rw [hvalue] at h'
        exact h'.of_error
      | ok value =>
        have ih := readPairs_returned buf n value.2
        dsimp only
        cases hpairs : readPairs buf n value.2 with
        | error e =>
          rw [hpairs] at ih
          exact ih
        | ok pairs => trivial

theorem readNvBlock_returned (buf : Bytes) : Returned (readNvBlock buf) := by
  unfold readNvBlock
  split
  · trivial
  · obtain ⟨n, hn⟩ := exists_rdU32 (b := buf) (by omega)
    rw [hn]
    exact readPairs_returned buf n.toNat 4

/-- The type and the body of a complete control frame at the front of `buf`. -/
def controlFrame? : Bytes → Option (UInt16 × Bytes)
  | b0 :: _ :: b2 :: b3 :: _ :: l0 :: l1 :: l2 :: rest =>
    if rest.length < rdU24 l0 l1 l2 ∨ b0 &&& 0x80 = 0 then none
    else some (b2.toUInt16 <<< 8 ||| b3.toUInt16, rest.take (rdU24 l0 l1 l2))
  | _ => none

/-- The bytes an arm reads of its body without looking at the length. -/
def minBody (ftype : UInt16) : Nat :=
  match ftype with
  | typeSynStream => 10
  | typeSynReply | typeHeaders | typeSettings | typePing | typeGoAway => 4
  | typeRstStream | typeWindowUpdate => 8
  | _ => 0

/-- Where the headers of a control frame start, if it has any. -/
def headersAt (ftype : UInt16) : Option Nat :=
  match ftype with
  | typeSynStream => some 10
  | typeSynReply | typeHeaders => some 4
  | _ => none

/-- The control frame at the front of `buf`, if there is a complete one, has the bytes its arm
    reads, and its header block does not go on behind the end of the zlib stream. -/
def Readable (Z : Flate D I) (buf : Bytes) (nv : NvCodec D I) : Prop :=
  ∀ ftype body, controlFrame? buf = some (ftype, body) →
    minBody ftype ≤ body.length ∧
      ∀ skip, headersAt ftype = some skip →
        ¬ Stalls Z (body.drop skip) nv [] ((body.drop skip).length * 4 + 64) 0

section Returns

variable {Z : Flate D I} {pending : I → Nat}

theorem decompressNv_returns_iff (hZ : Z.Bounded pending) (nv : NvCodec D I) (raw : Bytes) :
    (∃ fuel₀, ∀ fuel, fuel₀ ≤ fuel → Returned (decompressNv Z fuel nv raw).1) ↔
      ¬ Stalls Z raw nv [] (raw.length * 4 + 64) 0 := by
  constructor
  · rintro ⟨fuel₀, h⟩ hs
    have hret := h fuel₀ (Nat.le_refl _)
    have hloop := decompressLoop_stalls hZ hs fuel₀
    unfold decompressNv at hret
    split at hret
    · rename_i e nv' heq
      rw [heq] at hloop
      cases hloop
      exact hret
    · rename_i o nv' heq
      rw [heq] at hloop
      cases hloop
  · intro hs
    obtain ⟨fuel₀, r, nv', hr, hloop⟩ := decompressLoop_ends hZ nv [] (raw.length * 4 + 64) 0
      (Nat.zero_le _) (by simp) hs
    refine ⟨fuel₀, ?_⟩
    intro fuel hfuel
    rw [decompressNv, hloop fuel hfuel]
    cases r with
    | error e => exact hr.of_error
    | ok o => exact readNvBlock_returned o

theorem parseNv_returns_iff (hZ : Z.Bounded pending) (make : UInt32 → Headers → Frame)
    {skip : Nat} (hskip : 4 ≤ skip) (body : Bytes) (nv : NvCodec D I) :
    (∃ fuel₀, ∀ fuel, fuel₀ ≤ fuel → Returned (parseNv Z fuel make skip body nv).1) ↔
      skip ≤ body.length ∧
        ¬ Stalls Z (body.drop skip) nv [] ((body.drop skip).length * 4 + 64) 0 := by
  by_cases hlen : skip ≤ body.length
  · obtain ⟨id, hid⟩ := exists_rdU32 (b := body) (by omega)
    have hret : ∀ fuel, Returned (parseNv Z fuel make skip body nv).1 ↔
        Returned (decompressNv Z fuel nv (body.drop skip)).1 := by
      intro fuel
      rw [parseNv, hid]
      dsimp only
      rw [if_neg (by omega)]
      rcases decompressNv Z fuel nv (body.drop skip) with ⟨_ | _, _⟩
      · exact ⟨Returned.of_error, Returned.of_error⟩
      · exact Iff.rfl
    simp only [hret, hlen, true_and]
    exact decompressNv_returns_iff hZ nv (body.drop skip)
  · constructor
    · rintro ⟨fuel₀, h⟩
      have hret := h fuel₀ (Nat.le_refl _)
      rw [parseNv] at hret
      rcases Nat.lt_or_ge body.length 4 with hshort | hid
      · rw [Checked.rdU32_short hshort] at hret
        exact hret.elim
      · obtain ⟨id, hid⟩ := exists_rdU32 hid
        rw [hid] at hret
        dsimp only at hret
        rw [if_pos (by omega)] at hret
        exact hret.elim
    · rintro ⟨h, -⟩
      exact absurd h hlen

/-- A word and what follows it. -/
theorem rdU32_bind_returned {α : Type} (b : Bytes) (k : UInt32 → Except Fail α) :
    Returned (rdU32 b >>= k) ↔ 4 ≤ b.length ∧ ∀ v, rdU32 b = .ok v → Returned (k v) := by
  rcases Nat.lt_or_ge b.length 4 with hshort | hlen
  · rw [Checked.rdU32_short hshort]
    constructor
    · intro h
      exact h.elim
    · rintro ⟨h, -⟩
      omega
  · obtain ⟨v, hv⟩ := exists_rdU32 hlen
    rw [hv]
    constructor
    · intro h
      refine ⟨hlen, ?_⟩
      rintro w ⟨⟩
      exact h
    · rintro ⟨-, h⟩
      exact h v rfl

theorem length_drop_four {body : Bytes} : 4 ≤ (body.drop 4).length ↔ 8 ≤ body.length := by
  rw [List.length_drop]
  omega

/-- The arms that use no codec need the bytes they read, and no more. -/
theorem parsePlain_returned (body : Bytes) :
    (Returned (parseRstStream body) ↔ 8 ≤ body.length) ∧
      (Returned (parseSettings body) ↔ 4 ≤ body.length) ∧
      (Returned (parsePing body) ↔ 4 ≤ body.length) ∧
      (Returned (parseGoAway body) ↔ 4 ≤ body.length) ∧
      (Returned (parseWindowUpdate body) ↔ 8 ≤ body.length) := by
  have htwo : ∀ make : UInt32 → UInt32 → Frame,
      Returned (rdU32 body >>= fun x => rdU32 (body.drop 4) >>= fun y => pure (make x y)) ↔
        8 ≤ body.length := by
    intro make
    rw [rdU32_bind_returned]
    constructor
    · rintro ⟨h4, h⟩
      obtain ⟨v, hv⟩ := exists_rdU32 h4
      exact length_drop_four.1 ((rdU32_bind_returned _ _).1 (h v hv)).1
    · intro h8
      refine ⟨by omega, fun v _ => ?_⟩
      exact (rdU32_bind_returned _ _).2 ⟨length_drop_four.2 h8, fun _ _ => trivial⟩
  have hone : ∀ k : UInt32 → Except Fail Frame, (∀ v, Returned (k v)) →
      (Returned (rdU32 body >>= k) ↔ 4 ≤ body.length) := by
    intro k hk
    rw [rdU32_bind_returned]
    exact ⟨fun h => h.1, fun h => ⟨h, fun v _ => hk v⟩⟩
  refine ⟨htwo _, hone _ fun _ => trivial, hone _ fun _ => trivial, hone _ fun v => ?_, htwo _⟩
  -- GOAWAY looks at the length before it reads the status
  by_cases h8 : 8 ≤ body.length
  · rw [if_pos h8]
    exact (rdU32_bind_returned _ _).2 ⟨length_drop_four.2 h8, fun _ _ => trivial⟩
  · rw [if_neg h8]
    trivial

/-- An arm returns if the body has the bytes it reads and, if it has headers, they inflate. -/
theorem parseControl_returns_iff (hZ : Z.Bounded pending) (ftype : UInt16) (flags : UInt8)
    (body : Bytes) (nv : NvCodec D I) :
    (∃ fuel₀, ∀ fuel, fuel₀ ≤ fuel → Returned (parseControl Z fuel ftype flags body nv).1) ↔
      minBody ftype ≤ body.length ∧
        ∀ skip, headersAt ftype = some skip →
          ¬ Stalls Z (body.drop skip) nv [] ((body.drop skip).length * 4 + 64) 0 := by
  have hconst : ∀ p : Prop, (∃ fuel₀ : Nat, ∀ fuel, fuel₀ ≤ fuel → p) ↔ p := by
    intro p
    exact ⟨fun ⟨fuel₀, h⟩ => h fuel₀ (Nat.le_refl _), fun h => ⟨0, fun _ _ => h⟩⟩
  have hnv : ∀ {ftype : UInt16} {skip : Nat} (make : UInt32 → Headers → Frame),
      headersAt ftype = some skip → minBody ftype = skip → 4 ≤ skip →
      ((∃ fuel₀, ∀ fuel, fuel₀ ≤ fuel → Returned (parseNv Z fuel make skip body nv).1) ↔
        minBody ftype ≤ body.length ∧ ∀ s, headersAt ftype = some s →
          ¬ Stalls Z (body.drop s) nv [] ((body.drop s).length * 4 + 64) 0) := by
    intro ftype skip make hat hmin h4
    rw [parseNv_returns_iff hZ make h4, hmin, hat]
    simp only [Option.some.injEq, forall_eq']
  have hplain : ∀ {o : Option Nat} {p : Prop} {P : Nat → Prop}, o = none →
      (p ↔ p ∧ ∀ s, o = some s → P s) := by
    rintro _ p P rfl
    simp
  obtain ⟨hrst, hsettings, hping, hgoaway, hwindow⟩ := parsePlain_returned body
  unfold parseControl
  split
  · exact hnv _ rfl rfl (by omega)
  · exact hnv _ rfl rfl (by omega)
  · exact hnv _ rfl rfl (by omega)
  · exact (hconst _).trans (hrst.trans (hplain rfl))
  · exact (hconst _).trans (hsettings.trans (hplain rfl))
  · exact (hconst _).trans (hping.trans (hplain rfl))
  · exact (hconst _).trans (hgoaway.trans (hplain rfl))
  · exact (hconst _).trans (hwindow.trans (hplain rfl))
  · have hmin : minBody ftype = 0 := by
      unfold minBody
      split <;> first | rfl | contradiction
    have hno : headersAt ftype = none := by
      unfold headersAt
      split <;> first | rfl | contradiction
    rw [hconst, hmin, hno]
    simp [Returned]

/-- `parse_frame` gets to an arm with the control frame at the front, or it returns. -/
theorem parseFrame_arm (Z : Flate D I) (buf : Bytes) (nv : NvCodec D I) :
    (controlFrame? buf = none ∧ ∀ fuel, Returned (parseFrame Z fuel buf nv).1) ∨
      ∃ ftype flags body, controlFrame? buf = some (ftype, body) ∧
        ∀ fuel, Returned (parseFrame Z fuel buf nv).1 ↔
          Returned (parseControl Z fuel ftype flags body nv).1 := by
  match buf with
  | b0 :: b1 :: b2 :: b3 :: flags :: l0 :: l1 :: l2 :: rest =>
    simp only [parseFrame, controlFrame?]
    by_cases hlen : rest.length < rdU24 l0 l1 l2
    · exact .inl ⟨if_pos (.inl hlen), fun fuel => by rw [if_pos hlen]; trivial⟩
    · by_cases hdata : b0 &&& 0x80 = 0
      · exact .inl ⟨if_pos (.inr hdata), fun fuel => by
          rw [if_neg hlen, if_pos hdata]
          trivial⟩
      · refine .inr ⟨_, flags, _, if_neg (not_or.2 ⟨hlen, hdata⟩), fun fuel => ?_⟩
        rw [if_neg hlen, if_neg hdata]
        rcases parseControl Z fuel _ flags _ nv with ⟨_ | _, _⟩
        · exact ⟨Returned.of_error, Returned.of_error⟩
        · exact Iff.rfl
  | [] | [_] | [_, _] | [_, _, _] | [_, _, _, _] | [_, _, _, _, _] | [_, _, _, _, _, _]
  | [_, _, _, _, _, _, _] => exact .inl ⟨rfl, fun _ => trivial⟩

/-- `parse_frame` returns, with every slice and index in bounds, exactly if the control frame at
    the front has the bytes its arm reads and its headers inflate to the end of the block. -/
theorem parseFrame_returns_iff (hZ : Z.Bounded pending) (buf : Bytes) (nv : NvCodec D I) :
    (∃ fuel₀, ∀ fuel, fuel₀ ≤ fuel → Returned (Checked.parseFrame Z fuel buf nv).1) ↔
      Readable Z buf nv := by
  simp only [Checked.parseFrame_eq hZ, Readable]
  rcases parseFrame_arm Z buf nv with ⟨hnone, hret⟩ | ⟨ftype, flags, body, hsome, hret⟩
  · simp only [hnone, hret, reduceCtorEq, implies_true, exists_const, false_imp_iff]
  · simp only [hsome, hret, parseControl_returns_iff hZ, Option.some.injEq, Prod.mk.injEq, and_imp]
    constructor
    · rintro h _ _ rfl rfl
      exact h
    · intro h
      exact h ftype body rfl rfl

end Returns

/-- Passing bytes through holds nothing back. -/
theorem storedFlate_bounded : storedFlate.Bounded (fun _ => 0) where
  consumed := by
    intro i input spare
    exact Nat.min_le_left _ _
  room := by
    intro i input spare
    simp [storedFlate]
  ratio := by
    intro i input spare k out i' h
    simp only [storedFlate, Prod.mk.injEq, true_and] at h
    obtain ⟨rfl, rfl, -⟩ := h
    rw [List.length_take]
    omega
  dictionary := by
    intro i input spare e k out i' h
    simp [storedFlate] at h
  still := by
    rintro ⟨⟩ input spare ⟨⟩ h
    exact h

/-- A SYN_STREAM of stream 1 with an empty header block. -/
def synFrame : Bytes := [0x80, 3, 0, 1, 0, 0, 0, 10, 0, 0, 0, 1, 0, 0, 0, 0, 0, 0]

theorem synFrame_readable :
    (∃ fuel₀, ∀ fuel, fuel₀ ≤ fuel →
      Returned (Checked.parseFrame storedFlate fuel synFrame ⟨(), (), true⟩).1) ∧
      Readable storedFlate synFrame ⟨(), (), true⟩ := by
  have hreturns : ∃ fuel₀, ∀ fuel, fuel₀ ≤ fuel →
      Returned (Checked.parseFrame storedFlate fuel synFrame ⟨(), (), true⟩).1 := by
    refine ⟨2, fun fuel hfuel => ?_⟩
    obtain ⟨n, rfl⟩ : ∃ n, fuel = n + 2 := ⟨fuel - 2, by omega⟩
    trivial
  exact ⟨hreturns, (parseFrame_returns_iff storedFlate_bounded synFrame _).1 hreturns⟩

/-- A PING without its id: a complete frame with an empty body. -/
def shortPing : Bytes := [0x80, 3, 0, 6, 0, 0, 0, 0]

theorem short_ping_panics :
    ¬ ∃ fuel₀, ∀ fuel, fuel₀ ≤ fuel →
      Returned (Checked.parseFrame storedFlate fuel shortPing ⟨(), (), false⟩).1 := by
  rintro ⟨fuel₀, h⟩
  exact h fuel₀ (Nat.le_refl _)

end ContainerdRs.Cri.Spdy
