import ContainerdRs.Cri.Spdy.Returns

/-!
# Header blocks behind the end of the zlib stream (`NvCodec::decompress_nv`)

The loop of `decompress_nv` leaves when the whole block is consumed and a call produces nothing.
`Ok(StreamEnd)` is to it like any other `Ok`, and behind the end of its stream zlib consumes
nothing.

* `Flate.Streams` — what zlib does before the end of its stream and behind it.
* `overruns_iff_stalls` — the only calls without progress are those behind the end.
* `decompressNv_terminates_iff` — the loop ends unless the stream ends inside the block.
* `trailing_byte_never_returns` — a block with one byte too many.
-/

set_option autoImplicit false

namespace ContainerdRs.Cri.Spdy

variable {D I : Type}

/-- Before the end of the stream a call that has input and room makes progress or fails; behind
    the end every call returns `Ok(StreamEnd)`, consumes nothing and produces nothing. -/
structure Flate.Streams (Z : Flate D I) (pending : I → Nat) (ended : I → Prop) : Prop where
  bounded : Z.Bounded pending
  progress : ∀ {i input spare k out i'}, ¬ ended i → input ≠ [] → 0 < spare →
    Z.decompressVec i input spare = (.ok, k, out, i') → 0 < k + out.length
  finished : ∀ {i} input spare, ended i →
    ∃ i', Z.decompressVec i input spare = (.ok, 0, [], i') ∧ ended i'

/-- The stream comes to its end, and bytes of the block are left. -/
inductive Overruns (Z : Flate D I) (ended : I → Prop) (raw : Bytes) :
    NvCodec D I → Bytes → Nat → Nat → Prop where
  | here {nv : NvCodec D I} {out : Bytes} {cap inOff : Nat} :
      inOff < raw.length → ended nv.inflate → Overruns Z ended raw nv out cap inOff
  | later {nv nv' : NvCodec D I} {out out' : Bytes} {cap cap' inOff inOff' : Nat} :
      Round Z raw nv out cap inOff nv' out' cap' inOff' →
      Overruns Z ended raw nv' out' cap' inOff' → Overruns Z ended raw nv out cap inOff

section streams

variable {Z : Flate D I} {pending : I → Nat} {ended : I → Prop} {raw : Bytes} {nv : NvCodec D I}
  {out : Bytes} {cap inOff : Nat}

/-- Behind the end the loop stalls: there is always room in the vector. -/
theorem stalls_of_overruns (hZ : Z.Streams pending ended)
    (h : Overruns Z ended raw nv out cap inOff) (hin : inOff ≤ raw.length)
    (hroom : out.length < cap) : Stalls Z raw nv out cap inOff := by
  induction h with
  | @here nv out cap inOff hleft hend =>
    obtain ⟨i', hcall, -⟩ := hZ.finished (raw.drop inOff) (cap - out.length) hend
    exact .here hleft hroom hcall
  | later hround _ ih =>
    obtain ⟨hin', hroom'⟩ := hround.bounds hZ.bounded hin hroom
    exact .later hround (ih hin' hroom')

/-- A call without progress is behind the end. -/
theorem overruns_of_stalls (hZ : Z.Streams pending ended) (h : Stalls Z raw nv out cap inOff) :
    Overruns Z ended raw nv out cap inOff := by
  induction h with
  | @here nv out cap inOff i hleft hroom hcall =>
    refine .here hleft ?_
    by_contra hnot
    have hinput : raw.drop inOff ≠ [] := by
      intro hnil
      have hlen := congrArg List.length hnil
      rw [List.length_drop, List.length_nil] at hlen
      omega
    have hmove := hZ.progress hnot hinput (by omega) hcall
    rw [List.length_nil] at hmove
    omega
  | later hround _ ih => exact .later hround ih

theorem overruns_iff_stalls (hZ : Z.Streams pending ended) (hin : inOff ≤ raw.length)
    (hroom : out.length < cap) :
    Overruns Z ended raw nv out cap inOff ↔ Stalls Z raw nv out cap inOff :=
  ⟨fun h => stalls_of_overruns hZ h hin hroom, overruns_of_stalls hZ⟩

end streams

/-- **`decompress_nv` terminates**, on any bytes and from any state, exactly if the zlib stream does
    not end before the block does. -/
theorem decompressNv_terminates_iff (Z : Flate D I) (pending : I → Nat) (ended : I → Prop)
    (hZ : Z.Streams pending ended) (nv : NvCodec D I) (raw : Bytes) :
    (∃ fuel₀, ∀ fuel, fuel₀ ≤ fuel → Returned (decompressNv Z fuel nv raw).1) ↔
      ¬ Overruns Z ended raw nv [] (raw.length * 4 + 64) 0 := by
  have hroom : ([] : Bytes).length < raw.length * 4 + 64 := by
    rw [List.length_nil]
    omega
  rw [decompressNv_returns_iff hZ.bounded, overruns_iff_stalls hZ (Nat.zero_le _) hroom]

/-! ## A stream that ends -/

/-- A stream of stored bytes; the state is the number of bytes up to its end. -/
def endingFlate : Flate Unit Nat where
  newDeflate := ()
  deflateDictionary := fun _ _ => .ok ()
  compressVec := fun _ input spare => (.ok (min input.length spare, input.take spare), ())
  newInflate := 0
  inflateDictionary := fun i _ => .ok i
  decompressVec := fun i input spare =>
    let out := input.take (min i spare)
    (.ok, out.length, out, i - out.length)

theorem endingFlate_streams : endingFlate.Streams (fun _ => 0) (· = 0) where
  bounded := {
    consumed := by
      intro i input spare
      show (input.take (min i spare)).length ≤ input.length
      rw [List.length_take]
      omega
    room := by
      intro i input spare
      show (input.take (min i spare)).length ≤ spare
      rw [List.length_take]
      omega
    ratio := by
      intro i input spare k out i' h
      simp only [endingFlate, Prod.mk.injEq, true_and] at h
      obtain ⟨rfl, rfl, -⟩ := h
      omega
    dictionary := by
      intro i input spare e k out i' h
      simp [endingFlate] at h
    still := by
      intro i input spare i' h
      simp only [endingFlate, Prod.mk.injEq, true_and] at h ⊢
      obtain ⟨hlen, hout, rfl⟩ := h
      rw [hlen, Nat.sub_zero]
      exact ⟨hlen, hout, by omega⟩ }
  progress := by
    intro i input spare k out i' hnot hinput hspare h
    simp only [endingFlate, Prod.mk.injEq, true_and] at h
    obtain ⟨rfl, rfl, -⟩ := h
    have hlen := List.length_pos_iff.2 hinput
    rw [List.length_take]
    omega
  finished := by
    rintro i input spare rfl
    refine ⟨0, ?_, rfl⟩
    simp [endingFlate]

/-- A block that is used up by its stream. -/
theorem whole_block_terminates :
    (∃ fuel₀, ∀ fuel, fuel₀ ≤ fuel →
      Returned (decompressNv endingFlate fuel ⟨(), 4, true⟩ [0, 0, 0, 0]).1) ∧
      ¬ Overruns endingFlate (· = 0) [0, 0, 0, 0] ⟨(), 4, true⟩ [] 80 0 := by
  have hreturns : ∃ fuel₀, ∀ fuel, fuel₀ ≤ fuel →
      Returned (decompressNv endingFlate fuel ⟨(), 4, true⟩ [0, 0, 0, 0]).1 := by
    refine ⟨2, fun fuel hfuel => ?_⟩
    obtain ⟨n, rfl⟩ : ∃ n, fuel = n + 2 := ⟨fuel - 2, by omega⟩
    trivial
  exact ⟨hreturns,
    (decompressNv_terminates_iff endingFlate _ _ endingFlate_streams _ _).1 hreturns⟩

/-- The stream ends with the first four bytes, and the block has a fifth. -/
theorem trailing_byte_never_returns :
    ¬ ∀ (D I : Type) (Z : Flate D I) (pending : I → Nat) (ended : I → Prop),
      Z.Streams pending ended → ∀ (nv : NvCodec D I) (raw : Bytes),
        ∃ fuel₀, ∀ fuel, fuel₀ ≤ fuel → Returned (decompressNv Z fuel nv raw).1 := by
  intro h
  have hret := h Unit Nat endingFlate _ _ endingFlate_streams ⟨(), 4, true⟩ [0, 0, 0, 0, 0]
  refine (decompressNv_returns_iff endingFlate_streams.bounded _ _).1 hret ?_
  -- one turn up to the end of the stream, and a call behind it
  have hcall : endingFlate.decompressVec 4 ([0, 0, 0, 0, 0] : Bytes) 84 =
      (.ok, 4, [0, 0, 0, 0], 0) := rfl
  have hround : Round endingFlate [0, 0, 0, 0, 0] ⟨(), 4, true⟩ [] 84 0 ⟨(), 0, true⟩
      [0, 0, 0, 0] 84 4 :=
    @Round.call Unit Nat endingFlate _ ⟨(), 4, true⟩ [] [0, 0, 0, 0] 84 0 4 0 hcall (by decide)
  exact .later hround (.here (by decide) (by decide) rfl)

end ContainerdRs.Cri.Spdy
