import ContainerdRs.Cri.Spdy.NvCodec

/-!
# Truncated name/value blocks (`read_nv_block`)

A block says how many pairs it has and how long each text is, so its reader knows where it ends:
what follows is left alone, and a block that was cut off anywhere behind its count is refused.

* `takeText_truncated` — a text that was cut off.
* `readPairs_truncated` — the loop over the pairs fails at the first of these.
* `nv_block_self_delimiting` — extra bytes, truncated blocks, and the count.
-/

set_option autoImplicit false

namespace ContainerdRs.Cri.Spdy

/-- `t` is `b` with bytes missing at the end. -/
def Truncated (t b : Bytes) : Prop := t <+: b ∧ t ≠ b

/-- What is cut off a list of two parts is cut off the second, unless it ends within the first. -/
theorem Truncated.append_cases {t a b : Bytes} (h : Truncated t (a ++ b)) :
    t.length < a.length ∨ ∃ t', t = a ++ t' ∧ Truncated t' b := by
  by_cases hlen : t.length < a.length
  · exact Or.inl hlen
  · right
    have hpre : a <+: t :=
      List.prefix_of_prefix_length_le (List.prefix_append a b) h.1 (Nat.le_of_not_lt hlen)
    obtain ⟨t', rfl⟩ := hpre
    refine ⟨t', rfl, (List.prefix_append_right_inj a).1 h.1, ?_⟩
    rintro rfl
    exact h.2 rfl

/-- A text that was cut off is refused, in its length or in its bytes. -/
theorem takeText_truncated {s : String} (hs : (asBytes s).length < 2 ^ 32) (pre : Bytes)
    {t rest : Bytes} (ht : t <+: wrText s ++ rest) (hlen : t.length < (wrText s).length) :
    ∃ e, takeText (pre ++ t) pre.length = .error (.io e) := by
  have hn : (UInt32.ofNat (asBytes s).length).toNat = (asBytes s).length :=
    UInt32.toNat_ofNat_of_lt' hs
  rw [length_wrText] at hlen
  unfold takeText
  rw [List.length_append]
  by_cases hshort : t.length < 4
  · rw [if_pos (by omega)]
    exact ⟨_, rfl⟩
  · rw [if_neg (by omega), List.drop_left]
    -- the length is whole
    have hword : wrU32 (UInt32.ofNat (asBytes s).length) <+: t := by
      have hall : wrU32 (UInt32.ofNat (asBytes s).length) <+: wrText s ++ rest := by
        rw [wrText, List.append_assoc]
        exact List.prefix_append _ _
      exact List.prefix_of_prefix_length_le hall ht (by rw [length_wrU32]; omega)
    obtain ⟨bytes, rfl⟩ := hword
    rw [rdU32_wrU32]
    dsimp only
    rw [hn, if_pos (by omega)]
    exact ⟨_, rfl⟩

/-- Induction on the pairs: the cut is in the name, in the value or behind this pair. -/
theorem readPairs_truncated {headers : Headers} (hfit : HeadersFit headers) (pre : Bytes)
    {t : Bytes} (ht : Truncated t (wrPairs headers)) :
    ∃ e, readPairs (pre ++ t) headers.length pre.length = .error (.io e) := by
  induction headers generalizing pre t with
  | nil => exact absurd (List.prefix_nil.1 ht.1) ht.2
  | cons kv rest ih =>
    obtain ⟨k, v⟩ := kv
    obtain ⟨hk, hv⟩ := hfit (k, v) List.mem_cons_self
    have hrest : HeadersFit rest := fun x hx => hfit x (List.mem_cons_of_mem _ hx)
    rw [List.length_cons, readPairs]
    rcases ht.append_cases with hname | ⟨t₁, rfl, ht₁⟩
    · obtain ⟨e, he⟩ := takeText_truncated hk pre ht.1 hname
      exact ⟨e, by rw [he]⟩
    · rw [takeText_wrText hk]
      dsimp only
      rw [← List.length_append, ← List.append_assoc]
      rcases ht₁.append_cases with hvalue | ⟨t₂, rfl, ht₂⟩
      · obtain ⟨e, he⟩ := takeText_truncated hv (pre ++ wrText k) ht₁.1 hvalue
        exact ⟨e, by rw [he]⟩
      · rw [takeText_wrText hv]
        dsimp only
        rw [← List.length_append, ← List.append_assoc]
        obtain ⟨e, he⟩ := ih hrest (pre ++ wrText k ++ wrText v) ht₂
        exact ⟨e, by rw [he]⟩

theorem readNvBlock_truncated {headers : Headers} (hfit : HeadersFit headers)
    (hcount : headers.length < 2 ^ 32) {t : Bytes} (ht : Truncated t (writeNvBlock headers))
    (hlen : 4 ≤ t.length) : ∃ e, readNvBlock t = .error (.io e) := by
  have hn : (UInt32.ofNat headers.length).toNat = headers.length :=
    UInt32.toNat_ofNat_of_lt' hcount
  rcases ht.append_cases with hshort | ⟨t', rfl, ht'⟩
  · rw [length_wrU32] at hshort
    omega
  · have hpairs := readPairs_truncated hfit (wrU32 (UInt32.ofNat headers.length)) ht'
    rw [length_wrU32] at hpairs
    unfold readNvBlock
    rw [if_neg (Nat.not_lt.2 hlen), rdU32_wrU32]
    dsimp only
    rw [hn]
    exact hpairs

/-- The loop returns one pair for each turn. -/
theorem length_readPairs {buf : Bytes} {n off : Nat} {pairs : Headers}
    (h : readPairs buf n off = .ok pairs) : pairs.length = n := by
  induction n generalizing off pairs with
  | zero =>
    cases h
    rfl
  | succ n ih =>
    rw [readPairs] at h
    cases hname : takeText buf off with
    | error e =>
      rw [hname] at h
      cases h
    | ok name =>
      rw [hname] at h
      dsimp only at h
      cases hvalue : takeText buf name.2 with
      | error e =>
        rw [hvalue] at h
        cases h
      | ok value =>
        rw [hvalue] at h
        dsimp only at h
        cases hrest : readPairs buf n value.2 with
        | error e =>
          rw [hrest] at h
          cases h
        | ok rest =>
          rw [hrest] at h
          cases h
          rw [List.length_cons, ih hrest]

/-- **Self-delimiting blocks**: a block reads back whatever follows it; cut off anywhere behind
    its count it is refused; and what is returned has as many pairs as the count says. -/
theorem nv_block_self_delimiting :
    (∀ headers : Headers, headers.length < 2 ^ 32 → HeadersFit headers →
      (∀ extra, readNvBlock (writeNvBlock headers ++ extra) = .ok headers) ∧
      ∀ t, t <+: writeNvBlock headers → t ≠ writeNvBlock headers → 4 ≤ t.length →
        ∃ e, readNvBlock t = .error (.io e)) ∧
    ∀ (buf : Bytes) (pairs : Headers), 4 ≤ buf.length → readNvBlock buf = .ok pairs →
      ∃ count, rdU32 buf = .ok count ∧ pairs.length = count.toNat := by
  refine ⟨?_, ?_⟩
  · intro headers hcount hfit
    exact ⟨readNvBlock_append hfit hcount, fun t hpre hne hlen =>
      readNvBlock_truncated hfit hcount ⟨hpre, hne⟩ hlen⟩
  · intro buf pairs hlen h
    unfold readNvBlock at h
    rw [if_neg (Nat.not_lt.2 hlen)] at h
    cases hword : rdU32 buf with
    | error e =>
      rw [hword] at h
      cases h
    | ok count =>
      rw [hword] at h
      exact ⟨count, rfl, length_readPairs h⟩

end ContainerdRs.Cri.Spdy
