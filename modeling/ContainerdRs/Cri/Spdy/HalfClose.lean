import ContainerdRs.Cri.Spdy.Demux

/-!
# Half-close of a SPDY stream

`SpdyStream` promises its consumer the end of `data` once the peer has finished its side.  The
read loop drops a sender on DATA with `FLAG_FIN` and on RST_STREAM; it does not look at the flags
of SYN_STREAM and HEADERS.

* `half_close_iff` — when a channel is closed as soon as the peer has finished its side.
* `syn_fin_stays_open` — a stream opened with `FLAG_FIN` is not.
-/

set_option autoImplicit false

namespace ContainerdRs.Cri.Spdy

open Transition

/-- The peer has finished its side of stream `id` with this frame. -/
def finishes (id : UInt32) : Frame → Bool
  | .synStream i flags _ => i == id && isFin flags
  | .headers i flags _ => i == id && isFin flags
  | .data i flags _ => i == id && isFin flags
  | .rstStream i _ => i == id
  | _ => false

/-- **The channel of every stream that the peer has finished is closed.** -/
def HalfClosed (s : Session) : Prop :=
  ∀ (pre post : List Frame) (id : UInt32) (flags : UInt8) (headers : Headers),
    s.frames = pre ++ .synStream id flags headers :: post →
      (∃ f ∈ .synStream id flags headers :: post, finishes id f = true) →
        Closed s.conn (synIds pre).length

/-- The condition on a frame, on the connection before it: a stream that is accepted is not
    opened with FIN, and HEADERS with FIN come for no open stream. -/
def FinHonored (s : Session) (x : Frame × Answers) : Prop :=
  match x.1 with
  | .synStream _ flags _ => x.2.writeOk = true → x.2.acceptOk = true → isFin flags = false
  | .headers id flags _ => isFin flags = true → s.conn.streams id = none
  | _ => True

/-- Apart from SYN_STREAM and HEADERS, the frame that finishes a stream closes it. -/
theorem finishes_cases {id : UInt32} {f : Frame} (h : finishes id f = true) :
    closes id f = true ∨ ∃ flags headers, f = .headers id flags headers ∧ isFin flags = true := by
  cases f with
  | headers i flags headers =>
    simp only [finishes, Bool.and_eq_true, beq_iff_eq] at h
    exact Or.inr ⟨flags, headers, by rw [h.1], h.2⟩
  | synStream i flags headers =>
    simp only [finishes, Bool.and_eq_true] at h
    exact Or.inl h.1
  | _ => exact Or.inl h

/-- A stream of the longer list of frames is one of the shorter, or the last. -/
theorem split_snoc {frames pre post : List Frame} {f g : Frame}
    (h : frames ++ [f] = pre ++ g :: post) :
    (post = [] ∧ frames = pre ∧ f = g) ∨
      ∃ post', post = post' ++ [f] ∧ frames = pre ++ g :: post' := by
  rcases List.eq_nil_or_concat post with rfl | ⟨post', x, rfl⟩
  · have := List.append_inj' h rfl
    exact Or.inl ⟨rfl, this.1, by simpa using this.2⟩
  · refine Or.inr ⟨post', ?_⟩
    have h' : frames ++ [f] = (pre ++ g :: post') ++ [x] := by simpa using h
    obtain ⟨hframes, hx⟩ := List.append_inj' h' rfl
    simp only [List.cons.injEq, and_true] at hx
    exact ⟨by rw [hx, List.concat_eq_append], hframes⟩

theorem handle_accepted {a : Answers} {c : Conn} {id : UInt32} {flags : UInt8} {headers : Headers}
    (h : (handle a c (.synStream id flags headers)).2 = true) :
    a.writeOk = true ∧ a.acceptOk = true := by
  simp only [handle] at h
  split_ifs at h with hw ha
  exact ⟨by simpa using hw, ha⟩

/-- A frame that meets the condition keeps finished streams closed. -/
theorem halfClosed_step {s s' : Session} {x : Frame × Answers} (hk : Kept s) (hc : HalfClosed s)
    (hfin : FinHonored s x) (h : sessionStep s x = some s') : HalfClosed s' := by
  obtain ⟨hr, hconn, hrun, -⟩ := sessionStep_some h
  have hk' := kept_step hk h
  intro pre post id flags headers hsplit hends id' hid'
  -- the sender can only be that of stream `id` itself
  obtain rfl : id' = id := by
    have hown := hk'.owner id' _ hid'
    rw [hsplit, synIds_at] at hown
    exact (Option.some.inj hown).symm
  have hgo : s'.running = true := by
    cases hs : s'.running with
    | true => rfl
    | false => exact absurd hid' (hk'.stopped hs _ _)
  rw [hconn] at hid'
  rw [frames_step h] at hsplit
  rcases handle_owner hid' with hold | ⟨hnew, flags', headers', hf⟩
  · have hlt := hk.lt_channels hr hold
    have howned := hk.owned hold
    rcases split_snoc hsplit with ⟨-, hpre, -⟩ | ⟨post', rfl, hframes⟩
    · rw [hk.channels hr, hpre] at hlt
      exact absurd hlt (Nat.lt_irrefl _)
    · obtain ⟨f, hf, hfid⟩ := hends
      rw [← List.cons_append, List.mem_append] at hf
      rcases hf with hf | hf
      · exact hc pre post' id' flags headers hframes ⟨f, hf, hfid⟩ id' hold
      · rw [List.mem_singleton.1 hf] at hfid
        rcases finishes_cases hfid with hcl | ⟨flags', headers', hx, hfl⟩
        · exact howned.closed hlt hcl id' hid'
        · simp only [FinHonored, hx] at hfin
          rw [hfin hfl] at hold
          cases hold
  · -- the frame opened the stream, without FIN
    rw [hrun, hf] at hgo
    obtain ⟨hw, ha⟩ := handle_accepted hgo
    simp only [FinHonored, hf] at hfin
    rcases split_snoc hsplit with ⟨rfl, -, hx⟩ | ⟨post', -, hframes⟩
    · obtain ⟨f, hmem, hfid⟩ := hends
      rw [List.mem_singleton.1 hmem, ← hx, hf] at hfid
      simp only [finishes, beq_self_eq_true, Bool.true_and] at hfid
      rw [hfin hw ha] at hfid
      cases hfid
    · rw [hk.channels hr, hframes, synIds_append, List.length_append] at hnew
      simp [synIds] at hnew

/-- A frame that does not meet it leaves one open. -/
theorem finHonored_of_halfClosed {s s' : Session} {x : Frame × Answers} (hk : Kept s)
    (h : sessionStep s x = some s') (hc : HalfClosed s') : FinHonored s x := by
  obtain ⟨hr, hconn, -, -⟩ := sessionStep_some h
  have hframes := frames_step h
  obtain ⟨f, a⟩ := x
  cases f with
  | synStream id flags headers =>
    intro hw ha
    by_contra hfl
    have hclosed := hc s.frames [] id flags headers hframes
      ⟨_, List.mem_singleton.2 rfl, by simpa [finishes] using hfl⟩
    refine hclosed id ?_
    simp only at hw ha
    rw [hconn, ← hk.channels hr]
    simp [handle, hw, ha, Conn.emit, Conn.setStream]
  | headers id flags headers =>
    intro hfl
    by_contra hopen
    obtain ⟨k, hk'⟩ := Option.ne_none_iff_exists'.1 hopen
    obtain ⟨pre, flags', headers', post, hsplit, hlen⟩ := synIds_split (hk.owner id k hk')
    have hclosed := hc pre (post ++ [.headers id flags headers]) id flags' headers'
      (by rw [hframes, hsplit]; simp) ⟨.headers id flags headers, by simp, by simp [finishes, hfl]⟩
    refine hclosed id ?_
    rw [hconn, hlen]
    exact hk'
  | _ => trivial

/-- **Half-close.**  In a session, the channel of every stream that the peer has finished is
    closed after each frame, exactly when every frame meets `FinHonored`. -/
theorem half_close_iff (ls : List (Frame × Answers)) :
    (∀ x ∈ steps sessionStep .new ls, HalfClosed x.2.2) ↔
      ∀ x ∈ steps sessionStep .new ls, FinHonored x.1 x.2.1 := by
  have hnew : Kept .new ∧ HalfClosed .new := by
    refine ⟨kept_new, fun pre post id flags headers hsplit => ?_⟩
    simp [Session.frames, Session.new] at hsplit
  have hstep : ∀ (s : Session) (x : Frame × Answers) (s' : Session), Kept s ∧ HalfClosed s →
      FinHonored s x → sessionStep s x = some s' → Kept s' ∧ HalfClosed s' :=
    fun s x s' hi hok h => ⟨kept_step hi.1 h, halfClosed_step hi.1 hi.2 hok h⟩
  refine forall_steps_iff hstep (fun s x s' hi h => ?_) ls Session.new hnew
  exact ⟨finHonored_of_halfClosed hi.1 h, fun hok => halfClosed_step hi.1 hi.2 hok h⟩

/-- A stream that is opened with FIN. -/
def synFin : List (Frame × Answers) := [(.synStream 1 1 [], ⟨true, true⟩)]

/-- Its channel keeps its sender. -/
theorem syn_fin_stays_open :
    ¬ ∀ ls, ∀ x ∈ steps sessionStep .new ls, HalfClosed x.2.2 := by
  intro h
  have hclosed := h synFin _ List.mem_cons_self [] [] 1 1 [] rfl ⟨_, List.mem_singleton.2 rfl, rfl⟩
  exact hclosed 1 (by decide)

end ContainerdRs.Cri.Spdy
