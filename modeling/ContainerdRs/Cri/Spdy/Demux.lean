import ContainerdRs.Cri.Spdy.ReadLoop
import ContainerdRs.Lib.Transition

/-!
# Demultiplexing of a SPDY connection

What the frames of a connection do to its channels, over whole sessions: streams open in any
order, ids are reused, and FIN, RST_STREAM and control frames come in between.

* `readLoop_session` — the read loop is a session on the frames it dispatches.
* `received_of_run` — the channel of a stream gets the payloads of its own life and no others.
* `readLoop_demux` — with the replies and pings in their places.
-/

set_option autoImplicit false

namespace ContainerdRs.Cri.Spdy

open Transition

/-- A connection in the course of its frames. -/
structure Session where
  conn : Conn
  /-- The loop has not returned. -/
  running : Bool
  /-- The frames handled, with the answers of the environment. -/
  seen : List (Frame × Answers)

def Session.new : Session := ⟨.new, true, []⟩

/-- One frame of the loop. -/
def sessionStep (s : Session) (x : Frame × Answers) : Option Session :=
  if s.running then
    some ⟨(handle x.2 s.conn x.1).1, (handle x.2 s.conn x.1).2, s.seen ++ [x]⟩
  else none

/-! ## The read loop is a session -/

section ReadLoop

variable {D I : Type} {Z : Flate D I} {fuel : Nat} {env : Nat → Answers}

/-- The frames of a loop with the answers they got. -/
def Loop.labels (env : Nat → Answers) (l : Loop D I) : List (Frame × Answers) :=
  l.dispatched.mapIdx fun i x => (x.1, env i)

/-- The connection of the loop is that of the session on its frames. -/
def Follows (env : Nat → Answers) (running : Bool) (l : Loop D I) : Prop :=
  run sessionStep .new (l.labels env) = some ⟨l.conn, running, l.labels env⟩

theorem labels_snoc (l : Loop D I) (nv : NvCodec D I) (conn : Conn) (x : Frame × NvCodec D I) :
    Loop.labels env ⟨nv, conn, l.dispatched ++ [x]⟩ =
      l.labels env ++ [(x.1, env l.dispatched.length)] := by
  simp [Loop.labels]

theorem labels_frames (l : Loop D I) : (l.labels env).map Prod.fst = l.dispatched.map Prod.fst := by
  refine List.ext_getElem? fun i => ?_
  simp only [Loop.labels, List.getElem?_map, List.getElem?_mapIdx, Option.map_map]
  rfl

/-- A frame that the loop dispatches is a step of the session. -/
theorem Follows.snoc {l : Loop D I} (h : Follows env true l) (nv : NvCodec D I)
    (x : Frame × NvCodec D I) :
    Follows env (handle (env l.dispatched.length) l.conn x.1).2
      ⟨nv, (handle (env l.dispatched.length) l.conn x.1).1, l.dispatched ++ [x]⟩ := by
  unfold Follows
  rw [labels_snoc, run_append h]
  simp [run, sessionStep]

theorem readLoop_session {reads : List Chunk} {o : Incremental.Outcome (Loop D I) Stop}
    (h : readLoop Z fuel env reads = .ok o) : ∃ running, Follows env running o.state := by
  unfold readLoop at h
  split at h
  · cases h
  · rename_i nv hnew
    cases h
    have hstart : Follows env true (⟨nv, .new, []⟩ : Loop D I) := rfl
    rw [Incremental.feed_eq_drain]
    refine Incremental.drain_invariant (P := Follows env true)
      (Q := fun l => ∃ running, Follows env running l) ?_ ?_ ?_ _ _ hstart
    · intro l buf n l' hl hlook
      simp only [readMachine, iteration] at hlook
      split at hlook
      · cases hlook
      · cases hlook
      · rename_i frame m nv' hp
        have hs := hl.snoc nv' (frame, nv')
        split at hlook
        · rename_i hgo
          cases hlook
          rwa [hgo] at hs
        · cases hlook
    · intro l buf l' hl hlook
      simp only [readMachine, iteration] at hlook
      split at hlook
      · cases hlook
      · cases hlook
        exact ⟨true, hl⟩
      · split at hlook <;> cases hlook
    · intro l buf e n l' hl hlook
      simp only [readMachine, iteration] at hlook
      split at hlook
      · cases hlook
        exact ⟨true, hl⟩
      · cases hlook
      · rename_i frame m nv' hp
        split at hlook
        · cases hlook
        · cases hlook
          exact ⟨_, hl.snoc nv' (frame, nv')⟩

end ReadLoop

/-! ## What a channel receives -/

/-- The payloads sent into channel `k`. -/
def received (k : Nat) (trace : List Event) : List Bytes :=
  trace.filterMap fun
    | .sent j payload => if j = k then some payload else none
    | _ => none

/-- The channel has no sender any more. -/
def Closed (c : Conn) (k : Nat) : Prop := ∀ id, c.streams id ≠ some k

/-- The sender of the channel is that of stream `id`. -/
structure Owned (c : Conn) (k : Nat) (id : UInt32) : Prop where
  sender : c.streams id = some k
  only : ∀ id', c.streams id' = some k → id' = id

theorem trace_fin (flags : UInt8) (id : UInt32) (c : Conn) :
    (if isFin flags then c.setStream id none else c).trace = c.trace := by
  split <;> rfl

/-- The part of a frame that goes into channel `k`. -/
def delivered (c : Conn) (k : Nat) : Frame → List Bytes
  | .data id _ payload => if payload ≠ [] ∧ c.streams id = some k then [payload] else []
  | _ => []

/-- **What one frame sends** into a channel. -/
theorem handle_received (a : Answers) (c : Conn) (f : Frame) (k : Nat) :
    received k (handle a c f).1.trace = received k c.trace ++ delivered c k f := by
  cases f with
  | data id flags payload =>
    simp only [handle, delivered]
    rw [trace_fin]
    by_cases hp : payload = []
    · simp [hp]
    · cases hs : c.streams id with
      | none => simp [hp]
      | some j =>
        by_cases hj : j = k
        · simp [hp, hj, Conn.emit, received]
        · simp [hp, hj, Conn.emit, received]
  | synStream id flags headers =>
    simp only [handle]
    split_ifs <;> simp [delivered, Conn.emit, Conn.setStream, Conn.close, received]
  | ping id =>
    simp only [handle]
    split_ifs <;> simp [delivered, Conn.emit, received]
  | _ => simp [handle, delivered, Conn.setStream, Conn.close]

theorem handle_data_streams (a : Answers) (c : Conn) (id : UInt32) (flags : UInt8)
    (payload : Bytes) :
    (handle a c (.data id flags payload)).1.streams =
      (if isFin flags then Function.update c.streams id none else c.streams) ∧
    (handle a c (.data id flags payload)).1.channels = c.channels := by
  simp only [handle]
  by_cases hp : payload = []
  · by_cases hf : isFin flags <;> simp [hp, hf, Conn.setStream]
  · cases c.streams id <;> by_cases hf : isFin flags <;> simp [hp, hf, Conn.setStream, Conn.emit]

theorem handle_channels_le (a : Answers) (c : Conn) (f : Frame) :
    c.channels ≤ (handle a c f).1.channels := by
  cases f with
  | data id flags payload => rw [(handle_data_streams a c id flags payload).2]
  | synStream id flags headers =>
    simp only [handle]
    split_ifs <;> simp [Conn.emit, Conn.setStream, Conn.close]
  | ping id =>
    simp only [handle]
    split_ifs <;> simp [Conn.emit]
  | _ => simp [handle, Conn.setStream, Conn.close]

/-- A sender that is in the map after a frame was in it before, or the frame opened its stream. -/
theorem handle_owner {a : Answers} {c : Conn} {f : Frame} {id : UInt32} {k : Nat}
    (h : (handle a c f).1.streams id = some k) :
    c.streams id = some k ∨
      (k = c.channels ∧ ∃ flags headers, f = .synStream id flags headers) := by
  cases f with
  | data i flags payload =>
    rw [(handle_data_streams a c i flags payload).1] at h
    split_ifs at h with hf
    · by_cases hi : id = i
      · simp [hi] at h
      · rw [Function.update_of_ne hi] at h
        exact Or.inl h
    · exact Or.inl h
  | synStream i flags headers =>
    simp only [handle] at h
    split_ifs at h with hw ha
    · simp [Conn.close] at h
    · simp only [Conn.emit, Conn.setStream] at h
      by_cases hi : id = i
      · simp only [hi, Function.update_self, Option.some.injEq] at h
        exact Or.inr ⟨h.symm, flags, headers, by rw [hi]⟩
      · rw [Function.update_of_ne hi] at h
        exact Or.inl h
    · simp [Conn.close] at h
  | rstStream i status =>
    simp only [handle, Conn.setStream] at h
    by_cases hi : id = i
    · simp [hi] at h
    · rw [Function.update_of_ne hi] at h
      exact Or.inl h
  | goAway i status => simp [handle, Conn.close] at h
  | ping i =>
    simp only [handle] at h
    split_ifs at h <;> exact Or.inl h
  | _ => exact Or.inl h

theorem handle_sender {a : Answers} {c : Conn} {f : Frame} {id : UInt32} {k : Nat}
    (h : (handle a c f).1.streams id = some k) (hk : k < c.channels) : c.streams id = some k := by
  rcases handle_owner h with h | ⟨h, -⟩
  · exact h
  · omega

/-- A closed channel stays closed. -/
theorem Closed.handle {a : Answers} {c : Conn} {k : Nat} (h : Closed c k) (hk : k < c.channels)
    (f : Frame) : Closed (handle a c f).1 k :=
  fun id hid => h id (handle_sender hid hk)

/-! ## The life of a stream -/

/-- The frame ends the channel of stream `id`: DATA with FIN, RST_STREAM, or the next
    SYN_STREAM with that id. -/
def closes (id : UInt32) : Frame → Bool
  | .data i flags _ => i == id && isFin flags
  | .rstStream i _ => i == id
  | .synStream i _ _ => i == id
  | _ => false

/-- The frames up to the one that closes stream `id`. -/
def upToEnd (id : UInt32) : List Frame → List Frame
  | [] => []
  | f :: rest => if closes id f then [f] else f :: upToEnd id rest

/-- The payloads of stream `id` that are not empty. -/
def payloads (id : UInt32) (frames : List Frame) : List Bytes :=
  frames.filterMap fun
    | .data i _ payload => if i = id ∧ payload ≠ [] then some payload else none
    | _ => none

theorem payloads_cons (id : UInt32) (f : Frame) (fs : List Frame) :
    payloads id (f :: fs) = payloads id [f] ++ payloads id fs := by
  rw [← List.singleton_append, payloads, List.filterMap_append]
  rfl

/-- The channel of a stream gets the payloads of its id. -/
theorem Owned.delivered {c : Conn} {k : Nat} {id : UInt32} (h : Owned c k id) (f : Frame) :
    delivered c k f = payloads id [f] := by
  cases f with
  | data i flags payload =>
    by_cases hi : i = id
    · subst hi
      by_cases hp : payload = [] <;> simp [Spdy.delivered, payloads, hp, h.sender]
    · have hne : c.streams i ≠ some k := fun hs => hi (h.only i hs)
      simp [Spdy.delivered, payloads, hi, hne]
  | _ => rfl

theorem Closed.delivered {c : Conn} {k : Nat} (h : Closed c k) (f : Frame) :
    delivered c k f = [] := by
  cases f with
  | data i flags payload => simp [Spdy.delivered, h i]
  | _ => rfl

theorem Owned.closed {a : Answers} {c : Conn} {k : Nat} {id : UInt32} (h : Owned c k id)
    (hk : k < c.channels) {f : Frame} (hf : closes id f = true) : Closed (handle a c f).1 k := by
  intro id' hid'
  obtain rfl := h.only id' (handle_sender hid' hk)
  cases f with
  | data i flags payload =>
    simp only [closes, Bool.and_eq_true, beq_iff_eq] at hf
    rw [(handle_data_streams a c i flags payload).1, if_pos hf.2, hf.1] at hid'
    simp at hid'
  | rstStream i status =>
    simp only [closes, beq_iff_eq] at hf
    simp [Spdy.handle, Conn.setStream, hf] at hid'
  | synStream i flags headers =>
    simp only [closes, beq_iff_eq] at hf
    simp only [Spdy.handle] at hid'
    split_ifs at hid' with hw ha
    · simp [Conn.close] at hid'
    · simp only [Conn.emit, Conn.setStream, hf, Function.update_self, Option.some.injEq] at hid'
      omega
    · simp [Conn.close] at hid'
  | _ => simp [closes] at hf

/-- While the loop runs, other frames leave the sender in its place. -/
theorem Owned.handle {a : Answers} {c : Conn} {k : Nat} {id : UInt32} (h : Owned c k id)
    (hk : k < c.channels) {f : Frame} (hf : closes id f = false)
    (hgo : (handle a c f).2 = true) : Owned (handle a c f).1 k id := by
  refine ⟨?_, fun id' hid' => h.only id' (handle_sender hid' hk)⟩
  have hs := h.sender
  cases f with
  | data i flags payload =>
    rw [(handle_data_streams a c i flags payload).1]
    split_ifs with hfin
    · have hi : id ≠ i := by
        rintro rfl
        simp [closes, hfin] at hf
      rwa [Function.update_of_ne hi]
    · exact hs
  | rstStream i status =>
    have hi : id ≠ i := by
      rintro rfl
      simp [closes] at hf
    simp only [Spdy.handle, Conn.setStream]
    rwa [Function.update_of_ne hi]
  | synStream i flags headers =>
    have hi : id ≠ i := by
      rintro rfl
      simp [closes] at hf
    simp only [Spdy.handle] at hgo ⊢
    split_ifs at hgo ⊢ with hw ha
    simp only [Conn.emit, Conn.setStream]
    rwa [Function.update_of_ne hi]
  | goAway i status => simp [Spdy.handle] at hgo
  | ping i =>
    simp only [Spdy.handle]
    split_ifs <;> exact hs
  | _ => exact hs

theorem sessionStep_some {s s' : Session} {x : Frame × Answers} (h : sessionStep s x = some s') :
    s.running = true ∧ s'.conn = (handle x.2 s.conn x.1).1 ∧
      s'.running = (handle x.2 s.conn x.1).2 ∧ s'.seen = s.seen ++ [x] := by
  unfold sessionStep at h
  split at h
  · rename_i hr
    cases h
    exact ⟨hr, rfl, rfl, rfl⟩
  · cases h

theorem channels_le_of_step {s s' : Session} {x : Frame × Answers} (h : sessionStep s x = some s') :
    s.conn.channels ≤ s'.conn.channels := by
  rw [(sessionStep_some h).2.1]
  exact handle_channels_le x.2 s.conn x.1

/-- A session that has returned takes no more frames. -/
theorem run_stopped {s s' : Session} {ls : List (Frame × Answers)} (hs : s.running = false)
    (h : run sessionStep s ls = some s') : ls = [] := by
  cases ls with
  | nil => rfl
  | cons x ls =>
    obtain ⟨t, ht, -⟩ := run_cons_some h
    rw [(sessionStep_some ht).1] at hs
    cases hs

/-- A closed channel receives nothing. -/
theorem Closed.received : ∀ {ls : List (Frame × Answers)} {s s' : Session} {k : Nat},
    Closed s.conn k → k < s.conn.channels → run sessionStep s ls = some s' →
      received k s'.conn.trace = received k s.conn.trace
  | [], s, s', k, _, _, h => by
    cases h
    rfl
  | x :: ls, s, s', k, hc, hk, h => by
    obtain ⟨t, ht, hr⟩ := run_cons_some h
    obtain ⟨-, hconn, -, -⟩ := sessionStep_some ht
    have hk' : k < t.conn.channels := hk.trans_le (channels_le_of_step ht)
    rw [Closed.received (hconn ▸ hc.handle hk x.1) hk' hr, hconn, handle_received, hc.delivered,
      List.append_nil]

/-- **The channel of a stream** receives the payloads of its id up to the frame that closes it. -/
theorem Owned.received : ∀ {ls : List (Frame × Answers)} {s s' : Session} {k : Nat} {id : UInt32},
    Owned s.conn k id → k < s.conn.channels → run sessionStep s ls = some s' →
      received k s'.conn.trace =
        received k s.conn.trace ++ payloads id (upToEnd id (ls.map Prod.fst))
  | [], s, s', k, id, _, _, h => by
    cases h
    simp [upToEnd, payloads]
  | x :: ls, s, s', k, id, ho, hk, h => by
    obtain ⟨t, ht, hr⟩ := run_cons_some h
    obtain ⟨-, hconn, hrun, -⟩ := sessionStep_some ht
    have hk' : k < t.conn.channels := hk.trans_le (channels_le_of_step ht)
    have htrace : Spdy.received k t.conn.trace =
        Spdy.received k s.conn.trace ++ payloads id [x.1] := by
      rw [hconn, handle_received, ho.delivered]
    rw [List.map_cons, upToEnd]
    cases hf : closes id x.1 with
    | true =>
      rw [Closed.received (hconn ▸ ho.closed hk hf) hk' hr, htrace]
      simp
    | false =>
      cases hgo : (Spdy.handle x.2 s.conn x.1).2 with
      | true =>
        rw [Owned.received (hconn ▸ ho.handle hk hf hgo) hk' hr, htrace, List.append_assoc,
          ← payloads_cons]
        simp
      | false =>
        -- the loop has returned: this was the last frame
        obtain rfl := run_stopped (hrun.trans hgo) hr
        cases hr
        rw [htrace]
        simp [upToEnd]

/-! ## Bookkeeping of a session -/

/-- The ids of the streams opened, in order: channel `k` is that of the `k`-th. -/
def synIds (frames : List Frame) : List UInt32 :=
  frames.filterMap fun
    | .synStream id _ _ => some id
    | _ => none

def Session.frames (s : Session) : List Frame := s.seen.map Prod.fst

theorem synIds_append (fs fs' : List Frame) : synIds (fs ++ fs') = synIds fs ++ synIds fs' :=
  List.filterMap_append

/-- The `k`-th stream in the frames. -/
theorem synIds_split : ∀ {fs : List Frame} {k : Nat} {id : UInt32}, (synIds fs)[k]? = some id →
    ∃ pre flags headers post, fs = pre ++ .synStream id flags headers :: post ∧
      (synIds pre).length = k
  | [], k, id, h => by simp [synIds] at h
  | f :: fs, k, id, h => by
    rw [← List.singleton_append, synIds_append] at h
    by_cases hf : synIds [f] = []
    · rw [hf, List.nil_append] at h
      obtain ⟨pre, flags, headers, post, rfl, hk⟩ := synIds_split h
      refine ⟨f :: pre, flags, headers, post, rfl, ?_⟩
      rw [← List.singleton_append, synIds_append, hf, List.nil_append, hk]
    · obtain ⟨i, flags, headers, rfl⟩ : ∃ i flags headers, f = .synStream i flags headers := by
        cases f with
        | synStream i flags headers => exact ⟨i, flags, headers, rfl⟩
        | _ => exact absurd rfl hf
      cases k with
      | zero =>
        simp [synIds] at h
        exact ⟨[], flags, headers, fs, by rw [h]; rfl, rfl⟩
      | succ k =>
        have h' : (synIds fs)[k]? = some id := by simpa [synIds] using h
        obtain ⟨pre, flags', headers', post, rfl, hk⟩ := synIds_split h'
        refine ⟨.synStream i flags headers :: pre, flags', headers', post, rfl, ?_⟩
        rw [← List.singleton_append, synIds_append, List.length_append, hk]
        simp [synIds, Nat.add_comm]

theorem synIds_at (pre : List Frame) (id : UInt32) (flags : UInt8) (headers : Headers)
    (post : List Frame) :
    (synIds (pre ++ .synStream id flags headers :: post))[(synIds pre).length]? = some id := by
  rw [synIds_append, List.getElem?_append_right (Nat.le_refl _)]
  simp [synIds]

/-- What ties the map of senders to the frames seen. -/
structure Kept (s : Session) : Prop where
  stopped : s.running = false → ∀ k, Closed s.conn k
  channels : s.running = true → s.conn.channels = (synIds s.frames).length
  owner : ∀ id k, s.conn.streams id = some k → (synIds s.frames)[k]? = some id
  fresh : s.running = true → ∀ k, s.conn.channels ≤ k → received k s.conn.trace = []

theorem kept_new : Kept .new where
  stopped h := by cases h
  channels _ := rfl
  owner id k h := by cases h
  fresh _ _ _ := rfl

theorem handle_stopped {a : Answers} {c : Conn} {f : Frame} (h : (handle a c f).2 = false)
    (k : Nat) : Closed (handle a c f).1 k := by
  cases f with
  | synStream id flags headers =>
    simp only [handle] at h ⊢
    split_ifs at h ⊢ <;> simp [Closed, Conn.close]
  | goAway id status => simp [handle, Closed, Conn.close]
  | _ => simp [handle] at h

theorem handle_channels {a : Answers} {c : Conn} {f : Frame} (h : (handle a c f).2 = true) :
    (handle a c f).1.channels = c.channels + (synIds [f]).length := by
  cases f with
  | data id flags payload =>
    rw [(handle_data_streams a c id flags payload).2]
    rfl
  | synStream id flags headers =>
    simp only [handle] at h ⊢
    split_ifs at h ⊢
    rfl
  | ping id =>
    simp only [handle]
    split_ifs <;> rfl
  | _ => rfl

/-- The owner of a channel is determined. -/
theorem Kept.owned {s : Session} (hs : Kept s) {id : UInt32} {k : Nat}
    (h : s.conn.streams id = some k) : Owned s.conn k id := by
  refine ⟨h, fun id' h' => ?_⟩
  have := (hs.owner id' k h').symm.trans (hs.owner id k h)
  exact Option.some.inj this

theorem Kept.lt_channels {s : Session} (hs : Kept s) (hr : s.running = true) {id : UInt32}
    {k : Nat} (h : s.conn.streams id = some k) : k < s.conn.channels := by
  rw [hs.channels hr]
  exact (List.getElem?_eq_some_iff.1 (hs.owner id k h)).1

theorem frames_step {s s' : Session} {x : Frame × Answers} (h : sessionStep s x = some s') :
    s'.frames = s.frames ++ [x.1] := by
  obtain ⟨-, -, -, hseen⟩ := sessionStep_some h
  simp [Session.frames, hseen]

theorem kept_step {s s' : Session} {x : Frame × Answers} (hs : Kept s)
    (h : sessionStep s x = some s') : Kept s' := by
  obtain ⟨hr, hconn, hrun, -⟩ := sessionStep_some h
  have hframes := frames_step h
  have hch := hs.channels hr
  refine ⟨fun hst k => ?_, fun hgo => ?_, fun id k hk => ?_, fun hgo k hk => ?_⟩
  · rw [hconn]
    exact handle_stopped (hrun ▸ hst) k
  · rw [hconn, handle_channels (hrun ▸ hgo), hframes, synIds_append, List.length_append, hch]
  · rw [hconn] at hk
    rw [hframes, synIds_append]
    rcases handle_owner hk with hold | ⟨hnew, flags, headers, hf⟩
    · have := hs.owner id k hold
      rw [List.getElem?_append_left (List.getElem?_eq_some_iff.1 this).1, this]
    · rw [hnew, hch, List.getElem?_append_right (Nat.le_refl _), hf]
      simp [synIds]
  · have hle := handle_channels_le x.2 s.conn x.1
    rw [hconn] at hk ⊢
    have hclosed : Closed s.conn k := fun id hid => by
      have := hs.lt_channels hr hid
      omega
    rw [handle_received, hs.fresh hr k (by omega), hclosed.delivered, List.nil_append]

/-! ## Replies and pings -/

/-- Everything but the payloads. -/
def isControl : Event → Bool
  | .sent _ _ => false
  | _ => true

/-- What the frames call for, with writes that succeed: one reply for each SYN_STREAM and then
    its channel for `accept`, one echo for each PING. -/
def answered : Nat → List (Frame × Answers) → List Event
  | _, [] => []
  | k, (.synStream id _ headers, a) :: rest =>
    .wrote (.synReply id 0 []) ::
      ((if a.acceptOk then [.offered k id headers] else []) ++ answered (k + 1) rest)
  | k, (.ping id, _) :: rest => .wrote (.ping id) :: answered k rest
  | k, _ :: rest => answered k rest

/-- One frame, with writes that succeed. -/
theorem handle_control {x : Frame × Answers} (c : Conn) (hw : x.2.writeOk = true) :
    (handle x.2 c x.1).1.trace.filter isControl =
      c.trace.filter isControl ++ answered c.channels [x] := by
  obtain ⟨f, a⟩ := x
  cases f with
  | data id flags payload =>
    simp only [handle]
    rw [trace_fin]
    split_ifs
    · simp [answered]
    · cases c.streams id <;> simp [answered, Conn.emit, isControl]
  | synStream id flags headers =>
    cases ha : a.acceptOk <;>
      simp_all [handle, answered, Conn.emit, Conn.setStream, Conn.close, isControl]
  | ping id => simp_all [handle, answered, Conn.emit, isControl]
  | _ => simp [handle, answered, Conn.setStream, Conn.close]

theorem answered_cons (k : Nat) (x : Frame × Answers) (ls : List (Frame × Answers)) :
    answered k (x :: ls) = answered k [x] ++ answered (k + (synIds [x.1]).length) ls := by
  obtain ⟨f, a⟩ := x
  cases f with
  | synStream id flags headers => cases ha : a.acceptOk <;> simp [answered, synIds, ha]
  | ping id => simp [answered, synIds]
  | _ => simp [answered, synIds]

theorem control_of_run : ∀ {ls : List (Frame × Answers)} {s s' : Session},
    (∀ x ∈ ls, x.2.writeOk = true) → run sessionStep s ls = some s' →
      s'.conn.trace.filter isControl =
        s.conn.trace.filter isControl ++ answered s.conn.channels ls
  | [], s, s', _, h => by
    cases h
    simp [answered]
  | x :: ls, s, s', hw, h => by
    obtain ⟨t, ht, hr⟩ := run_cons_some h
    obtain ⟨-, hconn, hrun, -⟩ := sessionStep_some ht
    have htrace := handle_control s.conn (hw x List.mem_cons_self)
    rw [← hconn] at htrace
    rw [answered_cons, control_of_run (fun y hy => hw y (List.mem_cons_of_mem _ hy)) hr, htrace,
      List.append_assoc]
    cases hgo : (handle x.2 s.conn x.1).2 with
    | true => rw [hconn, handle_channels hgo]
    | false =>
      obtain rfl := run_stopped (hrun.trans hgo) hr
      simp [answered]

/-! ## Demultiplexing -/

theorem kept_of_run {ls : List (Frame × Answers)} {s : Session}
    (h : run sessionStep .new ls = some s) : Kept s := by
  have hstep : ∀ (s : Session) (x : Frame × Answers) (s' : Session), Kept s → True →
      sessionStep s x = some s' → Kept s' := fun _ _ _ hk _ hs => kept_step hk hs
  exact run_invariant hstep ls .new s kept_new (fun _ _ => trivial) h

theorem frames_of_run : ∀ {ls : List (Frame × Answers)} {s s' : Session},
    run sessionStep s ls = some s' → s'.frames = s.frames ++ ls.map Prod.fst
  | [], s, s', h => by
    cases h
    simp
  | x :: ls, s, s', h => by
    obtain ⟨t, ht, hr⟩ := run_cons_some h
    rw [frames_of_run hr, frames_step ht]
    simp

/-- The channel of the stream opened behind `pre`. -/
theorem received_of_run {pre post : List (Frame × Answers)} {a : Answers} {id : UInt32}
    {flags : UInt8} {headers : Headers} {s : Session} (hw : a.writeOk = true)
    (h : run sessionStep .new (pre ++ (.synStream id flags headers, a) :: post) = some s) :
    received (synIds (pre.map Prod.fst)).length s.conn.trace =
      payloads id (upToEnd id (post.map Prod.fst)) := by
  obtain ⟨s₁, hpre, h₁⟩ := run_append_some h
  obtain ⟨s₂, hsyn, hpost⟩ := run_cons_some h₁
  have hkept := kept_of_run hpre
  have hframes : s₁.frames = pre.map Prod.fst := by
    rw [frames_of_run hpre]
    rfl
  obtain ⟨hr, hconn, hrun, -⟩ := sessionStep_some hsyn
  obtain ⟨k, hk⟩ : ∃ k, k = (synIds (pre.map Prod.fst)).length := ⟨_, rfl⟩
  have hch : s₁.conn.channels = k := by rw [hkept.channels hr, hframes, hk]
  rw [← hk]
  have hempty : received k s₂.conn.trace = [] := by
    rw [hconn, handle_received, hkept.fresh hr k (by omega)]
    rfl
  cases ha : a.acceptOk with
  | true =>
    -- the stream is accepted: its channel is the newest
    have howned : Owned s₂.conn k id := by
      have hstreams : s₂.conn.streams = Function.update s₁.conn.streams id (some k) := by
        rw [hconn]
        simp [handle, hw, ha, hch, Conn.emit, Conn.setStream]
      refine (kept_step hkept hsyn).owned ?_
      rw [hstreams, Function.update_self]
    have hlt : k < s₂.conn.channels := by
      rw [hconn]
      simp [handle, hw, ha, hch, Conn.emit, Conn.setStream]
    rw [howned.received hlt hpost, hempty, List.nil_append]
  | false =>
    -- `accept` is gone: the loop has returned
    have hstop : s₂.running = false := by simp [hrun, handle, hw, ha]
    obtain rfl := run_stopped hstop hpost
    cases hpost
    rw [hempty]
    rfl

/-- **SPDY demultiplexing.**  On the frames the read loop has dispatched, with writes that
    succeed: each SYN_STREAM got one SYN_REPLY and then its place in the queue of `accept`, each
    PING its echo, in the order of the frames; and the channel of each stream received, in
    order, exactly the payloads of its id that are not empty, from behind its SYN_STREAM up to
    the frame that closes it. -/
theorem readLoop_demux {D I : Type} {Z : Flate D I} {fuel : Nat} {env : Nat → Answers}
    {reads : List Chunk} {o : Incremental.Outcome (Loop D I) Stop}
    (h : readLoop Z fuel env reads = .ok o) (hw : ∀ i, (env i).writeOk = true) :
    o.state.conn.trace.filter isControl = answered 0 (o.state.labels env) ∧
    ∀ (pre post : List Frame) (id : UInt32) (flags : UInt8) (headers : Headers),
      o.state.dispatched.map Prod.fst = pre ++ .synStream id flags headers :: post →
        received (synIds pre).length o.state.conn.trace = payloads id (upToEnd id post) := by
  obtain ⟨running, hrun⟩ := readLoop_session h
  have hok : ∀ x ∈ o.state.labels env, x.2.writeOk = true := by
    intro x hx
    obtain ⟨i, hi, rfl⟩ := List.mem_mapIdx.1 hx
    exact hw i
  refine ⟨?_, fun pre post id flags headers hsplit => ?_⟩
  · have := control_of_run hok hrun
    simpa [Session.new, Conn.new] using this
  · have hmap : (o.state.labels env).map Prod.fst = pre ++ .synStream id flags headers :: post := by
      rw [← hsplit, labels_frames]
    obtain ⟨lpre, lrest, hlabels, rfl, hrest⟩ := List.map_eq_append_iff.1 hmap
    obtain ⟨x, lpost, rfl, hx, rfl⟩ := List.map_eq_cons_iff.1 hrest
    obtain ⟨f, a⟩ := x
    simp only at hx
    subst hx
    have ha : a.writeOk = true := hok (.synStream id flags headers, a) (by simp [hlabels])
    unfold Follows at hrun
    rw [hlabels] at hrun
    exact received_of_run ha hrun

/-- A SYN_STREAM without headers that opens stream 1, and its data with FIN. -/
def openThenData : Chunk :=
  ⟨[0x80, 3, 0, 1, 0, 0, 0, 10, 0, 0, 0, 1, 0, 0, 0, 0, 0, 0,
    0, 0, 0, 1, 1, 0, 0, 2, 104, 105], by decide, by decide⟩

theorem openThenData_demux :
    ∃ o, readLoop storedFlate 1 (fun _ => ⟨true, true⟩) [openThenData] = .ok o ∧
      o.state.dispatched.map Prod.fst = [.synStream 1 0 [], .data 1 1 [104, 105]] ∧
      received 0 o.state.conn.trace = [[104, 105]] := by
  obtain ⟨o, ho⟩ : ∃ o, readLoop storedFlate 1 (fun _ => ⟨true, true⟩) [openThenData] = .ok o :=
    ⟨_, rfl⟩
  have hframes : o.state.dispatched.map Prod.fst = [.synStream 1 0 [], .data 1 1 [104, 105]] := by
    simp only [readLoop, NvCodec.new, storedFlate, Except.ok.injEq] at ho
    rw [Incremental.feed_eq_drain, Incremental.drain_next rfl, Incremental.drain_next rfl,
      Incremental.drain_more rfl] at ho
    rw [← ho]
    rfl
  refine ⟨o, ho, hframes, ?_⟩
  exact (readLoop_demux ho fun _ => rfl).2 [] [.data 1 1 [104, 105]] 1 0 [] hframes

end ContainerdRs.Cri.Spdy
