import Mathlib.Data.List.Induction
import ContainerdRs.CoreTypes

/-!
# Port-forward over WebSocket (`handle_portforward`)

Channels come in pairs, data `2 * i` and error `2 * i + 1`.  The first frame of a data channel
carries the port as two bytes, little-endian; what follows is data for the connection.  The code
takes a frame for the first as long as the channel has no entry in `writers`, and only a connect
that succeeds makes one.

* `Opens` — the frame from which the connection of a channel is opened, over all frames so far.
* `forward_spec` — what is dialed and what is written, frame by frame.
* `declared_ports_iff` — when only declared ports are dialed.
* `data_dialed_as_port` — after a failed connect the next data frame is taken for a port.
-/

set_option autoImplicit false

namespace ContainerdRs.Cri.Streaming.Ws

/-! ## The handler -/

/-- A binary message, with the answers of the environment should they be needed. -/
structure Frame where
  data : Bytes
  /-- `TcpStream::connect`: the error text, if it fails. -/
  connect : Except String Unit
  /-- How many bytes of a write the connection takes before `write_all` fails, if it does. -/
  taken : Nat

/-- What `stream.next()` yields. -/
inductive Message where
  | binary (frame : Frame)
  /-- Text, ping, pong and close messages. -/
  | other

/-- What the handler does.  A message is named by its place in the stream, a connection by the
    message it was opened from. -/
inductive Event where
  | dialed (message : Nat) (channel : UInt8) (host : String) (port : UInt16)
  | wrote (message : Nat) (channel : UInt8) (connection : Nat) (bytes : Bytes)
  /-- A message sent to the client. -/
  | sent (data : Bytes)
  deriving DecidableEq, Repr

/-- The message that a write comes from. -/
def Event.writtenFrom : Event → Option Nat
  | .wrote message _ _ _ => some message
  | _ => none

/-- The locals of the handler, the number of messages so far and the trace. -/
structure Forward where
  seen : Nat
  writers : UInt8 → Option Nat
  trace : List Event

def Forward.new : Forward := ⟨0, fun _ => none, []⟩

/-- `frame`. -/
def frame (channel : UInt8) (data : Bytes) : Bytes := channel :: data

/-- `u16::from_le_bytes`. -/
def fromLeBytes (b0 b1 : UInt8) : UInt16 := UInt16.ofNat (b0.toNat + 256 * b1.toNat)

/-- The text of a failed connect. -/
def connectFailure (port : UInt16) (e : String) : Bytes :=
  ("\x7b\"status\":\"Failure\",\"message\":\"connect 127.0.0.1:" ++ toString port.toNat ++ ": " ++
    e ++ "\"\x7d").toUTF8.data.toList

/-- A frame of a data channel. -/
def onData (host : String) (s : Forward) (f : Frame) (channel : UInt8) (payload : Bytes) :
    Forward :=
  match s.writers channel with
  | some connection =>
    { s with
      seen := s.seen + 1
      trace := s.trace ++ [.wrote s.seen channel connection (payload.take f.taken)] }
  | none =>
    match payload with
    | b0 :: b1 :: rest =>
      let port := fromLeBytes b0 b1
      match f.connect with
      | .ok _ =>
        { seen := s.seen + 1
          writers := Function.update s.writers channel (some s.seen)
          -- any data after the port goes straight to the connection
          trace := s.trace ++ .dialed s.seen channel host port ::
            (if rest = [] then [] else [.wrote s.seen channel s.seen (rest.take f.taken)]) }
      | .error e =>
        { s with
          seen := s.seen + 1
          trace := s.trace ++ [.dialed s.seen channel host port,
            .sent (frame (channel + 1) (connectFailure port e))] }
    | _ => { s with seen := s.seen + 1 }

/-- `handle_portforward`, the loop body. -/
def onMessage (host : String) (s : Forward) : Message → Forward
  | .other => { s with seen := s.seen + 1 }
  | .binary f =>
    match f.data with
    | [] => { s with seen := s.seen + 1 }
    | channel :: payload =>
      -- error channels only carry the initial port
      if channel % 2 = 1 then { s with seen := s.seen + 1 }
      else onData host s f channel payload

/-- `handle_portforward`. -/
def handlePortforward (host : String) (messages : List Message) : Forward :=
  messages.foldl (onMessage host) .new

/-! ## Headers -/

/-- The message is a frame of a data channel, with this payload. -/
def IsData (messages : List Message) (i : Nat) (channel : UInt8) (f : Frame) (payload : Bytes) :
    Prop :=
  messages[i]? = some (.binary f) ∧ f.data = channel :: payload ∧ channel % 2 ≠ 1

/-- A frame of the data channel with at least two payload bytes. -/
def HasPort (messages : List Message) (channel : UInt8) (i : Nat) : Prop :=
  ∃ f payload, IsData messages i channel f payload ∧ 2 ≤ payload.length

/-- The first such frame of the channel. -/
def IsHeader (messages : List Message) (channel : UInt8) (i : Nat) : Prop :=
  HasPort messages channel i ∧ ∀ j < i, ¬ HasPort messages channel j

/-- The connect of this message would fail. -/
def Fails (messages : List Message) (i : Nat) : Prop :=
  ∃ f e, messages[i]? = some (.binary f) ∧ f.connect = .error e

/-- The port in the payload of a message. -/
def PortAt (messages : List Message) (channel : UInt8) (i : Nat) (port : UInt16) : Prop :=
  ∃ f b0 b1 rest, IsData messages i channel f (b0 :: b1 :: rest) ∧ port = fromLeBytes b0 b1

/-- **Only declared ports are dialed**, and what follows a port is data. -/
structure Declared (messages : List Message) (trace : List Event) : Prop where
  /-- A dial is for the port in the first frame of its channel that has one. -/
  dials : ∀ i channel host port, .dialed i channel host port ∈ trace →
    IsHeader messages channel i ∧ PortAt messages channel i port
  /-- What is written comes from that frame, behind the port, or from a later one, and goes to the
      connection of that frame. -/
  writes : ∀ i channel connection bytes, .wrote i channel connection bytes ∈ trace →
    IsHeader messages channel connection ∧ ∃ f payload, IsData messages i channel f payload ∧
      ((i = connection ∧ bytes <+: payload.drop 2) ∨ (connection < i ∧ bytes <+: payload))
  /-- In the order of the messages. -/
  inOrder : (trace.filterMap Event.writtenFrom).Pairwise (· < ·)

/-! ## One more message -/

section snoc

variable {messages : List Message} {m : Message} {channel : UInt8} {i : Nat}

theorem isData_snoc {f : Frame} {payload : Bytes} :
    IsData (messages ++ [m]) i channel f payload ↔ IsData messages i channel f payload ∨
      (i = messages.length ∧ m = .binary f ∧ f.data = channel :: payload ∧ channel % 2 ≠ 1) := by
  unfold IsData
  rcases Nat.lt_trichotomy i messages.length with hi | hi | hi
  · rw [List.getElem?_append_left hi]
    have hne : i ≠ messages.length := Nat.ne_of_lt hi
    simp [hne]
  · subst hi
    simp
  · have hnone : messages[i]? = none := List.getElem?_eq_none (Nat.le_of_lt hi)
    have hnone' : (messages ++ [m])[i]? = none := by
      apply List.getElem?_eq_none
      rw [List.length_append, List.length_singleton]
      omega
    have hne : i ≠ messages.length := Nat.ne_of_gt hi
    simp [hnone, hnone', hne]

theorem IsData.lt {f : Frame} {payload : Bytes} (h : IsData messages i channel f payload) :
    i < messages.length := by
  obtain ⟨hlt, -⟩ := List.getElem?_eq_some_iff.1 h.1
  exact hlt

theorem HasPort.lt (h : HasPort messages channel i) : i < messages.length := by
  obtain ⟨f, payload, hdata, -⟩ := h
  exact hdata.lt

theorem PortAt.hasPort {port : UInt16} (h : PortAt messages channel i port) :
    HasPort messages channel i := by
  obtain ⟨f, b0, b1, rest, hdata, -⟩ := h
  exact ⟨f, _, hdata, by simp⟩

theorem hasPort_snoc (hi : i < messages.length) :
    HasPort (messages ++ [m]) channel i ↔ HasPort messages channel i := by
  unfold HasPort
  simp only [isData_snoc, Nat.ne_of_lt hi, false_and, or_false]

theorem portAt_snoc {port : UInt16} (hi : i < messages.length) :
    PortAt (messages ++ [m]) channel i port ↔ PortAt messages channel i port := by
  unfold PortAt
  simp only [isData_snoc, Nat.ne_of_lt hi, false_and, or_false]

theorem fails_snoc (hi : i < messages.length) :
    Fails (messages ++ [m]) i ↔ Fails messages i := by
  unfold Fails
  rw [List.getElem?_append_left hi]

/-- The last message. -/
theorem hasPort_last : HasPort (messages ++ [m]) channel messages.length ↔
    ∃ f payload, m = .binary f ∧ f.data = channel :: payload ∧ channel % 2 ≠ 1 ∧
      2 ≤ payload.length := by
  unfold HasPort
  constructor
  · rintro ⟨f, payload, hdata, hlen⟩
    rcases isData_snoc.1 hdata with hdata | ⟨-, hm, hf, hodd⟩
    · exact absurd hdata.lt (Nat.lt_irrefl _)
    · exact ⟨f, payload, hm, hf, hodd, hlen⟩
  · rintro ⟨f, payload, hm, hf, hodd, hlen⟩
    exact ⟨f, payload, isData_snoc.2 (.inr ⟨rfl, hm, hf, hodd⟩), hlen⟩

end snoc

/-! ## What is dialed and written -/

/-- Every frame before this one that could have opened the channel has failed to. -/
def AllFailed (messages : List Message) (channel : UInt8) (i : Nat) : Prop :=
  ∀ j < i, HasPort messages channel j → Fails messages j

/-- The connection of the channel is opened from this frame. -/
def Opens (messages : List Message) (channel : UInt8) (i : Nat) : Prop :=
  HasPort messages channel i ∧ ¬ Fails messages i ∧ AllFailed messages channel i

/-- The state of the handler, from the messages so far. -/
structure Spec (host : String) (messages : List Message) (s : Forward) : Prop where
  seen : s.seen = messages.length
  writers : ∀ channel i, s.writers channel = some i ↔ Opens messages channel i
  dials : ∀ i channel host' port, .dialed i channel host' port ∈ s.trace ↔
    host' = host ∧ PortAt messages channel i port ∧ AllFailed messages channel i
  writes : ∀ i channel connection bytes, .wrote i channel connection bytes ∈ s.trace →
    Opens messages channel connection ∧ ∃ f payload, IsData messages i channel f payload ∧
      ((i = connection ∧ bytes <+: payload.drop 2) ∨ (connection < i ∧ bytes <+: payload))
  inOrder : (s.trace.filterMap Event.writtenFrom).Pairwise (· < ·)

section

variable {messages : List Message} {m : Message} {channel : UInt8} {i : Nat}

theorem allFailed_snoc (hi : i ≤ messages.length) :
    AllFailed (messages ++ [m]) channel i ↔ AllFailed messages channel i := by
  unfold AllFailed
  refine forall_congr' fun j => forall_congr' fun hj => ?_
  rw [hasPort_snoc (Nat.lt_of_lt_of_le hj hi), fails_snoc (Nat.lt_of_lt_of_le hj hi)]

theorem opens_snoc (hi : i < messages.length) :
    Opens (messages ++ [m]) channel i ↔ Opens messages channel i := by
  unfold Opens
  rw [hasPort_snoc hi, fails_snoc hi, allFailed_snoc (Nat.le_of_lt hi)]

theorem Opens.lt (h : Opens messages channel i) : i < messages.length := h.1.lt

/-- As long as nothing has opened the channel, every frame that could have has failed. -/
theorem allFailed_of_no_opens (h : ∀ i, ¬ Opens messages channel i) :
    ∀ i, AllFailed messages channel i := by
  intro i
  induction i with
  | zero => exact fun j hj => absurd hj (Nat.not_lt_zero j)
  | succ i ih =>
    intro j hj hport
    rcases Nat.lt_succ_iff_lt_or_eq.1 hj with hj | rfl
    · exact ih j hj hport
    · by_contra hfails
      exact h j ⟨hport, hfails, ih⟩

/-- One more message, from what it adds. -/
theorem Spec.snoc_of {host : String} {s s' : Forward} (hs : Spec host messages s)
    (events : List Event) (hseen : s'.seen = s.seen + 1)
    (hwriters : ∀ channel i, s'.writers channel = some i ↔
      s.writers channel = some i ∨ (i = messages.length ∧ Opens (messages ++ [m]) channel i))
    (htrace : s'.trace = s.trace ++ events)
    (hdials : ∀ i channel host' port, .dialed i channel host' port ∈ events ↔
      i = messages.length ∧ host' = host ∧ PortAt (messages ++ [m]) channel i port ∧
        AllFailed (messages ++ [m]) channel i)
    (hwrites : ∀ i channel connection bytes, .wrote i channel connection bytes ∈ events →
      i = messages.length ∧ Opens (messages ++ [m]) channel connection ∧
        ∃ f payload, IsData (messages ++ [m]) i channel f payload ∧
          ((i = connection ∧ bytes <+: payload.drop 2) ∨ (connection < i ∧ bytes <+: payload)))
    (hone : (events.filterMap Event.writtenFrom).length ≤ 1) :
    Spec host (messages ++ [m]) s' := by
  refine ⟨?_, ?_, ?_, ?_, ?_⟩
  · rw [hseen, hs.seen, List.length_append, List.length_singleton]
  · intro channel i
    rw [hwriters, hs.writers]
    constructor
    · rintro (h | ⟨-, h⟩)
      · exact (opens_snoc h.lt).2 h
      · exact h
    · intro h
      by_cases hi : i = messages.length
      · exact .inr ⟨hi, h⟩
      · have hlt := h.lt
        rw [List.length_append, List.length_singleton] at hlt
        exact .inl ((opens_snoc (by omega)).1 h)
  · intro i channel host' port
    rw [htrace, List.mem_append, hs.dials, hdials]
    constructor
    · rintro (⟨hhost, hport, hfailed⟩ | ⟨-, h⟩)
      · have hlt := hport.hasPort.lt
        exact ⟨hhost, (portAt_snoc hlt).2 hport, (allFailed_snoc (Nat.le_of_lt hlt)).2 hfailed⟩
      · exact h
    · rintro ⟨hhost, hport, hfailed⟩
      by_cases hi : i = messages.length
      · exact .inr ⟨hi, hhost, hport, hfailed⟩
      · have hlt := hport.hasPort.lt
        rw [List.length_append, List.length_singleton] at hlt
        have hlt' : i < messages.length := by omega
        exact .inl ⟨hhost, (portAt_snoc hlt').1 hport,
          (allFailed_snoc (Nat.le_of_lt hlt')).1 hfailed⟩
  · intro i channel connection bytes h
    rw [htrace, List.mem_append] at h
    rcases h with h | h
    · obtain ⟨hopens, f, payload, hdata, hbytes⟩ := hs.writes i channel connection bytes h
      exact ⟨(opens_snoc hopens.lt).2 hopens, f, payload, isData_snoc.2 (.inl hdata), hbytes⟩
    · exact (hwrites i channel connection bytes h).2
  · rw [htrace, List.filterMap_append, List.pairwise_append]
    refine ⟨hs.inOrder, ?_, ?_⟩
    · revert hone
      generalize events.filterMap Event.writtenFrom = ws
      intro hone
      cases ws with
      | nil => exact .nil
      | cons w ws =>
        cases ws with
        | nil => exact List.pairwise_singleton _ _
        | cons w' ws => simp at hone
    · intro a ha b hb
      obtain ⟨ea, hea, ha⟩ := List.mem_filterMap.1 ha
      obtain ⟨eb, heb, hb⟩ := List.mem_filterMap.1 hb
      cases ea with
      | wrote i channel connection bytes =>
        cases eb with
        | wrote i' channel' connection' bytes' =>
          cases ha
          cases hb
          obtain ⟨-, f, payload, hdata, -⟩ := hs.writes _ _ _ _ hea
          rw [(hwrites _ _ _ _ heb).1]
          exact hdata.lt
        | _ => cases hb
      | _ => cases ha

/-- A message that is no frame of a data channel, or a short one of a channel that is not open. -/
theorem Spec.skip {host : String} {s : Forward} (hs : Spec host messages s)
    (hm : ∀ channel, ¬ HasPort (messages ++ [m]) channel messages.length) :
    Spec host (messages ++ [m]) { s with seen := s.seen + 1 } := by
  refine hs.snoc_of [] rfl ?_ (by simp) ?_ ?_ (by simp)
  · intro channel i
    constructor
    · exact .inl
    · rintro (h | ⟨rfl, h⟩)
      · exact h
      · exact absurd h.1 (hm channel)
  · intro i channel host' port
    constructor
    · intro h
      cases h
    · rintro ⟨rfl, -, h, -⟩
      exact absurd h.hasPort (hm channel)
  · intro i channel connection bytes h
    cases h

/-- Only its own channel has a port in the last message. -/
theorem channel_of_hasPort {f : Frame} {payload : Bytes} (hm : m = .binary f)
    (hf : f.data = channel :: payload) {channel' : UInt8}
    (h : HasPort (messages ++ [m]) channel' messages.length) :
    channel' = channel ∧ 2 ≤ payload.length := by
  obtain ⟨f', payload', hm', hf', -, hlen⟩ := hasPort_last.1 h
  rw [hm] at hm'
  cases hm'
  rw [hf] at hf'
  cases hf'
  exact ⟨rfl, hlen⟩

/-- Data for the connection of its channel. -/
theorem Spec.data {host : String} {s : Forward} (hs : Spec host messages s) {f : Frame}
    {payload : Bytes} {connection : Nat} (hm : m = .binary f) (hf : f.data = channel :: payload)
    (hodd : channel % 2 ≠ 1) (hopen : s.writers channel = some connection) :
    Spec host (messages ++ [m])
      { s with
        seen := s.seen + 1
        trace := s.trace ++ [.wrote s.seen channel connection (payload.take f.taken)] } := by
  have hopens := (hs.writers channel connection).1 hopen
  -- the channel is open, so no later frame can open it
  have hlater : ∀ channel', HasPort (messages ++ [m]) channel' messages.length →
      ¬ AllFailed (messages ++ [m]) channel' messages.length := by
    intro channel' hport hfailed
    obtain ⟨rfl, -⟩ := channel_of_hasPort hm hf hport
    rw [allFailed_snoc (Nat.le_refl _)] at hfailed
    exact hopens.2.1 (hfailed connection hopens.lt hopens.1)
  refine hs.snoc_of [.wrote s.seen channel connection (payload.take f.taken)] rfl ?_ rfl ?_ ?_
    (by simp [Event.writtenFrom])
  · intro channel' i
    constructor
    · exact .inl
    · rintro (h | ⟨rfl, h⟩)
      · exact h
      · exact absurd h.2.2 (hlater channel' h.1)
  · intro i channel' host' port
    constructor
    · intro h
      cases List.mem_singleton.1 h
    · rintro ⟨rfl, -, h, hfailed⟩
      exact absurd hfailed (hlater channel' h.hasPort)
  · intro i channel' connection' bytes h
    cases List.mem_singleton.1 h
    refine ⟨hs.seen, (opens_snoc hopens.lt).2 hopens, f, payload, ?_, ?_⟩
    · exact isData_snoc.2 (.inr ⟨hs.seen, hm, hf, hodd⟩)
    · refine .inr ⟨?_, List.take_prefix _ _⟩
      rw [hs.seen]
      exact hopens.lt

/-- A frame with a port, on a channel that is not open. -/
theorem Spec.port {host : String} {s : Forward} (hs : Spec host messages s) {f : Frame}
    {b0 b1 : UInt8} {rest : Bytes} (hm : m = .binary f) (hf : f.data = channel :: b0 :: b1 :: rest)
    (hodd : channel % 2 ≠ 1) (hclosed : s.writers channel = none) :
    Spec host (messages ++ [m]) (onData host s f channel (b0 :: b1 :: rest)) := by
  have hfailed : AllFailed (messages ++ [m]) channel messages.length := by
    rw [allFailed_snoc (Nat.le_refl _)]
    refine allFailed_of_no_opens ?_ _
    intro i h
    rw [← hs.writers, hclosed] at h
    cases h
  have hdata : IsData (messages ++ [m]) messages.length channel f (b0 :: b1 :: rest) :=
    isData_snoc.2 (.inr ⟨rfl, hm, hf, hodd⟩)
  have hport : HasPort (messages ++ [m]) channel messages.length := ⟨f, _, hdata, by simp⟩
  have hdial : ∀ i channel' host' port,
      (i = messages.length ∧ channel' = channel ∧ host' = host ∧ port = fromLeBytes b0 b1) ↔
        i = messages.length ∧ host' = host ∧ PortAt (messages ++ [m]) channel' i port ∧
          AllFailed (messages ++ [m]) channel' i := by
    intro i channel' host' port
    constructor
    · rintro ⟨rfl, rfl, rfl, rfl⟩
      exact ⟨rfl, rfl, ⟨f, b0, b1, rest, hdata, rfl⟩, hfailed⟩
    · rintro ⟨rfl, rfl, hat, -⟩
      obtain ⟨rfl, -⟩ := channel_of_hasPort hm hf hat.hasPort
      obtain ⟨f', c0, c1, rest', hdata', rfl⟩ := hat
      have hsame : f' = f := by
        have := hdata'.1.symm.trans hdata.1
        cases this
        rfl
      subst hsame
      have hbytes := hdata'.2.1.symm.trans hdata.2.1
      cases hbytes
      exact ⟨rfl, rfl, rfl, rfl⟩
  unfold onData
  simp only [hclosed]
  cases hconnect : f.connect with
  | ok u =>
    have hnot : ¬ Fails (messages ++ [m]) messages.length := by
      rintro ⟨f', e, hf', he⟩
      have := hf'.symm.trans hdata.1
      cases this
      rw [hconnect] at he
      cases he
    have hopens : Opens (messages ++ [m]) channel messages.length := ⟨hport, hnot, hfailed⟩
    refine hs.snoc_of (.dialed s.seen channel host (fromLeBytes b0 b1) ::
      (if rest = [] then [] else [.wrote s.seen channel s.seen (rest.take f.taken)])) rfl ?_ rfl
      ?_ ?_ ?_
    · intro channel' i
      by_cases hc : channel' = channel
      · subst hc
        simp only [Function.update_self, Option.some.injEq, hclosed, reduceCtorEq, false_or,
          hs.seen]
        constructor
        · rintro rfl
          exact ⟨rfl, hopens⟩
        · rintro ⟨rfl, -⟩
          rfl
      · simp only [Function.update_of_ne hc]
        constructor
        · exact .inl
        · rintro (h | ⟨rfl, h⟩)
          · exact h
          · exact absurd (channel_of_hasPort hm hf h.1).1 hc
    · intro i channel' host' port
      rw [← hdial, ← hs.seen]
      split <;> simp
    · intro i channel' connection bytes h
      split at h
      · simp at h
      · simp only [List.mem_cons, reduceCtorEq, List.not_mem_nil, or_false, false_or] at h
        cases h
        refine ⟨hs.seen, ?_, f, b0 :: b1 :: rest, ?_, .inl ⟨rfl, ?_⟩⟩
        · rw [hs.seen]
          exact hopens
        · rw [hs.seen]
          exact hdata
        · exact List.take_prefix _ _
    · split <;> simp [List.filterMap_cons, Event.writtenFrom]
  | error e =>
    have hfails : Fails (messages ++ [m]) messages.length := ⟨f, e, hdata.1, hconnect⟩
    refine hs.snoc_of [.dialed s.seen channel host (fromLeBytes b0 b1),
      .sent (frame (channel + 1) (connectFailure (fromLeBytes b0 b1) e))] rfl ?_ rfl ?_ ?_
      (by simp [List.filterMap_cons, Event.writtenFrom])
    · intro channel' i
      constructor
      · exact .inl
      · rintro (h | ⟨rfl, h⟩)
        · exact h
        · exact absurd hfails h.2.1
    · intro i channel' host' port
      rw [← hdial, ← hs.seen]
      simp
    · intro i channel' connection bytes h
      simp at h

end

/-- **What the handler does**, message by message. -/
theorem forward_spec (host : String) (messages : List Message) :
    Spec host messages (handlePortforward host messages) := by
  induction messages using List.reverseRecOn with
  | nil =>
    have hnone : ∀ channel i, ¬ HasPort [] channel i := by
      rintro channel i ⟨f, payload, h, -⟩
      cases h.1
    refine ⟨rfl, ?_, ?_, ?_, .nil⟩
    · intro channel i
      exact ⟨fun h => (nomatch h), fun h => absurd h.1 (hnone channel i)⟩
    · intro i channel host' port
      exact ⟨fun h => (nomatch h), fun h => absurd h.2.1.hasPort (hnone channel i)⟩
    · intro i channel connection bytes h
      cases h
  | append_singleton messages m ih =>
    have hlast : handlePortforward host (messages ++ [m]) =
        onMessage host (handlePortforward host messages) m := by
      rw [handlePortforward, List.foldl_append]
      rfl
    rw [hlast]
    generalize handlePortforward host messages = s at ih
    cases m with
    | other =>
      refine ih.skip fun channel h => ?_
      obtain ⟨f, payload, hm, -⟩ := hasPort_last.1 h
      cases hm
    | binary f =>
      unfold onMessage
      dsimp only
      cases hf : f.data with
      | nil =>
        refine ih.skip fun channel h => ?_
        obtain ⟨f', payload, hm, hf', -⟩ := hasPort_last.1 h
        cases hm
        rw [hf] at hf'
        cases hf'
      | cons channel payload =>
        dsimp only
        by_cases hodd : channel % 2 = 1
        · rw [if_pos hodd]
          refine ih.skip fun channel' h => ?_
          obtain ⟨f', payload', hm, hf', hodd', -⟩ := hasPort_last.1 h
          cases hm
          rw [hf] at hf'
          cases hf'
          exact hodd' hodd
        · rw [if_neg hodd]
          cases hw : s.writers channel with
          | some connection =>
            unfold onData
            simp only [hw]
            exact ih.data rfl hf hodd hw
          | none =>
            cases payload with
            | nil =>
              unfold onData
              simp only [hw]
              exact ih.skip fun channel' h => absurd (channel_of_hasPort rfl hf h).2 (by simp)
            | cons b0 tail =>
              cases tail with
              | nil =>
                unfold onData
                simp only [hw]
                exact ih.skip fun channel' h => absurd (channel_of_hasPort rfl hf h).2 (by simp)
              | cons b1 rest => exact ih.port rfl hf hodd hw

/-! ## Declared ports -/

/-- The first frame of a channel that has a port. -/
theorem exists_header {messages : List Message} {channel : UInt8} {i : Nat}
    (h : HasPort messages channel i) : ∃ j ≤ i, IsHeader messages channel j := by
  induction i using Nat.strongRecOn with
  | _ i ih =>
    by_cases hfirst : ∀ j < i, ¬ HasPort messages channel j
    · exact ⟨i, Nat.le_refl _, h, hfirst⟩
    · push Not at hfirst
      obtain ⟨j, hj, hport⟩ := hfirst
      obtain ⟨k, hk, hheader⟩ := ih j hj hport
      exact ⟨k, Nat.le_of_lt (Nat.lt_of_le_of_lt hk hj), hheader⟩

/-- Where the first port of a channel is the last one if it cannot be dialed, a frame before which
    all have failed is the first. -/
theorem isHeader_of_allFailed {messages : List Message} {channel : UInt8} {i : Nat}
    (hlast : ∀ channel i j, IsHeader messages channel i → Fails messages i → i < j →
      ¬ HasPort messages channel j)
    (hport : HasPort messages channel i) (hfailed : AllFailed messages channel i) :
    IsHeader messages channel i := by
  obtain ⟨j, hj, hheader⟩ := exists_header hport
  rcases Nat.lt_or_eq_of_le hj with hj | rfl
  · exact absurd hport (hlast channel j i hheader (hfailed j hj hheader.1) hj)
  · exact hheader

/-- **WebSocket port-forward** dials only declared ports exactly if, on every data channel, no
    further frame with two payload bytes comes once the connect for the first has failed. -/
theorem declared_ports_iff (host : String) (messages : List Message) :
    Declared messages (handlePortforward host messages).trace ↔
      ∀ channel i j, IsHeader messages channel i → Fails messages i → i < j →
        ¬ HasPort messages channel j := by
  have hs := forward_spec host messages
  constructor
  · intro h channel i j hheader hfails hij hport
    -- the next frame with a port behind the failed one is dialed too
    induction j using Nat.strongRecOn with
    | _ j ih =>
      obtain ⟨f, payload, hdata, hlen⟩ := hport
      have hport : HasPort messages channel j := ⟨f, payload, hdata, hlen⟩
      have hfailed : AllFailed messages channel j := by
        intro k hk hkport
        rcases Nat.lt_trichotomy k i with hki | rfl | hki
        · exact absurd hkport (hheader.2 k hki)
        · exact hfails
        · exact absurd hkport (fun h' => ih k hk hki h')
      obtain ⟨b0, b1, rest, rfl⟩ : ∃ b0 b1 rest, payload = b0 :: b1 :: rest := by
        cases payload with
        | nil => simp at hlen
        | cons b0 tail =>
          cases tail with
          | nil => simp at hlen
          | cons b1 rest => exact ⟨b0, b1, rest, rfl⟩
      have hdial := (hs.dials j channel host (fromLeBytes b0 b1)).2
        ⟨rfl, ⟨f, b0, b1, rest, hdata, rfl⟩, hfailed⟩
      exact (h.dials _ _ _ _ hdial).1.2 i hij hheader.1
  · intro hlast
    refine ⟨?_, ?_, hs.inOrder⟩
    · intro i channel host' port hdial
      obtain ⟨-, hport, hfailed⟩ := (hs.dials _ _ _ _).1 hdial
      exact ⟨isHeader_of_allFailed hlast hport.hasPort hfailed, hport⟩
    · intro i channel connection bytes hwrote
      obtain ⟨hopens, hrest⟩ := hs.writes _ _ _ _ hwrote
      exact ⟨isHeader_of_allFailed hlast hopens.1 hopens.2.2, hrest⟩

/-- A port that refuses the connection, then the first bytes of a request. -/
def refusedThenData : List Message :=
  [.binary ⟨[0, 0x90, 0x1f], .error "Connection refused (os error 111)", 0⟩,
    .binary ⟨[0, 0x47, 0x45, 0x54], .error "Connection refused (os error 111)", 0⟩]

/-- The bytes `GE` are dialed as port 17735. -/
theorem data_dialed_as_port :
    .dialed 1 0 "127.0.0.1" 17735 ∈ (handlePortforward "127.0.0.1" refusedThenData).trace ∧
    ¬ ∀ (host : String) (messages : List Message),
      Declared messages (handlePortforward host messages).trace := by
  have hdial : .dialed 1 0 "127.0.0.1" 17735 ∈
      (handlePortforward "127.0.0.1" refusedThenData).trace := by
    decide
  refine ⟨hdial, ?_⟩
  intro h
  have hheader := ((h "127.0.0.1" refusedThenData).dials _ _ _ _ hdial).1
  refine hheader.2 0 (by decide) ⟨_, _, ⟨rfl, rfl, by decide⟩, by decide⟩

end ContainerdRs.Cri.Streaming.Ws
