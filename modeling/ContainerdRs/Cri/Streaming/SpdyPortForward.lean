import Mathlib.Data.List.Induction
import ContainerdRs.Cri.Spdy.Streams
import ContainerdRs.Lib.Overwrite

/-!
# Port-forward over SPDY (`spdy_portforward`)

For every forward the client opens an error stream and then a data stream, both with a `port`
header.  The handler takes the streams one after the other, remembers the last error stream of
every port, connects on a data stream and reports a failure on the error stream it remembers for
its port.

* `errorIds_eq` — the map after any streams, as writes to one cell per port.
* `reports_eq` — what is sent for each stream.
* `reported_to_pair_iff` — when every failure reaches the error stream of its own pair.
* `reported_to_other_pair` — two forwards to one port.
-/

set_option autoImplicit false

namespace ContainerdRs.Cri.Streaming.Spdy

open ContainerdRs.Cri.Spdy Overwrite

/-! ## The handler -/

/-- A stream that `server.accept()` yields, with the answer of `TcpStream::connect` should it be
    asked. -/
structure Opened where
  id : UInt32
  headers : Headers
  connect : Except String Unit

/-- The port of a stream. -/
def Opened.port (s : Opened) : UInt16 := ((header s.headers headerPort).bind parseU16).getD 0

/-- `stream.stream_type() == Some(ST_ERROR)`. -/
def Opened.isError (s : Opened) : Bool := header s.headers headerStreamType == some stError

/-- What the handler does; the first number is the place of the stream it does it for. -/
inductive Event where
  | dialed (stream : Nat) (host : String) (port : UInt16)
  /-- The two tasks between the connection and the stream of this id are spawned. -/
  | relayed (stream : Nat) (id : UInt32)
  /-- `send_data`. -/
  | sent (stream : Nat) (id : UInt32) (fin : Bool) (payload : Bytes)
  deriving DecidableEq, Repr

/-- The locals of the handler, the number of streams so far and the trace. -/
structure Forward where
  seen : Nat
  errorIds : UInt16 → Option UInt32
  trace : List Event

def Forward.new : Forward := ⟨0, fun _ => none, []⟩

/-- The text of a failed connect. -/
def connectFailure (port : UInt16) (e : String) : String :=
  "connect 127.0.0.1:" ++ toString port.toNat ++ ": " ++ e

/-- `spdy_portforward`, the loop body. -/
def onStream (host : String) (f : Forward) (s : Opened) : Forward :=
  let port := s.port
  if s.isError then
    { f with
      seen := f.seen + 1
      errorIds := Function.update f.errorIds port (some s.id) }
  else
    let errId := (f.errorIds port).getD s.id
    match s.connect with
    | .ok _ =>
      { f with
        seen := f.seen + 1
        trace := f.trace ++ [.dialed f.seen host port, .relayed f.seen s.id] }
    | .error e =>
      { f with
        seen := f.seen + 1
        trace := f.trace ++ [.dialed f.seen host port,
          .sent f.seen errId true (statusFailure (connectFailure port e))] }

/-- `spdy_portforward`, over the streams that are accepted until the connection ends. -/
def spdyPortforward (host : String) (streams : List Opened) : Forward :=
  streams.foldl (onStream host) .new

/-! ## Forwards of the client -/

/-- A stream together with the forward the client opens it for. -/
structure Opening where
  pair : Nat
  stream : Opened

/-- The error stream of a pair. -/
def IsErrorOf (openings : List Opening) (pair : Nat) (i : Nat) (s : Opened) : Prop :=
  openings[i]? = some ⟨pair, s⟩ ∧ s.isError = true

/-- The data stream of a pair. -/
def IsDataOf (openings : List Opening) (pair : Nat) (i : Nat) (s : Opened) : Prop :=
  openings[i]? = some ⟨pair, s⟩ ∧ s.isError = false

/-- Every stream belongs to a forward, whose error stream is opened before its data stream. -/
structure WellPaired (openings : List Opening) : Prop where
  ids : (openings.map fun o => o.stream.id).Nodup
  unique : ∀ pair i j s t, IsErrorOf openings pair i s → IsErrorOf openings pair j t → i = j
  earlier : ∀ pair i s, IsDataOf openings pair i s → ∃ j t, IsErrorOf openings pair j t ∧ j < i ∧
    header t.headers headerPort = header s.headers headerPort

/-- The frame that was sent for the stream at this place. -/
def Event.reportFor (i : Nat) : Event → Option (UInt32 × Bool × Bytes)
  | .sent k id fin payload => if k = i then some (id, fin, payload) else none
  | _ => none

/-- All frames that were sent for the stream at this place. -/
def reportsFor (i : Nat) (trace : List Event) : List (UInt32 × Bool × Bytes) :=
  trace.filterMap (Event.reportFor i)

/-- The connect for this stream fails. -/
def Fails (s : Opened) (e : String) : Prop := s.isError = false ∧ s.connect = .error e

/-- **Every connect failure is reported once, on the error stream of its pair**, and nothing else is
    sent. -/
structure ReportedToPair (openings : List Opening) (trace : List Event) : Prop where
  failed : ∀ pair d s c t e, IsDataOf openings pair d s → IsErrorOf openings pair c t →
    s.connect = .error e →
      reportsFor d trace = [(t.id, true, statusFailure (connectFailure s.port e))]
  others : ∀ i, (∀ o e, openings[i]? = some o → ¬ Fails o.stream e) → reportsFor i trace = []

/-! ## The map of error streams -/

/-- What a stream writes into the entry of a port. -/
def entry (port : UInt16) (s : Opened) : Option (Option UInt32) :=
  if s.isError = true ∧ s.port = port then some (some s.id) else none

theorem onStream_seen (host : String) (f : Forward) (s : Opened) :
    (onStream host f s).seen = f.seen + 1 := by
  unfold onStream
  dsimp only
  split
  · rfl
  · split <;> rfl

theorem onStream_errorIds (host : String) (f : Forward) (s : Opened) (port : UInt16) :
    (onStream host f s).errorIds port = (entry port s).getD (f.errorIds port) := by
  unfold onStream entry
  dsimp only
  by_cases herr : s.isError = true
  · simp only [herr, if_true, true_and]
    by_cases hport : s.port = port
    · simp [hport]
    · simp [hport, Function.update_of_ne (Ne.symm hport)]
  · simp only [herr, Bool.false_eq_true, false_and, if_false]
    cases s.connect <;> rfl

theorem seen_eq (host : String) (streams : List Opened) :
    (spdyPortforward host streams).seen = streams.length := by
  induction streams using List.reverseRecOn with
  | nil => rfl
  | append_singleton streams s ih =>
    unfold spdyPortforward at ih ⊢
    rw [List.foldl_append, List.foldl_cons, List.foldl_nil, onStream_seen, ih, List.length_append,
      List.length_singleton]

/-- The entry of a port is what the last error stream of the port wrote there. -/
theorem errorIds_eq (host : String) (streams : List Opened) (port : UInt16) :
    (spdyPortforward host streams).errorIds port = overwrite (entry port) none streams := by
  induction streams using List.reverseRecOn with
  | nil => rfl
  | append_singleton streams s ih =>
    rw [overwrite_append, ← ih]
    unfold spdyPortforward
    rw [List.foldl_append, List.foldl_cons, List.foldl_nil, onStream_errorIds]
    rfl

/-! ## What is sent -/

/-- What is sent for a stream, from the streams before it. -/
def reportOf (before : List Opened) (s : Opened) : List (UInt32 × Bool × Bytes) :=
  if s.isError then []
  else
    match s.connect with
    | .ok _ => []
    | .error e =>
      [((overwrite (entry s.port) none before).getD s.id, true,
        statusFailure (connectFailure s.port e))]

theorem reportOf_ok {before : List Opened} {s : Opened} (h : ∀ e, ¬ Fails s e) :
    reportOf before s = [] := by
  unfold reportOf
  by_cases herr : s.isError = true
  · simp [herr]
  · cases hc : s.connect with
    | ok u => simp
    | error e => exact absurd ⟨by simpa using herr, hc⟩ (h e)

theorem reportOf_fails {before : List Opened} {s : Opened} {e : String} (h : Fails s e) :
    reportOf before s = [((overwrite (entry s.port) none before).getD s.id, true,
      statusFailure (connectFailure s.port e))] := by
  obtain ⟨herr, hc⟩ := h
  simp [reportOf, herr, hc]

/-- One more stream. -/
theorem onStream_reports {host : String} {f : Forward} {before : List Opened}
    (hids : ∀ port, f.errorIds port = overwrite (entry port) none before) (s : Opened) (i : Nat) :
    reportsFor i (onStream host f s).trace = reportsFor i f.trace ++
      if i = f.seen then reportOf before s else [] := by
  unfold onStream reportsFor reportOf
  rw [← hids]
  dsimp only
  by_cases herr : s.isError = true
  · simp [herr]
  · cases hc : s.connect with
    | ok u => simp [herr, List.filterMap_cons, Event.reportFor]
    | error e =>
      by_cases hi : i = f.seen
      · subst hi
        simp [herr, List.filterMap_cons, Event.reportFor]
      · have hi' : f.seen ≠ i := fun h => hi h.symm
        simp [herr, List.filterMap_cons, Event.reportFor, hi, hi']

/-- What is sent for the stream at a place depends on the streams before it. -/
theorem reports_eq (host : String) (streams : List Opened) (i : Nat) :
    reportsFor i (spdyPortforward host streams).trace =
      (streams[i]?.map (reportOf (streams.take i))).getD [] := by
  induction streams using List.reverseRecOn with
  | nil => rfl
  | append_singleton streams s ih =>
    have hstep : spdyPortforward host (streams ++ [s]) =
        onStream host (spdyPortforward host streams) s := by
      unfold spdyPortforward
      rw [List.foldl_append, List.foldl_cons, List.foldl_nil]
    rw [hstep, onStream_reports (errorIds_eq host streams), seen_eq, ih]
    rcases Nat.lt_trichotomy i streams.length with hi | hi | hi
    · rw [if_neg (Nat.ne_of_lt hi), List.append_nil, List.getElem?_append_left hi,
        List.take_append_of_le_length (Nat.le_of_lt hi)]
    · subst hi
      simp
    · have hnone : streams[i]? = none := List.getElem?_eq_none (Nat.le_of_lt hi)
      have hnone' : (streams ++ [s])[i]? = none := by
        apply List.getElem?_eq_none
        rw [List.length_append, List.length_singleton]
        omega
      simp [hnone, hnone', Nat.ne_of_gt hi]

/-! ## Pairs -/

section pairs

variable {openings : List Opening} {pair c d : Nat} {s t : Opened}

/-- The streams before a place, around the error stream of a pair. -/
theorem take_split (hc : openings[c]? = some ⟨pair, t⟩) (hcd : c < d) :
    (openings.map Opening.stream).take d =
      (openings.map Opening.stream).take c ++
        t :: ((openings.map Opening.stream).take d).drop (c + 1) := by
  have hget : ((openings.map Opening.stream).take d)[c]? = some t := by
    rw [List.getElem?_take_of_lt hcd, List.getElem?_map, hc]
    rfl
  obtain ⟨hlt, heq⟩ := List.getElem?_eq_some_iff.1 hget
  have hdrop : ((openings.map Opening.stream).take d).drop c =
      t :: ((openings.map Opening.stream).take d).drop (c + 1) := by
    rw [List.drop_eq_getElem_cons hlt, heq]
  calc (openings.map Opening.stream).take d
      = ((openings.map Opening.stream).take d).take c ++
          ((openings.map Opening.stream).take d).drop c := (List.take_append_drop c _).symm
    _ = _ := by
        rw [hdrop, List.take_take, Nat.min_eq_left (Nat.le_of_lt hcd)]

/-- A stream between two places. -/
theorem mem_between {u : Opened} :
    u ∈ ((openings.map Opening.stream).take d).drop (c + 1) ↔
      ∃ k o, c < k ∧ k < d ∧ openings[k]? = some o ∧ o.stream = u := by
  rw [List.mem_iff_getElem?]
  constructor
  · rintro ⟨j, hj⟩
    rw [List.getElem?_drop] at hj
    have hlt : c + 1 + j < d := by
      by_contra hge
      rw [List.getElem?_take, if_neg (by omega)] at hj
      cases hj
    rw [List.getElem?_take_of_lt hlt, List.getElem?_map, Option.map_eq_some_iff] at hj
    obtain ⟨o, ho, hu⟩ := hj
    exact ⟨c + 1 + j, o, by omega, hlt, ho, hu⟩
  · rintro ⟨k, o, hck, hkd, ho, hu⟩
    refine ⟨k - (c + 1), ?_⟩
    rw [List.getElem?_drop, show c + 1 + (k - (c + 1)) = k by omega, List.getElem?_take_of_lt hkd,
      List.getElem?_map, ho, ← hu]
    rfl

/-- Two places with one id are the same. -/
theorem eq_of_id (h : WellPaired openings) {k : Nat} {o o' : Opening} (hk : openings[k]? = some o)
    (hc : openings[c]? = some o') (hid : o.stream.id = o'.stream.id) : k = c := by
  obtain ⟨hlt, -⟩ := List.getElem?_eq_some_iff.1 hk
  have hlt' : k < (openings.map fun o => o.stream.id).length := by
    rw [List.length_map]
    exact hlt
  refine (List.getElem?_inj hlt' h.ids).1 ?_
  rw [List.getElem?_map, List.getElem?_map, hk, hc]
  exact congrArg some hid

/-- The pair's streams have the same port. -/
theorem port_eq (h : WellPaired openings) (hd : IsDataOf openings pair d s)
    (hc : IsErrorOf openings pair c t) : c < d ∧ t.port = s.port := by
  obtain ⟨j, t', hj, hjd, hheader⟩ := h.earlier pair d s hd
  obtain rfl := h.unique pair c j t t' hc hj
  have heq : t = t' := by
    have := hc.1.symm.trans hj.1
    cases this
    rfl
  subst heq
  refine ⟨hjd, ?_⟩
  unfold Opened.port
  rw [hheader]

/-- The entry of the port names the pair's error stream as long as no other one was opened. -/
theorem entry_own (h : WellPaired openings) (hd : IsDataOf openings pair d s)
    (hc : IsErrorOf openings pair c t)
    (hbetween : ∀ k o, c < k → k < d → openings[k]? = some o →
      ¬ (o.stream.isError = true ∧ o.stream.port = s.port)) :
    overwrite (entry s.port) none ((openings.map Opening.stream).take d) = some t.id := by
  obtain ⟨hcd, hport⟩ := port_eq h hd hc
  rw [take_split hc.1 hcd]
  refine overwrite_last (by simp [entry, hc.2, hport]) ?_
  intro u hu
  obtain ⟨k, o, hck, hkd, ho, rfl⟩ := mem_between.1 hu
  simp only [entry, hbetween k o hck hkd ho, if_false]

/-- Once another one was, it does not. -/
theorem entry_other (h : WellPaired openings) (hc : IsErrorOf openings pair c t) {k : Nat}
    {o : Opening} (hck : c < k) (hkd : k < d) (ho : openings[k]? = some o)
    (herr : o.stream.isError = true) (hport : o.stream.port = s.port) : ∃ id, id ≠ t.id ∧
      overwrite (entry s.port) none ((openings.map Opening.stream).take d) = some id := by
  have hsome : ∃ u ∈ ((openings.map Opening.stream).take d).drop (c + 1),
      u.isError = true ∧ u.port = s.port :=
    ⟨o.stream, mem_between.2 ⟨k, o, hck, hkd, ho, rfl⟩, herr, hport⟩
  obtain ⟨pre, u, post, hsplit, ⟨huerr, huport⟩, hpost⟩ := exists_last hsome
  have hu : u ∈ ((openings.map Opening.stream).take d).drop (c + 1) := by
    rw [hsplit]
    exact List.mem_append_right _ List.mem_cons_self
  obtain ⟨j, o', hcj, hjd, ho', rfl⟩ := mem_between.1 hu
  refine ⟨o'.stream.id, ?_, ?_⟩
  · intro hid
    exact absurd (eq_of_id h ho' hc.1 hid) (by omega)
  · rw [take_split hc.1 (Nat.lt_trans hck hkd), hsplit, ← List.cons_append, ← List.append_assoc]
    refine overwrite_last (by simp [entry, huerr, huport]) ?_
    intro v hv
    simp only [entry, hpost v hv, if_false]

end pairs

/-- **SPDY port-forward** reports every connect failure to its own pair exactly if, for no data
    stream whose connect fails, an error stream of another forward to that port is opened between
    its own error stream and it. -/
theorem reported_to_pair_iff (host : String) (openings : List Opening)
    (h : WellPaired openings) :
    ReportedToPair openings (spdyPortforward host (openings.map Opening.stream)).trace ↔
      ∀ pair c d s t e, IsDataOf openings pair d s → s.connect = .error e →
        IsErrorOf openings pair c t → ∀ k o, c < k → k < d → openings[k]? = some o →
          ¬ (o.stream.isError = true ∧ o.stream.port = s.port) := by
  have hdata : ∀ pair d s e, IsDataOf openings pair d s → s.connect = .error e →
      reportsFor d (spdyPortforward host (openings.map Opening.stream)).trace =
        [((overwrite (entry s.port) none ((openings.map Opening.stream).take d)).getD s.id, true,
          statusFailure (connectFailure s.port e))] := by
    intro pair d s e hd he
    rw [reports_eq, List.getElem?_map, hd.1]
    exact reportOf_fails ⟨hd.2, he⟩
  constructor
  · rintro ⟨hfailed, -⟩ pair c d s t e hd he hc k o hck hkd ho ⟨herr, hport⟩
    obtain ⟨id, hid, hentry⟩ := entry_other h hc hck hkd ho herr hport
    have hreport := hfailed pair d s c t e hd hc he
    rw [hdata pair d s e hd he, hentry] at hreport
    simp only [Option.getD_some, List.cons.injEq, Prod.mk.injEq, and_true] at hreport
    exact hid hreport
  · intro hbetween
    refine ⟨?_, ?_⟩
    · intro pair d s c t e hd hc he
      rw [hdata pair d s e hd he, entry_own h hd hc (hbetween pair c d s t e hd he hc)]
      rfl
    · intro i hok
      rw [reports_eq, List.getElem?_map]
      cases ho : openings[i]? with
      | none => rfl
      | some o => exact reportOf_ok fun e => hok o e ho

/-- The streams of a forward to port 8080 that is refused. -/
def errorStream (pair : Nat) (id : UInt32) : Opening :=
  ⟨pair, id, [("streamType", "error"), ("port", "8080")], .error "refused"⟩

def dataStream (pair : Nat) (id : UInt32) : Opening :=
  ⟨pair, id, [("streamType", "data"), ("port", "8080")], .error "refused"⟩

/-- One forward after the other. -/
def inTurn : List Opening := [errorStream 0 1, dataStream 0 3, errorStream 1 5, dataStream 1 7]

/-- Both error streams first. -/
def errorsFirst : List Opening := [errorStream 0 1, errorStream 1 5, dataStream 0 3, dataStream 1 7]

/-- Two forwards, each with its error stream before its data stream. -/
theorem wellPaired_of_two {openings : List Opening} (c₀ d₀ c₁ d₁ : Nat)
    (hids : (openings.map fun o => o.stream.id).Nodup) (h₀ : c₀ < d₀) (h₁ : c₁ < d₁)
    (hc₀ : openings[c₀]? = some (errorStream 0 1)) (hc₁ : openings[c₁]? = some (errorStream 1 5))
    (hall : ∀ i o, openings[i]? = some o → (i = c₀ ∧ o = errorStream 0 1) ∨
      (i = d₀ ∧ o = dataStream 0 3) ∨ (i = c₁ ∧ o = errorStream 1 5) ∨
      (i = d₁ ∧ o = dataStream 1 7)) : WellPaired openings := by
  have herror : ∀ pair i s, IsErrorOf openings pair i s → (i = c₀ ∧ pair = 0) ∨
      (i = c₁ ∧ pair = 1) := by
    rintro pair i s ⟨hi, herr⟩
    rcases hall i _ hi with ⟨rfl, h⟩ | ⟨rfl, h⟩ | ⟨rfl, h⟩ | ⟨rfl, h⟩
    · cases h
      exact .inl ⟨rfl, rfl⟩
    · cases h
      cases herr
    · cases h
      exact .inr ⟨rfl, rfl⟩
    · cases h
      cases herr
  refine ⟨hids, ?_, ?_⟩
  · intro pair i j s t hi hj
    rcases herror pair i s hi with ⟨rfl, rfl⟩ | ⟨rfl, rfl⟩ <;>
      rcases herror _ j t hj with ⟨rfl, h⟩ | ⟨rfl, h⟩ <;> first | rfl | cases h
  · rintro pair i s ⟨hi, herr⟩
    rcases hall i _ hi with ⟨rfl, h⟩ | ⟨rfl, h⟩ | ⟨rfl, h⟩ | ⟨rfl, h⟩
    · cases h
      cases herr
    · cases h
      exact ⟨c₀, _, ⟨hc₀, rfl⟩, h₀, rfl⟩
    · cases h
      cases herr
    · cases h
      exact ⟨c₁, _, ⟨hc₁, rfl⟩, h₁, rfl⟩

theorem inTurn_paired : WellPaired inTurn := by
  refine wellPaired_of_two 0 1 2 3 (by decide) (by decide) (by decide) rfl rfl ?_
  intro i o h
  rcases i with _ | _ | _ | _ | i <;> cases h <;> simp

theorem errorsFirst_paired : WellPaired errorsFirst := by
  refine wellPaired_of_two 0 2 1 3 (by decide) (by decide) (by decide) rfl rfl ?_
  intro i o h
  rcases i with _ | _ | _ | _ | i <;> cases h <;> simp

theorem inTurn_reported : WellPaired inTurn ∧
    ReportedToPair inTurn (spdyPortforward "127.0.0.1" (inTurn.map Opening.stream)).trace := by
  refine ⟨inTurn_paired, (reported_to_pair_iff "127.0.0.1" inTurn inTurn_paired).2 ?_⟩
  rintro pair c d s t e ⟨hd, -⟩ - ⟨hc, -⟩ k o hck hkd
  -- a data stream stands right behind the error stream of its pair
  rcases d with _ | _ | _ | _ | d <;> cases hd <;>
    rcases c with _ | _ | _ | _ | c <;> cases hc <;> omega

/-- The failure of the first forward goes to the error stream of the second. -/
theorem reported_to_other_pair :
    WellPaired errorsFirst ∧
    reportsFor 2 (spdyPortforward "127.0.0.1" (errorsFirst.map Opening.stream)).trace =
      [(5, true, statusFailure "connect 127.0.0.1:8080: refused")] ∧
    ¬ ∀ (host : String) (openings : List Opening), WellPaired openings →
      ReportedToPair openings (spdyPortforward host (openings.map Opening.stream)).trace := by
  have hreport : reportsFor 2 (spdyPortforward "127.0.0.1" (errorsFirst.map Opening.stream)).trace =
      [(5, true, statusFailure "connect 127.0.0.1:8080: refused")] := by
    decide +kernel
  refine ⟨errorsFirst_paired, hreport, ?_⟩
  intro h
  have hown := (h "127.0.0.1" errorsFirst errorsFirst_paired).failed 0 2 _ 0 _ "refused"
    ⟨rfl, rfl⟩ ⟨rfl, rfl⟩ rfl
  rw [hreport] at hown
  have hid : (5 : UInt32) = 1 := (Prod.mk.inj (List.cons.inj hown).1).1
  exact absurd hid (by decide)

end ContainerdRs.Cri.Streaming.Spdy
