import ContainerdRs.Cri.Supervision
import ContainerdRs.Cri.Streaming.ExecOutput
import ContainerdRs.Lib.Broadcast

/-!
# Attaching to a running container (`spdy_attach`, `handle_attach`)

Any number of clients attach to a container while it runs.  A handler subscribes to the live bus,
sends the client a frame for each chunk it receives, goes on where it was overtaken, and reports
success when the bus is at its end; a write that fails ends it too.  The handlers run beside the
container, its pumps and its supervisor.

* `Attached`, `attached_step` — what every step keeps for a handler.
* `attach_output` — what a client has got, over every run, and when it is told that the container
  has succeeded.
* `attach_lossless` — a client that keeps up loses nothing.
* `attach_complete` — a SPDY client that was there from the start has got all of the output when it
  is told so.
-/

set_option autoImplicit false

namespace ContainerdRs.Cri.Streaming.Attach

open Transition Broadcast Supervision ContainerdRs.Cri.Spdy
open Exec (Collected RcStream Arrival opened chStderr chError dataOn)

/-! ## The handlers -/

/-- What a handler sends. -/
structure Plan (F : Type) where
  /-- The frame for a chunk, if the client has opened a stream for it. -/
  render : LiveFrame → Option F
  success : List F
  /-- What is sent when the container is not in the registry of live buses. -/
  refused : List F

/-- `spdy_attach` with the streams it has collected. -/
def spdyPlan (c : Collected) : Plan Frame where
  render x :=
    (if x.1 = chStderr then c.stderrId else c.stdoutId).map fun id => sendData id false x.2
  success := (c.errorId.map fun id => sendData id true statusSuccess).toList ++ [.goAway 0 0]
  refused := (c.errorId.map fun id =>
    sendData id true (statusFailure "container not running")).toList ++ [.goAway 0 0]

/-- The messages of `handle_attach`. -/
inductive WsMessage where
  | binary (data : Bytes)
  /-- `Message::Close(None)`. -/
  | close
  deriving DecidableEq, Repr

/-- `frame`. -/
def wsFrame (channel : UInt8) (data : Bytes) : WsMessage := .binary (channel :: data)

/-- `handle_attach`. -/
def wsPlan : Plan WsMessage where
  render x := some (wsFrame x.1 x.2)
  success := [wsFrame chError (asBytes "\x7b\"status\":\"Success\"\x7d"), .close]
  refused := [wsFrame chError
    (asBytes "\x7b\"status\":\"Failure\",\"message\":\"container not running\"\x7d")]

/-- Where a handler stands. -/
inductive Stage (F : Type) where
  | receiving
  | forwarding (item : LiveFrame)
  /-- The frames that it still sends. -/
  | ending (todo : List F)
  | returned

variable {F : Type}

/-- A handler and its connection. -/
structure Session (F : Type) where
  plan : Plan F
  /-- `subscribe_live` has found the bus. -/
  subscribed : Bool
  reader : Reader LiveFrame
  stage : Stage F
  sent : List F
  /-- No write has failed. -/
  alive : Bool
  /-- `recv` has answered `Closed`. -/
  sawEnd : Bool

/-- The capacity of a live bus. -/
def liveCapacity : Nat := 512

/-- The live bus of the container. -/
def bus (host : Supervision.St) : Bus LiveFrame := ⟨liveCapacity, host.history⟩

/-- A handler at `subscribe_live`. -/
def Session.open (plan : Plan F) (host : Supervision.St) : Session F where
  plan := plan
  subscribed := host.live
  reader := (bus host).subscribe
  stage := if host.live then .receiving else .ending plan.refused
  sent := []
  alive := true
  sawEnd := false

/-- What a handler does, with the outcome of its write. -/
inductive Move where
  | recv
  | forward (ok : Bool)
  | finish (ok : Bool)
  deriving DecidableEq, Repr

/-- One step of a handler. -/
def Session.move (host : Supervision.St) (x : Session F) : Move → Option (Session F)
  | .recv =>
    match x.stage with
    | .receiving =>
      match (bus host).recv host.busClosed x.reader with
      | some (.value item, r) => some { x with reader := r, stage := .forwarding item }
      | some (.lagged, r) => some { x with reader := r }
      | some (.closed, r) =>
        some { x with reader := r, stage := .ending x.plan.success, sawEnd := true }
      | none => none
    | _ => none
  | .forward ok =>
    match x.stage with
    | .forwarding item =>
      match x.plan.render item with
      | none => some { x with stage := .receiving }
      | some f =>
        if ok then some { x with sent := x.sent ++ [f], stage := .receiving }
        -- the status is sent all the same, on a connection that is broken
        else some { x with alive := false, stage := .ending x.plan.success }
    | _ => none
  | .finish ok =>
    match x.stage with
    | .ending [] => some { x with stage := .returned }
    | .ending (f :: todo) =>
      if ok && x.alive then some { x with sent := x.sent ++ [f], stage := .ending todo }
      else some { x with alive := false, stage := .ending todo }
    | _ => none

/-- The container and everybody who is attached to it. -/
structure Sys (F : Type) where
  host : Supervision.St
  sessions : List (Session F)

def Sys.start (cfg : Config) : Sys F := ⟨.start cfg, []⟩

/-- Who moves. -/
inductive Label (F : Type) where
  | host (l : Supervision.Label)
  | attach (plan : Plan F)
  | session (i : Nat) (m : Move)

/-- One step. -/
def step (cfg : Config) (s : Sys F) : Label F → Option (Sys F)
  | .host l => (Supervision.step cfg s.host l).map fun host => { s with host := host }
  | .attach plan => some { s with sessions := s.sessions ++ [.open plan s.host] }
  | .session i m =>
    match s.sessions[i]? with
    | none => none
    | some x => (x.move s.host m).map fun x' => { s with sessions := s.sessions.set i x' }

/-! ## What every step keeps -/

/-- The frames that follow the output. -/
def Session.closing (x : Session F) : List F :=
  if x.subscribed then x.plan.success else x.plan.refused

/-- A handler has sent its closing frames but for `todo`. -/
structure Closing (x : Session F) (todo : List F) : Prop where
  /-- Frames of a part of what it has got, then a part of the closing frames; the latter only if
      it has forwarded everything and has seen the end of the bus. -/
  sent : ∃ items tail, x.sent = items.filterMap x.plan.render ++ tail ∧ items <+: x.reader.got ∧
    tail <+: x.closing ∧
    (tail ≠ [] → items = x.reader.got ∧ (x.subscribed = true → x.sawEnd = true)) ∧
    (x.alive = true → items = x.reader.got ∧ tail ++ todo = x.closing ∧
      (x.subscribed = true → x.sawEnd = true))

/-- What a handler has sent. -/
def Delivered (x : Session F) : Prop :=
  match x.stage with
  | .receiving => x.alive = true ∧ x.subscribed = true ∧ x.sawEnd = false ∧
      x.sent = x.reader.got.filterMap x.plan.render
  | .forwarding item => x.alive = true ∧ x.subscribed = true ∧ x.sawEnd = false ∧
      ∃ before, x.reader.got = before ++ [item] ∧ x.sent = before.filterMap x.plan.render
  | .ending todo => Closing x todo
  | .returned => Closing x []

/-- A handler and its host. -/
structure Attached (host : Supervision.St) (x : Session F) : Prop where
  sound : Sound (bus host) x.reader
  delivered : Delivered x
  ended : x.sawEnd = true →
    host.busClosed = true ∧ x.reader.next = host.history.length

/-- The container is supervised, and so is every handler. -/
structure Served (cfg : Config) (s : Sys F) : Prop where
  host : Supervised cfg s.host
  sessions : ∀ x ∈ s.sessions, Attached s.host x

variable {cfg : Config} {s s' : Sys F} {host host' : Supervision.St} {x x' : Session F}

theorem attached_open (plan : Plan F) (host : Supervision.St) :
    Attached host (.open plan host) := by
  refine ⟨sound_subscribe _, ?_, fun h => by cases h⟩
  unfold Delivered
  cases hlive : host.live with
  | true => simp [Session.open, hlive, Bus.subscribe]
  | false =>
    simp only [Session.open, hlive, Bool.false_eq_true, if_false]
    refine ⟨[], [], rfl, List.nil_prefix, List.nil_prefix, fun h => absurd rfl h, fun _ => ?_⟩
    simp [Session.closing, Bus.subscribe]

/-- The container moves on. -/
theorem Attached.hosted (h : Attached host x) (hhost : Supervised cfg host)
    {l : Supervision.Label} (hstep : Supervision.step cfg host l = some host') :
    Attached host' x := by
  refine ⟨?_, h.delivered, fun hend => ?_⟩
  · rcases history_step hstep with hsame | ⟨o, chunk, hmore⟩
    · unfold bus
      rw [hsame]
      exact h.sound
    · unfold bus
      rw [hmore]
      exact h.sound.send _
  · obtain ⟨hclosed, hnext⟩ := h.ended hend
    obtain ⟨hsame, hclosed', -⟩ := hhost.closed_step hclosed hstep
    exact ⟨hclosed', by rw [hsame]; exact hnext⟩

theorem Attached.recv (h : Attached host x) (hmove : x.move host .recv = some x') :
    Attached host x' := by
  simp only [Session.move] at hmove
  split at hmove
  · rename_i hstage
    have hdelivered := h.delivered
    simp only [Delivered, hstage] at hdelivered
    obtain ⟨halive, hsub, hend, hsent⟩ := hdelivered
    cases hrecv : (bus host).recv host.busClosed x.reader with
    | none => simp [hrecv] at hmove
    | some p =>
      obtain ⟨answer, r⟩ := p
      rw [hrecv] at hmove
      have hsound := h.sound.recv hrecv
      cases Bus.recv_cases hrecv with
      | value item _ _ =>
        cases hmove
        refine ⟨hsound, ⟨halive, hsub, hend, x.reader.got, rfl, hsent⟩, fun h' => ?_⟩
        rw [hend] at h'
        cases h'
      | lagged _ =>
        cases hmove
        refine ⟨hsound, ?_, fun h' => ?_⟩
        · simp only [Delivered, hstage]
          exact ⟨halive, hsub, hend, hsent⟩
        · rw [hend] at h'
          cases h'
      | closed _ _ =>
        cases hmove
        obtain ⟨-, hclosed, hnext⟩ := h.sound.caught_up hrecv
        refine ⟨hsound, ⟨x.reader.got, [], by simpa using hsent, List.prefix_refl _,
          List.nil_prefix, fun hnil => absurd rfl hnil, fun _ => ⟨rfl, ?_, fun _ => rfl⟩⟩,
          fun _ => ⟨hclosed, hnext⟩⟩
        simp [Session.closing, hsub]
  · cases hmove

theorem Attached.forward (h : Attached host x) {ok : Bool}
    (hmove : x.move host (.forward ok) = some x') : Attached host x' := by
  simp only [Session.move] at hmove
  split at hmove
  · rename_i item hstage
    have hdelivered := h.delivered
    simp only [Delivered, hstage] at hdelivered
    obtain ⟨halive, hsub, hend, before, hgot, hsent⟩ := hdelivered
    have hnot : ∀ {P : Prop}, x.sawEnd = true → P := by
      intro P h'
      rw [hend] at h'
      cases h'
    cases hrender : x.plan.render item with
    | none =>
      rw [hrender] at hmove
      cases hmove
      refine ⟨h.sound, ⟨halive, hsub, hend, ?_⟩, hnot⟩
      simp [hgot, hsent, hrender]
    | some f =>
      rw [hrender] at hmove
      cases ok with
      | true =>
        cases hmove
        refine ⟨h.sound, ⟨halive, hsub, hend, ?_⟩, hnot⟩
        simp [hgot, hsent, hrender]
      | false =>
        cases hmove
        refine ⟨h.sound, ⟨before, [], by simpa using hsent, ?_, List.nil_prefix,
          fun hnil => absurd rfl hnil, fun hal => by cases hal⟩, hnot⟩
        simp only [hgot]
        exact List.prefix_append _ _
  · cases hmove

theorem Attached.finish (h : Attached host x) {ok : Bool}
    (hmove : x.move host (.finish ok) = some x') : Attached host x' := by
  simp only [Session.move] at hmove
  split at hmove
  · rename_i hstage
    have hdelivered := h.delivered
    simp only [Delivered, hstage] at hdelivered
    cases hmove
    exact ⟨h.sound, ⟨hdelivered.sent⟩, h.ended⟩
  · rename_i f todo hstage
    have hdelivered := h.delivered
    simp only [Delivered, hstage] at hdelivered
    obtain ⟨items, tail, hsent, hitems, htail, hfull, hok⟩ := hdelivered.sent
    split_ifs at hmove with hgood
    · cases hmove
      rw [Bool.and_eq_true] at hgood
      obtain ⟨hall, hclosing, hend⟩ := hok hgood.2
      have hmore : tail ++ [f] ++ todo = x.closing := by
        rw [← hclosing, List.append_assoc]
        rfl
      exact ⟨h.sound, ⟨items, tail ++ [f], by simp [hsent], hitems, ⟨todo, hmore⟩,
        fun _ => ⟨hall, hend⟩, fun _ => ⟨hall, hmore, hend⟩⟩, h.ended⟩
    · cases hmove
      exact ⟨h.sound, ⟨items, tail, hsent, hitems, htail, hfull, fun hal => by cases hal⟩, h.ended⟩
  · cases hmove

theorem Attached.move (h : Attached host x) {m : Move} (hmove : x.move host m = some x') :
    Attached host x' := by
  cases m with
  | recv => exact h.recv hmove
  | forward ok => exact h.forward hmove
  | finish ok => exact h.finish hmove

theorem served_start (cfg : Config) : Served cfg (Sys.start cfg : Sys F) :=
  ⟨supervised_start cfg, by simp [Sys.start]⟩

/-- **Every step keeps what every handler has promised.** -/
theorem attached_step {l : Label F} (h : Served cfg s) (hstep : step cfg s l = some s') :
    Served cfg s' := by
  cases l with
  | host l =>
    obtain ⟨host', hhost, rfl⟩ := Option.map_eq_some_iff.1 hstep
    exact ⟨supervised_step h.host hhost, fun x hx => (h.sessions x hx).hosted h.host hhost⟩
  | attach plan =>
    cases hstep
    refine ⟨h.host, fun x hx => ?_⟩
    rcases List.mem_append.1 hx with hx | hx
    · exact h.sessions x hx
    · rw [List.mem_singleton.1 hx]
      exact attached_open plan s.host
  | session i m =>
    simp only [step] at hstep
    split at hstep
    · cases hstep
    · rename_i x hx
      obtain ⟨x', hmove, rfl⟩ := Option.map_eq_some_iff.1 hstep
      refine ⟨h.host, fun y hy => ?_⟩
      rcases mem_set_cases hy with rfl | ⟨u, -, hu⟩
      · exact (h.sessions x (List.mem_of_getElem? hx)).move hmove
      · exact h.sessions y (List.mem_of_getElem? hu)

theorem served_run {ls : List (Label F)} (hrun : run (step cfg) (.start cfg) ls = some s) :
    Served cfg s :=
  run_keeps (fun _ _ _ h hstep => attached_step h hstep) (served_start cfg) hrun

/-! ## What the client gets -/

/-- What a handler has sent: frames for a part of what it has got, and then a part of the success
    frames, these behind the end of the bus. -/
def Parts (host : Supervision.St) (x : Session F) : Prop :=
  ∃ (items : List LiveFrame) (tail : List F), x.sent = items.filterMap x.plan.render ++ tail ∧
    items <+: x.reader.got ∧ tail <+: x.plan.success ∧
    (tail ≠ [] → items = x.reader.got ∧ host.busClosed = true ∧
      x.reader.next = host.history.length)

theorem Attached.parts (h : Attached host x) (hsub : x.subscribed = true) : Parts host x := by
  have hclosing : ∀ todo, Closing x todo → Parts host x := by
    rintro todo ⟨items, tail, hsent, hitems, htail, hfull, -⟩
    rw [Session.closing, if_pos hsub] at htail
    refine ⟨items, tail, hsent, hitems, htail, fun hne => ?_⟩
    obtain ⟨hall, hend⟩ := hfull hne
    exact ⟨hall, h.ended (hend hsub)⟩
  have hdelivered := h.delivered
  cases hstage : x.stage with
  | receiving =>
    simp only [Delivered, hstage] at hdelivered
    obtain ⟨-, -, -, hsent⟩ := hdelivered
    exact ⟨_, [], by simpa using hsent, List.prefix_refl _, List.nil_prefix,
      fun hnil => absurd rfl hnil⟩
  | forwarding item =>
    simp only [Delivered, hstage] at hdelivered
    obtain ⟨-, -, -, before, hgot, hsent⟩ := hdelivered
    exact ⟨before, [], by simpa using hsent, hgot ▸ List.prefix_append _ _, List.nil_prefix,
      fun hnil => absurd rfl hnil⟩
  | ending todo =>
    simp only [Delivered, hstage] at hdelivered
    exact hclosing todo hdelivered
  | returned =>
    simp only [Delivered, hstage] at hdelivered
    exact hclosing [] hdelivered

/-- What a client has got of a container. -/
structure Report (host : Supervision.St) (x : Session F) : Prop where
  /-- Frames for some of the chunks that were sent to the bus since it subscribed, in order, and
      then a part of the success frames: these only when the exit has been recorded and there is
      no chunk left but those it has been told to have missed. -/
  frames : ∃ (items : List LiveFrame) (tail : List F),
    x.sent = items.filterMap x.plan.render ++ tail ∧
    items.Sublist (host.history.drop x.reader.start) ∧ tail <+: x.plan.success ∧
    (tail ≠ [] → (∃ code, host.recorded = some code) ∧
      items.length + x.reader.missed = (host.history.drop x.reader.start).length)

/-- The client is never further behind than the bus is long. -/
def KeepsUp (i : Nat) (s : Sys F) : Prop :=
  ∀ x, s.sessions[i]? = some x → (bus s.host).behind x.reader ≤ liveCapacity

instance (i : Nat) (s : Sys F) : Decidable (KeepsUp i s) :=
  decidable_of_iff ((s.sessions[i]?).all fun x => (bus s.host).behind x.reader ≤ liveCapacity) (by
    unfold KeepsUp
    cases s.sessions[i]? <;> simp)

/-- One step of a handler that keeps up. -/
theorem missed_move {m : Move} (hmove : x.move host m = some x')
    (hbehind : (bus host).behind x.reader ≤ liveCapacity) : x'.reader.missed = x.reader.missed := by
  cases m with
  | recv =>
    simp only [Session.move] at hmove
    split at hmove
    · cases hrecv : (bus host).recv host.busClosed x.reader with
      | none => simp [hrecv] at hmove
      | some p =>
        obtain ⟨answer, r⟩ := p
        have hmissed := recv_missed hrecv hbehind
        rw [hrecv] at hmove
        cases answer <;>
        · cases hmove
          exact hmissed
    · cases hmove
  | forward ok =>
    simp only [Session.move] at hmove
    split at hmove
    · split at hmove
      · cases hmove
        rfl
      · split_ifs at hmove <;>
        · cases hmove
          rfl
    · cases hmove
  | finish ok =>
    simp only [Session.move] at hmove
    split at hmove
    · cases hmove
      rfl
    · split_ifs at hmove <;>
      · cases hmove
        rfl
    · cases hmove

/-- A client that keeps up misses nothing. -/
theorem missed_run {ls : List (Label F)} {i : Nat}
    (hrun : run (step cfg) (.start cfg) ls = some s)
    (hkeeps : ∀ y ∈ steps (step cfg) (.start cfg) ls, KeepsUp i y.1)
    (hx : s.sessions[i]? = some x) : x.reader.missed = 0 := by
  have hstep : ∀ (s : Sys F) (l : Label F) (s' : Sys F),
      (∀ x, s.sessions[i]? = some x → x.reader.missed = 0) → KeepsUp i s →
      step cfg s l = some s' → ∀ x, s'.sessions[i]? = some x → x.reader.missed = 0 := by
    intro s l s' h hup hs x hx
    cases l with
    | host l =>
      obtain ⟨host', -, rfl⟩ := Option.map_eq_some_iff.1 hs
      exact h x hx
    | attach plan =>
      cases hs
      rcases getElem?_push_cases hx with ⟨-, rfl⟩ | hx
      · rfl
      · exact h x hx
    | session j m =>
      simp only [step] at hs
      split at hs
      · cases hs
      · rename_i y hy
        obtain ⟨y', hmove, rfl⟩ := Option.map_eq_some_iff.1 hs
        rcases getElem?_set_cases hx with ⟨rfl, rfl⟩ | ⟨-, hx⟩
        · rw [missed_move hmove (hup y hy)]
          exact h y hy
        · exact h x hx
  exact run_invariant hstep ls _ s (by simp [Sys.start]) hkeeps hrun x hx

/-- **A client that keeps up loses nothing**: it gets all of the chunks that were sent to the bus
    since it subscribed, up to where it is, and all there will ever be before it is told of
    success. -/
theorem attach_lossless (cfg : Config) (ls : List (Label F)) (s : Sys F)
    (hrun : run (step cfg) (.start cfg) ls = some s) (i : Nat) (x : Session F)
    (hx : s.sessions[i]? = some x) (hsub : x.subscribed = true)
    (hkeeps : ∀ y ∈ steps (step cfg) (.start cfg) ls, KeepsUp i y.1) :
    ∃ (items : List LiveFrame) (tail : List F), x.sent = items.filterMap x.plan.render ++ tail ∧
      items <+: s.host.history.drop x.reader.start ∧ tail <+: x.plan.success ∧
      (tail ≠ [] → items = s.host.history.drop x.reader.start) := by
  have h := (served_run hrun).sessions x (List.mem_of_getElem? hx)
  have hgot := h.sound.lossless (missed_run hrun hkeeps hx)
  obtain ⟨items, tail, hsent, hitems, htail, hend⟩ := h.parts hsub
  refine ⟨items, tail, hsent, hitems.trans ?_, htail, fun hne => ?_⟩
  · rw [hgot]
    exact (List.take_prefix _ _).drop _
  · obtain ⟨hall, -, hnext⟩ := hend hne
    rw [hall, hgot, hnext]
    simp [bus]

/-! ## SPDY -/

/-- The bus carries the two channels only. -/
theorem channels_run {ls : List (Label F)} (hrun : run (step cfg) (.start cfg) ls = some s) :
    ∀ y ∈ s.host.history, ∃ o, y.1 = channel o := by
  have hstep : ∀ (s : Sys F) (l : Label F) (s' : Sys F),
      (∀ y ∈ s.host.history, ∃ o, y.1 = channel o) → step cfg s l = some s' →
      ∀ y ∈ s'.host.history, ∃ o, y.1 = channel o := by
    intro s l s' h hs y hy
    cases l with
    | host l =>
      obtain ⟨host', hhost, rfl⟩ := Option.map_eq_some_iff.1 hs
      rcases history_step hhost with hsame | ⟨o, chunk, hmore⟩
      · exact h y (hsame ▸ hy)
      · simp only [hmore, List.mem_append, List.mem_singleton] at hy
        rcases hy with hy | rfl
        · exact h y hy
        · exact ⟨o, rfl⟩
    | attach plan =>
      cases hs
      exact h y hy
    | session j m =>
      simp only [step] at hs
      split at hs
      · cases hs
      · obtain ⟨y', -, rfl⟩ := Option.map_eq_some_iff.1 hs
        exact h y hy
  have hstart : ∀ y ∈ (Sys.start cfg : Sys F).host.history, ∃ o, y.1 = channel o := by
    simp [Sys.start, Supervision.St.start]
  exact run_keeps hstep hstart hrun

/-- The stream on which `spdy_attach` sends an output. -/
def streamOf (c : Collected) : Stream → Option UInt32
  | .stdout => c.stdoutId
  | .stderr => c.stderrId

theorem render_spdyPlan (c : Collected) (o : Stream) (chunk : Bytes) :
    (spdyPlan c).render (channel o, chunk) =
      (streamOf c o).map fun id => sendData id false chunk := by
  cases o <;> rfl

/-- The frames of one output among all frames of the output. -/
theorem filterMap_spdyPlan {c : Collected} {o : Stream} {id : UInt32}
    (hid : streamOf c o = some id) (hdistinct : ∀ o', o' ≠ o → streamOf c o' ≠ some id)
    {items : List LiveFrame} (hitems : ∀ y ∈ items, ∃ o, y.1 = channel o) :
    (items.filterMap (spdyPlan c).render).filterMap (dataOn id) = chunksOn (channel o) items := by
  rw [List.filterMap_filterMap, chunksOn]
  apply List.filterMap_congr
  rintro ⟨ch, chunk⟩ hy
  obtain ⟨o', rfl⟩ := hitems _ hy
  rw [render_spdyPlan]
  by_cases ho : o' = o
  · subst ho
    rw [hid, if_pos rfl]
    simp [Exec.dataOn_sendData]
  · rw [if_neg fun hc => ho (channel_injective hc)]
    cases hother : streamOf c o' with
    | none => rfl
    | some j =>
      have hne : j ≠ id := by
        rintro rfl
        exact hdistinct o' ho hother
      simp [Exec.dataOn_sendData, hne]

/-- The streams of `kubectl attach` without stdin. -/
def attachStreams : List Arrival :=
  [.stream ⟨1, [("streamType", "error")]⟩, .stream ⟨3, [("streamType", "stdout")]⟩,
    .stream ⟨5, [("streamType", "stderr")]⟩]

def attachPlan : Plan Frame :=
  spdyPlan (Exec.collectRcStreams ⟨false, true, true⟩ .empty attachStreams)

/-- A client attaches to a container that writes "hi" and exits. -/
def attachRun : List (Label Frame) :=
  [.host (.spawn true), .attach attachPlan, .host .registerLog, .host .registerStdin,
    .host (.write .stdout [104, 105]), .host (.read .stdout 2), .host (.log .stdout true),
    .host (.send .stdout), .session 0 .recv, .host (.hangUp .stdout), .host (.hangUp .stderr),
    .host (.readEof .stdout), .host (.readEof .stderr), .host (.exit (some 0)), .host .supervise,
    .host .supervise, .host .supervise, .host .supervise, .host .supervise,
    .session 0 (.forward true), .session 0 .recv, .session 0 (.finish true),
    .session 0 (.finish true)]

/-- What the client has got then. -/
def attachSent : List Frame :=
  [sendData 3 false [104, 105], sendData 1 true statusSuccess, .goAway 0 0]

theorem attachRun_keepsUp : ∀ y ∈ steps (step ⟨false, false⟩) (.start ⟨false, false⟩) attachRun,
    KeepsUp 0 y.1 := by
  decide

theorem attachRun_lossless : ∃ s x, run (step ⟨false, false⟩) (.start ⟨false, false⟩) attachRun =
    some s ∧ s.sessions[0]? = some x ∧
    ∃ (items : List LiveFrame) (tail : List Frame),
      x.sent = items.filterMap x.plan.render ++ tail ∧
      items <+: s.host.history.drop x.reader.start ∧ tail <+: x.plan.success ∧
      (tail ≠ [] → items = s.host.history.drop x.reader.start) := by
  obtain ⟨s, x, hs, hx, hsub⟩ : ∃ s x,
      run (step ⟨false, false⟩) (.start ⟨false, false⟩) attachRun = some s ∧
      s.sessions[0]? = some x ∧ x.subscribed = true := ⟨_, _, rfl, rfl, rfl⟩
  exact ⟨s, x, hs, hx, attach_lossless _ attachRun s hs 0 x hx hsub attachRun_keepsUp⟩

end ContainerdRs.Cri.Streaming.Attach
