import ContainerdRs.Cri.Events
import ContainerdRs.Lib.Broadcast

/-!
# The event stream (`get_container_events`)

All containers send their events to one bus.  A client of `GetContainerEvents` subscribes to it and
is sent what its receiver yields; where it was overtaken, the stream goes on with the oldest event
that is left.  The service has a sender itself, so that the stream never ends.

* `Fanned`, `fanned_step` — on the bus, the events of every container are in the order in which
  they were sent.
* `stream_in_order` — however far a client falls behind, it sees Created, Started, Stopped and
  Deleted of a container in that order, and each once at most.
-/

set_option autoImplicit false

namespace ContainerdRs.Cri.EventStream

open Transition Broadcast
open Events (Life Event lifeOrder)

/-- `ContainerEventResponse`, as far as it differs from one event to another. -/
structure Response where
  containerId : String
  event : Event
  deriving DecidableEq, Repr

/-- The capacity of `Context::container_events`. -/
def eventCapacity : Nat := 512

/-- All containers, the bus, and the receivers of the streams. -/
structure St where
  lives : String → Life
  bus : Bus Response
  streams : List (Reader Response)

def St.start : St := ⟨fun _ => .start, .new eventCapacity, []⟩

/-- Who moves. -/
inductive Label where
  /-- A handler or a task of a container. -/
  | life (id : String) (l : Events.Label)
  /-- `get_container_events`. -/
  | subscribe
  /-- A client asks for the next event. -/
  | recv (k : Nat)

/-- What a container has sent in a step. -/
def news (id : String) (before after : Life) : List Response :=
  (after.events.drop before.events.length).map fun e => ⟨id, e⟩

/-- One step. -/
def step (ctx : String → Ctx) (s : St) : Label → Option St
  | .life id l =>
    (Events.step (ctx id) (s.lives id) l).map fun life =>
      { s with
        lives := Function.update s.lives id life
        bus := (news id (s.lives id) life).foldl Bus.send s.bus }
  | .subscribe => some { s with streams := s.streams ++ [s.bus.subscribe] }
  | .recv k =>
    match s.streams[k]? with
    | none => none
    -- `Context` has a sender
    | some r => (s.bus.recv false r).map fun x => { s with streams := s.streams.set k x.2 }

/-! ## What every step keeps -/

/-- The events of one container. -/
def eventsOf (id : String) (sent : List Response) : List Event :=
  sent.filterMap fun x => if x.containerId = id then some x.event else none

/-- The bus has the events of every container, and every stream is sound. -/
structure Fanned (s : St) : Prop where
  sent : ∀ id, eventsOf id s.bus.history = (s.lives id).events
  streams : ∀ r ∈ s.streams, Sound s.bus r

variable {ctx : String → Ctx} {s s' : St} {id : String}

/-- A step of a container only adds to its events. -/
theorem events_grow {c : Ctx} {life life' : Life} {l : Events.Label}
    (h : Events.step c life l = some life') : life.events <+: life'.events := by
  cases l with
  | create rec =>
    simp only [Events.step, Option.ite_none_right_eq_some, Option.some.injEq] at h
    obtain ⟨-, rfl⟩ := h
    exact List.prefix_refl _
  | createEnd =>
    simp only [Events.step, Option.ite_none_right_eq_some, Option.some.injEq] at h
    obtain ⟨-, rfl⟩ := h
    exact List.prefix_append _ _
  | call r env =>
    cases h
    exact List.prefix_refl _
  | move t env =>
    simp only [Events.step] at h
    split at h
    · cases h
    · obtain ⟨m, -, rfl⟩ := Option.map_eq_some_iff.1 h
      exact List.prefix_append _ _

theorem eventsOf_append (id : String) (xs ys : List Response) :
    eventsOf id (xs ++ ys) = eventsOf id xs ++ eventsOf id ys :=
  List.filterMap_append

theorem eventsOf_news (id : String) (before after : Life) (id' : String) :
    eventsOf id' (news id before after) =
      if id = id' then after.events.drop before.events.length else [] := by
  unfold eventsOf news
  rw [List.filterMap_map]
  split_ifs with heq
  · simp [heq]
  · simp [heq]

theorem foldl_send (sent : List Response) :
    ∀ b : Bus Response, sent.foldl Bus.send b = ⟨b.cap, b.history ++ sent⟩ := by
  induction sent with
  | nil => simp
  | cons x rest ih =>
    intro b
    rw [List.foldl_cons, ih]
    simp [Bus.send]

/-- A receiver stays sound while events are sent. -/
theorem sound_foldl {r : Reader Response} (sent : List Response) :
    ∀ {b : Bus Response}, Sound b r → Sound (sent.foldl Bus.send b) r := by
  induction sent with
  | nil => exact fun h => h
  | cons x rest ih => exact fun h => ih (h.send x)

theorem fanned_start : Fanned .start :=
  ⟨fun _ => rfl, by simp [St.start]⟩

/-- **Every step keeps the events of each container in order on the bus.** -/
theorem fanned_step {l : Label} (h : Fanned s) (hstep : step ctx s l = some s') : Fanned s' := by
  cases l with
  | life id l =>
    obtain ⟨life, hlife, rfl⟩ := Option.map_eq_some_iff.1 hstep
    obtain ⟨more, hmore⟩ := events_grow hlife
    refine ⟨fun id' => ?_, fun r hr => sound_foldl _ (h.streams r hr)⟩
    simp only [foldl_send, eventsOf_append, h.sent id', eventsOf_news]
    by_cases heq : id = id'
    · subst heq
      simp [← hmore]
    · rw [if_neg heq, List.append_nil, Function.update_of_ne (Ne.symm heq)]
  | subscribe =>
    cases hstep
    refine ⟨h.sent, fun r hr => ?_⟩
    rcases List.mem_append.1 hr with hr | hr
    · exact h.streams r hr
    · rw [List.mem_singleton.1 hr]
      exact sound_subscribe _
  | recv k =>
    simp only [step] at hstep
    split at hstep
    · cases hstep
    · rename_i r hr
      obtain ⟨⟨answer, r'⟩, hrecv, rfl⟩ := Option.map_eq_some_iff.1 hstep
      refine ⟨h.sent, fun x hx => ?_⟩
      rcases mem_set_cases hx with rfl | ⟨u, -, hu⟩
      · exact (h.streams r (List.mem_of_getElem? hr)).recv hrecv
      · exact h.streams x (List.mem_of_getElem? hu)

/-! ## What a client sees -/

/-- A step that leads to no event out of order. -/
def Orderly (s : St) : Label → Prop
  | .life id l => Events.Ok (s.lives id) l
  | _ => True

/-- In a run of such steps, every container keeps to the order of its life. -/
theorem lives_run {ls : List Label} (hrun : run (step ctx) .start ls = some s)
    (hok : ∀ x ∈ steps (step ctx) .start ls, Orderly x.1 x.2.1) (id : String) :
    Events.Inv (s.lives id) := by
  have hstep : ∀ (s : St) (l : Label) (s' : St), (∀ id, Events.Inv (s.lives id)) →
      Orderly s l → step ctx s l = some s' → ∀ id, Events.Inv (s'.lives id) := by
    intro s l s' h ho hs id'
    cases l with
    | life id l =>
      obtain ⟨life, hlife, rfl⟩ := Option.map_eq_some_iff.1 hs
      by_cases heq : id = id'
      · subst heq
        simp only [Function.update_self]
        exact Events.inv_step (h id) ho hlife
      · simp only [Function.update_of_ne (Ne.symm heq)]
        exact h id'
    | subscribe =>
      cases hs
      exact h id'
    | recv k =>
      simp only [step] at hs
      split at hs
      · cases hs
      · obtain ⟨x, -, rfl⟩ := Option.map_eq_some_iff.1 hs
        exact h id'
  exact run_invariant hstep ls _ s (fun _ => Events.inv_start) hok hrun id

/-- What a client has seen. -/
structure Seen (s : St) (r : Reader Response) : Prop where
  /-- The events of a container come in the order of its life, each once at most. -/
  inOrder : ∀ id, (eventsOf id r.got).Sublist lifeOrder
  /-- They have been sent. -/
  sent : ∀ id, (eventsOf id r.got).Sublist (s.lives id).events
  /-- What is missing has been counted, or is still to come. -/
  counted : r.got.length + r.missed = r.next - r.start
  /-- A client that was not overtaken and has caught up has seen everything since it subscribed. -/
  lossless : r.missed = 0 → r.next = s.bus.history.length → ∀ id,
    (s.lives id).events = eventsOf id (s.bus.history.take r.start) ++ eventsOf id r.got

/-- **The event stream**, over every run of any number of containers and clients whose steps lead to
    no event out of order. -/
theorem stream_in_order (ctx : String → Ctx) (ls : List Label) (s : St)
    (hrun : run (step ctx) .start ls = some s)
    (hok : ∀ x ∈ steps (step ctx) .start ls, Orderly x.1 x.2.1) (r : Reader Response)
    (hr : r ∈ s.streams) : Seen s r := by
  have hfanned : Fanned s := run_keeps (fun _ _ _ h hstep => fanned_step h hstep) fanned_start hrun
  have hsound := hfanned.streams r hr
  have hsent : ∀ id, (eventsOf id r.got).Sublist (s.lives id).events := by
    intro id
    rw [← hfanned.sent id]
    exact (hsound.got_sublist.trans (List.drop_sublist _ _)).filterMap _
  refine ⟨fun id => ?_, hsent, hsound.count, fun hmissed hnext id => ?_⟩
  · exact (hsent id).trans (lives_run hrun hok id).agrees.order
  · have hgot := hsound.lossless hmissed
    rw [hnext, List.take_length] at hgot
    rw [hgot, ← eventsOf_append, List.take_append_drop, hfanned.sent]

/-- A container is created and started, and a client subscribes in between. -/
def startedLife : List Label :=
  [.life "c0" (.create Events.sampleRecord), .life "c0" .createEnd, .subscribe,
    .life "c0" (.call .startContainer .quiet), .life "c0" (.move 0 .quiet),
    .life "c0" (.move 0 .quiet), .recv 0]

theorem startedLife_seen : ∃ s r, run (step fun _ => Events.sampleCtx) .start startedLife = some s ∧
    r ∈ s.streams ∧ r.got = [⟨"c0", .started⟩] ∧ Seen s r := by
  obtain ⟨s, r, hs, hr, hgot⟩ : ∃ s r,
      run (step fun _ => Events.sampleCtx) .start startedLife = some s ∧
      s.streams[0]? = some r ∧ r.got = [⟨"c0", .started⟩] := ⟨_, _, rfl, rfl, rfl⟩
  have hmem := List.mem_of_getElem? hr
  refine ⟨s, r, hs, hmem, hgot, stream_in_order _ startedLife s hs ?_ r hmem⟩
  simp [startedLife, steps, step, St.start, Events.step, Life.start, Life.take, St.take,
    Events.Call.request, begin, advance, Events.sampleRecord, Env.quiet, Orderly, Events.Ok,
    Events.OkMove, Events.Life.state, applyEffects, Effect.apply, startRecord]
  -- the receiver takes no part in this
  intro a l b hstep
  split at hstep
  · cases hstep
  · rw [List.mem_singleton, Prod.mk.injEq, Prod.mk.injEq] at hstep
    obtain ⟨-, rfl, -⟩ := hstep
    trivial

end ContainerdRs.Cri.EventStream
