import ContainerdRs.Cri.Moves

/-!
# Container events (`Context::emit_container_event`)

Five places send an event for a container: `create_container` after it has stored the record,
`start_container` when crun knows the container, the supervision task after the exit,
`stop_container` and `remove_container` at their end.  None of them knows what was sent before.

* `InOrder` — the events of an id are some of Created, Started, Stopped, Deleted, once each, in
  that order, and only for an id that was made.
* `Ok` — when a step leads to no event out of order, seen from the state before it.
* `Inv`, `inv_step` — what such steps keep.
* `events_in_order` — over every run of them, the events are in order.
* `stop_reported_twice` — StopContainer and the supervision task both report one stop.
-/

set_option autoImplicit false

namespace ContainerdRs.Cri.Events

open ContainerState Transition

/-! ## The system -/

/-- The events of one id. -/
inductive Event where
  | created
  | started
  | stopped
  | deleted
  deriving DecidableEq, Repr

/-- The order of a container's life. -/
def lifeOrder : List Event := [.created, .started, .stopped, .deleted]

/-- The event a handler sends with an effect. -/
def eventOf : Effect → Option Event
  | .event .containerStarted => some .started
  | .event .containerStopped => some .stopped
  | .event .containerDeleted => some .deleted
  | _ => none

/-- One id: what `create_container` has done for it, the handlers of `Lifecycle`, and the events
    sent. -/
structure Life where
  /-- The id is minted, and the record stored. -/
  made : Bool
  /-- `create_container` has stored the record and not sent its event. -/
  creating : Bool
  sys : St
  events : List Event

/-- Nobody has heard of the id. -/
def Life.start : Life := ⟨false, false, ⟨none, [], []⟩, []⟩

/-- The requests for a container. -/
inductive Call where
  | startContainer
  | stopContainer (timeout : Int)
  | removeContainer
  deriving DecidableEq, Repr

def Call.request : Call → Request
  | .startContainer => .startContainer
  | .stopContainer timeout => .stopContainer timeout
  | .removeContainer => .removeContainer

/-- Who moves. -/
inductive Label where
  /-- The metadata `put` of `create_container`; every id is fresh. -/
  | create (rec : ContainerRecord)
  /-- The end of `create_container`. -/
  | createEnd
  | call (r : Call) (env : Env)
  /-- A handler, or the supervision task. -/
  | move (t : Nat) (env : Env)

/-- The system after task `t` has made the move `m`. -/
def Life.take (s : Life) (t : Nat) (m : Move) : Life :=
  { s with sys := s.sys.take t m, events := s.events ++ m.effects.filterMap eventOf }

/-- One step. -/
def step (c : Ctx) (s : Life) : Label → Option Life
  | .create rec =>
    if s.made = false ∧ rec.state = created then
      some { s with made := true, creating := true, sys := { s.sys with record := some rec } }
    else none
  | .createEnd =>
    if s.creating = true then
      some { s with creating := false, events := s.events ++ [.created] }
    else none
  | .call r env =>
    some { s with sys := { s.sys with
      tasks := s.sys.tasks ++ [begin c env s.sys.record r.request] } }
  | .move t env =>
    match s.sys.tasks[t]? with
    | none => none
    | some task => (advance c env s.sys.record task).map (s.take t)

/-! ## What is promised, and when -/

/-- The events sent so far are in order. -/
structure InOrder (s : Life) : Prop where
  order : s.events.Sublist lifeOrder
  made : s.events ≠ [] → s.made = true

/-- A task that is going to report a start or a stop. -/
def reporting : Task → Bool
  | .startWait => true
  | .supervise | .superviseExit _ _ | .superviseEnd => true
  | .stop _ | .stopDeadline _ | .stopPoll | .stopKill | .stopReread | .stopForce _ | .stopEnd =>
    true
  | _ => false

/-- A RemoveContainer call. -/
def removing : Task → Bool
  | .remove | .removeRecord | .removeEnd => true
  | _ => false

/-- No task but the one at `t` is of the kind. -/
def Alone (kind : Task → Bool) (s : Life) (t : Nat) : Prop :=
  ∀ task ∈ s.sys.tasks.eraseIdx t, kind task = false

/-- The state of the record. -/
def Life.state (s : Life) : Option ContainerState := s.sys.record.map (·.state)

/-- When the next move of a task leads to no event out of order. -/
def OkMove (s : Life) (t : Nat) (env : Env) : Task → Prop
  -- the record is still as the handler has read it
  | .start _ => env.configJson = true → env.ioErr = none → env.metaErr = none →
      s.state = some created
  | .startWait => s.creating = false
  -- the exit gets recorded
  | .supervise | .superviseExit _ _ | .stopReread => env.metaErr = none
  -- nobody else is going to report a stop, or the start
  | .superviseEnd | .stopEnd => s.creating = false ∧ Alone reporting s t
  -- there is something to delete, and nobody will report anything afterwards
  | .removeRecord => env.metaErr = none →
      s.state ≠ none ∧ Alone (fun task => reporting task || removing task) s t
  | .removeEnd => s.creating = false
  | _ => True

/-- When a step leads to no event out of order. -/
def Ok (s : Life) : Label → Prop
  -- there is something to stop
  | .call (.stopContainer _) env => env.metaErr = none → s.state ≠ none ∧ s.state ≠ some exited
  | .move t env => ∀ task, s.sys.tasks[t]? = some task → OkMove s t env task
  | _ => True

/-! ## The invariant -/

/-- How the state stands to a task. -/
def Fits (s : Life) : Task → Prop
  | .startWait => s.state ≠ none ∧ s.state ≠ some created ∧ .started ∉ s.events ∧
      .stopped ∉ s.events ∧ .deleted ∉ s.events
  | .supervise | .superviseExit _ _ | .stop _ | .stopDeadline _ | .stopPoll | .stopKill
  | .stopReread | .stopForce _ => s.state ≠ none ∧ .stopped ∉ s.events ∧ .deleted ∉ s.events
  | .superviseEnd | .stopEnd =>
      s.state = some exited ∧ .stopped ∉ s.events ∧ .deleted ∉ s.events
  | .removeEnd => s.made = true ∧ s.state = none ∧ .deleted ∉ s.events
  | .update _ _ | .reconcile _ | .reconcilePut _ => False
  | _ => True

/-- How the events stand to the record. -/
structure Agrees (s : Life) : Prop where
  order : s.events.Sublist lifeOrder
  unmade : s.made = false → s.state = none ∧ s.events = []
  creating : s.creating = true → s.made = true ∧ s.events = []
  started : .started ∈ s.events → s.state ≠ some created
  stopped : .stopped ∈ s.events → s.state = none ∨ s.state = some exited
  deleted : .deleted ∈ s.events → s.state = none

/-- At most one task stands at `x`. -/
def Once (x : Task) (tasks : List Task) : Prop :=
  ∀ i j : Nat, tasks[i]? = some x → tasks[j]? = some x → i = j

structure Inv (s : Life) : Prop where
  agrees : Agrees s
  fits : ∀ (i : Nat) (task : Task), s.sys.tasks[i]? = some task → Fits s task
  startWait : Once .startWait s.sys.tasks
  removeEnd : Once .removeEnd s.sys.tasks

theorem inv_start : Inv Life.start where
  agrees := ⟨List.nil_sublist _, fun _ => ⟨rfl, rfl⟩, nofun, nofun, nofun, nofun⟩
  fits _ _ h := by simp [Life.start] at h
  startWait _ _ h := by simp [Life.start] at h
  removeEnd _ _ h := by simp [Life.start] at h

/-! ### One more event -/

/-- An event that comes after all that were sent. -/
theorem sublist_snoc {events : List Event} (h : events.Sublist lifeOrder) {e : Event}
    (hlast : ∀ f ∈ events, f ∈ lifeOrder.takeWhile (· ≠ e)) :
    (events ++ [e]).Sublist lifeOrder := by
  have hfilter : events.Sublist (lifeOrder.filter (· ∈ lifeOrder.takeWhile (· ≠ e))) := by
    have hsub := h.filter (· ∈ lifeOrder.takeWhile (· ≠ e))
    rwa [List.filter_eq_self.2 (fun f hf => decide_eq_true (hlast f hf))] at hsub
  refine (hfilter.append (List.Sublist.refl [e])).trans ?_
  cases e <;> decide

section agrees

variable {s s' : Life}

/-- A record is written over another. -/
theorem Agrees.store (h : Agrees s) (hsome : s.state ≠ none) (hmade : s'.made = s.made)
    (hcreating : s'.creating = s.creating) (hevents : s'.events = s.events)
    {state : ContainerState} (hstate : s'.state = some state) (hne : state ≠ created)
    (hstopped : .stopped ∈ s.events → state = exited) (hdeleted : .deleted ∉ s.events) :
    Agrees s' where
  order := by
    rw [hevents]
    exact h.order
  unmade hm := absurd (h.unmade (hmade ▸ hm)).1 hsome
  creating hc := by
    rw [hmade, hevents]
    exact h.creating (hcreating ▸ hc)
  started _ := by
    rw [hstate]
    exact fun heq => hne (Option.some.inj heq)
  stopped hs := by
    rw [hevents] at hs
    rw [hstate, hstopped hs]
    exact .inr rfl
  deleted hd := by
    rw [hevents] at hd
    exact absurd hd hdeleted

/-- An event is sent. -/
theorem Agrees.emit (h : Agrees s) (hcreating : s.creating = false) (hmade : s.made = true)
    (hcreating' : s'.creating = s.creating) (hmade' : s'.made = s.made)
    (hstate : s'.state = s.state) {e : Event} (hevents : s'.events = s.events ++ [e])
    (hlast : ∀ f ∈ s.events, f ∈ lifeOrder.takeWhile (· ≠ e))
    (hstarted : e = .started → s.state ≠ some created)
    (hstopped : e = .stopped → s.state = some exited)
    (hdeleted : e = .deleted → s.state = none) : Agrees s' where
  order := by
    rw [hevents]
    exact sublist_snoc h.order hlast
  unmade hm := by
    rw [hmade', hmade] at hm
    cases hm
  creating hc := by
    rw [hcreating', hcreating] at hc
    cases hc
  started hs := by
    rw [hevents, List.mem_append, List.mem_singleton] at hs
    rw [hstate]
    rcases hs with hs | hs
    · exact h.started hs
    · exact hstarted hs.symm
  stopped hs := by
    rw [hevents, List.mem_append, List.mem_singleton] at hs
    rw [hstate]
    rcases hs with hs | hs
    · exact h.stopped hs
    · exact .inr (hstopped hs.symm)
  deleted hs := by
    rw [hevents, List.mem_append, List.mem_singleton] at hs
    rw [hstate]
    rcases hs with hs | hs
    · exact h.deleted hs
    · exact hdeleted hs.symm

theorem Agrees.made_of_some (h : Agrees s) (hsome : s.state ≠ none) : s.made = true := by
  cases hmade : s.made with
  | true => rfl
  | false => exact absurd (h.unmade hmade).1 hsome

end agrees

/-! ### The other tasks -/

section others

variable {s s' : Life} {task : Task}

/-- The record and the events stay as they are. -/
theorem Fits.same (h : Fits s task) (hmade : s'.made = s.made) (hstate : s'.state = s.state)
    (hevents : s'.events = s.events) : Fits s' task := by
  cases task <;> simp only [Fits, hmade, hstate, hevents] at h ⊢ <;> exact h

/-- An exit is recorded. -/
theorem Fits.exit (h : Fits s task) (hsome : s.state ≠ none) (hstate : s'.state = some exited)
    (hevents : s'.events = s.events) : Fits s' task := by
  cases task <;> simp_all [Fits]

/-- A start is recorded. -/
theorem Fits.launch (h : Fits s task) (hcreated : s.state = some created)
    (hstate : s'.state = some running) (hevents : s'.events = s.events) : Fits s' task := by
  cases task <;> simp_all [Fits]

/-- The record is deleted. -/
theorem Fits.delete (h : Fits s task) (hkind : (reporting task || removing task) = false) :
    Fits s' task := by
  cases task <;> simp_all [Fits, reporting, removing]

theorem Fits.emitStarted (h : Fits s task) (hne : task ≠ .startWait) (hmade : s'.made = s.made)
    (hstate : s'.state = s.state) (hevents : s'.events = s.events ++ [.started]) :
    Fits s' task := by
  cases task <;> simp_all [Fits]

theorem Fits.emitStopped (h : Fits s task) (hkind : reporting task = false)
    (hmade : s'.made = s.made) (hstate : s'.state = s.state)
    (hevents : s'.events = s.events ++ [.stopped]) : Fits s' task := by
  cases task <;> simp_all [Fits, reporting]

theorem Fits.emitDeleted (h : Fits s task) (hne : task ≠ .removeEnd) (hnone : s.state = none) :
    Fits s' task := by
  cases task <;> simp_all [Fits]

end others

/-! ### One move -/

section moves

variable {s : Life} {t : Nat} {m : Move} {task : Task}

theorem state_take : (s.take t m).state = (applyEffects s.sys.record m.effects).map (·.state) :=
  rfl

theorem Once.take {x : Task} (h : Once x s.sys.tasks) (hspawn : x ∉ m.spawn)
    (hnext : m.next = x → ∀ u, u ≠ t → s.sys.tasks[u]? ≠ some x) :
    Once x (s.take t m).sys.tasks := by
  intro i j hi hj
  rcases getElem?_take_cases hi with ⟨hit, hi⟩ | ⟨hit, hi⟩ | hi
  · rcases getElem?_take_cases hj with ⟨hjt, -⟩ | ⟨hjt, hj⟩ | hj
    · rw [hit, hjt]
    · exact absurd hj (hnext hi.symm j hjt)
    · exact absurd hj hspawn
  · rcases getElem?_take_cases hj with ⟨hjt, hj⟩ | ⟨hjt, hj⟩ | hj
    · exact absurd hi (hnext hj.symm i hit)
    · exact h i j hi hj
    · exact absurd hj hspawn
  · exact absurd hi hspawn

/-- What a move has to keep. -/
theorem Inv.take (hinv : Inv s) (hagrees : Agrees (s.take t m))
    (hothers : ∀ u x, u ≠ t → s.sys.tasks[u]? = some x → Fits (s.take t m) x)
    (hnext : Fits (s.take t m) m.next)
    (hspawn : ∀ x ∈ m.spawn, x = .supervise ∧ Fits (s.take t m) x)
    (hwait : m.next = .startWait → ∀ u, u ≠ t → s.sys.tasks[u]? ≠ some .startWait)
    (hend : m.next = .removeEnd → ∀ u, u ≠ t → s.sys.tasks[u]? ≠ some .removeEnd) :
    Inv (s.take t m) where
  agrees := hagrees
  fits i x hi := by
    rcases getElem?_take_cases hi with ⟨-, rfl⟩ | ⟨hit, hi⟩ | hi
    · exact hnext
    · exact hothers i x hit hi
    · exact (hspawn x hi).2
  startWait := hinv.startWait.take (fun hx => by cases (hspawn _ hx).1) hwait
  removeEnd := hinv.removeEnd.take (fun hx => by cases (hspawn _ hx).1) hend

/-- Points of which one call at most is at a time, whatever the record says. -/
def single : Task → Bool
  | .startWait | .removeEnd => true
  | _ => false

/-- A task only goes on. -/
theorem Inv.goes (hinv : Inv s) (hnext : Fits s m.next) (hsingle : single m.next = false)
    (hspawn : m.spawn = [])
    (hrecord : applyEffects s.sys.record m.effects = s.sys.record)
    (hevents : m.effects.filterMap eventOf = []) : Inv (s.take t m) := by
  have hstate : (s.take t m).state = s.state := by
    rw [state_take, hrecord]
    rfl
  have hevents' : (s.take t m).events = s.events := by
    simp [Life.take, hevents]
  have hfits : ∀ x, Fits s x → Fits (s.take t m) x := fun x hx => hx.same rfl hstate hevents'
  refine hinv.take ?_ (fun u x _ hx => hfits x (hinv.fits u x hx)) (hfits _ hnext)
    (by simp [hspawn]) ?_ ?_
  · obtain ⟨h1, h2, h3, h4, h5, h6⟩ := hinv.agrees
    constructor <;> simp only [hstate, hevents'] <;> assumption
  · intro h
    rw [h] at hsingle
    cases hsingle
  · intro h
    rw [h] at hsingle
    cases hsingle

theorem Alone.other {kind : Task → Bool} (h : Alone kind s t) {u : Nat} {x : Task} (hut : u ≠ t)
    (hx : s.sys.tasks[u]? = some x) : kind x = false :=
  h x (List.mem_eraseIdx_iff_getElem?.2 ⟨u, hut, hx⟩)

/-- StartContainer stores `Running` and spawns the supervision task. -/
theorem Inv.launch (hinv : Inv s) (hcreated : s.state = some created) {r : ContainerRecord}
    (hr : r.state = running) :
    Inv (s.take t ⟨.startWait, [.supervise], [.put r, .crunRun]⟩) := by
  have hstate : (s.take t ⟨.startWait, [.supervise], [.put r, .crunRun]⟩).state = some running :=
    congrArg some hr
  have hevents : (s.take t ⟨.startWait, [.supervise], [.put r, .crunRun]⟩).events = s.events := by
    simp [Life.take, eventOf]
  have hagrees := hinv.agrees
  have hstarted : .started ∉ s.events := fun h => hagrees.started h hcreated
  have hstopped : .stopped ∉ s.events := fun h => by
    rcases hagrees.stopped h with h | h <;> rw [hcreated] at h <;> cases h
  have hdeleted : .deleted ∉ s.events := fun h => by
    have h := hagrees.deleted h
    rw [hcreated] at h
    cases h
  refine hinv.take ?_ ?_ ?_ ?_ ?_ nofun
  · exact hagrees.store (by rw [hcreated]; nofun) rfl rfl hevents hstate nofun
      (fun h => absurd h hstopped) hdeleted
  · intro u x _ hx
    exact (hinv.fits u x hx).launch hcreated hstate hevents
  · simp only [Fits, hstate, hevents]
    exact ⟨nofun, nofun, hstarted, hstopped, hdeleted⟩
  · intro x hx
    obtain rfl := List.mem_singleton.1 hx
    refine ⟨rfl, ?_⟩
    simp only [Fits, hstate, hevents]
    exact ⟨nofun, hstopped, hdeleted⟩
  · intro _ u _ hu
    exact (hinv.fits u _ hu).2.1 hcreated

/-- A task records the exit. -/
theorem Inv.recordExit (hinv : Inv s) (hsome : s.state ≠ none) (hstopped : .stopped ∉ s.events)
    (hdeleted : .deleted ∉ s.events) {r : ContainerRecord} (hr : r.state = exited) {next : Task}
    (hnext : next = .superviseEnd ∨ next = .stopEnd) :
    Inv (s.take t ⟨next, [], [.put r]⟩) := by
  have hstate : (s.take t ⟨next, [], [.put r]⟩).state = some exited := congrArg some hr
  have hevents : (s.take t ⟨next, [], [.put r]⟩).events = s.events := by
    simp [Life.take, eventOf]
  refine hinv.take ?_ ?_ ?_ (by simp) ?_ ?_
  · exact hinv.agrees.store hsome rfl rfl hevents hstate nofun (fun _ => rfl) hdeleted
  · intro u x _ hx
    exact (hinv.fits u x hx).exit hsome hstate hevents
  · rcases hnext with rfl | rfl <;> simp only [Fits, hstate, hevents] <;>
      exact ⟨trivial, hstopped, hdeleted⟩
  · rcases hnext with rfl | rfl <;> nofun
  · rcases hnext with rfl | rfl <;> nofun

/-- StartContainer reports the start. -/
theorem Inv.emitStarted (hinv : Inv s) (htask : s.sys.tasks[t]? = some .startWait)
    (hcreating : s.creating = false) :
    Inv (s.take t ⟨.returned (.ok ()), [], [.event .containerStarted]⟩) := by
  obtain ⟨hsome, hne, hstarted, hstopped, hdeleted⟩ := hinv.fits t _ htask
  have hagrees := hinv.agrees
  refine hinv.take ?_ ?_ trivial (by simp) nofun nofun
  · refine hagrees.emit hcreating (hagrees.made_of_some hsome) rfl rfl rfl rfl ?_ (fun _ => hne)
      nofun nofun
    intro f hf
    cases f with
    | created => decide
    | started => exact absurd hf hstarted
    | stopped => exact absurd hf hstopped
    | deleted => exact absurd hf hdeleted
  · intro u x hut hx
    refine (hinv.fits u x hx).emitStarted ?_ rfl rfl rfl
    rintro rfl
    exact hut (hinv.startWait u t hx htask)

/-- The supervision task or StopContainer reports the stop. -/
theorem Inv.emitStopped (hinv : Inv s) (hstate : s.state = some exited)
    (hstopped : .stopped ∉ s.events) (hdeleted : .deleted ∉ s.events)
    (hcreating : s.creating = false) (halone : Alone reporting s t) :
    Inv (s.take t ⟨.returned (.ok ()), [], [.event .containerStopped]⟩) := by
  have hagrees := hinv.agrees
  refine hinv.take ?_ ?_ trivial (by simp) nofun nofun
  · refine hagrees.emit hcreating (hagrees.made_of_some (by rw [hstate]; nofun)) rfl rfl rfl rfl ?_
      nofun (fun _ => hstate) nofun
    intro f hf
    cases f with
    | created => decide
    | started => decide
    | stopped => exact absurd hf hstopped
    | deleted => exact absurd hf hdeleted
  · intro u x hut hx
    exact (hinv.fits u x hx).emitStopped (halone.other hut hx) rfl rfl rfl

/-- RemoveContainer deletes the record. -/
theorem Inv.deleteRecord (hinv : Inv s) (hsome : s.state ≠ none)
    (halone : Alone (fun task => reporting task || removing task) s t) :
    Inv (s.take t ⟨.removeEnd, [], [.deleteRecord]⟩) := by
  have hevents : (s.take t ⟨.removeEnd, [], [.deleteRecord]⟩).events = s.events := by
    simp [Life.take, eventOf]
  have hagrees := hinv.agrees
  have hmade := hagrees.made_of_some hsome
  refine hinv.take ⟨?_, ?_, ?_, ?_, ?_, ?_⟩ ?_ ?_ (by simp) nofun ?_
  · rw [hevents]
    exact hagrees.order
  · intro h
    rw [show (s.take t _).made = s.made from rfl, hmade] at h
    cases h
  · intro h
    rw [hevents]
    exact hagrees.creating h
  · exact fun _ => nofun
  · exact fun _ => .inl rfl
  · exact fun _ => rfl
  · intro u x hut hx
    exact (hinv.fits u x hx).delete (halone.other hut hx)
  · simp only [Fits, hevents]
    exact ⟨hmade, rfl, fun h => hsome (hagrees.deleted h)⟩
  · intro _ u hut hu
    exact absurd (halone.other hut hu) (by decide)

/-- RemoveContainer reports the deletion. -/
theorem Inv.emitDeleted (hinv : Inv s) (htask : s.sys.tasks[t]? = some .removeEnd)
    (hcreating : s.creating = false) :
    Inv (s.take t ⟨.returned (.ok ()), [], [.event .containerDeleted]⟩) := by
  obtain ⟨hmade, hnone, hdeleted⟩ := hinv.fits t _ htask
  have hagrees := hinv.agrees
  refine hinv.take ?_ ?_ trivial (by simp) nofun nofun
  · refine hagrees.emit hcreating hmade rfl rfl rfl rfl ?_ nofun nofun (fun _ => hnone)
    intro f hf
    cases f with
    | created => decide
    | started => decide
    | stopped => decide
    | deleted => exact absurd hf hdeleted
  · intro u x hut hx
    refine (hinv.fits u x hx).emitDeleted ?_ hnone
    rintro rfl
    exact hut (hinv.removeEnd u t hx htask)

/-- **One move** that is `OkMove`. -/
theorem inv_move {c : Ctx} {env : Env} (hinv : Inv s) (htask : s.sys.tasks[t]? = some task)
    (hok : OkMove s t env task) (h : advance c env s.sys.record task = some m) :
    Inv (s.take t m) := by
  have hfits := hinv.fits t task htask
  cases task with
  | start rec =>
    simp only [advance] at h
    split at h
    · cases h
      exact hinv.goes trivial rfl rfl rfl rfl
    · rename_i hconfig
      cases hio : env.ioErr <;> cases hmeta : env.metaErr <;> simp only [hio, hmeta] at h <;>
        cases h
      · exact hinv.launch (hok (by simpa using hconfig) hio hmeta) rfl
      all_goals exact hinv.goes trivial rfl rfl rfl rfl
  | startWait =>
    cases h
    exact hinv.emitStarted htask hok
  | supervise =>
    obtain ⟨hsome, hrest⟩ := hfits
    cases hrecord : s.sys.record with
    | none => exact absurd (by simp [Life.state, hrecord]) hsome
    | some r =>
      simp only [advance, hrecord, show env.metaErr = none from hok] at h
      cases h
      exact hinv.goes ⟨hsome, hrest⟩ rfl rfl rfl rfl
  | superviseExit code r =>
    obtain ⟨hsome, hstopped, hdeleted⟩ := hfits
    simp only [advance, show env.metaErr = none from hok] at h
    cases h
    exact hinv.recordExit hsome hstopped hdeleted rfl (.inl rfl)
  | superviseEnd =>
    cases h
    exact hinv.emitStopped hfits.1 hfits.2.1 hfits.2.2 hok.1 hok.2
  | stop timeoutSecs =>
    cases h
    exact hinv.goes hfits rfl rfl rfl rfl
  | stopDeadline timeoutSecs =>
    simp only [advance] at h
    split at h
    · split at h <;> cases h
      · exact hinv.goes trivial rfl rfl rfl rfl
      · exact hinv.goes hfits rfl rfl rfl rfl
    · cases h
      exact hinv.goes hfits rfl rfl rfl rfl
  | stopPoll =>
    have hwait : Inv (s.take t (.goto (if env.expired then .stopKill else .stopPoll))) := by
      split <;> exact hinv.goes hfits rfl rfl rfl rfl
    simp only [advance] at h
    split at h
    · split at h <;> cases h
      · exact hinv.goes hfits rfl rfl rfl rfl
      · exact hwait
    · cases h
      exact hwait
  | stopKill =>
    cases h
    exact hinv.goes hfits rfl rfl rfl rfl
  | stopReread =>
    obtain ⟨hsome, hrest⟩ := hfits
    cases hrecord : s.sys.record with
    | none => exact absurd (by simp [Life.state, hrecord]) hsome
    | some updated =>
      simp only [advance, hrecord, show env.metaErr = none from hok] at h
      split at h <;> cases h
      · exact hinv.goes ⟨hsome, hrest⟩ rfl rfl rfl rfl
      · rename_i hexited
        have hstate : s.state = some exited := by
          simpa [Life.state, hrecord] using hexited
        exact hinv.goes ⟨hstate, hrest⟩ rfl rfl rfl rfl
  | stopForce updated =>
    obtain ⟨hsome, hstopped, hdeleted⟩ := hfits
    simp only [advance] at h
    split at h <;> cases h
    · exact hinv.recordExit hsome hstopped hdeleted rfl (.inr rfl)
    · exact hinv.goes trivial rfl rfl rfl rfl
  | stopEnd =>
    cases h
    exact hinv.emitStopped hfits.1 hfits.2.1 hfits.2.2 hok.1 hok.2
  | remove =>
    cases h
    exact hinv.goes trivial rfl rfl rfl rfl
  | removeRecord =>
    simp only [advance] at h
    split at h <;> rename_i hmeta <;> cases h
    · exact hinv.deleteRecord (hok hmeta).1 (hok hmeta).2
    · exact hinv.goes trivial rfl rfl rfl rfl
  | removeEnd =>
    cases h
    exact hinv.emitDeleted htask hok
  | update _ _ | reconcile _ | reconcilePut _ => exact hfits.elim
  | returned _ | reconciled _ | panicked => cases h

end moves

/-! ## Whole runs -/

/-- The first point of a call. -/
theorem fits_begin {c : Ctx} {s : Life} {r : Call} {env : Env} (hinv : Inv s)
    (hok : Ok s (.call r env)) : Fits s (begin c env s.sys.record r.request) ∧
      begin c env s.sys.record r.request ≠ .startWait ∧
      begin c env s.sys.record r.request ≠ .removeEnd := by
  cases r with
  | startContainer =>
    simp only [Call.request, begin]
    split
    · exact ⟨trivial, nofun, nofun⟩
    · exact ⟨trivial, nofun, nofun⟩
    · split
      · exact ⟨trivial, nofun, nofun⟩
      · exact ⟨trivial, nofun, nofun⟩
  | stopContainer timeout =>
    cases hmeta : env.metaErr with
    | some e =>
      simp only [Call.request, begin, hmeta]
      exact ⟨trivial, nofun, nofun⟩
    | none =>
      obtain ⟨hsome, hne⟩ := hok hmeta
      have hstopped : .stopped ∉ s.events := fun h =>
        (hinv.agrees.stopped h).elim hsome hne
      have hdeleted : .deleted ∉ s.events := fun h => hsome (hinv.agrees.deleted h)
      cases hrecord : s.sys.record with
      | none => exact absurd (by simp [Life.state, hrecord]) hsome
      | some rec =>
        have hrec : rec.state ≠ exited := fun h => hne (by simp [Life.state, hrecord, h])
        simp only [Call.request, begin, hmeta, hrec, ne_eq, not_false_eq_true, if_true]
        exact ⟨⟨hsome, hstopped, hdeleted⟩, nofun, nofun⟩
  | removeContainer => exact ⟨trivial, nofun, nofun⟩

/-- A task that has just begun stands behind the others. -/
theorem Once.snoc {x new : Task} {tasks : List Task} (h : Once x tasks) (hne : new ≠ x) :
    Once x (tasks ++ [new]) := by
  have hold : ∀ i : Nat, (tasks ++ [new])[i]? = some x → tasks[i]? = some x := by
    intro i hi
    rw [List.getElem?_append] at hi
    split at hi
    · exact hi
    · have hmem := List.mem_of_getElem? hi
      exact absurd (List.mem_singleton.1 hmem).symm hne
  exact fun i j hi hj => h i j (hold i hi) (hold j hj)

/-- **One step** that is `Ok`. -/
theorem inv_step {c : Ctx} {s s' : Life} {l : Label} (hinv : Inv s) (hok : Ok s l)
    (h : step c s l = some s') : Inv s' := by
  have hagrees := hinv.agrees
  cases l with
  | create rec =>
    simp only [step, Option.ite_none_right_eq_some, Option.some.injEq] at h
    obtain ⟨⟨hmade, hrec⟩, rfl⟩ := h
    obtain ⟨hnone, hevents⟩ := hagrees.unmade hmade
    refine ⟨⟨hagrees.order, nofun, fun _ => ⟨rfl, hevents⟩, ?_, ?_, ?_⟩, ?_, hinv.startWait,
      hinv.removeEnd⟩
    · simp [hevents]
    · simp [hevents]
    · simp [hevents]
    · intro i task hi
      have hfits := hinv.fits i task hi
      -- without a record there was no task that counts on one
      cases task <;> simp_all [Fits]
  | createEnd =>
    simp only [step, Option.ite_none_right_eq_some, Option.some.injEq] at h
    obtain ⟨hcreating, rfl⟩ := h
    obtain ⟨hmade, hevents⟩ := hagrees.creating hcreating
    refine ⟨⟨?_, ?_, nofun, ?_, ?_, ?_⟩, ?_, hinv.startWait, hinv.removeEnd⟩
    · simp only [hevents]
      decide
    · intro h
      rw [show s.made = false from h] at hmade
      cases hmade
    · simp [hevents]
    · simp [hevents]
    · simp [hevents]
    · intro i task hi
      have hfits := hinv.fits i task hi
      cases task <;> simp_all [Fits, Life.state]
  | call r env =>
    cases h
    obtain ⟨hfits, hwait, hend⟩ := fits_begin (c := c) hinv hok
    refine ⟨⟨hagrees.order, hagrees.unmade, hagrees.creating, hagrees.started, hagrees.stopped,
      hagrees.deleted⟩, ?_, hinv.startWait.snoc hwait, hinv.removeEnd.snoc hend⟩
    intro i task hi
    rcases List.mem_append.1 (List.mem_of_getElem? hi) with hmem | hmem
    · obtain ⟨j, hj⟩ := List.getElem?_of_mem hmem
      exact (hinv.fits j task hj).same rfl rfl rfl
    · rw [List.mem_singleton.1 hmem]
      exact hfits.same rfl rfl rfl
  | move t env =>
    simp only [step] at h
    split at h
    · cases h
    · rename_i task htask
      obtain ⟨m, hm, rfl⟩ := Option.map_eq_some_iff.1 h
      exact inv_move hinv htask (hok task htask) hm

theorem Inv.inOrder {s : Life} (hinv : Inv s) : InOrder s := by
  refine ⟨hinv.agrees.order, fun hne => ?_⟩
  cases hmade : s.made with
  | true => rfl
  | false => exact absurd (hinv.agrees.unmade hmade).2 hne

/-- **Event order.**  In every run of CreateContainer, StartContainer, StopContainer and
    RemoveContainer calls and supervision tasks whose steps are all `Ok`, the events sent for
    the id are in order at every moment. -/
theorem events_in_order (c : Ctx) (labels : List Label)
    (hok : ∀ x ∈ steps (step c) Life.start labels, Ok x.1 x.2.1) :
    ∀ x ∈ steps (step c) Life.start labels, InOrder x.2.2 := by
  intro x hx
  exact (steps_invariant (fun _ _ _ hi ho h => inv_step hi ho h) labels _ inv_start hok x hx).2
    |>.inOrder

/-- The container of the runs below. -/
def sampleCtx : Ctx := ⟨"c0", "/run/crun", "/run/k8s.io/c0"⟩

/-- Its record, as `create_container` stores it. -/
def sampleRecord : ContainerRecord :=
  ⟨"c0", "p0", created, "c0.log", none, none, none, none, none, none, none, none, false⟩

/-- The container is created, started, exits by itself and is removed. -/
def wholeLife : List Label :=
  [.create sampleRecord, .createEnd, .call .startContainer .quiet, .move 0 .quiet, .move 0 .quiet,
    .move 1 .quiet, .move 1 .quiet, .move 1 .quiet, .call .removeContainer .quiet, .move 2 .quiet,
    .move 2 .quiet, .move 2 .quiet]

theorem wholeLife_in_order :
    (run (step sampleCtx) Life.start wholeLife).map (·.events) = some lifeOrder ∧
      ∀ x ∈ steps (step sampleCtx) Life.start wholeLife, InOrder x.2.2 := by
  refine ⟨by decide, events_in_order sampleCtx wholeLife ?_⟩
  simp [wholeLife, steps, step, Life.start, Life.take, St.take, Call.request, begin, advance,
    sampleRecord, Env.quiet, Move.goto, Ok, OkMove, Alone, Life.state, applyEffects, Effect.apply,
    startRecord, exitRecord, reporting, removing]

/-- The running container is stopped, with its supervision task still there. -/
def stoppedLife : List Label :=
  [.create sampleRecord, .createEnd, .call .startContainer .quiet, .move 0 .quiet, .move 0 .quiet,
    .call (.stopContainer 0) .quiet, .move 2 .quiet, .move 2 .quiet, .move 2 .quiet,
    .move 1 .quiet, .move 1 .quiet, .move 1 .quiet, .move 2 .quiet, .move 2 .quiet]

/-- Both tasks report the stop. -/
theorem stop_reported_twice :
    ¬ ∀ (c : Ctx) (labels : List Label) (s : Life), run (step c) Life.start labels = some s →
      InOrder s := by
  intro h
  have hsome : (run (step sampleCtx) Life.start stoppedLife).isSome = true := by decide
  obtain ⟨s, hs⟩ := Option.isSome_iff_exists.1 hsome
  have hevents : (run (step sampleCtx) Life.start stoppedLife).map (·.events) =
      some [.created, .started, .stopped, .stopped] := by
    decide
  rw [hs, Option.map_some, Option.some.injEq] at hevents
  have horder := (h sampleCtx stoppedLife s hs).order
  rw [hevents] at horder
  revert horder
  decide

end ContainerdRs.Cri.Events
