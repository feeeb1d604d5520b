import ContainerdRs.Cri.Supervision
import ContainerdRs.Lib.FairLock

/-!
# The input of an attached container (`spdy_attach`, `StdinHandle`)

Any number of clients attach with input to a container that was started with `stdin`.  The task of
a client takes the chunks that have arrived, one after another, and writes each to the pipe under
the mutex of the handle.  It stops when the client closes its stream, when a write fails, or when it
finds the pipe closed; a client of a container with `stdin_once` then closes the pipe.

* `Fed`, `fed_step` — what every step keeps.
* `stdin_in_order` — what the container reads, over every run, and when its input is at an end.
-/

set_option autoImplicit false

namespace ContainerdRs.Cri.Streaming.AttachStdin

open Transition FairLock

/-- Where the task of a client stands. -/
inductive Stage where
  /-- `srx.recv().await`. -/
  | receiving
  /-- `handle.lock().await` with a chunk. -/
  | locking (chunk : Bytes)
  /-- `w.write_all(&chunk)`: the bytes that the pipe has taken, and those that are left. -/
  | writing (done left : Bytes)
  /-- Behind the loop. -/
  | leaving
  /-- The second `handle.lock().await`. -/
  | closing
  | through
  deriving DecidableEq, Repr

/-- The task is behind its loop. -/
def Stage.isBehind : Stage → Bool
  | .leaving | .closing | .through => true
  | _ => false

/-- A client that has opened an stdin stream. -/
structure Client where
  /-- `session.stdin_once`. -/
  once : Bool
  /-- All that it has sent. -/
  arrived : List Bytes
  /-- What its task has not received. -/
  inbox : List Bytes
  /-- The client has closed the stream, or is gone. -/
  ended : Bool
  stage : Stage
  deriving DecidableEq, Repr

def Client.new (once : Bool) : Client := ⟨once, [], [], false, .receiving⟩

/-- The container, its stdin, and the clients. -/
structure St where
  host : Supervision.St
  clients : List Client
  /-- The mutex of the handle, by the places of the clients. -/
  guard : Lock Nat
  /-- The handle holds the write end. -/
  slot : Bool
  /-- All bytes that the pipe has taken, and those of them that the container has read. -/
  written : Bytes
  consumed : Bytes
  /-- The read end is closed. -/
  broken : Bool
  /-- The chunks of which the pipe has taken all bytes, with the clients. -/
  log : List (Nat × Bytes)
  /-- The container has read the end of its input. -/
  sawEof : Bool

def St.start (cfg : Supervision.Config) : St where
  host := .start cfg
  clients := []
  guard := .new
  slot := true
  written := []
  consumed := []
  broken := false
  log := []
  sawEof := false

/-- Who moves. -/
inductive Label where
  | host (l : Supervision.Label)
  /-- A client attaches with stdin, and `stdin_handle` finds the container. -/
  | attach (once : Bool)
  /-- A chunk arrives on the stream of a client, or the stream ends. -/
  | arrive (i : Nat) (chunk : Bytes)
  | close (i : Nat)
  | recv (i : Nat)
  /-- The first in the queue gets the mutex. -/
  | lock
  /-- The pipe takes `n` bytes of the holder's chunk. -/
  | wrote (n : Nat)
  /-- `w.write_all(&chunk)` is through, and `w.flush()`. -/
  | flushed
  /-- `w.write_all(&chunk)` fails. -/
  | failed
  /-- A task that is behind its loop goes on to close the pipe, if the session says so. -/
  | leave (i : Nat)
  /-- The container reads `n` bytes. -/
  | read (n : Nat)
  | readEof
  deriving DecidableEq, Repr

/-- A client has moved. -/
def St.setClient (s : St) (i : Nat) (c : Client) : St := { s with clients := s.clients.set i c }

/-- The container has a pipe for its stdin. -/
def St.piped (cfg : Supervision.Config) (s : St) : Bool :=
  s.host.launched && cfg.stdinOpen && !cfg.terminal

/-- Someone still has the write end: the supervisor or the registry, or a task. -/
def St.writeEnd (s : St) : Bool :=
  s.slot && (decide (s.host.phase ≠ .finished) || s.clients.any fun c => c.stage ≠ .through)

/-- The holder of the mutex moves. -/
def St.holding (s : St) (f : Nat → Client → Option St) : Option St :=
  match s.guard.holder with
  | none => none
  | some i =>
    match s.clients[i]? with
    | none => none
    | some c => f i c

/-- One step. -/
def step (cfg : Supervision.Config) (s : St) : Label → Option St
  | .host l => (Supervision.step cfg s.host l).map fun host => { s with host := host }
  | .attach once =>
    if s.host.stdins then some { s with clients := s.clients ++ [.new once] } else none
  | .arrive i chunk =>
    match s.clients[i]? with
    | none => none
    | some c =>
      if c.ended then none
      else some (s.setClient i
        { c with arrived := c.arrived ++ [chunk], inbox := c.inbox ++ [chunk] })
  | .close i =>
    match s.clients[i]? with
    | none => none
    | some c => some (s.setClient i { c with ended := true })
  | .recv i =>
    match s.clients[i]? with
    | none => none
    | some c =>
      match c.stage, c.inbox with
      | .receiving, chunk :: inbox =>
        some { s.setClient i { c with inbox := inbox, stage := .locking chunk } with
          guard := s.guard.request i }
      | .receiving, [] =>
        if c.ended then some (s.setClient i { c with stage := .leaving }) else none
      | _, _ => none
  | .lock =>
    match s.guard.grant with
    | none => none
    | some (i, guard) =>
      match s.clients[i]? with
      | none => none
      | some c =>
        match c.stage with
        | .locking chunk =>
          if s.slot then
            some { s.setClient i { c with stage := .writing [] chunk } with guard := guard }
          -- the pipe has been closed by another client
          else some { s.setClient i { c with stage := .leaving } with guard := guard.release }
        | .closing =>
          some { s.setClient i { c with stage := .through } with
            guard := guard.release
            slot := false }
        | _ => none
  | .wrote n =>
    s.holding fun i c =>
      match c.stage with
      | .writing done left =>
        if s.broken = false ∧ 0 < n ∧ n ≤ left.length then
          some { s.setClient i { c with stage := .writing (done ++ left.take n) (left.drop n) } with
            written := s.written ++ left.take n }
        else none
      | _ => none
  | .flushed =>
    s.holding fun i c =>
      match c.stage with
      | .writing chunk [] =>
        some { s.setClient i { c with stage := .receiving } with
          guard := s.guard.release
          log := s.log ++ [(i, chunk)] }
      | _ => none
  | .failed =>
    s.holding fun i c =>
      match c.stage with
      | .writing _ (_ :: _) =>
        some { s.setClient i { c with stage := .leaving } with
          guard := s.guard.release
          broken := true }
      | _ => none
  | .leave i =>
    match s.clients[i]? with
    | none => none
    | some c =>
      match c.stage with
      | .leaving =>
        if c.once then
          some { s.setClient i { c with stage := .closing } with guard := s.guard.request i }
        else some (s.setClient i { c with stage := .through })
      | _ => none
  | .read n =>
    if s.piped cfg = true ∧ 0 < n ∧ s.consumed.length + n ≤ s.written.length then
      some { s with consumed := s.written.take (s.consumed.length + n) }
    else none
  | .readEof =>
    if s.piped cfg = true ∧ s.consumed.length = s.written.length ∧ s.writeEnd = false then
      some { s with sawEof := true }
    else none

/-! ## What every step keeps -/

/-- The chunks of one client. -/
def chunksOf (i : Nat) (log : List (Nat × Bytes)) : List Bytes :=
  log.filterMap fun x => if x.1 = i then some x.2 else none

/-- Where a client is at the mutex. -/
def Seat (guard : Lock Nat) (i : Nat) : Stage → Prop
  | .receiving | .leaving | .through => i ∉ guard.line
  | .locking _ | .closing => i ∈ guard.queue
  | .writing _ _ => guard.holder = some i

/-- What has become of the chunks of a client, of which `mine` have been written; `stuck` is that
    the pipe takes no more. -/
def Kept (stuck : Bool) (mine : List Bytes) (c : Client) : Prop :=
  match c.stage with
  | .receiving => c.arrived = mine ++ c.inbox
  | .locking chunk => c.arrived = mine ++ chunk :: c.inbox
  | .writing done left => c.arrived = mine ++ (done ++ left) :: c.inbox
  | .leaving | .closing | .through =>
    mine <+: c.arrived ∧ (stuck = false → c.ended = true ∧ c.arrived = mine)

/-- A client, its chunks and its place at the mutex. -/
structure Served (s : St) (i : Nat) (c : Client) : Prop where
  seat : Seat s.guard i c.stage
  kept : Kept (s.broken || !s.slot) (chunksOf i s.log) c
  /-- Nothing is written to a pipe that is broken. -/
  idle : s.broken = true → ∀ done left, c.stage = .writing done left → done = []
  last : c.stage = .closing → c.once = true

/-- The bytes behind the whole chunks. -/
inductive Part (s : St) : Bytes → Prop
  | whole (hbroken : s.broken = false) (hholder : s.guard.holder = none) : Part s []
  | writing {i : Nat} {c : Client} {done left : Bytes} (hbroken : s.broken = false)
      (hi : s.clients[i]? = some c) (hstage : c.stage = .writing done left) : Part s done
  /-- The rest of the chunk was lost with the pipe. -/
  | torn {i : Nat} {c : Client} {chunk part : Bytes} (hbroken : s.broken = true)
      (hi : s.clients[i]? = some c) (hstage : c.stage.isBehind = true)
      (hnext : chunksOf i s.log ++ [chunk] <+: c.arrived) (hpart : part <+: chunk) : Part s part

/-- What every step keeps. -/
structure Fed (cfg : Supervision.Config) (s : St) : Prop where
  host : Supervision.Supervised cfg s.host
  nodup : s.guard.line.Nodup
  known : ∀ i ∈ s.guard.line, i < s.clients.length
  named : ∀ x ∈ s.log, x.1 < s.clients.length
  served : ∀ i c, s.clients[i]? = some c → Served s i c
  bytes : ∃ part, s.written = (s.log.map Prod.snd).flatten ++ part ∧ Part s part
  consumed : s.consumed <+: s.written
  /-- The pipe is closed by a client that has come to its end. -/
  closed : s.slot = false → s.guard.holder = none ∧ ∃ i c, s.clients[i]? = some c ∧
    c.once = true ∧ c.stage = .through ∧
      (s.broken = false → c.ended = true ∧ c.arrived = chunksOf i s.log)
  eof : s.sawEof = true → s.writeEnd = false ∧ s.consumed = s.written

variable {cfg : Supervision.Config} {s s' : St} {i j n : Nat} {c c' d : Client}
  {guard guard' : Lock Nat} {stage : Stage}

/-! ### The mutex -/

theorem Seat.request (h : Seat guard j stage) (hne : j ≠ i) : Seat (guard.request i) j stage := by
  cases stage with
  | receiving | leaving | through =>
    simp only [Seat, line_request, List.mem_append, List.mem_singleton, not_or] at h ⊢
    exact ⟨h, hne⟩
  | locking chunk | closing => exact List.mem_append_left _ h
  | writing done left => exact h

theorem Seat.grant (h : Seat guard j stage) (hgrant : guard.grant = some (i, guard'))
    (hne : j ≠ i) : Seat guard' j stage := by
  obtain ⟨hfree, hqueue, -⟩ := grant_some hgrant
  cases stage with
  | receiving | leaving | through =>
    simp only [Seat] at h ⊢
    rwa [line_grant hgrant]
  | locking chunk | closing =>
    simp only [Seat, hqueue, List.mem_cons] at h
    exact h.resolve_left hne
  | writing done left =>
    simp only [Seat, hfree] at h
    cases h

theorem Seat.release (h : Seat guard j stage) (hholder : guard.holder = some i) (hne : j ≠ i) :
    Seat guard.release j stage := by
  cases stage with
  | receiving | leaving | through =>
    simp only [Seat, line_release hholder, List.mem_cons, not_or] at h
    exact h.2
  | locking chunk | closing => exact h
  | writing done left =>
    simp only [Seat, hholder, Option.some.injEq] at h
    exact absurd h.symm hne

/-- Who is at the mutex already cannot be the one that asks. -/
theorem nodup_request (h : guard.line.Nodup) (hout : i ∉ guard.line) :
    (guard.request i).line.Nodup := by
  rw [line_request]
  exact List.nodup_append.2 ⟨h, List.nodup_singleton i, fun a ha b hb hab => by
    rw [List.mem_singleton.1 hb] at hab
    exact hout (hab ▸ ha)⟩

theorem nodup_release (h : guard.line.Nodup) (hholder : guard.holder = some i) :
    guard.release.line.Nodup ∧ i ∉ guard.release.line ∧
      ∀ j ∈ guard.release.line, j ∈ guard.line := by
  rw [line_release hholder] at h ⊢
  obtain ⟨hout, hnodup⟩ := List.nodup_cons.1 h
  exact ⟨hnodup, hout, fun j hj => List.mem_cons_of_mem _ hj⟩

/-! ### One client moves -/

theorem chunksOf_snoc (i j : Nat) (log : List (Nat × Bytes)) (chunk : Bytes) :
    chunksOf j (log ++ [(i, chunk)]) = chunksOf j log ++ if i = j then [chunk] else [] := by
  rw [chunksOf, List.filterMap_append]
  by_cases hij : i = j <;> simp [chunksOf, hij]

theorem Kept.mono {stuck stuck' : Bool} {mine : List Bytes} (h : Kept stuck mine d)
    (hstuck : stuck = true → stuck' = true) : Kept stuck' mine d := by
  have hstuck' : stuck' = false → stuck = false := by
    cases stuck with
    | false => exact fun _ => rfl
    | true =>
      rw [hstuck rfl]
      exact id
  unfold Kept at h ⊢
  split at h
  · exact h
  · exact h
  · exact h
  all_goals exact ⟨h.1, fun hs => h.2 (hstuck' hs)⟩

/-- A client that has not moved. -/
theorem Served.other (h : Served s j d) (hseat : Seat s'.guard j d.stage)
    (hmine : chunksOf j s'.log = chunksOf j s.log)
    (hstuck : (s.broken || !s.slot) = true → (s'.broken || !s'.slot) = true)
    (hidle : s'.broken = true → s.broken = true ∨ ∀ done left, d.stage ≠ .writing done left) :
    Served s' j d := by
  refine ⟨hseat, ?_, fun hb done left hstage => ?_, h.last⟩
  · rw [hmine]
    exact h.kept.mono hstuck
  · rcases hidle hb with hb | hno
    · exact h.idle hb done left hstage
    · exact absurd hstage (hno done left)

/-- While a task runs, the container has not seen the end, unless the pipe was closed. -/
theorem Fed.live (h : Fed cfg s) (hi : s.clients[i]? = some c) (hstage : c.stage ≠ .through)
    (heof : s.sawEof = true) : s.slot = false := by
  have hend := (h.eof heof).1
  cases hslot : s.slot with
  | false => rfl
  | true =>
    have hany : s.clients.any (fun c => decide (c.stage ≠ .through)) = true :=
      List.any_eq_true.2 ⟨c, List.mem_of_getElem? hi, by simpa using hstage⟩
    rw [St.writeEnd, hslot, hany] at hend
    simp at hend

/-- What is behind the whole chunks stays what it is while the writer and the one that has lost the
    pipe stay where they are. -/
theorem Part.keep {part : Bytes} (h : Part s part) (hi : s.clients[i]? = some c)
    (hclients : s'.clients = s.clients.set i c') (hbroken : s'.broken = s.broken)
    (hlog : s'.log = s.log)
    (hholder : s.broken = false → s.guard.holder = none → s'.guard.holder = none)
    (hstage : ∀ done left, c.stage = .writing done left → c'.stage = .writing done left)
    (hbehind : c.stage.isBehind = true → c'.stage.isBehind = true)
    (harrived : c.arrived <+: c'.arrived) : Part s' part := by
  have hlt := (List.getElem?_eq_some_iff.1 hi).1
  have hself : s'.clients[i]? = some c' := by
    rw [hclients]
    exact List.getElem?_set_self hlt
  have hother : ∀ j d, j ≠ i → s.clients[j]? = some d → s'.clients[j]? = some d := by
    intro j d hne hj
    rw [hclients]
    exact getElem?_set_other hj hne
  cases h with
  | whole hb hfree => exact .whole (hbroken.trans hb) (hholder hb hfree)
  | @writing j d done left hb hj hw =>
    by_cases hij : j = i
    · subst hij
      obtain rfl := Option.some.inj (hi.symm.trans hj)
      exact .writing (hbroken.trans hb) hself (hstage _ _ hw)
    · exact .writing (hbroken.trans hb) (hother j d hij hj) hw
  | @torn j d chunk _ hb hj hs hnext hpart =>
    rw [← hlog] at hnext
    by_cases hij : j = i
    · subst hij
      obtain rfl := Option.some.inj (hi.symm.trans hj)
      exact .torn (hbroken.trans hb) hself (hbehind hs) (hnext.trans harrived) hpart
    · exact .torn (hbroken.trans hb) (hother j d hij hj) hs hnext hpart

/-- One client moves, and perhaps the mutex; nothing is written. -/
theorem Fed.moved (h : Fed cfg s) (hi : s.clients[i]? = some c)
    (hclients : s'.clients = s.clients.set i c') (hhost : s'.host = s.host)
    (hnodup : s'.guard.line.Nodup) (hline : ∀ j ∈ s'.guard.line, j ∈ s.guard.line ∨ j = i)
    (hlog : ∀ x ∈ s'.log, x ∈ s.log ∨ x.1 = i) (hself : Served s' i c')
    (hothers : ∀ j d, j ≠ i → Served s j d → Served s' j d)
    (hbytes : ∃ part, s'.written = (s'.log.map Prod.snd).flatten ++ part ∧ Part s' part)
    (hwritten : s.written <+: s'.written) (hconsumed : s'.consumed = s.consumed)
    (hclosed : s'.slot = false → s'.guard.holder = none ∧ ∃ i c, s'.clients[i]? = some c ∧
      c.once = true ∧ c.stage = .through ∧
        (s'.broken = false → c.ended = true ∧ c.arrived = chunksOf i s'.log))
    (hsaw : s'.sawEof = s.sawEof)
    (heof : s.sawEof = true → s'.writeEnd = false ∧ s'.written = s.written) : Fed cfg s' := by
  have hlt := (List.getElem?_eq_some_iff.1 hi).1
  refine ⟨hhost ▸ h.host, hnodup, fun j hj => ?_, fun x hx => ?_, fun j d hj => ?_, hbytes, ?_,
    hclosed, fun hs => ?_⟩
  · rw [hclients, List.length_set]
    rcases hline j hj with hj | rfl
    · exact h.known j hj
    · exact hlt
  · rw [hclients, List.length_set]
    rcases hlog x hx with hx | hx
    · exact h.named x hx
    · rw [hx]
      exact hlt
  · rw [hclients] at hj
    rcases getElem?_set_cases hj with ⟨rfl, rfl⟩ | ⟨hne, hj⟩
    · exact hself
    · exact hothers j d hne (h.served j d hj)
  · rw [hconsumed]
    exact h.consumed.trans hwritten
  · rw [hsaw] at hs
    obtain ⟨hend, hsame⟩ := heof hs
    exact ⟨hend, by rw [hconsumed, hsame]; exact (h.eof hs).2⟩

/-- The client that has closed the pipe is still there. -/
theorem Fed.stillClosed (h : Fed cfg s) (hi : s.clients[i]? = some c)
    (hclients : s'.clients = s.clients.set i c') (hslot : s.slot = false)
    (hover : c.stage = .through → c'.stage = .through ∧ c'.once = c.once ∧
      (c.ended = true → c'.ended = true ∧ c'.arrived = c.arrived))
    (hlog : ∀ j, j ≠ i ∨ c.stage = .through → chunksOf j s'.log = chunksOf j s.log)
    (hbroken : s'.broken = false → s.broken = false) :
    ∃ i c, s'.clients[i]? = some c ∧ c.once = true ∧ c.stage = .through ∧
      (s'.broken = false → c.ended = true ∧ c.arrived = chunksOf i s'.log) := by
  obtain ⟨-, j, d, hj, honce, hstage, hall⟩ := h.closed hslot
  by_cases hij : j = i
  · subst hij
    obtain rfl := Option.some.inj (hi.symm.trans hj)
    obtain ⟨hstage', honce', hsame⟩ := hover hstage
    refine ⟨j, c', ?_, honce'.trans honce, hstage', fun hb => ?_⟩
    · rw [hclients]
      exact List.getElem?_set_self (List.getElem?_eq_some_iff.1 hi).1
    · obtain ⟨hended, harrived⟩ := hall (hbroken hb)
      obtain ⟨hended', harrived'⟩ := hsame hended
      exact ⟨hended', by rw [harrived', harrived, hlog j (.inr hstage)]⟩
  · refine ⟨j, d, ?_, honce, hstage, fun hb => ?_⟩
    · rw [hclients]
      exact getElem?_set_other hj hij
    · rw [hlog j (.inl hij)]
      exact hall (hbroken hb)

theorem fed_start (cfg : Supervision.Config) : Fed cfg (.start cfg) := by
  refine ⟨Supervision.supervised_start cfg, List.nodup_nil, ?_, ?_, ?_, ⟨[], rfl, .whole rfl rfl⟩,
    List.prefix_refl _, ?_, ?_⟩
  · intro i hi
    cases hi
  · intro x hx
    cases hx
  · intro i c hi
    simp [St.start] at hi
  · intro hslot
    cases hslot
  · intro hs
    cases hs

/-- Something arrives on a stream, or the stream ends. -/
theorem Fed.arrives (h : Fed cfg s) (hi : s.clients[i]? = some c) {more : List Bytes}
    (hstage : c'.stage = c.stage) (honce : c'.once = c.once)
    (harrived : c'.arrived = c.arrived ++ more) (hinbox : c'.inbox = c.inbox ++ more)
    (hopen : more ≠ [] → c.ended = false) (hended : c.ended = true → c'.ended = true) :
    Fed cfg (s.setClient i c') := by
  have hnone : c.ended = true → more = [] := by
    intro he
    by_contra hne
    rw [hopen hne] at he
    cases he
  have hkept : Kept (s.broken || !s.slot) (chunksOf i s.log) c' := by
    have hkept := (h.served i c hi).kept
    unfold Kept at hkept ⊢
    rw [hstage, harrived, hinbox]
    split at hkept
    · rw [hkept, List.append_assoc]
    · rw [hkept, List.append_assoc, List.cons_append]
    · rw [hkept, List.append_assoc, List.cons_append]
    all_goals
      refine ⟨hkept.1.trans (List.prefix_append _ _), fun hs => ?_⟩
      obtain ⟨he, ha⟩ := hkept.2 hs
      exact ⟨hended he, by rw [hnone he, List.append_nil, ha]⟩
  have hlive : (s.setClient i c').writeEnd = s.writeEnd := by
    unfold St.writeEnd St.setClient
    congr 2
    rw [Bool.eq_iff_iff, List.any_eq_true, List.any_eq_true]
    constructor
    · rintro ⟨x, hx, hlive⟩
      rcases mem_set_cases hx with rfl | ⟨u, -, hu⟩
      · exact ⟨c, List.mem_of_getElem? hi, hstage ▸ hlive⟩
      · exact ⟨x, List.mem_of_getElem? hu, hlive⟩
    · rintro ⟨x, hx, hlive⟩
      obtain ⟨u, hu⟩ := List.getElem?_of_mem hx
      by_cases hui : u = i
      · subst hui
        obtain rfl := Option.some.inj (hi.symm.trans hu)
        have hmem := List.mem_set (List.getElem?_eq_some_iff.1 hi).1 c'
        exact ⟨c', hmem, hstage.symm ▸ hlive⟩
      · exact ⟨x, mem_set_other hu hui, hlive⟩
  refine h.moved hi rfl rfl h.nodup (fun j hj => .inl hj) (fun x hx => .inl hx) ?_ ?_ ?_
    (List.prefix_refl _) rfl ?_ rfl ?_
  · refine ⟨?_, hkept, ?_, ?_⟩ <;> rw [hstage]
    · exact (h.served i c hi).seat
    · exact (h.served i c hi).idle
    · rw [honce]
      exact (h.served i c hi).last
  · exact fun j d _ hd => hd.other hd.seat rfl id .inl
  · obtain ⟨part, hwritten, hpart⟩ := h.bytes
    exact ⟨part, hwritten, hpart.keep hi rfl rfl rfl (fun _ => id) (fun _ _ => hstage.trans)
      (fun hb => hstage.symm ▸ hb) (harrived ▸ List.prefix_append _ _)⟩
  · intro hslot
    refine ⟨(h.closed hslot).1, h.stillClosed hi rfl hslot
      (fun hover => ⟨hstage.trans hover, honce, fun he => ⟨hended he, ?_⟩⟩) (fun _ _ => rfl) id⟩
    rw [harrived, hnone he, List.append_nil]
  · exact fun hs => ⟨hlive.trans (h.eof hs).1, rfl⟩

/-- A task that runs and writes nothing moves on. -/
theorem Fed.goes (h : Fed cfg s) (hi : s.clients[i]? = some c) (hlive : c.stage ≠ .through)
    (hclients : s'.clients = s.clients.set i c') (hhost : s'.host = s.host)
    (hslot : s'.slot = s.slot) (hwritten : s'.written = s.written) (hlog : s'.log = s.log)
    (hbroken : s'.broken = s.broken) (hconsumed : s'.consumed = s.consumed)
    (hsaw : s'.sawEof = s.sawEof) (hnodup : s'.guard.line.Nodup)
    (hline : ∀ j ∈ s'.guard.line, j ∈ s.guard.line ∨ j = i)
    (hfree : s.guard.holder = none → s'.guard.holder = none)
    (hstage : ∀ done left, c.stage = .writing done left → c'.stage = .writing done left)
    (hbehind : c.stage.isBehind = true → c'.stage.isBehind = true)
    (harrived : c.arrived <+: c'.arrived) (hself : Served s' i c')
    (hseat : ∀ j d, j ≠ i → Seat s.guard j d → Seat s'.guard j d) : Fed cfg s' := by
  refine h.moved hi hclients hhost hnodup hline (fun x hx => .inl (hlog ▸ hx)) hself ?_ ?_
    (hwritten ▸ List.prefix_refl _) hconsumed ?_ hsaw ?_
  · exact fun j d hne hd => hd.other (hseat j _ hne hd.seat) (by rw [hlog])
      (by rw [hbroken, hslot]; exact id) (by rw [hbroken]; exact .inl)
  · obtain ⟨part, hw, hpart⟩ := h.bytes
    refine ⟨part, by rw [hwritten, hlog, hw], ?_⟩
    exact hpart.keep hi hclients hbroken hlog (fun _ => hfree) hstage hbehind harrived
  · intro hs
    rw [hslot] at hs
    refine ⟨hfree (h.closed hs).1, h.stillClosed hi hclients hs (fun hover => absurd hover hlive) ?_
      (by rw [hbroken]; exact id)⟩
    intro j _
    rw [hlog]
  · intro hs
    refine ⟨?_, hwritten⟩
    rw [St.writeEnd, hslot, h.live hi hlive hs]
    rfl

theorem Fed.recv (h : Fed cfg s) (hstep : step cfg s (.recv i) = some s') : Fed cfg s' := by
  simp only [step] at hstep
  split at hstep
  · cases hstep
  rename_i c hi
  have hserved := h.served i c hi
  have hseat := hserved.seat
  have hkept := hserved.kept
  split at hstep
  · rename_i chunk inbox hstage hinbox
    cases hstep
    rw [hstage] at hseat
    simp only [Kept, hstage] at hkept
    refine h.goes hi (by rw [hstage]; nofun) rfl rfl rfl rfl rfl rfl rfl rfl
      (nodup_request h.nodup hseat) (fun j hj => ?_) id (by rw [hstage]; nofun)
      (by rw [hstage]; nofun) (List.prefix_refl _) ⟨?_, ?_, nofun, nofun⟩
      (fun j d hne hd => hd.request hne)
    · rw [line_request, List.mem_append, List.mem_singleton] at hj
      exact hj
    · exact List.mem_append_right _ (List.mem_singleton_self i)
    · simp only [Kept]
      rw [hkept, hinbox]
      rfl
  · rename_i hstage hinbox
    split_ifs at hstep with hended
    cases hstep
    rw [hstage] at hseat
    simp only [Kept, hstage] at hkept
    rw [hinbox, List.append_nil] at hkept
    exact h.goes hi (by rw [hstage]; nofun) rfl rfl rfl rfl rfl rfl rfl rfl h.nodup
      (fun j hj => .inl hj) id (by rw [hstage]; nofun) (by rw [hstage]; nofun) (List.prefix_refl _)
      ⟨hseat, ⟨hkept ▸ List.prefix_refl _, fun _ => ⟨hended, hkept⟩⟩, nofun, nofun⟩
      (fun _ _ _ hd => hd)
  · cases hstep

theorem Fed.leave (h : Fed cfg s) (hstep : step cfg s (.leave i) = some s') : Fed cfg s' := by
  simp only [step] at hstep
  split at hstep
  · cases hstep
  rename_i c hi
  have hserved := h.served i c hi
  have hseat := hserved.seat
  have hkept := hserved.kept
  split at hstep
  · rename_i hstage
    rw [hstage] at hseat
    simp only [Kept, hstage] at hkept
    split_ifs at hstep with honce
    · cases hstep
      refine h.goes hi (by rw [hstage]; nofun) rfl rfl rfl rfl rfl rfl rfl rfl
        (nodup_request h.nodup hseat) (fun j hj => ?_) id (by rw [hstage]; nofun)
        (fun _ => rfl) (List.prefix_refl _) ⟨?_, hkept, nofun, fun _ => honce⟩
        (fun j d hne hd => hd.request hne)
      · rw [line_request, List.mem_append, List.mem_singleton] at hj
        exact hj
      · exact List.mem_append_right _ (List.mem_singleton_self i)
    · cases hstep
      exact h.goes hi (by rw [hstage]; nofun) rfl rfl rfl rfl rfl rfl rfl rfl h.nodup
        (fun j hj => .inl hj) id (by rw [hstage]; nofun) (fun _ => rfl) (List.prefix_refl _)
        ⟨hseat, hkept, nofun, nofun⟩ (fun _ _ _ hd => hd)
  · cases hstep

/-- There is nothing behind the whole chunks while nobody writes. -/
theorem Fed.nothing (h : Fed cfg s) (hb : s.broken = false) (hfree : s.guard.holder = none)
    {part : Bytes} (hpart : Part s part) : part = [] := by
  cases hpart with
  | whole _ _ => rfl
  | @writing j d done left _ hj hw =>
    have hseat := (h.served j d hj).seat
    rw [hw, Seat, hfree] at hseat
    cases hseat
  | torn hb' _ _ _ _ =>
    rw [hb] at hb'
    cases hb'

/-- The mutex is granted. -/
theorem Fed.granted (h : Fed cfg s) (hgrant : s.guard.grant = some (i, guard')) :
    guard'.line.Nodup ∧ guard'.holder = some i ∧ s.guard.holder = none ∧
      ∀ j ∈ guard'.line, j ∈ s.guard.line := by
  obtain ⟨hfree, -, hholder⟩ := grant_some hgrant
  refine ⟨?_, hholder, hfree, fun j hj => ?_⟩
  · rw [line_grant hgrant]
    exact h.nodup
  · rwa [line_grant hgrant] at hj

theorem Fed.lock (h : Fed cfg s) (hstep : step cfg s .lock = some s') : Fed cfg s' := by
  simp only [step] at hstep
  split at hstep
  · cases hstep
  rename_i i guard hgrant
  obtain ⟨hnodup, hholder, hfree, hline⟩ := h.granted hgrant
  obtain ⟨hnodup', hout, hline'⟩ := nodup_release hnodup hholder
  split at hstep
  · cases hstep
  rename_i c hi
  have hserved := h.served i c hi
  have hkept := hserved.kept
  split at hstep
  · rename_i chunk hstage
    simp only [Kept, hstage] at hkept
    split_ifs at hstep with hslot
    · cases hstep
      have hlt := (List.getElem?_eq_some_iff.1 hi).1
      refine h.moved hi rfl rfl hnodup (fun j hj => .inl (hline j hj)) (fun x hx => .inl hx)
        ⟨hholder, hkept, ?_, nofun⟩ ?_ ?_ (List.prefix_refl _) rfl (fun hs => ?_) rfl (fun hs => ?_)
      · rintro - done left hw
        cases hw
        rfl
      · exact fun j d hne hd => hd.other (hd.seat.grant hgrant hne) rfl id .inl
      · obtain ⟨part, hwritten, hpart⟩ := h.bytes
        cases hb : s.broken with
        | false =>
          obtain rfl := h.nothing hb hfree hpart
          exact ⟨[], hwritten, .writing hb (List.getElem?_set_self hlt) rfl⟩
        | true =>
          refine ⟨part, hwritten, hpart.keep hi rfl rfl rfl (fun hb' => ?_)
            (by rw [hstage]; nofun) (by rw [hstage]; nofun) (List.prefix_refl _)⟩
          rw [hb] at hb'
          cases hb'
      · exact absurd (hslot.symm.trans hs) (by decide)
      · have hgone := h.live hi (by rw [hstage]; nofun) hs
        exact absurd (hslot.symm.trans hgone) (by decide)
    · cases hstep
      have hgone : (s.broken || !s.slot) = true := by simp [hslot]
      refine h.goes hi (by rw [hstage]; nofun) rfl rfl rfl rfl rfl rfl rfl rfl hnodup'
        (fun j hj => .inl (hline j (hline' j hj))) (fun _ => rfl) (by rw [hstage]; nofun)
        (by rw [hstage]; nofun) (List.prefix_refl _) ⟨hout, ⟨?_, fun hs => ?_⟩, nofun, nofun⟩
        (fun j d hne hd => (hd.grant hgrant hne).release hholder hne)
      · rw [hkept]
        exact List.prefix_append _ _
      · have hs' : (s.broken || !s.slot) = false := hs
        rw [hgone] at hs'
        cases hs'
  · rename_i hstage
    simp only [Kept, hstage] at hkept
    cases hstep
    have hlt := (List.getElem?_eq_some_iff.1 hi).1
    refine h.moved hi rfl rfl hnodup' (fun j hj => .inl (hline j (hline' j hj)))
      (fun x hx => .inl hx) ⟨hout, ⟨hkept.1, fun hs => ?_⟩, nofun, nofun⟩ ?_ ?_
      (List.prefix_refl _) rfl (fun _ => ⟨rfl, ?_⟩) rfl (fun _ => ⟨rfl, rfl⟩)
    · simp [St.setClient] at hs
    · exact fun j d hne hd => hd.other ((hd.seat.grant hgrant hne).release hholder hne) rfl
        (fun _ => by simp [St.setClient]) .inl
    · obtain ⟨part, hwritten, hpart⟩ := h.bytes
      exact ⟨part, hwritten, hpart.keep hi rfl rfl rfl (fun _ _ => rfl) (by rw [hstage]; nofun)
        (fun _ => rfl) (List.prefix_refl _)⟩
    · cases hslot : s.slot with
      | false =>
        exact h.stillClosed hi rfl hslot (fun hover => absurd (hstage.symm.trans hover) nofun)
          (fun _ _ => rfl) id
      | true =>
        refine ⟨i, _, List.getElem?_set_self hlt, hserved.last hstage, rfl, fun hb => ?_⟩
        have hb' : s.broken = false := hb
        exact hkept.2 (by rw [hslot, hb']; rfl)
  · cases hstep

/-- The holder writes. -/
theorem holding_some {f : Nat → Client → Option St} (hstep : s.holding f = some s') :
    ∃ i c, s.guard.holder = some i ∧ s.clients[i]? = some c ∧ f i c = some s' := by
  unfold St.holding at hstep
  split at hstep
  · cases hstep
  · rename_i i hholder
    split at hstep
    · cases hstep
    · rename_i c hi
      exact ⟨i, c, hholder, hi, hstep⟩

/-- While somebody writes, the pipe is not closed. -/
theorem Fed.opened (h : Fed cfg s) (hholder : s.guard.holder = some i) : s.slot = true := by
  cases hslot : s.slot with
  | true => rfl
  | false =>
    rw [(h.closed hslot).1] at hholder
    cases hholder

/-- Behind the whole chunks is what the holder has written. -/
theorem Fed.written (h : Fed cfg s) (hb : s.broken = false) (hholder : s.guard.holder = some i)
    (hi : s.clients[i]? = some c) {done left part : Bytes} (hstage : c.stage = .writing done left)
    (hpart : Part s part) : part = done := by
  cases hpart with
  | whole _ hfree =>
    rw [hholder] at hfree
    cases hfree
  | @writing j d done' left' _ hj hw =>
    have hseat := (h.served j d hj).seat
    rw [hw, Seat, hholder, Option.some.injEq] at hseat
    subst hseat
    obtain rfl := Option.some.inj (hi.symm.trans hj)
    rw [hstage] at hw
    cases hw
    rfl
  | torn hb' _ _ _ _ =>
    rw [hb] at hb'
    cases hb'

theorem Fed.wrote (h : Fed cfg s) (hstep : step cfg s (.wrote n) = some s') : Fed cfg s' := by
  obtain ⟨i, c, hholder, hi, hstep⟩ := holding_some hstep
  have hlt := (List.getElem?_eq_some_iff.1 hi).1
  have hserved := h.served i c hi
  have hkept := hserved.kept
  have hopen := h.opened hholder
  split at hstep
  · rename_i done left hstage
    split_ifs at hstep with hgo
    cases hstep
    simp only [Kept, hstage] at hkept
    refine h.moved hi rfl rfl h.nodup (fun j hj => .inl hj) (fun x hx => .inl hx)
      ⟨hholder, ?_, ?_, nofun⟩ ?_ ?_ (List.prefix_append _ _) rfl (fun hs => ?_) rfl (fun hs => ?_)
    · simp only [Kept]
      rw [hkept, List.append_assoc, List.take_append_drop]
      rfl
    · intro hb
      rw [St.setClient, hgo.1] at hb
      cases hb
    · exact fun j d hne hd => hd.other hd.seat rfl id .inl
    · obtain ⟨part, hwritten, hpart⟩ := h.bytes
      obtain rfl := h.written hgo.1 hholder hi hstage hpart
      refine ⟨part ++ left.take n, ?_, .writing hgo.1 (List.getElem?_set_self hlt) rfl⟩
      rw [hwritten, List.append_assoc]
      rfl
    · exact absurd (hopen.symm.trans hs) (by decide)
    · exact absurd (hopen.symm.trans (h.live hi (by rw [hstage]; nofun) hs)) (by decide)
  · cases hstep

theorem Fed.flushed (h : Fed cfg s) (hstep : step cfg s .flushed = some s') : Fed cfg s' := by
  obtain ⟨i, c, hholder, hi, hstep⟩ := holding_some hstep
  obtain ⟨hnodup', hout, hline'⟩ := nodup_release h.nodup hholder
  have hserved := h.served i c hi
  have hkept := hserved.kept
  have hopen := h.opened hholder
  split at hstep
  · rename_i chunk hstage
    cases hstep
    simp only [Kept, hstage, List.append_nil] at hkept
    have hother : ∀ j, j ≠ i → chunksOf j (s.log ++ [(i, chunk)]) = chunksOf j s.log := by
      intro j hne
      rw [chunksOf_snoc, if_neg (Ne.symm hne), List.append_nil]
    refine h.moved hi rfl rfl hnodup' (fun j hj => .inl (hline' j hj)) (fun x hx => ?_)
      ⟨hout, ?_, nofun, nofun⟩
      (fun j d hne hd => hd.other (hd.seat.release hholder hne) (hother j hne) id .inl) ?_
      (List.prefix_refl _) rfl (fun hs => ?_) rfl (fun hs => ?_)
    · rcases List.mem_append.1 hx with hx | hx
      · exact .inl hx
      · rw [List.mem_singleton.1 hx]
        exact .inr rfl
    · simp only [Kept]
      rw [hkept, chunksOf_snoc, if_pos rfl, List.append_assoc]
      rfl
    · obtain ⟨part, hwritten, hpart⟩ := h.bytes
      have hflat : ((s.log ++ [(i, chunk)]).map Prod.snd).flatten =
          (s.log.map Prod.snd).flatten ++ chunk := by simp
      cases hb : s.broken with
      | false =>
        obtain rfl := h.written hb hholder hi hstage hpart
        refine ⟨[], ?_, .whole hb rfl⟩
        rw [List.append_nil]
        exact hwritten.trans hflat.symm
      | true =>
        obtain rfl := hserved.idle hb _ _ hstage
        refine ⟨part, ?_, ?_⟩
        · rw [List.append_nil] at hflat
          exact hwritten.trans (by rw [← hflat])
        · cases hpart with
          | whole hb' _ | writing hb' _ _ =>
            rw [hb] at hb'
            cases hb'
          | @torn j d chunk' _ _ hj hs hnext hpart =>
            have hne : j ≠ i := by
              rintro rfl
              obtain rfl := Option.some.inj (hi.symm.trans hj)
              rw [hstage] at hs
              cases hs
            refine .torn hb (getElem?_set_other hj hne) hs ?_ hpart
            rwa [← hother j hne] at hnext
    · exact absurd (hopen.symm.trans hs) (by decide)
    · exact absurd (hopen.symm.trans (h.live hi (by rw [hstage]; nofun) hs)) (by decide)
  · cases hstep

theorem Fed.failed (h : Fed cfg s) (hstep : step cfg s .failed = some s') : Fed cfg s' := by
  obtain ⟨i, c, hholder, hi, hstep⟩ := holding_some hstep
  obtain ⟨hnodup', hout, hline'⟩ := nodup_release h.nodup hholder
  have hlt := (List.getElem?_eq_some_iff.1 hi).1
  have hserved := h.served i c hi
  have hkept := hserved.kept
  have hopen := h.opened hholder
  split at hstep
  · rename_i done b left hstage
    cases hstep
    simp only [Kept, hstage] at hkept
    refine h.moved hi rfl rfl hnodup' (fun j hj => .inl (hline' j hj)) (fun x hx => .inl hx)
      ⟨hout, ⟨?_, fun hs => ?_⟩, nofun, nofun⟩
      (fun j d hne hd => hd.other (hd.seat.release hholder hne) rfl (fun _ => rfl) fun _ => .inr ?_)
      ?_ (List.prefix_refl _) rfl (fun hs => ?_) rfl (fun hs => ?_)
    · rw [hkept]
      exact List.prefix_append _ _
    · cases hs
    · -- nobody else holds the mutex
      intro done' left' hw
      have hseat := hd.seat
      rw [hw, Seat, hholder, Option.some.injEq] at hseat
      exact hne hseat.symm
    · obtain ⟨part, hwritten, hpart⟩ := h.bytes
      refine ⟨part, hwritten, ?_⟩
      cases hb : s.broken with
      | false =>
        obtain rfl := h.written hb hholder hi hstage hpart
        refine .torn rfl (List.getElem?_set_self hlt) rfl ?_ (List.prefix_append part (b :: left))
        refine ⟨c.inbox, ?_⟩
        rw [List.append_assoc]
        exact hkept.symm
      | true =>
        cases hpart with
        | whole hb' _ | writing hb' _ _ =>
          rw [hb] at hb'
          cases hb'
        | @torn j d chunk' _ _ hj hs hnext hpart =>
          have hne : j ≠ i := by
            rintro rfl
            obtain rfl := Option.some.inj (hi.symm.trans hj)
            rw [hstage] at hs
            cases hs
          exact .torn rfl (getElem?_set_other hj hne) hs hnext hpart
    · exact absurd (hopen.symm.trans hs) (by decide)
    · exact absurd (hopen.symm.trans (h.live hi (by rw [hstage]; nofun) hs)) (by decide)
  · cases hstep

/-! ## Every run -/

/-- The container has moved, or has read. -/
theorem Fed.same (h : Fed cfg s) (hhost : Supervision.Supervised cfg s'.host)
    (hclients : s'.clients = s.clients) (hguard : s'.guard = s.guard) (hslot : s'.slot = s.slot)
    (hwritten : s'.written = s.written) (hbroken : s'.broken = s.broken) (hlog : s'.log = s.log)
    (hconsumed : s'.consumed <+: s'.written)
    (heof : s'.sawEof = true → s'.writeEnd = false ∧ s'.consumed = s'.written) : Fed cfg s' := by
  refine ⟨hhost, hguard ▸ h.nodup, ?_, ?_, fun i c hi => ?_, ?_, hconsumed, ?_, heof⟩
  · rw [hguard, hclients]
    exact h.known
  · rw [hlog, hclients]
    exact h.named
  · rw [hclients] at hi
    obtain ⟨hseat, hkept, hidle, hlast⟩ := h.served i c hi
    refine ⟨hguard ▸ hseat, ?_, hbroken ▸ hidle, hlast⟩
    rw [hbroken, hslot, hlog]
    exact hkept
  · obtain ⟨part, hw, hpart⟩ := h.bytes
    refine ⟨part, by rw [hwritten, hlog, hw], ?_⟩
    cases hpart with
    | whole hb hfree => exact .whole (hbroken.trans hb) (hguard ▸ hfree)
    | writing hb hi hw => exact .writing (hbroken.trans hb) (hclients ▸ hi) hw
    | torn hb hi hbehind hnext hpart =>
      exact .torn (hbroken.trans hb) (hclients ▸ hi) hbehind (hlog ▸ hnext) hpart
  · rw [hslot, hguard, hclients, hbroken, hlog]
    exact h.closed

/-- The container moves on. -/
theorem Fed.hosted (h : Fed cfg s) {l : Supervision.Label} {host' : Supervision.St}
    (hstep : Supervision.step cfg s.host l = some host') : Fed cfg { s with host := host' } := by
  refine h.same (Supervision.supervised_step h.host hstep) rfl rfl rfl rfl rfl rfl h.consumed
    fun hs => ?_
  obtain ⟨hend, hsame⟩ := h.eof hs
  refine ⟨?_, hsame⟩
  unfold St.writeEnd at hend ⊢
  simp only [Bool.and_eq_false_iff, Bool.or_eq_false_iff, decide_eq_false_iff_not,
    not_not] at hend ⊢
  exact hend.imp_right fun hgone => ⟨Supervision.finished_step hgone.1 hstep, hgone.2⟩

theorem Fed.attach (h : Fed cfg s) {once : Bool} (hstdins : s.host.stdins = true) :
    Fed cfg { s with clients := s.clients ++ [.new once] } := by
  have hpart : ∀ part, Part s part → Part { s with clients := s.clients ++ [.new once] } part := by
    intro part hpart
    cases hpart with
    | whole hb hfree => exact .whole hb hfree
    | writing hb hi hw => exact .writing hb (getElem?_push_other hi) hw
    | torn hb hi hbehind hnext hpart =>
      exact .torn hb (getElem?_push_other hi) hbehind hnext hpart
  refine ⟨h.host, h.nodup, fun i hi => ?_, fun x hx => ?_, fun i c hi => ?_, ?_, h.consumed,
    fun hs => ?_, fun hs => ?_⟩
  · have hlt := h.known i hi
    simp only [List.length_append]
    omega
  · have hlt := h.named x hx
    simp only [List.length_append]
    omega
  · rcases getElem?_push_cases hi with ⟨rfl, rfl⟩ | hi
    · refine ⟨fun hmem => lt_irrefl _ (h.known _ hmem), ?_, nofun, nofun⟩
      have hnone : chunksOf s.clients.length s.log = [] := by
        rw [chunksOf, List.filterMap_eq_nil_iff]
        intro x hx
        rw [if_neg (h.named x hx).ne]
      simp only [Kept, Client.new]
      rw [hnone]
      rfl
    · have hserved := h.served i c hi
      exact ⟨hserved.seat, hserved.kept, hserved.idle, hserved.last⟩
  · obtain ⟨part, hwritten, hp⟩ := h.bytes
    exact ⟨part, hwritten, hpart part hp⟩
  · obtain ⟨hfree, i, c, hi, hclosed⟩ := h.closed hs
    exact ⟨hfree, i, c, getElem?_push_other hi, hclosed⟩
  · obtain ⟨hend, hsame⟩ := h.eof hs
    refine ⟨?_, hsame⟩
    unfold St.writeEnd at hend ⊢
    rw [Bool.and_eq_false_iff] at hend
    rcases hend with hslot | hgone
    · rw [hslot]
      rfl
    · -- the container is not in the registry any more
      have hphase : s.host.phase = .finished := by
        simp only [Bool.or_eq_false_iff, decide_eq_false_iff_not, not_not] at hgone
        exact hgone.1
      have hreg := h.host.registered.stdins
      rw [hstdins, hphase] at hreg
      simp [Supervision.Phase.number] at hreg

/-- **Every step keeps the input in order.** -/
theorem fed_step {l : Label} (h : Fed cfg s) (hstep : step cfg s l = some s') : Fed cfg s' := by
  cases l with
  | host l =>
    obtain ⟨host', hhost, rfl⟩ := Option.map_eq_some_iff.1 hstep
    exact h.hosted hhost
  | attach once =>
    simp only [step] at hstep
    split_ifs at hstep with hstdins
    cases hstep
    exact h.attach hstdins
  | arrive i chunk =>
    simp only [step] at hstep
    split at hstep
    · cases hstep
    rename_i c hi
    split_ifs at hstep with hended
    cases hstep
    exact h.arrives hi rfl rfl rfl rfl (fun _ => by simpa using hended) id
  | close i =>
    simp only [step] at hstep
    split at hstep
    · cases hstep
    rename_i c hi
    cases hstep
    exact h.arrives hi rfl rfl (List.append_nil _).symm (List.append_nil _).symm
      (fun hne => absurd rfl hne) (fun _ => rfl)
  | recv i => exact h.recv hstep
  | lock => exact h.lock hstep
  | wrote n => exact h.wrote hstep
  | flushed => exact h.flushed hstep
  | failed => exact h.failed hstep
  | leave i => exact h.leave hstep
  | read n =>
    simp only [step] at hstep
    split_ifs at hstep with hgo
    cases hstep
    refine h.same h.host rfl rfl rfl rfl rfl rfl (List.take_prefix _ _) fun hs => ?_
    -- there is nothing left to read at the end
    have hsame := congrArg List.length (h.eof hs).2
    omega
  | readEof =>
    simp only [step] at hstep
    split_ifs at hstep with hgo
    cases hstep
    exact h.same h.host rfl rfl rfl rfl rfl rfl h.consumed fun _ =>
      ⟨hgo.2.2, h.consumed.eq_of_length hgo.2.1⟩

theorem fed_run {ls : List Label} (hrun : run (step cfg) (.start cfg) ls = some s) : Fed cfg s :=
  run_keeps (fun _ _ _ h hstep => fed_step h hstep) (fed_start cfg) hrun

/-- What the container reads. -/
structure Input (s : St) : Prop where
  /-- Whole chunks, one after another, in the order in which the clients had the mutex, and behind
      them at most a part of the next chunk of one client. -/
  inOrder : ∃ part, s.written = (s.log.map Prod.snd).flatten ++ part ∧ s.consumed <+: s.written ∧
    (part ≠ [] → ∃ i c chunk, s.clients[i]? = some c ∧ part <+: chunk ∧
      chunksOf i s.log ++ [chunk] <+: c.arrived)
  /-- The chunks of a client are a part of what it has sent, in that order. -/
  own : ∀ i c, s.clients[i]? = some c → chunksOf i s.log <+: c.arrived
  /-- While the pipe is open and not broken, nothing is lost: what is not written is still in the
      inbox of the client, but for the chunk that its task holds. -/
  lossless : s.broken = false → s.slot = true → ∀ i c, s.clients[i]? = some c →
    ∃ held : List Bytes, held.length ≤ 1 ∧ c.arrived = chunksOf i s.log ++ held ++
      (if c.stage.isBehind then [] else c.inbox)
  /-- The container has read the end only if it has read all that was written, and if its
      supervisor is through or a client of `stdin_once` has closed the pipe, all of whose input has
      been written. -/
  eof : s.sawEof = true → s.consumed = s.written ∧
    ((∃ code, s.host.recorded = some code) ∨
      ∃ i c, s.clients[i]? = some c ∧ c.once = true ∧ c.stage = .through ∧
        (s.broken = false → c.ended = true ∧ chunksOf i s.log = c.arrived))

/-- **The input of a container**, in every interleaving of the container with its supervisor and any
    number of clients. -/
theorem stdin_in_order (cfg : Supervision.Config) (ls : List Label) (s : St)
    (hrun : run (step cfg) (.start cfg) ls = some s) : Input s := by
  have h := fed_run hrun
  refine ⟨?_, fun i c hi => ?_, fun hb hslot i c hi => ?_, fun hs => ?_⟩
  · obtain ⟨part, hwritten, hpart⟩ := h.bytes
    refine ⟨part, hwritten, h.consumed, fun hne => ?_⟩
    cases hpart with
    | whole _ _ => exact absurd rfl hne
    | @writing i c _ left _ hi hw =>
      have hkept := (h.served i c hi).kept
      simp only [Kept, hw] at hkept
      refine ⟨i, c, part ++ left, hi, List.prefix_append _ _, c.inbox, ?_⟩
      rw [hkept, List.append_assoc]
      rfl
    | torn _ hi _ hnext hpart => exact ⟨_, _, _, hi, hpart, hnext⟩
  · have hkept := (h.served i c hi).kept
    unfold Kept at hkept
    split at hkept
    · exact ⟨_, hkept.symm⟩
    · exact ⟨_, hkept.symm⟩
    · exact ⟨_, hkept.symm⟩
    all_goals exact hkept.1
  · have hkept := (h.served i c hi).kept
    rw [hb, hslot] at hkept
    cases hstage : c.stage with
    | receiving =>
      simp only [Kept, hstage] at hkept
      exact ⟨[], by simp, by simpa [Stage.isBehind] using hkept⟩
    | locking chunk =>
      simp only [Kept, hstage] at hkept
      exact ⟨[chunk], by simp, by simpa [Stage.isBehind] using hkept⟩
    | writing taken left =>
      simp only [Kept, hstage] at hkept
      exact ⟨[taken ++ left], by simp, by simpa [Stage.isBehind] using hkept⟩
    | leaving | closing | through =>
      simp only [Kept, hstage] at hkept
      exact ⟨[], by simp, by simpa [Stage.isBehind] using (hkept.2 rfl).2⟩
  · obtain ⟨hend, hsame⟩ := h.eof hs
    refine ⟨hsame, ?_⟩
    cases hslot : s.slot with
    | false =>
      obtain ⟨-, i, c, hi, honce, hover, hall⟩ := h.closed hslot
      exact .inr ⟨i, c, hi, honce, hover, fun hb => ⟨(hall hb).1, (hall hb).2.symm⟩⟩
    | true =>
      have hphase : s.host.phase = .finished := by
        rw [St.writeEnd, hslot] at hend
        simp only [Bool.true_and, Bool.or_eq_false_iff, decide_eq_false_iff_not, not_not] at hend
        exact hend.1
      refine .inl (Option.isSome_iff_exists.1 ?_)
      rw [h.host.registered.recorded, hphase]
      rfl

/-- Two clients of a container with `stdin_once`: the second has to wait, and closes the pipe. -/
def twoClients : List Label :=
  [.host (.spawn true), .host .registerLog, .host .registerStdin, .attach true, .attach true,
    .arrive 0 [97, 98], .arrive 1 [99], .recv 0, .lock, .wrote 1, .recv 1, .wrote 1, .flushed,
    .lock, .close 1, .wrote 1, .flushed, .recv 1, .leave 1, .lock, .read 3, .arrive 0 [100],
    .recv 0, .lock, .leave 0]

/-- The container has read both chunks; the input that came later is lost. -/
theorem twoClients_input : ∃ s,
    run (step ⟨false, true⟩) (.start ⟨false, true⟩) twoClients = some s ∧
    s.consumed = [97, 98, 99] ∧ s.slot = false ∧ Input s := by
  obtain ⟨s, hs, hread, hslot⟩ : ∃ s,
      run (step ⟨false, true⟩) (.start ⟨false, true⟩) twoClients = some s ∧
      s.consumed = [97, 98, 99] ∧ s.slot = false := ⟨_, rfl, rfl, rfl⟩
  exact ⟨s, hs, hread, hslot, stdin_in_order _ twoClients s hs⟩

end ContainerdRs.Cri.Streaming.AttachStdin
