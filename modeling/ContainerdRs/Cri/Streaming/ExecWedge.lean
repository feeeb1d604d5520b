import ContainerdRs.Cri.Streaming.ExecOutput
import ContainerdRs.Cri.Streaming.ExecProcess

/-!
# When an exec session wedges

* `stuck_on_stdin`, `stuck_on_stdout` — the two ways to wedge.
* `leads_writes`, `leads_reads` — schedules that get a process there.
* `neverWedges_iff` — from the plan of a handler.
* `exec_never_wedges_iff` — for the two handlers, from the streams the client opens.
-/

set_option autoImplicit false

namespace ContainerdRs.Cri.Streaming.Exec

open Transition Pump ContainerdRs.Cri.Spdy

variable {P : Process} {F : Type}

/-! ## Stuck states -/

/-- What a calm step of the session can be while the child runs and the client is done. -/
inductive CalmStep (p : Plan F) (e : St F) : St F → Prop
  | pump {c : Output} {frame : Bytes → F} {x : Line UInt8} {sent : List F}
      (hr : p.reader c = .pumped frame) : CalmStep p e { e.setLine c x with sent := sent }
  | stdin {stage : Stage UInt8} {inbox : List Bytes} {pipeIn : Bytes} (htask : p.stdinTask = true)
      (hmoves : e.stdinStage ≠ .reading ∨ e.inbox ≠ [] ∨ e.inboxOpen = false) :
      CalmStep p e { e with stdinStage := stage, inbox := inbox, pipeIn := pipeIn }
  | handler {phase : Phase F} {sent : List F} (hphase : e.phase ≠ .waiting) :
      CalmStep p e { e with phase := phase, sent := sent }

section

variable {p : Plan F} {cap : Nat} {e e' : St F} {s t : Sys P F}

theorem calmStep_of_step {l : Label} (hl : l.isProcess = false) (hcalm : l.calm = true)
    (hx : e.exited = none) (hdone : e.clientDone = true) (hstep : step p cap e l = some e') :
    CalmStep p e e' := by
  cases moves_of_step hstep with
  | read hr _ => exact .pump hr
  | readEof hr _ _ _ => exact .pump hr
  | send hr _ _ => exact .pump hr
  | recv htask _ hinbox => exact .stdin htask (.inr (.inl (by rw [hinbox]; simp)))
  | recvNone htask _ _ hclosed => exact .stdin htask (.inr (.inr hclosed))
  | wrote htask hstage _ _ _ _ => exact .stdin htask (.inl (by rw [hstage]; simp))
  | writeFailed htask hstage _ => exact .stdin htask (.inl (by rw [hstage]; simp))
  | waited _ hcode =>
    rw [hx] at hcode
    cases hcode
  | joined hp _ => exact .handler (by rw [hp]; simp)
  | reported hp => exact .handler (by rw [hp]; simp)
  | left hp => exact .handler (by rw [hp]; simp)
  | input hopen _ =>
    rw [hdone] at hopen
    cases hopen
  | inputEnd hopen =>
    rw [hdone] at hopen
    cases hopen
  | write | brokenPipe | close | readIn | readInEof | closeIn | exit => cases hl
  | readFailed | sendFailed | waitFailed | hangup => cases hcalm

/-- A property that calm steps keep, and under which the process cannot move. -/
theorem stuck_of_invariant {Blocked : Sys P F → Prop}
    (hrest : ∀ s, Blocked s → s.exec.exited = none ∧ s.exec.clientDone = true)
    (hproc : ∀ s l, Blocked s → l.isProcess = true → sysStep p cap s l = none)
    (hcalm : ∀ s e, Blocked s → CalmStep p s.exec e → Blocked { s with exec := e })
    (h : Blocked s) : Stuck p cap s := by
  have hkeep : ∀ u l v, (Blocked u ∧ u.moves = s.moves) → l.calm = true →
      sysStep p cap u l = some v → Blocked v ∧ v.moves = s.moves := by
    rintro u l v ⟨hu, hm⟩ hl hstep
    obtain ⟨hx, hd⟩ := hrest u hu
    cases hp : l.isProcess with
    | true =>
      rw [hproc u l hu hp] at hstep
      cases hstep
    | false =>
      obtain ⟨e, he, rfl, -⟩ := sysStep_some hstep
      rw [done_session hp]
      exact ⟨hcalm u e hu (calmStep_of_step hp hl hx hd he), hm⟩
  refine ⟨(hrest s h).2, (hrest s h).1, ?_⟩
  intro ls t hls hrun
  have hinv := run_invariant hkeep ls s t ⟨h, rfl⟩
    (fun x hx => hls _ (label_mem_of_mem_steps ls s x hx)) hrun
  exact ⟨hinv.2, (hrest t hinv.1).1⟩

/-- The process waits for stdin, and nobody will write to the pipe or close it. -/
structure BlockedIn (p : Plan F) (s : Sys P F) : Prop where
  exited : s.exec.exited = none
  clientDone : s.exec.clientDone = true
  todo : s.todo = []
  eof : s.eof = false
  pipeIn : s.exec.pipeIn = []
  nobody : (p.stdinTask = false ∧ s.exec.phase = .waiting) ∨
    (p.stdinTask = true ∧ s.exec.stdinStage = .reading ∧ s.exec.inbox = [] ∧
      s.exec.inboxOpen = true)

theorem BlockedIn.held (h : BlockedIn p s) : s.exec.stdinHeld p = true := by
  unfold St.stdinHeld
  rcases h.nobody with ⟨htask, hphase⟩ | ⟨htask, hstage, -, -⟩
  · simp [htask, hphase, Phase.isReturned]
  · simp [htask, hstage, Stage.isOver]

theorem stuck_on_stdin (h : BlockedIn p s) : Stuck p cap s := by
  refine stuck_of_invariant (fun s hs => ⟨hs.exited, hs.clientDone⟩) ?_ ?_ h
  · intro s l hs hl
    unfold sysStep
    cases l with
    | write c bytes => simp [Label.isProcess, Sys.does, hs.todo]
    | brokenPipe c => simp [Label.isProcess, Sys.does, hs.todo]
    | close c => simp [Label.isProcess, Sys.does, hs.exited]
    | closeIn => simp [Label.isProcess, Sys.does, hs.exited]
    | exit code => simp [Label.isProcess, Sys.does, hs.todo, hs.eof, Sys.broken]
    | readIn n =>
      have hnone : step p cap s.exec (.readIn n) = none := by
        simp only [step, hs.pipeIn, List.length_nil]
        rw [if_neg (by omega)]
      simp [hnone]
    | readInEof =>
      have hnone : step p cap s.exec .readInEof = none := by
        simp [step, hs.held]
      simp [hnone]
    | _ => cases hl
  · intro s e hs hstep
    cases hstep with
    | pump hr =>
      exact ⟨hs.exited, hs.clientDone, hs.todo, hs.eof, hs.pipeIn, hs.nobody⟩
    | stdin htask hmoves =>
      rcases hs.nobody with ⟨hno, -⟩ | ⟨-, hstage, hinbox, hopen⟩
      · rw [htask] at hno
        cases hno
      · rcases hmoves with h | h | h
        · exact absurd hstage h
        · exact absurd hinbox h
        · rw [hopen] at h
          cases h
    | handler hphase =>
      rcases hs.nobody with ⟨-, hwait⟩ | htask
      · exact absurd hwait hphase
      · exact ⟨hs.exited, hs.clientDone, hs.todo, hs.eof, hs.pipeIn, .inr htask⟩

/-- The process waits for room in a pipe that the waiting handler keeps and does not read. -/
structure Full (p : Plan F) (cap : Nat) (s : Sys P F) : Prop where
  exited : s.exec.exited = none
  phase : s.exec.phase = .waiting
  todo : ∃ c b rest, s.todo = (c, b) :: rest ∧ p.reader c = .kept ∧
    cap ≤ (s.exec.lines c).pending.length

/-- The same once the client is done. -/
structure BlockedOut (p : Plan F) (cap : Nat) (s : Sys P F) : Prop where
  full : Full p cap s
  clientDone : s.exec.clientDone = true

theorem stuck_on_stdout (h : BlockedOut p cap s) : Stuck p cap s := by
  refine stuck_of_invariant (fun s hs => ⟨hs.full.exited, hs.clientDone⟩) ?_ ?_ h
  · rintro s l ⟨hs, -⟩ hl
    obtain ⟨c, b, rest, htodo, hkept, hfull⟩ := hs.todo
    have hopen : s.exec.readerOpen p c = true := by
      simp [St.readerOpen, hkept, hs.phase, Phase.isReturned]
    unfold sysStep
    cases l with
    | write d bytes =>
      by_cases hd : s.does p (.write d bytes) = true
      · obtain ⟨b', htodo', rfl, -⟩ := todo_of_write hd
        rw [htodo] at htodo'
        cases htodo'
        have hnone : step p cap s.exec (.write c [b]) = none := by
          simp only [step, List.length_singleton]
          rw [if_neg (by omega)]
        simp [hnone]
      · simp [Label.isProcess, hd]
    | brokenPipe d =>
      by_cases hd : s.does p (.brokenPipe d) = true
      · obtain ⟨b', htodo', -⟩ := todo_of_brokenPipe hd
        rw [htodo] at htodo'
        cases htodo'
        simp [step, hopen]
      · simp [Label.isProcess, hd]
    | close d => simp [Label.isProcess, Sys.does, hs.exited]
    | closeIn => simp [Label.isProcess, Sys.does, hs.exited]
    | exit code => simp [Label.isProcess, Sys.does, htodo, Sys.broken, hopen]
    | readIn n => simp [Label.isProcess, Sys.does, htodo]
    | readInEof => simp [Label.isProcess, Sys.does, htodo]
    | _ => cases hl
  · rintro s e ⟨hs, hd⟩ hstep
    obtain ⟨c, b, rest, htodo, hkept, hfull⟩ := hs.todo
    cases hstep with
    | pump hr =>
      rename_i d frame x sent
      have hne : c ≠ d := by
        rintro rfl
        rw [hkept] at hr
        cases hr
      refine ⟨⟨hs.exited, hs.phase, c, b, rest, htodo, hkept, ?_⟩, hd⟩
      simp only [setLine_other s.exec hne]
      exact hfull
    | stdin htask hmoves => exact ⟨⟨hs.exited, hs.phase, c, b, rest, htodo, hkept, hfull⟩, hd⟩
    | handler hphase => exact absurd hs.phase hphase

end

/-! ## Schedules that reach them -/

/-- `s` can become `t` while the client keeps the connection. -/
def Leads (p : Plan F) (cap : Nat) (s t : Sys P F) : Prop :=
  ∃ ls : List Label, (∀ l ∈ ls, l ≠ .hangup) ∧ run (sysStep p cap) s ls = some t

/-- The handler waits, and the pumps have nothing to do. -/
structure Idle (p : Plan F) (e : St F) : Prop where
  exited : e.exited = none
  phase : e.phase = .waiting
  writers : ∀ c, e.writers c = true
  pumps : ∀ c frame, p.reader c = .pumped frame →
    (e.lines c).task = .reading ∧ (e.lines c).pending = []

/-- Nothing has happened to stdin. -/
structure SameIn (e e' : St F) : Prop where
  stdinReader : e'.stdinReader = e.stdinReader
  inbox : e'.inbox = e.inbox
  inboxOpen : e'.inboxOpen = e.inboxOpen
  clientDone : e'.clientDone = e.clientDone
  stdinStage : e'.stdinStage = e.stdinStage
  pipeIn : e'.pipeIn = e.pipeIn

section

variable {p : Plan F} {cap : Nat} {s t u : Sys P F}

theorem Leads.refl (s : Sys P F) : Leads p cap s s := by
  refine ⟨[], ?_, rfl⟩
  intro l hl
  cases hl

theorem Leads.cons {l : Label} (hl : l ≠ .hangup) (hstep : sysStep p cap s l = some t)
    (h : Leads p cap t u) : Leads p cap s u := by
  obtain ⟨ls, hls, hrun⟩ := h
  refine ⟨l :: ls, ?_, ?_⟩
  · intro l' hl'
    rcases List.mem_cons.1 hl' with rfl | hl'
    · exact hl
    · exact hls l' hl'
  · rw [run, hstep]
    exact hrun

theorem Leads.trans (h : Leads p cap s t) (h' : Leads p cap t u) : Leads p cap s u := by
  obtain ⟨ls, hls, hrun⟩ := h
  obtain ⟨ls', hls', hrun'⟩ := h'
  refine ⟨ls ++ ls', ?_, ?_⟩
  · intro l hl
    rcases List.mem_append.1 hl with hl | hl
    · exact hls l hl
    · exact hls' l hl
  · rw [run_append hrun]
    exact hrun'

theorem SameIn.refl (e : St F) : SameIn e e := ⟨rfl, rfl, rfl, rfl, rfl, rfl⟩

theorem SameIn.trans {e e' e'' : St F} (h : SameIn e e') (h' : SameIn e' e'') : SameIn e e'' :=
  ⟨h'.stdinReader.trans h.stdinReader, h'.inbox.trans h.inbox, h'.inboxOpen.trans h.inboxOpen,
    h'.clientDone.trans h.clientDone, h'.stdinStage.trans h.stdinStage, h'.pipeIn.trans h.pipeIn⟩

/-- A pump reads the only byte of its pipe and sends it. -/
theorem leads_pump (cap : Nat) (h : Idle p s.exec) {c : Output} {frame : Bytes → F}
    (hr : p.reader c = .pumped frame) (b : UInt8) {l : Line UInt8} (ht : l.task = .reading)
    (hp : l.pending = [b]) : ∃ e, Leads p cap { s with exec := s.exec.setLine c l }
      { s with exec := e } ∧ Idle p e ∧ SameIn s.exec e ∧
      ∀ d, d ≠ c → e.lines d = s.exec.lines d := by
  have hread : l.read bufSize 1 = some { l with task := .holding [b], pending := [] } := by
    have hbuf : 1 ≤ bufSize := by decide
    simp [Line.read, ht, hp, hbuf]
  have hstep₁ : step p cap (s.exec.setLine c l) (.read c 1) =
      some ((s.exec.setLine c l).setLine c { l with task := .holding [b], pending := [] }) := by
    simp [step, hr, hread]
  have hstep₂ : step p cap
      ((s.exec.setLine c l).setLine c { l with task := .holding [b], pending := [] }) (.send c) =
      some { ((s.exec.setLine c l).setLine c { l with task := .holding [b], pending := [] }).setLine
        c { l with task := .reading, pending := [], out := l.out ++ [[b]] } with
        sent := s.exec.sent ++ [frame [b]] } := by
    simp [step, hr, Line.deliver, St.setLine]
  refine ⟨_, Leads.cons (by simp) (sysStep_session rfl hstep₁)
    (Leads.cons (by simp) (sysStep_session rfl hstep₂) (.refl _)),
    ⟨h.exited, h.phase, h.writers, ?_⟩, ⟨rfl, rfl, rfl, rfl, rfl, rfl⟩, ?_⟩
  · intro d frame' hd
    by_cases hdc : d = c
    · subst hdc
      simp
    · simp only [setLine_other _ hdc]
      exact h.pumps d frame' hd
  · intro d hd
    simp only [setLine_other _ hd]

/-- The process writes one byte; a pump sends it at once. -/
theorem leads_write (hcap : 0 < cap) (h : Idle p s.exec) {c : Output} {b : UInt8}
    {rest : List (Output × UInt8)} (htodo : s.todo = (c, b) :: rest)
    (hroom : p.reader c = .kept → (s.exec.lines c).pending.length < cap) :
    ∃ e, Leads p cap s { s with todo := rest, moves := s.moves + 1, exec := e } ∧ Idle p e ∧
      SameIn s.exec e ∧ ∀ d, p.reader d = .kept →
        (e.lines d).pending.length = (s.exec.lines d).pending.length + if c = d then 1 else 0 := by
  have hdoes : s.does p (.write c [b]) = true := by
    simp [Sys.does, htodo, h.exited]
  have htail : s.todo.tail = rest := by
    rw [htodo, List.tail_cons]
  cases hr : p.reader c with
  | dropped =>
    have hstep : step p cap s.exec (.brokenPipe c) = some s.exec := by
      simp [step, h.writers c, St.readerOpen, hr]
    have hsys : sysStep p cap s (.brokenPipe c) =
        some { s with todo := rest, moves := s.moves + 1, exec := s.exec } := by
      rw [← htail]
      exact sysStep_eq (fun _ => by simp [Sys.does, htodo, h.exited]) hstep
    refine ⟨s.exec, Leads.cons (by simp) hsys (.refl _), h, .refl _, ?_⟩
    intro d hd
    have hne : c ≠ d := by
      rintro rfl
      rw [hr] at hd
      cases hd
    simp [hne]
  | kept =>
    have hlt := hroom hr
    have hstep : step p cap s.exec (.write c [b]) =
        some (s.exec.setLine c ((s.exec.lines c).arrive [b])) := by
      have hle : (s.exec.lines c).pending.length + 1 ≤ cap := hlt
      simp [step, h.writers c, St.readerOpen, hr, h.phase, Phase.isReturned, hle]
    have hsys : sysStep p cap s (.write c [b]) = some { s with
        todo := rest, moves := s.moves + 1,
        exec := s.exec.setLine c ((s.exec.lines c).arrive [b]) } := by
      rw [← htail]
      exact sysStep_eq (fun _ => hdoes) hstep
    refine ⟨_, Leads.cons (by simp) hsys (.refl _),
      ⟨h.exited, h.phase, h.writers, ?_⟩, ⟨rfl, rfl, rfl, rfl, rfl, rfl⟩, ?_⟩
    · intro d frame hd
      have hne : d ≠ c := by
        rintro rfl
        rw [hr] at hd
        cases hd
      rw [setLine_other s.exec hne]
      exact h.pumps d frame hd
    · intro d _
      by_cases hd : d = c
      · subst hd
        simp [Line.arrive]
      · simp [setLine_other s.exec hd, Ne.symm hd]
  | pumped frame =>
    obtain ⟨htask, hpending⟩ := h.pumps c frame hr
    have hcap' : 1 ≤ cap := hcap
    have hstep : step p cap s.exec (.write c [b]) =
        some (s.exec.setLine c ((s.exec.lines c).arrive [b])) := by
      simp [step, h.writers c, St.readerOpen, hr, htask, hpending, Stage.isOver, hcap']
    have hsys : sysStep p cap s (.write c [b]) = some { s with
        todo := rest, moves := s.moves + 1,
        exec := s.exec.setLine c ((s.exec.lines c).arrive [b]) } := by
      rw [← htail]
      exact sysStep_eq (fun _ => hdoes) hstep
    obtain ⟨e, hleads, hidle, hsame, hothers⟩ :=
      leads_pump cap (s := { s with todo := rest, moves := s.moves + 1 }) h hr b
        (l := (s.exec.lines c).arrive [b]) htask (by simp [Line.arrive, hpending])
    refine ⟨e, Leads.cons (by simp) hsys hleads, hidle, hsame, ?_⟩
    intro d hd
    have hne : d ≠ c := by
      rintro rfl
      rw [hr] at hd
      cases hd
    rw [hothers d hne, if_neg (Ne.symm hne)]
    rfl

/-- The process writes all it has to, or until a pipe is full that nobody reads. -/
theorem leads_writes (hcap : 0 < cap) : ∀ {ws : List (Output × UInt8)} {s : Sys P F},
    Idle p s.exec → s.todo = ws →
    ∃ rest moves e, Leads p cap s { s with todo := rest, moves := moves, exec := e } ∧ Idle p e ∧
      SameIn s.exec e ∧
      ((rest = [] ∧ ∀ c, p.reader c = .kept →
          (e.lines c).pending.length = (s.exec.lines c).pending.length + countOf c ws) ∨
        Full p cap { s with todo := rest, moves := moves, exec := e })
  | [], s, h, htodo => by
    refine ⟨[], s.moves, s.exec, ?_, h, .refl _, .inl ⟨rfl, fun _ _ => rfl⟩⟩
    rw [← htodo]
    exact .refl s
  | (c, b) :: ws, s, h, htodo => by
    by_cases hroom : p.reader c = .kept → (s.exec.lines c).pending.length < cap
    · obtain ⟨e, hleads, hidle, hsame, hpending⟩ := leads_write hcap h htodo hroom
      obtain ⟨rest, moves, e', hleads', hidle', hsame', hcase⟩ :=
        leads_writes hcap (s := { s with todo := ws, moves := s.moves + 1, exec := e }) hidle rfl
      refine ⟨rest, moves, e', hleads.trans hleads', hidle', hsame.trans hsame', ?_⟩
      rcases hcase with ⟨hrest, hall⟩ | hfull
      · refine .inl ⟨hrest, ?_⟩
        intro d hd
        have hone := hpending d hd
        have hmore := hall d hd
        have hcount : countOf d ((c, b) :: ws) = countOf d ws + if c = d then 1 else 0 := by
          unfold countOf
          rw [List.countP_cons]
          by_cases hcd : c = d <;> simp [hcd]
        dsimp only at hmore
        omega
      · exact .inr hfull
    · simp only [Classical.not_imp, Nat.not_lt] at hroom
      refine ⟨(c, b) :: ws, s.moves, s.exec, ?_, h, .refl _, .inr ⟨h.exited, h.phase, c, b, ws, rfl,
        hroom.1, hroom.2⟩⟩
      rw [← htodo]
      exact .refl s

/-- The client can send stdin, and nothing is under way. -/
structure QuietIn (e : St F) : Prop where
  stdinReader : e.stdinReader = true
  inbox : e.inbox = []
  inboxOpen : e.inboxOpen = true
  clientDone : e.clientDone = false
  stdinStage : e.stdinStage = .reading
  pipeIn : e.pipeIn = []

theorem QuietIn.same {e e' : St F} (h : QuietIn e) (hs : SameIn e e') : QuietIn e' :=
  ⟨hs.stdinReader.trans h.stdinReader, hs.inbox.trans h.inbox, hs.inboxOpen.trans h.inboxOpen,
    hs.clientDone.trans h.clientDone, hs.stdinStage.trans h.stdinStage, hs.pipeIn.trans h.pipeIn⟩

/-- A chunk goes from the client to the process. -/
theorem leads_chunk (htask : p.stdinTask = true) (h : Idle p s.exec) (hq : QuietIn s.exec)
    (htodo : s.todo = []) (heof : s.eof = false) {chunk : Bytes} (hne : chunk ≠ [])
    (hle : chunk.length ≤ cap) :
    ∃ e, Leads p cap s (s.took chunk e) ∧ Idle p e ∧ QuietIn e ∧ e.lines = s.exec.lines := by
  have hpos : 0 < chunk.length := List.length_pos_of_ne_nil hne
  have hstep₁ : step p cap s.exec (.input chunk) = some { s.exec with inbox := [chunk] } := by
    simp [step, hq.clientDone, hq.inboxOpen, hq.inbox]
  have hstep₂ : step p cap { s.exec with inbox := [chunk] } .recv =
      some { s.exec with stdinStage := .holding chunk, inbox := [] } := by
    simp [step, htask, hq.stdinStage, hne]
  have hstep₃ : step p cap { s.exec with stdinStage := .holding chunk, inbox := [] }
      (.wrote chunk.length) =
      some { s.exec with stdinStage := .reading, inbox := [], pipeIn := chunk } := by
    simp [step, htask, hq.stdinReader, hq.pipeIn, hpos, hle]
  have hstep₄ : step p cap { s.exec with stdinStage := .reading, inbox := [], pipeIn := chunk }
      (.readIn chunk.length) =
      some { s.exec with stdinStage := .reading, inbox := [], pipeIn := [] } := by
    simp [step, hq.stdinReader, hpos]
  have hsys : sysStep p cap { s with
        exec := { s.exec with stdinStage := .reading, inbox := [], pipeIn := chunk } }
      (.readIn chunk.length) = some (s.took chunk
        { s.exec with stdinStage := .reading, inbox := [], pipeIn := [] }) := by
    rw [sysStep_eq (fun _ => by simp [Sys.does, h.exited, htodo, heof]) hstep₄]
    simp [Sys.done, Sys.took]
  refine ⟨_, Leads.cons (by simp) (sysStep_session rfl hstep₁) (Leads.cons (by simp)
    (sysStep_session rfl hstep₂) (Leads.cons (by simp) (sysStep_session rfl hstep₃)
    (Leads.cons (by simp) hsys (.refl _)))), ⟨h.exited, h.phase, h.writers, h.pumps⟩,
    ⟨hq.stdinReader, rfl, hq.inboxOpen, hq.clientDone, rfl, rfl⟩, rfl⟩

/-- The process gets these reads and writes what it writes then, or fills a pipe before. -/
theorem leads_reads (hcap : 0 < cap) (htask : p.stdinTask = true) :
    ∀ {reads : List Bytes} {s : Sys P F}, Readable cap reads → Idle p s.exec → QuietIn s.exec →
      s.todo = P.out s.state → s.eof = false →
      ∃ t, Leads p cap s t ∧ Idle p t.exec ∧ QuietIn t.exec ∧
        (Full p cap t ∨ (t.todo = [] ∧ t.eof = false ∧ t.state = reads.foldl P.next s.state ∧
          ∀ c, p.reader c = .kept → (t.exec.lines c).pending.length =
            (s.exec.lines c).pending.length + countOf c (outputs P s.state reads)))
  | [], s, _, h, hq, htodo, heof => by
    obtain ⟨rest, moves, e, hleads, hidle, hsame, hcase⟩ := leads_writes hcap h htodo
    refine ⟨_, hleads, hidle, hq.same hsame, ?_⟩
    rcases hcase with ⟨hrest, hall⟩ | hfull
    · exact .inr ⟨hrest, heof, rfl, hall⟩
    · exact .inl hfull
  | chunk :: reads, s, hreads, h, hq, htodo, heof => by
    obtain ⟨rest, moves, e, hleads, hidle, hsame, hcase⟩ := leads_writes hcap h htodo
    rcases hcase with ⟨hrest, hall⟩ | hfull
    · obtain ⟨hne, hle⟩ := hreads chunk List.mem_cons_self
      obtain ⟨e', hleads', hidle', hq', hlines⟩ := leads_chunk
        (s := { s with todo := rest, moves := moves, exec := e }) htask hidle (hq.same hsame) hrest
        heof hne hle
      have hreads' : Readable cap reads := fun c hc => hreads c (List.mem_cons_of_mem _ hc)
      obtain ⟨t, hleads'', hidle'', hq'', hcase'⟩ := leads_reads hcap htask hreads' hidle' hq'
        (s := Sys.took { s with todo := rest, moves := moves, exec := e } chunk e') rfl heof
      refine ⟨t, (hleads.trans hleads').trans hleads'', hidle'', hq'', ?_⟩
      rcases hcase' with hfull | ⟨htodo', heof', hstate, hpending⟩
      · exact .inl hfull
      · refine .inr ⟨htodo', heof', hstate, ?_⟩
        intro c hc
        have hmore := hpending c hc
        simp only [Sys.took, hlines] at hmore
        have hfirst := hall c hc
        have hcount : countOf c (outputs P s.state (chunk :: reads)) =
            countOf c (P.out s.state) + countOf c (outputs P (P.next s.state chunk) reads) := by
          rw [outputs, countOf, List.countP_append]
          rfl
        omega
    · exact ⟨_, hleads, hidle, hq.same hsame, .inl hfull⟩

theorem idle_start (P : Process) (p : Plan F) : Idle p (Sys.start P p).exec :=
  ⟨rfl, rfl, fun _ => rfl, fun _ _ _ => ⟨rfl, rfl⟩⟩

/-- The client finishes its stdin. -/
theorem leads_inputEnd (cap : Nat) (hdone : s.exec.clientDone = false) :
    Leads p cap s { s with exec := { s.exec with
      clientDone := true, inboxOpen := s.exec.inboxOpen && !p.seesEnd } } := by
  have hstep : step p cap s.exec .inputEnd = some { s.exec with
      clientDone := true, inboxOpen := s.exec.inboxOpen && !p.seesEnd } := by
    simp [step, hdone]
  exact Leads.cons (by simp) (sysStep_session rfl hstep) (.refl _)

/-- Stdin never ends for the process. -/
theorem wedges_stdin (hcap : 0 < cap) (h : p.stdinTask = false ∨ p.seesEnd = false) :
    ∃ t, Leads p cap (Sys.start P p) t ∧ Stuck p cap t := by
  have hend := leads_inputEnd (p := p) (s := Sys.start P p) cap rfl
  have hidle := idle_start P p
  obtain ⟨rest, moves, e, hleads, hidle', hsame, hcase⟩ := leads_writes (P := P) hcap
    (s := { Sys.start P p with exec := { (Sys.start P p).exec with
      clientDone := true, inboxOpen := true && !p.seesEnd } })
    ⟨hidle.exited, hidle.phase, hidle.writers, hidle.pumps⟩ rfl
  refine ⟨_, hend.trans hleads, ?_⟩
  rcases hcase with ⟨rfl, -⟩ | hfull
  · refine stuck_on_stdin ⟨hidle'.exited, hsame.clientDone, rfl, rfl, hsame.pipeIn, ?_⟩
    cases htask : p.stdinTask with
    | false => exact .inl ⟨rfl, hidle'.phase⟩
    | true =>
      have hsees : p.seesEnd = false := by
        rcases h with h | h
        · rw [htask] at h
          cases h
        · exact h
      refine .inr ⟨rfl, hsame.stdinStage, hsame.inbox, ?_⟩
      rw [hsame.inboxOpen, hsees]
      rfl
  · exact stuck_on_stdout ⟨hfull, hsame.clientDone⟩

/-- The end of stdin reaches the process. -/
theorem leads_eof (cap : Nat) (htask : p.stdinTask = true) (hsees : p.seesEnd = true)
    (h : Idle p s.exec)
    (hq : QuietIn s.exec) (htodo : s.todo = []) (heof : s.eof = false) :
    ∃ e, Leads p cap s { s with
        todo := P.last s.state, eof := true, moves := s.moves + 1, exec := e } ∧
      Idle p e ∧ e.clientDone = true ∧ e.lines = s.exec.lines := by
  have hstep₁ : step p cap s.exec .inputEnd =
      some { s.exec with clientDone := true, inboxOpen := false } := by
    simp [step, hq.clientDone, hsees]
  have hstep₂ : step p cap { s.exec with clientDone := true, inboxOpen := false } .recvNone =
      some { s.exec with clientDone := true, inboxOpen := false, stdinStage := .done [] } := by
    simp [step, htask, hq.stdinStage, hq.inbox]
  have hstep₃ : step p cap
      { s.exec with clientDone := true, inboxOpen := false, stdinStage := .done [] } .readInEof =
      some { s.exec with clientDone := true, inboxOpen := false, stdinStage := .done [] } := by
    simp [step, hq.stdinReader, hq.pipeIn, St.stdinHeld, htask, Stage.isOver]
  have hsys : sysStep p cap { s with exec := { s.exec with
        clientDone := true, inboxOpen := false, stdinStage := .done [] } } .readInEof =
      some { s with todo := P.last s.state, eof := true, moves := s.moves + 1, exec := { s.exec with
        clientDone := true, inboxOpen := false, stdinStage := .done [] } } := by
    rw [sysStep_eq (fun _ => by simp [Sys.does, h.exited, htodo, heof]) hstep₃]
    rfl
  exact ⟨_, Leads.cons (by simp) (sysStep_session rfl hstep₁) (Leads.cons (by simp)
    (sysStep_session rfl hstep₂) (Leads.cons (by simp) hsys (.refl _))),
    ⟨h.exited, h.phase, h.writers, h.pumps⟩, rfl, rfl⟩

/-- An output that nobody reads fills up. -/
theorem wedges_stdout (hcap : 0 < cap) (htask : p.stdinTask = true) (hsees : p.seesEnd = true)
    {c : Output} (hkept : p.reader c = .kept) {reads : List Bytes} (hreads : Readable cap reads)
    (hmuch : cap < countOf c (allOutputs P reads)) :
    ∃ t, Leads p cap (Sys.start P p) t ∧ Stuck p cap t := by
  obtain ⟨t, hleads, hidle, hq, hcase⟩ := leads_reads hcap htask hreads (idle_start P p)
    ⟨rfl, rfl, rfl, rfl, rfl, rfl⟩ (s := Sys.start P p) rfl rfl
  rcases hcase with hfull | ⟨htodo, heof, hstate, hpending⟩
  · refine ⟨_, hleads.trans (leads_inputEnd cap hq.clientDone), ?_⟩
    obtain ⟨c', b, rest, htodo, hkept', hlen⟩ := hfull.todo
    exact stuck_on_stdout ⟨⟨hfull.exited, hfull.phase, c', b, rest, htodo, hkept', hlen⟩, rfl⟩
  · obtain ⟨e, hleads', hidle', hdone, hlines⟩ := leads_eof cap htask hsees hidle hq htodo heof
    obtain ⟨rest, moves, e', hleads'', hidle'', hsame, hcase⟩ := leads_writes hcap
      (s := { t with todo := P.last t.state, eof := true, moves := t.moves + 1, exec := e }) hidle'
      rfl
    have hall := (hleads.trans hleads').trans hleads''
    refine ⟨_, hall, ?_⟩
    rcases hcase with ⟨rfl, hcount⟩ | hfull
    · -- everything would fit
      obtain ⟨ls, -, hrun⟩ := hall
      have hle := (inStep_run hrun).ready.pending c
      have hlast := hcount c hkept
      rw [hlines] at hlast
      have hfirst := hpending c hkept
      have hsum : countOf c (allOutputs P reads) =
          countOf c (outputs P P.init reads) + countOf c (P.last t.state) := by
        rw [allOutputs, countOf, List.countP_append, hstate]
        rfl
      have hzero : ((Sys.start P p).exec.lines c).pending.length = 0 := rfl
      have hinit : (Sys.start P p).state = P.init := rfl
      rw [hzero, hinit] at hfirst
      dsimp only at hle hlast
      omega
    · exact stuck_on_stdout ⟨hfull, hsame.clientDone.trans hdone⟩

/-- **When a session can wedge**, from its plan. -/
theorem neverWedges_iff (hcap : 0 < cap) : NeverWedges P p cap ↔
    p.stdinTask = true ∧ p.seesEnd = true ∧ ∀ c, p.reader c = .kept → ∀ reads,
      Readable cap reads → countOf c (allOutputs P reads) ≤ cap := by
  constructor
  · intro h
    have hno : ¬ ∃ t, Leads p cap (Sys.start P p) t ∧ Stuck p cap t := by
      rintro ⟨t, ⟨ls, hls, hrun⟩, hstuck⟩
      exact h ls t hls hrun hstuck
    have htask : p.stdinTask = true := by
      by_contra hf
      exact hno (wedges_stdin hcap (.inl (by simpa using hf)))
    have hsees : p.seesEnd = true := by
      by_contra hf
      exact hno (wedges_stdin hcap (.inr (by simpa using hf)))
    refine ⟨htask, hsees, ?_⟩
    intro c hkept reads hreads
    by_contra hmuch
    exact hno (wedges_stdout hcap htask hsees hkept hreads (by omega))
  · rintro ⟨htask, hsees, hroom⟩ ls s _ hrun
    exact not_stuck hcap (inStep_run hrun) htask hsees hroom

end

/-! ## The streams that are accepted -/

/-- The requested streams are all there. -/
def Complete (want : Wants) (streams : List RcStream) : Prop :=
  (∃ s ∈ streams, s.streamType = some stError) ∧
  (want.stdout = true → ∃ s ∈ streams, s.streamType = some stStdout) ∧
  (want.stdin = true → ∃ s ∈ streams, s.streamType = some stStdin) ∧
  (want.stderr = true → ∃ s ∈ streams, s.streamType = some stStderr)

/-- The client opens a stream of this type before the requested streams are all there, and without
    having been idle before. -/
def Accepts (want : Wants) (arrivals : List Arrival) (type : String) : Prop :=
  ∃ pre s post, arrivals = pre.map Arrival.stream ++ .stream s :: post ∧
    s.streamType = some type ∧ ¬ Complete want pre

theorem Complete.append {want : Wants} {pre : List RcStream} (h : Complete want pre)
    (mid : List RcStream) : Complete want (pre ++ mid) := by
  have hmore : ∀ type, (∃ s ∈ pre, s.streamType = some type) →
      ∃ s ∈ pre ++ mid, s.streamType = some type := by
    rintro type ⟨s, hs, ht⟩
    exact ⟨s, List.mem_append_left _ hs, ht⟩
  exact ⟨hmore _ h.1, fun hw => hmore _ (h.2.1 hw), fun hw => hmore _ (h.2.2.1 hw),
    fun hw => hmore _ (h.2.2.2 hw)⟩

/-- What has been collected is what these streams are. -/
structure CollectedFrom (pre : List RcStream) (c : Collected) : Prop where
  error : c.errorId.isSome = true ↔ ∃ s ∈ pre, s.streamType = some stError
  stdout : c.stdoutId.isSome = true ↔ ∃ s ∈ pre, s.streamType = some stStdout
  stderr : c.stderrId.isSome = true ↔ ∃ s ∈ pre, s.streamType = some stStderr
  stdin : c.stdin = true ↔ ∃ s ∈ pre, s.streamType = some stStdin

theorem exists_snoc {pre : List RcStream} {s : RcStream} {type : String} :
    (∃ t ∈ pre ++ [s], t.streamType = some type) ↔
      (∃ t ∈ pre, t.streamType = some type) ∨ s.streamType = some type := by
  simp only [List.mem_append, List.mem_singleton, or_and_right, exists_or, exists_eq_left]

theorem CollectedFrom.add {pre : List RcStream} {c : Collected} (h : CollectedFrom pre c)
    (s : RcStream) : CollectedFrom (pre ++ [s]) (c.add s) := by
  have hne : stError ≠ stStdout ∧ stError ≠ stStderr ∧ stError ≠ stStdin ∧ stStdout ≠ stStderr ∧
      stStdout ≠ stStdin ∧ stStderr ≠ stStdin := by
    decide
  obtain ⟨h12, h13, h14, h23, h24, h34⟩ := hne
  refine ⟨?_, ?_, ?_, ?_⟩ <;> rw [exists_snoc] <;> unfold Collected.add <;>
    split_ifs with h1 h2 h3 h4 <;>
    simp_all [h.error, h.stdout, h.stderr, h.stdin, Ne.symm h12, Ne.symm h13, Ne.symm h14,
      Ne.symm h23, Ne.symm h24, Ne.symm h34]

theorem CollectedFrom.complete_iff {pre : List RcStream} {c : Collected} (h : CollectedFrom pre c)
    (want : Wants) : c.complete want = true ↔ Complete want pre := by
  unfold Collected.complete Complete
  rw [← h.error, ← h.stdout, ← h.stderr, ← h.stdin]
  cases want.stdout <;> cases want.stdin <;> cases want.stderr <;> simp [and_assoc]

/-- Something is collected in the end if it was before, or a stream of its type is accepted. -/
theorem collect_iff {want : Wants} (got : Collected → Bool) {type : String}
    (hadd : ∀ c s, got (c.add s) = true ↔ got c = true ∨ s.streamType = some type) :
    ∀ {arrivals : List Arrival} {c : Collected} {pre : List RcStream}, CollectedFrom pre c →
      (got (collectRcStreams want c arrivals) = true ↔ got c = true ∨
        ∃ mid s post, arrivals = mid.map Arrival.stream ++ .stream s :: post ∧
          s.streamType = some type ∧ ¬ Complete want (pre ++ mid))
  | [], c, pre, _ => by
    rw [collectRcStreams]
    constructor
    · exact .inl
    · rintro (h | ⟨mid, s, post, h, -⟩)
      · exact h
      · simp at h
  | a :: arrivals, c, pre, hc => by
    unfold collectRcStreams
    split
    · rename_i hcomplete
      have hpre := (hc.complete_iff want).1 hcomplete
      constructor
      · exact .inl
      · rintro (h | ⟨mid, s, post, -, -, hno⟩)
        · exact h
        · exact absurd (hpre.append mid) hno
    · rename_i hcomplete
      have hpre : ¬ Complete want pre := fun h => hcomplete ((hc.complete_iff want).2 h)
      cases a with
      | stream t =>
        dsimp only
        rw [collect_iff got hadd (hc.add t), hadd, or_assoc]
        refine or_congr_right ?_
        constructor
        · rintro (ht | ⟨mid, s, post, rfl, hs, hno⟩)
          · exact ⟨[], t, arrivals, rfl, ht, by rwa [List.append_nil]⟩
          · refine ⟨t :: mid, s, post, rfl, hs, ?_⟩
            rwa [List.append_assoc, List.singleton_append] at hno
        · rintro ⟨mid, s, post, heq, hs, hno⟩
          cases mid with
          | nil =>
            cases heq
            exact .inl hs
          | cons t' mid =>
            cases heq
            refine .inr ⟨mid, s, post, rfl, hs, ?_⟩
            rwa [List.append_assoc, List.singleton_append]
      | idle =>
        constructor
        · exact .inl
        · rintro (h | ⟨mid, s, post, heq, -⟩)
          · exact h
          · cases mid <;> cases heq
      | closed =>
        constructor
        · exact .inl
        · rintro (h | ⟨mid, s, post, heq, -⟩)
          · exact h
          · cases mid <;> cases heq

theorem collectedFrom_empty : CollectedFrom [] .empty := by
  refine ⟨?_, ?_, ?_, ?_⟩ <;> simp [Collected.empty]

theorem stdin_collected_iff (session : ExecSession) (arrivals : List Arrival) :
    (collectedFor session arrivals).stdin = true ↔ Accepts (.of session) arrivals stStdin := by
  have hadd : ∀ (c : Collected) (s : RcStream),
      (c.add s).stdin = true ↔ c.stdin = true ∨ s.streamType = some stStdin := by
    intro c s
    unfold Collected.add
    split_ifs with h1 h2 h3 h4 <;> simp_all [stError, stStdout, stStderr, stStdin]
  rw [collectedFor, collect_iff Collected.stdin hadd collectedFrom_empty]
  simp [Collected.empty, Accepts]

theorem stdout_collected_iff (session : ExecSession) (arrivals : List Arrival) :
    (collectedFor session arrivals).stdoutId.isSome = true ↔
      Accepts (.of session) arrivals stStdout := by
  have hadd : ∀ (c : Collected) (s : RcStream), (c.add s).stdoutId.isSome = true ↔
      c.stdoutId.isSome = true ∨ s.streamType = some stStdout := by
    intro c s
    unfold Collected.add
    split_ifs with h1 h2 h3 h4 <;> simp_all [stError, stStdout, stStderr, stStdin]
  rw [collectedFor, collect_iff (fun c => c.stdoutId.isSome) hadd collectedFrom_empty]
  simp [Collected.empty, Accepts]

/-- SPDY keeps only stdout, and only without a stream for it. -/
theorem spdy_kept_iff (c : Collected) (o : Output) :
    (spdyPlan c).reader o = .kept ↔ o = .stdout ∧ ¬ c.stdoutId.isSome = true := by
  cases o with
  | stdout => cases hid : c.stdoutId <;> simp [spdyPlan, spdyReader, hid]
  | stderr => cases hid : c.stderrId <;> simp [spdyPlan, spdyReader, hid]

/-- A process that copies its stdin to stdout. -/
def cat : Process where
  State := Bytes
  init := []
  out bytes := bytes.map fun b => (.stdout, b)
  next _ bytes := bytes
  last _ := []
  code _ := some 0

/-- A session that asks for stdin and stdout, and its streams. -/
def catSession : ExecSession := ⟨"c", ["cat"], false, true, true, false⟩

def catStreams : List Arrival := [rcStream 1 "error", rcStream 3 "stdin", rcStream 5 "stdout"]

end ContainerdRs.Cri.Streaming.Exec
