import ContainerdRs.Cri.Lifecycle
import ContainerdRs.Cri.Streaming.Exec

/-!
# `exec_sync`

One call next to the processes that it starts: `crun exec`, which forks the process in the
container and writes its pid to the pid file of the call (a name of its own), that process, and all
that it starts.  They move in any order, and `tokio::time::timeout` may fire at any time.

* `exec_sync_output` — an answer has all that was written, when nobody can write any more.
* `exec_sync_timeout` — a call that has timed out has killed `crun exec`, and the process exactly if
  it has read the pid file after the pid was written.
* `exec_sync_leaves_no_pid_file` — the pid file is gone for good, unless a call of the handler
  fails.
* `exec_sync_ends` — a call with a timeout does not hang.
-/

set_option autoImplicit false

namespace ContainerdRs.Cri.ExecSync

open Transition
open Streaming.Exec (Output)

/-! ## The call -/

/-- `v1::ExecSyncRequest`. -/
structure ExecSyncRequest where
  containerId : String
  cmd : List String
  timeout : Int
  deriving DecidableEq, Repr

/-- `v1::ExecSyncResponse`. -/
structure ExecSyncResponse where
  stdout : Bytes
  stderr : Bytes
  exitCode : Int
  deriving DecidableEq, Repr

/-- The codes that the handler answers with. -/
inductive ExecCode where
  | invalidArgument
  | notFound
  | internal
  | deadlineExceeded
  deriving DecidableEq, Repr

structure ExecStatus where
  code : ExecCode
  message : String
  deriving DecidableEq, Repr

/-- A process and how it has ended; `exited none` is a signal from elsewhere. -/
inductive Process where
  | running
  | exited (code : Option Int)
  /-- By a signal of this call. -/
  | killed
  deriving DecidableEq, Repr

/-- The pid file, as `crun exec` makes it. -/
inductive PidFile where
  | absent
  | empty
  | written
  deriving DecidableEq, Repr

/-- What `wait_with_output` has collected of an output, and what was written to it. -/
structure Pipe where
  written : Bytes
  got : Bytes
  /-- Somebody can still write to it. -/
  writers : Bool
  deriving DecidableEq, Repr

/-- Where the handler stands. -/
inductive Call where
  | waiting
  /-- The timeout has fired. -/
  | readingPid
  | killing (pid : Bool)
  | killingGroup
  | removing (answer : Except ExecStatus ExecSyncResponse)
  | answered (answer : Except ExecStatus ExecSyncResponse)
  deriving DecidableEq

/-- The call and its processes. -/
structure St where
  crun : Process
  /-- The process in the container, once it is forked. -/
  main : Option Process
  pidFile : PidFile
  pipes : Output → Pipe
  /-- The answer of `wait_with_output`. -/
  waiter : Option (Except String (Option Int))
  call : Call

/-- What `exec_sync` answers before it starts anything. -/
def refusal (req : ExecSyncRequest) (found : Bool) : Option ExecStatus :=
  if req.cmd = [] then some ⟨.invalidArgument, "exec cmd required"⟩
  else if found then none
  else some ⟨.notFound, "container " ++ req.containerId ++ " not found"⟩

/-- `Status::internal`, for `crun exec`. -/
def crunError (e : String) : ExecStatus := ⟨.internal, "crun exec: " ++ e⟩

def deadlineExceeded (req : ExecSyncRequest) : ExecStatus :=
  ⟨.deadlineExceeded, "exec timed out after " ++ toString req.timeout ++ "s"⟩

/-- `crun exec` has been spawned. -/
def St.start : St where
  crun := .running
  main := none
  pidFile := .absent
  pipes _ := ⟨[], [], true⟩
  waiter := none
  call := .waiting

/-- `exec_sync` up to the first `await`; `found` is the lookup of the container. -/
def execSync (req : ExecSyncRequest) (found : Bool) (spawn : Except String Unit) :
    Except ExecStatus St :=
  match refusal req found, spawn with
  | some status, _ => .error status
  | none, .error e => .error (crunError e)
  | none, .ok _ => .ok .start

/-- The status of a process that has ended. -/
def Process.status : Process → Option (Option Int)
  | .running => none
  | .exited code => some code
  | .killed => some none

/-- `SIGKILL`. -/
def Process.kill : Process → Process
  | .running => .killed
  | p => p

/-- The answer for what `wait_with_output` has returned. -/
def St.answer (s : St) : Except String (Option Int) → Except ExecStatus ExecSyncResponse
  | .ok code => .ok ⟨(s.pipes .stdout).got, (s.pipes .stderr).got, code.getD (-1)⟩
  | .error e => .error (crunError e)

/-- Who moves. -/
inductive Label where
  /-- `crun exec`. -/
  | fork
  | createPid
  | writePid
  | crunExit (code : Option Int)
  /-- The process in the container, and what it has started. -/
  | mainExit (code : Option Int)
  | write (c : Output) (bytes : Bytes)
  | close (c : Output)
  /-- `wait_with_output`. -/
  | read (c : Output) (n : Nat)
  | waited
  | waitFailed (e : String)
  /-- The handler. -/
  | joined
  | timeout
  | readPid (ok : Bool)
  | killMain
  | killGroup
  | removePid (ok : Bool)
  deriving DecidableEq, Repr

def St.setPipe (s : St) (c : Output) (p : Pipe) : St :=
  { s with pipes := Function.update s.pipes c p }

/-- Everything was read, and nobody can write any more. -/
def Pipe.atEof (p : Pipe) : Bool := !p.writers && p.got == p.written

/-- One step. -/
def step (req : ExecSyncRequest) (s : St) : Label → Option St
  | .fork =>
    if s.crun = .running ∧ s.main = none then some { s with main := some .running } else none
  | .createPid => if s.crun = .running then some { s with pidFile := .empty } else none
  | .writePid =>
    if s.crun = .running ∧ s.main ≠ none ∧ s.pidFile ≠ .absent then
      some { s with pidFile := .written }
    else none
  | .crunExit code =>
    if s.crun = .running then some { s with crun := .exited code } else none
  | .mainExit code =>
    if s.main = some .running then some { s with main := some (.exited code) } else none
  | .write c bytes =>
    if (s.pipes c).writers = true then
      some (s.setPipe c { s.pipes c with written := (s.pipes c).written ++ bytes })
    else none
  | .close c => some (s.setPipe c { s.pipes c with writers := false })
  | .read c n =>
    if s.waiter = none ∧ (s.pipes c).got.length + n ≤ (s.pipes c).written.length then
      some (s.setPipe c { s.pipes c with
        got := (s.pipes c).written.take ((s.pipes c).got.length + n) })
    else none
  | .waited =>
    match s.waiter, s.crun.status with
    | none, some code =>
      if (s.pipes .stdout).atEof ∧ (s.pipes .stderr).atEof then
        some { s with waiter := some (.ok code) }
      else none
    | _, _ => none
  | .waitFailed e => if s.waiter = none then some { s with waiter := some (.error e) } else none
  | .joined =>
    match s.call, s.waiter with
    | .waiting, some r =>
      if 0 < req.timeout then some { s with call := .removing (s.answer r) }
      else
        match r with
        | .ok _ => some { s with call := .removing (s.answer r) }
        | .error e => some { s with call := .answered (.error (crunError e)) }
    | _, _ => none
  | .timeout =>
    if s.call = .waiting ∧ s.waiter = none ∧ 0 < req.timeout then
      some { s with call := .readingPid }
    else none
  | .readPid ok =>
    if s.call = .readingPid then
      some { s with call := .killing (ok && s.pidFile == .written) }
    else none
  | .killMain =>
    match s.call with
    | .killing pid =>
      some { s with
        main := if pid then s.main.map Process.kill else s.main
        call := .killingGroup }
    | _ => none
  | .killGroup =>
    if s.call = .killingGroup then
      some { s with
        crun := s.crun.kill
        call := .removing (.error (deadlineExceeded req)) }
    else none
  | .removePid ok =>
    match s.call with
    | .removing answer =>
      some { s with
        pidFile := if ok then .absent else s.pidFile
        call := .answered answer }
    | _ => none

/-! ## The processes -/

variable {req : ExecSyncRequest} {s s' : St} {l : Label} {ls : List Label}

/-- The steps of the handler. -/
def Label.isHandler : Label → Bool
  | .joined | .timeout | .readPid _ | .killMain | .killGroup | .removePid _ => true
  | _ => false

/-- What the steps of the processes and of `wait_with_output` can change. -/
structure Calm (s s' : St) : Prop where
  crunKilled : s'.crun = .killed ↔ s.crun = .killed
  crunEnded : s.crun ≠ .running → s'.crun = s.crun
  mainKilled : s'.main = some .killed ↔ s.main = some .killed
  mainRunning : s'.main = some .running → s.main = some .running ∨ s.main = none
  mainForked : s.main ≠ none → s'.main ≠ none
  waiter : s.waiter ≠ none → s'.waiter = s.waiter ∧ ∀ c, (s'.pipes c).got = (s.pipes c).got

/-- Nor do they move the handler, and only `crun exec` touches the pid file. -/
structure Quiet (s s' : St) : Prop extends Calm s s' where
  call : s'.call = s.call
  pidFile : s.crun ≠ .running → s'.pidFile = s.pidFile

theorem Calm.refl (call : Call) (pidFile : PidFile) :
    Calm s { s with call := call, pidFile := pidFile } :=
  ⟨Iff.rfl, fun _ => rfl, Iff.rfl, .inl, id, fun _ => ⟨rfl, fun _ => rfl⟩⟩

theorem Quiet.of_pipes {pipes : Output → Pipe}
    (h : s.waiter ≠ none → ∀ c, (pipes c).got = (s.pipes c).got) :
    Quiet s { s with pipes := pipes } :=
  ⟨⟨Iff.rfl, fun _ => rfl, Iff.rfl, .inl, id, fun hw => ⟨rfl, h hw⟩⟩, rfl, fun _ => rfl⟩

theorem setPipe_got {c : Output} {p : Pipe} (h : p.got = (s.pipes c).got) (d : Output) :
    ((s.setPipe c p).pipes d).got = (s.pipes d).got := by
  by_cases hd : d = c
  · subst hd
    simp [St.setPipe, h]
  · simp [St.setPipe, hd]

theorem quiet_step (hl : l.isHandler = false) (hstep : step req s l = some s') : Quiet s s' := by
  cases l with
  | fork =>
    simp only [step] at hstep
    split_ifs at hstep with h
    cases hstep
    obtain ⟨hcrun, hmain⟩ := h
    exact ⟨⟨Iff.rfl, fun _ => rfl, by simp [hmain], fun _ => .inr hmain, fun _ => by simp,
      fun _ => ⟨rfl, fun _ => rfl⟩⟩, rfl, fun _ => rfl⟩
  | createPid =>
    simp only [step] at hstep
    split_ifs at hstep with h
    cases hstep
    exact ⟨.refl _ _, rfl, fun hc => absurd h hc⟩
  | writePid =>
    simp only [step] at hstep
    split_ifs at hstep with h
    cases hstep
    exact ⟨.refl _ _, rfl, fun hc => absurd h.1 hc⟩
  | crunExit code =>
    simp only [step] at hstep
    split_ifs at hstep with h
    cases hstep
    exact ⟨⟨by simp [h], fun hc => absurd h hc, Iff.rfl, .inl, id,
      fun _ => ⟨rfl, fun _ => rfl⟩⟩, rfl, fun _ => rfl⟩
  | mainExit code =>
    simp only [step] at hstep
    split_ifs at hstep with h
    cases hstep
    exact ⟨⟨Iff.rfl, fun _ => rfl, by simp [h], fun hm => by simp at hm, fun _ => by simp,
      fun _ => ⟨rfl, fun _ => rfl⟩⟩, rfl, fun _ => rfl⟩
  | write c bytes =>
    simp only [step] at hstep
    split_ifs at hstep with h
    cases hstep
    exact .of_pipes fun _ => setPipe_got rfl
  | close c =>
    cases hstep
    exact .of_pipes fun _ => setPipe_got rfl
  | read c n =>
    simp only [step] at hstep
    split_ifs at hstep with h
    cases hstep
    exact .of_pipes fun hw => absurd h.1 hw
  | waited =>
    simp only [step] at hstep
    split at hstep
    · rename_i code hw hcrun
      split_ifs at hstep with h
      cases hstep
      exact ⟨⟨Iff.rfl, fun _ => rfl, Iff.rfl, .inl, id, fun hn => absurd hw hn⟩, rfl, fun _ => rfl⟩
    · cases hstep
  | waitFailed e =>
    simp only [step] at hstep
    split_ifs at hstep with h
    cases hstep
    exact ⟨⟨Iff.rfl, fun _ => rfl, Iff.rfl, .inl, id, fun hn => absurd h hn⟩, rfl, fun _ => rfl⟩
  | joined | timeout | readPid _ | killMain | killGroup | removePid _ => cases hl

/-! ## What is collected -/

/-- What `wait_with_output` has collected is what was written first, and all of it when it returns;
    the pid is in the file only after the fork. -/
structure Collected (s : St) : Prop where
  got : ∀ c, (s.pipes c).got <+: (s.pipes c).written
  waited : ∀ code, s.waiter = some (.ok code) → s.crun.status = some code ∧
    ∀ c, (s.pipes c).writers = false ∧ (s.pipes c).got = (s.pipes c).written
  forked : s.pidFile = .written → s.main ≠ none

theorem collected_start : Collected .start where
  got _ := List.nil_prefix
  waited _ h := by cases h
  forked h := by cases h

theorem Process.kill_status {p : Process} {code : Option Int} (h : p.status = some code) :
    p.kill.status = some code := by
  cases p with
  | running => cases h
  | exited _ => exact h
  | killed => exact h

/-- One pipe changes. -/
theorem Collected.pipe (h : Collected s) {c : Output} {p : Pipe} (hgot : p.got <+: p.written)
    (hdone : (s.pipes c).writers = false → (s.pipes c).got = (s.pipes c).written →
      p.writers = false ∧ p.got = p.written) : Collected (s.setPipe c p) where
  got d := by
    by_cases hd : d = c
    · subst hd
      simpa [St.setPipe] using hgot
    · simpa [St.setPipe, hd] using h.got d
  waited code hw := by
    obtain ⟨hcrun, hall⟩ := h.waited code hw
    refine ⟨hcrun, fun d => ?_⟩
    by_cases hd : d = c
    · subst hd
      simpa [St.setPipe] using hdone (hall d).1 (hall d).2
    · simpa [St.setPipe, hd] using hall d
  forked := h.forked

theorem collected_step (h : Collected s) (hstep : step req s l = some s') : Collected s' := by
  cases l with
  | fork =>
    simp only [step] at hstep
    split_ifs at hstep with hc
    cases hstep
    exact ⟨h.got, h.waited, fun _ => by simp⟩
  | createPid =>
    simp only [step] at hstep
    split_ifs at hstep with hc
    cases hstep
    exact ⟨h.got, h.waited, fun hp => by cases hp⟩
  | writePid =>
    simp only [step] at hstep
    split_ifs at hstep with hc
    cases hstep
    exact ⟨h.got, h.waited, fun _ => hc.2.1⟩
  | crunExit code =>
    simp only [step] at hstep
    split_ifs at hstep with hc
    cases hstep
    refine ⟨h.got, fun code' hw => ?_, h.forked⟩
    have := (h.waited code' hw).1
    rw [hc] at this
    cases this
  | mainExit code =>
    simp only [step] at hstep
    split_ifs at hstep with hm
    cases hstep
    exact ⟨h.got, h.waited, fun _ => by simp⟩
  | write c bytes =>
    simp only [step] at hstep
    split_ifs at hstep with hw
    cases hstep
    refine h.pipe ((h.got c).trans (List.prefix_append _ _)) fun hclosed => ?_
    rw [hw] at hclosed
    cases hclosed
  | close c =>
    cases hstep
    exact h.pipe (h.got c) fun _ hall => ⟨rfl, hall⟩
  | read c n =>
    simp only [step] at hstep
    split_ifs at hstep with hr
    cases hstep
    refine h.pipe (List.take_prefix _ _) fun hclosed hall => ⟨hclosed, ?_⟩
    dsimp only
    rw [hall, List.take_of_length_le (Nat.le_add_right _ _)]
  | waited =>
    simp only [step] at hstep
    split at hstep
    · rename_i code hw hcrun
      split_ifs at hstep with heof
      cases hstep
      refine ⟨h.got, fun code' hcode => ?_, h.forked⟩
      cases hcode
      refine ⟨hcrun, fun c => ?_⟩
      have hc : (s.pipes c).atEof = true := by
        cases c with
        | stdout => exact heof.1
        | stderr => exact heof.2
      simpa [Pipe.atEof] using hc
    · cases hstep
  | waitFailed e =>
    simp only [step] at hstep
    split_ifs at hstep with hw
    cases hstep
    exact ⟨h.got, fun _ hc => (nomatch hc), h.forked⟩
  | joined =>
    simp only [step] at hstep
    split at hstep
    · split_ifs at hstep
      · cases hstep
        exact ⟨h.got, h.waited, h.forked⟩
      · split at hstep <;> cases hstep <;> exact ⟨h.got, h.waited, h.forked⟩
    · cases hstep
  | timeout =>
    simp only [step] at hstep
    split_ifs at hstep
    cases hstep
    exact ⟨h.got, h.waited, h.forked⟩
  | readPid ok =>
    simp only [step] at hstep
    split_ifs at hstep
    cases hstep
    exact ⟨h.got, h.waited, h.forked⟩
  | killMain =>
    simp only [step] at hstep
    split at hstep
    · rename_i pid _
      cases hstep
      refine ⟨h.got, h.waited, fun hp => ?_⟩
      have := h.forked hp
      cases pid <;> simpa using this
    · cases hstep
  | killGroup =>
    simp only [step] at hstep
    split_ifs at hstep
    cases hstep
    exact ⟨h.got, fun code hw => ⟨Process.kill_status (h.waited code hw).1, (h.waited code hw).2⟩,
      h.forked⟩
  | removePid ok =>
    simp only [step] at hstep
    split at hstep
    · cases hstep
      refine ⟨h.got, h.waited, fun hp => ?_⟩
      cases ok with
      | true => cases hp
      | false => exact h.forked hp
    · cases hstep

/-! ## Where the handler stands -/

variable (req) in
/-- The handler has read the pid file, and the pid was in it. -/
def Seen (ls : List Label) : Prop :=
  ∃ ls₁ ls₂ s₁, ls = ls₁ ++ .readPid true :: ls₂ ∧ run (step req) .start ls₁ = some s₁ ∧
    s₁.pidFile = .written

theorem seen_snoc (hrun : run (step req) .start ls = some s) (l : Label) :
    Seen req (ls ++ [l]) ↔ Seen req ls ∨ l = .readPid true ∧ s.pidFile = .written := by
  constructor
  · rintro ⟨ls₁, ls₂, s₁, heq, hrun₁, hwritten⟩
    rcases List.eq_nil_or_concat ls₂ with rfl | ⟨ls₃, l', rfl⟩
    · obtain ⟨rfl, hl⟩ := List.append_inj' heq rfl
      rw [hrun, Option.some.injEq] at hrun₁
      subst hrun₁
      exact .inr ⟨List.head_eq_of_cons_eq hl, hwritten⟩
    · have hassoc : ls₁ ++ .readPid true :: ls₃.concat l' =
          (ls₁ ++ .readPid true :: ls₃) ++ [l'] := by simp
      rw [hassoc] at heq
      obtain ⟨rfl, -⟩ := List.append_inj' heq rfl
      exact .inl ⟨ls₁, ls₃, s₁, rfl, hrun₁, hwritten⟩
  · rintro (⟨ls₁, ls₂, s₁, rfl, hrun₁, hwritten⟩ | ⟨rfl, hwritten⟩)
    · exact ⟨ls₁, ls₂ ++ [l], s₁, by simp, hrun₁, hwritten⟩
    · exact ⟨ls, [], s, rfl, hrun, hwritten⟩

section answers

variable (req)

/-- The outcome of a call that has timed out. -/
structure TimedOut (ls : List Label) (s : St) (e : ExecStatus) : Prop where
  timeout : 0 < req.timeout
  status : e = deadlineExceeded req
  crun : s.crun ≠ .running
  survives : s.main = some .running → ¬ Seen req ls
  killed : s.main = some .killed → Seen req ls

/-- This call has sent no signal. -/
def Unsignalled (s : St) : Prop := s.crun ≠ .killed ∧ s.main ≠ some .killed

/-- What is true of an answer. -/
def Answers (ls : List Label) (s : St) : Except ExecStatus ExecSyncResponse → Prop
  | .ok resp => Unsignalled s ∧ ∃ code, s.waiter = some (.ok code) ∧ s.answer (.ok code) = .ok resp
  | .error e => TimedOut req ls s e ∨
      Unsignalled s ∧ ∃ x, e = crunError x ∧ .waitFailed x ∈ ls

/-- A call of the handler or of `wait_with_output` has failed. -/
def Fails (ls : List Label) : Prop := .removePid false ∈ ls ∨ ∃ e, .waitFailed e ∈ ls

/-- Where the handler stands. -/
inductive Stands (ls : List Label) (s : St) : Call → Prop
  | waiting (unsignalled : Unsignalled s) (unseen : ¬ Seen req ls) : Stands ls s .waiting
  | readingPid (timeout : 0 < req.timeout) (unsignalled : Unsignalled s) (unseen : ¬ Seen req ls) :
      Stands ls s .readingPid
  | killing {pid : Bool} (timeout : 0 < req.timeout) (unsignalled : Unsignalled s)
      (seen : pid = true ↔ Seen req ls) : Stands ls s (.killing pid)
  | killingGroup (timeout : 0 < req.timeout) (survives : s.main = some .running → ¬ Seen req ls)
      (killed : s.main = some .killed → Seen req ls) : Stands ls s .killingGroup
  | removing {answer : Except ExecStatus ExecSyncResponse} (answers : Answers req ls s answer)
      (ended : s.crun ≠ .running ∨ Fails ls) : Stands ls s (.removing answer)
  | answered {answer : Except ExecStatus ExecSyncResponse} (answers : Answers req ls s answer)
      (clean : s.crun ≠ .running ∧ s.pidFile = .absent ∨ Fails ls) : Stands ls s (.answered answer)

end answers

/-- What a run keeps. -/
structure Kept (req : ExecSyncRequest) (ls : List Label) (s : St) : Prop where
  collected : Collected s
  forked : Seen req ls → s.main ≠ none
  failed : ∀ e, s.waiter = some (.error e) → .waitFailed e ∈ ls
  stands : Stands req ls s s.call

theorem kept_start : Kept req [] .start where
  collected := collected_start
  forked := by
    rintro ⟨ls₁, ls₂, s₁, heq, -⟩
    simp at heq
  failed _ h := by cases h
  stands := by
    refine .waiting ⟨by simp [St.start], by simp [St.start]⟩ ?_
    rintro ⟨ls₁, ls₂, s₁, heq, -⟩
    simp at heq

theorem Unsignalled.calm (h : Unsignalled s) (hq : Calm s s') : Unsignalled s' :=
  ⟨fun hc => h.1 (hq.crunKilled.1 hc), fun hm => h.2 (hq.mainKilled.1 hm)⟩

theorem Fails.snoc (h : Fails ls) (l : Label) : Fails (ls ++ [l]) :=
  h.imp (List.mem_append_left _) fun ⟨e, he⟩ => ⟨e, List.mem_append_left _ he⟩

/-- The steps of the others do not change an answer. -/
theorem Answers.calm {answer : Except ExecStatus ExecSyncResponse} (h : Answers req ls s answer)
    (hq : Calm s s') (hforked : Seen req ls → s.main ≠ none)
    (hseen : Seen req (ls ++ [l]) ↔ Seen req ls) : Answers req (ls ++ [l]) s' answer := by
  cases answer with
  | ok resp =>
    obtain ⟨hun, code, hw, hanswer⟩ := h
    obtain ⟨hw', hgot⟩ := hq.waiter (by simp [hw])
    refine ⟨hun.calm hq, code, hw'.trans hw, ?_⟩
    simpa only [St.answer, hgot] using hanswer
  | error e =>
    rcases h with h | ⟨hun, x, rfl, hx⟩
    · refine .inl ⟨h.timeout, h.status, ?_, fun hm => ?_, fun hm => ?_⟩
      · rw [hq.crunEnded h.crun]
        exact h.crun
      · rw [hseen]
        intro hs
        rcases hq.mainRunning hm with hold | hold
        · exact h.survives hold hs
        · exact hforked hs hold
      · rw [hseen]
        exact h.killed (hq.mainKilled.1 hm)
    · exact .inr ⟨hun.calm hq, x, rfl, List.mem_append_left _ hx⟩

/-- The steps of the others leave the handler where it is. -/
theorem Stands.quiet {call : Call} (h : Stands req ls s call) (hq : Quiet s s')
    (hforked : Seen req ls → s.main ≠ none) (hseen : Seen req (ls ++ [l]) ↔ Seen req ls) :
    Stands req (ls ++ [l]) s' call := by
  cases h with
  | waiting hun hunseen => exact .waiting (hun.calm hq.toCalm) (by rwa [hseen])
  | readingPid ht hun hunseen => exact .readingPid ht (hun.calm hq.toCalm) (by rwa [hseen])
  | killing ht hun hs => exact .killing ht (hun.calm hq.toCalm) (by rwa [hseen])
  | killingGroup ht hsurvives hkilled =>
    refine .killingGroup ht (fun hm => ?_) fun hm => ?_
    · rw [hseen]
      intro hs
      rcases hq.mainRunning hm with hold | hold
      · exact hsurvives hold hs
      · exact hforked hs hold
    · rw [hseen]
      exact hkilled (hq.mainKilled.1 hm)
  | removing hanswers hended =>
    refine .removing (hanswers.calm hq.toCalm hforked hseen) ?_
    rcases hended with hc | hf
    · exact .inl (by rw [hq.crunEnded hc]; exact hc)
    · exact .inr (hf.snoc l)
  | answered hanswers hclean =>
    refine .answered (hanswers.calm hq.toCalm hforked hseen) ?_
    rcases hclean with ⟨hc, hp⟩ | hf
    · exact .inl ⟨by rw [hq.crunEnded hc]; exact hc, by rw [hq.pidFile hc, hp]⟩
    · exact .inr (hf.snoc l)

/-! ## The steps of the handler -/

/-- The handler moves on. -/
theorem handler_stands (hi : Kept req ls s) (hrun : run (step req) .start ls = some s)
    (hl : l.isHandler = true) (hstep : step req s l = some s') :
    Stands req (ls ++ [l]) s' s'.call := by
  have hstands := hi.stands
  have hother : (∀ ok, l ≠ .readPid ok) → (Seen req (ls ++ [l]) ↔ Seen req ls) := by
    intro hne
    rw [seen_snoc hrun l]
    exact or_iff_left fun h => hne _ h.1
  cases l with
  | joined =>
    have hseen := hother (by simp)
    simp only [step] at hstep
    split at hstep
    · rename_i r hcall hw
      rw [hcall] at hstands
      obtain ⟨hun, -⟩ := hstands
      have hanswers : ∀ call,
          Answers req (ls ++ [.joined]) { s with call := call } (s.answer r) := by
        intro call
        cases r with
        | ok code => exact ⟨hun, code, hw, rfl⟩
        | error e => exact .inr ⟨hun, e, rfl, List.mem_append_left _ (hi.failed e hw)⟩
      have hended : s.crun ≠ .running ∨ Fails (ls ++ [.joined]) := by
        cases r with
        | ok code =>
          left
          intro hc
          have := (hi.collected.waited code hw).1
          rw [hc] at this
          cases this
        | error e => exact .inr (.inr ⟨e, List.mem_append_left _ (hi.failed e hw)⟩)
      split_ifs at hstep
      · cases hstep
        exact .removing (hanswers _) hended
      · split at hstep
        · cases hstep
          exact .removing (hanswers _) hended
        · rename_i e
          cases hstep
          exact .answered (hanswers _) (.inr (.inr ⟨e, List.mem_append_left _ (hi.failed e hw)⟩))
    · cases hstep
  | timeout =>
    have hseen := hother (by simp)
    simp only [step] at hstep
    split_ifs at hstep with h
    cases hstep
    rw [h.1] at hstands
    obtain ⟨hun, hunseen⟩ := hstands
    exact .readingPid h.2.2 hun (by rwa [hseen])
  | readPid ok =>
    simp only [step] at hstep
    split_ifs at hstep with hcall
    cases hstep
    rw [hcall] at hstands
    cases hstands with
    | readingPid ht hun hunseen =>
      refine .killing ht hun ?_
      rw [seen_snoc hrun, or_iff_right hunseen]
      simp
  | killMain =>
    have hseen := hother (by simp)
    simp only [step] at hstep
    split at hstep
    · rename_i pid hcall
      cases hstep
      rw [hcall] at hstands
      cases hstands with
      | killing ht hun hs =>
        refine .killingGroup ht (fun hm => ?_) fun hm => ?_
        · rw [hseen, ← hs]
          rintro rfl
          cases hmain : s.main with
          | none => simp [hmain] at hm
          | some p => cases p <;> simp [hmain, Process.kill] at hm
        · rw [hseen, ← hs]
          cases pid with
          | true => rfl
          | false => exact absurd hm hun.2
    · cases hstep
  | killGroup =>
    have hseen := hother (by simp)
    simp only [step] at hstep
    split_ifs at hstep with hcall
    cases hstep
    rw [hcall] at hstands
    cases hstands with
    | killingGroup ht hsurvives hkilled =>
      have hc : s.crun.kill ≠ .running := by cases s.crun <;> simp [Process.kill]
      refine .removing (.inl ⟨ht, rfl, hc, fun hm => ?_, fun hm => ?_⟩) (.inl hc)
      · rw [hseen]
        exact hsurvives hm
      · rw [hseen]
        exact hkilled hm
  | removePid ok =>
    have hseen := hother (by simp)
    simp only [step] at hstep
    split at hstep
    · rename_i answer hcall
      cases hstep
      rw [hcall] at hstands
      cases hstands with
      | removing hanswers hended =>
        refine .answered (hanswers.calm (.refl _ _) hi.forked hseen) ?_
        cases ok with
        | false => exact .inr (.inl (by simp))
        | true =>
          rcases hended with hc | hf
          · exact .inl ⟨hc, rfl⟩
          · exact .inr (hf.snoc _)
    · cases hstep
  | _ => cases hl

/-- The handler does not unmake the process, and does not answer for `wait_with_output`. -/
theorem handler_main (hl : l.isHandler = true) (hstep : step req s l = some s')
    (hmain : s.main ≠ none) : s'.main ≠ none ∧ s'.waiter = s.waiter := by
  cases l with
  | joined =>
    simp only [step] at hstep
    split at hstep
    · split_ifs at hstep
      · cases hstep
        exact ⟨hmain, rfl⟩
      · split at hstep <;> cases hstep <;> exact ⟨hmain, rfl⟩
    · cases hstep
  | killMain =>
    simp only [step] at hstep
    split at hstep
    · rename_i pid _
      cases hstep
      refine ⟨?_, rfl⟩
      cases pid <;> simpa using hmain
    · cases hstep
  | removePid ok =>
    simp only [step] at hstep
    split at hstep
    · cases hstep
      exact ⟨hmain, rfl⟩
    · cases hstep
  | timeout | readPid _ | killGroup =>
    simp only [step] at hstep
    split_ifs at hstep
    cases hstep
    exact ⟨hmain, rfl⟩
  | _ => cases hl

/-- Where a failure of `wait_with_output` comes from. -/
theorem step_waiter {e : String} (hstep : step req s l = some s')
    (hw : s'.waiter = some (.error e)) : s.waiter = some (.error e) ∨ l = .waitFailed e := by
  cases l with
  | waitFailed e' =>
    simp only [step] at hstep
    split_ifs at hstep
    cases hstep
    cases hw
    exact .inr rfl
  | waited =>
    simp only [step] at hstep
    split at hstep
    · split_ifs at hstep
      cases hstep
      cases hw
    · cases hstep
  | joined =>
    simp only [step] at hstep
    split at hstep
    · split_ifs at hstep
      · cases hstep
        exact .inl hw
      · split at hstep <;> cases hstep <;> exact .inl hw
    · cases hstep
  | killMain | removePid _ =>
    simp only [step] at hstep
    split at hstep
    · cases hstep
      exact .inl hw
    · cases hstep
  | close c =>
    cases hstep
    exact .inl hw
  | _ =>
    simp only [step] at hstep
    split_ifs at hstep
    cases hstep
    exact .inl hw

/-- **Every step keeps what a run keeps.** -/
theorem kept_step (hi : Kept req ls s) (hrun : run (step req) .start ls = some s)
    (hstep : step req s l = some s') : Kept req (ls ++ [l]) s' := by
  have hfailed : ∀ e, s'.waiter = some (.error e) → .waitFailed e ∈ ls ++ [l] := by
    intro e hw
    rcases step_waiter hstep hw with hold | rfl
    · exact List.mem_append_left _ (hi.failed e hold)
    · simp
  have hforked : ∀ (_ : s.main ≠ none → s'.main ≠ none), Seen req (ls ++ [l]) → s'.main ≠ none := by
    intro hmain hs
    rcases (seen_snoc hrun l).1 hs with hs | ⟨-, hwritten⟩
    · exact hmain (hi.forked hs)
    · exact hmain (hi.collected.forked hwritten)
  cases hl : l.isHandler with
  | true =>
    exact ⟨collected_step hi.collected hstep, hforked fun h => (handler_main hl hstep h).1, hfailed,
      handler_stands hi hrun hl hstep⟩
  | false =>
    have hq := quiet_step hl hstep
    have hseen : Seen req (ls ++ [l]) ↔ Seen req ls := by
      rw [seen_snoc hrun l]
      refine or_iff_left ?_
      rintro ⟨rfl, -⟩
      cases hl
    refine ⟨collected_step hi.collected hstep, hforked hq.mainForked, hfailed, ?_⟩
    rw [hq.call]
    exact hi.stands.quiet hq hi.forked hseen

theorem kept_run (hrun : run (step req) .start ls = some s) : Kept req ls s := by
  induction ls using List.reverseRecOn generalizing s with
  | nil =>
    cases hrun
    exact kept_start
  | append_singleton ls l ih =>
    obtain ⟨mid, hmid, hlast⟩ := run_append_some hrun
    obtain ⟨t, hstep, hrest⟩ := run_cons_some hlast
    cases hrest
    exact kept_step (ih hmid) hmid hstep

/-! ## Answers -/

/-- **The output of an answer.**  In every order of the steps of the handler and of the processes, a
    response has all that was written to the two outputs, which nobody can write to any more, and
    the exit code of `crun exec`; no signal was sent. -/
theorem exec_sync_output {resp : ExecSyncResponse} (hrun : run (step req) .start ls = some s)
    (hanswer : s.call = .answered (.ok resp)) :
    resp.stdout = (s.pipes .stdout).written ∧ resp.stderr = (s.pipes .stderr).written ∧
      (∀ c, (s.pipes c).writers = false) ∧ Unsignalled s ∧
      ∃ code, s.crun = .exited code ∧ resp.exitCode = code.getD (-1) := by
  have hi := kept_run hrun
  have hstands := hi.stands
  rw [hanswer] at hstands
  cases hstands with
  | answered hanswers _ =>
    obtain ⟨hun, code, hw, hresp⟩ := hanswers
    obtain ⟨hcrun, hall⟩ := hi.collected.waited code hw
    simp only [St.answer, Except.ok.injEq] at hresp
    subst hresp
    refine ⟨(hall .stdout).2, (hall .stderr).2, fun c => (hall c).1, hun, code, ?_, rfl⟩
    cases hc : s.crun with
    | running =>
      rw [hc] at hcrun
      cases hcrun
    | exited code' =>
      rw [hc] at hcrun
      cases hcrun
      rfl
    | killed => exact absurd hc hun.1

def echoRequest : ExecSyncRequest := ⟨"c1", ["echo"], 5⟩

/-- The process writes three bytes, and everything comes to its end. -/
def echoRun : List Label :=
  [.fork, .createPid, .writePid, .write .stdout [104, 105, 10], .mainExit (some 0), .read .stdout 3,
    .close .stdout, .close .stderr, .crunExit (some 0), .waited, .joined, .removePid true]

theorem echo_output : ∃ s resp, run (step echoRequest) .start echoRun = some s ∧
    s.call = .answered (.ok resp) ∧ resp.exitCode = 0 ∧
    resp.stdout = (s.pipes .stdout).written ∧ resp.stdout = [104, 105, 10] ∧
    ∀ c, (s.pipes c).writers = false := by
  have hall : (run (step echoRequest) .start echoRun).map (·.call) =
      some (.answered (.ok ⟨[104, 105, 10], [], 0⟩)) := by decide
  obtain ⟨s, hrun, hcall⟩ := Option.map_eq_some_iff.1 hall
  obtain ⟨hout, -, hclosed, -⟩ := exec_sync_output hrun hcall
  exact ⟨s, _, hrun, hcall, rfl, hout, rfl, hclosed⟩

/-- **A call that fails.**  Either it has a timeout, which has fired: then `crun exec` is dead, and
    the process in the container has been killed only if the handler has read its pid, and lives
    on only if it has not.  Or `wait_with_output` has failed, and no signal was sent. -/
theorem exec_sync_timeout {e : ExecStatus} (hrun : run (step req) .start ls = some s)
    (hanswer : s.call = .answered (.error e)) :
    (0 < req.timeout ∧ e = deadlineExceeded req ∧ s.crun ≠ .running ∧
        (s.main = some .running → ¬ Seen req ls) ∧ (s.main = some .killed → Seen req ls)) ∨
      Unsignalled s ∧ ∃ x, e = crunError x ∧ .waitFailed x ∈ ls := by
  have hstands := (kept_run hrun).stands
  rw [hanswer] at hstands
  cases hstands with
  | answered hanswers _ =>
    rcases hanswers with h | h
    · exact .inl ⟨h.timeout, h.status, h.crun, h.survives, h.killed⟩
    · exact .inr h

/-- The timeout fires when the process is forked, and its pid is not in the file yet. -/
def earlyTimeout : List Label :=
  [.fork, .createPid, .timeout, .readPid true, .killMain, .killGroup, .removePid true]

/-- The process lives on. -/
theorem early_timeout_survives : ∃ s, run (step echoRequest) .start earlyTimeout = some s ∧
    s.call = .answered (.error (deadlineExceeded echoRequest)) ∧ s.main = some .running ∧
    s.crun ≠ .running ∧ ¬ Seen echoRequest earlyTimeout := by
  have hall : (run (step echoRequest) .start earlyTimeout).map (fun s => (s.call, s.main)) =
      some (.answered (.error (deadlineExceeded echoRequest)), some .running) := by decide
  obtain ⟨s, hrun, hs⟩ := Option.map_eq_some_iff.1 hall
  obtain ⟨hcall, hmain⟩ := Prod.mk.inj hs
  rcases exec_sync_timeout hrun hcall with ⟨-, -, hcrun, hsurvives, -⟩ | ⟨-, x, -, hx⟩
  · exact ⟨s, hrun, hcall, hmain, hcrun, hsurvives hmain⟩
  · simp [earlyTimeout] at hx

/-- **No pid file is left**, after any call that has answered, unless the removal or
    `wait_with_output` has failed. -/
theorem exec_sync_leaves_no_pid_file {answer : Except ExecStatus ExecSyncResponse}
    (hrun : run (step req) .start ls = some s) (hanswer : s.call = .answered answer)
    (hremoved : .removePid false ∉ ls) (hwaited : ∀ e, .waitFailed e ∉ ls) :
    s.pidFile = .absent := by
  have hstands := (kept_run hrun).stands
  rw [hanswer] at hstands
  cases hstands with
  | answered _ hclean =>
    rcases hclean with ⟨-, habsent⟩ | hremove | ⟨e, he⟩
    · exact habsent
    · exact absurd hremove hremoved
    · exact absurd he (hwaited e)

theorem early_timeout_removes : ∃ s, run (step echoRequest) .start earlyTimeout = some s ∧
    s.pidFile = .absent := by
  have hall : (run (step echoRequest) .start earlyTimeout).map (·.call) =
      some (.answered (.error (deadlineExceeded echoRequest))) := by decide
  obtain ⟨s, hrun, hcall⟩ := Option.map_eq_some_iff.1 hall
  exact ⟨s, hrun, exec_sync_leaves_no_pid_file hrun hcall (by decide) (by simp [earlyTimeout])⟩

/-- The handler alone can bring the call to its answer. -/
def Ends (req : ExecSyncRequest) (s : St) : Prop :=
  ∃ hs s' answer, (∀ l ∈ hs, Label.isHandler l = true) ∧ run (step req) s hs = some s' ∧
    s'.call = .answered answer

theorem Ends.of_step {t : St} (h : Ends req t) (hl : l.isHandler = true)
    (hstep : step req s l = some t) : Ends req s := by
  obtain ⟨hs, s', answer, hall, hrun, hcall⟩ := h
  refine ⟨l :: hs, s', answer, ?_, by simpa [run, hstep] using hrun, hcall⟩
  intro l' hl'
  rcases List.mem_cons.1 hl' with rfl | hmem
  · exact hl
  · exact hall l' hmem

/-- **A call with a timeout does not hang**, whatever the processes do. -/
theorem exec_sync_ends (htimeout : 0 < req.timeout) (s : St) : Ends req s := by
  have hremoving : ∀ (t : St) answer, t.call = .removing answer → Ends req t := by
    intro t answer hcall
    refine Ends.of_step (l := .removePid true)
      (t := { t with pidFile := .absent, call := .answered answer })
      ⟨[], _, answer, by simp, rfl, rfl⟩ rfl ?_
    simp [step, hcall]
  have hgroup : ∀ t : St, t.call = .killingGroup → Ends req t := by
    intro t hcall
    refine Ends.of_step (l := .killGroup) (hremoving { t with
      crun := t.crun.kill
      call := .removing (.error (deadlineExceeded req)) } _ rfl) rfl ?_
    simp [step, hcall]
  have hkilling : ∀ (t : St) pid, t.call = .killing pid → Ends req t := by
    intro t pid hcall
    refine Ends.of_step (l := .killMain) (hgroup { t with
      main := if pid then t.main.map Process.kill else t.main
      call := .killingGroup } rfl) rfl ?_
    simp [step, hcall]
  have hreading : ∀ t : St, t.call = .readingPid → Ends req t := by
    intro t hcall
    refine Ends.of_step (l := .readPid true) (hkilling { t with
      call := .killing (true && t.pidFile == .written) } _ rfl) rfl ?_
    simp [step, hcall]
  cases hcall : s.call with
  | waiting =>
    cases hw : s.waiter with
    | none =>
      refine Ends.of_step (l := .timeout) (hreading { s with call := .readingPid } rfl) rfl ?_
      simp [step, hcall, hw, htimeout]
    | some r =>
      refine Ends.of_step (l := .joined)
        (hremoving { s with call := .removing (s.answer r) } _ rfl) rfl ?_
      simp [step, hcall, hw, htimeout]
  | readingPid => exact hreading s hcall
  | killing pid => exact hkilling s pid hcall
  | killingGroup => exact hgroup s hcall
  | removing answer => exact hremoving s answer hcall
  | answered answer => exact ⟨[], s, answer, by simp, rfl, hcall⟩

theorem echo_ends : Ends echoRequest .start := exec_sync_ends (by decide) .start

end ContainerdRs.Cri.ExecSync
