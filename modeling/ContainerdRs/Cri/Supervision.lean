import ContainerdRs.Cri.Log
import ContainerdRs.Lib.Pump
import ContainerdRs.Lib.Transition

/-!
# A running container (`start_container`, `supervise_container`, `supervise_tty`)

The supervisor spawns `crun run` with piped stdio, publishes the log and the stdin of the container
and starts one pump for each output.  A pump writes each chunk to the log and then sends it to the
live bus.  The supervisor waits for the pumps, then for `crun`, records the exit, emits the event
and takes the container out of the registries of the streaming server.  A container with a terminal
has one output, the pty, and its exit code is not known.

* `Supervised`, `supervised_step` — what every step keeps, with one field for each party.
* `exit_after_output` — once the exit is recorded, all output is in the log and has been sent to
  the bus.
* `registered_while_running` — when the container is in which registry.
-/

set_option autoImplicit false

namespace ContainerdRs.Cri.Supervision

open Transition Pump

/-- `LiveFrame`. -/
abbrev LiveFrame := UInt8 × Bytes

/-- The channel of a stream. -/
def channel : Stream → UInt8
  | .stdout => 1
  | .stderr => 2

/-- The buffer of a pump. -/
def pumpBuffer : Nat := 8192

/-- What the supervisor reads off the container. -/
structure Config where
  terminal : Bool
  stdinOpen : Bool
  deriving DecidableEq, Repr

/-- Where the task of `start_container` stands. -/
inductive Phase where
  | starting
  /-- `crun run` is spawned. -/
  | spawned
  | logPublished
  /-- The pumps run, and the task waits for them. -/
  | pumping
  /-- `child.wait()`. -/
  | waiting
  /-- `supervise_container` has returned. -/
  | recording (code : Int)
  | announcing
  | closingLive
  | closingLog
  | closingStdin
  | finished
  deriving DecidableEq, Repr

/-- `supervise_container` has not returned: it holds a sender of the live bus. -/
def Phase.supervising : Phase → Bool
  | .starting | .spawned | .logPublished | .pumping | .waiting => true
  | _ => false

/-- The container, its supervisor and its pumps. -/
structure St where
  phase : Phase
  /-- The container has been spawned. -/
  launched : Bool
  /-- The pipes, each with its pump. -/
  lines : Stream → Line UInt8
  /-- The pump has been through the log with the chunk that it holds. -/
  inLog : Stream → Bool
  /-- All write ends of the pipe are closed. -/
  hungUp : Stream → Bool
  readFailed : Stream → Bool
  /-- `crun run` has ended, with its exit code unless a signal has killed it. -/
  exited : Option (Option Int)
  /-- The chunks whose lines have been written to the log. -/
  logged : List (Stream × Bytes)
  logFailed : Bool
  /-- What has been sent to the live bus. -/
  history : List LiveFrame
  /-- The container is in the registry `live`, `logs` and `stdins`. -/
  live : Bool
  logs : Bool
  stdins : Bool
  /-- The exit code in the container record. -/
  recorded : Option Int
  /-- `ContainerStoppedEvent` has been emitted. -/
  announced : Bool

/-- `start_container` has put the container into `live` and spawned the task; with a terminal there
    is no pipe for stderr. -/
def St.start (cfg : Config) : St where
  phase := .starting
  launched := false
  lines
    | .stdout => .new
    | .stderr => if cfg.terminal then { (Line.new : Line UInt8) with task := .done [] } else .new
  inLog _ := false
  hungUp
    | .stdout => false
    | .stderr => cfg.terminal
  readFailed _ := false
  exited := none
  logged := []
  logFailed := false
  history := []
  live := true
  logs := false
  stdins := false
  recorded := none
  announced := false

/-- Who moves, with the choices of the environment. -/
inductive Label where
  /-- `cmd.spawn()`, or `run_tty`. -/
  | spawn (ok : Bool)
  | registerLog
  /-- `register_stdin`, if the container wants it; the pumps start. -/
  | registerStdin
  /-- The processes of the container write to an output, or close it. -/
  | write (o : Stream) (bytes : Bytes)
  | hangUp (o : Stream)
  /-- `crun run` ends. -/
  | exit (code : Option Int)
  /-- `reader.read` yields `n` bytes, `Ok(0)`, or an error. -/
  | read (o : Stream) (n : Nat)
  | readEof (o : Stream)
  | readError (o : Stream)
  /-- `f.write_all(&line)`. -/
  | log (o : Stream) (ok : Bool)
  /-- `live.send`. -/
  | send (o : Stream)
  /-- The supervisor's next step. -/
  | supervise
  deriving DecidableEq, Repr

/-- A pipe and its pump have moved. -/
def St.setLine (s : St) (o : Stream) (l : Line UInt8) : St :=
  { s with lines := Function.update s.lines o l }

/-- A pump has been through the log, or goes on to its next chunk. -/
def St.setInLog (s : St) (o : Stream) (b : Bool) : St :=
  { s with inLog := Function.update s.inLog o b }

/-- The next step of the supervisor: `none` while it waits. -/
def St.supervise (cfg : Config) (s : St) : Option St :=
  match s.phase with
  | .starting | .spawned | .logPublished => none
  | .pumping =>
    if (s.lines .stdout).task.isOver && (s.lines .stderr).task.isOver then
      -- a terminal's console cannot give an exit code
      some { s with phase := if cfg.terminal then .recording 0 else .waiting }
    else none
  | .waiting => s.exited.map fun code => { s with phase := .recording (code.getD (-1)) }
  | .recording code => some { s with recorded := some code, phase := .announcing }
  | .announcing => some { s with announced := true, phase := .closingLive }
  | .closingLive => some { s with live := false, phase := .closingLog }
  | .closingLog => some { s with logs := false, phase := .closingStdin }
  | .closingStdin => some { s with stdins := false, phase := .finished }
  | .finished => none

/-- One step. -/
def step (cfg : Config) (s : St) : Label → Option St
  | .spawn ok =>
    if s.phase = .starting then
      if ok then
        some { s with launched := true, phase := if cfg.terminal then .pumping else .spawned }
      else some { s with phase := .recording (-1) }
    else none
  | .registerLog =>
    if s.phase = .spawned then some { s with logs := true, phase := .logPublished } else none
  | .registerStdin =>
    if s.phase = .logPublished then some { s with stdins := cfg.stdinOpen, phase := .pumping }
    else none
  | .write o bytes =>
    if s.launched = false ∨ s.hungUp o = true then none
    else some (s.setLine o ((s.lines o).arrive bytes))
  | .hangUp o =>
    if s.launched then some { s with hungUp := Function.update s.hungUp o true } else none
  | .exit code =>
    if s.launched = false ∨ s.exited ≠ none then none else some { s with exited := some code }
  | .read o n =>
    if s.phase = .pumping then ((s.lines o).read pumpBuffer n).map fun l => s.setLine o l else none
  | .readEof o =>
    if s.phase = .pumping ∧ s.hungUp o = true ∧ (s.lines o).pending = [] then
      (s.lines o).leave.map fun l => s.setLine o l
    else none
  | .readError o =>
    if s.phase = .pumping then
      (s.lines o).leave.map fun l =>
        { s.setLine o l with readFailed := Function.update s.readFailed o true }
    else none
  | .log o ok =>
    match (s.lines o).task with
    | .holding chunk =>
      if s.inLog o then none
      else if ok then some { s.setInLog o true with logged := s.logged ++ [(o, chunk)] }
      else some { s.setInLog o true with logFailed := true }
    | _ => none
  | .send o =>
    match (s.lines o).task with
    | .holding chunk =>
      if s.inLog o then
        (s.lines o).deliver.map fun l =>
          { (s.setLine o l).setInLog o false with history := s.history ++ [(channel o, chunk)] }
      else none
    | _ => none
  | .supervise => s.supervise cfg

/-! ## What is promised -/

/-- The chunks of one channel. -/
def chunksOn (c : UInt8) (history : List LiveFrame) : List Bytes :=
  history.filterMap fun x => if x.1 = c then some x.2 else none

/-- The chunks of one stream. -/
def loggedOn (o : Stream) (logged : List (Stream × Bytes)) : List Bytes :=
  logged.filterMap fun x => if x.1 = o then some x.2 else none

/-- A pipe: nothing is lost on its way to the log and to the bus, and the log comes first. -/
structure Piped (s : St) (o : Stream) : Prop where
  sound : Sound (s.lines o)
  inLog : s.inLog o = true → ∃ chunk, (s.lines o).task = .holding chunk
  sent : chunksOn (channel o) s.history = (s.lines o).out
  logged : s.logFailed = false → loggedOn o s.logged =
    (s.lines o).out ++ (if s.inLog o then [(s.lines o).task.held] else [])
  ended : (s.lines o).task.isOver = true → (s.lines o).task = .done [] ∧
    (s.readFailed o = false → s.hungUp o = true ∧ (s.lines o).pending = [])

/-- The pumps have ended, and the code is that of the container. -/
structure Ended (cfg : Config) (s : St) (code : Int) : Prop where
  pumped : ∀ o, (s.lines o).task.isOver = true
  code : if cfg.terminal then code = 0 else ∃ e, s.exited = some e ∧ code = e.getD (-1)

/-- An exit code that the supervisor may record. -/
def Final (cfg : Config) (s : St) (code : Int) : Prop :=
  if s.launched then Ended cfg s code else code = -1

/-- The phases in order. -/
def Phase.number : Phase → Nat
  | .starting => 0
  | .spawned => 1
  | .logPublished => 2
  | .pumping => 3
  | .waiting => 4
  | .recording _ => 5
  | .announcing => 6
  | .closingLive => 7
  | .closingLog => 8
  | .closingStdin => 9
  | .finished => 10

/-- What the phase says about the registries, the record and the events. -/
structure Registered (cfg : Config) (s : St) : Prop where
  idle : s.phase = .starting → s.launched = false
  plain : s.phase = .spawned ∨ s.phase = .logPublished → cfg.terminal = false
  launched : 1 ≤ s.phase.number → s.phase.number ≤ 4 → s.launched = true
  recorded : s.recorded.isSome = decide (6 ≤ s.phase.number)
  announced : s.announced = decide (7 ≤ s.phase.number)
  live : s.live = decide (s.phase.number < 8)
  logs : s.logs = (!cfg.terminal && s.launched && decide (2 ≤ s.phase.number) &&
    decide (s.phase.number < 9))
  stdins : s.stdins = (!cfg.terminal && cfg.stdinOpen && s.launched &&
    decide (3 ≤ s.phase.number) && decide (s.phase.number < 10))

/-- What every step keeps. -/
structure Supervised (cfg : Config) (s : St) : Prop where
  piped : ∀ o, Piped s o
  /-- Where nothing was spawned, no pump holds anything. -/
  empty : s.launched = false → ∀ o chunk, (s.lines o).task ≠ .holding chunk
  registered : Registered cfg s
  waiting : s.phase = .waiting → cfg.terminal = false ∧ ∀ o, (s.lines o).task.isOver = true
  final : ∀ code, s.phase = .recording code ∨ s.recorded = some code → Final cfg s code

variable {cfg : Config} {s s' : St}

theorem supervised_start (cfg : Config) : Supervised cfg (.start cfg) := by
  have hnew : ∀ o : Stream, (St.start cfg).lines o = .new ∨
      (cfg.terminal = true ∧ o = .stderr ∧
        (St.start cfg).lines o = { (Line.new : Line UInt8) with task := .done [] }) := by
    intro o
    cases o with
    | stdout => exact .inl rfl
    | stderr =>
      cases hterminal : cfg.terminal with
      | false => exact .inl (by simp [St.start, hterminal])
      | true => exact .inr ⟨rfl, rfl, by simp [St.start, hterminal]⟩
  constructor
  · intro o
    rcases hnew o with hl | ⟨hterminal, rfl, hl⟩
    · refine ⟨hl ▸ sound_new, fun h => by simp [St.start] at h, ?_, fun _ => ?_, fun h => ?_⟩
      · rw [hl]
        rfl
      · rw [hl]
        rfl
      · rw [hl] at h
        cases h
    · refine ⟨?_, fun h => by simp [St.start] at h, ?_, fun _ => ?_, fun _ => ?_⟩
      · rw [hl]
        refine ⟨rfl, ?_⟩
        intro chunk h
        cases h
      · rw [hl]
        rfl
      · rw [hl]
        rfl
      · rw [hl]
        exact ⟨rfl, fun _ => ⟨hterminal, rfl⟩⟩
  · intro _ o chunk hc
    rcases hnew o with hl | ⟨-, -, hl⟩ <;>
    · rw [hl] at hc
      cases hc
  · constructor <;> simp [St.start, Phase.number]
  all_goals simp [St.start]

/-- A pipe that has not moved. -/
theorem Piped.same {o : Stream} (h : Piped s o) (hlines : s'.lines o = s.lines o)
    (hinLog : s'.inLog o = s.inLog o) (hhungUp : s'.hungUp o = s.hungUp o)
    (hread : s'.readFailed o = s.readFailed o)
    (hhistory : chunksOn (channel o) s'.history = chunksOn (channel o) s.history)
    (hlogged : loggedOn o s'.logged = loggedOn o s.logged)
    (hfailed : s'.logFailed = false → s.logFailed = false) : Piped s' o := by
  refine ⟨hlines ▸ h.sound, ?_, ?_, fun hok => ?_, ?_⟩
  · rw [hinLog, hlines]
    exact h.inLog
  · rw [hhistory, hlines]
    exact h.sent
  · rw [hlogged, hlines, hinLog]
    exact h.logged (hfailed hok)
  · rw [hlines, hread, hhungUp]
    exact h.ended

theorem Final.mono {code : Int} (h : Final cfg s code)
    (hover : ∀ o, (s.lines o).task.isOver = true → (s'.lines o).task.isOver = true)
    (hlaunched : s'.launched = s.launched) (hexited : s'.exited = s.exited) :
    Final cfg s' code := by
  unfold Final at h ⊢
  rw [hlaunched]
  split_ifs at h ⊢ with hl
  · exact ⟨fun o => hover o (h.pumped o), hexited ▸ h.code⟩
  · exact h

/-- A pipe moves: the rest of the container stays as it is. -/
theorem Supervised.moved (h : Supervised cfg s) (o : Stream) (hpiped : Piped s' o)
    (hother : ∀ o', o' ≠ o → Piped s' o')
    (hempty : s.launched = false → ∀ o chunk, (s'.lines o).task ≠ .holding chunk)
    (hover : ∀ o', (s.lines o').task.isOver = true → (s'.lines o').task.isOver = true)
    (hphase : s'.phase = s.phase) (hlaunched : s'.launched = s.launched)
    (hexited : s'.exited = s.exited) (hrecorded : s'.recorded = s.recorded)
    (hannounced : s'.announced = s.announced) (hlive : s'.live = s.live)
    (hlogs : s'.logs = s.logs) (hstdins : s'.stdins = s.stdins) : Supervised cfg s' := by
  constructor
  · intro o'
    by_cases ho : o' = o
    · exact ho ▸ hpiped
    · exact hother o' ho
  · rwa [hlaunched]
  · obtain ⟨h0, hplain, h1, h2, h3, h4, h5, h6⟩ := h.registered
    constructor
    · rwa [hphase, hlaunched]
    · rwa [hphase]
    · rwa [hphase, hlaunched]
    · rwa [hrecorded, hphase]
    · rwa [hannounced, hphase]
    · rwa [hlive, hphase]
    · rwa [hlogs, hlaunched, hphase]
    · rwa [hstdins, hlaunched, hphase]
  · rw [hphase]
    exact fun hw => ⟨(h.waiting hw).1, fun o' => hover o' ((h.waiting hw).2 o')⟩
  · rw [hphase, hrecorded]
    exact fun code hc => (h.final code hc).mono hover hlaunched hexited

/-! ## The pipes -/

@[simp] theorem setLine_same (s : St) (o : Stream) (l : Line UInt8) : (s.setLine o l).lines o = l :=
  Function.update_self ..

theorem setLine_other (s : St) {o o' : Stream} (h : o' ≠ o) (l : Line UInt8) :
    (s.setLine o l).lines o' = s.lines o' := Function.update_of_ne h ..

theorem chunksOn_snoc (c : UInt8) (history : List LiveFrame) (x : LiveFrame) :
    chunksOn c (history ++ [x]) = chunksOn c history ++ (if x.1 = c then [x.2] else []) := by
  unfold chunksOn
  rw [List.filterMap_append]
  by_cases hx : x.1 = c <;> simp [hx]

theorem loggedOn_snoc (o : Stream) (logged : List (Stream × Bytes)) (x : Stream × Bytes) :
    loggedOn o (logged ++ [x]) = loggedOn o logged ++ (if x.1 = o then [x.2] else []) := by
  unfold loggedOn
  rw [List.filterMap_append]
  by_cases hx : x.1 = o <;> simp [hx]

theorem channel_injective {o o' : Stream} (h : channel o = channel o') : o = o' := by
  cases o <;> cases o' <;> first | rfl | cases h

/-- Every stream but one is at rest. -/
theorem Supervised.setLine (h : Supervised cfg s) {o : Stream} {l : Line UInt8}
    (hpiped : Piped (s.setLine o l) o)
    (hempty : s.launched = false → ∀ chunk, l.task ≠ .holding chunk)
    (hover : (s.lines o).task.isOver = true → l.task.isOver = true) :
    Supervised cfg (s.setLine o l) := by
  refine h.moved o hpiped (fun o' ho => ?_) (fun hup o' => ?_) (fun o' ho' => ?_)
    rfl rfl rfl rfl rfl rfl rfl rfl
  · exact (h.piped o').same (setLine_other s ho l) rfl rfl rfl rfl rfl id
  · by_cases ho : o' = o
    · subst ho
      rw [setLine_same]
      exact hempty hup
    · rw [setLine_other s ho]
      exact h.empty hup o'
  · by_cases ho : o' = o
    · subst ho
      rw [setLine_same]
      exact hover ho'
    · rwa [setLine_other s ho]

theorem Supervised.write (h : Supervised cfg s) {o : Stream} (bytes : Bytes)
    (hopen : s.hungUp o = false) :
    Supervised cfg (s.setLine o ((s.lines o).arrive bytes)) := by
  have hp := h.piped o
  refine h.setLine ⟨?_, ?_, ?_, fun hok => ?_, fun hover => ?_⟩ (fun hup => h.empty hup o) id
  · rw [setLine_same]
    exact hp.sound.arrive bytes
  · rw [setLine_same]
    exact hp.inLog
  · rw [setLine_same]
    exact hp.sent
  · rw [setLine_same]
    exact hp.logged hok
  · rw [setLine_same] at hover ⊢
    refine ⟨(hp.ended hover).1, fun hread => ?_⟩
    have hclosed := ((hp.ended hover).2 hread).1
    rw [hopen] at hclosed
    cases hclosed

theorem Supervised.read (h : Supervised cfg s) {o : Stream} {n : Nat} {l : Line UInt8}
    (hup : s.launched = true) (hread : (s.lines o).read pumpBuffer n = some l) :
    Supervised cfg (s.setLine o l) := by
  have hp := h.piped o
  have hsound := hp.sound.read hread
  obtain ⟨htask, -, -, -, rfl⟩ := read_some hread
  have hout : s.inLog o = false := by
    cases hin : s.inLog o with
    | false => rfl
    | true =>
      obtain ⟨chunk, hc⟩ := hp.inLog hin
      rw [htask] at hc
      cases hc
  refine h.setLine ⟨by rwa [setLine_same], fun hin => ?_, ?_, fun hok => ?_, fun hover => ?_⟩
    (fun hdown => ?_) (fun hover => ?_)
  · rw [St.setLine, hout] at hin
    cases hin
  · rw [setLine_same]
    exact hp.sent
  · have := hp.logged hok
    rw [setLine_same]
    simpa [St.setLine, hout] using this
  · rw [setLine_same] at hover
    cases hover
  · rw [hup] at hdown
    cases hdown
  · rw [htask] at hover
    cases hover

/-- A pump ends at a read. -/
theorem Supervised.leave (h : Supervised cfg s) {o : Stream} {l : Line UInt8} (failed : Bool)
    (hleave : (s.lines o).leave = some l)
    (hend : failed = false → s.hungUp o = true ∧ (s.lines o).pending = []) :
    Supervised cfg { s.setLine o l with
      readFailed := Function.update s.readFailed o (failed || s.readFailed o) } := by
  have hp := h.piped o
  have hsound := hp.sound.leave hleave
  obtain ⟨htask, rfl⟩ := leave_some hleave
  have hout : s.inLog o = false := by
    cases hin : s.inLog o with
    | false => rfl
    | true =>
      obtain ⟨chunk, hc⟩ := hp.inLog hin
      rw [htask] at hc
      cases hc
  refine h.moved o ⟨?_, fun hin => ?_, ?_, fun hok => ?_, fun _ => ⟨?_, fun hread => ?_⟩⟩
    (fun o' ho => ?_) (fun hup o' chunk => ?_) (fun o' ho' => ?_) rfl rfl rfl rfl rfl rfl rfl rfl
  · simpa using hsound
  · simp only [St.setLine, hout] at hin
    cases hin
  · simpa [St.setLine] using hp.sent
  · have := hp.logged hok
    simpa [St.setLine, hout] using this
  · simp
  · simp only [Function.update_self, Bool.or_eq_false_iff] at hread
    simpa [St.setLine] using hend hread.1
  · exact (h.piped o').same (setLine_other s ho _) rfl rfl (Function.update_of_ne ho ..) rfl rfl id
  · by_cases ho : o' = o
    · subst ho
      simp
    · simpa [setLine_other s ho] using h.empty hup o' chunk
  · by_cases ho : o' = o
    · subst ho
      simp [Stage.isOver]
    · simpa [setLine_other s ho] using ho'

/-- A pump writes its chunk to the log. -/
theorem Supervised.log (h : Supervised cfg s) {o : Stream} {chunk : Bytes} (ok : Bool)
    (htask : (s.lines o).task = .holding chunk) (hout : s.inLog o = false) :
    Supervised cfg { s.setInLog o true with
      logged := if ok then s.logged ++ [(o, chunk)] else s.logged
      logFailed := !ok || s.logFailed } := by
  have hp := h.piped o
  refine h.moved o ⟨hp.sound, fun _ => ⟨chunk, htask⟩, hp.sent, fun hok => ?_, fun hover => ?_⟩
    (fun o' ho => ?_) h.empty (fun _ => id) rfl rfl rfl rfl rfl rfl rfl rfl
  · simp only [Bool.or_eq_false_iff, Bool.not_eq_false'] at hok
    obtain ⟨rfl, hok⟩ := hok
    have hold := hp.logged hok
    rw [hout, if_neg (by simp), List.append_nil] at hold
    simp only [if_true, loggedOn_snoc, hold, St.setInLog, Function.update_self, htask, Stage.held]
  · rw [St.setInLog, htask] at hover
    cases hover
  · refine (h.piped o').same rfl (Function.update_of_ne ho ..) rfl rfl rfl ?_ ?_
    · cases ok with
      | false => rfl
      | true =>
        have hne : ¬ o = o' := fun he => ho he.symm
        simp only [if_true, loggedOn_snoc, hne, if_false, List.append_nil]
    · intro hok
      simp only [Bool.or_eq_false_iff] at hok
      exact hok.2

/-- A pump sends its chunk to the bus. -/
theorem Supervised.send (h : Supervised cfg s) {o : Stream} {chunk : Bytes} {l : Line UInt8}
    (htask : (s.lines o).task = .holding chunk) (hin : s.inLog o = true)
    (hdeliver : (s.lines o).deliver = some l) :
    Supervised cfg { (s.setLine o l).setInLog o false with
      history := s.history ++ [(channel o, chunk)] } := by
  have hp := h.piped o
  have hsound := hp.sound.deliver hdeliver
  obtain ⟨chunk', htask', rfl⟩ := deliver_some hdeliver
  rw [htask] at htask'
  cases htask'
  refine h.moved o ⟨?_, fun hin' => ?_, ?_, fun hok => ?_, fun hover => ?_⟩
    (fun o' ho => ?_) (fun hup => absurd htask (h.empty hup o chunk)) (fun o' ho' => ?_)
    rfl rfl rfl rfl rfl rfl rfl rfl
  · simpa [St.setInLog] using hsound
  · simp [St.setInLog] at hin'
  · simp [St.setInLog, chunksOn_snoc, hp.sent]
  · have hold := hp.logged hok
    rw [hin, if_pos rfl, htask] at hold
    simpa [St.setInLog, St.setLine, Stage.held] using hold
  · simp [St.setInLog, Stage.isOver] at hover
  · refine (h.piped o').same (setLine_other s ho _) (Function.update_of_ne ho ..) rfl rfl ?_ rfl id
    have hne : ¬ channel o = channel o' := fun hc => ho (channel_injective hc).symm
    simp only [chunksOn_snoc, hne, if_false, List.append_nil]
  · by_cases ho : o' = o
    · subst ho
      rw [htask] at ho'
      cases ho'
    · simpa [St.setInLog, setLine_other s ho] using ho'

theorem Supervised.hangUp (h : Supervised cfg s) (o : Stream) :
    Supervised cfg { s with hungUp := Function.update s.hungUp o true } := by
  have hp := h.piped o
  refine h.moved o ⟨hp.sound, hp.inLog, hp.sent, hp.logged, fun hover => ?_⟩ (fun o' ho => ?_)
    h.empty (fun _ => id) rfl rfl rfl rfl rfl rfl rfl rfl
  · obtain ⟨hdone, hend⟩ := hp.ended hover
    exact ⟨hdone, fun hread => ⟨Function.update_self .., (hend hread).2⟩⟩
  · exact (h.piped o').same rfl rfl (Function.update_of_ne ho ..) rfl rfl rfl id

/-! ## The supervisor -/

/-- The supervisor moves on: the pipes stay as they are. -/
theorem Supervised.advance (h : Supervised cfg s) (hlines : s'.lines = s.lines)
    (hinLog : s'.inLog = s.inLog) (hhungUp : s'.hungUp = s.hungUp)
    (hread : s'.readFailed = s.readFailed) (hhistory : s'.history = s.history)
    (hlogged : s'.logged = s.logged) (hfailed : s'.logFailed = s.logFailed)
    (hlaunched : s'.launched = false → s.launched = false) (hregistered : Registered cfg s')
    (hwaiting : s'.phase = .waiting → cfg.terminal = false ∧ ∀ o, (s.lines o).task.isOver = true)
    (hfinal : ∀ code, s'.phase = .recording code ∨ s'.recorded = some code → Final cfg s' code) :
    Supervised cfg s' := by
  refine ⟨fun o => ?_, fun hup => hlines ▸ h.empty (hlaunched hup), hregistered,
    hlines ▸ hwaiting, hfinal⟩
  exact (h.piped o).same (by rw [hlines]) (by rw [hinLog]) (by rw [hhungUp]) (by rw [hread])
    (by rw [hhistory]) (by rw [hlogged]) (by rw [hfailed]; exact id)

/-- `crun run` ends; nothing has been made of its exit code before. -/
theorem Supervised.exit (h : Supervised cfg s) (code : Option Int) (hnone : s.exited = none) :
    Supervised cfg { s with exited := some code } := by
  obtain ⟨h0, hplain, h1, h2, h3, h4, h5, h6⟩ := h.registered
  refine h.advance rfl rfl rfl rfl rfl rfl rfl id ⟨h0, hplain, h1, h2, h3, h4, h5, h6⟩ h.waiting ?_
  intro c hc
  have hfinal := h.final c hc
  unfold Final at hfinal ⊢
  split_ifs at hfinal ⊢ with hup
  · refine ⟨hfinal.pumped, ?_⟩
    have hcode := hfinal.code
    split_ifs at hcode ⊢ with hterminal
    · exact hcode
    · obtain ⟨e, he, -⟩ := hcode
      rw [hnone] at he
      cases he
  · exact hfinal

/-- Nothing is recorded before its time. -/
theorem Supervised.unrecorded (h : Supervised cfg s) (hphase : s.phase.number < 6) :
    s.recorded = none := by
  have hrec := h.registered.recorded
  rw [decide_eq_false (by omega), Option.isSome_eq_false_iff, Option.isNone_iff_eq_none] at hrec
  exact hrec

theorem Supervised.spawn (h : Supervised cfg s) {ok : Bool}
    (hstep : step cfg s (.spawn ok) = some s') : Supervised cfg s' := by
  simp only [step] at hstep
  by_cases hphase : s.phase = .starting
  · obtain ⟨h0, -, -, h2, h3, h4, h5, h6⟩ := h.registered
    have hnone := h.unrecorded (by rw [hphase]; decide)
    have hdown := h0 hphase
    rw [if_pos hphase] at hstep
    rw [hphase] at h2 h3 h4 h5 h6
    cases ok with
    | true =>
      cases hstep
      refine h.advance rfl rfl rfl rfl rfl rfl rfl (by simp) ?_ ?_ ?_
      · cases hterminal : cfg.terminal <;> constructor <;> simp_all [Phase.number]
      · cases cfg.terminal <;> simp
      · intro code hc
        exfalso
        rw [hnone] at hc
        cases hterminal : cfg.terminal <;> simp [hterminal] at hc
    | false =>
      cases hstep
      refine h.advance rfl rfl rfl rfl rfl rfl rfl id ?_ (by simp) ?_
      · constructor <;> simp_all [Phase.number]
      · rintro code (hc | hc)
        · cases hc
          rw [Final, if_neg (by simp [hdown])]
        · rw [hnone] at hc
          cases hc
  · rw [if_neg hphase] at hstep
    cases hstep

theorem Supervised.supervise (h : Supervised cfg s) (hstep : s.supervise cfg = some s') :
    Supervised cfg s' := by
  obtain ⟨-, -, h1, h2, h3, h4, h5, h6⟩ := h.registered
  have hfinal := h.final
  unfold St.supervise at hstep
  split at hstep
  · cases hstep
  · cases hstep
  · cases hstep
  · rename_i hphase
    rw [hphase] at h1 h2 h3 h4 h5 h6
    have hup : s.launched = true := h1 (by decide) (by decide)
    have hnone := h.unrecorded (by rw [hphase]; decide)
    by_cases hover : ((s.lines .stdout).task.isOver && (s.lines .stderr).task.isOver) = true
    · rw [if_pos hover] at hstep
      cases hstep
      rw [Bool.and_eq_true] at hover
      have hall : ∀ o, (s.lines o).task.isOver = true := by
        intro o
        cases o
        · exact hover.1
        · exact hover.2
      cases hterminal : cfg.terminal with
      | true =>
        refine h.advance rfl rfl rfl rfl rfl rfl rfl id ?_ (by simp) ?_
        · constructor <;> simp_all [Phase.number]
        · rintro code (hc | hc)
          · cases hc
            rw [Final, if_pos hup]
            exact ⟨hall, by rw [if_pos hterminal]⟩
          · rw [hnone] at hc
            cases hc
      | false =>
        refine h.advance rfl rfl rfl rfl rfl rfl rfl id ?_ (fun _ => ⟨hterminal, hall⟩) ?_
        · constructor <;> simp_all [Phase.number]
        · rintro code (hc | hc)
          · cases hc
          · rw [hnone] at hc
            cases hc
    · rw [if_neg hover] at hstep
      cases hstep
  · rename_i hphase
    rw [hphase] at h1 h2 h3 h4 h5 h6
    have hup : s.launched = true := h1 (by decide) (by decide)
    have hnone := h.unrecorded (by rw [hphase]; decide)
    obtain ⟨hterminal, hall⟩ := h.waiting hphase
    rw [Option.map_eq_some_iff] at hstep
    obtain ⟨e, he, hstep⟩ := hstep
    subst hstep
    refine h.advance rfl rfl rfl rfl rfl rfl rfl id ?_ (by simp) ?_
    · constructor <;> simp_all [Phase.number]
    · rintro code (hc | hc)
      · cases hc
        rw [Final, if_pos hup]
        refine ⟨hall, ?_⟩
        rw [if_neg (by simp [hterminal])]
        exact ⟨e, he, rfl⟩
      · rw [hnone] at hc
        cases hc
  · rename_i code hphase
    have hcode := hfinal code (.inl hphase)
    cases hstep
    refine h.advance rfl rfl rfl rfl rfl rfl rfl id ?_ (by simp) ?_
    · constructor <;> simp_all [Phase.number]
    · rintro code' (hc | hc)
      · cases hc
      · cases hc
        exact hcode.mono (fun _ => id) rfl rfl
  all_goals
    first
    | cases hstep
      done
    | rename_i hphase
      cases hstep
      refine h.advance rfl rfl rfl rfl rfl rfl rfl id ?_ (by simp) ?_
      · constructor <;> simp_all [Phase.number]
      · rintro code (hc | hc)
        · cases hc
        · exact (hfinal code (.inr hc)).mono (fun _ => id) rfl rfl

/-- **Every step keeps all of it.** -/
theorem supervised_step {label : Label} (h : Supervised cfg s)
    (hstep : step cfg s label = some s') : Supervised cfg s' := by
  cases label with
  | spawn ok => exact h.spawn hstep
  | registerLog =>
    simp only [step] at hstep
    split_ifs at hstep with hphase
    cases hstep
    obtain ⟨-, hplain, h1, h2, h3, h4, h5, h6⟩ := h.registered
    have hnone := h.unrecorded (by rw [hphase]; decide)
    rw [hphase] at hplain h1 h2 h3 h4 h5 h6
    refine h.advance rfl rfl rfl rfl rfl rfl rfl id ?_ (by simp) (by simp [hnone])
    constructor <;> simp_all [Phase.number]
  | registerStdin =>
    simp only [step] at hstep
    split_ifs at hstep with hphase
    cases hstep
    obtain ⟨-, hplain, h1, h2, h3, h4, h5, h6⟩ := h.registered
    have hnone := h.unrecorded (by rw [hphase]; decide)
    rw [hphase] at hplain h1 h2 h3 h4 h5 h6
    refine h.advance rfl rfl rfl rfl rfl rfl rfl id ?_ (by simp) (by simp [hnone])
    constructor <;> simp_all [Phase.number]
  | write o bytes =>
    simp only [step] at hstep
    split_ifs at hstep with hno
    cases hstep
    rw [not_or] at hno
    exact h.write bytes (by simpa using hno.2)
  | hangUp o =>
    simp only [step] at hstep
    split_ifs at hstep with hup
    cases hstep
    exact h.hangUp o
  | exit code =>
    simp only [step] at hstep
    split_ifs at hstep with hno
    cases hstep
    rw [not_or, not_not] at hno
    exact h.exit code hno.2
  | read o n =>
    simp only [step] at hstep
    split_ifs at hstep with hphase
    obtain ⟨l, hread, hs'⟩ := Option.map_eq_some_iff.1 hstep
    have hup := h.registered.launched (by rw [hphase]; decide) (by rw [hphase]; decide)
    exact hs' ▸ h.read hup hread
  | readEof o =>
    simp only [step] at hstep
    split_ifs at hstep with hend
    obtain ⟨l, hleave, hs'⟩ := Option.map_eq_some_iff.1 hstep
    have := h.leave false hleave fun _ => ⟨hend.2.1, hend.2.2⟩
    rw [Bool.false_or, Function.update_eq_self] at this
    exact hs' ▸ this
  | readError o =>
    simp only [step] at hstep
    split_ifs at hstep with hphase
    obtain ⟨l, hleave, hs'⟩ := Option.map_eq_some_iff.1 hstep
    exact hs' ▸ h.leave true hleave (by simp)
  | log o ok =>
    simp only [step] at hstep
    split at hstep
    · rename_i chunk htask
      split_ifs at hstep with hin hok
      · cases hstep
        have := h.log true htask (by simpa using hin)
        exact this
      · cases hstep
        have := h.log false htask (by simpa using hin)
        exact this
    · cases hstep
  | send o =>
    simp only [step] at hstep
    split at hstep
    · rename_i chunk htask
      split_ifs at hstep with hin
      obtain ⟨l, hdeliver, hs'⟩ := Option.map_eq_some_iff.1 hstep
      exact hs' ▸ h.send htask hin hdeliver
    · cases hstep
  | supervise => exact h.supervise hstep

theorem supervised_run {ls : List Label} (hrun : run (step cfg) (.start cfg) ls = some s) :
    Supervised cfg s :=
  run_keeps (fun _ _ _ h hstep => supervised_step h hstep) (supervised_start cfg) hrun

/-! ## The end of the bus -/

/-- Every sender of the live bus is gone: that in the registry and those of the supervisor, which
    outlives the pumps. -/
def St.busClosed (s : St) : Bool := !s.live && !s.phase.supervising

theorem Supervised.closed_number (h : Supervised cfg s) (hclosed : s.busClosed = true) :
    8 ≤ s.phase.number := by
  simp only [St.busClosed, Bool.and_eq_true, Bool.not_eq_true'] at hclosed
  have hlive := h.registered.live
  rw [hclosed.1, eq_comm, decide_eq_false_iff_not] at hlive
  omega

theorem Supervised.closed_recorded (h : Supervised cfg s) (hclosed : s.busClosed = true) :
    ∃ code, s.recorded = some code := by
  have hnumber := h.closed_number hclosed
  apply Option.isSome_iff_exists.1
  rw [h.registered.recorded, decide_eq_true_iff]
  omega

/-- Behind the end of the bus no pump has anything to send. -/
theorem Supervised.closed_idle (h : Supervised cfg s) (hclosed : s.busClosed = true) (o : Stream)
    (chunk : Bytes) : (s.lines o).task ≠ .holding chunk := by
  obtain ⟨code, hrec⟩ := h.closed_recorded hclosed
  have hfinal := h.final code (.inr hrec)
  unfold Final at hfinal
  split_ifs at hfinal with hup
  · intro hc
    have hover := hfinal.pumped o
    rw [hc] at hover
    cases hover
  · exact h.empty (by simpa using hup) o chunk

/-- Behind the end of the bus nothing is sent and the record stays. -/
theorem Supervised.closed_step (h : Supervised cfg s) (hclosed : s.busClosed = true)
    {label : Label} (hstep : step cfg s label = some s') :
    s'.history = s.history ∧ s'.busClosed = true ∧ s'.recorded = s.recorded := by
  have hnumber := h.closed_number hclosed
  have hphase : s.phase = .closingLog ∨ s.phase = .closingStdin ∨ s.phase = .finished := by
    cases hp : s.phase <;> simp_all [Phase.number]
  have hlive : s.live = false := by
    simp only [St.busClosed, Bool.and_eq_true, Bool.not_eq_true'] at hclosed
    exact hclosed.1
  cases label with
  | spawn ok | registerLog | registerStdin =>
    simp only [step] at hstep
    rcases hphase with hp | hp | hp <;>
    · rw [hp] at hstep
      cases hstep
  | write o bytes | hangUp o | exit code =>
    simp only [step] at hstep
    split_ifs at hstep
    cases hstep
    exact ⟨rfl, hclosed, rfl⟩
  | read o n | readError o | readEof o =>
    simp only [step] at hstep
    rcases hphase with hp | hp | hp <;>
    · rw [hp] at hstep
      simp at hstep
  | log o ok | send o =>
    simp only [step] at hstep
    split at hstep
    · rename_i chunk htask
      exact absurd htask (h.closed_idle hclosed o chunk)
    · cases hstep
  | supervise =>
    simp only [step, St.supervise] at hstep
    rcases hphase with hp | hp | hp <;> rw [hp] at hstep <;> cases hstep
    · exact ⟨rfl, by simp [St.busClosed, hlive, Phase.supervising], rfl⟩
    · exact ⟨rfl, by simp [St.busClosed, hlive, Phase.supervising], rfl⟩

/-- The supervisor does not start again. -/
theorem finished_step {label : Label} (hphase : s.phase = .finished)
    (hstep : step cfg s label = some s') : s'.phase = .finished := by
  cases label with
  | spawn ok | registerLog | registerStdin | read o n | readEof o | readError o | supervise =>
    simp [step, St.supervise, hphase] at hstep
  | write o bytes | hangUp o | exit code =>
    simp only [step] at hstep
    split_ifs at hstep
    cases hstep
    exact hphase
  | log o ok =>
    simp only [step] at hstep
    split at hstep
    · split_ifs at hstep <;>
      · cases hstep
        exact hphase
    · cases hstep
  | send o =>
    simp only [step] at hstep
    split at hstep
    · split_ifs at hstep
      obtain ⟨l, -, rfl⟩ := Option.map_eq_some_iff.1 hstep
      exact hphase
    · cases hstep

/-- A step sends one frame to the bus at most. -/
theorem history_step {label : Label} (hstep : step cfg s label = some s') :
    s'.history = s.history ∨ ∃ o chunk, s'.history = s.history ++ [(channel o, chunk)] := by
  cases label with
  | spawn ok | registerLog | registerStdin | write o bytes | hangUp o | exit code =>
    simp only [step] at hstep
    split_ifs at hstep <;>
    · cases hstep
      exact .inl rfl
  | read o n | readError o | readEof o =>
    simp only [step] at hstep
    split_ifs at hstep
    obtain ⟨l, -, rfl⟩ := Option.map_eq_some_iff.1 hstep
    exact .inl rfl
  | log o ok =>
    simp only [step] at hstep
    split at hstep
    · split_ifs at hstep <;>
      · cases hstep
        exact .inl rfl
    · cases hstep
  | send o =>
    simp only [step] at hstep
    split at hstep
    · rename_i chunk htask
      split_ifs at hstep
      obtain ⟨l, -, rfl⟩ := Option.map_eq_some_iff.1 hstep
      exact .inr ⟨o, chunk, rfl⟩
    · cases hstep
  | supervise =>
    simp only [step, St.supervise] at hstep
    split at hstep <;> first | cases hstep | skip
    · split_ifs at hstep <;>
      · cases hstep
        exact .inl rfl
    · obtain ⟨e, -, rfl⟩ := Option.map_eq_some_iff.1 hstep
      exact .inl rfl
    all_goals exact .inl rfl

/-! ## Runs -/

/-- What an attached client can have seen of a stream is in the log. -/
theorem Piped.log_first {o : Stream} (h : Piped s o) (hok : s.logFailed = false) :
    chunksOn (channel o) s.history <+: loggedOn o s.logged := by
  rw [h.sent, h.logged hok]
  exact List.prefix_append _ _

/-- A pump that has ended at the end of its pipe has passed everything on. -/
theorem Piped.all_sent {o : Stream} (h : Piped s o) (hover : (s.lines o).task.isOver = true)
    (hread : s.readFailed o = false) :
    (chunksOn (channel o) s.history).flatten = (s.lines o).arrived := by
  obtain ⟨hdone, hend⟩ := h.ended hover
  rw [h.sent, h.sound.all_delivered, hdone]
  exact ⟨rfl, (hend hread).2⟩

/-- The exit has been recorded, and nothing of the container is still to come. -/
structure Complete (cfg : Config) (s : St) (code : Int) : Prop where
  /-- The code is that of `crun run`, -1 if a signal has killed it or it did not start, and 0 with
      a terminal. -/
  code : if s.launched = false then code = -1 else
    if cfg.terminal then code = 0 else ∃ e, s.exited = some e ∧ code = e.getD (-1)
  /-- Unless a read has failed, everything the container has written to an output has been sent to
      the bus in order, and no more can come. -/
  sent : s.launched = true → ∀ o, s.readFailed o = false →
    (chunksOn (channel o) s.history).flatten = (s.lines o).arrived ∧ s.hungUp o = true
  /-- The log has the same, unless a write to it has failed. -/
  logged : s.launched = true → s.logFailed = false → ∀ o, s.readFailed o = false →
    (loggedOn o s.logged).flatten = (s.lines o).arrived

theorem Supervised.complete (h : Supervised cfg s) {code : Int} (hrec : s.recorded = some code) :
    Complete cfg s code := by
  have hfinal := h.final code (.inr hrec)
  unfold Final at hfinal
  cases hup : s.launched with
  | false =>
    rw [hup, if_neg (by simp)] at hfinal
    refine ⟨by rwa [hup, if_pos rfl], fun hl => ?_, fun hl => ?_⟩ <;>
    · rw [hup] at hl
      cases hl
  | true =>
    rw [hup, if_pos rfl] at hfinal
    have hsent : ∀ o, s.readFailed o = false →
        (chunksOn (channel o) s.history).flatten = (s.lines o).arrived := fun o hread =>
      (h.piped o).all_sent (hfinal.pumped o) hread
    refine ⟨?_, fun _ o hread => ⟨hsent o hread, ?_⟩, fun _ hok o hread => ?_⟩
    · rw [hup, if_neg (by simp)]
      exact hfinal.code
    · exact (((h.piped o).ended (hfinal.pumped o)).2 hread).1
    · have hnot : s.inLog o = false := by
        cases hin : s.inLog o with
        | false => rfl
        | true =>
          obtain ⟨chunk, hc⟩ := (h.piped o).inLog hin
          have hover := hfinal.pumped o
          rw [hc] at hover
          cases hover
      rw [← hsent o hread, (h.piped o).logged hok, (h.piped o).sent, hnot]
      simp

/-- **The exit comes after the output.**  In every interleaving of the container, the pumps and the
    supervisor, a chunk is in the log before it is sent to the bus; and once the exit code is in
    the record, the log and the bus have had all of the output.  The event is emitted after that,
    and the bus is closed after the event. -/
theorem exit_after_output (cfg : Config) (ls : List Label) (s : St)
    (hrun : run (step cfg) (.start cfg) ls = some s) :
    (s.logFailed = false → ∀ o, chunksOn (channel o) s.history <+: loggedOn o s.logged) ∧
      (∀ code, s.recorded = some code → Complete cfg s code) ∧
      (s.announced = true → s.recorded.isSome) ∧ (s.live = false → s.announced = true) := by
  have h := supervised_run hrun
  refine ⟨fun hok o => (h.piped o).log_first hok, fun code hrec => h.complete hrec,
    fun hannounced => ?_, fun hlive => ?_⟩
  · rw [h.registered.announced, decide_eq_true_iff] at hannounced
    rw [h.registered.recorded, decide_eq_true_iff]
    omega
  · rw [h.registered.live, decide_eq_false_iff_not] at hlive
    rw [h.registered.announced, decide_eq_true_iff]
    omega

/-- A container that writes "hi" to stdout and "no" to stderr and exits with 3. -/
def echoRun : List Label :=
  [.spawn true, .write .stdout [104, 105], .registerLog, .registerStdin, .write .stderr [110, 111],
    .read .stderr 2, .read .stdout 2, .log .stderr true, .exit (some 3), .log .stdout true,
    .hangUp .stdout, .send .stdout, .readEof .stdout, .send .stderr, .hangUp .stderr,
    .readEof .stderr, .supervise, .supervise, .supervise, .supervise]

theorem echoRun_complete : ∃ s, run (step ⟨false, false⟩) (.start ⟨false, false⟩) echoRun = some s ∧
    s.recorded = some 3 ∧ Complete ⟨false, false⟩ s 3 := by
  obtain ⟨s, hs, hrec⟩ : ∃ s, run (step ⟨false, false⟩) (.start ⟨false, false⟩) echoRun = some s ∧
      s.recorded = some 3 := ⟨_, rfl, rfl⟩
  exact ⟨s, hs, hrec, (exit_after_output _ echoRun s hs).2.1 3 hrec⟩

end ContainerdRs.Cri.Supervision
