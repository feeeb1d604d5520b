import Mathlib
import ContainerdRs.Metadata.Records
import ContainerdRs.Lib.Transition

/-!
# Container lifecycle handlers (`crates/cri/src/server.rs`)

The handlers that work on one container id, as tasks that interleave in any order.  A task is
cut at every metadata call and at every `await`; between two cuts it makes at most one metadata
call.  `Env` holds what the outside answers during one move: results of `crun`, of the file
system and of the metadata store, clocks and exit codes.

* `start_container` — `get` and the `Created` check, bundle checks and `put` of `Running`, then
  the supervision task is spawned and the handler waits for crun.
* supervision task — `crun run` ends with a code; `get`, then `put` of `Exited`.
* `stop_container` — `get`, SIGTERM, poll until `Exited` or the deadline, KILL and delete,
  re-read, `put` of the forced exit unless the record is `Exited` by then.
* `update_container_resources` — `get`, `crun update`, `put` of the record that was read.
* `remove_container` — `crun delete`, metadata `delete`.
* `reconcile`, on this container — `list`, `crun state`, `put` of the outcome.

`trace` records, in order, the metadata writes, the crun commands and the events sent.
-/

set_option autoImplicit false

namespace ContainerdRs.Cri

open ContainerState

/-- gRPC status codes the handlers answer with. -/
inductive Code where
  | notFound
  | failedPrecondition
  | internal
  | invalidArgument
  | unavailable
  deriving DecidableEq, Repr

/-- `tonic::Status`. -/
structure Status where
  code : Code
  message : String
  deriving DecidableEq, Repr

/-- `v1::ContainerEventType`, as far as these handlers emit it. -/
inductive ContainerEventType where
  | containerStarted
  | containerStopped
  | containerDeleted
  deriving DecidableEq, Repr

/-- `v1::LinuxContainerResources`, the fields `resources_record` reads. -/
structure LinuxContainerResources where
  cpuPeriod : Int
  cpuQuota : Int
  cpuShares : Int
  memoryLimitInBytes : Int
  cpusetCpus : String
  cpusetMems : String
  deriving DecidableEq, Repr

/-- `resources_record`. -/
def resourcesRecord (r : LinuxContainerResources) : ResourcesRecord where
  cpuPeriod := r.cpuPeriod
  cpuQuota := r.cpuQuota
  cpuShares := r.cpuShares
  memoryLimitInBytes := r.memoryLimitInBytes
  cpusetCpus := r.cpusetCpus
  cpusetMems := r.cpusetMems

/-- `runtime::crun::RuntimeState`. -/
structure RuntimeState where
  status : String
  pid : Option Int
  deriving DecidableEq, Repr

/-- `RuntimeState::is_running`. -/
def RuntimeState.isRunning (st : RuntimeState) : Bool := st.status == "running"

/-- What is fixed for one container: its id and the directories derived from `state_dir`. -/
structure Ctx where
  id : String
  crunRoot : String
  bundleDir : String

/-- The answers of the environment during one move. -/
structure Env where
  /-- Error text of the move's metadata call, if it fails. -/
  metaErr : Option String
  /-- `bundle.config_json().is_file()`. -/
  configJson : Bool
  /-- Error text of `create_dir_all(crun_root)`, if it fails. -/
  ioErr : Option String
  /-- Status text of a failed `crun update`. -/
  crunErr : Option String
  /-- `crun state`: `None` also for a failed or unparsable call. -/
  probe : Option RuntimeState
  /-- Exit code of `crun run`. -/
  code : Int
  /-- `unix_nanos() as u64`. -/
  now : UInt64
  /-- Seconds of `Instant::now()`. -/
  clock : Nat
  /-- `Instant::now() >= deadline`. -/
  expired : Bool

/-- An environment in which every call succeeds. -/
def Env.quiet : Env where
  metaErr := none
  configJson := true
  ioErr := none
  crunErr := none
  probe := none
  code := 0
  now := 0
  clock := 0
  expired := true

/-- Observable actions, in the order they happen. -/
inductive Effect where
  | put (r : ContainerRecord)
  | deleteRecord
  | crunRun
  | crunKill (signal : String)
  | crunDelete
  | event (e : ContainerEventType)
  deriving DecidableEq, Repr

/-- Where a task stands.  A record in a task is the copy it read. -/
inductive Task where
  | start (rec : ContainerRecord)
  | startWait
  | supervise
  | superviseExit (code : Int) (r : ContainerRecord)
  | superviseEnd
  | stop (timeoutSecs : Int)
  | stopDeadline (timeoutSecs : Int)
  | stopPoll
  | stopKill
  | stopReread
  | stopForce (updated : ContainerRecord)
  | stopEnd
  | update (rec : ContainerRecord) (linux : Option LinuxContainerResources)
  | remove
  | removeRecord
  | removeEnd
  | reconcile (c : ContainerRecord)
  | reconcilePut (c : ContainerRecord)
  /-- A handler (or the supervision task) is over. -/
  | returned (r : Except Status Unit)
  /-- `reconcile` is over, with the text of a metadata error. -/
  | reconciled (r : Except String Unit)
  | panicked

/-- The metadata entry of the container, the tasks, and the trace. -/
structure St where
  record : Option ContainerRecord
  tasks : List Task
  trace : List Effect

/-- A new request, or the restart pass. -/
inductive Request where
  | startContainer
  | stopContainer (timeout : Int)
  | updateContainerResources (linux : Option LinuxContainerResources)
  | removeContainer
  | reconcile
  deriving DecidableEq

/-- `Status::not_found` of a handler that needs the record. -/
def notFound (c : Ctx) : Status :=
  ⟨.notFound, "container " ++ c.id ++ " not found"⟩

/-- The first piece of a handler: up to and including its first metadata read. -/
def begin (c : Ctx) (env : Env) (record : Option ContainerRecord) : Request → Task
  | .startContainer =>
    match env.metaErr, record with
    | some e, _ => .returned (.error ⟨.internal, e⟩)
    | none, none => .returned (.error (notFound c))
    | none, some rec =>
      if rec.state ≠ created then
        .returned (.error
          ⟨.failedPrecondition, "container " ++ c.id ++ " is not in Created state"⟩)
      else .start rec
  | .stopContainer timeout =>
    match env.metaErr, record with
    | some e, _ => .returned (.error ⟨.internal, e⟩)
    | none, none => .stopEnd
    | none, some rec => if rec.state ≠ exited then .stop timeout else .stopEnd
  | .updateContainerResources linux =>
    match env.metaErr, record with
    | some e, _ => .returned (.error ⟨.internal, e⟩)
    | none, none => .returned (.error (notFound c))
    | none, some rec => .update rec linux
  | .removeContainer => .remove
  | .reconcile =>
    match env.metaErr, record with
    | some e, _ => .reconciled (.error e)
    | none, none => .reconciled (.ok ())
    | none, some rec => if rec.state ≠ running then .reconciled (.ok ()) else .reconcile rec

/-- The record `start_container` stores. -/
def startRecord (c : Ctx) (env : Env) (rec : ContainerRecord) : ContainerRecord :=
  { rec with state := running, startedAt := some env.now,
             crunRoot := some c.crunRoot, bundleDir := some c.bundleDir }

/-- The record the supervision task stores. -/
def exitRecord (env : Env) (code : Int) (r : ContainerRecord) : ContainerRecord :=
  { r with state := exited, exitCode := some code, finishedAt := some env.now,
           reason := some (if code = 0 then "Completed" else "Error") }

/-- The record `stop_container` stores. -/
def forcedRecord (env : Env) (updated : ContainerRecord) : ContainerRecord :=
  { updated with state := exited, finishedAt := some env.now, exitCode := some (-1),
                 reason := some "Error" }

/-- What `reconcile` makes of a `Running` record, by the result of `crun state`. -/
def reconcileRecord (ctx : Ctx) (env : Env) (c : ContainerRecord) : ContainerRecord :=
  match env.probe with
  | some st =>
    if st.isRunning then
      { c with crunRoot := some ctx.crunRoot, pid := if st.pid.isSome then st.pid else c.pid }
    else
      { c with
        state := exited
        finishedAt := if c.finishedAt.isNone then some env.now else c.finishedAt
        exitCode := if c.exitCode.isNone then some (-1) else c.exitCode
        reason := if c.exitCode.isNone then some "Unknown" else c.reason }
  | none => { c with state := unknown }

/-- The crun commands of the same step. -/
def reconcileEffects (env : Env) : List Effect :=
  match env.probe with
  | some st => if st.isRunning then [] else [.crunDelete]
  | none => [.crunDelete]

/-- `Instant + Duration` panics when the seconds leave `i64`. -/
def deadlineOverflows (clock : Nat) (timeoutSecs : Int) : Bool :=
  decide ((2 : Int) ^ 63 ≤ clock + timeoutSecs)

/-- The result of a move: next point, tasks spawned, effects. -/
structure Move where
  next : Task
  spawn : List Task
  effects : List Effect

/-- A move that only goes on. -/
def Move.goto (t : Task) : Move := ⟨t, [], []⟩

/-- One move of a task; `none` when it is over. -/
def advance (c : Ctx) (env : Env) (record : Option ContainerRecord) : Task → Option Move
  | .start rec =>
    if env.configJson = false then
      some (.goto (.returned (.error ⟨.internal, "container bundle config.json missing"⟩)))
    else
      match env.ioErr, env.metaErr with
      | some e, _ => some (.goto (.returned (.error ⟨.internal, e⟩)))
      | none, some e => some (.goto (.returned (.error ⟨.internal, e⟩)))
      | none, none => some ⟨.startWait, [.supervise], [.put (startRecord c env rec), .crunRun]⟩
  | .startWait => some ⟨.returned (.ok ()), [], [.event .containerStarted]⟩
  | .supervise =>
    match env.metaErr, record with
    | none, some r => some (.goto (.superviseExit env.code r))
    | _, _ => some (.goto .superviseEnd)
  | .superviseExit code r =>
    match env.metaErr with
    | none => some ⟨.superviseEnd, [], [.put (exitRecord env code r)]⟩
    | some _ => some (.goto .superviseEnd)
  | .superviseEnd => some ⟨.returned (.ok ()), [], [.event .containerStopped]⟩
  | .stop timeoutSecs => some ⟨.stopDeadline timeoutSecs, [], [.crunKill "SIGTERM"]⟩
  | .stopDeadline timeoutSecs =>
    if timeoutSecs > 0 then
      if deadlineOverflows env.clock timeoutSecs then some (.goto .panicked)
      else some (.goto .stopPoll)
    else some (.goto .stopKill)
  | .stopPoll =>
    match env.metaErr, record with
    | none, some r =>
      if r.state = exited then some (.goto .stopReread)
      else some (.goto (if env.expired then .stopKill else .stopPoll))
    | _, _ => some (.goto (if env.expired then .stopKill else .stopPoll))
  | .stopKill => some ⟨.stopReread, [], [.crunKill "KILL", .crunDelete]⟩
  | .stopReread =>
    match env.metaErr, record with
    | none, some updated =>
      if updated.state ≠ exited then some (.goto (.stopForce updated)) else some (.goto .stopEnd)
    | _, _ => some (.goto .stopEnd)
  | .stopForce updated =>
    match env.metaErr with
    | none => some ⟨.stopEnd, [], [.put (forcedRecord env updated)]⟩
    | some e => some (.goto (.returned (.error ⟨.internal, e⟩)))
  | .stopEnd => some ⟨.returned (.ok ()), [], [.event .containerStopped]⟩
  | .update rec linux =>
    match env.crunErr with
    | some e => some (.goto (.returned (.error ⟨.internal, e⟩)))
    | none =>
      match linux, env.metaErr with
      | none, _ => some (.goto (.returned (.ok ())))
      | some _, some e => some (.goto (.returned (.error ⟨.internal, e⟩)))
      | some l, none =>
        some ⟨.returned (.ok ()), [],
          [.put { rec with resources := some (resourcesRecord l) }]⟩
  | .remove => some ⟨.removeRecord, [], [.crunDelete]⟩
  | .removeRecord =>
    match env.metaErr with
    | none => some ⟨.removeEnd, [], [.deleteRecord]⟩
    | some e => some (.goto (.returned (.error ⟨.internal, e⟩)))
  | .removeEnd => some ⟨.returned (.ok ()), [], [.event .containerDeleted]⟩
  | .reconcile rec =>
    some ⟨.reconcilePut (reconcileRecord c env rec), [], reconcileEffects env⟩
  | .reconcilePut rec =>
    match env.metaErr with
    | none => some ⟨.reconciled (.ok ()), [], [.put rec]⟩
    | some e => some (.goto (.reconciled (.error e)))
  | .returned _ | .reconciled _ | .panicked => none

/-- The metadata entry after an effect. -/
def Effect.apply : Effect → Option ContainerRecord → Option ContainerRecord
  | .put r, _ => some r
  | .deleteRecord, _ => none
  | _, record => record

/-- One step of the system. -/
inductive Label where
  | request (r : Request) (env : Env)
  | move (t : Nat) (env : Env)
  /-- The daemon dies: every task is gone, the metadata store survives. -/
  | restart

/-- The metadata entry after a list of effects. -/
def applyEffects (record : Option ContainerRecord) (es : List Effect) : Option ContainerRecord :=
  es.foldl (fun r e => e.apply r) record

/-- The state after task `t` has made the move `m`. -/
def St.take (s : St) (t : Nat) (m : Move) : St where
  record := applyEffects s.record m.effects
  tasks := s.tasks.set t m.next ++ m.spawn
  trace := s.trace ++ m.effects

/-- One step; `none` when the label is not enabled. -/
def step (c : Ctx) (s : St) : Label → Option St
  | .request r env => some { s with tasks := s.tasks ++ [begin c env s.record r] }
  | .move t env =>
    match s.tasks[t]? with
    | none => none
    | some task => (advance c env s.record task).map (s.take t)
  | .restart => some { s with tasks := [] }

end ContainerdRs.Cri
