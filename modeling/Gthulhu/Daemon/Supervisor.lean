/-
The daemon at work (`Run` in `internal/daemon/daemon.go`): requests to the
control API, each at some step of its own, and the supervisor, which resolves
the scheduler command from the file, starts the child, and waits for a
restart token, the child's exit or a signal.

`Requests` is the control API alone; `System` has the supervisor too, with
three counters that the code does not have, and no step depends on: how often
the file has been rewritten, and how often it had been when the supervisor
last resolved and when it last received a token.
-/
import Gthulhu.Daemon.RuntimeConfig
import Gthulhu.Lib.Machine

namespace Gthulhu.Daemon

open Lib

/-! ## Requests in progress -/

structure Requests where
  shared : Shared
  handlers : List Handler

/-- Request `i` takes its next step. -/
def Requests.step (host : Host) (s : Requests) (i : Nat) (choice : Choice) : Option Requests :=
  s.handlers[i]?.map fun h =>
    { shared := (h.step host choice s.shared).2, handlers := s.handlers.set i (h.step host choice s.shared).1 }

/-- The control API serving the requests it has. -/
def controlAPI (host : Host) : Machine Requests (Nat × Choice) where
  step s e := s.step host e.1 e.2

/-! ## The scheduler command -/

inductive ResolveError where
  /-- `load runtime config: %w` -/
  | load (err : ConfigError)
  | invalid (err : Error)
  /-- An error of `schedext.CheckSupport`, which always wraps `ErrUnsupported`. -/
  | unsupported (err : String)
  deriving DecidableEq

/-- `schedulerCommandFromConfig`: the command to run, or none. -/
def schedulerCommandFromConfig (host : Host) (support : Except String Unit) (file : File) :
    Except ResolveError (Option (String × List String)) := do
  let cfg ← (loadConfig host.runtimeConfigPath file).mapError .load
  let self := some (host.schedulerBinPath, ["scheduler", "-config", host.runtimeConfigPath])
  let mode := if trimSpace cfg.scheduler.mode = "" then "gthulhu" else trimSpace cfg.scheduler.mode
  if mode = "none" then
    return if cfg.isMonitorEnabled then self else none
  (validateScheduler mode cfg.scheduler.schedulerName).mapError .invalid
  match support with
  | .error err => if cfg.isMonitorEnabled then return self else throw (.unsupported err)
  | .ok () =>
    if mode = "gthulhu" ∨ mode = "simple" then return self
    else if mode = "scx" then
      let path ← (ensureExecutableInDir host (dir host.schedulerBinPath) cfg.scheduler.schedulerName).mapError .invalid
      return some (path, [])
    else throw (.invalid (.unsupportedMode mode))

/-! ## The supervisor -/

/-- Where the loop of `Run` is. -/
inductive Phase where
  | resolving
  /-- Waiting: `Resolve` said that sched_ext is not supported. -/
  | unsupported
  /-- Waiting: no command is to be run. -/
  | disabled
  | starting (command : String × List String)
  /-- Waiting while the child runs. -/
  | running
  /-- A token came: the child is stopped. -/
  | stopping
  /-- The child has exited and is started again after a while. -/
  | restarting
  /-- Waiting: the child exited because sched_ext is not supported. -/
  | exitedUnsupported
  | returned
  deriving DecidableEq

/-- The `select` statements. -/
def Phase.waits : Phase → Bool
  | .unsupported | .disabled | .running | .exitedUnsupported => true
  | _ => false

inductive Event where
  | arrive (body : Except String RuntimeConfigRequest)
  | handle (i : Nat) (choice : Choice)
  | resolve (support : Except String Unit)
  | start (result : Except String Unit)
  | signal
  | receive
  /-- The child exits, because of missing support or else. -/
  | childExit (unsupported : Option String)
  /-- The child is stopped, or the delay is over. -/
  | resume

structure System extends Requests where
  phase : Phase
  rewrites : Nat := 0
  resolved : Nat := 0
  received : Nat := 0

/-- The daemon when the control server has just been started. -/
def System.initial (disk : Disk) : System where
  shared := { disk := disk, state := .bootstrap }
  handlers := []
  phase := .resolving

/-- The step of a request rewrites the file. -/
def Handler.rewrites (host : Host) (choice : Choice) (d : Shared) : Handler → Bool
  | .writing _ c => (d.disk.write host choice c).1.isOk
  | _ => false

/-- The phase after `Resolve`. -/
def Phase.afterResolve : Except ResolveError (Option (String × List String)) → Phase
  | .error (.unsupported _) => .unsupported
  | .error _ => .returned
  | .ok none => .disabled
  | .ok (some command) => .starting command

/-- What the control state notes of a `Resolve`. -/
def ControlState.afterResolve (state : ControlState) :
    Except ResolveError (Option (String × List String)) → ControlState
  | .error (.unsupported err) => state.recordError (.unsupported err)
  | _ => state

/-- What the control state notes of a child's exit. -/
def ControlState.afterExit (state : ControlState) : Option String → ControlState
  | some err => state.recordRestart.recordError (.childUnsupported err)
  | none => state.recordRestart

def System.step (host : Host) (s : System) : Event → Option System
  | .arrive body => some { s with handlers := s.handlers ++ [.received body] }
  | .handle i choice => do
    let h ← s.handlers[i]?
    let requests ← s.toRequests.step host i choice
    some { s with
      toRequests := requests, rewrites := s.rewrites + if h.rewrites host choice s.shared then 1 else 0 }
  | .resolve support =>
    if s.phase = .resolving then
      let result := schedulerCommandFromConfig host support s.shared.disk.file
      some { s with
        phase := .afterResolve result
        shared := { s.shared with state := s.shared.state.afterResolve result }
        resolved := s.rewrites }
    else none
  | .start result =>
    match s.phase with
    | .starting _ => some { s with phase := if result.isOk then .running else .returned }
    | _ => none
  | .signal => if s.phase.waits then some { s with phase := .returned } else none
  | .receive =>
    if s.phase.waits && s.shared.restartReqCh then
      some { s with
        phase := if s.phase = .running then .stopping else .resolving
        shared := { s.shared with restartReqCh := false }
        received := s.rewrites }
    else none
  | .childExit unsupported =>
    if s.phase = .running then
      some { s with
        phase := if unsupported.isSome then .exitedUnsupported else .restarting
        shared := { s.shared with state := s.shared.state.afterExit unsupported } }
    else none
  | .resume => if s.phase = .stopping ∨ s.phase = .restarting then some { s with phase := .resolving } else none

def daemon (host : Host) : Machine System Event where
  step := System.step host

end Gthulhu.Daemon
