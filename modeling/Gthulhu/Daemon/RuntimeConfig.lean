/-
The daemon's control API (`internal/daemon/daemon.go`, `http_adapter.go`,
`state.go`): a runtime configuration request is checked against the version
applied last, merged into the configuration file, and followed by a restart
request to the supervisor; the status endpoint reads the file back through a
cache keyed by its modification time.

No lock is held across a request, so a request is a sequence of atomic steps,
`Handler.step`: the version check, the load (with the merge and the checks on
it), the rename, the update of the control state, and the send on the restart
channel. `handleRuntimeConfig` is the request served with no other in between
(`handleRuntimeConfig_eq_steps`).
-/
import Gthulhu.Daemon.Config

namespace Gthulhu.Daemon

open Lib

/-! ## The request -/

/-- A field that is `none`, zero or the empty text keeps the value in the file. -/
structure RuntimeConfigRequest where
  configVersion : String := ""
  mode : String := ""
  schedulerName : String := ""
  sliceNsDefault : UInt64 := 0
  sliceNsMin : UInt64 := 0
  kernelMode : Option Bool := none
  maxTimeWatchdog : Option Bool := none
  earlyProcessing : Option Bool := none
  builtinIdle : Option Bool := none
  schedulerEnabled : Option Bool := none
  monitoringEnabled : Option Bool := none
  deriving DecidableEq

/-- The part of the configuration a request can change. -/
structure Settings where
  mode : String
  schedulerName : String
  sliceNsDefault : UInt64
  sliceNsMin : UInt64
  kernelMode : Bool
  maxTimeWatchdog : Bool
  earlyProcessing : Bool
  builtinIdle : Bool
  monitoringEnabled : Bool
  deriving DecidableEq

def Config.settings (c : Config) : Settings where
  mode := c.scheduler.mode
  schedulerName := c.scheduler.schedulerName
  sliceNsDefault := c.scheduler.sliceNsDefault
  sliceNsMin := c.scheduler.sliceNsMin
  kernelMode := c.scheduler.kernelMode
  maxTimeWatchdog := c.scheduler.maxTimeWatchdog
  earlyProcessing := c.earlyProcessing
  builtinIdle := c.builtinIdle
  monitoringEnabled := c.monitor.enabled

def Config.withSettings (c : Config) (s : Settings) : Config :=
  { c with
    scheduler :=
      { sliceNsDefault := s.sliceNsDefault, sliceNsMin := s.sliceNsMin, mode := s.mode
        schedulerName := s.schedulerName, kernelMode := s.kernelMode, maxTimeWatchdog := s.maxTimeWatchdog }
    monitor := { c.monitor with enabled := s.monitoringEnabled }
    earlyProcessing := s.earlyProcessing
    builtinIdle := s.builtinIdle }

/-- The mode after a request: its own, else the current one, else the one
`SchedulerEnabled` stands for. -/
def RuntimeConfigRequest.modeOver (req : RuntimeConfigRequest) (mode : String) : String :=
  let mode := if req.mode ≠ "" then req.mode else mode
  match req.schedulerEnabled with
  | some enabled => if mode = "" then if enabled then "gthulhu" else "none" else mode
  | none => mode

/-- The settings after a request. -/
def RuntimeConfigRequest.over (req : RuntimeConfigRequest) (s : Settings) : Settings where
  mode := req.modeOver s.mode
  schedulerName := if req.schedulerName ≠ "" then req.schedulerName else s.schedulerName
  sliceNsDefault := if req.sliceNsDefault ≠ 0 then req.sliceNsDefault else s.sliceNsDefault
  sliceNsMin := if req.sliceNsMin ≠ 0 then req.sliceNsMin else s.sliceNsMin
  kernelMode := req.kernelMode.getD s.kernelMode
  maxTimeWatchdog := req.maxTimeWatchdog.getD s.maxTimeWatchdog
  earlyProcessing := req.earlyProcessing.getD s.earlyProcessing
  builtinIdle := req.builtinIdle.getD s.builtinIdle
  monitoringEnabled := req.monitoringEnabled.getD s.monitoringEnabled

/-! ## Checks -/

inductive Error where
  /-- `load current runtime config: %w` -/
  | loadCurrent (err : ConfigError)
  /-- `schedulerName is required when mode is scx` -/
  | nameRequired
  /-- `schedulerName must be a binary name, got %q` -/
  | notBinaryName (name : String)
  /-- `schedulerName %q is not in the allowed scx scheduler list` -/
  | notAllowed (name : String)
  /-- `unsupported scheduler mode %q` -/
  | unsupportedMode (mode : String)
  /-- `scheduler binary path %q is outside the allowed directory` -/
  | outsideDirectory (name : String)
  /-- `scheduler binary not found: %s` -/
  | binaryNotFound (path : String)
  /-- `stat scheduler binary %s: %w` -/
  | binaryStat (path err : String)
  /-- `scheduler binary path is a directory: %s` -/
  | binaryIsDirectory (path : String)
  /-- `scheduler binary is not executable: %s` -/
  | binaryNotExecutable (path : String)
  /-- `write runtime config: %w` -/
  | write (err : String)
  /-- `sched_ext is unsupported on this kernel: ...` -/
  | unsupported (err : String)
  /-- `scheduler child exited because sched_ext is unsupported by this kernel: %v` -/
  | childUnsupported (err : String)
  deriving DecidableEq

def allowedSCXSchedulers : List String :=
  ["scx_beerland", "scx_bpfland", "scx_cake", "scx_chaos", "scx_cosmos", "scx_flash", "scx_lavd", "scx_layered",
   "scx_mitosis", "scx_p2dq", "scx_pandemonium", "scx_rlfifo", "scx_rustland", "scx_rusty", "scx_tickless",
   "scx_timely", "scx_wd40"]

def validateScheduler (mode schedulerName : String) : Except Error Unit :=
  let mode := if trimSpace mode = "" then "gthulhu" else trimSpace mode
  if mode = "none" ∨ mode = "gthulhu" ∨ mode = "simple" then .ok ()
  else if mode = "scx" then
    let name := trimSpace schedulerName
    if name = "" then .error .nameRequired
    else if base name ≠ name ∨ '/' ∈ name.toList then .error (.notBinaryName schedulerName)
    else if name ∉ allowedSCXSchedulers then .error (.notAllowed name)
    else .ok ()
  else .error (.unsupportedMode mode)

/-- What `os.Stat` says of a path. -/
inductive FileInfo where
  | notExist
  | failed (err : String)
  | directory
  | file (executable : Bool)
  deriving DecidableEq

/-- What the daemon was started with, and the file system around it. -/
structure Host where
  runtimeConfigPath : String
  schedulerBinPath : String
  stat : String → FileInfo

def ensureExecutable (host : Host) (path : String) : Except Error Unit :=
  match host.stat path with
  | .notExist => .error (.binaryNotFound path)
  | .failed err => .error (.binaryStat path err)
  | .directory => .error (.binaryIsDirectory path)
  | .file executable => if executable then .ok () else .error (.binaryNotExecutable path)

def ensureExecutableInDir (host : Host) (directory name : String) : Except Error String := do
  let cleanDir := clean directory
  let cleanPath := clean (joinPath cleanDir name)
  if !startsWith cleanPath (cleanDir ++ "/") then throw (.outsideDirectory name)
  ensureExecutable host cleanPath
  pure cleanPath

/-! ## Applying a request to the file -/

/-- What is to be done to the file once it has been loaded. -/
inductive Plan where
  | keep
  | write (c : Config)
  deriving DecidableEq

/-- The file is written when a setting differs from the previous one. -/
def Config.planFor (c : Config) (next : Settings) : Plan :=
  if next = c.settings then .keep else .write (c.withSettings next)

/-- `applyRuntimeConfigToFile` up to the write. -/
def planRuntimeConfig (host : Host) (req : RuntimeConfigRequest) (file : File) : Except Error Plan := do
  let cfg ← (loadConfig host.runtimeConfigPath file).mapError .loadCurrent
  let next := req.over cfg.settings
  validateScheduler next.mode next.schedulerName
  if next.mode = "scx" then
    let _ ← ensureExecutableInDir host (dir host.schedulerBinPath) next.schedulerName
  pure (cfg.planFor next)

/-- The file with its modification time, and the time the next write will be
stamped with. -/
structure Disk where
  file : File
  mtime : Int
  clock : Int

/-- What the environment decides for one request: how a write ends, the time
of day, and the time stamp of the write after it. -/
structure Choice where
  write : Except String Unit := .ok ()
  now : Int64 := 0
  clock : Int := 0

def Disk.write (disk : Disk) (host : Host) (choice : Choice) (c : Config) : Except String Unit × Disk :=
  match writeConfigFile choice.write host.runtimeConfigPath c disk.file with
  | (.ok (), file) => (.ok (), { file := file, mtime := disk.clock, clock := choice.clock })
  | (.error err, file) => (.error err, { disk with file := file })

/-- Whether the request changed anything, with the error if there is one. -/
def applyRuntimeConfigToFile (host : Host) (choice : Choice) (req : RuntimeConfigRequest) (disk : Disk) :
    (Bool × Option Error) × Disk :=
  match planRuntimeConfig host req disk.file with
  | .error err => ((false, some err), disk)
  | .ok .keep => ((false, none), disk)
  | .ok (.write c) =>
    match disk.write host choice c with
    | (.ok (), disk) => ((true, none), disk)
    | (.error err, disk) => ((true, some (.write err)), disk)

/-! ## The control state -/

structure CurrentConfig extends Settings where
  schedulerEnabled : Bool
  deriving DecidableEq

def Config.current (c : Config) : CurrentConfig := { c.settings with schedulerEnabled := c.isSchedulerEnabled }

structure ControlState where
  configVersion : String
  applied : Bool
  appliedAt : Option Int64 := none
  restartCount : Nat := 0
  lastError : Option Error := none
  /-- The configuration last read, with the file's modification time. -/
  cached : Option (CurrentConfig × Int) := none
  deriving DecidableEq

namespace ControlState

/-- The state of a daemon that has just started. -/
def bootstrap : ControlState := { configVersion := "bootstrap", applied := false }

def set (s : ControlState) (now : Int64) (version : String) (applied : Bool) : ControlState :=
  let s := { s with configVersion := version, applied := applied }
  if applied then { s with appliedAt := some now, lastError := none } else s

def recordError (s : ControlState) (err : Error) : ControlState := { s with lastError := some err }

def recordRestart (s : ControlState) : ControlState := { s with restartCount := s.restartCount + 1 }

def readCurrentConfig (host : Host) (disk : Disk) (s : ControlState) : Option CurrentConfig × ControlState :=
  if host.runtimeConfigPath = "" ∨ disk.file = .missing then (none, s)
  else
    match s.cached.filter fun entry => entry.2 = disk.mtime with
    | some entry => (some entry.1, s)
    | none =>
      match loadConfig host.runtimeConfigPath disk.file with
      | .error _ => (none, s)
      | .ok c => (some c.current, { s with cached := some (c.current, disk.mtime) })

end ControlState

/-- `detailedStatus`: the configuration is there when it is available. -/
structure DetailedStatus where
  configVersion : String
  applied : Bool
  appliedAt : Option Int64
  restartCount : Nat
  lastError : Option Error
  config : Option CurrentConfig
  deriving DecidableEq

/-! ## Serving requests -/

/-- What the goroutines of the daemon share: the file, the control state, and
the restart channel, which holds one token at most. -/
structure Shared where
  disk : Disk
  state : ControlState
  restartReqCh : Bool := false

/-- `handleStatus`. -/
def Shared.handleStatus (host : Host) (d : Shared) : DetailedStatus × Shared :=
  let read := d.state.readCurrentConfig host d.disk
  ({ configVersion := d.state.configVersion
     applied := d.state.applied
     appliedAt := d.state.appliedAt
     restartCount := d.state.restartCount
     lastError := d.state.lastError
     config := read.1 }, { d with state := read.2 })

inductive Response where
  /-- 200 -/
  | success (noop : Bool)
  /-- 400 -/
  | badRequest (err : String)
  /-- 500 -/
  | failed (err : Error)
  deriving DecidableEq

def Response.isSuccess : Response → Bool
  | .success _ => true
  | _ => false

/-- `h.state.applied && h.state.configVersion == req.ConfigVersion`. -/
def ControlState.sameVersion (s : ControlState) (req : RuntimeConfigRequest) : Bool :=
  s.applied && s.configVersion = req.configVersion

/-- How far a request has come. -/
inductive Handler where
  /-- The body, or why it could not be read or decoded. -/
  | received (body : Except String RuntimeConfigRequest)
  | loading (req : RuntimeConfigRequest)
  | writing (req : RuntimeConfigRequest) (c : Config)
  | updating (req : RuntimeConfigRequest) (changed : Bool)
  | sending (req : RuntimeConfigRequest)
  | failing (err : Error)
  | responded (response : Response)
  deriving DecidableEq

/-- The next atomic step of a request. -/
def Handler.step (host : Host) (choice : Choice) (d : Shared) : Handler → Handler × Shared
  | .received (.error err) => (.responded (.badRequest err), d)
  | .received (.ok req) =>
    if req.configVersion = "" then (.responded (.badRequest "configVersion is required"), d)
    else if d.state.sameVersion req then (.responded (.success true), d)
    else (.loading req, d)
  | .loading req =>
    match planRuntimeConfig host req d.disk.file with
    | .error err => (.failing err, d)
    | .ok .keep => (.updating req false, d)
    | .ok (.write c) => (.writing req c, d)
  | .writing req c =>
    match d.disk.write host choice c with
    | (.ok (), disk) => (.updating req true, { d with disk := disk })
    | (.error err, disk) => (.failing (.write err), { d with disk := disk })
  | .updating req changed =>
    (if changed then .sending req else .responded (.success true),
      { d with state := d.state.set choice.now req.configVersion true })
  -- The send gives up when the channel is full.
  | .sending _ => (.responded (.success false), { d with restartReqCh := true })
  | .failing err => (.responded (.failed err), { d with state := d.state.recordError err })
  | .responded r => (.responded r, d)

/-- `handleRuntimeConfig` on a POST, with no other request in between. -/
def handleRuntimeConfig (host : Host) (choice : Choice) (d : Shared) (body : Except String RuntimeConfigRequest) :
    Response × Shared :=
  match body with
  | .error err => (.badRequest err, d)
  | .ok req =>
    if req.configVersion = "" then (.badRequest "configVersion is required", d)
    else if d.state.sameVersion req then (.success true, d)
    else
      let ((changed, err), disk) := applyRuntimeConfigToFile host choice req d.disk
      match err with
      | some err => (.failed err, { d with disk := disk, state := d.state.recordError err })
      | none =>
        (.success !changed,
          { disk := disk
            state := d.state.set choice.now req.configVersion true
            restartReqCh := d.restartReqCh || changed })

/-- A request alone takes its steps one after the other. -/
theorem handleRuntimeConfig_eq_steps (host : Host) (choice : Choice) (d : Shared)
    (body : Except String RuntimeConfigRequest) :
    (fun p : Handler × Shared => p.1.step host choice p.2)^[5] (.received body, d) =
      (.responded (handleRuntimeConfig host choice d body).1, (handleRuntimeConfig host choice d body).2) := by
  simp only [Function.iterate_succ, Function.iterate_zero, Function.comp_apply, id_eq]
  cases body with
  | error err => rfl
  | ok req =>
    by_cases hversion : req.configVersion = ""
    · simp [Handler.step, handleRuntimeConfig, hversion]
    by_cases hsame : d.state.sameVersion req = true
    · simp [Handler.step, handleRuntimeConfig, hversion, hsame]
    cases hplan : planRuntimeConfig host req d.disk.file with
    | error err => simp [Handler.step, handleRuntimeConfig, applyRuntimeConfigToFile, hversion, hsame, hplan]
    | ok plan =>
      cases plan with
      | keep => simp [Handler.step, handleRuntimeConfig, applyRuntimeConfigToFile, hversion, hsame, hplan]
      | write c =>
        obtain ⟨result, disk, hw⟩ : ∃ result disk, d.disk.write host choice c = (result, disk) := ⟨_, _, rfl⟩
        cases result <;>
          simp [Handler.step, handleRuntimeConfig, applyRuntimeConfigToFile, hversion, hsame, hplan, hw]

end Gthulhu.Daemon
