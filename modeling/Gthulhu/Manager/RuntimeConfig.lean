/-
The way of a runtime configuration from the manager to the daemons: the
manager's service (`api/manager/service/runtime_config_svc.go`), its client
(`client/deicison_maker.go`), the decision maker's handler and service
(`api/decisionmaker/service/service.go`), and the daemon's control API behind
it. Both sides normalise and check the configuration with the same code
(`domain/runtime_config.go`, once in each module).

On the way to the daemon a flag that is off is left out of the request
(`RuntimeSchedulerConfig.toRequest`), and the daemon keeps the value it has.

The service is a program over the calls of `RuntimeCall`; `RuntimeWorld.serve`
says what they do, with the environment choosing what may fail. The reconciler
(`cron_svc.go`) applies what is stored again, with the same calls.
-/
import Gthulhu.Daemon.RuntimeConfigFacts
import Gthulhu.Manager.Calls

namespace Gthulhu.Manager

open Lib

/-! ## The configuration -/

structure RuntimeSchedulerConfig where
  configVersion : String := ""
  mode : String := ""
  schedulerName : String := ""
  sliceNsDefault : UInt64 := 0
  sliceNsMin : UInt64 := 0
  kernelMode : Bool := false
  maxTimeWatchdog : Bool := false
  earlyProcessing : Bool := false
  builtinIdle : Bool := false
  schedulerEnabled : Bool := false
  monitoringEnabled : Bool := false
  deriving DecidableEq

namespace RuntimeSchedulerConfig

/-- The trimmed mode, or the one the flag stands for. -/
def normalMode (c : RuntimeSchedulerConfig) : String :=
  if trimSpace c.mode = "" then if c.schedulerEnabled then "gthulhu" else "none" else trimSpace c.mode

def normalize (c : RuntimeSchedulerConfig) : RuntimeSchedulerConfig :=
  let trimmed := { c with mode := c.normalMode, schedulerName := trimSpace c.schedulerName }
  if c.normalMode = "none" then { trimmed with schedulerEnabled := false, schedulerName := "" }
  else if c.normalMode = "gthulhu" ∨ c.normalMode = "simple" then
    { trimmed with schedulerEnabled := true, schedulerName := "" }
  else if c.normalMode = "scx" then { trimmed with schedulerEnabled := true }
  else trimmed

def validate (c : RuntimeSchedulerConfig) : Except Error Unit :=
  if c.mode = "none" ∨ c.mode = "gthulhu" ∨ c.mode = "simple" then .ok ()
  else if c.mode = "scx" then
    if c.schedulerName = "" then .error (.text "schedulerName is required when mode is scx")
    else if '/' ∈ c.schedulerName.toList ∨ '\\' ∈ c.schedulerName.toList then
      .error (.text "schedulerName must be a binary name")
    else if !startsWith c.schedulerName "scx_" then .error (.text "schedulerName must be an scx scheduler binary")
    else .ok ()
  else .error (.text "mode must be one of none, gthulhu, simple, scx")

/-- The configuration encoded for the decision maker and decoded there. -/
def transported (c : RuntimeSchedulerConfig) : RuntimeSchedulerConfig where
  configVersion := decodeField "" (encodeField true "" c.configVersion)
  mode := decodeField "" (encodeField true "" c.mode)
  schedulerName := decodeField "" (encodeField true "" c.schedulerName)
  sliceNsDefault := decodeField 0 (encodeField true 0 c.sliceNsDefault)
  sliceNsMin := decodeField 0 (encodeField true 0 c.sliceNsMin)
  kernelMode := decodeField false (encodeField true false c.kernelMode)
  maxTimeWatchdog := decodeField false (encodeField true false c.maxTimeWatchdog)
  earlyProcessing := decodeField false (encodeField true false c.earlyProcessing)
  builtinIdle := decodeField false (encodeField true false c.builtinIdle)
  schedulerEnabled := decodeField false (encodeField false false c.schedulerEnabled)
  monitoringEnabled := decodeField false (encodeField false false c.monitoringEnabled)

/-- The configuration encoded for the daemon and decoded there: a flag that is
left out is a nil pointer. -/
def toRequest (c : RuntimeSchedulerConfig) : Daemon.RuntimeConfigRequest where
  configVersion := decodeField "" (encodeField true "" c.configVersion)
  mode := decodeField "" (encodeField true "" c.mode)
  schedulerName := decodeField "" (encodeField true "" c.schedulerName)
  sliceNsDefault := decodeField 0 (encodeField true 0 c.sliceNsDefault)
  sliceNsMin := decodeField 0 (encodeField true 0 c.sliceNsMin)
  kernelMode := encodeField true false c.kernelMode
  maxTimeWatchdog := encodeField true false c.maxTimeWatchdog
  earlyProcessing := encodeField true false c.earlyProcessing
  builtinIdle := encodeField true false c.builtinIdle
  schedulerEnabled := encodeField false false c.schedulerEnabled
  monitoringEnabled := encodeField false false c.monitoringEnabled

end RuntimeSchedulerConfig

/-! ## The decision maker -/

/-- The decision maker's `ApplyRuntimeConfig`: its answer, the configuration
it remembers, and the daemon behind it. -/
def decisionMakerApply (host : Daemon.Host) (hop : Outcome) (choice : Daemon.Choice)
    (remembered : Option RuntimeSchedulerConfig) (d : Daemon.Shared) (config : RuntimeSchedulerConfig) :
    Except Error Unit × Option RuntimeSchedulerConfig × Daemon.Shared :=
  if config.configVersion = "" then (.error (.text "configVersion is required"), remembered, d)
  else
    let config := config.normalize
    match config.validate with
    | .error err => (.error err, remembered, d)
    | .ok () =>
      let served := Daemon.handleRuntimeConfig host choice d (.ok config.toRequest)
      match hop with
      | .refused => (.error (.wrap "call daemon runtime config endpoint" .unavailable), remembered, d)
      | .lost => (.error (.wrap "call daemon runtime config endpoint" .unavailable), remembered, served.2)
      | .ok =>
        match served.1 with
        | .badRequest _ => (.error (.text "daemon runtime config endpoint returned status 400"), remembered, served.2)
        | .failed _ => (.error (.text "daemon runtime config endpoint returned status 500"), remembered, served.2)
        | .success _ =>
          if remembered.any fun c => c.configVersion = config.configVersion then (.ok (), remembered, served.2)
          else (.ok (), some config, served.2)

/-! ## Calls of the manager's service -/

structure RuntimeConfigApplyResult where
  nodeID : String
  host : String := ""
  success : Bool := false
  error : Option Error := none
  configVersion : String := ""
  desiredConfig : Option RuntimeSchedulerConfig := none
  drift : Bool := false
  deriving DecidableEq

structure NodeRuntimeConfig where
  nodeID : String
  configVersion : String
  config : RuntimeSchedulerConfig
  updatedBy : String
  updatedAt : Int64
  lastApplyResult : Option RuntimeConfigApplyResult := none
  deriving DecidableEq

/-- The collection of node configurations: no two are of one node. -/
structure NodeConfigs where
  docs : List NodeRuntimeConfig
  nodup : (docs.map NodeRuntimeConfig.nodeID).Nodup

namespace NodeConfigs

def empty : NodeConfigs := ⟨[], List.nodup_nil⟩

def find (c : NodeConfigs) (nodeID : String) : Option NodeRuntimeConfig := c.docs.find? fun doc => doc.nodeID = nodeID

theorem map_nodeID_replace (cfg : NodeRuntimeConfig) (docs : List NodeRuntimeConfig) :
    (docs.map fun doc => if doc.nodeID = cfg.nodeID then cfg else doc).map NodeRuntimeConfig.nodeID =
      docs.map NodeRuntimeConfig.nodeID := by
  rw [List.map_map]
  refine List.map_congr_left fun doc _ => ?_
  by_cases h : doc.nodeID = cfg.nodeID <;> simp [h]

/-- `ReplaceOne` by the node, with upsert. -/
def upsert (c : NodeConfigs) (cfg : NodeRuntimeConfig) : NodeConfigs :=
  if h : cfg.nodeID ∈ c.docs.map NodeRuntimeConfig.nodeID then
    ⟨c.docs.map fun doc => if doc.nodeID = cfg.nodeID then cfg else doc, by
      rw [map_nodeID_replace]; exact c.nodup⟩
  else ⟨c.docs ++ [cfg], by
    rw [List.map_append, List.map_singleton, List.nodup_append_comm]
    exact List.nodup_cons.mpr ⟨h, c.nodup⟩⟩

end NodeConfigs

inductive RuntimeCall where
  | queryDecisionMakerPods (opt : QueryDecisionMakerPodsOptions)
  | queryNodeRuntimeConfigs (nodeIDs : List String)
  | upsertNodeRuntimeConfig (cfg : NodeRuntimeConfig)
  | applyRuntimeConfig (dm : DecisionMakerPod) (config : RuntimeSchedulerConfig)
  | now
  deriving DecidableEq

@[reducible] def RuntimeCall.Result : RuntimeCall → Type
  | .queryDecisionMakerPods _ => List DecisionMakerPod
  | .queryNodeRuntimeConfigs _ => List NodeRuntimeConfig
  | .now => Int64
  | _ => Unit

@[reducible] def RuntimeCall.Resp (call : RuntimeCall) : Type := Except Error call.Result

/-- Programs over these calls. -/
abbrev RuntimeSvc : Type → Type := ExceptT Error (Prog RuntimeCall RuntimeCall.Resp)

def RuntimeSvc.call (call : RuntimeCall) : RuntimeSvc call.Result := ExceptT.mk (Prog.perform call)

/-- The manager's database, the decision makers and the daemons behind them. -/
structure RuntimeWorld where
  stored : NodeConfigs
  decisionMakers : List DecisionMakerPod
  /-- What the decision maker at each endpoint remembers. -/
  remembered : String × Nat → Option RuntimeSchedulerConfig
  /-- The daemon the decision maker at each endpoint talks to. -/
  daemonOf : String × Nat → String
  hosts : String → Daemon.Host
  daemons : String → Daemon.Shared
  tick : Nat := 0

structure RuntimeChoice where
  outcome : Outcome := .ok
  order : List Nat := []
  now : Int64 := 0
  token : Bool := true
  hop : Outcome := .ok
  daemon : Daemon.Choice := {}

namespace RuntimeWorld

/-- The daemon behind a decision maker pod. -/
def daemonKey (w : RuntimeWorld) (dm : DecisionMakerPod) : String := w.daemonOf dm.endpoint

/-- A configuration sent to a decision maker. -/
def send (w : RuntimeWorld) (choice : RuntimeChoice) (dm : DecisionMakerPod) (config : RuntimeSchedulerConfig) :
    Except Error Unit × RuntimeWorld :=
  let key := w.daemonKey dm
  let served := decisionMakerApply (w.hosts key) choice.hop choice.daemon (w.remembered dm.endpoint) (w.daemons key)
    config.transported
  let after := { w with
    remembered := Function.update w.remembered dm.endpoint served.2.1
    daemons := Function.update w.daemons key served.2.2 }
  if !choice.token then (.error .unavailable, w)
  else match choice.outcome with
  | .refused => (.error .unavailable, w)
  | .lost => (.error .unavailable, after)
  | .ok => (served.1.mapError fun _ =>
      .text ("decision maker " ++ Client.podText dm ++ " returned non-OK status: 400"), after)

def answer (choice : RuntimeChoice) (w : RuntimeWorld) : (call : RuntimeCall) → call.Resp × RuntimeWorld
  | .queryDecisionMakerPods opt =>
    (choice.outcome.read (.ok (reorder choice.order (K8SAdapter.onNodes opt.nodeIDs w.decisionMakers))), w)
  | .queryNodeRuntimeConfigs nodeIDs =>
    (choice.outcome.read (.ok (reorder choice.order
      (w.stored.docs.filter fun doc => nodeIDs.isEmpty || nodeIDs.contains doc.nodeID))), w)
  | .upsertNodeRuntimeConfig cfg =>
    let result := choice.outcome.write w.stored (.ok (), w.stored.upsert cfg)
    (result.1, { w with stored := result.2 })
  | .applyRuntimeConfig dm config => w.send choice dm config
  | .now => (.ok choice.now, w)

/-- The next call, with the choice the environment has for it. -/
def serve (env : Nat → RuntimeChoice) (call : RuntimeCall) (w : RuntimeWorld) : call.Resp × RuntimeWorld :=
  answer (env w.tick) { w with tick := w.tick + 1 } call

end RuntimeWorld

/-- A run of the service. -/
abbrev RuntimeRuns (env : Nat → RuntimeChoice) {α : Type} (op : RuntimeSvc α) (w : RuntimeWorld)
    (calls : List (Prog.Event RuntimeCall.Resp)) (result : Except Error α) (w' : RuntimeWorld) : Prop :=
  Prog.Run (RuntimeWorld.serve env) op.run w calls result w'

/-! ## The service -/

structure RuntimeConfigApplyOptions where
  nodeIDs : List String := []
  config : RuntimeSchedulerConfig
  deriving DecidableEq

section

-- Whether the service has a database for node configurations.
variable (repo : Bool) (config : RuntimeSchedulerConfig) (updatedBy : String) (now : Int64)

def persistUnreachableRuntimeConfig (nodeID errMsg : String) : RuntimeSvc RuntimeConfigApplyResult := do
  let result : RuntimeConfigApplyResult :=
    { nodeID := nodeID, error := some (.text errMsg), configVersion := config.configVersion
      desiredConfig := some config, drift := true }
  let desired : NodeRuntimeConfig :=
    { nodeID := nodeID, configVersion := config.configVersion, config := config, updatedBy := updatedBy
      updatedAt := now, lastApplyResult := some result }
  match ← Prog.attempt (RuntimeSvc.call (.upsertNodeRuntimeConfig desired)) with
  | .error err => pure { result with error := some (.wrap "persist desired runtime config" err) }
  | .ok () => pure result

def persistAll (errMsg : String) : List String → RuntimeSvc (List RuntimeConfigApplyResult)
  | [] => pure []
  | nodeID :: nodeIDs => do
    let result ← persistUnreachableRuntimeConfig config updatedBy now nodeID errMsg
    let results ← persistAll errMsg nodeIDs
    pure (result :: results)

/-- The result of a pod is stored with the desired configuration. -/
def recordResult (desired : NodeRuntimeConfig) (result : RuntimeConfigApplyResult) : RuntimeSvc Unit := do
  if repo then
    let _ ← Prog.attempt (RuntimeSvc.call (.upsertNodeRuntimeConfig { desired with lastApplyResult := some result }))

/-- What is done for a pod once its desired configuration is stored. -/
def applyToPod (dm : DecisionMakerPod) (desired : NodeRuntimeConfig) : RuntimeSvc RuntimeConfigApplyResult := do
  let result : RuntimeConfigApplyResult := { nodeID := dm.nodeID, host := dm.host }
  if dm.state ≠ .online then
    let result := { result with error := some (.text "decision maker is offline"), desiredConfig := some config }
    recordResult repo desired result
    return result
  let applied ← Prog.attempt (RuntimeSvc.call (.applyRuntimeConfig dm config))
  let result := match applied with
    | .error err => { result with error := some err }
    | .ok () => { result with success := true }
  let result := { result with configVersion := config.configVersion, desiredConfig := some config }
  recordResult repo desired result
  return result

/-- The desired configuration is stored first. -/
def persistDesired (desired : NodeRuntimeConfig) : RuntimeSvc (Except Error Unit) :=
  if repo then Prog.attempt (RuntimeSvc.call (.upsertNodeRuntimeConfig desired)) else pure (.ok ())

/-- The body of the loop over the decision maker pods. -/
def persistAndApply (dm : DecisionMakerPod) : RuntimeSvc RuntimeConfigApplyResult := do
  let desired : NodeRuntimeConfig :=
    { nodeID := dm.nodeID, configVersion := config.configVersion, config := config, updatedBy := updatedBy
      updatedAt := now }
  match ← persistDesired repo desired with
  | .error err =>
    pure { nodeID := dm.nodeID, host := dm.host, error := some (.wrap "persist desired runtime config" err) }
  | .ok () => applyToPod repo config dm desired

def applyToPods : List DecisionMakerPod → RuntimeSvc (List RuntimeConfigApplyResult)
  | [] => pure []
  | dm :: dms => do
    let result ← persistAndApply repo config updatedBy now dm
    let results ← applyToPods dms
    pure (result :: results)

end

def applyRuntimeConfig (repo : Bool) (operator : Option Claims) (opt : RuntimeConfigApplyOptions) :
    RuntimeSvc (List RuntimeConfigApplyResult) := do
  if opt.config.configVersion = "" then throw (.status 400 "configVersion is required")
  let config := opt.config.normalize
  match config.validate with
  | .error err => throw (.wrap "invalid runtime config" err)
  | .ok () =>
    let updatedBy := (operator.map Claims.uid).getD ""
    let now ← RuntimeSvc.call .now
    let dms ← RuntimeSvc.call (.queryDecisionMakerPods { nodeIDs := opt.nodeIDs })
    let undiscovered := "decision maker is not discovered"
    if dms.isEmpty then
      if repo && !opt.nodeIDs.isEmpty then persistAll config updatedBy now undiscovered opt.nodeIDs
      else throw (.status 404 "no decision maker pods found")
    else
      let results ← applyToPods repo config updatedBy now dms
      let unseen := opt.nodeIDs.filter fun nodeID => !dms.any fun dm => dm.nodeID = nodeID
      if repo then
        let more ← persistAll config updatedBy now undiscovered unseen
        pure (results ++ more)
      else pure results

/-! ## The reconciler -/

/-- The pod that `dmByNode` has for a node: the last one listed. -/
def dmByNode (dms : List DecisionMakerPod) (nodeID : String) : Option DecisionMakerPod :=
  (dms.foldl (fun m dm => m.insert dm.nodeID dm) (∅ : StrMap DecisionMakerPod)).lookup nodeID

/-- The body of the loop over the stored configurations. -/
def resyncRuntimeConfig (dms : List DecisionMakerPod) (desired : NodeRuntimeConfig) : RuntimeSvc Unit := do
  match dmByNode dms desired.nodeID with
  | none => pure ()
  | some dm =>
    if dm.state ≠ .online then return
    let applied ← Prog.attempt (RuntimeSvc.call (.applyRuntimeConfig dm desired.config))
    let result : RuntimeConfigApplyResult :=
      { nodeID := dm.nodeID, host := dm.host, configVersion := desired.configVersion }
    let result := match applied with
      | .error err => { result with error := some err }
      | .ok () => { result with success := true }
    let _ ← Prog.attempt (RuntimeSvc.call (.upsertNodeRuntimeConfig { desired with lastApplyResult := some result }))

def resyncRuntimeConfigsToDMs (repo : Bool) : RuntimeSvc Unit := do
  if !repo then return
  let configs ← Prog.mapError (.wrap "query node runtime configs") (RuntimeSvc.call (.queryNodeRuntimeConfigs []))
  if configs.isEmpty then return
  let dms ← Prog.mapError (.wrap "query decision maker pods") (RuntimeSvc.call (.queryDecisionMakerPods {}))
  forM configs (resyncRuntimeConfig dms)

end Gthulhu.Manager
