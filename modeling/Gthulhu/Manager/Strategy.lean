/-
Strategies (`api/manager/service/strategy_svc.go`): a strategy selects pods,
is stored with one intent for each, and its intents are pushed to the decision
makers on the pods' nodes. Removing one has the pods it selected named to the
decision makers, best effort: what goes wrong there is logged.
-/
import Gthulhu.Manager.Delivery

namespace Gthulhu.Manager

open Lib

/-- A parsed argument, or the error it is returned with. -/
def Svc.parse {α : Type} (message : String) (parsed : Except Error α) : Svc α :=
  match parsed with
  | .ok a => pure a
  | .error err => throw (.wrap message err)

/-- The keys of a `map[string]struct{}` filled from `keys`, as a range finds them. -/
def Svc.keySet (keys : List String) : Svc (List String) := do
  let order ← Svc.call .mapOrder
  pure (reorder order keys.eraseDups)

/-- One intent for each pod, each stamped with its own time. -/
def newScheduleIntents (strategy : ScheduleStrategy) : List Pod → Svc (List ScheduleIntent)
  | [] => pure []
  | pod :: pods => do
    let time ← Svc.call .now
    let rest ← newScheduleIntents strategy pods
    pure (newScheduleIntent time strategy pod :: rest)

section

variable (go : SliceSort)

def createScheduleStrategy (operator : Claims) (strategy : ScheduleStrategy) : Svc ScheduleStrategy := do
  let operatorID ← Svc.parse ("invalid operator ID " ++ operator.uid) operator.getBsonObjectUID
  let pods ← Svc.call (.queryPods ⟨strategy.k8sNamespace, strategy.labelSelectors⟩)
  if pods.isEmpty then throw (.status 404 "no pods match the strategy criteria")
  let time ← Svc.call .now
  let strategy := { strategy with toBaseEntity := newBaseEntity time operatorID operatorID }
  let intents ← newScheduleIntents strategy pods
  let nodeIDs := (pods.map Pod.nodeID).eraseDups
  let (strategy, intents) ← Svc.wrapping "insert strategy and intents into repository"
    (Svc.call (.insertStrategyAndIntents strategy intents))
  let dms ← Svc.call (.queryDecisionMakerPods { nodeIDs := nodeIDs })
  if dms.isEmpty then return strategy
  deliver (podChannel go) dms intents "send scheduling intents to decision maker "
    "insert strategy and intents into repository"
  return strategy

/-- The decision makers on the nodes, whatever their state, are told to drop
the pods' intents. -/
def notifyDelete (nodeIDs podIDs : List String) : Svc Unit := do
  if nodeIDs.isEmpty || podIDs.isEmpty then return ()
  match ← Prog.attempt (Svc.call (.queryDecisionMakerPods { nodeIDs := nodeIDs })) with
  | .error _ => pure ()
  | .ok dmPods => forM dmPods fun dmPod => do
    let _ ← Prog.attempt (Svc.call (.deleteSchedulingIntents dmPod { podIDs := podIDs }))

/-- The nodes and pods of the intents, as sets, and the decision makers told. -/
def notifyDeleteOf (intents : List ScheduleIntent) : Svc Unit := do
  let nodeIDs ← Svc.keySet (intents.map fun intent => intent.nodeID)
  let podIDs ← Svc.keySet (intents.map fun intent => intent.podID)
  notifyDelete nodeIDs podIDs

def updateScheduleStrategy (operator : Claims) (strategyID : String) (strategy : ScheduleStrategy) : Svc Unit := do
  let strategyObjID ← Svc.parse ("invalid strategy ID " ++ strategyID) (objectIDFromHex strategyID)
  let operatorID ← Svc.parse ("invalid operator ID " ++ operator.uid) operator.getBsonObjectUID
  let existing ← Svc.call (.queryStrategies { ids := [strategyObjID], creatorIDs := [operatorID] })
  match existing with
  | [] => throw (.status 404 "strategy not found or you don't have permission to update it")
  | currentStrategy :: _ =>
    let pods ← Svc.call (.queryPods ⟨strategy.k8sNamespace, strategy.labelSelectors⟩)
    if pods.isEmpty then throw (.status 404 "no pods match the strategy criteria")
    let oldIntents ← Svc.wrapping "query intents for strategy"
      (Svc.call (.queryIntents { strategyIDs := [strategyObjID] }))
    let time ← Svc.call .now
    let strategy := { strategy with
      id := strategyObjID
      createdTime := currentStrategy.createdTime
      creatorID := currentStrategy.creatorID
      updaterID := operatorID
      updatedTime := time }
    Svc.wrapping "update strategy" (Svc.call (.updateStrategy strategy))
    Svc.wrapping "delete intents by strategy ID" (Svc.call (.deleteIntentsByStrategyID strategyObjID))
    let intents ← newScheduleIntents strategy pods
    let nodeIDs := (pods.map Pod.nodeID).eraseDups
    let intents ← Svc.wrapping "insert intents into repository" (Svc.call (.insertIntents intents))
    notifyDeleteOf oldIntents
    let dms ← Svc.call (.queryDecisionMakerPods { nodeIDs := nodeIDs })
    if dms.isEmpty then return ()
    deliver (podChannel go) dms intents "send scheduling intents to decision maker " "update intents state"

end

def deleteScheduleStrategy (operator : Claims) (strategyID : String) : Svc Unit := do
  let strategyObjID ← Svc.parse ("invalid strategy ID " ++ strategyID) (objectIDFromHex strategyID)
  let operatorID ← Svc.parse ("invalid operator ID " ++ operator.uid) operator.getBsonObjectUID
  let existing ← Svc.call (.queryStrategies { ids := [strategyObjID], creatorIDs := [operatorID] })
  if existing.isEmpty then
    throw (.status 404 "strategy not found or you don't have permission to delete it")
  let intents ← Svc.wrapping "query intents for strategy"
    (Svc.call (.queryIntents { strategyIDs := [strategyObjID] }))
  let nodeIDs ← Svc.keySet (intents.map fun intent => intent.nodeID)
  let podIDs ← Svc.keySet (intents.map fun intent => intent.podID)
  Svc.wrapping "delete intents by strategy ID" (Svc.call (.deleteIntentsByStrategyID strategyObjID))
  Svc.wrapping "delete strategy" (Svc.call (.deleteStrategy strategyObjID))
  notifyDelete nodeIDs podIDs

/-- The IDs of a request, parsed; the first that is not one fails it. -/
def parseIDs (message : String) : List String → Svc (List ObjectID)
  | [] => pure []
  | id :: ids => do
    let objID ← Svc.parse (message ++ id) (objectIDFromHex id)
    let rest ← parseIDs message ids
    pure (objID :: rest)

def deleteScheduleIntents (operator : Claims) (intentIDs : List String) : Svc Unit := do
  if intentIDs.isEmpty then return ()
  let operatorID ← Svc.parse ("invalid operator ID " ++ operator.uid) operator.getBsonObjectUID
  let intentObjIDs ← parseIDs "invalid intent ID " intentIDs
  let intents ← Svc.call (.queryIntents { ids := intentObjIDs, creatorIDs := [operatorID] })
  let denied : Error := .status 404 "one or more intents not found or you don't have permission to delete them"
  if intents.isEmpty then throw denied
  if intents.any fun intent => intent.creatorID ≠ operatorID then throw denied
  let matchedCount := (intents.filter fun intent => intentObjIDs.contains intent.id).length
  if matchedCount ≠ intentObjIDs.length then throw denied
  let nodeIDs ← Svc.keySet (intents.map fun intent => intent.nodeID)
  let podIDs ← Svc.keySet (intents.map fun intent => intent.podID)
  Svc.wrapping "delete intents" (Svc.call (.deleteIntents intentObjIDs))
  notifyDelete nodeIDs podIDs

end Gthulhu.Manager
