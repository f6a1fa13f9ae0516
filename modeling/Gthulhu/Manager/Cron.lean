/-
The reconciliation the manager runs from time to time
(`api/manager/service/cron_svc.go`): intents of pods that are gone are
removed and pods without one get theirs, the same for node policies and
nodes, and every online decision maker whose Merkle root is not the expected
one is sent its node's intents anew. Errors inside are logged and the loop
goes on.
-/
import Gthulhu.Manager.NodePolicy

namespace Gthulhu.Manager

open Lib

/-- The online decision makers on the nodes are told to drop the pods' intents. -/
def notifyDMsDeleteIntents (nodeIDs podIDs : List String) : Svc Unit := do
  if nodeIDs.isEmpty || podIDs.isEmpty then return ()
  let nodeIDs ← Svc.keySet nodeIDs
  match ← Prog.attempt (Svc.call (.queryDecisionMakerPods { nodeIDs := nodeIDs })) with
  | .error _ => pure ()
  | .ok dmPods => forM dmPods fun dmPod => do
    if dmPod.state ≠ .online then return ()
    let _ ← Prog.attempt (Svc.call (.deleteSchedulingIntents dmPod { podIDs := podIDs }))

/-- The intents whose pod is not among the current ones. -/
def staleIntents (currentPods : List Pod) (intents : List ScheduleIntent) : List ScheduleIntent :=
  intents.filter fun intent => !currentPods.any fun pod => pod.podID = intent.podID

/-- The end of `refreshStrategy`: the pods without an intent get one. -/
def addIntents (strategy : ScheduleStrategy) (newPods : List Pod) : Svc Unit := do
  let newIntents ← newScheduleIntents strategy newPods
  if !newIntents.isEmpty then
    let _ ← Prog.attempt (Svc.call (.insertIntents newIntents))

/-- The body of `refreshStaleIntents`: one strategy. -/
def refreshStrategy (strategy : ScheduleStrategy) : Svc Unit := do
  match ← Prog.attempt (Svc.call (.queryPods ⟨strategy.k8sNamespace, strategy.labelSelectors⟩)) with
  | .error _ => pure ()
  | .ok currentPods =>
    match ← Prog.attempt (Svc.call (.queryIntents { strategyIDs := [strategy.id] })) with
    | .error _ => pure ()
    | .ok intents =>
      let stale := staleIntents currentPods intents
      if !stale.isEmpty then
        let _ ← Prog.attempt (Svc.call (.deleteIntents (stale.map fun intent => intent.id)))
        notifyDMsDeleteIntents (stale.map fun intent => intent.nodeID) (stale.map fun intent => intent.podID)
      addIntents strategy (currentPods.filter fun pod => !intents.any fun intent => intent.podID = pod.podID)

def refreshStaleIntents : Svc Unit := do
  let strategies ← Svc.wrapping "query strategies" (Svc.call (.queryStrategies {}))
  forM strategies refreshStrategy

/-- The node intents whose node is not among the current ones. -/
def staleNodeIntents (currentNodes : List Node) (intents : List NodeSchedulingIntent) : List NodeSchedulingIntent :=
  intents.filter fun intent => !currentNodes.any fun node => node.name = intent.nodeID

section

variable (go : SliceSort)

/-- The end of `refreshNodePolicy`: the nodes without an intent get one, and
the decision makers are told. -/
def addNodeIntents (policy : NodeSchedulingPolicy) (newNodes : List Node) : Svc Unit := do
  let newIntents ← newNodeSchedulingIntents policy newNodes
  if !newIntents.isEmpty then
    match ← Prog.attempt (Svc.call (.insertNodeIntents newIntents)) with
    | .error _ => pure ()
    | .ok newIntents =>
      let _ ← Prog.attempt (sendNodeIntentsToDMs go newIntents)

/-- The body of `refreshStaleNodeIntents`: one policy. -/
def refreshNodePolicy (policy : NodeSchedulingPolicy) : Svc Unit := do
  match ← Prog.attempt (resolveNodesForPolicy policy) with
  | .error _ => pure ()
  | .ok currentNodes =>
    match ← Prog.attempt (Svc.call (.queryNodeIntents { policyIDs := [policy.id] })) with
    | .error _ => pure ()
    | .ok intents =>
      let stale := staleNodeIntents currentNodes intents
      if !stale.isEmpty then
        let _ ← Prog.attempt (Svc.call (.deleteNodeIntents (stale.map fun intent => intent.id)))
        notifyDMsDeleteNodeIntents stale
      addNodeIntents go policy (currentNodes.filter fun node => !intents.any fun intent => intent.nodeID = node.name)

def refreshStaleNodeIntents : Svc Unit := do
  let policies ← Svc.wrapping "query node policies" (Svc.call (.queryNodePolicies {}))
  forM policies (refreshNodePolicy go)

def resyncIntentsToDMs : Svc Unit := do
  let dms ← Svc.call (.queryDecisionMakerPods {})
  if dms.isEmpty then return ()
  let intents ← Svc.call (.queryIntents {})
  resyncDMs (podChannel go) dms intents

/-- Unlike `resyncIntentsToDMs`, the store is asked first, and a store without
node intents ends the run before any decision maker is looked at. -/
def resyncNodeIntentsToDMs : Svc Unit := do
  let intents ← Svc.call (.queryNodeIntents {})
  if intents.isEmpty then return ()
  let dms ← Svc.call (.queryDecisionMakerPods {})
  if dms.isEmpty then return ()
  resyncDMs (nodeChannel go) dms intents

end

end Gthulhu.Manager
