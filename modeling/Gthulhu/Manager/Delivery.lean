/-
How intents reach decision makers. Pod intents and node intents travel by the
same code over two sets of calls; `Channel` is such a set, with the Merkle
root the manager computes for its intents.

`deliver` is the push after a strategy or a policy has been written
(`CreateScheduleStrategy`, `UpdateScheduleStrategy`, `sendNodeIntentsToDMs`):
the intents are grouped by the host of the decision maker pods on their nodes
and each group is sent to one pod of that host, the last one listed.

`resyncDMs` is the loop of `resyncIntentsToDMs` and `resyncNodeIntentsToDMs`:
a decision maker whose root is not the one expected for its node is sent the
node's intents, or told to clear everything when there are none.
-/
import Gthulhu.Manager.Calls

namespace Gthulhu.Manager

open Lib Util DecisionMaker

/-! ## Roots -/

def scheduleIntentSortKey (intent : ScheduleIntent) : String :=
  "|".intercalate [
    intent.podName,
    intent.podID,
    intent.nodeID,
    intent.k8sNamespace,
    intent.commandRegex,
    formatInt intent.priority,
    formatInt intent.executionTime,
    ",".intercalate (sortedLabels intent.podLabels)]

def hashScheduleIntent (intent : ScheduleIntent) : String :=
  hashStringSHA256Hex ("|".intercalate [
    "podName=" ++ intent.podName,
    "podID=" ++ intent.podID,
    "nodeID=" ++ intent.nodeID,
    "k8sNamespace=" ++ intent.k8sNamespace,
    "commandRegex=" ++ intent.commandRegex,
    "priority=" ++ formatInt intent.priority,
    "executionTime=" ++ formatInt intent.executionTime,
    "podLabels=" ++ ",".intercalate (sortedLabels intent.podLabels)])

def nodeIntentSortKey (intent : NodeSchedulingIntent) : String :=
  "|".intercalate [
    intent.nodeID,
    intent.policyID.hex,
    intent.commandRegex,
    formatInt intent.priority,
    formatInt intent.executionTime]

/-- The text `hashNodeSchedulingIntent` hashes: the node comes first. -/
def serializeNodeSchedulingIntent (intent : NodeSchedulingIntent) : String :=
  "|".intercalate [
    "nodeID=" ++ intent.nodeID,
    "policyID=" ++ intent.policyID.hex,
    "commandRegex=" ++ intent.commandRegex,
    "priority=" ++ formatInt intent.priority,
    "executionTime=" ++ formatInt intent.executionTime]

def hashNodeSchedulingIntent (intent : NodeSchedulingIntent) : String :=
  hashStringSHA256Hex (serializeNodeSchedulingIntent intent)

section

variable (go : SliceSort)

/-- What the repository returns holds no nil, so there is nothing to normalize. -/
def sortScheduleIntentsByKey (intents : List ScheduleIntent) : List ScheduleIntent :=
  go.sort scheduleIntentSortKey intents

def sortNodeIntentsByKey (intents : List NodeSchedulingIntent) : List NodeSchedulingIntent :=
  go.sort nodeIntentSortKey intents

def buildScheduleIntentMerkleRoot (intents : List ScheduleIntent) : String :=
  (buildMerkleTree ((sortScheduleIntentsByKey go intents).map hashScheduleIntent)).hash

def buildNodeSchedulingIntentMerkleRoot (intents : List NodeSchedulingIntent) : String :=
  (buildMerkleTree ((sortNodeIntentsByKey go intents).map hashNodeSchedulingIntent)).hash

end

/-! ## Channels -/

/-- One of the two ways intents travel: the calls used and the root expected. -/
structure Channel (α : Type) where
  nodeID : α → String
  id : α → ObjectID
  /-- The root the manager computes over a node's intents. -/
  root : List α → String
  getRoot : DecisionMakerPod → Svc String
  clear : DecisionMakerPod → Svc Unit
  send : DecisionMakerPod → List α → Svc Unit
  markSent : List ObjectID → Svc Unit

def podChannel (go : SliceSort) : Channel ScheduleIntent where
  nodeID intent := intent.nodeID
  id intent := intent.id
  root := buildScheduleIntentMerkleRoot go
  getRoot dm := Svc.call (.getIntentMerkleRoot dm)
  clear dm := Svc.call (.deleteSchedulingIntents dm { all := true })
  send dm intents := Svc.call (.sendSchedulingIntent dm intents)
  markSent ids := Svc.call (.batchUpdateIntentsState ids .sent)

def nodeChannel (go : SliceSort) : Channel NodeSchedulingIntent where
  nodeID intent := intent.nodeID
  id intent := intent.id
  root := buildNodeSchedulingIntentMerkleRoot go
  getRoot dm := Svc.call (.getNodePolicyMerkleRoot dm)
  clear dm := Svc.call (.deleteNodeSchedulingIntents dm { all := true })
  send dm intents := Svc.call (.sendNodeSchedulingPolicies dm intents)
  markSent ids := Svc.call (.batchUpdateNodeIntentsState ids .sent)

variable {α : Type} (ch : Channel α)

/-! ## Delivery -/

/-- The three maps of the push, by host. -/
structure HostGroups (α : Type) where
  intents : StrMap (List α) := ∅
  ids : StrMap (List ObjectID) := ∅
  dms : StrMap DecisionMakerPod := ∅

/-- The body of the inner loop: an intent on the pod's node goes to its host. -/
def HostGroups.add (groups : HostGroups α) (dmPod : DecisionMakerPod) (intent : α) : HostGroups α :=
  if ch.nodeID intent = dmPod.nodeID then
    { intents := appendAt groups.intents dmPod.host intent
      ids := appendAt groups.ids dmPod.host (ch.id intent)
      dms := groups.dms.insert dmPod.host dmPod }
  else groups

def groupByHost (dms : List DecisionMakerPod) (intents : List α) : HostGroups α :=
  dms.foldl (fun groups dmPod => intents.foldl (fun groups intent => groups.add ch dmPod intent) groups) {}

/-- One host's group sent and marked. -/
def deliverGroup (groups : HostGroups α) (sendText markText : String) (host : String) (intents : List α) : Svc Unit := do
  match groups.dms.lookup host with
  | none => pure ()
  | some dmPod =>
    Svc.wrapping (sendText ++ host) (ch.send dmPod intents)
    Svc.wrapping markText (ch.markSent ((groups.ids.lookup host).getD []))

def deliver (dms : List DecisionMakerPod) (intents : List α) (sendText markText : String) : Svc Unit := do
  let groups := groupByHost ch dms intents
  let order ← Svc.call .mapOrder
  forM (reorder order groups.intents.entries) fun group =>
    deliverGroup ch groups sendText markText group.1 group.2

/-! ## Resync -/

/-- `buildExpectedIntentRootsByNode`, `buildExpectedNodeIntentRootsByNode`. -/
def expectedRootsByNode (intents : List α) : StrMap String :=
  (groupBy ch.nodeID id intents).entries.foldl (fun roots node => roots.insert node.1 (ch.root node.2)) ∅

/-- The body of the loop over decision makers. Errors are logged. -/
def resyncDM (intents : List α) (dm : DecisionMakerPod) : Svc Unit := do
  if dm.state ≠ .online then return ()
  match ← Prog.attempt (ch.getRoot dm) with
  | .error _ => pure ()
  | .ok rootHash =>
    let expected := ((expectedRootsByNode ch intents).lookup dm.nodeID).getD ""
    let expectedRoot := if expected = "" then (buildMerkleTree []).hash else expected
    if rootHash = expectedRoot then return ()
    let nodeIntents := ((groupBy ch.nodeID id intents).lookup dm.nodeID).getD []
    if nodeIntents.isEmpty then
      let _ ← Prog.attempt (ch.clear dm)
    else
      match ← Prog.attempt (ch.send dm nodeIntents) with
      | .error _ => pure ()
      | .ok () =>
        let _ ← Prog.attempt (ch.markSent (((groupBy ch.nodeID ch.id intents).lookup dm.nodeID).getD []))

def resyncDMs (dms : List DecisionMakerPod) (intents : List α) : Svc Unit :=
  forM dms (resyncDM ch intents)

end Gthulhu.Manager
