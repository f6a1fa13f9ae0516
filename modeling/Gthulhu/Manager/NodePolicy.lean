/-
Node policies (`api/manager/service/node_policy_svc.go`): a policy selects
nodes, is stored with one intent for each, and its intents are pushed to the
decision makers there. A policy is removed from a decision maker by its ID.
-/
import Gthulhu.Manager.Strategy

namespace Gthulhu.Manager

open Lib

/-- The nodes by name; of two with one name the last. -/
def nodesByName (nodes : List Node) : StrMap Node :=
  nodes.foldl (fun byName node => byName.insert node.name node) ∅

/-- `intersectNodes`; no candidates yet is `none`. -/
def intersectNodes (candidates : Option (StrMap Node)) (nodes : List Node) : StrMap Node :=
  match candidates with
  | none => nodesByName nodes
  | some candidates =>
    candidates.entries.foldl
      (fun result node => if node.1 ∈ nodesByName nodes then result.insert node.1 node.2 else result) ∅

/-- Every selector type that is given must match; without any, no node does. -/
def resolveNodesForPolicy (policy : NodeSchedulingPolicy) : Svc (List Node) := do
  if policy.nodeSelectors.isEmpty && policy.nodeNames.isEmpty && policy.draSelectors.isEmpty then return []
  let candidates ←
    if !policy.nodeSelectors.isEmpty || !policy.nodeNames.isEmpty then do
      let nodes ← Svc.wrapping "query nodes by selectors"
        (Svc.call (.queryNodesBySelectors ⟨policy.nodeSelectors, policy.nodeNames⟩))
      pure (some (intersectNodes none nodes))
    else pure none
  let candidates ←
    if !policy.draSelectors.isEmpty then do
      let nodes ← Svc.wrapping "query nodes by DRA" (Svc.call (.queryNodesByDRA policy.draSelectors))
      pure (intersectNodes candidates nodes)
    else pure (candidates.getD ∅)
  let order ← Svc.call .mapOrder
  pure ((reorder order candidates.entries).map fun node => node.2)

/-- One intent for each node, each stamped with its own time. -/
def newNodeSchedulingIntents (policy : NodeSchedulingPolicy) : List Node → Svc (List NodeSchedulingIntent)
  | [] => pure []
  | node :: nodes => do
    let time ← Svc.call .now
    let rest ← newNodeSchedulingIntents policy nodes
    pure (newNodeSchedulingIntent time policy node :: rest)

/-- The online decision makers on the intents' nodes are told to drop the
policies those intents are of. -/
def notifyDMsDeleteNodeIntents (intents : List NodeSchedulingIntent) : Svc Unit := do
  if intents.isEmpty then return ()
  let nodeIDs := (intents.map fun intent => intent.nodeID).eraseDups
  let policyIDsByNode := groupBy (fun intent => intent.nodeID) (fun intent => intent.policyID.hex) intents
  match ← Prog.attempt (Svc.call (.queryDecisionMakerPods { nodeIDs := nodeIDs })) with
  | .error _ => pure ()
  | .ok dmPods => forM dmPods fun dmPod => do
    if dmPod.state ≠ .online then return ()
    let policyIDs ← Svc.keySet ((policyIDsByNode.lookup dmPod.nodeID).getD [])
    forM policyIDs fun policyID => do
      let _ ← Prog.attempt (Svc.call (.deleteNodeSchedulingIntents dmPod { policyID := policyID }))

section

variable (go : SliceSort)

def sendNodeIntentsToDMs (intents : List NodeSchedulingIntent) : Svc Unit := do
  if intents.isEmpty then return ()
  let nodeIDs := (intents.map fun intent => intent.nodeID).eraseDups
  let dms ← Svc.call (.queryDecisionMakerPods { nodeIDs := nodeIDs })
  if dms.isEmpty then return ()
  deliver (nodeChannel go) dms intents "send node scheduling intents to decision maker " "update node intents state"

def createNodeSchedulingPolicy (operator : Claims) (policy : NodeSchedulingPolicy) : Svc NodeSchedulingPolicy := do
  let operatorID ← Svc.parse ("invalid operator ID " ++ operator.uid) operator.getBsonObjectUID
  let nodes ← resolveNodesForPolicy policy
  if nodes.isEmpty then throw (.status 404 "no nodes match the policy criteria")
  let time ← Svc.call .now
  let policy := { policy with toBaseEntity := newBaseEntity time operatorID operatorID }
  let intents ← newNodeSchedulingIntents policy nodes
  let (policy, intents) ← Svc.wrapping "insert node policy and intents into repository"
    (Svc.call (.insertNodePolicyAndIntents policy intents))
  sendNodeIntentsToDMs go intents
  return policy

def updateNodeSchedulingPolicy (operator : Claims) (policyID : String) (policy : NodeSchedulingPolicy) : Svc Unit := do
  let policyObjID ← Svc.parse ("invalid node policy ID " ++ policyID) (objectIDFromHex policyID)
  let operatorID ← Svc.parse ("invalid operator ID " ++ operator.uid) operator.getBsonObjectUID
  let existing ← Svc.call (.queryNodePolicies { ids := [policyObjID], creatorIDs := [operatorID] })
  match existing with
  | [] => throw (.status 404 "node policy not found or you don't have permission to update it")
  | currentPolicy :: _ =>
    let nodes ← resolveNodesForPolicy policy
    if nodes.isEmpty then throw (.status 404 "no nodes match the policy criteria")
    let oldIntents ← Svc.wrapping "query node intents for policy"
      (Svc.call (.queryNodeIntents { policyIDs := [policyObjID] }))
    -- The update time is left as the caller gave it.
    let policy := { policy with
      id := policyObjID
      createdTime := currentPolicy.createdTime
      creatorID := currentPolicy.creatorID
      updaterID := operatorID }
    Svc.wrapping "update node policy" (Svc.call (.updateNodePolicy policy))
    Svc.wrapping "delete node intents by policy ID" (Svc.call (.deleteNodeIntentsByPolicyID policyObjID))
    let intents ← newNodeSchedulingIntents policy nodes
    let intents ← Svc.wrapping "insert node intents into repository" (Svc.call (.insertNodeIntents intents))
    notifyDMsDeleteNodeIntents oldIntents
    sendNodeIntentsToDMs go intents

end

def deleteNodeSchedulingPolicy (operator : Claims) (policyID : String) : Svc Unit := do
  let policyObjID ← Svc.parse ("invalid node policy ID " ++ policyID) (objectIDFromHex policyID)
  let operatorID ← Svc.parse ("invalid operator ID " ++ operator.uid) operator.getBsonObjectUID
  let existing ← Svc.call (.queryNodePolicies { ids := [policyObjID], creatorIDs := [operatorID] })
  if existing.isEmpty then
    throw (.status 404 "node policy not found or you don't have permission to delete it")
  let intents ← Svc.wrapping "query node intents for policy"
    (Svc.call (.queryNodeIntents { policyIDs := [policyObjID] }))
  Svc.wrapping "delete node intents by policy ID" (Svc.call (.deleteNodeIntentsByPolicyID policyObjID))
  Svc.wrapping "delete node policy" (Svc.call (.deleteNodePolicy policyObjID))
  notifyDMsDeleteNodeIntents intents

/-- Unlike `deleteScheduleIntents`, one intent of the caller's among those
named is enough. -/
def deleteNodeSchedulingIntents (operator : Claims) (intentIDs : List String) : Svc Unit := do
  if intentIDs.isEmpty then return ()
  let operatorID ← Svc.parse ("invalid operator ID " ++ operator.uid) operator.getBsonObjectUID
  let intentObjIDs ← parseIDs "invalid node intent ID " intentIDs
  let intents ← Svc.call (.queryNodeIntents { ids := intentObjIDs, creatorIDs := [operatorID] })
  if intents.isEmpty then
    throw (.status 404 "one or more node intents not found or you don't have permission to delete them")
  Svc.wrapping "delete node intents" (Svc.call (.deleteNodeIntents intentObjIDs))
  notifyDMsDeleteNodeIntents intents

end Gthulhu.Manager
