/-
The interfaces the manager's services are written against
(`api/manager/domain/interface.go`): the repository, the Kubernetes adapter
and the decision maker client. `Call` is one call of one of them, and
`Call.program` is its implementation: the repository's programs, the
adapter's filter on decision maker pods (`k8s_adapter/adapter.go`), and the
client (`client/deicison_maker.go`), whose requests go to a pod's host and
port and wait for a token first.

`serve` runs a call; a service is a program over these calls, and a call that
answers with an error has failed.
-/
import Gthulhu.Manager.World

namespace Gthulhu.Manager

open Lib

/-! ## The Kubernetes adapter -/

namespace K8SAdapter

def queryPods (opt : QueryPodsOptions) : Api (List Pod) := ExceptT.mk (Prog.perform (ApiCall.listPods opt))

def queryNodesBySelectors (opt : QueryNodesOptions) : Api (List Node) :=
  ExceptT.mk (Prog.perform (ApiCall.listNodes opt))

def queryNodesByDRA (selectors : List DRASelector) : Api (List Node) :=
  ExceptT.mk (Prog.perform (ApiCall.listNodesByDRA selectors))

/-- The decision maker pods on the given nodes; on all nodes when none is given. -/
def onNodes (nodeIDs : List String) (dms : List DecisionMakerPod) : List DecisionMakerPod :=
  dms.filter fun dm => nodeIDs.isEmpty || nodeIDs.contains dm.nodeID

def queryDecisionMakerPods (opt : QueryDecisionMakerPodsOptions) : Api (List DecisionMakerPod) := do
  let dms ← ExceptT.mk (Prog.perform ApiCall.listDecisionMakerPods)
  pure (onNodes opt.nodeIDs dms)

end K8SAdapter

/-! ## The decision maker client -/

namespace Client

open DecisionMaker (Request Response)

def getToken (dm : DecisionMakerPod) : Api Unit := ExceptT.mk (Prog.perform (ApiCall.token dm))

def http (dm : DecisionMakerPod) (req : Request) : Api Response :=
  ExceptT.mk (Prog.perform (ApiCall.http dm.endpoint req))

/-- `DecisionMakerPod.String`. -/
def podText (dm : DecisionMakerPod) : String := "(" ++ dm.nodeID ++ ")" ++ dm.host ++ ":" ++ toString dm.port

/-- A request whose answer must be of status 200. -/
def requestOK (dm : DecisionMakerPod) (req : Request) (failure : String) : Api Unit := do
  match ← http dm req with
  | .failure code _ => throw (.text ("decision maker " ++ podText dm ++ failure ++ toString code))
  | _ => pure ()

/-- A root read. -/
def requestRoot (dm : DecisionMakerPod) (req : Request) : Api String := do
  match ← http dm req with
  | .failure code _ => throw (.text ("decision maker " ++ podText dm ++ " returned non-OK status: " ++ toString code))
  | .merkleRoot rootHash => pure rootHash
  | .success => throw (.text ("decision maker " ++ podText dm ++ " returned empty merkle root"))

def sendSchedulingIntent (dm : DecisionMakerPod) (intents : List ScheduleIntent) : Api Unit := do
  getToken dm
  requestOK dm (.handleIntents (intents.map ScheduleIntent.toIntent)) " returned non-OK status: "

def getIntentMerkleRoot (dm : DecisionMakerPod) : Api String := do
  getToken dm
  requestRoot dm .getIntentMerkleRoot

def deleteSchedulingIntents (dm : DecisionMakerPod) (req : DeleteIntentsRequest) : Api Unit := do
  getToken dm
  if req.all then requestOK dm (.deleteIntent "" none true) " returned non-OK status: "
  else forM req.podIDs fun podID =>
    requestOK dm (.deleteIntent podID none false) (" returned non-OK status for podID " ++ podID ++ ": ")

def sendNodeSchedulingPolicies (dm : DecisionMakerPod) (intents : List NodeSchedulingIntent) : Api Unit := do
  getToken dm
  requestOK dm (.handleNodePolicies (intents.map NodeSchedulingIntent.toNodePolicy)) " returned non-OK status: "

def getNodePolicyMerkleRoot (dm : DecisionMakerPod) : Api String := do
  getToken dm
  requestRoot dm .getNodePolicyMerkleRoot

def deleteNodeSchedulingIntents (dm : DecisionMakerPod) (req : DeleteNodeIntentsRequest) : Api Unit := do
  getToken dm
  requestOK dm (.deleteNodePolicy req.policyID req.all) " returned non-OK status: "

end Client

/-! ## Calls -/

inductive Call where
  -- Repository
  | insertStrategyAndIntents (strategy : ScheduleStrategy) (intents : List ScheduleIntent)
  | insertIntents (intents : List ScheduleIntent)
  | batchUpdateIntentsState (ids : List ObjectID) (newState : IntentState)
  | queryStrategies (opt : QueryStrategyOptions)
  | queryIntents (opt : QueryIntentOptions)
  | updateStrategy (strategy : ScheduleStrategy)
  | deleteStrategy (id : ObjectID)
  | deleteIntents (ids : List ObjectID)
  | deleteIntentsByStrategyID (id : ObjectID)
  | insertNodePolicyAndIntents (policy : NodeSchedulingPolicy) (intents : List NodeSchedulingIntent)
  | insertNodeIntents (intents : List NodeSchedulingIntent)
  | batchUpdateNodeIntentsState (ids : List ObjectID) (newState : IntentState)
  | queryNodePolicies (opt : QueryNodePolicyOptions)
  | queryNodeIntents (opt : QueryNodeIntentOptions)
  | updateNodePolicy (policy : NodeSchedulingPolicy)
  | deleteNodePolicy (id : ObjectID)
  | deleteNodeIntents (ids : List ObjectID)
  | deleteNodeIntentsByPolicyID (id : ObjectID)
  -- K8SAdapter
  | queryPods (opt : QueryPodsOptions)
  | queryDecisionMakerPods (opt : QueryDecisionMakerPodsOptions)
  | queryNodesBySelectors (opt : QueryNodesOptions)
  | queryNodesByDRA (selectors : List DRASelector)
  -- DecisionMakerAdapter
  | sendSchedulingIntent (dm : DecisionMakerPod) (intents : List ScheduleIntent)
  | getIntentMerkleRoot (dm : DecisionMakerPod)
  | deleteSchedulingIntents (dm : DecisionMakerPod) (req : DeleteIntentsRequest)
  | sendNodeSchedulingPolicies (dm : DecisionMakerPod) (intents : List NodeSchedulingIntent)
  | getNodePolicyMerkleRoot (dm : DecisionMakerPod)
  | deleteNodeSchedulingIntents (dm : DecisionMakerPod) (req : DeleteNodeIntentsRequest)
  -- The clock and the order of a range over a map
  | now
  | mapOrder

@[reducible] def Call.Result : Call → Type
  | .insertStrategyAndIntents _ _ => ScheduleStrategy × List ScheduleIntent
  | .insertIntents _ => List ScheduleIntent
  | .queryStrategies _ => List ScheduleStrategy
  | .queryIntents _ => List ScheduleIntent
  | .insertNodePolicyAndIntents _ _ => NodeSchedulingPolicy × List NodeSchedulingIntent
  | .insertNodeIntents _ => List NodeSchedulingIntent
  | .queryNodePolicies _ => List NodeSchedulingPolicy
  | .queryNodeIntents _ => List NodeSchedulingIntent
  | .queryPods _ => List Pod
  | .queryDecisionMakerPods _ => List DecisionMakerPod
  | .queryNodesBySelectors _ => List Node
  | .queryNodesByDRA _ => List Node
  | .getIntentMerkleRoot _ => String
  | .getNodePolicyMerkleRoot _ => String
  | .now => Int64
  | .mapOrder => List Nat
  | _ => Unit

@[reducible] def Call.Resp (call : Call) : Type := Except Error call.Result

/-- What a call runs. -/
def Call.program : (call : Call) → Api call.Result
  | .insertStrategyAndIntents strategy intents => Repo.insertStrategyAndIntents strategy intents
  | .insertIntents intents => Repo.insertIntents intents
  | .batchUpdateIntentsState ids newState => Repo.batchUpdateIntentsState ids newState
  | .queryStrategies opt => Repo.queryStrategies opt
  | .queryIntents opt => Repo.queryIntents opt
  | .updateStrategy strategy => Repo.updateStrategy strategy
  | .deleteStrategy id => Repo.deleteStrategy id
  | .deleteIntents ids => Repo.deleteIntents ids
  | .deleteIntentsByStrategyID id => Repo.deleteIntentsByStrategyID id
  | .insertNodePolicyAndIntents policy intents => Repo.insertNodePolicyAndIntents policy intents
  | .insertNodeIntents intents => Repo.insertNodeIntents intents
  | .batchUpdateNodeIntentsState ids newState => Repo.batchUpdateNodeIntentsState ids newState
  | .queryNodePolicies opt => Repo.queryNodePolicies opt
  | .queryNodeIntents opt => Repo.queryNodeIntents opt
  | .updateNodePolicy policy => Repo.updateNodePolicy policy
  | .deleteNodePolicy id => Repo.deleteNodePolicy id
  | .deleteNodeIntents ids => Repo.deleteNodeIntents ids
  | .deleteNodeIntentsByPolicyID id => Repo.deleteNodeIntentsByPolicyID id
  | .queryPods opt => K8SAdapter.queryPods opt
  | .queryDecisionMakerPods opt => K8SAdapter.queryDecisionMakerPods opt
  | .queryNodesBySelectors opt => K8SAdapter.queryNodesBySelectors opt
  | .queryNodesByDRA selectors => K8SAdapter.queryNodesByDRA selectors
  | .sendSchedulingIntent dm intents => Client.sendSchedulingIntent dm intents
  | .getIntentMerkleRoot dm => Client.getIntentMerkleRoot dm
  | .deleteSchedulingIntents dm req => Client.deleteSchedulingIntents dm req
  | .sendNodeSchedulingPolicies dm intents => Client.sendNodeSchedulingPolicies dm intents
  | .getNodePolicyMerkleRoot dm => Client.getNodePolicyMerkleRoot dm
  | .deleteNodeSchedulingIntents dm req => Client.deleteNodeSchedulingIntents dm req
  | .now => Api.now
  | .mapOrder => ExceptT.lift (Prog.perform ApiCall.mapOrder)

/-- A call, run. -/
def serve (go : SliceSort) (env : Nat → Choice) (call : Call) (w : World) : call.Resp × World :=
  (Prog.exec (World.respond go env) call.program.run w).2

/-- Programs over these calls: the services. -/
abbrev Svc : Type → Type := ExceptT Error (Prog Call Call.Resp)

/-- One call of a service. -/
def Svc.call (call : Call) : Svc call.Result := ExceptT.mk (Prog.perform call)

/-- `fmt.Errorf("message: %w", err)` on the error of `x`. -/
def Svc.wrapping {α : Type} (message : String) (x : Svc α) : Svc α := Prog.mapError (.wrap message) x

/-- The calls of a run. -/
abbrev Calls : Type := List (Prog.Event Call.Resp)

/-- No call of the run has failed. -/
def Clean (calls : Calls) : Prop := ∀ e ∈ calls, e.2.isOk = true

instance (calls : Calls) : Decidable (Clean calls) := inferInstanceAs (Decidable (∀ e ∈ calls, e.2.isOk = true))

/-- A service operation run in a world: the calls it made, its result and the
world it left. -/
abbrev Runs (go : SliceSort) (env : Nat → Choice) {α : Type} (op : Svc α) (w : World) (calls : Calls)
    (result : Except Error α) (w' : World) : Prop :=
  Prog.Run (serve go env) op.run w calls result w'

end Gthulhu.Manager
