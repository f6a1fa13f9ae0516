/-
The decision maker's two caches and the requests that change them
(`api/decisionmaker/service`, `api/decisionmaker/rest`): the pod intents and
the node policies the manager pushed, each with the Merkle tree kept over it.

A push replaces a cache, whatever it held. A delete names a pod, or a policy,
or everything. Every change rebuilds the tree. A fresh service has no tree at
all: the intents' tree is then built on the first read
(`refreshIntentMerkleTreeIfNeeded`), the node policies' is not, and their root
reads as the empty text. `ServiceFacts` says what this keeps.

Left out: the resolved scheduling intents and the metric targets, which no
function here reads.
-/
import Gthulhu.Util.Merkle
import Gthulhu.Lib.GoRuntime
import Mathlib.Data.Finmap
import Mathlib.Data.Multiset.Sort

namespace Gthulhu.DecisionMaker

open Lib Util

/-! ## Intents and policies -/

/-- A Go `map[string]string`. -/
abbrev Labels : Type := Finmap fun _ : String => String

structure Intent where
  podName : String
  podID : String
  nodeID : String
  k8sNamespace : String
  commandRegex : String
  priority : Int64
  executionTime : Int64
  podLabels : Labels
  deriving DecidableEq

structure NodePolicy where
  policyID : String
  nodeID : String
  commandRegex : String
  priority : Int64
  executionTime : Int64
  deriving DecidableEq

/-- `strconv.Itoa`, `strconv.FormatInt` in base 10. -/
def formatInt (n : Int64) : String := toString n.toInt

/-- `key=value`. -/
def labelText (label : (_ : String) × String) : String := label.1 ++ "=" ++ label.2

/-- The labels' texts, sorted: the order a range over the map comes in is gone. -/
def sortedLabels (podLabels : Labels) : List String := (podLabels.entries.map labelText).sort (· ≤ ·)

def sortedKeys (labels : Labels) : List String := labels.keys.val.sort (· ≤ ·)

/-- The text `hashIntent` hashes. -/
def serializeIntent (intent : Intent) : String :=
  "|".intercalate [
    "podName=" ++ intent.podName,
    "podID=" ++ intent.podID,
    "nodeID=" ++ intent.nodeID,
    "k8sNamespace=" ++ intent.k8sNamespace,
    "commandRegex=" ++ intent.commandRegex,
    "priority=" ++ formatInt intent.priority,
    "executionTime=" ++ formatInt intent.executionTime,
    "podLabels=" ++ ",".intercalate (sortedLabels intent.podLabels)]

def hashIntent (intent : Intent) : String := hashStringSHA256Hex (serializeIntent intent)

def intentSortKey (intent : Intent) : String :=
  "|".intercalate [
    intent.podName,
    intent.podID,
    intent.nodeID,
    intent.k8sNamespace,
    intent.commandRegex,
    formatInt intent.priority,
    formatInt intent.executionTime,
    ",".intercalate (sortedLabels intent.podLabels)]

/-- The text `hashNodePolicy` hashes. -/
def serializeNodePolicy (policy : NodePolicy) : String :=
  "|".intercalate [
    "policyID=" ++ policy.policyID,
    "nodeID=" ++ policy.nodeID,
    "commandRegex=" ++ policy.commandRegex,
    "priority=" ++ formatInt policy.priority,
    "executionTime=" ++ formatInt policy.executionTime]

def hashNodePolicy (policy : NodePolicy) : String := hashStringSHA256Hex (serializeNodePolicy policy)

def nodePolicySortKey (policy : NodePolicy) : String :=
  "|".intercalate [
    policy.policyID,
    policy.nodeID,
    policy.commandRegex,
    formatInt policy.priority,
    formatInt policy.executionTime]

/-- `normalizeIntentInputs`, `normalizeNodePolicyInputs`: nil pointers dropped. -/
def normalizeInputs {α : Type} (inputs : List (Option α)) : List α := inputs.filterMap id

/-! ## The service -/

/-- The fields under `intentCacheMu` and `nodePolicyCacheMu`. What is stored is
normalized, so the caches hold no nil. -/
structure Service where
  intentCache : List Intent := []
  intentMerkleRoot : Option MerkleNode := none
  intentMerkleRootHash : String := ""
  nodePolicyCache : List NodePolicy := []
  nodePolicyMerkleRoot : Option MerkleNode := none
  nodePolicyMerkleRootHash : String := ""
  deriving DecidableEq

section

variable (go : SliceSort)

def sortIntentsByKey (intents : List Intent) : List Intent := go.sort intentSortKey intents

def sortNodePoliciesByKey (policies : List NodePolicy) : List NodePolicy := go.sort nodePolicySortKey policies

/-- The tree over a list of intents, as every function below builds it. -/
def intentTree (intents : List Intent) : MerkleNode :=
  buildMerkleTree ((sortIntentsByKey go intents).map hashIntent)

def nodePolicyTree (policies : List NodePolicy) : MerkleNode :=
  buildMerkleTree ((sortNodePoliciesByKey go policies).map hashNodePolicy)

/-- `ProcessIntents`, with the outcome of its scan of `/proc`. -/
def processIntents (scan : Except String Unit) (intents : List (Option Intent)) (svc : Service) :
    Except String Unit × Service :=
  match scan with
  | .error err => (.error err, svc)
  | .ok () =>
    let root := intentTree go (normalizeInputs intents)
    (.ok (), { svc with
      intentCache := normalizeInputs intents
      intentMerkleRoot := some root
      intentMerkleRootHash := root.hash })

def refreshIntentMerkleTreeIfNeeded (svc : Service) : Service :=
  match svc.intentMerkleRoot with
  | some _ => svc
  | none =>
    let root := intentTree go svc.intentCache
    { svc with intentMerkleRoot := some root, intentMerkleRootHash := root.hash }

def rebuildIntentMerkleTreeLocked (svc : Service) : Service :=
  let root := intentTree go svc.intentCache
  { svc with intentMerkleRoot := some root, intentMerkleRootHash := root.hash }

def deleteIntentByPodID (podID : String) (svc : Service) : Service :=
  rebuildIntentMerkleTreeLocked go
    { svc with intentCache := svc.intentCache.filter fun intent => intent.podID ≠ podID }

def deleteAllIntents (svc : Service) : Service :=
  rebuildIntentMerkleTreeLocked go { svc with intentCache := [] }

/-- `TraverseIntentMerkleTree`: the tree from the node with hash `rootHash`
(from the root when empty), cut at `depth`. -/
def traverseIntentMerkleTree (rootHash : String) (depth : Int64) (svc : Service) : Option MerkleNode × Service :=
  let svc := refreshIntentMerkleTreeIfNeeded go svc
  let root := if rootHash ≠ "" then svc.intentMerkleRoot.bind (findMerkleNode · rootHash) else svc.intentMerkleRoot
  (root.map (truncateMerkleTree · depth), svc)

def processNodePolicies (policies : List (Option NodePolicy)) (svc : Service) : Service :=
  let root := nodePolicyTree go (normalizeInputs policies)
  { svc with
    nodePolicyCache := normalizeInputs policies
    nodePolicyMerkleRoot := some root
    nodePolicyMerkleRootHash := root.hash }

def rebuildNodePolicyMerkleRootLocked (svc : Service) : Service :=
  let root := nodePolicyTree go svc.nodePolicyCache
  { svc with nodePolicyMerkleRoot := some root, nodePolicyMerkleRootHash := root.hash }

def deleteNodePolicyByID (policyID : String) (svc : Service) : Service :=
  rebuildNodePolicyMerkleRootLocked go
    { svc with nodePolicyCache := svc.nodePolicyCache.filter fun policy => policy.policyID ≠ policyID }

def deleteAllNodePolicies (svc : Service) : Service :=
  rebuildNodePolicyMerkleRootLocked go { svc with nodePolicyCache := [] }

def getNodePolicyMerkleRootHash (svc : Service) : String := svc.nodePolicyMerkleRootHash

/-! ## Requests -/

/-- The requests the manager's client makes, bodies decoded. -/
inductive Request where
  | handleIntents (intents : List Intent)
  | deleteIntent (podID : String) (pid : Option Int) (all : Bool)
  | getIntentMerkleRoot
  | handleNodePolicies (policies : List NodePolicy)
  | deleteNodePolicy (policyID : String) (all : Bool)
  | getNodePolicyMerkleRoot
  deriving DecidableEq

inductive Response where
  | success
  | merkleRoot (rootHash : String)
  | failure (status : Nat) (message : String)
  deriving DecidableEq

/-- The handlers of `rest/intent_handler.go` and `rest/node_policy_hdl.go`. -/
def handle (scan : Except String Unit) : Request → Service → Response × Service
  | .handleIntents intents, svc =>
    match processIntents go scan (intents.map some) svc with
    | (.error _, svc) => (.failure 500 "Failed to process intents", svc)
    | (.ok (), svc) => (.success, svc)
  | .deleteIntent podID pid all, svc =>
    if all then (.success, deleteAllIntents go svc)
    else if podID = "" then (.failure 400 "PodID is required when 'all' is false", svc)
    else
      match pid with
      -- `DeleteIntentByPID` touches the resolved intents only, not the cache.
      | some _ => (.success, svc)
      | none => (.success, deleteIntentByPodID go podID svc)
  | .getIntentMerkleRoot, svc =>
    let (root, svc) := traverseIntentMerkleTree go "" 0 svc
    (.merkleRoot ((root.map MerkleNode.hash).getD ""), svc)
  | .handleNodePolicies policies, svc => (.success, processNodePolicies go (policies.map some) svc)
  | .deleteNodePolicy policyID all, svc =>
    if all then (.success, deleteAllNodePolicies go svc)
    else if policyID ≠ "" then (.success, deleteNodePolicyByID go policyID svc)
    else (.failure 400 "policyId is required when 'all' is false", svc)
  | .getNodePolicyMerkleRoot, svc => (.merkleRoot (getNodePolicyMerkleRootHash svc), svc)

end

end Gthulhu.DecisionMaker
