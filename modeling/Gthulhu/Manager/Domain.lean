/-
The manager's records (`api/manager/domain`): strategies and the intents made
of them for each matching pod, node policies and their intents for each
matching node, and what the manager knows of pods, nodes and decision makers.

An intent goes to a decision maker without its bookkeeping:
`ScheduleIntent.toIntent` and `NodeSchedulingIntent.toNodePolicy` are what the
client puts in the request, and what a cache is compared with.
-/
import Gthulhu.DecisionMaker.Service

namespace Gthulhu.Manager

open Lib
open DecisionMaker (Labels Intent NodePolicy)

/-! ## Object IDs -/

/-- `bson.ObjectID`. -/
structure ObjectID where
  bytes : List UInt8
  length_bytes : bytes.length = 12
  deriving DecidableEq

namespace ObjectID

def zero : ObjectID := ⟨List.replicate 12 0, rfl⟩

theorem length_replicate (n : UInt8) : (List.replicate 12 n).length = 12 := List.length_replicate

def isZero (id : ObjectID) : Bool := id = zero

def hex (id : ObjectID) : String := hexEncode id.bytes

theorem hex_injective : Function.Injective hex := fun ⟨_, _⟩ ⟨_, _⟩ h => by
  cases hexEncode_injective h
  rfl

end ObjectID

/-- The errors the services return, with the texts they are given. -/
inductive Error where
  | notFound (name : String)
  | alreadyExists (name : String)
  | unavailable
  | invalidHex (text : String)
  | status (code : Nat) (message : String)
  | text (message : String)
  | wrap (message : String) (err : Error)
  | rollback (message : String) (err : Error) (failed : List String)
  deriving DecidableEq, Repr

/-- `k8serrors.IsNotFound`. -/
def Error.isNotFound : Error → Bool
  | .notFound _ => true
  | .wrap _ err => err.isNotFound
  | _ => false

/-- `bson.ObjectIDFromHex`. -/
def objectIDFromHex (s : String) : Except Error ObjectID :=
  match hexDecode s with
  | none => .error (.invalidHex s)
  | some bytes => if h : bytes.length = 12 then .ok ⟨bytes, h⟩ else .error (.invalidHex s)

theorem objectIDFromHex_hex (id : ObjectID) : objectIDFromHex id.hex = .ok id := by
  obtain ⟨bytes, hlength⟩ := id
  simp [objectIDFromHex, ObjectID.hex, hlength]

/-! ## Stored records -/

/-- The fields every stored record has. A deletion time is never set. -/
structure BaseEntity where
  id : ObjectID := .zero
  createdTime : Int64 := 0
  updatedTime : Int64 := 0
  creatorID : ObjectID := .zero
  updaterID : ObjectID := .zero
  deriving DecidableEq

/-- `NewBaseEntity`, at the time it is called. -/
def newBaseEntity (now : Int64) (creatorID updaterID : ObjectID) : BaseEntity where
  createdTime := now
  updatedTime := now
  creatorID := creatorID
  updaterID := updaterID

structure LabelSelector where
  key : String
  value : String
  deriving DecidableEq

/-- An `int8`; the code uses three values of it. -/
structure IntentState where
  value : Int8
  deriving DecidableEq

namespace IntentState

def unknown : IntentState := ⟨0⟩
def initialized : IntentState := ⟨1⟩
def sent : IntentState := ⟨2⟩

/-- `strconv.Itoa(int(state))`. -/
def itoa (state : IntentState) : String := toString state.value.toInt

end IntentState

structure ScheduleStrategy extends BaseEntity where
  strategyNamespace : String := ""
  labelSelectors : List LabelSelector := []
  k8sNamespace : List String := []
  commandRegex : String := ""
  priority : Int64 := 0
  executionTime : Int64 := 0
  deriving DecidableEq

structure ScheduleIntent extends BaseEntity where
  strategyID : ObjectID
  podID : String
  podName : String
  nodeID : String
  k8sNamespace : String
  commandRegex : String
  priority : Int64
  executionTime : Int64
  podLabels : Labels
  state : IntentState
  deriving DecidableEq

structure DRASelector where
  deviceClass : String
  attributes : List LabelSelector
  deriving DecidableEq

structure NodeSchedulingPolicy extends BaseEntity where
  nodeSelectors : List LabelSelector := []
  nodeNames : List String := []
  draSelectors : List DRASelector := []
  commandRegex : String := ""
  priority : Int64 := 0
  executionTime : Int64 := 0
  deriving DecidableEq

structure NodeSchedulingIntent extends BaseEntity where
  policyID : ObjectID
  nodeID : String
  commandRegex : String
  priority : Int64
  executionTime : Int64
  state : IntentState
  deriving DecidableEq

/-- The intent of `SendSchedulingIntent`'s request. -/
def ScheduleIntent.toIntent (intent : ScheduleIntent) : Intent where
  podName := intent.podName
  podID := intent.podID
  nodeID := intent.nodeID
  k8sNamespace := intent.k8sNamespace
  commandRegex := intent.commandRegex
  priority := intent.priority
  executionTime := intent.executionTime
  podLabels := intent.podLabels

/-- The policy of `SendNodeSchedulingPolicies`'s request. -/
def NodeSchedulingIntent.toNodePolicy (intent : NodeSchedulingIntent) : NodePolicy where
  policyID := intent.policyID.hex
  nodeID := intent.nodeID
  commandRegex := intent.commandRegex
  priority := intent.priority
  executionTime := intent.executionTime

/-! ## Pods, nodes, decision makers -/

/-- A pod, as far as an intent takes it over. -/
structure Pod where
  name : String
  k8sNamespace : String
  labels : Labels
  podID : String
  nodeID : String
  deriving DecidableEq

/-- A node; only its name is used. -/
structure Node where
  name : String
  deriving DecidableEq

inductive NodeState where
  | unknown
  | online
  | offline
  deriving DecidableEq

structure DecisionMakerPod where
  nodeID : String
  port : Nat
  host : String
  state : NodeState
  deriving DecidableEq

/-- Where a decision maker pod is reached: `scheme://host:port`. -/
def DecisionMakerPod.endpoint (dm : DecisionMakerPod) : String × Nat := (dm.host, dm.port)

def newScheduleIntent (now : Int64) (strategy : ScheduleStrategy) (pod : Pod) : ScheduleIntent where
  toBaseEntity := newBaseEntity now strategy.creatorID strategy.updaterID
  strategyID := strategy.id
  podID := pod.podID
  nodeID := pod.nodeID
  k8sNamespace := pod.k8sNamespace
  commandRegex := strategy.commandRegex
  priority := strategy.priority
  executionTime := strategy.executionTime
  podLabels := pod.labels
  state := .initialized
  podName := pod.name

def newNodeSchedulingIntent (now : Int64) (policy : NodeSchedulingPolicy) (node : Node) : NodeSchedulingIntent where
  toBaseEntity := newBaseEntity now policy.creatorID policy.updaterID
  policyID := policy.id
  nodeID := node.name
  commandRegex := policy.commandRegex
  priority := policy.priority
  executionTime := policy.executionTime
  state := .initialized

/-- The caller of a service operation. -/
structure Claims where
  uid : String
  deriving DecidableEq

def Claims.getBsonObjectUID (c : Claims) : Except Error ObjectID := objectIDFromHex c.uid

/-! ## Options and requests -/

structure QueryStrategyOptions where
  ids : List ObjectID := []
  k8sNamespaces : List String := []
  creatorIDs : List ObjectID := []
  deriving DecidableEq

structure QueryIntentOptions where
  ids : List ObjectID := []
  k8sNamespaces : List String := []
  strategyIDs : List ObjectID := []
  states : List IntentState := []
  podIDs : List String := []
  creatorIDs : List ObjectID := []
  deriving DecidableEq

structure QueryNodePolicyOptions where
  ids : List ObjectID := []
  creatorIDs : List ObjectID := []
  deriving DecidableEq

structure QueryNodeIntentOptions where
  ids : List ObjectID := []
  policyIDs : List ObjectID := []
  nodeIDs : List String := []
  states : List IntentState := []
  creatorIDs : List ObjectID := []
  deriving DecidableEq

structure QueryPodsOptions where
  k8sNamespace : List String
  labelSelectors : List LabelSelector
  deriving DecidableEq

/-- The label and namespaces asked for are the same in every call here. -/
structure QueryDecisionMakerPodsOptions where
  nodeIDs : List String := []
  deriving DecidableEq

structure QueryNodesOptions where
  nodeSelectors : List LabelSelector
  nodeNames : List String
  deriving DecidableEq

structure DeleteIntentsRequest where
  podIDs : List String := []
  all : Bool := false
  deriving DecidableEq

structure DeleteNodeIntentsRequest where
  policyID : String := ""
  all : Bool := false
  deriving DecidableEq

end Gthulhu.Manager
