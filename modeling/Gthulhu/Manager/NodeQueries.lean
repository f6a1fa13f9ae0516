/-
The node queries of the Kubernetes adapter (`api/manager/k8s_adapter/adapter.go`)
on a cluster of nodes with labels and of ResourceSlices.

`QueryNodesBySelectors` asks the API server with a selector text and filters
the answer by name. `QueryNodesByDRA` reads the slices, which come without a
schema, and keeps the nodes that publish one some selector matches. What the
server makes of a text is given by `LabelRules`: a text made of keys and
values of labels asks for just those labels, and nothing is said of any other.
-/
import Gthulhu.Lib.Unstructured
import Gthulhu.Manager.NodePolicy

namespace Gthulhu.Manager

open Lib
open DecisionMaker (Labels)

/-! ## Label selectors -/

namespace LabelSelector

variable (sel : LabelSelector)

/-- A selector without a value asks for the label to be there. -/
def text : String := if sel.value = "" then sel.key else sel.key ++ "=" ++ sel.value

def admits (labels : Labels) : Bool :=
  match labels.lookup sel.key with
  | none => false
  | some value => sel.value = "" || value = sel.value

end LabelSelector

/-- Labels and selector texts, as the API server takes them. -/
structure LabelRules where
  isKey : String → Bool
  isValue : String → Bool
  isValue_empty : isValue "" = true
  /-- What a text selects; `none` is a text that is refused. -/
  select : String → Option (Labels → Bool)
  select_text : ∀ sels : List LabelSelector, (∀ sel ∈ sels, isKey sel.key = true ∧ isValue sel.value = true) →
    select (",".intercalate (sels.map LabelSelector.text)) = some fun labels => sels.all fun sel => sel.admits labels

/-- `fmt.Sprintf("%v", v)`, as far as it is used. -/
structure SprintV where
  text : Value → String
  str : ∀ s, text (.str s) = s
  int64 : ∀ n, text (.int64 n) = toString n.toInt
  bool : ∀ b, text (.bool b) = toString b

/-! ## The cluster -/

structure KubeNode where
  name : String
  labels : Labels

/-- A device attribute: one of four fields is set. -/
inductive DeviceAttribute where
  | string (s : String)
  | int (n : Int64)
  | bool (b : Bool)
  | version (s : String)

/-- `Device`, by the attributes under `basic`. -/
structure Device where
  attributes : List (String × DeviceAttribute)

/-- A ResourceSlice; no node name is the empty one. -/
structure ResourceSlice where
  nodeName : String
  driver : String
  devices : List Device

/-- A cluster. Nodes have names of their own, and labels that the server takes. -/
structure Kube (rules : LabelRules) where
  nodes : List KubeNode
  slices : List ResourceSlice
  nodup : (nodes.map KubeNode.name).Nodup
  named : ∀ node ∈ nodes, node.name ≠ ""
  labelled : ∀ node ∈ nodes, ∀ key value, node.labels.lookup key = some value →
    rules.isKey key = true ∧ rules.isValue value = true

def DeviceAttribute.toValue : DeviceAttribute → Value
  | .string s => .map [("string", .str s)]
  | .int n => .map [("int", .int64 n)]
  | .bool b => .map [("bool", .bool b)]
  | .version s => .map [("version", .str s)]

def Device.toValue (device : Device) : Value :=
  .map [("basic", .map [("attributes", .map (device.attributes.map fun attr => (attr.1, attr.2.toValue)))])]

/-- The object as the dynamic client returns it; an empty name is left out. -/
def ResourceSlice.toUnstructured (slice : ResourceSlice) : Unstructured where
  object := [("spec", .map ((if slice.nodeName = "" then [] else [("nodeName", .str slice.nodeName)]) ++
    [("driver", .str slice.driver), ("devices", .list (slice.devices.map Device.toValue))]))]

/-! ## The adapter -/

namespace K8SAdapter

def buildLabelSelector (selectors : List LabelSelector) : String :=
  ",".intercalate (selectors.filterMap fun selector =>
    if selector.key = "" then none
    else if selector.value = "" then some selector.key
    else some (selector.key ++ "=" ++ selector.value))

def getUnstructuredStr (obj : Fields) (fields : List String) : String :=
  match nestedField (.map obj) fields with
  | .ok (some (.str s)) => s
  | _ => ""

section

variable (fmt : SprintV)

def attributeValueToString (raw : Value) : String :=
  match raw with
  | .map m =>
    match ["string", "int", "bool", "version"].findSome? fun key => m.lookup key with
    | some v => fmt.text v
    | none => ""
  | _ => fmt.text raw

def deviceAttributesMatch (attrs : Fields) (wanted : List LabelSelector) : Bool :=
  wanted.all fun sel =>
    match attrs.lookup sel.key with
    | none => false
    | some raw => sel.value = "" || attributeValueToString fmt raw = sel.value

/-- The device class is the driver; the attributes have to be those of one device. -/
def resourceSliceMatchesSelector (slice : Unstructured) (selector : DRASelector) : Bool :=
  if selector.deviceClass ≠ "" && getUnstructuredStr slice.object ["spec", "driver"] ≠ selector.deviceClass then false
  else if selector.attributes.isEmpty then true
  else
    match nestedField (.map slice.object) ["spec", "devices"] with
    | .ok (some (.list devices)) => devices.any fun d =>
      match d with
      | .map device =>
        match nestedField (.map device) ["basic", "attributes"] with
        | .ok (some (.map attrs)) => deviceAttributesMatch fmt attrs selector.attributes
        | _ => false
      | _ => false
    | _ => false

end

end K8SAdapter

/-- `nodeToDomain`, without the labels and the status, which the service does not read. -/
def nodeToDomain (node : KubeNode) : Node := ⟨node.name⟩

namespace Kube

open K8SAdapter (resourceSliceMatchesSelector getUnstructuredStr)

variable {rules : LabelRules} (kube : Kube rules) (fmt : SprintV)

def queryNodesBySelectors (opt : QueryNodesOptions) : Except Error (List Node) :=
  match rules.select (K8SAdapter.buildLabelSelector opt.nodeSelectors) with
  | none => .error (.wrap "list nodes" (.text "unable to parse requirement"))
  | some selects =>
    .ok (((kube.nodes.filter fun node => selects node.labels).filter fun node =>
      opt.nodeNames.isEmpty || opt.nodeNames.contains node.name).map nodeToDomain)

/-- The names under which a matching slice is published. -/
def matchedNodeNames (selectors : List DRASelector) : List String :=
  (kube.slices.filterMap fun slice =>
    if selectors.any fun selector => resourceSliceMatchesSelector fmt slice.toUnstructured selector then
      some (getUnstructuredStr slice.toUnstructured.object ["spec", "nodeName"])
    else none).filter fun nodeName => nodeName ≠ ""

def queryNodesByDRA (selectors : List DRASelector) : List Node :=
  if selectors.isEmpty || (kube.matchedNodeNames fmt selectors).isEmpty then []
  else (kube.nodes.filter fun node => (kube.matchedNodeNames fmt selectors).contains node.name).map nodeToDomain

/-- The adapter's answers, every list request being answered, and an order for ranges over maps. -/
def serve (order : List Nat) : (call : Call) → Unit → call.Resp × Unit
  | .queryNodesBySelectors opt, _ => (kube.queryNodesBySelectors opt, ())
  | .queryNodesByDRA selectors, _ => (.ok (kube.queryNodesByDRA fmt selectors), ())
  | .mapOrder, _ => (.ok order, ())
  -- no other call is made for the nodes of a policy
  | _, _ => (.error .unavailable, ())

/-- The nodes of a policy, as the service finds them. -/
def resolve (order : List Nat) (policy : NodeSchedulingPolicy) : Except Error (List Node) :=
  (Prog.result (kube.serve fmt order) (resolveNodesForPolicy policy).run ()).1

end Kube

end Gthulhu.Manager
