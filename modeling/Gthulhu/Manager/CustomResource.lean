/-
Records as custom resources (the conversion helpers of
`api/manager/repository/cr_strategy_repo.go`, `cr_node_policy_repo.go` and
`cr_psm_repo.go`): what is written to the API server for a record, and what is
read back.

A resource is named by its record's ID. Its labels repeat some of its fields,
as texts, for the queries; the fields themselves are all in the spec.
Converting a record and reading it back gives the record
(**`unstructured_roundTrip`**).
-/
import Gthulhu.Lib.Unstructured
import Gthulhu.Manager.Repository
import Mathlib.Data.Finset.Sort

namespace Gthulhu.Manager

open Lib List
open DecisionMaker (Labels sortedKeys)

/-! ## Fields -/

def getStr (m : Fields) (key : String) : String :=
  match m.lookup key with
  | some (.str s) => s
  | _ => ""

/-- A Go `int` does not come out of a decoder, and has no value here. -/
def getInt64 (m : Fields) (key : String) : Int64 :=
  match m.lookup key with
  | some (.int64 n) => n
  | some (.float64 n) => n
  | _ => 0

def getBool (m : Fields) (key : String) : Bool :=
  match m.lookup key with
  | some (.bool b) => b
  | _ => false

def parseObjectIDField (m : Fields) (key : String) : Except Error ObjectID :=
  match m.lookup key with
  | none => .error (.text ("missing field " ++ key))
  | some (.str value) =>
    if value = "" then .error (.text ("field " ++ key ++ " is empty")) else objectIDFromHex value
  | some _ => .error (.text ("field " ++ key ++ " is not a string"))

/-- The items of a list field that are of the right type. -/
def getList {α : Type} (m : Fields) (key : String) (item : Value → Option α) : List α :=
  match m.lookup key with
  | some (.list items) => items.filterMap item
  | _ => []

/-- A map field. -/
def getMap (m : Fields) (key : String) : Option Fields :=
  match m.lookup key with
  | some (.map fields) => some fields
  | _ => none

def asString : Value → Option String
  | .str s => some s
  | _ => none

def labelSelectorValue (ls : LabelSelector) : Value := .map [("key", .str ls.key), ("value", .str ls.value)]

def asLabelSelector : Value → Option LabelSelector
  | .map m => some ⟨getStr m "key", getStr m "value"⟩
  | _ => none

def draSelectorValue (dra : DRASelector) : Value :=
  .map [("deviceClass", .str dra.deviceClass), ("attributes", .list (dra.attributes.map labelSelectorValue))]

def asDRASelector : Value → Option DRASelector
  | .map m => some ⟨getStr m "deviceClass", getList m "attributes" asLabelSelector⟩
  | _ => none

/-- A range over the labels; the order of the fields is that of the keys. -/
def podLabelFields (labels : Labels) : Fields :=
  (sortedKeys labels).filterMap fun key => (labels.lookup key).map fun value => (key, .str value)

/-- The texts of a map, put into another. -/
def addPodLabel (labels : Labels) (field : String × Value) : Labels :=
  match field.2 with
  | .str s => labels.insert field.1 s
  | _ => labels

def asPodLabels (m : Fields) : Labels := m.foldl addPodLabel ∅

/-! ## Resources -/

/-- The object of a resource. -/
def customResource (kind name crNamespace : String) (labels : List (String × String)) (spec : Fields) : Unstructured where
  object := [
    ("apiVersion", .str "gthulhu.io/v1alpha1"),
    ("kind", .str kind),
    ("metadata", .map [
      ("name", .str name),
      ("namespace", .str crNamespace),
      ("labels", .map (Unstructured.labelValues labels))]),
    ("spec", .map spec)]

/-- The spec of a resource, `text` being the resource in the error's text. -/
def readSpec (text : String) (obj : Unstructured) : Except Error Fields :=
  match nestedMap obj.object "spec" with
  | .ok (some spec) => .ok spec
  | _ => .error (.text ("spec not found in " ++ text ++ " CR " ++ obj.getName))

/-- The ID that a resource is named by. -/
def readName (text : String) (obj : Unstructured) : Except Error ObjectID :=
  match objectIDFromHex obj.getName with
  | .ok id => .ok id
  | .error err => .error (.wrap ("invalid " ++ text ++ " CR name " ++ obj.getName) err)

/-- An ID in the spec. -/
def readID (text : String) (obj : Unstructured) (spec : Fields) (key : String) : Except Error ObjectID :=
  match parseObjectIDField spec key with
  | .ok id => .ok id
  | .error err => .error (.wrap ("invalid " ++ key ++ " in " ++ text ++ " CR " ++ obj.getName) err)

def ScheduleStrategy.spec (s : ScheduleStrategy) : Fields := [
  ("strategyNamespace", .str s.strategyNamespace),
  ("labelSelectors", .list (s.labelSelectors.map labelSelectorValue)),
  ("k8sNamespaces", .list (s.k8sNamespace.map .str)),
  ("commandRegex", .str s.commandRegex),
  ("priority", .int64 s.priority),
  ("executionTime", .int64 s.executionTime),
  ("creatorID", .str s.creatorID.hex),
  ("updaterID", .str s.updaterID.hex),
  ("createdTime", .int64 s.createdTime),
  ("updatedTime", .int64 s.updatedTime)]

def domainStrategyToUnstructured (s : ScheduleStrategy) (crNamespace : String) : Unstructured :=
  customResource "SchedulingStrategy" s.id.hex crNamespace (Kind.strategy.labels s) s.spec

def unstructuredToDomainStrategy (obj : Unstructured) : Except Error ScheduleStrategy := do
  let spec ← readSpec "strategy" obj
  let id ← readName "strategy" obj
  let creatorID ← readID "strategy" obj spec "creatorID"
  let updaterID ← readID "strategy" obj spec "updaterID"
  return {
    id := id
    createdTime := getInt64 spec "createdTime"
    updatedTime := getInt64 spec "updatedTime"
    creatorID := creatorID
    updaterID := updaterID
    strategyNamespace := getStr spec "strategyNamespace"
    labelSelectors := getList spec "labelSelectors" asLabelSelector
    k8sNamespace := getList spec "k8sNamespaces" asString
    commandRegex := getStr spec "commandRegex"
    priority := getInt64 spec "priority"
    executionTime := getInt64 spec "executionTime" }

def ScheduleIntent.spec (intent : ScheduleIntent) : Fields := [
  ("strategyID", .str intent.strategyID.hex),
  ("podID", .str intent.podID),
  ("podName", .str intent.podName),
  ("nodeID", .str intent.nodeID),
  ("k8sNamespace", .str intent.k8sNamespace),
  ("commandRegex", .str intent.commandRegex),
  ("priority", .int64 intent.priority),
  ("executionTime", .int64 intent.executionTime),
  ("podLabels", .map (podLabelFields intent.podLabels)),
  ("state", .int64 intent.state.value.toInt64),
  ("creatorID", .str intent.creatorID.hex),
  ("updaterID", .str intent.updaterID.hex),
  ("createdTime", .int64 intent.createdTime),
  ("updatedTime", .int64 intent.updatedTime)]

def domainIntentToUnstructured (intent : ScheduleIntent) (crNamespace : String) : Unstructured :=
  customResource "SchedulingIntent" intent.id.hex crNamespace (Kind.intent.labels intent) intent.spec

def unstructuredToDomainIntent (obj : Unstructured) : Except Error ScheduleIntent := do
  let spec ← readSpec "intent" obj
  let id ← readName "intent" obj
  let creatorID ← readID "intent" obj spec "creatorID"
  let updaterID ← readID "intent" obj spec "updaterID"
  let strategyID ← readID "intent" obj spec "strategyID"
  return {
    id := id
    createdTime := getInt64 spec "createdTime"
    updatedTime := getInt64 spec "updatedTime"
    creatorID := creatorID
    updaterID := updaterID
    strategyID := strategyID
    podID := getStr spec "podID"
    podName := getStr spec "podName"
    nodeID := getStr spec "nodeID"
    k8sNamespace := getStr spec "k8sNamespace"
    commandRegex := getStr spec "commandRegex"
    priority := getInt64 spec "priority"
    executionTime := getInt64 spec "executionTime"
    podLabels := ((getMap spec "podLabels").map asPodLabels).getD ∅
    state := ⟨(getInt64 spec "state").toInt8⟩ }

def NodeSchedulingPolicy.spec (p : NodeSchedulingPolicy) : Fields := [
  ("nodeSelectors", .list (p.nodeSelectors.map labelSelectorValue)),
  ("nodeNames", .list (p.nodeNames.map .str)),
  ("draSelectors", .list (p.draSelectors.map draSelectorValue)),
  ("commandRegex", .str p.commandRegex),
  ("priority", .int64 p.priority),
  ("executionTime", .int64 p.executionTime),
  ("creatorID", .str p.creatorID.hex),
  ("updaterID", .str p.updaterID.hex),
  ("createdTime", .int64 p.createdTime),
  ("updatedTime", .int64 p.updatedTime)]

def domainNodePolicyToUnstructured (p : NodeSchedulingPolicy) (crNamespace : String) : Unstructured :=
  customResource "NodeSchedulingPolicy" p.id.hex crNamespace (Kind.nodePolicy.labels p) p.spec

def unstructuredToDomainNodePolicy (obj : Unstructured) : Except Error NodeSchedulingPolicy := do
  let spec ← readSpec "node policy" obj
  let id ← readName "node policy" obj
  let creatorID ← readID "node policy" obj spec "creatorID"
  let updaterID ← readID "node policy" obj spec "updaterID"
  return {
    id := id
    createdTime := getInt64 spec "createdTime"
    updatedTime := getInt64 spec "updatedTime"
    creatorID := creatorID
    updaterID := updaterID
    nodeSelectors := getList spec "nodeSelectors" asLabelSelector
    nodeNames := getList spec "nodeNames" asString
    draSelectors := getList spec "draSelectors" asDRASelector
    commandRegex := getStr spec "commandRegex"
    priority := getInt64 spec "priority"
    executionTime := getInt64 spec "executionTime" }

def NodeSchedulingIntent.spec (intent : NodeSchedulingIntent) : Fields := [
  ("policyID", .str intent.policyID.hex),
  ("nodeID", .str intent.nodeID),
  ("commandRegex", .str intent.commandRegex),
  ("priority", .int64 intent.priority),
  ("executionTime", .int64 intent.executionTime),
  ("state", .int64 intent.state.value.toInt64),
  ("creatorID", .str intent.creatorID.hex),
  ("updaterID", .str intent.updaterID.hex),
  ("createdTime", .int64 intent.createdTime),
  ("updatedTime", .int64 intent.updatedTime)]

def domainNodeIntentToUnstructured (intent : NodeSchedulingIntent) (crNamespace : String) : Unstructured :=
  customResource "NodeSchedulingIntent" intent.id.hex crNamespace (Kind.nodeIntent.labels intent) intent.spec

def unstructuredToDomainNodeIntent (obj : Unstructured) : Except Error NodeSchedulingIntent := do
  let spec ← readSpec "node intent" obj
  let id ← readName "node intent" obj
  let creatorID ← readID "node intent" obj spec "creatorID"
  let updaterID ← readID "node intent" obj spec "updaterID"
  let policyID ← readID "node intent" obj spec "policyID"
  return {
    id := id
    createdTime := getInt64 spec "createdTime"
    updatedTime := getInt64 spec "updatedTime"
    creatorID := creatorID
    updaterID := updaterID
    policyID := policyID
    nodeID := getStr spec "nodeID"
    commandRegex := getStr spec "commandRegex"
    priority := getInt64 spec "priority"
    executionTime := getInt64 spec "executionTime"
    state := ⟨(getInt64 spec "state").toInt8⟩ }

/-! ## Pod scheduling metrics -/

structure PSMMetrics where
  voluntaryCtxSwitches : Bool
  involuntaryCtxSwitches : Bool
  cpuTimeNs : Bool
  waitTimeNs : Bool
  runCount : Bool
  cpuMigrations : Bool
  deriving DecidableEq

structure PSMScaleTargetRef where
  apiVersion : String
  kind : String
  name : String
  deriving DecidableEq

structure PSMScaling where
  enabled : Bool
  metricName : String
  targetValue : String
  scaleTargetRef : Option PSMScaleTargetRef
  minReplicaCount : Int32
  maxReplicaCount : Int32
  cooldownPeriod : Int32
  deriving DecidableEq

structure PodSchedulingMetrics extends BaseEntity where
  labelSelectors : List LabelSelector
  k8sNamespaces : List String
  commandRegex : String
  collectionIntervalSeconds : Int32
  enabled : Bool
  metrics : Option PSMMetrics
  scaling : Option PSMScaling
  deriving DecidableEq

def PSMMetrics.fields (metrics : PSMMetrics) : Fields := [
  ("voluntaryCtxSwitches", .bool metrics.voluntaryCtxSwitches),
  ("involuntaryCtxSwitches", .bool metrics.involuntaryCtxSwitches),
  ("cpuTimeNs", .bool metrics.cpuTimeNs),
  ("waitTimeNs", .bool metrics.waitTimeNs),
  ("runCount", .bool metrics.runCount),
  ("cpuMigrations", .bool metrics.cpuMigrations)]

def PSMMetrics.ofFields (m : Fields) : PSMMetrics where
  voluntaryCtxSwitches := getBool m "voluntaryCtxSwitches"
  involuntaryCtxSwitches := getBool m "involuntaryCtxSwitches"
  cpuTimeNs := getBool m "cpuTimeNs"
  waitTimeNs := getBool m "waitTimeNs"
  runCount := getBool m "runCount"
  cpuMigrations := getBool m "cpuMigrations"

def PSMScaleTargetRef.fields (ref : PSMScaleTargetRef) : Fields :=
  [("apiVersion", .str ref.apiVersion), ("kind", .str ref.kind), ("name", .str ref.name)]

def PSMScaleTargetRef.ofFields (m : Fields) : PSMScaleTargetRef where
  apiVersion := getStr m "apiVersion"
  kind := getStr m "kind"
  name := getStr m "name"

/-- A field that is only set for a value that is there. -/
def optionalField (key : String) (fields : Option Fields) : Fields :=
  (fields.map fun m => (key, Value.map m)).toList

def PSMScaling.fields (scaling : PSMScaling) : Fields := [
  ("enabled", .bool scaling.enabled),
  ("metricName", .str scaling.metricName),
  ("targetValue", .str scaling.targetValue),
  ("minReplicaCount", .int64 scaling.minReplicaCount.toInt64),
  ("maxReplicaCount", .int64 scaling.maxReplicaCount.toInt64),
  ("cooldownPeriod", .int64 scaling.cooldownPeriod.toInt64)] ++
  optionalField "scaleTargetRef" (scaling.scaleTargetRef.map PSMScaleTargetRef.fields)

def PSMScaling.ofFields (m : Fields) : PSMScaling where
  enabled := getBool m "enabled"
  metricName := getStr m "metricName"
  targetValue := getStr m "targetValue"
  scaleTargetRef := (getMap m "scaleTargetRef").map PSMScaleTargetRef.ofFields
  minReplicaCount := (getInt64 m "minReplicaCount").toInt32
  maxReplicaCount := (getInt64 m "maxReplicaCount").toInt32
  cooldownPeriod := (getInt64 m "cooldownPeriod").toInt32

def PodSchedulingMetrics.spec (psm : PodSchedulingMetrics) : Fields := [
  ("labelSelectors", .list (psm.labelSelectors.map labelSelectorValue)),
  ("k8sNamespaces", .list (psm.k8sNamespaces.map .str)),
  ("commandRegex", .str psm.commandRegex),
  ("collectionIntervalSeconds", .int64 psm.collectionIntervalSeconds.toInt64),
  ("enabled", .bool psm.enabled),
  ("creatorID", .str psm.creatorID.hex),
  ("updaterID", .str psm.updaterID.hex),
  ("createdTime", .int64 psm.createdTime),
  ("updatedTime", .int64 psm.updatedTime)] ++
  optionalField "metrics" (psm.metrics.map PSMMetrics.fields) ++
  optionalField "scaling" (psm.scaling.map PSMScaling.fields)

def domainPSMToUnstructured (psm : PodSchedulingMetrics) (crNamespace : String) : Unstructured :=
  customResource "PodSchedulingMetrics" psm.id.hex crNamespace [(labelCreatorID, psm.creatorID.hex)] psm.spec

/-- An ID that cannot be read is left zero. -/
def readOptionalID (m : Fields) (key : String) : ObjectID :=
  match parseObjectIDField m key with
  | .ok id => id
  | .error _ => .zero

def unstructuredToDomainPSM (obj : Unstructured) : Except Error PodSchedulingMetrics := do
  let spec ← readSpec "PodSchedulingMetrics" obj
  return {
    id := readOptionalID [("id", .str obj.getName)] "id"
    createdTime := getInt64 spec "createdTime"
    updatedTime := getInt64 spec "updatedTime"
    creatorID := readOptionalID spec "creatorID"
    updaterID := readOptionalID spec "updaterID"
    labelSelectors := getList spec "labelSelectors" asLabelSelector
    k8sNamespaces := getList spec "k8sNamespaces" asString
    commandRegex := getStr spec "commandRegex"
    collectionIntervalSeconds := (getInt64 spec "collectionIntervalSeconds").toInt32
    enabled := getBool spec "enabled"
    metrics := (getMap spec "metrics").map PSMMetrics.ofFields
    scaling := (getMap spec "scaling").map PSMScaling.ofFields }

/-! ## Reading back -/

section

variable {kind name crNamespace : String} {labels : List (String × String)} {spec : Fields}

@[simp] theorem getName_customResource : (customResource kind name crNamespace labels spec).getName = name := by
  simp [customResource, Unstructured.getName, Unstructured.metadata, lookup_cons]

@[simp] theorem getLabels_customResource : (customResource kind name crNamespace labels spec).getLabels = labels := by
  simp [customResource, Unstructured.getLabels, Unstructured.metadata, lookup_cons]

@[simp] theorem nestedMap_customResource :
    nestedMap (customResource kind name crNamespace labels spec).object "spec" = .ok (some spec) := by
  simp [customResource, nestedMap, lookup_cons]

@[simp] theorem readSpec_customResource (text : String) :
    readSpec text (customResource kind name crNamespace labels spec) = .ok spec := by
  simp [readSpec]

@[simp] theorem readName_customResource (text : String) (id : ObjectID) :
    readName text (customResource kind id.hex crNamespace labels spec) = .ok id := by
  simp [readName, objectIDFromHex_hex]

@[simp] theorem ObjectID.hex_ne_empty (id : ObjectID) : id.hex ≠ "" := by
  intro h
  have hread := objectIDFromHex_hex id
  rw [h] at hread
  cases hread

@[simp] theorem filterMap_asString (l : List String) : l.filterMap (fun s => asString (.str s)) = l := filterMap_some

@[simp] theorem asLabelSelector_value (ls : LabelSelector) : asLabelSelector (labelSelectorValue ls) = some ls := by
  simp [asLabelSelector, labelSelectorValue, getStr, lookup_cons]

@[simp] theorem asDRASelector_value (dra : DRASelector) : asDRASelector (draSelectorValue dra) = some dra := by
  simp [asDRASelector, draSelectorValue, getStr, getList, lookup_cons]

theorem lookup_addPodLabels (labels : Labels) (key : String) (keys : List String) (read : Labels) :
    (∀ k ∈ keys, k ∈ labels) →
    ((keys.filterMap fun k => (labels.lookup k).map fun value => (k, Value.str value)).foldl addPodLabel read).lookup key =
      if key ∈ keys then labels.lookup key else read.lookup key := by
  induction keys generalizing read with
  | nil => simp
  | cons k keys ih =>
    intro hkeys
    obtain ⟨value, hvalue⟩ := Finmap.mem_iff.mp (hkeys k (by simp))
    have hstep : ((k :: keys).filterMap fun k => (labels.lookup k).map fun value => (k, Value.str value)) =
        (k, .str value) :: keys.filterMap fun k => (labels.lookup k).map fun value => (k, Value.str value) :=
      filterMap_cons_some (by rw [hvalue, Option.map_some])
    rw [hstep, foldl_cons, ih _ fun k' hk' => hkeys k' (by simp [hk'])]
    by_cases hk : key = k
    · subst hk
      simp [addPodLabel, hvalue]
    · simp [addPodLabel, hk, Finmap.lookup_insert_of_ne]

@[simp] theorem asPodLabels_fields (labels : Labels) : asPodLabels (podLabelFields labels) = labels := by
  refine Finmap.ext_lookup fun key => ?_
  have hmem : ∀ k, k ∈ sortedKeys labels ↔ k ∈ labels := by simp [sortedKeys, Finmap.mem_keys]
  have hkeys : ∀ k ∈ sortedKeys labels, k ∈ labels := fun k => (hmem k).mp
  rw [asPodLabels, podLabelFields, lookup_addPodLabels labels key _ ∅ hkeys]
  by_cases hkey : key ∈ labels
  · simp [hmem, hkey]
  · simp [hmem, hkey, Finmap.lookup_eq_none.mpr hkey]

@[simp] theorem PSMMetrics.ofFields_fields (metrics : PSMMetrics) : ofFields metrics.fields = metrics := by
  simp [ofFields, fields, getBool, lookup_cons]

@[simp] theorem PSMScaleTargetRef.ofFields_fields (ref : PSMScaleTargetRef) : ofFields ref.fields = ref := by
  simp [ofFields, fields, getStr, lookup_cons]

@[simp] theorem PSMScaling.ofFields_fields (scaling : PSMScaling) : ofFields scaling.fields = scaling := by
  cases scaling with
  | mk enabled metricName targetValue scaleTargetRef minReplicaCount maxReplicaCount cooldownPeriod =>
    cases scaleTargetRef <;>
      simp [ofFields, fields, optionalField, getStr, getBool, getInt64, getMap, lookup_cons]

/-! ## Round trips -/

theorem strategy_roundTrip (s : ScheduleStrategy) (crNamespace : String) :
    unstructuredToDomainStrategy (domainStrategyToUnstructured s crNamespace) = .ok s := by
  simp [unstructuredToDomainStrategy, domainStrategyToUnstructured, ScheduleStrategy.spec, bind, Except.bind, pure,
    Except.pure, readID, parseObjectIDField, objectIDFromHex_hex, getStr, getInt64, getList, lookup_cons]

theorem intent_roundTrip (intent : ScheduleIntent) (crNamespace : String) :
    unstructuredToDomainIntent (domainIntentToUnstructured intent crNamespace) = .ok intent := by
  simp [unstructuredToDomainIntent, domainIntentToUnstructured, ScheduleIntent.spec, bind, Except.bind, pure,
    Except.pure, readID, parseObjectIDField, objectIDFromHex_hex, getStr, getInt64, getMap, lookup_cons]

theorem nodePolicy_roundTrip (p : NodeSchedulingPolicy) (crNamespace : String) :
    unstructuredToDomainNodePolicy (domainNodePolicyToUnstructured p crNamespace) = .ok p := by
  simp [unstructuredToDomainNodePolicy, domainNodePolicyToUnstructured, NodeSchedulingPolicy.spec, bind, Except.bind, pure,
    Except.pure, readID, parseObjectIDField, objectIDFromHex_hex, getStr, getInt64, getList, lookup_cons]

theorem nodeIntent_roundTrip (intent : NodeSchedulingIntent) (crNamespace : String) :
    unstructuredToDomainNodeIntent (domainNodeIntentToUnstructured intent crNamespace) = .ok intent := by
  simp [unstructuredToDomainNodeIntent, domainNodeIntentToUnstructured, NodeSchedulingIntent.spec, bind, Except.bind, pure,
    Except.pure, readID, parseObjectIDField, objectIDFromHex_hex, getStr, getInt64, lookup_cons]

theorem psm_roundTrip (psm : PodSchedulingMetrics) (crNamespace : String) :
    unstructuredToDomainPSM (domainPSMToUnstructured psm crNamespace) = .ok psm := by
  obtain ⟨_, _, _, _, _, _, metrics, scaling⟩ := psm
  -- a field that is not set is looked for to the end of the spec
  cases metrics <;> cases scaling <;>
    simp [unstructuredToDomainPSM, domainPSMToUnstructured, PodSchedulingMetrics.spec, optionalField, bind, Except.bind, pure,
      Except.pure, readOptionalID, parseObjectIDField, objectIDFromHex_hex, getStr, getInt64, getBool, getMap, getList,
      lookup_cons]

/-- **Nothing is lost in a custom resource.** -/
theorem unstructured_roundTrip (crNamespace : String) :
    (∀ s, unstructuredToDomainStrategy (domainStrategyToUnstructured s crNamespace) = .ok s) ∧
      (∀ intent, unstructuredToDomainIntent (domainIntentToUnstructured intent crNamespace) = .ok intent) ∧
      (∀ p, unstructuredToDomainNodePolicy (domainNodePolicyToUnstructured p crNamespace) = .ok p) ∧
      (∀ intent, unstructuredToDomainNodeIntent (domainNodeIntentToUnstructured intent crNamespace) = .ok intent) ∧
      ∀ psm, unstructuredToDomainPSM (domainPSMToUnstructured psm crNamespace) = .ok psm :=
  ⟨fun s => strategy_roundTrip s crNamespace, fun intent => intent_roundTrip intent crNamespace,
    fun p => nodePolicy_roundTrip p crNamespace, fun intent => nodeIntent_roundTrip intent crNamespace,
    fun psm => psm_roundTrip psm crNamespace⟩

end

end Gthulhu.Manager
