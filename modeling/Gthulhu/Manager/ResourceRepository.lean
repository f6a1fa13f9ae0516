/-
The repository over the objects that the API server really stores
(`api/manager/repository`). `Repository` takes a custom resource to be its
record; here it is an object with a name, labels and a spec, and a list is
asked for by the text of a label selector.

Most functions convert at every request they make (`implementation`), and are
the ones of `Repository` with its requests so made. Two work on the objects
themselves: a change of state edits the spec and the state label in place, and
a deletion by label goes by the names of what is listed.

What holds of them is in `ResourceRepositoryFacts`.
-/
import Gthulhu.Lib.Refine
import Gthulhu.Lib.LabelSelector
import Gthulhu.Manager.CustomResource
import Gthulhu.Manager.World

namespace Gthulhu.Manager

open Lib Prog

/-! ## Objects -/

def Kind.encode (crNamespace : String) : (k : Kind) → k.Object → Unstructured
  | .strategy, o => domainStrategyToUnstructured o crNamespace
  | .intent, o => domainIntentToUnstructured o crNamespace
  | .nodePolicy, o => domainNodePolicyToUnstructured o crNamespace
  | .nodeIntent, o => domainNodeIntentToUnstructured o crNamespace

def Kind.decode : (k : Kind) → Unstructured → Except Error k.Object
  | .strategy => unstructuredToDomainStrategy
  | .intent => unstructuredToDomainIntent
  | .nodePolicy => unstructuredToDomainNodePolicy
  | .nodeIntent => unstructuredToDomainNodeIntent

/-- The objects of one kind. No two have one name. -/
structure Objects where
  objects : List Unstructured
  nodup : (objects.map Unstructured.getName).Nodup

namespace Objects

variable (objs : Objects)

def empty : Objects := ⟨[], List.nodup_nil⟩

def get (name : String) : Except Error Unstructured :=
  match objs.objects.find? fun obj => obj.getName = name with
  | some obj => .ok obj
  | none => .error (.notFound name)

def create (obj : Unstructured) : Except Error Unit × Objects :=
  if h : obj.getName ∈ objs.objects.map Unstructured.getName then (.error (.alreadyExists obj.getName), objs)
  else (.ok (), ⟨objs.objects ++ [obj], by
    rw [List.map_append, List.map_singleton, List.nodup_append_comm]
    exact List.nodup_cons.mpr ⟨h, objs.nodup⟩⟩)

theorem map_name_update (obj : Unstructured) (objects : List Unstructured) :
    (objects.map fun obj' => if obj'.getName = obj.getName then obj else obj').map Unstructured.getName =
      objects.map Unstructured.getName := by
  rw [List.map_map]
  refine List.map_congr_left fun obj' _ => ?_
  by_cases h : obj'.getName = obj.getName <;> simp [h]

def update (obj : Unstructured) : Except Error Unit × Objects :=
  if obj.getName ∈ objs.objects.map Unstructured.getName then
    (.ok (), ⟨objs.objects.map fun obj' => if obj'.getName = obj.getName then obj else obj', by
      rw [map_name_update]; exact objs.nodup⟩)
  else (.error (.notFound obj.getName), objs)

def delete (name : String) : Except Error Unit × Objects :=
  if name ∈ objs.objects.map Unstructured.getName then
    (.ok (), ⟨objs.objects.filter fun obj => obj.getName ≠ name,
      objs.nodup.sublist (List.filter_sublist.map Unstructured.getName)⟩)
  else (.error (.notFound name), objs)

/-- `List` with the text of a selector. -/
def select (text : String) : Except Error (List Unstructured) :=
  match parseSelector text with
  | none => .error (.text "unable to parse requirement")
  | some sel => .ok (objs.objects.filter fun obj => Selector.selects sel obj.getLabels)

end Objects

/-! ## Requests -/

inductive ObjectCall where
  | create (k : Kind) (obj : Unstructured)
  | get (k : Kind) (name : String)
  | list (k : Kind) (sel : String)
  | update (k : Kind) (obj : Unstructured)
  | delete (k : Kind) (name : String)
  /-- What is not about custom resources is as it was. -/
  | other (req : ApiCall)

@[reducible] def ObjectCall.Resp : ObjectCall → Type
  | .create _ _ => Except Error Unit
  | .get _ _ => Except Error Unstructured
  | .list _ _ => Except Error (List Unstructured)
  | .update _ _ => Except Error Unit
  | .delete _ _ => Except Error Unit
  | .other req => req.Resp

structure ObjectWorld where
  objects : Kind → Objects
  processes : String × Nat → DecisionMaker.Process
  cluster : Cluster
  tick : Nat := 0

namespace ObjectWorld

/-- The world without what is stored. -/
def rest (w : ObjectWorld) : World := ⟨fun k => .empty k, w.processes, w.cluster, w.tick⟩

def writeObjects (w : ObjectWorld) (outcome : Outcome) (k : Kind) (result : Except Error Unit × Objects) :
    Except Error Unit × ObjectWorld :=
  let r := outcome.write (w.objects k) result
  (r.1, { w with objects := Function.update w.objects k r.2 })

def answer (go : SliceSort) (choice : Choice) (w : ObjectWorld) : (call : ObjectCall) → call.Resp × ObjectWorld
  | .create k obj => w.writeObjects choice.outcome k ((w.objects k).create obj)
  | .get k name => (choice.outcome.read ((w.objects k).get name), w)
  | .list k sel => (choice.outcome.read (((w.objects k).select sel).map (reorder choice.order)), w)
  | .update k obj => w.writeObjects choice.outcome k ((w.objects k).update obj)
  | .delete k name => w.writeObjects choice.outcome k ((w.objects k).delete name)
  | .other req =>
    let r := World.answer go choice w.rest req
    (r.1, { w with processes := r.2.processes })

def respond (go : SliceSort) (env : Nat → Choice) (call : ObjectCall) (w : ObjectWorld) : call.Resp × ObjectWorld :=
  answer go (env w.tick) { w with tick := w.tick + 1 } call

end ObjectWorld

/-! ## Functions -/

/-- Programs over these requests. -/
abbrev ObjectApi : Type → Type := ExceptT Error (Prog ObjectCall ObjectCall.Resp)

/-- A request about records, made with objects. -/
def implementation (crNamespace : String) : (call : ApiCall) → Prog ObjectCall ObjectCall.Resp call.Resp
  | .create k o => perform (ObjectCall.create k (k.encode crNamespace o))
  | .get k id => do
    let obj ← perform (ObjectCall.get k id.hex)
    pure (obj.bind k.decode)
  | .list k sel => do
    let items ← perform (ObjectCall.list k (selectorText sel))
    pure (items.bind fun items => items.mapM k.decode)
  | .update k o => perform (ObjectCall.update k (k.encode crNamespace o))
  | .delete k id => perform (ObjectCall.delete k id.hex)
  | .listPods opt => perform (ObjectCall.other (.listPods opt))
  | .listDecisionMakerPods => perform (ObjectCall.other .listDecisionMakerPods)
  | .listNodes opt => perform (ObjectCall.other (.listNodes opt))
  | .listNodesByDRA selectors => perform (ObjectCall.other (.listNodesByDRA selectors))
  | .token dm => perform (ObjectCall.other (.token dm))
  | .http endpoint req => perform (ObjectCall.other (.http endpoint req))
  | .newObjectID => perform (ObjectCall.other .newObjectID)
  | .now => perform (ObjectCall.other .now)
  | .mapOrder => perform (ObjectCall.other .mapOrder)

namespace ObjectRepo

variable (crNamespace : String)

/-- A function that converts at every request. -/
def converting {α : Type} (x : Api α) : ObjectApi α := ExceptT.mk (implement (implementation crNamespace) x.run)

def insertStrategyAndIntents (strategy : ScheduleStrategy) (intents : List ScheduleIntent) :
    ObjectApi (ScheduleStrategy × List ScheduleIntent) :=
  converting crNamespace (Repo.insertStrategyAndIntents strategy intents)

def insertNodePolicyAndIntents (policy : NodeSchedulingPolicy) (intents : List NodeSchedulingIntent) :
    ObjectApi (NodeSchedulingPolicy × List NodeSchedulingIntent) :=
  converting crNamespace (Repo.insertNodePolicyAndIntents policy intents)

def insertIntents (intents : List ScheduleIntent) : ObjectApi (List ScheduleIntent) :=
  converting crNamespace (Repo.insertIntents intents)

def insertNodeIntents (intents : List NodeSchedulingIntent) : ObjectApi (List NodeSchedulingIntent) :=
  converting crNamespace (Repo.insertNodeIntents intents)

def queryIntents (opt : QueryIntentOptions) : ObjectApi (List ScheduleIntent) :=
  converting crNamespace (Repo.queryIntents opt)

def queryNodeIntents (opt : QueryNodeIntentOptions) : ObjectApi (List NodeSchedulingIntent) :=
  converting crNamespace (Repo.queryNodeIntents opt)

def deleteIntents (ids : List ObjectID) : ObjectApi Unit := converting crNamespace (Repo.deleteIntents ids)

def deleteNodeIntents (ids : List ObjectID) : ObjectApi Unit := converting crNamespace (Repo.deleteNodeIntents ids)

/-- The new state in the spec and in the labels. -/
def editState (k : Kind) (newState : IntentState) (time : Int64) (name : String) (obj : Unstructured) :
    Except Error Unstructured :=
  match nestedMap obj.object "spec" with
  | .error err => .error (.wrap ("read spec for " ++ k.text ++ " CR " ++ name) (.text err))
  | .ok none => .error (.text ("spec not found for " ++ k.text ++ " CR " ++ name))
  | .ok (some spec) =>
    let spec := setField "updatedTime" (.int64 time) (setField "state" (.int64 newState.value.toInt64) spec)
    let obj : Unstructured := ⟨setField "spec" (.map spec) obj.object⟩
    .ok (obj.setLabels (setField labelState newState.itoa obj.getLabels))

def writeState (k : Kind) (id : ObjectID) : Except Error Unstructured → ObjectApi Unit
  | .error err => throw err
  | .ok obj => mapError (.wrap ("update " ++ k.text ++ " CR " ++ id.hex)) (ExceptT.mk (perform (ObjectCall.update k obj)))

def batchUpdate (k : Kind) (newState : IntentState) (ids : List ObjectID) : ObjectApi Unit := do
  let time ← ExceptT.lift (perform (ObjectCall.other .now))
  forM ids fun id => do
    match ← attempt (ExceptT.mk (perform (ObjectCall.get k id.hex))) with
    | .error err =>
      if err.isNotFound then pure ()
      else throw (.wrap ("get " ++ k.text ++ " CR " ++ id.hex) err)
    | .ok obj => writeState k id (editState k newState time id.hex obj)

def batchUpdateIntentsState (ids : List ObjectID) (newState : IntentState) : ObjectApi Unit :=
  batchUpdate .intent newState ids

def batchUpdateNodeIntentsState (ids : List ObjectID) (newState : IntentState) : ObjectApi Unit :=
  batchUpdate .nodeIntent newState ids

def deleteNames (k : Kind) (names : List String) : ObjectApi Unit :=
  forM names fun name => do
    match ← attempt (ExceptT.mk (perform (ObjectCall.delete k name))) with
    | .ok () => pure ()
    | .error err => if err.isNotFound then pure () else throw (.wrap ("delete " ++ k.text ++ " CR " ++ name) err)

def deleteByLabel (k : Kind) (label : String) (value : ObjectID) : ObjectApi Unit := do
  let items ← ExceptT.mk (perform (ObjectCall.list k (label ++ "=" ++ value.hex)))
  deleteNames k (items.map Unstructured.getName)

def deleteIntentsByStrategyID : ObjectID → ObjectApi Unit := deleteByLabel .intent labelStrategyID
def deleteNodeIntentsByPolicyID : ObjectID → ObjectApi Unit := deleteByLabel .nodeIntent labelNodePolicyID

end ObjectRepo

end Gthulhu.Manager
