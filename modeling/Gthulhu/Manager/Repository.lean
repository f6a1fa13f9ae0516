/-
The manager's repository (`api/manager/repository/cr_strategy_repo.go`,
`cr_node_policy_repo.go`): strategies, intents, node policies and node intents
kept as Kubernetes custom resources, each named by its ID and labelled by its
creator, its owner and its state.

Every function is a program over the requests it makes of the API server
(`ApiCall`), each of which may fail, in whatever state the ones before have
left things. The functions for strategies and for node policies are the same
code over two pairs of resources; they are one definition here, taken at a
`Kind`, under both names.

A custom resource is its record: the resource's name is the record's ID, and
its labels are read off the record (`Kind.labels`), as every write puts them
there. Resource versions are left out: no two writers meet in one call.
-/
import Gthulhu.Lib.Prog
import Gthulhu.Manager.Domain

namespace Gthulhu.Manager

open Lib

/-! ## Resources -/

/-- The four custom resources. -/
inductive Kind where
  | strategy
  | intent
  | nodePolicy
  | nodeIntent
  deriving DecidableEq

@[reducible] def Kind.Object : Kind → Type
  | .strategy => ScheduleStrategy
  | .intent => ScheduleIntent
  | .nodePolicy => NodeSchedulingPolicy
  | .nodeIntent => NodeSchedulingIntent

def Kind.base : (k : Kind) → k.Object → BaseEntity
  | .strategy, o => o.toBaseEntity
  | .intent, o => o.toBaseEntity
  | .nodePolicy, o => o.toBaseEntity
  | .nodeIntent, o => o.toBaseEntity

def Kind.setBase : (k : Kind) → k.Object → BaseEntity → k.Object
  | .strategy, o, b => { o with toBaseEntity := b }
  | .intent, o, b => { o with toBaseEntity := b }
  | .nodePolicy, o, b => { o with toBaseEntity := b }
  | .nodeIntent, o, b => { o with toBaseEntity := b }

/-- The name of the resource. -/
def Kind.id (k : Kind) (o : k.Object) : ObjectID := (k.base o).id

/-- The resource in the error texts. -/
def Kind.text : Kind → String
  | .strategy => "strategy"
  | .intent => "intent"
  | .nodePolicy => "node policy"
  | .nodeIntent => "node intent"

def labelCreatorID : String := "gthulhu.io/creator-id"
def labelStrategyID : String := "gthulhu.io/strategy-id"
def labelState : String := "gthulhu.io/state"
def labelNodePolicyID : String := "gthulhu.io/node-policy-id"

def Kind.labels : (k : Kind) → k.Object → List (String × String)
  | .strategy, o => [(labelCreatorID, o.creatorID.hex)]
  | .intent, o =>
    [(labelCreatorID, o.creatorID.hex), (labelStrategyID, o.strategyID.hex), (labelState, o.state.itoa)]
  | .nodePolicy, o => [(labelCreatorID, o.creatorID.hex)]
  | .nodeIntent, o =>
    [(labelCreatorID, o.creatorID.hex), (labelNodePolicyID, o.policyID.hex), (labelState, o.state.itoa)]

/-- A label selector: each label listed has one of its values. -/
abbrev Selector : Type := List (String × List String)

def Selector.selects (sel : Selector) (labels : List (String × String)) : Bool :=
  sel.all fun requirement => requirement.2.any fun value => labels.contains (requirement.1, value)

/-- `buildLabelSelector`, `buildStateLabelSelector`: no values, no requirement. -/
def buildLabelSelector (values : List String) (label : String) : Selector :=
  if values.isEmpty then [] else [(label, values)]

/-! ## Requests to the API server and to decision makers -/

/-- What the manager asks of the world outside it. -/
inductive ApiCall where
  | create (k : Kind) (o : k.Object)
  | get (k : Kind) (id : ObjectID)
  | list (k : Kind) (sel : Selector)
  | update (k : Kind) (o : k.Object)
  | delete (k : Kind) (id : ObjectID)
  | listPods (opt : QueryPodsOptions)
  | listDecisionMakerPods
  | listNodes (opt : QueryNodesOptions)
  | listNodesByDRA (selectors : List DRASelector)
  | token (dm : DecisionMakerPod)
  | http (endpoint : String × Nat) (req : DecisionMaker.Request)
  | newObjectID
  | now
  | mapOrder

@[reducible] def ApiCall.Resp : ApiCall → Type
  | .create _ _ => Except Error Unit
  | .get k _ => Except Error k.Object
  | .list k _ => Except Error (List k.Object)
  | .update _ _ => Except Error Unit
  | .delete _ _ => Except Error Unit
  | .listPods _ => Except Error (List Pod)
  | .listDecisionMakerPods => Except Error (List DecisionMakerPod)
  | .listNodes _ => Except Error (List Node)
  | .listNodesByDRA _ => Except Error (List Node)
  | .token _ => Except Error Unit
  | .http _ _ => Except Error DecisionMaker.Response
  | .newObjectID => ObjectID
  | .now => Int64
  | .mapOrder => List Nat

/-- Programs over these requests. -/
abbrev Api : Type → Type := ExceptT Error (Prog ApiCall ApiCall.Resp)

namespace Api

def create (k : Kind) (o : k.Object) : Api Unit := ExceptT.mk (Prog.perform (ApiCall.create k o))
def get (k : Kind) (id : ObjectID) : Api k.Object := ExceptT.mk (Prog.perform (ApiCall.get k id))
def list (k : Kind) (sel : Selector) : Api (List k.Object) := ExceptT.mk (Prog.perform (ApiCall.list k sel))
def update (k : Kind) (o : k.Object) : Api Unit := ExceptT.mk (Prog.perform (ApiCall.update k o))
def delete (k : Kind) (id : ObjectID) : Api Unit := ExceptT.mk (Prog.perform (ApiCall.delete k id))
def newObjectID : Api ObjectID := ExceptT.lift (Prog.perform ApiCall.newObjectID)
def now : Api Int64 := ExceptT.lift (Prog.perform ApiCall.now)

/-- `fmt.Errorf("message: %w", err)` on the error of `x`. -/
def wrapping {α : Type} (message : String) (x : Api α) : Api α := Prog.mapError (.wrap message) x

end Api

/-! ## Repository functions -/

namespace Repo

open Api

/-- `if x.ID.IsZero() { x.ID = bson.NewObjectID() }`. -/
def ensureID (id : ObjectID) : Api ObjectID := if id.isZero then newObjectID else pure id

/-- A record without an ID gets a new one, and times where it has none. -/
def fillBase (now : Int64) (b : BaseEntity) : Api BaseEntity := do
  let id ← ensureID b.id
  pure { b with
    id := id
    createdTime := if b.createdTime = 0 then now else b.createdTime
    updatedTime := if b.updatedTime = 0 then now else b.updatedTime }

/-- `delete(name)` in a clean-up: the text of its error, unless not found. -/
def rollbackDelete (k : Kind) (id : ObjectID) : Api (List String) := do
  match ← Prog.attempt (delete k id) with
  | .ok () => pure []
  | .error err => pure (if err.isNotFound then [] else ["delete " ++ k.text ++ " CR " ++ id.hex])

def rollbackDeletes (k : Kind) : List ObjectID → Api (List String)
  | [] => pure []
  | id :: ids => do
    let errs ← rollbackDelete k id
    let rest ← rollbackDeletes k ids
    pure (errs ++ rest)

/-- The loop over the intents of an insertion with its owner: a create that
fails has the intents created before, and the owner, deleted again. -/
def insertOwned (owner child : Kind) (setOwner : child.Object → child.Object) (ownerID : ObjectID) (now : Int64) :
    List child.Object → List ObjectID → Api (List child.Object)
  | [], _ => pure []
  | o :: os, created => do
    let base ← fillBase now (child.base o)
    let o := setOwner (child.setBase o base)
    match ← Prog.attempt (create child o) with
    | .error err =>
      let errs ← rollbackDeletes child created
      let ownerErrs ← rollbackDelete owner ownerID
      let message := "create " ++ child.text ++ " CR"
      if (errs ++ ownerErrs).isEmpty then throw (.wrap message err)
      else throw (.rollback message err (errs ++ ownerErrs))
    | .ok () =>
      let rest ← insertOwned owner child setOwner ownerID now os (created ++ [base.id])
      pure (o :: rest)

/-- An owner and its intents: what is inserted is returned, as the Go code
writes IDs and times into the records it is given. -/
def insertWithOwned (owner child : Kind) (setOwner : ObjectID → child.Object → child.Object)
    (o : owner.Object) (os : List child.Object) : Api (owner.Object × List child.Object) := do
  let time ← now
  let base := owner.base o
  let id ← ensureID base.id
  let o := owner.setBase o { base with
    id := id
    createdTime := if base.createdTime = 0 then time else base.createdTime
    updatedTime := time }
  wrapping ("create " ++ owner.text ++ " CR") (create owner o)
  let os ← insertOwned owner child (setOwner id) id time os []
  pure (o, os)

def insertStrategyAndIntents (strategy : ScheduleStrategy) (intents : List ScheduleIntent) :
    Api (ScheduleStrategy × List ScheduleIntent) :=
  insertWithOwned .strategy .intent (fun id intent => { intent with strategyID := id }) strategy intents

def insertNodePolicyAndIntents (policy : NodeSchedulingPolicy) (intents : List NodeSchedulingIntent) :
    Api (NodeSchedulingPolicy × List NodeSchedulingIntent) :=
  insertWithOwned .nodePolicy .nodeIntent (fun id intent => { intent with policyID := id }) policy intents

def insertFrom (k : Kind) (now : Int64) : List k.Object → Api (List k.Object)
  | [] => pure []
  | o :: os => do
    let base ← fillBase now (k.base o)
    let o := k.setBase o base
    wrapping ("create " ++ k.text ++ " CR") (create k o)
    let rest ← insertFrom k now os
    pure (o :: rest)

def insertAll (k : Kind) (os : List k.Object) : Api (List k.Object) := do
  if os.isEmpty then return []
  insertFrom k (← now) os

def insertIntents : List ScheduleIntent → Api (List ScheduleIntent) := insertAll .intent
def insertNodeIntents : List NodeSchedulingIntent → Api (List NodeSchedulingIntent) := insertAll .nodeIntent

def batchUpdate (k : Kind) (setState : Int64 → k.Object → k.Object) (ids : List ObjectID) : Api Unit := do
  let time ← now
  forM ids fun id => do
    match ← Prog.attempt (get k id) with
    | .error err =>
      if err.isNotFound then pure ()
      else throw (.wrap ("get " ++ k.text ++ " CR " ++ id.hex) err)
    | .ok o => wrapping ("update " ++ k.text ++ " CR " ++ id.hex) (update k (setState time o))

def batchUpdateIntentsState (ids : List ObjectID) (newState : IntentState) : Api Unit :=
  batchUpdate .intent (fun time o => { o with state := newState, updatedTime := time }) ids

def batchUpdateNodeIntentsState (ids : List ObjectID) (newState : IntentState) : Api Unit :=
  batchUpdate .nodeIntent (fun time o => { o with state := newState, updatedTime := time }) ids

/-- The records with the given IDs that match, those not found skipped. -/
def getMatching (k : Kind) (isMatch : k.Object → Bool) : List ObjectID → Api (List k.Object)
  | [] => pure []
  | id :: ids => do
    match ← Prog.attempt (get k id) with
    | .error err => if err.isNotFound then getMatching k isMatch ids else throw err
    | .ok o =>
      let rest ← getMatching k isMatch ids
      pure (if isMatch o then o :: rest else rest)

def query (k : Kind) (ids : List ObjectID) (sel : Selector) (isMatch : k.Object → Bool) : Api (List k.Object) := do
  if !ids.isEmpty then getMatching k isMatch ids
  else
    let items ← list k sel
    pure (items.filter isMatch)

/-- `len(wanted) > 0 && !contains(wanted, value)` does not reject. -/
def admits {α : Type} [DecidableEq α] (wanted : List α) (value : α) : Bool := wanted.isEmpty || wanted.contains value

def matchesStrategyFilter (opt : QueryStrategyOptions) (s : ScheduleStrategy) : Bool :=
  admits opt.creatorIDs s.creatorID &&
    (opt.k8sNamespaces.isEmpty || opt.k8sNamespaces.any s.k8sNamespace.contains)

def matchesIntentFilter (opt : QueryIntentOptions) (intent : ScheduleIntent) : Bool :=
  admits opt.creatorIDs intent.creatorID && admits opt.strategyIDs intent.strategyID &&
    admits opt.k8sNamespaces intent.k8sNamespace && admits opt.states intent.state && admits opt.podIDs intent.podID

def matchesNodePolicyFilter (opt : QueryNodePolicyOptions) (p : NodeSchedulingPolicy) : Bool :=
  admits opt.creatorIDs p.creatorID

def matchesNodeIntentFilter (opt : QueryNodeIntentOptions) (intent : NodeSchedulingIntent) : Bool :=
  admits opt.creatorIDs intent.creatorID && admits opt.policyIDs intent.policyID &&
    admits opt.nodeIDs intent.nodeID && admits opt.states intent.state

def queryStrategies (opt : QueryStrategyOptions) : Api (List ScheduleStrategy) :=
  query .strategy opt.ids (buildLabelSelector (opt.creatorIDs.map ObjectID.hex) labelCreatorID)
    (matchesStrategyFilter opt)

def queryIntents (opt : QueryIntentOptions) : Api (List ScheduleIntent) :=
  query .intent opt.ids
    (buildLabelSelector (opt.creatorIDs.map ObjectID.hex) labelCreatorID ++
      buildLabelSelector (opt.strategyIDs.map ObjectID.hex) labelStrategyID ++
      buildLabelSelector (opt.states.map IntentState.itoa) labelState)
    (matchesIntentFilter opt)

def queryNodePolicies (opt : QueryNodePolicyOptions) : Api (List NodeSchedulingPolicy) :=
  query .nodePolicy opt.ids (buildLabelSelector (opt.creatorIDs.map ObjectID.hex) labelCreatorID)
    (matchesNodePolicyFilter opt)

def queryNodeIntents (opt : QueryNodeIntentOptions) : Api (List NodeSchedulingIntent) :=
  query .nodeIntent opt.ids
    (buildLabelSelector (opt.creatorIDs.map ObjectID.hex) labelCreatorID ++
      buildLabelSelector (opt.policyIDs.map ObjectID.hex) labelNodePolicyID ++
      buildLabelSelector (opt.states.map IntentState.itoa) labelState)
    (matchesNodeIntentFilter opt)

/-- `UpdateStrategy`, `UpdateNodePolicy`. -/
def updateOwner (k : Kind) (o : k.Object) : Api Unit := do
  let _ ← wrapping ("get " ++ k.text ++ " CR for update") (get k (k.id o))
  update k o

def updateStrategy : ScheduleStrategy → Api Unit := updateOwner .strategy
def updateNodePolicy : NodeSchedulingPolicy → Api Unit := updateOwner .nodePolicy

/-- `DeleteStrategy`, `DeleteNodePolicy`: not found is as good as deleted. -/
def deleteOwner (k : Kind) (id : ObjectID) : Api Unit := do
  match ← Prog.attempt (delete k id) with
  | .ok () => pure ()
  | .error err => if err.isNotFound then pure () else throw err

def deleteStrategy : ObjectID → Api Unit := deleteOwner .strategy
def deleteNodePolicy : ObjectID → Api Unit := deleteOwner .nodePolicy

def deleteIDs (k : Kind) (ids : List ObjectID) : Api Unit :=
  forM ids fun id => do
    match ← Prog.attempt (delete k id) with
    | .ok () => pure ()
    | .error err =>
      if err.isNotFound then pure () else throw (.wrap ("delete " ++ k.text ++ " CR " ++ id.hex) err)

def deleteIntents : List ObjectID → Api Unit := deleteIDs .intent
def deleteNodeIntents : List ObjectID → Api Unit := deleteIDs .nodeIntent

def deleteByLabel (k : Kind) (label : String) (value : ObjectID) : Api Unit := do
  let items ← list k [(label, [value.hex])]
  deleteIDs k (items.map k.id)

def deleteIntentsByStrategyID : ObjectID → Api Unit := deleteByLabel .intent labelStrategyID
def deleteNodeIntentsByPolicyID : ObjectID → Api Unit := deleteByLabel .nodeIntent labelNodePolicyID

end Repo

end Gthulhu.Manager
