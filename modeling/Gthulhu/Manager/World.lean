/-
The world around the manager's services: the store behind the API server, the
decision maker processes, and what the cluster answers. `World.respond` gives
every request its meaning.

What a run cannot know beforehand is in the environment `env`, one `Choice`
for each request in turn: whether a request is carried out, refused, or
carried out with its answer lost; the order a listing or a range over a map
comes in; new IDs; the clock; the outcome of a decision maker's scan. A
statement about every environment is a statement about every run.
-/
import Gthulhu.Manager.Repository
import Gthulhu.DecisionMaker.ServiceFacts

namespace Gthulhu.Manager

open Lib

/-! ## The store -/

/-- The resources of one kind. No two have one name. -/
structure Resources (k : Kind) where
  objects : List k.Object
  nodup : (objects.map k.id).Nodup

namespace Resources

variable {k : Kind} (rs : Resources k)

def empty (k : Kind) : Resources k := ⟨[], List.nodup_nil⟩

def get (id : ObjectID) : Except Error k.Object :=
  match rs.objects.find? fun o => k.id o = id with
  | some o => .ok o
  | none => .error (.notFound id.hex)

def create (o : k.Object) : Except Error Unit × Resources k :=
  if h : k.id o ∈ rs.objects.map k.id then (.error (.alreadyExists (k.id o).hex), rs)
  else (.ok (), ⟨rs.objects ++ [o], by
    rw [List.map_append, List.map_singleton, List.nodup_append_comm]
    exact List.nodup_cons.mpr ⟨h, rs.nodup⟩⟩)

theorem map_id_update (o : k.Object) (os : List k.Object) :
    (os.map fun o' => if k.id o' = k.id o then o else o').map k.id = os.map k.id := by
  rw [List.map_map]
  refine List.map_congr_left fun o' _ => ?_
  simp only [Function.comp_apply]
  split
  · rename_i h; exact h.symm
  · rfl

def update (o : k.Object) : Except Error Unit × Resources k :=
  if k.id o ∈ rs.objects.map k.id then
    (.ok (), ⟨rs.objects.map fun o' => if k.id o' = k.id o then o else o', by
      rw [map_id_update]; exact rs.nodup⟩)
  else (.error (.notFound (k.id o).hex), rs)

def delete (id : ObjectID) : Except Error Unit × Resources k :=
  if id ∈ rs.objects.map k.id then
    (.ok (), ⟨rs.objects.filter fun o => k.id o ≠ id, rs.nodup.sublist (List.filter_sublist.map k.id)⟩)
  else (.error (.notFound id.hex), rs)

def select (sel : Selector) : List k.Object := rs.objects.filter fun o => sel.selects (k.labels o)

end Resources

/-- What the API server stores. -/
abbrev Store : Type := (k : Kind) → Resources k

/-! ## The world -/

/-- What the Kubernetes API knows: its answers to the pod and node queries, and
the decision maker pods. -/
structure Cluster where
  queryPods : QueryPodsOptions → List Pod
  queryNodes : QueryNodesOptions → List Node
  queryNodesByDRA : List DRASelector → List Node
  decisionMakers : List DecisionMakerPod

structure World where
  store : Store
  /-- The process behind each endpoint. -/
  processes : String × Nat → DecisionMaker.Process
  cluster : Cluster
  /-- How many requests have been made. -/
  tick : Nat := 0

/-- How a request ends: carried out, not carried out, or carried out with the
answer lost. The last two are errors to the caller. -/
inductive Outcome where
  | ok
  | refused
  | lost
  deriving DecidableEq

structure Choice where
  outcome : Outcome := .ok
  order : List Nat := []
  newID : ObjectID := .zero
  now : Int64 := 0
  scan : Except String Unit := .ok ()

/-- The answer to a request that only reads. -/
def Outcome.read {α : Type} (outcome : Outcome) (answer : Except Error α) : Except Error α :=
  match outcome with
  | .ok => answer
  | _ => .error .unavailable

/-- The answer and effect of a request that writes. -/
def Outcome.write {α σ : Type} (outcome : Outcome) (before : σ) (result : Except Error α × σ) : Except Error α × σ :=
  match outcome with
  | .ok => result
  | .refused => (.error .unavailable, before)
  | .lost => (.error .unavailable, result.2)

namespace World

/-- A write to the resources of one kind. -/
def writeStore (w : World) (outcome : Outcome) (k : Kind) (result : Except Error Unit × Resources k) :
    Except Error Unit × World :=
  let r := outcome.write (w.store k) result
  (r.1, { w with store := Function.update w.store k r.2 })

/-- A request to the process at an endpoint. -/
def send (w : World) (go : SliceSort) (choice : Choice) (endpoint : String × Nat) (req : DecisionMaker.Request) :
    Except Error DecisionMaker.Response × World :=
  let served := (w.processes endpoint).serve go choice.scan req
  let r := choice.outcome.write (w.processes endpoint) (.ok served.1, served.2)
  (r.1, { w with processes := Function.update w.processes endpoint r.2 })

/-- One request, with the environment's choice for it. -/
def answer (go : SliceSort) (choice : Choice) (w : World) : (call : ApiCall) → call.Resp × World
  | .create k o => w.writeStore choice.outcome k ((w.store k).create o)
  | .get k id => (choice.outcome.read ((w.store k).get id), w)
  | .list k sel => (choice.outcome.read (.ok (reorder choice.order ((w.store k).select sel))), w)
  | .update k o => w.writeStore choice.outcome k ((w.store k).update o)
  | .delete k id => w.writeStore choice.outcome k ((w.store k).delete id)
  | .listPods opt => (choice.outcome.read (.ok (w.cluster.queryPods opt)), w)
  | .listDecisionMakerPods => (choice.outcome.read (.ok (reorder choice.order w.cluster.decisionMakers)), w)
  | .listNodes opt => (choice.outcome.read (.ok (w.cluster.queryNodes opt)), w)
  | .listNodesByDRA selectors => (choice.outcome.read (.ok (w.cluster.queryNodesByDRA selectors)), w)
  | .token _ => (choice.outcome.read (.ok ()), w)
  | .http endpoint req => w.send go choice endpoint req
  | .newObjectID => (choice.newID, w)
  | .now => (choice.now, w)
  | .mapOrder => (choice.order, w)

/-- The next request, with the choice the environment has for it. -/
def respond (go : SliceSort) (env : Nat → Choice) (call : ApiCall) (w : World) : call.Resp × World :=
  answer go (env w.tick) { w with tick := w.tick + 1 } call

/-- The pod intents stored. -/
def intents (w : World) : List ScheduleIntent := (w.store .intent).objects

/-- The node intents stored. -/
def nodeIntents (w : World) : List NodeSchedulingIntent := (w.store .nodeIntent).objects

/-- The process of a decision maker pod. -/
def process (w : World) (dm : DecisionMakerPod) : DecisionMaker.Process := w.processes dm.endpoint

end World

end Gthulhu.Manager
