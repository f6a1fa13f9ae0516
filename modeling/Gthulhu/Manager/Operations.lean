/-
What the manager is asked to do, one request after the other: the operations
on strategies, node policies and their intents, the reconciliation, and those
on PodSchedulingMetrics objects, over one clock.

`reconcileIntents` is `ReconcileIntents` of `cron_svc.go` without its third
step, which is about the runtime configs of `RuntimeConfig` and touches none
of these resources. Between two requests the cluster and the decision makers
may change in any way.
-/
import Gthulhu.Manager.Cron
import Gthulhu.Manager.PodSchedulingMetrics

namespace Gthulhu.Manager

open Lib

def reconcileIntents (go : SliceSort) : Svc Unit := do
  let _ ← Prog.attempt refreshStaleIntents
  resyncIntentsToDMs go
  let _ ← Prog.attempt (refreshStaleNodeIntents go)
  let _ ← Prog.attempt (resyncNodeIntentsToDMs go)

inductive ManagerOp where
  | createScheduleStrategy (operator : Claims) (strategy : ScheduleStrategy)
  | updateScheduleStrategy (operator : Claims) (strategyID : String) (strategy : ScheduleStrategy)
  | deleteScheduleStrategy (operator : Claims) (strategyID : String)
  | deleteScheduleIntents (operator : Claims) (intentIDs : List String)
  | createNodeSchedulingPolicy (operator : Claims) (policy : NodeSchedulingPolicy)
  | updateNodeSchedulingPolicy (operator : Claims) (policyID : String) (policy : NodeSchedulingPolicy)
  | deleteNodeSchedulingPolicy (operator : Claims) (policyID : String)
  | deleteNodeSchedulingIntents (operator : Claims) (intentIDs : List String)
  | reconcileIntents

def ManagerOp.program (go : SliceSort) : ManagerOp → Svc Unit
  | .createScheduleStrategy operator strategy => do let _ ← Manager.createScheduleStrategy go operator strategy
  | .updateScheduleStrategy operator strategyID strategy => Manager.updateScheduleStrategy go operator strategyID strategy
  | .deleteScheduleStrategy operator strategyID => Manager.deleteScheduleStrategy operator strategyID
  | .deleteScheduleIntents operator intentIDs => Manager.deleteScheduleIntents operator intentIDs
  | .createNodeSchedulingPolicy operator policy => do let _ ← Manager.createNodeSchedulingPolicy go operator policy
  | .updateNodeSchedulingPolicy operator policyID policy => Manager.updateNodeSchedulingPolicy go operator policyID policy
  | .deleteNodeSchedulingPolicy operator policyID => Manager.deleteNodeSchedulingPolicy operator policyID
  | .deleteNodeSchedulingIntents operator intentIDs => Manager.deleteNodeSchedulingIntents operator intentIDs
  | .reconcileIntents => Manager.reconcileIntents go

/-- All that is stored, and the world around it. -/
structure ManagerState where
  world : World
  metrics : PSMObjects

inductive ManagerRequest where
  | op (op : ManagerOp)
  | metrics (op : PSMOp)
  /-- Pods, nodes and decision makers change. -/
  | elsewhere (processes : String × Nat → DecisionMaker.Process) (cluster : Cluster)

namespace ManagerState

variable (go : SliceSort) (crNamespace : String) (env : Nat → Choice)

/-- One request, served to its end. -/
def serve (s : ManagerState) : ManagerRequest → Except Error Unit × ManagerState
  | .op op =>
    let r := Prog.result (Manager.serve go env) (op.program go).run s.world
    (r.1, { s with world := r.2 })
  | .metrics op =>
    let r := Prog.result (Serial.handler PSMObjects.answer env) (op.program crNamespace).run (s.metrics, s.world.tick)
    (r.1, { world := { s.world with tick := r.2.2 }, metrics := r.2.1 })
  | .elsewhere processes cluster =>
    (.ok (), { s with world := { s.world with processes := processes, cluster := cluster } })

def machine : Machine ManagerState ManagerRequest where
  step s req := some (s.serve go crNamespace env req).2

end ManagerState

end Gthulhu.Manager
