/-
The watcher (`crdwatcher/watcher.go`): it holds the `PodSchedulingMetrics`
specs of the cluster and keeps `monitored_pids` to the processes of the pods
that an enabled spec matches.

`reconcilePIDs` returns what it logs as well: the map operations that failed.
The maps it ranges over come in any order.
-/
import Gthulhu.Monitor.Collector

namespace Gthulhu.Monitor

open Lib

structure LabelSelector where
  key : String
  value : String
  deriving DecidableEq

/-- The part of `PodSchedulingMetricsSpec` that selects pods. -/
structure PodSchedulingMetrics where
  labelSelectors : List LabelSelector
  k8sNamespaces : List String
  commandRegex : String
  enabled : Bool
  deriving DecidableEq

/-- The watcher with what it works on: the pod mapper and the collector's
`monitored_pids`. -/
structure Watcher where
  podMapper : PodMapper
  filter : PidFilter
  specs : StrMap PodSchedulingMetrics
  /-- The PIDs it has pushed. -/
  monitoredPIDs : AList fun _ : UInt32 => Unit

/-- A map operation that failed. -/
inductive Warning where
  | add (pid : UInt32) (err : Bpf.Errno)
  | remove (pid : UInt32) (err : Bpf.Errno)
  deriving DecidableEq

def psmMatchesPod (psm : PodSchedulingMetrics) (ref : PodRef) : Bool :=
  (psm.k8sNamespaces.isEmpty || psm.k8sNamespaces.contains ref.k8sNamespace) &&
    psm.labelSelectors.all fun sel => sel.key = "" || ref.labels.lookup sel.key = some sel.value

/-- `MatchesCommandRegex`, with `regexp.Compile` and the `MatchString` of what
it gives. No function of the monitor calls it. -/
def matchesCommandRegex (regexp : String → Option (String → Bool)) (pattern command : String) : Bool :=
  if pattern = "" then true
  else
    match regexp pattern with
    | none => false
    | some re => re command

namespace Watcher

/-- `desiredPods`: the UIDs of the pods that an enabled spec matches. -/
def desiredPods (w : Watcher) : List String :=
  ((w.specs.entries.map Sigma.snd).filter (·.enabled)).flatMap fun psm =>
    (w.podMapper.podIndex.entries.filter fun pod => psmMatchesPod psm pod.2).map Sigma.fst

section Loops

variable (reads : ProcReads) (fault : UInt32 → Option Nat)

/-- The body of the loop over the mapped PIDs. -/
def syncPID (desired : List String) (state : Watcher × List Warning) (pid : UInt32) : Watcher × List Warning :=
  let (podMapper, podRef) := state.1.podMapper.getPodForPID reads pid
  let w := { state.1 with podMapper }
  match podRef with
  | none => (w, state.2)
  | some ref =>
    if ref.podUID ∈ desired then
      match addMonitoredPID (fault pid) w.filter pid with
      | .error err => (w, .add pid err :: state.2)
      | .ok filter => ({ w with filter, monitoredPIDs := w.monitoredPIDs.insert pid () }, state.2)
    else if pid ∈ w.monitoredPIDs then
      match removeMonitoredPID (fault pid) w.filter pid with
      | .error err => (w, .remove pid err :: state.2)
      | .ok filter => ({ w with filter, monitoredPIDs := w.monitoredPIDs.erase pid }, state.2)
    else (w, state.2)

/-- The body of the loop over the tracked PIDs: one that is not mapped is
forgotten, whether or not it could be removed. -/
def dropVanished (mapped : List UInt32) (state : Watcher × List Warning) (pid : UInt32) : Watcher × List Warning :=
  if pid ∈ mapped then state
  else
    let w := { state.1 with monitoredPIDs := state.1.monitoredPIDs.erase pid }
    match removeMonitoredPID (fault pid) state.1.filter pid with
    | .error err => (w, .remove pid err :: state.2)
    | .ok filter => ({ w with filter }, state.2)

/-- `reconcilePIDs`. -/
def reconcilePIDs (order order' : List Nat) (w : Watcher) : Watcher × List Warning :=
  let w := { w with podMapper := w.podMapper.scanAllPIDs reads }
  let mapped := w.podMapper.listMappedPIDs order
  let synced := mapped.foldl (syncPID reads fault w.desiredPods) (w, [])
  (reorder order' synced.1.monitoredPIDs.keys).foldl (dropVanished fault mapped) synced

end Loops

end Watcher

end Gthulhu.Monitor
