/-
From intents and policies to scheduling intents of single tasks
(`resolveSchedulingIntents` and `ListAllSchedulingIntents` in
`api/decisionmaker/service/service.go`, `resolveNodeSchedulingIntents` in
`node_policy_svc.go`).

Pod intents are gone through in the order of the cache, each giving an entry
for every matching process of its pod. Node policies are gone through in the
order of their sort keys, each overwriting what an earlier one gave a thread,
and the entries come out by thread ID. The two lists are put one after the
other.

`regexp` is a parameter: what compiling a text gives. Left out: the map of
resolved intents and the metric targets, which nothing here reads.
-/
import Gthulhu.DecisionMaker.ProcScan

namespace Gthulhu.DecisionMaker

open Lib

/-- `regexp.Compile`, with `MatchString` of what it gives. -/
abbrev Regexp : Type := String → Option (String → Bool)

/-- An entry of the published list. The order of the selectors is that of a
range over a map, and left open. -/
structure SchedulingIntents where
  priority : Int64
  executionTime : UInt64
  pid : Int
  selectors : Labels := ∅
  commandRegex : String
  deriving DecidableEq

def pauseCommand : String := "pause"

section

variable (go : SliceSort) (regexp : Regexp)

/-! ## Pod intents -/

/-- The processes of its pod that an intent selects. -/
def selectedProcesses (podInfos : StrMap PodInfo) (intent : Intent) : List PodProcess :=
  match regexp intent.commandRegex with
  | none => []
  | some commandRegex =>
    (((podInfos.lookup intent.podID).map PodInfo.processes).getD []).filter fun process =>
      process.command ≠ pauseCommand && commandRegex process.command

def podEntry (intent : Intent) (process : PodProcess) : SchedulingIntents where
  priority := intent.priority
  executionTime := intent.executionTime.toUInt64
  pid := process.pid
  selectors := intent.podLabels
  commandRegex := intent.commandRegex

def resolveSchedulingIntents (intents : List Intent) (podInfos : StrMap PodInfo) : List SchedulingIntents :=
  intents.flatMap fun intent => (selectedProcesses regexp podInfos intent).map (podEntry intent)

/-! ## Node policies -/

def nodeEntry (policy : NodePolicy) (task : TaskInfo) : SchedulingIntents where
  priority := policy.priority
  executionTime := policy.executionTime.toUInt64
  pid := task.tid
  commandRegex := policy.commandRegex

/-- The body of the loop over the policies. -/
def applyPolicy (tasks : List TaskInfo) (byTID : AList fun _ : Int => SchedulingIntents) (policy : NodePolicy) :
    AList fun _ : Int => SchedulingIntents :=
  if policy.commandRegex = "" then byTID
  else
    match regexp policy.commandRegex with
    | none => byTID
    | some re =>
      tasks.foldl (fun byTID task =>
        if task.comm = pauseCommand then byTID
        else if !re task.comm then byTID
        else byTID.insert task.tid (nodeEntry policy task)) byTID

/-- `resolveNodeSchedulingIntents`, with what the task source gives, if there is one. -/
def resolveNodeSchedulingIntents (taskSource : Option (Except ProcError (List TaskInfo))) (svc : Service) :
    Except ProcError (List SchedulingIntents) :=
  if svc.nodePolicyCache = [] then .ok []
  else
    match taskSource with
    | none => .ok []
    | some (.error err) => .error (.wrapped "snapshot tasks" err)
    | some (.ok tasks) =>
      let byTID := (sortNodePoliciesByKey go svc.nodePolicyCache).foldl (applyPolicy regexp tasks) ∅
      let tids := byTID.keys.insertionSort (· ≤ ·)
      .ok (tids.filterMap byTID.lookup)

/-! ## The published list -/

/-- `ListAllSchedulingIntents`. The service has the threads of `/proc` as its
task source. -/
def listAllSchedulingIntents (byTID : SortBy Int) (pods : PodReads) (tasks : TaskReads) (svc : Service) :
    Except ProcError (List SchedulingIntents) := do
  let podSchedulingIntents ←
    if svc.intentCache = [] then pure []
    else do
      let podInfos ← findPodInfoFrom pods
      pure (resolveSchedulingIntents regexp svc.intentCache podInfos)
  match resolveNodeSchedulingIntents go regexp (some (snapshot tasks byTID)) svc with
  | .error err => .error (.wrapped "resolve node scheduling intents" err)
  | .ok nodeSchedulingIntents => .ok (podSchedulingIntents ++ nodeSchedulingIntents)

end

end Gthulhu.DecisionMaker
