/-
The decision maker's metrics of pods
(`api/decisionmaker/service/pod_metric_collector.go`): which pods are
collected, and what a gather is given for them.

`UpdatePodTargets` makes one target of every intent whose pod has a process,
so two intents of one pod make two targets, and `Collect` emits a series for
each. The label tuples of one metric are distinct just when no two intents
that are tracked agree in all of them (**`collect_distinct_iff`**). A process
that has exited is counted as before: `readProcSchedStats` passes over the
files it cannot read and has no error to return (**`collect_counts_iff`**).

What a read of `/proc` gives is an input. Left out: the conversion of a total
to `float64`, and the descriptors' names and help texts.
-/
import Gthulhu.DecisionMaker.ListFacts
import Mathlib.Algebra.Order.BigOperators.Group.List

namespace Gthulhu.DecisionMaker

open Lib List

/-! ## Targets -/

structure PodTarget where
  podName : String
  podUID : String
  k8sNamespace : String
  nodeName : String
  pids : List Int
  deriving DecidableEq

structure PodSchedMetricCollector where
  nodeName : String
  intentPods : List PodTarget := []
  deriving DecidableEq

def firstNonEmptyStr : List String → String
  | [] => ""
  | v :: vals => if v ≠ "" then v else firstNonEmptyStr vals

/-- The processes of a pod that count for its metrics. -/
def trackedPIDs (podInfo : PodInfo) : List Int :=
  (podInfo.processes.filter fun proc => proc.command ≠ "pause").map PodProcess.pid

namespace PodSchedMetricCollector

/-- The body of the loop over the intents. -/
def target (c : PodSchedMetricCollector) (podInfos : StrMap PodInfo) (intent : Intent) : Option PodTarget :=
  match podInfos.lookup intent.podID with
  | none => none
  | some podInfo =>
    if podInfo.processes = [] then none
    else if trackedPIDs podInfo = [] then none
    else
      some {
        podName := intent.podName
        podUID := intent.podID
        k8sNamespace := intent.k8sNamespace
        nodeName := firstNonEmptyStr [intent.nodeID, c.nodeName]
        pids := trackedPIDs podInfo }

def updatePodTargets (intents : List (Option Intent)) (podInfos : StrMap PodInfo) (c : PodSchedMetricCollector) :
    PodSchedMetricCollector :=
  { c with intentPods := intents.filterMap fun intent => intent.bind (c.target podInfos) }

def removePodMetricTarget (podID : String) (c : PodSchedMetricCollector) : PodSchedMetricCollector :=
  { c with intentPods := c.intentPods.filter fun target => target.podUID ≠ podID }

end PodSchedMetricCollector

/-! ## Statistics of a process -/

structure ProcSchedStats where
  voluntaryCtxSwitches : UInt64 := 0
  involuntaryCtxSwitches : UInt64 := 0
  cpuTimeNs : UInt64 := 0
  waitTimeNs : UInt64 := 0
  runCount : UInt64 := 0
  cpuMigrations : UInt64 := 0
  deriving DecidableEq

/-- What the reads of one gather give: a file, or its lines. -/
structure StatReads where
  schedstat : Int → Except ReadError String
  sched : Int → Except ReadError (List String)
  status : Int → Except ReadError (List String)

/-- `cpu_time_ns wait_time_ns run_count`. -/
def readSchedstat (data : String) (stats : ProcSchedStats) : ProcSchedStats :=
  match fields (trimSpace data) with
  | cpuTimeNs :: waitTimeNs :: runCount :: _ =>
    { stats with
      cpuTimeNs := parseUint64 cpuTimeNs
      waitTimeNs := parseUint64 waitTimeNs
      runCount := parseUint64 runCount }
  | _ => stats

def readSchedLine (stats : ProcSchedStats) (line : String) : ProcSchedStats :=
  match cut line ":" with
  | none => stats
  | some (key, value) =>
    let value := parseUint64 (trimSpace value)
    match trimSpace key with
    | "nr_voluntary_switches" => { stats with voluntaryCtxSwitches := value }
    | "nr_involuntary_switches" => { stats with involuntaryCtxSwitches := value }
    | "se.nr_migrations" => { stats with cpuMigrations := value }
    | _ => stats

/-- What is after a text that another one starts with, as a number. -/
def valueAfter (line start : String) : UInt64 :=
  parseUint64 (trimSpace (String.ofList (line.toList.drop start.length)))

def readStatusLine (stats : ProcSchedStats) (line : String) : ProcSchedStats :=
  if startsWith line "voluntary_ctxt_switches:" then
    { stats with voluntaryCtxSwitches := valueAfter line "voluntary_ctxt_switches:" }
  else if startsWith line "nonvoluntary_ctxt_switches:" then
    { stats with involuntaryCtxSwitches := valueAfter line "nonvoluntary_ctxt_switches:" }
  else stats

/-- A file that cannot be read is passed over: there is no error to return. -/
def readProcSchedStats (reads : StatReads) (pid : Int) : Except ReadError ProcSchedStats :=
  let stats :=
    match reads.schedstat pid with
    | .ok data => readSchedstat data {}
    | .error _ => {}
  let stats :=
    match reads.sched pid with
    | .ok lines => lines.foldl readSchedLine stats
    | .error _ => stats
  let stats :=
    if stats.voluntaryCtxSwitches = 0 ∧ stats.involuntaryCtxSwitches = 0 then
      match reads.status pid with
      | .ok lines => lines.foldl readStatusLine stats
      | .error _ => stats
    else stats
  .ok stats

/-! ## Collect -/

/-- The seven descriptors. -/
inductive MetricDesc where
  | voluntaryCtxSwitches
  | involuntaryCtxSwitches
  | cpuTimeNs
  | waitTimeNs
  | runCount
  | cpuMigrations
  | processCount
  deriving DecidableEq

structure Metric where
  desc : MetricDesc
  value : Nat
  /-- `pod_name`, `pod_uid`, `namespace`, `node_name`. -/
  labels : List String
  deriving DecidableEq

/-- The totals of a pod, and how many of its processes they are over. -/
structure Totals where
  stats : ProcSchedStats := {}
  processCount : Nat := 0
  deriving DecidableEq

/-- The body of the loop over the PIDs. -/
def addStats (reads : StatReads) (totals : Totals) (pid : Int) : Totals :=
  match readProcSchedStats reads pid with
  | .error _ => totals
  | .ok stats =>
    { stats := {
        voluntaryCtxSwitches := totals.stats.voluntaryCtxSwitches + stats.voluntaryCtxSwitches
        involuntaryCtxSwitches := totals.stats.involuntaryCtxSwitches + stats.involuntaryCtxSwitches
        cpuTimeNs := totals.stats.cpuTimeNs + stats.cpuTimeNs
        waitTimeNs := totals.stats.waitTimeNs + stats.waitTimeNs
        runCount := totals.stats.runCount + stats.runCount
        cpuMigrations := totals.stats.cpuMigrations + stats.cpuMigrations }
      processCount := totals.processCount + 1 }

def PodTarget.labels (pod : PodTarget) : List String := [pod.podName, pod.podUID, pod.k8sNamespace, pod.nodeName]

/-- The body of the loop over the pods. -/
def collectPod (reads : StatReads) (pod : PodTarget) : List Metric :=
  let totals := pod.pids.foldl (addStats reads) {}
  if totals.processCount = 0 then []
  else [
    ⟨.voluntaryCtxSwitches, totals.stats.voluntaryCtxSwitches.toNat, pod.labels⟩,
    ⟨.involuntaryCtxSwitches, totals.stats.involuntaryCtxSwitches.toNat, pod.labels⟩,
    ⟨.cpuTimeNs, totals.stats.cpuTimeNs.toNat, pod.labels⟩,
    ⟨.waitTimeNs, totals.stats.waitTimeNs.toNat, pod.labels⟩,
    ⟨.runCount, totals.stats.runCount.toNat, pod.labels⟩,
    ⟨.cpuMigrations, totals.stats.cpuMigrations.toNat, pod.labels⟩,
    ⟨.processCount, totals.processCount, pod.labels⟩]

namespace PodSchedMetricCollector

def collect (reads : StatReads) (c : PodSchedMetricCollector) : List Metric := c.intentPods.flatMap (collectPod reads)

/-- The label tuples emitted for one metric. -/
def emitted (reads : StatReads) (desc : MetricDesc) (c : PodSchedMetricCollector) : List (List String) :=
  ((c.collect reads).filter fun metric => metric.desc = desc).map Metric.labels

end PodSchedMetricCollector

/-! ## One series a target -/

variable {reads : StatReads} {c : PodSchedMetricCollector} {podInfos : StrMap PodInfo} {intent : Intent}

/-- Every target has a process to count. -/
def PodSchedMetricCollector.Tracking (c : PodSchedMetricCollector) : Prop := ∀ pod ∈ c.intentPods, pod.pids ≠ []

theorem processCount_foldl (reads : StatReads) (pids : List Int) (totals : Totals) :
    (pids.foldl (addStats reads) totals).processCount = totals.processCount + pids.length := by
  induction pids generalizing totals with
  | nil => rfl
  | cons pid pids ih =>
    rw [foldl_cons, ih, length_cons]
    have hadd : (addStats reads totals pid).processCount = totals.processCount + 1 := by simp [addStats, readProcSchedStats]
    omega

theorem emitted_collectPod {pod} (hpids : pod.pids ≠ []) (desc : MetricDesc) :
    ((collectPod reads pod).filter fun metric => metric.desc = desc).map Metric.labels = [pod.labels] := by
  have hcount : (pod.pids.foldl (addStats reads) {}).processCount ≠ 0 := by
    have hlen := length_pos_iff.mpr hpids
    rw [processCount_foldl]
    omega
  cases desc <;> simp [collectPod, hcount]

theorem emitted_eq (h : c.Tracking) (desc : MetricDesc) : c.emitted reads desc = c.intentPods.map PodTarget.labels := by
  have hpods : ∀ pods : List PodTarget, (∀ pod ∈ pods, pod.pids ≠ []) →
      ((pods.flatMap (collectPod reads)).filter fun metric => metric.desc = desc).map Metric.labels =
        pods.map PodTarget.labels := by
    intro pods hpids
    induction pods with
    | nil => rfl
    | cons pod pods ih =>
      rw [flatMap_cons, filter_append, map_append, emitted_collectPod (hpids pod (by simp)),
        ih fun pod hpod => hpids pod (by simp [hpod])]
      rfl
  exact hpods c.intentPods h

/-! ## Runs -/

inductive TargetCall where
  | updatePodTargets (intents : List (Option Intent)) (podInfos : StrMap PodInfo)
  | removePodMetricTarget (podID : String)

def PodSchedMetricCollector.call (c : PodSchedMetricCollector) : TargetCall → PodSchedMetricCollector
  | .updatePodTargets intents podInfos => c.updatePodTargets intents podInfos
  | .removePodMetricTarget podID => c.removePodMetricTarget podID

/-- The intent's pod has a process other than `pause`. -/
def Intent.hasProcess (podInfos : StrMap PodInfo) (intent : Intent) : Bool :=
  (podInfos.lookup intent.podID).any fun podInfo => podInfo.processes.any fun proc => proc.command ≠ "pause"

/-- The intents tracked after a call: those of the last update whose pod had a
process, without the pods removed since. -/
def trackedAfter (tracked : List Intent) : TargetCall → List Intent
  | .updatePodTargets intents podInfos => (normalizeInputs intents).filter (Intent.hasProcess podInfos)
  | .removePodMetricTarget podID => tracked.filter fun intent => intent.podID ≠ podID

/-- The labels of an intent's series. -/
def Intent.seriesLabels (nodeName : String) (intent : Intent) : List String :=
  [intent.podName, intent.podID, intent.k8sNamespace, firstNonEmptyStr [intent.nodeID, nodeName]]

/-- The targets are those of the tracked intents. -/
structure Tracks (nodeName : String) (tracked : List Intent) (c : PodSchedMetricCollector) : Prop where
  tracking : c.Tracking
  labels : c.intentPods.map PodTarget.labels = tracked.map (Intent.seriesLabels nodeName)
  nodeName : c.nodeName = nodeName

theorem trackedPIDs_eq_nil {podInfo} :
    trackedPIDs podInfo = [] ↔ (podInfo.processes.any fun proc => proc.command ≠ "pause") = false := by
  simp [trackedPIDs]

theorem target_eq_some {pod} :
    c.target podInfos intent = some pod ↔
      ∃ podInfo, podInfos.lookup intent.podID = some podInfo ∧ intent.hasProcess podInfos = true ∧
        pod = ⟨intent.podName, intent.podID, intent.k8sNamespace, firstNonEmptyStr [intent.nodeID, c.nodeName],
          trackedPIDs podInfo⟩ := by
  cases hpod : podInfos.lookup intent.podID with
  | none => simp [PodSchedMetricCollector.target, hpod]
  | some podInfo =>
    have hhas : intent.hasProcess podInfos = true ↔ trackedPIDs podInfo ≠ [] := by
      rw [ne_eq, trackedPIDs_eq_nil, Bool.not_eq_false, Intent.hasProcess, hpod, Option.any_some]
    have hnil : podInfo.processes = [] → trackedPIDs podInfo = [] := by
      intro h
      simp [trackedPIDs, h]
    simp only [PodSchedMetricCollector.target, hpod, Option.some.injEq, exists_eq_left', hhas]
    by_cases htracked : trackedPIDs podInfo = []
    · simp [htracked]
    · have hne : podInfo.processes ≠ [] := fun h => htracked (hnil h)
      simp [htracked, hne, eq_comm]

theorem target_eq_none : c.target podInfos intent = none ↔ intent.hasProcess podInfos = false := by
  rw [← Bool.not_eq_true, Option.eq_none_iff_forall_ne_some]
  refine ⟨fun h hhas => ?_, fun h pod hpod => h (target_eq_some.mp hpod).choose_spec.2.1⟩
  cases hpod : podInfos.lookup intent.podID with
  | none => simp [Intent.hasProcess, hpod] at hhas
  | some podInfo => exact h _ (target_eq_some.mpr ⟨podInfo, hpod, hhas, rfl⟩)

theorem targets_labels (intents : List Intent) :
    (intents.filterMap (c.target podInfos)).map PodTarget.labels =
      (intents.filter (Intent.hasProcess podInfos)).map (Intent.seriesLabels c.nodeName) := by
  induction intents with
  | nil => rfl
  | cons intent intents ih =>
    cases htarget : c.target podInfos intent with
    | none => rw [filterMap_cons_none htarget, filter_cons_of_neg (by simp [target_eq_none.mp htarget]), ih]
    | some pod =>
      obtain ⟨podInfo, -, hhas, rfl⟩ := target_eq_some.mp htarget
      rw [filterMap_cons_some htarget, filter_cons_of_pos hhas, map_cons, map_cons, ih]
      rfl

theorem updatePodTargets_tracks (intents : List (Option Intent)) (podInfos : StrMap PodInfo) :
    Tracks c.nodeName (trackedAfter [] (.updatePodTargets intents podInfos)) (c.updatePodTargets intents podInfos) := by
  have htargets : (c.updatePodTargets intents podInfos).intentPods =
      (normalizeInputs intents).filterMap (c.target podInfos) := by
    simp only [PodSchedMetricCollector.updatePodTargets, normalizeInputs, filterMap_filterMap, id]
  refine ⟨fun pod hpod => ?_, ?_, rfl⟩
  · rw [htargets] at hpod
    obtain ⟨intent, -, htarget⟩ := mem_filterMap.mp hpod
    obtain ⟨podInfo, hinfo, hhas, rfl⟩ := target_eq_some.mp htarget
    intro hnil
    rw [Intent.hasProcess, hinfo, Option.any_some, trackedPIDs_eq_nil.mp hnil] at hhas
    cases hhas
  · rw [htargets]
    exact targets_labels _

theorem removePodMetricTarget_tracks {nodeName tracked} (h : Tracks nodeName tracked c) (podID : String) :
    Tracks nodeName (trackedAfter tracked (.removePodMetricTarget podID)) (c.removePodMetricTarget podID) := by
  refine ⟨fun pod hpod => h.tracking pod (mem_of_mem_filter hpod), ?_, h.nodeName⟩
  -- The pod's UID is the second label, on both sides.
  let other : List String → Bool := fun labels => labels[1]? ≠ some podID
  calc (c.removePodMetricTarget podID).intentPods.map PodTarget.labels
      = (c.intentPods.map PodTarget.labels).filter other := by
        rw [filter_map]
        simp [PodSchedMetricCollector.removePodMetricTarget, other, PodTarget.labels, Function.comp_def]
    _ = (tracked.map (Intent.seriesLabels nodeName)).filter other := by rw [h.labels]
    _ = (tracked.filter fun intent => intent.podID ≠ podID).map (Intent.seriesLabels nodeName) := by
        rw [filter_map]
        simp [other, Intent.seriesLabels, Function.comp_def]

theorem call_tracks {nodeName tracked} (h : Tracks nodeName tracked c) (call : TargetCall) :
    Tracks nodeName (trackedAfter tracked call) (c.call call) := by
  cases call with
  | updatePodTargets intents podInfos => exact h.nodeName ▸ updatePodTargets_tracks intents podInfos
  | removePodMetricTarget podID => exact removePodMetricTarget_tracks h podID

theorem calls_tracks {nodeName tracked} (h : Tracks nodeName tracked c) (calls : List TargetCall) :
    Tracks nodeName (calls.foldl trackedAfter tracked) (calls.foldl PodSchedMetricCollector.call c) := by
  induction calls generalizing tracked c with
  | nil => exact h
  | cons call calls ih => exact ih (call_tracks h call)

/-- **When the label tuples of every metric are distinct.** -/
theorem collect_distinct_iff (reads : StatReads) (nodeName : String) (calls : List TargetCall) (desc : MetricDesc) :
    ((calls.foldl PodSchedMetricCollector.call { nodeName := nodeName }).emitted reads desc).Nodup ↔
      (calls.foldl trackedAfter []).Pairwise fun i j =>
        ¬(i.podName = j.podName ∧ i.podID = j.podID ∧ i.k8sNamespace = j.k8sNamespace ∧
          firstNonEmptyStr [i.nodeID, nodeName] = firstNonEmptyStr [j.nodeID, nodeName]) := by
  have hfresh : Tracks nodeName [] { nodeName := nodeName } := ⟨by simp [PodSchedMetricCollector.Tracking], rfl, rfl⟩
  have htracks := calls_tracks hfresh calls
  rw [emitted_eq htracks.tracking, htracks.labels, List.Nodup, pairwise_map]
  simp [Intent.seriesLabels]

namespace OnePod

def podInfo : PodInfo where
  podUID := "20da609e-6973-4463-a1f9-2db9bcc5becc"
  processes := [{ pid := 7, command := "engine" }]

/-- Two intents of one pod, of two priorities. -/
def twoIntents : TargetCall :=
  .updatePodTargets [some (OnePod.intent 1), some (OnePod.intent 2)] (AList.insert podInfo.podUID podInfo ∅)

/-- Process 7 has run for 20 ns. -/
def statReads : StatReads where
  schedstat _ := .ok "20 0 1"
  sched _ := .error .notExist
  status _ := .error .notExist

end OnePod

/-- The pod's series are emitted twice. -/
theorem collect_duplicate :
    ([OnePod.twoIntents].foldl PodSchedMetricCollector.call { nodeName := "a" }).emitted OnePod.statReads .cpuTimeNs =
      [["p", "20da609e-6973-4463-a1f9-2db9bcc5becc", "default", "a"],
        ["p", "20da609e-6973-4463-a1f9-2db9bcc5becc", "default", "a"]] := by
  decide +kernel

/-! ## Processes that have exited -/

/-- The files of a process, as far as they can be read. -/
structure StatFiles where
  schedstat : Except ReadError String
  sched : Except ReadError (List String)
  status : Except ReadError (List String)

/-- `/proc` at the time of a gather: the processes that exist. -/
structure ProcState where
  files : Int → Option StatFiles

namespace ProcState

variable (proc : ProcState)

def has (pid : Int) : Bool := (proc.files pid).isSome

/-- A process that has exited has no files. -/
def statReads : StatReads where
  schedstat pid := (proc.files pid).elim (.error .notExist) StatFiles.schedstat
  sched pid := (proc.files pid).elim (.error .notExist) StatFiles.sched
  status pid := (proc.files pid).elim (.error .notExist) StatFiles.status

end ProcState

/-- The process counts are of the processes that exist, and a pod without one
has no series. -/
structure CountsExisting (proc : ProcState) (c : PodSchedMetricCollector) : Prop where
  counts : ((c.collect proc.statReads).filter fun metric => metric.desc = .processCount) =
    (c.intentPods.filter fun pod => pod.pids.any proc.has).map fun pod =>
      ⟨.processCount, pod.pids.countP proc.has, pod.labels⟩
  silent : ∀ metric ∈ c.collect proc.statReads,
    ∃ pod ∈ c.intentPods, pod.labels = metric.labels ∧ pod.pids.any proc.has = true

/-- Every target of a gather is counted, whatever could be read of it. -/
theorem processCounts_eq (pods : List PodTarget) :
    ((pods.flatMap (collectPod reads)).filter fun metric => metric.desc = .processCount) =
      (pods.filter fun pod => pod.pids ≠ []).map fun pod => ⟨.processCount, pod.pids.length, pod.labels⟩ := by
  induction pods with
  | nil => rfl
  | cons pod pods ih =>
    have hcount : (pod.pids.foldl (addStats reads) {}).processCount = pod.pids.length := by simp [processCount_foldl]
    rw [flatMap_cons, filter_append, ih]
    by_cases hpids : pod.pids = []
    · simp [collectPod, hpids]
    · simp [collectPod, hcount, hpids]

theorem sum_map_filter {α : Type} {p f} (l : List α) (h : ∀ a, p a = false → f a = 0) :
    ((l.filter p).map f).sum = (l.map f).sum := by
  induction l with
  | nil => rfl
  | cons a l ih =>
    cases hp : p a with
    | false => simp [hp, h a hp, ih]
    | true => simp [hp, ih]

/-- **When the process counts of a gather are of existing processes**: if no
target process has exited. -/
theorem collect_counts_iff (proc : ProcState) (c : PodSchedMetricCollector) :
    CountsExisting proc c ↔ ∀ pod ∈ c.intentPods, ∀ pid ∈ pod.pids, proc.has pid = true := by
  constructor
  · intro h
    -- the sum of the counts is that of all targets, and no count exceeds its pod's targets
    have hsums := congrArg (fun metrics => (metrics.map Metric.value).sum) h.counts
    simp only [PodSchedMetricCollector.collect, processCounts_eq, map_map, Function.comp_def] at hsums
    rw [sum_map_filter _ fun pod hp => by simpa using hp,
      sum_map_filter _ fun pod hp => by simpa [countP_eq_zero] using hp] at hsums
    by_contra hgone
    push Not at hgone
    obtain ⟨pod, hpod, pid, hpid, hexited⟩ := hgone
    have hless : pod.pids.countP proc.has < pod.pids.length := by
      refine lt_of_le_of_ne countP_le_length fun heq => ?_
      exact hexited (countP_eq_length.mp heq pid hpid)
    have hlt := sum_lt_sum (fun pod : PodTarget => pod.pids.countP proc.has) (fun pod => pod.pids.length)
      (fun _ _ => countP_le_length) ⟨pod, hpod, hless⟩
    omega
  · intro h
    have hany : ∀ pod ∈ c.intentPods, (pod.pids.any proc.has = true ↔ pod.pids ≠ []) := by
      intro pod hpod
      cases hpids : pod.pids with
      | nil => simp
      | cons pid pids => simp [h pod hpod pid (by simp [hpids])]
    refine ⟨?_, fun metric hmetric => ?_⟩
    · rw [PodSchedMetricCollector.collect, processCounts_eq]
      have hfilter : (c.intentPods.filter fun pod => pod.pids ≠ []) =
          c.intentPods.filter fun pod => pod.pids.any proc.has := by
        refine filter_congr fun pod hpod => ?_
        rw [Bool.eq_iff_iff, hany pod hpod]
        simp
      rw [hfilter]
      refine map_congr_left fun pod hpod => ?_
      rw [countP_eq_length.mpr (h pod (mem_of_mem_filter hpod))]
    · obtain ⟨pod, hpod, hmem⟩ := mem_flatMap.mp hmetric
      simp only [collectPod] at hmem
      split at hmem
      · cases hmem
      · rename_i hcount
        refine ⟨pod, hpod, ?_, (hany pod hpod).mpr fun hnil => hcount (by rw [hnil]; rfl)⟩
        simp only [mem_cons, not_mem_nil, or_false] at hmem
        rcases hmem with rfl | rfl | rfl | rfl | rfl | rfl | rfl <;> rfl

/-- The only process of a pod has exited, and still is counted. -/
theorem collect_exited :
    ([OnePod.twoIntents].foldl PodSchedMetricCollector.call { nodeName := "a" }).intentPods.map PodTarget.pids = [[7], [7]] ∧
      ((([OnePod.twoIntents].foldl PodSchedMetricCollector.call { nodeName := "a" }).collect
        (ProcState.statReads ⟨fun _ => none⟩)).filter fun metric => metric.desc = .processCount).map Metric.value = [1, 1] := by
  decide +kernel

end Gthulhu.DecisionMaker
