/-
The collector (`collector/collector.go`): it reads the CPU topology from
sysfs into `cpu_topology_map`, writes the filter maps, and sums the entries of
`task_metrics` for each pod.

`lookup_foldl_injectSlot` says what the topology map holds after sysfs has
been read, and `exported_poll` that a counter of a pod is the sum over the
entries of the tasks that the mapper puts into it, as far as it fits.
-/
import Gthulhu.Monitor.PodMapper
import Gthulhu.Monitor.SchedMonitor
import Mathlib.Data.List.Induction

namespace Gthulhu.Monitor

open Lib

/-! ## Topology -/

/-- A directory `/sys/devices/system/cpu/cpu[0-9]*` and what its files hold,
where they can be read. -/
structure CpuDir where
  path : String
  coreId : Option String
  physicalPackageId : Option String
  /-- The paths that match `node*`. -/
  nodes : List String
  /-- `cache/index3/id` -/
  llcId : Option String

def parseCPUID (path : String) : Option UInt32 :=
  if startsWith (base path) "cpu" then parseUint32 (String.ofList ((base path).toList.drop 3)) else none

def readUint32File (contents : Option String) : Option UInt32 := contents.bind fun data => parseUint32 (trimSpace data)

/-- `strings.TrimPrefix(base, "node")`, parsed. -/
def readNUMAID (nodes : List String) : Option UInt32 :=
  match nodes with
  | [] => none
  | first :: _ =>
    let name := (base first).toList
    parseUint32 (String.ofList (if "node".toList.isPrefixOf name then name.drop 4 else name))

/-- The slot and the record of a CPU; a CPU without core or package is left
out. -/
def CpuDir.topology (dir : CpuDir) : Option (UInt32 × CpuTopologyInfo) := do
  let cpuID ← parseCPUID dir.path
  let coreID ← readUint32File dir.coreId
  let packageID ← readUint32File dir.physicalPackageId
  let numaID := (readNUMAID dir.nodes).getD packageID
  let llcID := (readUint32File dir.llcId).getD 0
  return (cpuID, ⟨coreID, packageID, numaID, llcID, 1⟩)

/-- A slot that the map does not have is passed over. -/
def injectSlot (slots : Bpf.Array CpuTopologyInfo 1024) (record : UInt32 × CpuTopologyInfo) :
    Bpf.Array CpuTopologyInfo 1024 :=
  match slots.update record.1.toNat record.2 with
  | .ok slots => slots
  | .error _ => slots

def injectCPUTopology (dirs : List CpuDir) (slots : Bpf.Array CpuTopologyInfo 1024) : Bpf.Array CpuTopologyInfo 1024 :=
  (dirs.filterMap CpuDir.topology).foldl injectSlot slots

/-- What sysfs says of a CPU; of two directories for it the later one counts. -/
def sysfsInfo (records : List (UInt32 × CpuTopologyInfo)) (cpu : UInt32) : Option CpuTopologyInfo :=
  (records.reverse.find? fun record => record.1 = cpu).map Prod.snd

theorem CpuDir.topology_valid {dir : CpuDir} {record} (h : dir.topology = some record) :
    record.2.valid = 1 := by
  obtain ⟨cpuID, -, h⟩ := Option.bind_eq_some_iff.mp h
  obtain ⟨coreID, -, h⟩ := Option.bind_eq_some_iff.mp h
  obtain ⟨packageID, -, h⟩ := Option.bind_eq_some_iff.mp h
  cases h
  rfl

/-- What is in a slot after the records are written. -/
theorem lookup_foldl_injectSlot (slots : Bpf.Array CpuTopologyInfo 1024) {cpu} (hcpu : cpu.toNat < 1024)
    (records : List (UInt32 × CpuTopologyInfo)) :
    (records.foldl injectSlot slots).lookup cpu.toNat = (sysfsInfo records cpu).or (slots.lookup cpu.toNat) := by
  induction records using List.reverseRecOn with
  | nil => rfl
  | append_singleton records record ih =>
    have hreverse : sysfsInfo (records ++ [record]) cpu =
        if record.1 = cpu then some record.2 else sysfsInfo records cpu := by
      simp only [sysfsInfo, List.reverse_append, List.reverse_singleton, List.singleton_append, List.find?_cons]
      by_cases heq : record.1 = cpu <;> simp [heq]
    rw [List.foldl_append, List.foldl_cons, List.foldl_nil, hreverse, injectSlot]
    cases hupdate : (records.foldl injectSlot slots).update record.1.toNat record.2 with
    | ok written =>
      dsimp only
      rw [Bpf.Array.lookup_update hupdate, ih]
      by_cases heq : record.1 = cpu
      · simp [heq]
      · have hne : cpu.toNat ≠ record.1.toNat := fun h => heq (UInt32.toNat_inj.mp h).symm
        simp [heq, hne]
    | error err =>
      -- the slot of this CPU is there, so the write was for another one
      have hne : record.1 ≠ cpu := by
        intro heq
        rw [heq, Bpf.Array.update, dif_pos hcpu] at hupdate
        cases hupdate
      dsimp only
      rw [ih, if_neg hne]

/-! ## Filters -/

abbrev PidFilter := Bpf.HashMap UInt32 UInt8 65536

/-- `AddMonitoredPID`; `fault` is the number of an error that is not the map's. -/
def addMonitoredPID (fault : Option Nat) (pids : PidFilter) (pid : UInt32) : Except Bpf.Errno PidFilter :=
  match fault with
  | some code => .error (.other code)
  | none => pids.update pid 1

/-- `RemoveMonitoredPID`: a PID that is not there is no error. -/
def removeMonitoredPID (fault : Option Nat) (pids : PidFilter) (pid : UInt32) : Except Bpf.Errno PidFilter :=
  match fault with
  | some code => .error (.other code)
  | none =>
    match pids.delete pid with
    | .error .enoent => .ok pids
    | outcome => outcome

theorem mem_addMonitoredPID {fault pids pids' pid} (h : addMonitoredPID fault pids pid = .ok pids') (q : UInt32) :
    q ∈ pids'.entries ↔ q = pid ∨ q ∈ pids.entries := by
  cases fault with
  | some code => cases h
  | none => exact Bpf.HashMap.mem_update h q

theorem mem_removeMonitoredPID {fault pids pids' pid} (h : removeMonitoredPID fault pids pid = .ok pids') (q : UInt32) :
    q ∈ pids'.entries ↔ q ≠ pid ∧ q ∈ pids.entries := by
  cases fault with
  | some code => cases h
  | none =>
    rw [← Bpf.HashMap.mem_delete]
    unfold removeMonitoredPID at h
    dsimp only at h
    cases hd : pids.delete pid with
    | ok deleted =>
      rw [hd] at h
      cases h
      rfl
    | error err =>
      rw [hd] at h
      cases err with
      | enoent =>
        cases h
        rfl
      | _ => cases h

theorem removeMonitoredPID_none {pids pid err} :
    removeMonitoredPID none pids pid ≠ .error err := by
  by_cases hmem : pid ∈ pids.entries <;> simp [removeMonitoredPID, Bpf.HashMap.delete, hmem]

/-- A PID that is there can be added again. -/
theorem addMonitoredPID_again {pids pid} (h : pid ∈ pids.entries) :
    ∃ pids', addMonitoredPID none pids pid = .ok pids' :=
  ⟨pids.store pid 1, by simp [addMonitoredPID, Bpf.HashMap.update, h]⟩

/-! ## Totals of a pod -/

structure PodSchedMetrics where
  podName : String
  podUID : String
  k8sNamespace : String
  nodeName : String
  voluntaryCtxSwitches : UInt64 := 0
  involuntaryCtxSwitches : UInt64 := 0
  cpuTimeNs : UInt64 := 0
  waitTimeNs : UInt64 := 0
  runCount : UInt64 := 0
  cpuMigrations : UInt32 := 0
  smtMigrations : UInt32 := 0
  l3Migrations : UInt32 := 0
  numaMigrations : UInt32 := 0
  processCount : Nat := 0

def PodRef.zeroMetrics (ref : PodRef) : PodSchedMetrics where
  podName := ref.podName
  podUID := ref.podUID
  k8sNamespace := ref.k8sNamespace
  nodeName := ref.nodeName

def PodSchedMetrics.add (agg : PodSchedMetrics) (tm : TaskSchedMetrics) : PodSchedMetrics :=
  { agg with
    voluntaryCtxSwitches := agg.voluntaryCtxSwitches + tm.voluntaryCtxSwitches
    involuntaryCtxSwitches := agg.involuntaryCtxSwitches + tm.involuntaryCtxSwitches
    cpuTimeNs := agg.cpuTimeNs + tm.cpuTimeNs
    waitTimeNs := agg.waitTimeNs + tm.waitTimeNs
    runCount := agg.runCount + tm.runCount
    cpuMigrations := agg.cpuMigrations + tm.cpuMigrations
    smtMigrations := agg.smtMigrations + tm.smtMigrations
    l3Migrations := agg.l3Migrations + tm.l3Migrations
    numaMigrations := agg.numaMigrations + tm.numaMigrations
    processCount := agg.processCount + 1 }

/-- What is exported of a pod as a counter (`Collect`). -/
inductive Counter where
  | voluntaryCtxSwitches
  | involuntaryCtxSwitches
  | cpuTimeNs
  | waitTimeNs
  | runCount
  | cpuMigrations
  | smtMigrations
  | l3Migrations
  | numaMigrations

/-- The number of values a counter has. -/
def Counter.size : Counter → Nat
  | .cpuMigrations | .smtMigrations | .l3Migrations | .numaMigrations => 2 ^ 32
  | _ => 2 ^ 64

def TaskSchedMetrics.value (m : TaskSchedMetrics) : Counter → Nat
  | .voluntaryCtxSwitches => m.voluntaryCtxSwitches.toNat
  | .involuntaryCtxSwitches => m.involuntaryCtxSwitches.toNat
  | .cpuTimeNs => m.cpuTimeNs.toNat
  | .waitTimeNs => m.waitTimeNs.toNat
  | .runCount => m.runCount.toNat
  | .cpuMigrations => m.cpuMigrations.toNat
  | .smtMigrations => m.smtMigrations.toNat
  | .l3Migrations => m.l3Migrations.toNat
  | .numaMigrations => m.numaMigrations.toNat

def PodSchedMetrics.value (m : PodSchedMetrics) : Counter → Nat
  | .voluntaryCtxSwitches => m.voluntaryCtxSwitches.toNat
  | .involuntaryCtxSwitches => m.involuntaryCtxSwitches.toNat
  | .cpuTimeNs => m.cpuTimeNs.toNat
  | .waitTimeNs => m.waitTimeNs.toNat
  | .runCount => m.runCount.toNat
  | .cpuMigrations => m.cpuMigrations.toNat
  | .smtMigrations => m.smtMigrations.toNat
  | .l3Migrations => m.l3Migrations.toNat
  | .numaMigrations => m.numaMigrations.toNat

/-- What is exported of a pod; nothing counts as zero. -/
def exported (records : StrMap PodSchedMetrics) (podUID : String) (c : Counter) : Nat :=
  (records.lookup podUID).elim 0 (·.value c)

theorem value_add (agg : PodSchedMetrics) (tm : TaskSchedMetrics) (c : Counter) :
    (agg.add tm).value c = (agg.value c + tm.value c) % c.size := by
  cases c <;> simp only [PodSchedMetrics.value, PodSchedMetrics.add, TaskSchedMetrics.value, Counter.size,
    UInt64.toNat_add, UInt32.toNat_add]

theorem exported_lt (records : StrMap PodSchedMetrics) (podUID : String) (c : Counter) :
    exported records podUID c < c.size := by
  unfold exported
  cases records.lookup podUID with
  | none => cases c <;> simp [Counter.size]
  | some agg => cases c <;> first | exact UInt64.toNat_lt _ | exact UInt32.toNat_lt _

section Poll

variable (reads : ProcReads)

/-- The body of the loop over the entries. -/
def pollTask (state : PodMapper × StrMap PodSchedMetrics) (entry : (_ : UInt32) × TaskSchedMetrics) :
    PodMapper × StrMap PodSchedMetrics :=
  match state.1.getPodForPID reads entry.1 with
  | (podMapper, none) => (podMapper, state.2)
  | (podMapper, some podInfo) =>
    let agg := (state.2.lookup podInfo.podUID).getD podInfo.zeroMetrics
    (podMapper, state.2.insert podInfo.podUID (agg.add entry.2))

/-- `poll`: the entries come in any order; the records are published. -/
def poll (order : List Nat) (podMapper : PodMapper) (maps : Maps) : PodMapper × StrMap PodSchedMetrics :=
  (reorder order maps.taskMetrics.entries.entries).foldl (pollTask reads) (podMapper, ∅)

/-- The entries of the tasks that the mapper puts into a pod. -/
def podEntries (podMapper : PodMapper) (podUID : String) (entries : List ((_ : UInt32) × TaskSchedMetrics)) :
    List ((_ : UInt32) × TaskSchedMetrics) :=
  entries.filter fun entry => (podMapper.podFor reads entry.1).any fun ref => ref.podUID = podUID

theorem podFor_pollTask (state : PodMapper × StrMap PodSchedMetrics) (entry : (_ : UInt32) × TaskSchedMetrics)
    (pid : UInt32) : (pollTask reads state entry).1.podFor reads pid = state.1.podFor reads pid := by
  have hsame := state.1.podFor_getPodForPID reads entry.1 pid
  unfold pollTask
  split
  case h_1 podMapper h => rwa [h] at hsame
  case h_2 podMapper podInfo h => rwa [h] at hsame

/-- One entry counts for its pod only. -/
theorem exported_pollTask (state : PodMapper × StrMap PodSchedMetrics) (entry : (_ : UInt32) × TaskSchedMetrics)
    (podUID : String) (c : Counter) :
    exported (pollTask reads state entry).2 podUID c = (exported state.2 podUID c +
      ((podEntries reads state.1 podUID [entry]).map fun e => e.2.value c).sum) % c.size := by
  unfold pollTask
  have hpod : state.1.podFor reads entry.1 = (state.1.getPodForPID reads entry.1).2 := rfl
  have hlt := exported_lt state.2 podUID c
  split
  case h_1 podMapper hnone =>
    rw [hnone] at hpod
    simp [podEntries, hpod, Nat.mod_eq_of_lt hlt]
  case h_2 podMapper podInfo hsome =>
    rw [hsome] at hpod
    by_cases huid : podInfo.podUID = podUID
    · subst huid
      have hshare : podEntries reads state.1 podInfo.podUID [entry] = [entry] := by simp [podEntries, hpod]
      rw [hshare, exported, AList.lookup_insert, Option.elim_some, value_add, exported]
      cases state.2.lookup podInfo.podUID with
      | none => cases c <;> rfl
      | some agg => simp
    · have hne : podUID ≠ podInfo.podUID := fun h => huid h.symm
      have hrest := Nat.mod_eq_of_lt hlt
      rw [exported] at hrest ⊢
      simp [podEntries, hpod, huid, AList.lookup_insert_ne hne, exported, hrest]

theorem exported_foldl_pollTask (podUID : String) (c : Counter) :
    ∀ (entries : List ((_ : UInt32) × TaskSchedMetrics)) (state : PodMapper × StrMap PodSchedMetrics),
      exported (entries.foldl (pollTask reads) state).2 podUID c = (exported state.2 podUID c +
        ((podEntries reads state.1 podUID entries).map fun e => e.2.value c).sum) % c.size
  | [], state => by simp [podEntries, Nat.mod_eq_of_lt (exported_lt state.2 podUID c)]
  | entry :: entries, state => by
    -- the mapper answers the rest as before
    have hsame : podEntries reads (pollTask reads state entry).1 podUID entries =
        podEntries reads state.1 podUID entries := by
      simp only [podEntries, podFor_pollTask]
    have hsplit : podEntries reads state.1 podUID (entry :: entries) =
        podEntries reads state.1 podUID [entry] ++ podEntries reads state.1 podUID entries :=
      List.filter_append [entry] entries
    rw [List.foldl_cons, exported_foldl_pollTask podUID c entries, exported_pollTask, hsame, hsplit, List.map_append,
      List.sum_append, Nat.mod_add_mod, Nat.add_assoc]

/-- **A counter of a pod is the sum over its tasks' entries**, as far as it fits. -/
theorem exported_poll (order : List Nat) (podMapper : PodMapper) (maps : Maps) (podUID : String) (c : Counter) :
    exported (poll reads order podMapper maps).2 podUID c =
      ((podEntries reads podMapper podUID maps.taskMetrics.entries.entries).map fun e => e.2.value c).sum % c.size := by
  have hperm := (((reorder_perm order maps.taskMetrics.entries.entries).filter fun entry =>
    (podMapper.podFor reads entry.1).any fun ref => ref.podUID = podUID).map fun e => e.2.value c).sum_eq
  rw [poll, exported_foldl_pollTask, podEntries, hperm]
  simp [exported, podEntries]

end Poll

end Gthulhu.Monitor
