/-
The BPF program of the scheduling monitor (`bpf/sched_monitor.bpf.c` with the
records of `bpf/sched_monitor.h`): its maps, the filter, and the handlers of
the two tracepoints.

Counters and time stamps have the widths of the source and wrap around as
there. A stamp of zero means that there is none. What `bpf_ringbuf_reserve`
answers is left to the caller: one boolean for each call.

`handleSchedSwitch` first deals with the task that is switched out and then
with the one that is switched in; `lookup_handlePrev` and `lookup_handleNext`
say what each part leaves in `task_metrics`.
-/
import Gthulhu.Lib.BpfMap
import Mathlib.Data.UInt

namespace Gthulhu.Monitor

open Lib

/-! ## Records -/

/-- `struct task_sched_metrics`. -/
structure TaskSchedMetrics where
  pid : UInt32
  tgid : UInt32
  voluntaryCtxSwitches : UInt64 := 0
  involuntaryCtxSwitches : UInt64 := 0
  cpuTimeNs : UInt64 := 0
  waitTimeNs : UInt64 := 0
  lastRunTs : UInt64 := 0
  lastEnqueueTs : UInt64 := 0
  runCount : UInt64 := 0
  lastCpu : UInt32 := 0
  cpuMigrations : UInt32 := 0
  smtMigrations : UInt32 := 0
  l3Migrations : UInt32 := 0
  numaMigrations : UInt32 := 0
  deriving DecidableEq, Repr

/-- `struct cpu_topology_info`. -/
structure CpuTopologyInfo where
  coreId : UInt32
  packageId : UInt32
  numaId : UInt32
  llcId : UInt32
  valid : UInt8
  deriving DecidableEq, Repr

/-- `enum sched_event_type`. -/
inductive SchedEventType where
  | switchOutVoluntary
  | switchOutInvoluntary
  | switchIn
  | exit
  deriving DecidableEq, Repr

/-- `struct sched_event`. -/
structure SchedEvent where
  pid : UInt32
  tgid : UInt32
  cpu : UInt32
  eventType : SchedEventType
  timestamp : UInt64
  durationNs : UInt64
  deriving DecidableEq, Repr

/-- What the handlers read of a `task_struct`. -/
structure Task where
  pid : UInt32
  tgid : UInt32
  deriving DecidableEq, Repr

/-- The idle task of every CPU. -/
def Task.idle : Task := ⟨0, 0⟩

/-- The maps. Of `events_rb` only what has been submitted, the last first. -/
structure Maps where
  taskMetrics : Bpf.HashMap UInt32 TaskSchedMetrics 65536
  monitoredPids : Bpf.HashMap UInt32 UInt8 65536
  monitoredTgids : Bpf.HashMap UInt32 UInt8 8192
  cpuTopologyMap : Bpf.Array CpuTopologyInfo 1024
  eventsRb : List SchedEvent

/-- The maps when they are loaded. -/
def Maps.loaded : Maps where
  taskMetrics := .empty
  monitoredPids := .empty
  monitoredTgids := .empty
  cpuTopologyMap := fun _ => ⟨0, 0, 0, 0, 0⟩
  eventsRb := []

/-- The constants set when the program is loaded. -/
structure Globals where
  monitorAll : Bool := false
  streamEvents : Bool := false

/-! ## Helpers -/

def shouldMonitor (g : Globals) (maps : Maps) (task : Task) : Bool :=
  g.monitorAll || (maps.monitoredPids.lookup task.pid).isSome || (maps.monitoredTgids.lookup task.tgid).isSome

/-- The entry of a task, made if there is none. There is none still if the
map is full. -/
def getOrInitMetrics (maps : Maps) (task : Task) : Maps × Option TaskSchedMetrics :=
  match maps.taskMetrics.lookup task.pid with
  | some m => (maps, some m)
  | none =>
    let made := maps.taskMetrics.after (maps.taskMetrics.create task.pid { pid := task.pid, tgid := task.tgid })
    ({ maps with taskMetrics := made }, made.lookup task.pid)

def classifyCpuMigration (topology : Bpf.Array CpuTopologyInfo 1024) (m : TaskSchedMetrics) (fromCpu toCpu : UInt32) :
    TaskSchedMetrics :=
  let m := { m with cpuMigrations := m.cpuMigrations + 1 }
  match topology.lookup fromCpu.toNat, topology.lookup toCpu.toNat with
  | some old, some new =>
    if old.valid = 0 ∨ new.valid = 0 then { m with l3Migrations := m.l3Migrations + 1 }
    else if old.coreId = new.coreId then { m with smtMigrations := m.smtMigrations + 1 }
    else if old.packageId = new.packageId ∧ old.numaId = new.numaId then
      { m with l3Migrations := m.l3Migrations + 1 }
    else { m with numaMigrations := m.numaMigrations + 1 }
  | _, _ => { m with l3Migrations := m.l3Migrations + 1 }

/-- A record for `events_rb`, if records are streamed and one is reserved. -/
def submit (g : Globals) (reserved : Bool) (evt : SchedEvent) (maps : Maps) : Maps :=
  if g.streamEvents && reserved then { maps with eventsRb := evt :: maps.eventsRb } else maps

/-! ## sched_switch -/

/-- The time since the last switch-in, where one is known. -/
def ranFor (now : UInt64) (pm : TaskSchedMetrics) : UInt64 :=
  if pm.lastRunTs ≠ 0 ∧ pm.lastRunTs < now then now - pm.lastRunTs else 0

/-- The time since the last switch-out, where one is known. -/
def waitedFor (now : UInt64) (nm : TaskSchedMetrics) : UInt64 :=
  if nm.lastEnqueueTs ≠ 0 ∧ nm.lastEnqueueTs < now then now - nm.lastEnqueueTs else 0

/-- What a switch-out writes into the entry. -/
def recordSwitchOut (now : UInt64) (prevState : UInt32) (pm : TaskSchedMetrics) : TaskSchedMetrics :=
  let pm := { pm with cpuTimeNs := pm.cpuTimeNs + ranFor now pm, lastRunTs := 0 }
  let pm :=
    if prevState = 0 then { pm with involuntaryCtxSwitches := pm.involuntaryCtxSwitches + 1 }
    else { pm with voluntaryCtxSwitches := pm.voluntaryCtxSwitches + 1 }
  { pm with lastEnqueueTs := now }

/-- What a switch-in writes into the entry. -/
def recordSwitchIn (topology : Bpf.Array CpuTopologyInfo 1024) (now : UInt64) (cpu : UInt32) (nm : TaskSchedMetrics) :
    TaskSchedMetrics :=
  let nm := { nm with lastRunTs := now, runCount := nm.runCount + 1 }
  let nm := { nm with waitTimeNs := nm.waitTimeNs + waitedFor now nm, lastEnqueueTs := 0 }
  let nm :=
    if 1 < nm.runCount ∧ nm.lastCpu ≠ cpu then classifyCpuMigration topology nm nm.lastCpu cpu else nm
  { nm with lastCpu := cpu }

/-- Both halves of `handle_sched_switch`: the entry of a task that passes the
filter is found or made, rewritten, and reported. The idle task has PID 0. -/
def recordFor (g : Globals) (task : Task) (record : TaskSchedMetrics → TaskSchedMetrics)
    (evt : TaskSchedMetrics → SchedEvent) (reserved : Bool) (maps : Maps) : Maps :=
  if task.pid ≠ 0 ∧ shouldMonitor g maps task then
    match getOrInitMetrics maps task with
    | (maps, none) => maps
    | (maps, some m) =>
      submit g reserved (evt m) { maps with taskMetrics := maps.taskMetrics.store task.pid (record m) }
  else maps

/-- Handle PREV (switch-out). -/
def handlePrev (g : Globals) (now : UInt64) (cpu : UInt32) (prev : Task) (prevState : UInt32) (reserved : Bool)
    (maps : Maps) : Maps :=
  let eventType := if prevState = 0 then .switchOutInvoluntary else .switchOutVoluntary
  recordFor g prev (recordSwitchOut now prevState)
    (fun pm => ⟨prev.pid, prev.tgid, cpu, eventType, now, ranFor now pm⟩) reserved maps

/-- Handle NEXT (switch-in). -/
def handleNext (g : Globals) (now : UInt64) (cpu : UInt32) (next : Task) (reserved : Bool) (maps : Maps) : Maps :=
  recordFor g next (recordSwitchIn maps.cpuTopologyMap now cpu)
    (fun _ => ⟨next.pid, next.tgid, cpu, .switchIn, now, 0⟩) reserved maps

def handleSchedSwitch (g : Globals) (now : UInt64) (cpu : UInt32) (prev next : Task) (prevState : UInt32)
    (reserved : Bool × Bool) (maps : Maps) : Maps :=
  handleNext g now cpu next reserved.2 (handlePrev g now cpu prev prevState reserved.1 maps)

/-! ## sched_process_exit -/

def handleSchedProcessExit (g : Globals) (now : UInt64) (cpu : UInt32) (task : Task) (reserved : Bool) (maps : Maps) :
    Maps :=
  if shouldMonitor g maps task then
    let maps := submit g reserved ⟨task.pid, task.tgid, cpu, .exit, now, 0⟩ maps
    { maps with taskMetrics := maps.taskMetrics.after (maps.taskMetrics.delete task.pid) }
  else maps

/-! ## What a switch writes -/

section Writes

variable (topology : Bpf.Array CpuTopologyInfo 1024) (now : UInt64) (cpu prevState : UInt32) (m : TaskSchedMetrics)

/-- A stamp that is there counts from then on. -/
theorem toNat_elapsed (stamp now : UInt64) :
    (if stamp ≠ 0 ∧ stamp < now then now - stamp else 0).toNat =
      if stamp = 0 then 0 else now.toNat - stamp.toNat := by
  by_cases hzero : stamp = 0
  · simp [hzero]
  · by_cases hlt : stamp < now
    · rw [if_pos ⟨hzero, hlt⟩, if_neg hzero, UInt64.toNat_sub_of_le _ _ (UInt64.le_of_lt hlt)]
    · rw [if_neg fun h => hlt h.2, if_neg hzero]
      have := UInt64.le_iff_toNat_le.mp (UInt64.not_lt.mp hlt)
      simp [Nat.sub_eq_zero_of_le this]

theorem toNat_ranFor : (ranFor now m).toNat = if m.lastRunTs = 0 then 0 else now.toNat - m.lastRunTs.toNat :=
  toNat_elapsed ..

theorem toNat_waitedFor :
    (waitedFor now m).toNat = if m.lastEnqueueTs = 0 then 0 else now.toNat - m.lastEnqueueTs.toNat :=
  toNat_elapsed ..

@[simp] theorem recordSwitchOut_cpuTimeNs :
    (recordSwitchOut now prevState m).cpuTimeNs = m.cpuTimeNs + ranFor now m := by
  simp only [recordSwitchOut]
  split <;> rfl

@[simp] theorem recordSwitchOut_waitTimeNs : (recordSwitchOut now prevState m).waitTimeNs = m.waitTimeNs := by
  simp only [recordSwitchOut]
  split <;> rfl

@[simp] theorem recordSwitchOut_lastRunTs : (recordSwitchOut now prevState m).lastRunTs = 0 := by
  simp only [recordSwitchOut]
  split <;> rfl

@[simp] theorem recordSwitchOut_lastEnqueueTs : (recordSwitchOut now prevState m).lastEnqueueTs = now := rfl

/-- A migration changes its counters only. -/
theorem classifyCpuMigration_same (fromCpu toCpu : UInt32) :
    ∃ total smt l3 numa, classifyCpuMigration topology m fromCpu toCpu =
      { m with cpuMigrations := total, smtMigrations := smt, l3Migrations := l3, numaMigrations := numa } := by
  simp only [classifyCpuMigration]
  split
  · split
    · exact ⟨_, _, _, _, rfl⟩
    · split
      · exact ⟨_, _, _, _, rfl⟩
      · split <;> exact ⟨_, _, _, _, rfl⟩
  · exact ⟨_, _, _, _, rfl⟩

/-- A switch-in, up to the migration counters. -/
theorem recordSwitchIn_eq :
    ∃ total smt l3 numa, recordSwitchIn topology now cpu m =
      { m with
        lastRunTs := now, runCount := m.runCount + 1, waitTimeNs := m.waitTimeNs + waitedFor now m, lastEnqueueTs := 0,
        lastCpu := cpu, cpuMigrations := total, smtMigrations := smt, l3Migrations := l3, numaMigrations := numa } := by
  simp only [recordSwitchIn]
  split
  · obtain ⟨total, smt, l3, numa, hsame⟩ := classifyCpuMigration_same topology
      { m with lastRunTs := now, runCount := m.runCount + 1, waitTimeNs := m.waitTimeNs + waitedFor now m,
               lastEnqueueTs := 0 } m.lastCpu cpu
    exact ⟨total, smt, l3, numa, congrArg (fun m' : TaskSchedMetrics => { m' with lastCpu := cpu }) hsame⟩
  · exact ⟨_, _, _, _, rfl⟩

@[simp] theorem recordSwitchIn_cpuTimeNs : (recordSwitchIn topology now cpu m).cpuTimeNs = m.cpuTimeNs := by
  obtain ⟨_, _, _, _, h⟩ := recordSwitchIn_eq topology now cpu m
  rw [h]

@[simp] theorem recordSwitchIn_waitTimeNs :
    (recordSwitchIn topology now cpu m).waitTimeNs = m.waitTimeNs + waitedFor now m := by
  obtain ⟨_, _, _, _, h⟩ := recordSwitchIn_eq topology now cpu m
  rw [h]

@[simp] theorem recordSwitchIn_lastRunTs : (recordSwitchIn topology now cpu m).lastRunTs = now := by
  obtain ⟨_, _, _, _, h⟩ := recordSwitchIn_eq topology now cpu m
  rw [h]

@[simp] theorem recordSwitchIn_lastEnqueueTs : (recordSwitchIn topology now cpu m).lastEnqueueTs = 0 := by
  obtain ⟨_, _, _, _, h⟩ := recordSwitchIn_eq topology now cpu m
  rw [h]

end Writes

/-! ## What the handlers leave in the maps -/

/-- The entry `get_or_init_metrics` makes, if there is room for it. -/
def Maps.fresh (maps : Maps) (task : Task) : Option TaskSchedMetrics :=
  if maps.taskMetrics.size < 65536 then some { pid := task.pid, tgid := task.tgid } else none

/-- The entry `get_or_init_metrics` finds or makes. -/
def Maps.entryFor (maps : Maps) (task : Task) : Option TaskSchedMetrics :=
  (maps.taskMetrics.lookup task.pid).or (maps.fresh task)

/-- Only `task_metrics` and `events_rb` differ. -/
structure Maps.SameFilters (maps maps' : Maps) : Prop where
  pids : maps'.monitoredPids = maps.monitoredPids
  tgids : maps'.monitoredTgids = maps.monitoredTgids
  topology : maps'.cpuTopologyMap = maps.cpuTopologyMap

theorem Maps.SameFilters.trans {maps1 maps2 maps3 : Maps} (h : maps1.SameFilters maps2) (h' : maps2.SameFilters maps3) :
    maps1.SameFilters maps3 :=
  ⟨h'.pids.trans h.pids, h'.tgids.trans h.tgids, h'.topology.trans h.topology⟩

theorem Maps.SameFilters.shouldMonitor {maps maps'} (h : maps.SameFilters maps') (g : Globals) (task : Task) :
    shouldMonitor g maps' task = shouldMonitor g maps task := by
  simp only [Monitor.shouldMonitor, h.pids, h.tgids]

@[simp] theorem submit_taskMetrics (g : Globals) (reserved : Bool) (evt : SchedEvent) (maps : Maps) :
    (submit g reserved evt maps).taskMetrics = maps.taskMetrics := by
  unfold submit
  split <;> rfl

theorem submit_sameFilters (g : Globals) (reserved : Bool) (evt : SchedEvent) (maps : Maps) :
    maps.SameFilters (submit g reserved evt maps) := by
  unfold submit
  split <;> exact ⟨rfl, rfl, rfl⟩

theorem getOrInitMetrics_sameFilters (maps : Maps) (task : Task) :
    maps.SameFilters (getOrInitMetrics maps task).1 := by
  unfold getOrInitMetrics
  split <;> exact ⟨rfl, rfl, rfl⟩

theorem getOrInitMetrics_snd (maps : Maps) (task : Task) :
    (getOrInitMetrics maps task).2 = maps.entryFor task := by
  unfold getOrInitMetrics Maps.entryFor Maps.fresh
  cases h : maps.taskMetrics.lookup task.pid with
  | some m => rfl
  | none => simp [Bpf.HashMap.lookup_create _ h]

theorem lookup_getOrInitMetrics (maps : Maps) (task : Task) (pid : UInt32) :
    (getOrInitMetrics maps task).1.taskMetrics.lookup pid =
      if pid = task.pid then maps.entryFor task else maps.taskMetrics.lookup pid := by
  unfold getOrInitMetrics Maps.entryFor Maps.fresh
  cases h : maps.taskMetrics.lookup task.pid with
  | some m =>
    by_cases hp : pid = task.pid
    · simp [hp, h]
    · simp [hp]
  | none => simp [Bpf.HashMap.lookup_create _ h]

section Recording

variable (g : Globals) (task : Task) (record : TaskSchedMetrics → TaskSchedMetrics) (evt : TaskSchedMetrics → SchedEvent)
  (reserved : Bool) (maps : Maps)

theorem lookup_recordFor (pid : UInt32) :
    (recordFor g task record evt reserved maps).taskMetrics.lookup pid =
      if pid = task.pid ∧ task.pid ≠ 0 ∧ shouldMonitor g maps task then (maps.entryFor task).map record
      else maps.taskMetrics.lookup pid := by
  unfold recordFor
  by_cases hseen : task.pid ≠ 0 ∧ shouldMonitor g maps task = true
  · rw [if_pos hseen]
    have hfound := getOrInitMetrics_snd maps task
    have hlookup := lookup_getOrInitMetrics maps task
    split
    case h_1 maps' hm =>
      rw [hm] at hfound hlookup
      simp [hlookup, hseen, ← hfound]
    case h_2 maps' m hm =>
      rw [hm] at hfound hlookup
      rw [submit_taskMetrics, Bpf.HashMap.lookup_store]
      by_cases hp : pid = task.pid
      · simp [hlookup, hseen, ← hfound, hp]
      · simp [hlookup, hp]
  · rw [if_neg hseen, if_neg fun h => hseen h.2]

theorem recordFor_sameFilters : maps.SameFilters (recordFor g task record evt reserved maps) := by
  unfold recordFor
  have hsame := getOrInitMetrics_sameFilters maps task
  split
  · split
    case h_1 maps' hm => rwa [hm] at hsame
    case h_2 maps' m hm =>
      rw [hm] at hsame
      refine .trans hsame (.trans ?_ (submit_sameFilters ..))
      exact ⟨rfl, rfl, rfl⟩
  · exact ⟨rfl, rfl, rfl⟩

end Recording

section Handlers

variable (g : Globals) (now : UInt64) (cpu : UInt32) (task : Task) (prevState : UInt32) (reserved : Bool) (maps : Maps)

theorem lookup_handlePrev (pid : UInt32) :
    (handlePrev g now cpu task prevState reserved maps).taskMetrics.lookup pid =
      if pid = task.pid ∧ task.pid ≠ 0 ∧ shouldMonitor g maps task then
        (maps.entryFor task).map (recordSwitchOut now prevState)
      else maps.taskMetrics.lookup pid :=
  lookup_recordFor ..

theorem lookup_handleNext (pid : UInt32) :
    (handleNext g now cpu task reserved maps).taskMetrics.lookup pid =
      if pid = task.pid ∧ task.pid ≠ 0 ∧ shouldMonitor g maps task then
        (maps.entryFor task).map (recordSwitchIn maps.cpuTopologyMap now cpu)
      else maps.taskMetrics.lookup pid :=
  lookup_recordFor ..

theorem handlePrev_sameFilters : maps.SameFilters (handlePrev g now cpu task prevState reserved maps) :=
  recordFor_sameFilters ..

theorem handleNext_sameFilters : maps.SameFilters (handleNext g now cpu task reserved maps) :=
  recordFor_sameFilters ..

theorem lookup_handleSchedProcessExit (pid : UInt32) :
    (handleSchedProcessExit g now cpu task reserved maps).taskMetrics.lookup pid =
      if pid = task.pid ∧ shouldMonitor g maps task then none else maps.taskMetrics.lookup pid := by
  unfold handleSchedProcessExit
  by_cases hseen : shouldMonitor g maps task = true
  · simp [hseen, Bpf.HashMap.lookup_delete]
  · simp [hseen]

theorem handleSchedProcessExit_sameFilters :
    maps.SameFilters (handleSchedProcessExit g now cpu task reserved maps) := by
  unfold handleSchedProcessExit
  split
  · exact ⟨(submit_sameFilters ..).pids, (submit_sameFilters ..).tgids, (submit_sameFilters ..).topology⟩
  · exact ⟨rfl, rfl, rfl⟩

end Handlers

end Gthulhu.Monitor
