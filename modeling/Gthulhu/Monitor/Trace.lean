/-
The BPF program attached to a kernel: the scheduler's tracepoints fire, user
space changes the filters and the topology, and the program keeps its maps.

A trace is any sequence of events with time stamps that never go back in
which a task is switched out on the CPU it runs on and switched in when it
runs on none. The kernel's own account of every PID is kept beside the maps:
what the task is doing, since when, and how long it has been doing each thing
before. No step depends on these numbers, nor on `lives`, the history of
every entry since it was made.
-/
import Gthulhu.Lib.Machine
import Gthulhu.Monitor.SchedMonitor

namespace Gthulhu.Monitor

open Lib

/-! ## The kernel's account of a task -/

/-- What the task of a PID is doing. -/
inductive Phase where
  /-- There is no such task. -/
  | absent
  /-- On a run queue. -/
  | runnable
  | blocked
  | running (cpu : UInt32)
  deriving DecidableEq

def Phase.isRunning : Phase → Bool
  | .running _ => true
  | _ => false

/-- Nanoseconds spent in each phase. -/
structure Spent where
  running : Nat := 0
  runnable : Nat := 0
  blocked : Nat := 0
  absent : Nat := 0
  deriving DecidableEq

def Spent.add (t : Spent) : Phase → Nat → Spent
  | .absent, ns => { t with absent := t.absent + ns }
  | .runnable, ns => { t with runnable := t.runnable + ns }
  | .blocked, ns => { t with blocked := t.blocked + ns }
  | .running _, ns => { t with running := t.running + ns }

/-- The time not spent on a CPU. -/
def Spent.idle (t : Spent) : Nat := t.runnable + t.blocked + t.absent

structure Account where
  phase : Phase
  /-- When the phase began. -/
  since : UInt64
  /-- What was spent before the phase began. -/
  spent : Spent
  /-- The task has passed `sched_process_exit`. -/
  exiting : Bool
  deriving DecidableEq

/-- What has been spent up to `now`. -/
def Account.spentAt (a : Account) (now : UInt64) : Spent := a.spent.add a.phase (now.toNat - a.since.toNat)

def Account.enter (a : Account) (now : UInt64) (phase : Phase) : Account where
  phase := phase
  since := now
  spent := a.spentAt now
  exiting := a.exiting && phase ≠ .absent

/-- The scheduler: the time of the last event and the account of each PID. -/
structure Kernel where
  clock : UInt64
  tasks : UInt32 → Account
  past : ∀ pid, (tasks pid).since ≤ clock

def Kernel.tick (k : Kernel) (now : UInt64) (h : k.clock ≤ now) : Kernel where
  clock := now
  tasks := k.tasks
  past pid := UInt64.le_trans (k.past pid) h

def Kernel.set (k : Kernel) (pid : UInt32) (a : Account) (h : a.since ≤ k.clock) : Kernel where
  clock := k.clock
  tasks := Function.update k.tasks pid a
  past pid' := by
    by_cases hp : pid' = pid
    · subst hp
      simpa using h
    · simpa [hp] using k.past pid'

/-- The task of `pid` goes over to another phase. -/
def Kernel.enter (k : Kernel) (pid : UInt32) (phase : Phase) : Kernel :=
  k.set pid ((k.tasks pid).enter k.clock phase) (UInt64.le_refl _)

/-! ## The monitor at work -/

/-- The history of an entry of `task_metrics` since it was made. -/
structure Life where
  /-- What the task had spent when the entry was made. -/
  born : Spent
  /-- At each switch since then the task passed the filter. -/
  kept : Bool
  /-- The CPUs it was switched in on since then, the last first. -/
  cpus : List UInt32

/-- The history after a switch of the task. -/
def Life.track (life : Life) (before after : Option TaskSchedMetrics) (seen : Bool) (spent : Spent) : Life :=
  if before.isNone && after.isSome then { born := spent, kept := true, cpus := [] }
  else { life with kept := life.kept && seen }

structure State where
  maps : Maps
  kernel : Kernel
  lives : UInt32 → Life

def State.entry (s : State) (pid : UInt32) : Option TaskSchedMetrics := s.maps.taskMetrics.lookup pid

/-- The arguments of `sched_switch` and what its handler reads. -/
structure Switch where
  now : UInt64
  cpu : UInt32
  prev : Task
  next : Task
  prevState : UInt32
  /-- The previous task is switched out for good. -/
  final : Bool
  reserved : Bool × Bool := (true, true)

/-- What user space writes. -/
inductive Write where
  | addPid (pid : UInt32)
  | removePid (pid : UInt32)
  | addTgid (tgid : UInt32)
  | removeTgid (tgid : UInt32)
  | topology (cpu : UInt32) (info : CpuTopologyInfo)

inductive Event where
  | schedSwitch (w : Switch)
  | schedProcessExit (now : UInt64) (cpu : UInt32) (task : Task) (reserved : Bool)
  /-- A blocked task, or a new one, is put on a run queue. -/
  | wakeup (now : UInt64) (pid : UInt32)
  | write (w : Write)

/-- A write that the map refuses leaves it as it is. -/
def Write.apply (maps : Maps) : Write → Maps
  | .addPid pid => { maps with monitoredPids := maps.monitoredPids.after (maps.monitoredPids.update pid 1) }
  | .removePid pid => { maps with monitoredPids := maps.monitoredPids.after (maps.monitoredPids.delete pid) }
  | .addTgid tgid => { maps with monitoredTgids := maps.monitoredTgids.after (maps.monitoredTgids.update tgid 1) }
  | .removeTgid tgid => { maps with monitoredTgids := maps.monitoredTgids.after (maps.monitoredTgids.delete tgid) }
  | .topology cpu info =>
    match maps.cpuTopologyMap.update cpu.toNat info with
    | .ok slots => { maps with cpuTopologyMap := slots }
    | .error _ => maps

/-- What an event does to the maps. -/
def Event.apply (g : Globals) (maps : Maps) : Event → Maps
  | .schedSwitch w => handleSchedSwitch g w.now w.cpu w.prev w.next w.prevState w.reserved maps
  | .schedProcessExit now cpu task reserved => handleSchedProcessExit g now cpu task reserved maps
  | .wakeup .. => maps
  | .write w => w.apply maps

/-- The task passes the filter and is not the idle task. -/
def seen (g : Globals) (maps : Maps) (task : Task) : Bool := task.pid ≠ 0 && shouldMonitor g maps task

/-- What a task does after a switch-out: a state of 0 means that it could go
on running. -/
def phaseAfter (prevState : UInt32) (final : Bool) : Phase :=
  if final then .absent else if prevState = 0 then .runnable else .blocked

namespace State

def tick (s : State) (now : UInt64) : Option State :=
  if h : s.kernel.clock ≤ now then some { s with kernel := s.kernel.tick now h } else none

/-- The first half of a switch. The idle task runs on many CPUs. -/
def switchOut (g : Globals) (s : State) (w : Switch) : Option State :=
  let account := s.kernel.tasks w.prev.pid
  if w.prev.pid = 0 ∨ account.phase = .running w.cpu ∧ (w.final = true → account.exiting = true) then
    let maps := handlePrev g s.kernel.clock w.cpu w.prev w.prevState w.reserved.1 s.maps
    let kernel := s.kernel.enter w.prev.pid (phaseAfter w.prevState w.final)
    let life := (s.lives w.prev.pid).track (s.entry w.prev.pid) (maps.taskMetrics.lookup w.prev.pid)
      (seen g s.maps w.prev) (kernel.tasks w.prev.pid).spent
    some { maps, kernel, lives := Function.update s.lives w.prev.pid life }
  else none

/-- The second half. -/
def switchIn (g : Globals) (s : State) (w : Switch) : Option State :=
  if w.next.pid = 0 ∨ (s.kernel.tasks w.next.pid).phase.isRunning = false ∧ w.next.pid ≠ w.prev.pid then
    let maps := handleNext g s.kernel.clock w.cpu w.next w.reserved.2 s.maps
    let kernel := s.kernel.enter w.next.pid (.running w.cpu)
    let life := (s.lives w.next.pid).track (s.entry w.next.pid) (maps.taskMetrics.lookup w.next.pid)
      (seen g s.maps w.next) (kernel.tasks w.next.pid).spent
    some { maps, kernel, lives := Function.update s.lives w.next.pid { life with cpus := w.cpu :: life.cpus } }
  else none

def exit (g : Globals) (s : State) (cpu : UInt32) (task : Task) (reserved : Bool) : State :=
  { s with
    maps := handleSchedProcessExit g s.kernel.clock cpu task reserved s.maps
    kernel := s.kernel.set task.pid { s.kernel.tasks task.pid with exiting := true } (s.kernel.past task.pid) }

/-- A wake-up of a task that is not waiting for one does nothing. -/
def wakeup (s : State) (pid : UInt32) : State :=
  let phase := (s.kernel.tasks pid).phase
  if phase = .blocked ∨ phase = .absent then { s with kernel := s.kernel.enter pid .runnable } else s

def step (g : Globals) (s : State) : Event → Option State
  | .schedSwitch w => do
    let s ← s.tick w.now
    let s ← s.switchOut g w
    s.switchIn g w
  | .schedProcessExit now cpu task reserved => do
    let s ← s.tick now
    return s.exit g cpu task reserved
  | .wakeup now pid => do
    let s ← s.tick now
    return s.wakeup pid
  | .write w => some { s with maps := w.apply s.maps }

end State

def monitor (g : Globals) : Machine State Event where
  step := State.step g

/-- The program is loaded and no task has been seen. -/
def State.loaded : State where
  maps := .loaded
  kernel := ⟨0, fun _ => ⟨.absent, 0, {}, false⟩, fun _ => UInt64.le_refl 0⟩
  lives := fun _ => ⟨{}, false, []⟩

end Gthulhu.Monitor
