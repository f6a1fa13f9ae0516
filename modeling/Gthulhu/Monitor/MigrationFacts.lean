/-
What the migration counters say. `classify_cpu_migration` compares core IDs
before it looks at packages, but sysfs numbers the cores of each package from
zero: a migration to the core of the same number in another package is counted
among SMT siblings (`migrations_confused`).

`migrations_classified_iff`: the three counters are right exactly if the task
made no migration between equal core IDs of different packages or NUMA nodes
(and no count has passed 2^32).
-/
import Gthulhu.Monitor.Collector
import Gthulhu.Monitor.TraceFacts
import Mathlib.Data.List.Count

namespace Gthulhu.Monitor

open Lib List

/-! ## Topologies and migrations -/

/-- The CPUs of a machine and what sysfs says of them. -/
structure Topology where
  cpus : List UInt32
  info : UInt32 → CpuTopologyInfo
  valid : ∀ cpu ∈ cpus, (info cpu).valid ≠ 0

/-- The topology is in the map for all CPUs. -/
def Topology.Injected (t : Topology) (maps : Maps) : Prop :=
  ∀ cpu ∈ t.cpus, maps.cpuTopologyMap.lookup cpu.toNat = some (t.info cpu)

/-- The topology that the collector reads. -/
def Topology.ofSysfs (dirs : List CpuDir) : Topology where
  cpus := (dirs.filterMap CpuDir.topology).map Prod.fst
  info cpu := (sysfsInfo (dirs.filterMap CpuDir.topology) cpu).getD ⟨0, 0, 0, 0, 1⟩
  valid := by
    intro cpu _
    cases hinfo : sysfsInfo (dirs.filterMap CpuDir.topology) cpu with
    | none => exact (by decide : (1 : UInt8) ≠ 0)
    | some info =>
      obtain ⟨record, hfind, rfl⟩ := Option.map_eq_some_iff.mp hinfo
      obtain ⟨dir, -, hdir⟩ := mem_filterMap.mp (mem_reverse.mp (mem_of_find?_eq_some hfind))
      rw [Option.getD_some, CpuDir.topology_valid hdir]
      decide

theorem Topology.ofSysfs_cpus (dirs : List CpuDir) :
    (Topology.ofSysfs dirs).cpus = (dirs.filterMap CpuDir.topology).map Prod.fst := rfl

theorem Topology.ofSysfs_info (dirs : List CpuDir) (cpu : UInt32) :
    (Topology.ofSysfs dirs).info cpu = (sysfsInfo (dirs.filterMap CpuDir.topology) cpu).getD ⟨0, 0, 0, 0, 1⟩ := rfl

/-- The collector injects it for every CPU that has a slot. -/
theorem Topology.ofSysfs_injected (dirs : List CpuDir) (maps : Maps)
    (hslots : ∀ cpu ∈ (Topology.ofSysfs dirs).cpus, cpu.toNat < 1024) :
    (Topology.ofSysfs dirs).Injected
      { maps with cpuTopologyMap := injectCPUTopology dirs maps.cpuTopologyMap } := by
  intro cpu hcpu
  obtain ⟨record, hrecord, hfst⟩ := mem_map.mp hcpu
  have hfound : ((dirs.filterMap CpuDir.topology).reverse.find? fun record => record.1 = cpu).isSome = true := by
    rw [find?_isSome]
    exact ⟨record, mem_reverse.mpr hrecord, by simpa using hfst⟩
  obtain ⟨found, hfind⟩ := Option.isSome_iff_exists.mp hfound
  have hinfo : sysfsInfo (dirs.filterMap CpuDir.topology) cpu = some found.2 := by rw [sysfsInfo, hfind]; rfl
  have hget : (Topology.ofSysfs dirs).info cpu = found.2 := by
    rw [Topology.ofSysfs_info, hinfo]
    rfl
  show (injectCPUTopology dirs maps.cpuTopologyMap).lookup cpu.toNat = some ((Topology.ofSysfs dirs).info cpu)
  rw [injectCPUTopology, lookup_foldl_injectSlot _ (hslots cpu hcpu), hinfo, hget]
  rfl

/-- Tasks run on the CPUs of the machine, and a refresh of the topology writes
what is there. -/
def Topology.Hosts (t : Topology) : Event → Prop
  | .schedSwitch w => w.cpu ∈ t.cpus
  | .write (.topology cpu info) => cpu ∈ t.cpus → info = t.info cpu
  | _ => True

/-- The migrations of a task, each with the new CPU first, from the CPUs of
its switch-ins, the last one first. -/
def migrations (cpus : List UInt32) : List (UInt32 × UInt32) :=
  (cpus.zip cpus.tail).filter fun move => move.1 ≠ move.2

namespace Topology

variable (t : Topology) (move : UInt32 × UInt32)

def sameCoreId : Bool := (t.info move.2).coreId = (t.info move.1).coreId

def samePackage : Bool := (t.info move.2).packageId = (t.info move.1).packageId

def sameNode : Bool := (t.info move.2).numaId = (t.info move.1).numaId

/-- To another CPU of the same core: cores are numbered within a package. -/
def isSmt : Bool := t.samePackage move && t.sameCoreId move

/-- To another core of the same package and NUMA node. -/
def isL3 : Bool := t.samePackage move && t.sameNode move && !t.sameCoreId move

/-- To another package or NUMA node. -/
def isNuma : Bool := !(t.samePackage move && t.sameNode move)

/-- Between equal core IDs of different packages or NUMA nodes. -/
def isConfused : Bool := t.sameCoreId move && t.isNuma move

end Topology

/-! ## What is counted -/

/-- The counters against the migrations made: equal core IDs, then package
and node, decide. -/
structure Tally (t : Topology) (m : TaskSchedMetrics) (cpus : List UInt32) : Prop where
  hosted : ∀ cpu ∈ cpus, cpu ∈ t.cpus
  runs : m.runCount.toNat = cpus.length
  last : ∀ cpu, cpus.head? = some cpu → m.lastCpu = cpu
  smt : m.smtMigrations.toNat = (migrations cpus).countP t.sameCoreId % 2 ^ 32
  l3 : m.l3Migrations.toNat = (migrations cpus).countP t.isL3 % 2 ^ 32
  numa : m.numaMigrations.toNat = (migrations cpus).countP (fun move => t.isNuma move && !t.sameCoreId move) % 2 ^ 32

/-- A 32-bit counter that goes on counting. -/
theorem toNat_count {α : Type} {p} {l : List α} {x : UInt32} (h : x.toNat = l.countP p % 2 ^ 32) (a : α) :
    (if p a then x + 1 else x).toNat = (a :: l).countP p % 2 ^ 32 := by
  rw [countP_cons]
  split
  · rw [UInt32.toNat_add, h]
    simp
  · exact h

section Classify

variable {t : Topology} {slots : Bpf.Array CpuTopologyInfo 1024}
  (hslots : ∀ cpu ∈ t.cpus, slots.lookup cpu.toNat = some (t.info cpu))

include hslots in
/-- A migration between CPUs whose topology is in the map. -/
theorem classify_injected (m : TaskSchedMetrics) {a b} (ha : a ∈ t.cpus) (hb : b ∈ t.cpus) :
    classifyCpuMigration slots m a b =
      { m with
        cpuMigrations := m.cpuMigrations + 1
        smtMigrations := if t.sameCoreId (b, a) then m.smtMigrations + 1 else m.smtMigrations
        l3Migrations := if t.isL3 (b, a) then m.l3Migrations + 1 else m.l3Migrations
        numaMigrations :=
          if t.isNuma (b, a) && !t.sameCoreId (b, a) then m.numaMigrations + 1 else m.numaMigrations } := by
  have hvalid : ¬((t.info a).valid = 0 ∨ (t.info b).valid = 0) := fun h => h.elim (t.valid a ha) (t.valid b hb)
  simp only [classifyCpuMigration, hslots a ha, hslots b hb, if_neg hvalid]
  by_cases hcore : (t.info a).coreId = (t.info b).coreId
  · simp [Topology.sameCoreId, Topology.isL3, Topology.isNuma, hcore]
  · by_cases hnear : (t.info a).packageId = (t.info b).packageId ∧ (t.info a).numaId = (t.info b).numaId
    · simp [Topology.sameCoreId, Topology.isL3, Topology.isNuma, Topology.samePackage, Topology.sameNode, hcore, hnear]
    · have hfar : (t.samePackage (b, a) && t.sameNode (b, a)) = false := by
        simpa [Topology.samePackage, Topology.sameNode] using hnear
      simp [Topology.sameCoreId, Topology.isL3, Topology.isNuma, hcore, hnear, hfar]

end Classify

namespace Tally

variable {t : Topology} {m : TaskSchedMetrics} {cpus : List UInt32}

theorem fresh (t : Topology) (task : Task) : Tally t { pid := task.pid, tgid := task.tgid } [] where
  hosted _ h := by cases h
  runs := rfl
  last _ h := by cases h
  smt := rfl
  l3 := rfl
  numa := rfl

theorem switchOut (h : Tally t m cpus) (now : UInt64) (prevState : UInt32) :
    Tally t (recordSwitchOut now prevState m) cpus := by
  unfold recordSwitchOut
  dsimp only
  split
  · exact ⟨h.hosted, h.runs, h.last, h.smt, h.l3, h.numa⟩
  · exact ⟨h.hosted, h.runs, h.last, h.smt, h.l3, h.numa⟩

/-- The first switch-in, and one on the CPU of the last, migrate nothing. -/
theorem migrations_stays (cpu : UInt32) (hstay : ∀ last, cpus.head? = some last → last = cpu) :
    migrations (cpu :: cpus) = migrations cpus := by
  cases cpus with
  | nil => rfl
  | cons last rest =>
    have hlast := hstay last rfl
    simp [migrations, hlast]

theorem migrations_moves {cpu last rest} (hmove : last ≠ cpu) :
    migrations (cpu :: last :: rest) = (cpu, last) :: migrations (last :: rest) := by
  have hmove' : cpu ≠ last := fun h => hmove h.symm
  simp [migrations, hmove']

theorem switchIn (h : Tally t m cpus) {slots} (hslots : ∀ cpu ∈ t.cpus, slots.lookup cpu.toNat = some (t.info cpu))
    (now : UInt64) {cpu} (hcpu : cpu ∈ t.cpus) (hlt : (cpu :: cpus).length < 2 ^ 64) :
    Tally t (recordSwitchIn slots now cpu m) (cpu :: cpus) := by
  have hhosted : ∀ c ∈ cpu :: cpus, c ∈ t.cpus := by
    intro c hc
    obtain rfl | hc := mem_cons.mp hc
    · exact hcpu
    · exact h.hosted c hc
  have hruns : (m.runCount + 1).toNat = (cpu :: cpus).length := by
    rw [UInt64.toNat_add, h.runs]
    exact Nat.mod_eq_of_lt hlt
  -- the code asks whether the counter passed 1, which is whether there was a switch-in before
  have hfirst : 1 < m.runCount + 1 ↔ cpus ≠ [] := by
    rw [UInt64.lt_iff_toNat_lt, hruns]
    cases cpus <;> simp
  simp only [recordSwitchIn]
  split
  case isTrue hmoved =>
    obtain ⟨hrun, hmove⟩ := hmoved
    cases hc : cpus with
    | nil => exact absurd hc (hfirst.mp hrun)
    | cons last rest =>
      subst hc
      have hlast : m.lastCpu = last := h.last last rfl
      rw [hlast] at hmove ⊢
      rw [classify_injected hslots _ (h.hosted last mem_cons_self) hcpu]
      refine ⟨hhosted, hruns, fun c hc => Option.some.inj hc, ?_, ?_, ?_⟩
      all_goals rw [migrations_moves hmove]
      · exact toNat_count h.smt (cpu, last)
      · exact toNat_count h.l3 (cpu, last)
      · exact toNat_count h.numa (cpu, last)
  case isFalse hstays =>
    have hstay : ∀ last, cpus.head? = some last → last = cpu := by
      intro last hlast
      by_contra hne
      refine hstays ⟨hfirst.mpr fun hnil => ?_, ?_⟩
      · rw [hnil] at hlast
        cases hlast
      · rw [h.last last hlast]
        exact hne
    refine ⟨hhosted, hruns, fun c hc => Option.some.inj hc, ?_, ?_, ?_⟩
    all_goals rw [migrations_stays cpu hstay]
    · exact h.smt
    · exact h.l3
    · exact h.numa

end Tally

/-! ## Runs -/

/-- The entry of a task that passed the filter at each switch has counted by
the rule above. -/
def View.Tallied (t : Topology) (v : View) : Prop :=
  ∀ m, v.entry = some m → v.life.kept = true → v.life.cpus.length < 2 ^ 64 → Tally t m v.life.cpus

section Steps

variable {t : Topology} {v : View} {fresh : Option TaskSchedMetrics} {task : Task}

theorem View.Tallied.switchOut (h : v.Tallied t) (seen : Bool) (hfresh : Fresh task fresh) (prevState : UInt32)
    (final : Bool) : (v.switchOut seen fresh prevState final).Tallied t := by
  intro m' hm' hkept hlt
  simp only [View.switchOut] at hkept hlt ⊢
  obtain ⟨m, -, hf, rfl, hlife⟩ | ⟨m, hm, -, rfl, hlife⟩ | ⟨-, -, hlife⟩ :=
    recorded_cases (v.account.spentAt v.clock) hm'
  · rw [hlife, hfresh m hf]
    exact (Tally.fresh t task).switchOut _ _
  · rw [hlife] at hkept hlt ⊢
    exact (h m hm hkept hlt).switchOut _ _
  · rw [hlife] at hkept
    cases hkept

theorem View.Tallied.switchIn (h : v.Tallied t) (seen : Bool) (hfresh : Fresh task fresh) {slots}
    (hslots : ∀ cpu ∈ t.cpus, slots.lookup cpu.toNat = some (t.info cpu)) {cpu}
    (hcpu : cpu ∈ t.cpus) : (v.switchIn seen fresh slots cpu).Tallied t := by
  intro m' hm' hkept hlt
  simp only [View.switchIn] at hkept hlt ⊢
  obtain ⟨m, -, hf, rfl, hlife⟩ | ⟨m, hm, -, rfl, hlife⟩ | ⟨-, -, hlife⟩ :=
    recorded_cases (v.account.spentAt v.clock) hm'
  · rw [hlife, hfresh m hf]
    exact (Tally.fresh t task).switchIn hslots _ hcpu (by simp)
  · rw [hlife] at hkept hlt ⊢
    exact (h m hm hkept (Nat.lt_of_succ_lt hlt)).switchIn hslots _ hcpu hlt
  · rw [hlife] at hkept
    cases hkept

variable {g : Globals} {s s' : State} {e : Event} {pid : UInt32}

theorem tallied_step (hpid : pid ≠ 0) (hinj : t.Injected s.maps) (h : (s.view pid).Tallied t) (hhosts : t.Hosts e)
    (hstep : (monitor g).step s e = some s') : (s'.view pid).Tallied t := by
  have hmoves := step_moves hstep hpid
  generalize s'.view pid = v' at hmoves ⊢
  cases hmoves with
  | passes => exact h
  | @switchOut w _ _ _ _ _ fresh hfresh =>
    exact View.Tallied.switchOut (v := (s.view pid).tick w.now) h _ hfresh _ _
  | @switchIn w _ _ _ _ fresh hfresh =>
    exact View.Tallied.switchIn (v := (s.view pid).tick w.now) h _ hfresh hinj hhosts
  | exit => exact fun m hm => h m (View.entry_of_exit hm).2
  | wakeup => exact h

/-- The topology stays in the map. -/
theorem injected_step (hinj : t.Injected s.maps) (hhosts : t.Hosts e) (hstep : (monitor g).step s e = some s') :
    t.Injected s'.maps := by
  intro cpu' hcpu'
  rw [step_maps hstep]
  cases e with
  | schedSwitch w =>
    rw [Event.apply, handleSchedSwitch, (handleNext_sameFilters ..).topology, (handlePrev_sameFilters ..).topology]
    exact hinj cpu' hcpu'
  | schedProcessExit now cpu task reserved =>
    rw [Event.apply, (handleSchedProcessExit_sameFilters ..).topology]
    exact hinj cpu' hcpu'
  | wakeup now pid => exact hinj cpu' hcpu'
  | write w =>
    cases w with
    | topology cpu info =>
      simp only [Event.apply, Write.apply]
      split
      case h_1 slots hslots =>
        rw [Bpf.Array.lookup_update hslots cpu'.toNat]
        split
        case isTrue heq =>
          obtain rfl : cpu' = cpu := UInt32.toNat_inj.mp heq
          rw [hhosts hcpu']
        case isFalse => exact hinj cpu' hcpu'
      case h_2 => exact hinj cpu' hcpu'
    | _ => exact hinj cpu' hcpu'

end Steps

/-! ## The counters against the topology -/

/-- The three counters say what they are for. -/
structure Classified (t : Topology) (m : TaskSchedMetrics) (cpus : List UInt32) : Prop where
  smt : m.smtMigrations.toNat = (migrations cpus).countP t.isSmt
  l3 : m.l3Migrations.toNat = (migrations cpus).countP t.isL3
  numa : m.numaMigrations.toNat = (migrations cpus).countP t.isNuma

/-- No migration is between equal core IDs of different packages or nodes, and
the counts fit into the counters. -/
structure Distinguishable (t : Topology) (cpus : List UInt32) : Prop where
  clear : ∀ move ∈ migrations cpus, t.isConfused move = false
  smt : (migrations cpus).countP t.isSmt < 2 ^ 32
  l3 : (migrations cpus).countP t.isL3 < 2 ^ 32
  numa : (migrations cpus).countP t.isNuma < 2 ^ 32

/-- What is counted as NUMA migrations falls short by the confused ones. -/
theorem countP_isNuma (t : Topology) (moves : List (UInt32 × UInt32)) :
    moves.countP t.isNuma =
      moves.countP (fun move => t.isNuma move && !t.sameCoreId move) + moves.countP t.isConfused := by
  rw [countP_eq_countP_filter_add moves t.isNuma t.sameCoreId, countP_filter, countP_filter, Nat.add_comm]
  congr 2
  funext move
  exact Bool.and_comm _ _

/-- What is counted as SMT migrations exceeds them by confused ones. -/
theorem countP_sameCoreId (t : Topology) (moves : List (UInt32 × UInt32)) (h : moves.countP t.isConfused = 0) :
    moves.countP t.sameCoreId = moves.countP t.isSmt := by
  refine countP_congr fun move hmove => ?_
  have hclear : ¬t.isConfused move = true := countP_eq_zero.mp h move hmove
  simp only [Topology.isConfused, Topology.isNuma, Topology.isSmt] at hclear ⊢
  grind

theorem Tally.classified_iff {t m cpus} (h : Tally t m cpus) :
    Classified t m cpus ↔ Distinguishable t cpus := by
  have hnuma := countP_isNuma t (migrations cpus)
  constructor
  · intro hc
    -- a counter never exceeds what it counts, so no confused migration is missing from it
    have hle := Nat.mod_le ((migrations cpus).countP fun move => t.isNuma move && !t.sameCoreId move) (2 ^ 32)
    rw [← h.numa, hc.numa] at hle
    have hzero : (migrations cpus).countP t.isConfused = 0 := by omega
    refine ⟨fun move hmove => ?_, ?_, ?_, ?_⟩
    · simpa using countP_eq_zero.mp hzero move hmove
    · rw [← hc.smt]
      exact m.smtMigrations.toNat_lt
    · rw [← hc.l3]
      exact m.l3Migrations.toNat_lt
    · rw [← hc.numa]
      exact m.numaMigrations.toNat_lt
  · intro hd
    have hzero : (migrations cpus).countP t.isConfused = 0 :=
      countP_eq_zero.mpr fun move hmove => by simp [hd.clear move hmove]
    refine ⟨?_, ?_, ?_⟩
    · rw [h.smt, countP_sameCoreId t _ hzero, Nat.mod_eq_of_lt hd.smt]
    · rw [h.l3, Nat.mod_eq_of_lt hd.l3]
    · have hlt := hd.numa
      rw [hzero, Nat.add_zero] at hnuma
      rw [hnuma] at hlt ⊢
      rw [h.numa, Nat.mod_eq_of_lt hlt]

/-- **Migrations are classified by the topology exactly if** no migration is
between equal core IDs of different packages or NUMA nodes, for every task
that passed the filter at each switch since its entry was made. -/
theorem migrations_classified_iff {g : Globals} {s₀ s : State} {es : List Event} {t : Topology} (hnew : s₀.Empty)
    (hinj : t.Injected s₀.maps) (hhosts : ∀ e ∈ es, t.Hosts e) (h : (monitor g).exec s₀ es = some s) :
    ∀ pid m, s.entry pid = some m → (s.lives pid).kept = true → (s.lives pid).cpus.length < 2 ^ 64 →
      (Classified t m (s.lives pid).cpus ↔ Distinguishable t (s.lives pid).cpus) := by
  intro pid m hm hkept hlt
  have hpid := entry_ne_zero hnew h hm
  have hstart : t.Injected s₀.maps ∧ (s₀.view pid).Tallied t :=
    ⟨hinj, fun m hm => by cases (hnew pid).symm.trans hm⟩
  have hend := Machine.invariantWhere (I := fun s => t.Injected s.maps ∧ (s.view pid).Tallied t)
    (fun hi he hs => ⟨injected_step hi.1 he hs, tallied_step hpid hi.1 hi.2 he hs⟩) h
    (Machine.guarded_of_forall hhosts) hstart
  exact (hend.2 m hm hkept hlt).classified_iff

/-! ## A machine with two packages -/

section TwoPackages

private def cpuDir (cpu core package : String) : CpuDir where
  path := "/sys/devices/system/cpu/cpu" ++ cpu
  coreId := some (core ++ "\n")
  physicalPackageId := some (package ++ "\n")
  nodes := ["/sys/devices/system/cpu/cpu" ++ cpu ++ "/node" ++ package]
  llcId := none

/-- Two packages of two cores each, numbered 0 and 1 in both. -/
def twoPackages : List CpuDir := [cpuDir "0" "0" "0", cpuDir "1" "1" "0", cpuDir "2" "0" "1", cpuDir "3" "1" "1"]

/-- What sysfs says of its CPUs. -/
def twoPackageRecords : List (UInt32 × CpuTopologyInfo) :=
  [(0, ⟨0, 0, 0, 0, 1⟩), (1, ⟨1, 0, 0, 0, 1⟩), (2, ⟨0, 1, 1, 0, 1⟩), (3, ⟨1, 1, 1, 0, 1⟩)]

theorem twoPackages_records : twoPackages.filterMap CpuDir.topology = twoPackageRecords := by decide +kernel

theorem twoPackages_cpus : (Topology.ofSysfs twoPackages).cpus = [0, 1, 2, 3] := by
  rw [Topology.ofSysfs_cpus, twoPackages_records]
  rfl

theorem twoPackages_info (cpu : UInt32) :
    (Topology.ofSysfs twoPackages).info cpu = (sysfsInfo twoPackageRecords cpu).getD ⟨0, 0, 0, 0, 1⟩ := by
  rw [Topology.ofSysfs_info, twoPackages_records]

/-- The program is loaded on that machine. -/
def loadedTwoPackages : State :=
  { State.loaded with
    maps := { Maps.loaded with cpuTopologyMap := injectCPUTopology twoPackages Maps.loaded.cpuTopologyMap } }

theorem loadedTwoPackages_eq :
    loadedTwoPackages =
      { State.loaded with
        maps := { Maps.loaded with cpuTopologyMap := twoPackageRecords.foldl injectSlot Maps.loaded.cpuTopologyMap } } := by
  rw [loadedTwoPackages, injectCPUTopology, twoPackages_records]

/-- A task runs on one CPU and then on another. -/
def runsOn (cpu cpu' : UInt32) : List Event :=
  [.write (.addPid 7), .schedSwitch ⟨10, cpu, .idle, ⟨7, 7⟩, 0, false, (true, true)⟩,
    .schedSwitch ⟨20, cpu, ⟨7, 7⟩, .idle, 0, false, (true, true)⟩,
    .schedSwitch ⟨30, cpu', .idle, ⟨7, 7⟩, 0, false, (true, true)⟩]

/-- From core 0 of package 0 to core 0 of package 1. -/
theorem migrations_confused :
    ∃ s, (monitor {}).exec loadedTwoPackages (runsOn 0 2) = some s ∧
      (s.entry 7).map (fun m => (m.smtMigrations, m.numaMigrations)) = some (1, 0) ∧
      (s.lives 7).kept = true ∧ migrations (s.lives 7).cpus = [(2, 0)] ∧
      (Topology.ofSysfs twoPackages).isNuma (2, 0) = true ∧ (Topology.ofSysfs twoPackages).isSmt (2, 0) = false := by
  simp only [Topology.isNuma, Topology.isSmt, Topology.samePackage, Topology.sameNode, Topology.sameCoreId,
    twoPackages_info, loadedTwoPackages_eq]
  exact Machine.exists_exec (by decide +kernel)

theorem migrations_classified_iff_near :
    ∃ s m, (monitor {}).exec loadedTwoPackages (runsOn 0 1) = some s ∧ s.entry 7 = some m ∧
      Classified (Topology.ofSysfs twoPackages) m (s.lives 7).cpus := by
  obtain ⟨s, h, hentry, hkept, hcpus⟩ : ∃ s, (monitor {}).exec loadedTwoPackages (runsOn 0 1) = some s ∧
      (s.entry 7).isSome = true ∧ (s.lives 7).kept = true ∧ (s.lives 7).cpus = [1, 0] := by
    rw [loadedTwoPackages_eq]
    exact Machine.exists_exec (by decide +kernel)
  obtain ⟨m, hm⟩ := Option.isSome_iff_exists.mp hentry
  have hslots : ∀ cpu ∈ (Topology.ofSysfs twoPackages).cpus, cpu.toNat < 1024 := by simp [twoPackages_cpus]
  have hhosts : ∀ e ∈ runsOn 0 1, (Topology.ofSysfs twoPackages).Hosts e := by
    simp [runsOn, Topology.Hosts, twoPackages_cpus]
  have hnew : loadedTwoPackages.Empty := loaded_empty
  have hclassified := migrations_classified_iff hnew (Topology.ofSysfs_injected twoPackages Maps.loaded hslots) hhosts h
    7 m hm hkept (by rw [hcpus, length_cons, length_singleton]; omega)
  refine ⟨s, m, h, hm, hclassified.mpr ?_⟩
  rw [hcpus]
  have hconfused : ∀ move ∈ migrations [1, 0], (Topology.ofSysfs twoPackages).isConfused move = false := by
    intro move hmove
    obtain rfl : move = (1, 0) := mem_singleton.mp hmove
    simp only [Topology.isConfused, Topology.isNuma, Topology.samePackage, Topology.sameNode, Topology.sameCoreId,
      twoPackages_info]
    decide +kernel
  have hcount : ∀ p : UInt32 × UInt32 → Bool, (migrations [1, 0]).countP p < 2 ^ 32 := by
    intro p
    have hle : (migrations [1, 0]).countP p ≤ 1 := countP_le_length
    omega
  exact ⟨hconfused, hcount _, hcount _, hcount _⟩

end TwoPackages

end Gthulhu.Monitor
