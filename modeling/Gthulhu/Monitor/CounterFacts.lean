/-
The counters of `task_metrics` and of the pod records, over any sequence of
events the handlers are called with.

* `migrations_add_up`: the migrations of an entry are those of the three kinds,
  and fewer than its runs as long as the runs can be counted; the kinds add up
  in a pod record as well.
* `exported_mono`: what is exported of a pod does not go back while no exit
  takes an entry of the pod away and its tasks stay mapped. An exit that does
  takes what it has counted out of the total (`exported_exit`).
-/
import Gthulhu.Lib.Machine
import Gthulhu.Monitor.Collector
import Gthulhu.Monitor.TraceFacts
import Mathlib.Algebra.Order.BigOperators.Group.List

namespace Gthulhu.Monitor

open Lib

/-- The handlers on their maps, whatever events they are called with. -/
def handlers (g : Globals) : Machine Maps Event where
  step maps e := some (e.apply g maps)

/-! ## Entries -/

section Entries

variable {g : Globals} {task : Task} {record : TaskSchedMetrics → TaskSchedMetrics} {evt : TaskSchedMetrics → SchedEvent}
  {reserved : Bool} {maps : Maps} {pid : UInt32} {m m' : TaskSchedMetrics}

/-- An entry after a half of a switch was there before or is newly recorded. -/
theorem recordFor_inv (h : (recordFor g task record evt reserved maps).taskMetrics.lookup pid = some m') :
    maps.taskMetrics.lookup pid = some m' ∨ ∃ m, m' = record m ∧
      (maps.taskMetrics.lookup pid = some m ∨ m = { pid := task.pid, tgid := task.tgid }) := by
  rw [lookup_recordFor] at h
  split at h
  · rename_i hrec
    obtain ⟨m, hm, rfl⟩ := Option.map_eq_some_iff.mp h
    rw [hrec.1]
    exact .inr ⟨m, rfl, (Option.or_eq_some_iff.mp hm).imp_right fun hf => maps.fresh_fresh task m hf.2⟩
  · exact .inl h

theorem lookup_exit {now cpu}
    (h : (handleSchedProcessExit g now cpu task reserved maps).taskMetrics.lookup pid = some m) :
    maps.taskMetrics.lookup pid = some m := by
  rw [lookup_handleSchedProcessExit] at h
  split at h
  · cases h
  · exact h

/-- A switch-in counts one migration at most, and under one kind. -/
theorem recordSwitchIn_migrations (topology : Bpf.Array CpuTopologyInfo 1024) (now : UInt64) (cpu : UInt32)
    (m : TaskSchedMetrics) : ∃ a b c : UInt32,
      (recordSwitchIn topology now cpu m).smtMigrations = m.smtMigrations + a ∧
      (recordSwitchIn topology now cpu m).l3Migrations = m.l3Migrations + b ∧
      (recordSwitchIn topology now cpu m).numaMigrations = m.numaMigrations + c ∧
      (recordSwitchIn topology now cpu m).cpuMigrations = m.cpuMigrations + (a + b + c) ∧
      ((a = 0 ∧ b = 0 ∧ c = 0) ∨ 1 < m.runCount + 1 ∧
        ((a = 1 ∧ b = 0 ∧ c = 0) ∨ (a = 0 ∧ b = 1 ∧ c = 0) ∨ (a = 0 ∧ b = 0 ∧ c = 1))) := by
  simp only [recordSwitchIn, classifyCpuMigration]
  split
  · rename_i hmoved
    split
    · split
      · exact ⟨0, 1, 0, by simp [hmoved.1]⟩
      · split
        · exact ⟨1, 0, 0, by simp [hmoved.1]⟩
        · split
          · exact ⟨0, 1, 0, by simp [hmoved.1]⟩
          · exact ⟨0, 0, 1, by simp [hmoved.1]⟩
    · exact ⟨0, 1, 0, by simp [hmoved.1]⟩
  · exact ⟨0, 0, 0, by simp⟩

@[simp] theorem recordSwitchIn_runCount (topology : Bpf.Array CpuTopologyInfo 1024) (now : UInt64) (cpu : UInt32)
    (m : TaskSchedMetrics) : (recordSwitchIn topology now cpu m).runCount = m.runCount + 1 := by
  obtain ⟨_, _, _, _, h⟩ := recordSwitchIn_eq topology now cpu m
  rw [h]

end Entries

/-! ## Migrations -/

def TaskSchedMetrics.KindsAddUp (m : TaskSchedMetrics) : Prop :=
  m.cpuMigrations = m.smtMigrations + m.l3Migrations + m.numaMigrations

def PodSchedMetrics.KindsAddUp (m : PodSchedMetrics) : Prop :=
  m.cpuMigrations = m.smtMigrations + m.l3Migrations + m.numaMigrations

/-- The migrations of an entry, `n` events after the program was loaded. -/
structure Sums (n : Nat) (m : TaskSchedMetrics) : Prop where
  kinds : m.KindsAddUp
  runs : n < 2 ^ 64 → m.runCount.toNat ≤ n
  le : n < 2 ^ 64 → m.cpuMigrations.toNat ≤ m.runCount.toNat - 1

namespace Sums

variable {n : Nat} {m : TaskSchedMetrics}

theorem fresh (pid tgid : UInt32) : Sums n { pid, tgid } := ⟨rfl, fun _ => Nat.zero_le _, fun _ => Nat.zero_le _⟩

theorem succ (h : Sums n m) : Sums (n + 1) m :=
  ⟨h.kinds, fun hn => Nat.le_succ_of_le (h.runs (by omega)), fun hn => h.le (by omega)⟩

theorem switchOut (h : Sums n m) (now : UInt64) (prevState : UInt32) : Sums n (recordSwitchOut now prevState m) := by
  obtain ⟨hkinds, hruns, hle⟩ := h
  unfold recordSwitchOut
  dsimp only
  split <;> exact ⟨hkinds, hruns, hle⟩

theorem switchIn (h : Sums n m) (topology : Bpf.Array CpuTopologyInfo 1024) (now : UInt64) (cpu : UInt32) :
    Sums (n + 1) (recordSwitchIn topology now cpu m) := by
  obtain ⟨a, b, c, hsmt, hl3, hnuma, htotal, hone⟩ := recordSwitchIn_migrations topology now cpu m
  have hrun : n + 1 < 2 ^ 64 → (m.runCount + 1).toNat = m.runCount.toNat + 1 := fun hn => by
    have := h.runs (by omega)
    rw [UInt64.toNat_add]
    exact Nat.mod_eq_of_lt (by simp; omega)
  refine ⟨?_, fun hn => ?_, fun hn => ?_⟩
  · rw [TaskSchedMetrics.KindsAddUp, htotal, hsmt, hl3, hnuma, h.kinds]
    ac_rfl
  · have := h.runs (by omega)
    rw [recordSwitchIn_runCount, hrun hn]
    omega
  · have hle := h.le (by omega)
    rw [recordSwitchIn_runCount, hrun hn, htotal]
    rcases hone with ⟨rfl, rfl, rfl⟩ | ⟨hlt, hone⟩
    · simp
      omega
    · -- the task has run before, so there is room for one more
      have hbefore := UInt64.lt_iff_toNat_lt.mp hlt
      rw [hrun hn] at hbefore
      have hd : a + b + c = 1 := by rcases hone with ⟨rfl, rfl, rfl⟩ | ⟨rfl, rfl, rfl⟩ | ⟨rfl, rfl, rfl⟩ <;> rfl
      have hadd : (m.cpuMigrations + 1).toNat ≤ m.cpuMigrations.toNat + 1 := by
        rw [UInt32.toNat_add]
        exact Nat.mod_le _ _
      rw [hd]
      simp at hbefore
      omega

end Sums

theorem sums_apply {g n maps} (h : ∀ pid m, maps.taskMetrics.lookup pid = some m → Sums n m) (e : Event) (pid : UInt32)
    (m : TaskSchedMetrics) (hm : (e.apply g maps).taskMetrics.lookup pid = some m) :
    Sums (n + 1) m := by
  cases e with
  | schedSwitch w =>
    have hout : ∀ pid m, (handlePrev g w.now w.cpu w.prev w.prevState w.reserved.1 maps).taskMetrics.lookup pid = some m →
        Sums n m := fun pid m hm => by
      obtain hm | ⟨m, rfl, hm | rfl⟩ := recordFor_inv hm
      · exact h pid m hm
      · exact (h pid m hm).switchOut _ _
      · exact (Sums.fresh _ _).switchOut _ _
    obtain hm | ⟨m, rfl, hm | rfl⟩ := recordFor_inv hm
    · exact (hout pid m hm).succ
    · exact (hout pid m hm).switchIn _ _ _
    · exact (Sums.fresh _ _).switchIn _ _ _
  | schedProcessExit now cpu task reserved => exact (h pid m (lookup_exit hm)).succ
  | wakeup now pid' => exact (h pid m hm).succ
  | write w =>
    rw [Event.apply, Write.apply_taskMetrics] at hm
    exact (h pid m hm).succ

/-- The kinds add up in the records if they do in the entries. -/
theorem poll_kinds {reads order podMapper maps} (h : ∀ pid m, maps.taskMetrics.lookup pid = some m → m.KindsAddUp) :
    ∀ podUID agg, (poll reads order podMapper maps).2.lookup podUID = some agg → agg.KindsAddUp := by
  refine List.foldlRecOn (motive := fun state : PodMapper × StrMap PodSchedMetrics => ∀ podUID agg,
    state.2.lookup podUID = some agg → agg.KindsAddUp) _ _ (fun _ _ hagg => by cases hagg)
    fun state hstate entry hentry podUID agg hagg => ?_
  have hkinds := h entry.1 entry.2 (AList.mem_lookup_iff.mpr (mem_reorder.mp hentry))
  unfold pollTask at hagg
  split at hagg
  case h_1 => exact hstate podUID agg hagg
  case h_2 podInfo _ =>
    by_cases huid : podUID = podInfo.podUID
    · have hbefore : ((state.2.lookup podInfo.podUID).getD podInfo.zeroMetrics).KindsAddUp := by
        cases hlookup : state.2.lookup podInfo.podUID with
        | none => rfl
        | some agg => exact hstate _ agg hlookup
      rw [huid, AList.lookup_insert] at hagg
      cases hagg
      simp only [PodSchedMetrics.KindsAddUp, PodSchedMetrics.add]
      rw [hbefore, hkinds]
      ac_rfl
    · rw [AList.lookup_insert_ne huid] at hagg
      exact hstate podUID agg hagg

/-- **The migration counters add up**: in every entry, whatever the events and
the topology, and in every record made from such entries. The migrations are
fewer than the runs in any trace that the 64 bits of `run_count` can count. -/
theorem migrations_add_up (g : Globals) {maps₀ maps es} (hnew : ∀ pid, maps₀.taskMetrics.lookup pid = none)
    (h : (handlers g).exec maps₀ es = some maps) :
    (∀ pid m, maps.taskMetrics.lookup pid = some m →
      m.KindsAddUp ∧ (es.length < 2 ^ 64 → m.cpuMigrations.toNat ≤ m.runCount.toNat - 1)) ∧
    ∀ reads order podMapper (polled : Maps), (∀ pid m, polled.taskMetrics.lookup pid = some m → m.KindsAddUp) →
      ∀ podUID agg, (poll reads order podMapper polled).2.lookup podUID = some agg → agg.KindsAddUp := by
  have hsums := Machine.history (I := fun es maps => ∀ pid m, maps.taskMetrics.lookup pid = some m → Sums es.length m)
    (fun pid m hm => by cases (hnew pid).symm.trans hm) (fun _ hi hs pid m hm => by
      cases hs
      rw [List.length_append]
      exact sums_apply hi _ pid m hm) h
  exact ⟨fun pid m hm => ⟨(hsums pid m hm).kinds, (hsums pid m hm).le⟩, fun _ _ _ _ => poll_kinds⟩

/-- Task 7 is switched in on a CPU and out again. -/
def inAndOut (cpu : UInt32) : List Event :=
  [.schedSwitch ⟨1, cpu, .idle, ⟨7, 7⟩, 0, false, (true, true)⟩, .schedSwitch ⟨1, cpu, ⟨7, 7⟩, .idle, 0, false, (true, true)⟩]

theorem migrations_add_up_twice : ∃ maps m, (handlers ⟨true, false⟩).exec .loaded (inAndOut 0 ++ inAndOut 1) = some maps ∧
    maps.taskMetrics.lookup 7 = some m ∧ m.cpuMigrations.toNat ≤ m.runCount.toNat - 1 := by
  obtain ⟨maps, h, hsome⟩ : ∃ maps, (handlers ⟨true, false⟩).exec .loaded (inAndOut 0 ++ inAndOut 1) = some maps ∧
      (maps.taskMetrics.lookup 7).isSome = true := Machine.exists_exec (by decide +kernel)
  obtain ⟨m, hm⟩ := Option.isSome_iff_exists.mp hsome
  exact ⟨maps, m, h, hm, ((migrations_add_up _ Bpf.HashMap.lookup_empty h).1 7 m hm).2 (by decide)⟩

/-- A task that stays on its CPU adds to its runs only. -/
theorem exec_inAndOut {maps m} (hm : maps.taskMetrics.lookup 7 = some m) (hcpu : m.lastCpu = 1) :
    ∀ n : Nat, ∃ maps' m', (handlers ⟨true, false⟩).exec maps (List.replicate n (inAndOut 1)).flatten = some maps' ∧
      maps'.taskMetrics.lookup 7 = some m' ∧ m'.lastCpu = 1 ∧ m'.cpuMigrations = m.cpuMigrations ∧
      m'.runCount = m.runCount + UInt64.ofNat n
  | 0 => ⟨maps, m, rfl, hm, hcpu, rfl, by simp⟩
  | n + 1 => by
    obtain ⟨maps', m', h, hm', hcpu', hmigrations, hruns⟩ := exec_inAndOut hm hcpu n
    rw [List.replicate_succ', List.flatten_append, List.flatten_singleton]
    refine ⟨_, recordSwitchOut 1 0 (recordSwitchIn maps'.cpuTopologyMap 1 1 m'), Machine.exec_trans h rfl, ?_, rfl, ?_, ?_⟩
    · simp [Event.apply, handleSchedSwitch, lookup_handleNext, lookup_handlePrev, shouldMonitor, Maps.entryFor, Task.idle, hm']
      rfl
    · simp [recordSwitchOut, recordSwitchIn, hcpu', hmigrations]
    · simp [recordSwitchOut, hruns, UInt64.add_assoc]

/-- After 2^64 runs `run_count` is back at zero, and the migration is still
there. -/
theorem runCount_wraps : ∃ es maps m, (handlers ⟨true, false⟩).exec .loaded es = some maps ∧
    maps.taskMetrics.lookup 7 = some m ∧ ¬m.cpuMigrations.toNat ≤ m.runCount.toNat - 1 := by
  obtain ⟨maps, h, hentry⟩ : ∃ maps, (handlers ⟨true, false⟩).exec .loaded (inAndOut 0 ++ inAndOut 1) = some maps ∧
      (maps.taskMetrics.lookup 7).map (fun m => (m.lastCpu, m.cpuMigrations, m.runCount)) = some (1, 1, 2) :=
    Machine.exists_exec (by decide +kernel)
  obtain ⟨m, hm, heq⟩ := Option.map_eq_some_iff.mp hentry
  simp only [Prod.mk.injEq] at heq
  obtain ⟨hcpu, hmigrations, hruns⟩ := heq
  obtain ⟨maps', m', h', hm', -, hmigrations', hruns'⟩ := exec_inAndOut hm hcpu (0 - 2 : UInt64).toNat
  refine ⟨_, maps', m', Machine.exec_trans h h', hm', ?_⟩
  rw [hmigrations', hruns', hmigrations, hruns, UInt64.ofNat_toNat]
  decide

/-! ## Counters over time -/

/-- No counter of the entry reaches its maximum at a switch. -/
def TaskSchedMetrics.Room (m : TaskSchedMetrics) (now : UInt64) : Prop :=
  (∀ c, m.value c + 1 < c.size) ∧ m.cpuTimeNs.toNat + (ranFor now m).toNat < 2 ^ 64 ∧
    m.waitTimeNs.toNat + (waitedFor now m).toNat < 2 ^ 64

/-- No counter reaches its maximum. -/
def Event.Fits (g : Globals) (maps : Maps) : Event → Prop
  | .schedSwitch w => (∀ m ∈ maps.taskMetrics.lookup w.prev.pid, m.Room w.now) ∧
    ∀ m ∈ (handlePrev g w.now w.cpu w.prev w.prevState w.reserved.1 maps).taskMetrics.lookup w.next.pid, m.Room w.now
  | _ => True

/-- The exit of a task that passes the filter is of none of these. -/
def Event.Spares (g : Globals) (pids : List UInt32) (maps : Maps) : Event → Prop
  | .schedProcessExit _ _ task _ => shouldMonitor g maps task = true → task.pid ∉ pids
  | _ => True

section Mono

variable {g : Globals} {maps maps' : Maps} {m : TaskSchedMetrics} {now : UInt64}

theorem le_toNat_add {x y : UInt64} (h : x.toNat + y.toNat < 2 ^ 64) : x.toNat ≤ (x + y).toNat := by
  rw [UInt64.toNat_add, Nat.mod_eq_of_lt h]
  exact Nat.le_add_right _ _

theorem switchOut_le (h : m.Room now) (prevState : UInt32) (c : Counter) :
    m.value c ≤ (recordSwitchOut now prevState m).value c := by
  have hroom := h.1 c
  unfold recordSwitchOut
  dsimp only
  split <;> cases c <;> first | exact Nat.le_refl _ | exact le_toNat_add h.2.1 | exact le_toNat_add hroom

theorem switchIn_le (h : m.Room now) (topology : Bpf.Array CpuTopologyInfo 1024) (cpu : UInt32) (c : Counter) :
    m.value c ≤ (recordSwitchIn topology now cpu m).value c := by
  have hroom := h.1 c
  obtain ⟨total, smt, l3, numa, heq⟩ := recordSwitchIn_eq topology now cpu m
  obtain ⟨x, y, z, hsmt, hl3, hnuma, htotal, hone⟩ := recordSwitchIn_migrations topology now cpu m
  have hsmall : ∀ d ∈ [x, y, z, x + y + z], d = 0 ∨ d = 1 := by
    rcases hone with ⟨rfl, rfl, rfl⟩ | ⟨-, ⟨rfl, rfl, rfl⟩ | ⟨rfl, rfl, rfl⟩ | ⟨rfl, rfl, rfl⟩⟩ <;> simp
  have hadd : ∀ d ∈ [x, y, z, x + y + z], ∀ v : UInt32, v.toNat + 1 < 2 ^ 32 → v.toNat ≤ (v + d).toNat := by
    intro d hd v hv
    rcases hsmall d hd with rfl | rfl
    · simp
    · rw [UInt32.toNat_add, UInt32.toNat_one, Nat.mod_eq_of_lt hv]
      exact Nat.le_succ _
  cases c with
  | runCount => rw [heq]; exact le_toNat_add hroom
  | waitTimeNs => rw [heq]; exact le_toNat_add h.2.2
  | cpuMigrations => exact (hadd _ (by simp) _ hroom).trans_eq (congrArg UInt32.toNat htotal.symm)
  | smtMigrations => exact (hadd _ (by simp) _ hroom).trans_eq (congrArg UInt32.toNat hsmt.symm)
  | l3Migrations => exact (hadd _ (by simp) _ hroom).trans_eq (congrArg UInt32.toNat hl3.symm)
  | numaMigrations => exact (hadd _ (by simp) _ hroom).trans_eq (congrArg UInt32.toNat hnuma.symm)
  | _ => rw [heq]; exact Nat.le_refl _

/-- The entry is there and has counted at least this much. -/
def Maps.Holds (maps : Maps) (pid : UInt32) (least : Counter → Nat) : Prop :=
  ∃ m, maps.taskMetrics.lookup pid = some m ∧ ∀ c, least c ≤ m.value c

/-- An entry that is there is kept or recorded. -/
theorem Maps.Holds.recordFor {pid least task record evt reserved} (h : maps.Holds pid least)
    (hrecord : ∀ m ∈ maps.taskMetrics.lookup task.pid, ∀ c, m.value c ≤ (record m).value c) :
    (recordFor g task record evt reserved maps).Holds pid least := by
  obtain ⟨m, hm, hle⟩ := h
  rw [Maps.Holds, lookup_recordFor]
  split
  · rename_i hrec
    rw [hrec.1] at hm
    exact ⟨record m, by simp [Maps.entryFor, hm], fun c => (hle c).trans (hrecord m hm c)⟩
  · exact ⟨m, hm, hle⟩

theorem Maps.Holds.apply {pids pid least} {e : Event} (h : maps.Holds pid least) (hpid : pid ∈ pids)
    (hfits : e.Fits g maps) (hspares : e.Spares g pids maps) :
    (e.apply g maps).Holds pid least := by
  cases e with
  | schedSwitch w =>
    exact (h.recordFor fun m hm => switchOut_le (hfits.1 m hm) _).recordFor fun m hm => switchIn_le (hfits.2 m hm) _ _
  | schedProcessExit now cpu task reserved =>
    obtain ⟨m, hm, hle⟩ := h
    refine ⟨m, ?_, hle⟩
    rw [Event.apply, lookup_handleSchedProcessExit, if_neg, hm]
    rintro ⟨rfl, hseen⟩
    exact hspares hseen hpid
  | wakeup now pid' => exact h
  | write w =>
    rw [Maps.Holds, Event.apply, Write.apply_taskMetrics]
    exact h

/-- The PIDs with an entry that the mapper puts into a pod. -/
def Maps.podPIDs (maps : Maps) (reads : ProcReads) (podMapper : PodMapper) (podUID : String) : List UInt32 :=
  (podEntries reads podMapper podUID maps.taskMetrics.entries.entries).map Sigma.fst

theorem mem_podPIDs {reads podMapper podUID pid} :
    pid ∈ maps.podPIDs reads podMapper podUID ↔ (∃ m, maps.taskMetrics.lookup pid = some m) ∧
      ((podMapper.podFor reads pid).any fun ref => ref.podUID = podUID) = true := by
  simp only [Maps.podPIDs, podEntries, List.mem_map, List.mem_filter]
  constructor
  · rintro ⟨⟨_, m⟩, ⟨hmem, hpod⟩, rfl⟩
    exact ⟨⟨m, AList.mem_lookup_iff.mpr hmem⟩, hpod⟩
  · rintro ⟨⟨m, hm⟩, hpod⟩
    exact ⟨⟨pid, m⟩, ⟨AList.mem_lookup_iff.mp hm, hpod⟩, rfl⟩

theorem sum_podPIDs (reads : ProcReads) (podMapper : PodMapper) (podUID : String) (c : Counter) :
    ((podEntries reads podMapper podUID maps.taskMetrics.entries.entries).map fun e => e.2.value c).sum =
      ((maps.podPIDs reads podMapper podUID).map fun pid => (maps.taskMetrics.lookup pid).elim 0 (·.value c)).sum := by
  rw [Maps.podPIDs, List.map_map]
  refine congrArg List.sum (List.map_congr_left fun e he => ?_)
  have hlookup : maps.taskMetrics.lookup e.1 = some e.2 := AList.mem_lookup_iff.mpr (List.mem_filter.mp he).1
  simp [hlookup]

/-- **What is exported of a pod does not go back** from one poll to a later one
if in between no exit is handled of a task that counted for the pod, and all
those tasks are still mapped to it. -/
theorem exported_mono {es reads reads' podMapper podMapper' podUID} (h : (handlers g).exec maps es = some maps')
    (hfits : (handlers g).Guarded (fun maps e => e.Fits g maps) maps es)
    (htotal : ∀ c : Counter, ((podEntries reads' podMapper' podUID maps'.taskMetrics.entries.entries).map
      fun e => e.2.value c).sum < c.size)
    (hspares : (handlers g).Guarded (fun at' e => e.Spares g (maps.podPIDs reads podMapper podUID) at') maps es)
    (hmapped : ∀ pid ∈ maps.podPIDs reads podMapper podUID,
      ((podMapper'.podFor reads' pid).any fun ref => ref.podUID = podUID) = true) (order order' : List Nat)
    (c : Counter) :
    exported (poll reads order podMapper maps).2 podUID c ≤ exported (poll reads' order' podMapper' maps').2 podUID c := by
  have hheld : ∀ pid ∈ maps.podPIDs reads podMapper podUID, ∀ m, maps.taskMetrics.lookup pid = some m →
      maps'.Holds pid m.value := fun pid hpid m hm =>
    Machine.invariantWhere (I := fun maps => maps.Holds pid m.value) (fun hi hg hs => by
      cases hs
      exact hi.apply hpid hg.1 hg.2) h (hfits.and hspares) ⟨m, hm, fun _ => Nat.le_refl _⟩
  rw [exported_poll, exported_poll, Nat.mod_eq_of_lt (htotal c)]
  refine (Nat.mod_le _ _).trans ?_
  rw [sum_podPIDs, sum_podPIDs]
  -- no task that counted is missing, and none has counted less
  have hsub : (maps.podPIDs reads podMapper podUID).Subperm (maps'.podPIDs reads' podMapper' podUID) := by
    refine List.subperm_of_subset ?_ fun pid hpid => mem_podPIDs.mpr ⟨?_, hmapped pid hpid⟩
    · exact (List.filter_sublist.map Sigma.fst).nodup maps.taskMetrics.entries.nodupKeys
    · obtain ⟨⟨m, hm⟩, -⟩ := mem_podPIDs.mp hpid
      obtain ⟨m', hm', -⟩ := hheld pid hpid m hm
      exact ⟨m', hm'⟩
  obtain ⟨pids, hperm, hsub⟩ := hsub
  calc _ ≤ ((maps.podPIDs reads podMapper podUID).map fun pid => (maps'.taskMetrics.lookup pid).elim 0 (·.value c)).sum := by
        refine List.sum_le_sum fun pid hpid => ?_
        obtain ⟨⟨m, hm⟩, -⟩ := mem_podPIDs.mp hpid
        obtain ⟨m', hm', hle⟩ := hheld pid hpid m hm
        simpa [hm, hm'] using hle c
    _ = (pids.map fun pid => (maps'.taskMetrics.lookup pid).elim 0 (·.value c)).sum := ((hperm.map _).sum_eq).symm
    _ ≤ _ := (hsub.map _).sum_le_sum fun _ _ => Nat.zero_le _

end Mono

namespace TwoTasks

def podMapper : PodMapper := ⟨∅, AList.singleton "u" ⟨"p", "u", "default", "a", ∅⟩⟩

/-- Every process is of pod `u`. -/
def reads : ProcReads := ⟨none, fun _ => some ["0::/kubepods/podu"]⟩

/-- Tasks 7 and 8 are running. -/
def maps : Maps :=
  [.schedSwitch ⟨1, 0, .idle, ⟨7, 7⟩, 0, false, (true, true)⟩,
    .schedSwitch ⟨1, 1, .idle, ⟨8, 8⟩, 0, false, (true, true)⟩].foldl (Event.apply ⟨true, false⟩) .loaded

def switchOut : List Event := [.schedSwitch ⟨5, 1, ⟨8, 8⟩, .idle, 0, false, (true, true)⟩]

end TwoTasks

/-- Task 8 exits and its run is no longer counted; task 7 is there still. -/
theorem exported_exit : ∃ maps', (handlers ⟨true, false⟩).exec TwoTasks.maps [.schedProcessExit 2 1 ⟨8, 8⟩ true] = some maps' ∧
    maps'.podPIDs TwoTasks.reads TwoTasks.podMapper "u" = [7] ∧
    exported (poll TwoTasks.reads [] TwoTasks.podMapper TwoTasks.maps).2 "u" .runCount = 2 ∧
    exported (poll TwoTasks.reads [] TwoTasks.podMapper maps').2 "u" .runCount = 1 :=
  Machine.exists_exec (by decide +kernel)

instance (P : Counter → Prop) [DecidablePred P] : Decidable (∀ c, P c) :=
  decidable_of_iff (∀ c ∈ ([.voluntaryCtxSwitches, .involuntaryCtxSwitches, .cpuTimeNs, .waitTimeNs, .runCount,
    .cpuMigrations, .smtMigrations, .l3Migrations, .numaMigrations] : List Counter), P c)
    ⟨fun h c => h c (by cases c <;> simp), fun h c _ => h c⟩

instance (m : TaskSchedMetrics) (now : UInt64) : Decidable (m.Room now) := inferInstanceAs (Decidable (_ ∧ _ ∧ _))

instance (g : Globals) (maps : Maps) : ∀ e : Event, Decidable (e.Fits g maps)
  | .schedSwitch _ => inferInstanceAs (Decidable (_ ∧ _))
  | .schedProcessExit .. | .wakeup .. | .write _ => .isTrue trivial

theorem exported_mono_switchOut : ∃ maps', (handlers ⟨true, false⟩).exec TwoTasks.maps TwoTasks.switchOut = some maps' ∧
    ∀ c, exported (poll TwoTasks.reads [] TwoTasks.podMapper TwoTasks.maps).2 "u" c ≤
      exported (poll TwoTasks.reads [1] TwoTasks.podMapper maps').2 "u" c := by
  refine Machine.exists_exec_of (fun maps' =>
    (handlers ⟨true, false⟩).Guarded (fun maps e => e.Fits ⟨true, false⟩ maps) TwoTasks.maps TwoTasks.switchOut ∧
    (∀ c : Counter, ((podEntries TwoTasks.reads TwoTasks.podMapper "u" maps'.taskMetrics.entries.entries).map
      fun e => e.2.value c).sum < c.size) ∧
    ((TwoTasks.maps.podPIDs TwoTasks.reads TwoTasks.podMapper "u").all fun pid =>
      (TwoTasks.podMapper.podFor TwoTasks.reads pid).any fun ref => ref.podUID = "u") = true) (by decide +kernel) ?_
  rintro maps' h ⟨hfits, htotal, hmapped⟩
  exact exported_mono h hfits htotal ⟨trivial, fun _ _ => trivial⟩ (List.all_eq_true.mp hmapped) [] [1]

end Gthulhu.Monitor
