/-
What `cpu_time_ns` says. A switch-in leaves a stamp in the entry and the next
recorded switch-out counts from it. If the task stops passing the filter while
it runs, its switch-out is not recorded and the stamp stays; when it passes
again during a later run, the next switch-out counts from the old stamp, with
the time between on no CPU at all (`cpuTimeNs_overcounts`).

No entry overcounts in a run in which a task with a stamp is always switched
out under the filter, and the entry of a task that passed at each switch is
exact (`cpuTimeNs_bounded`).
-/
import Gthulhu.Monitor.TraceFacts

namespace Gthulhu.Monitor

open Lib

/-- The time on a CPU since the entry was made. -/
def State.ranSinceMade (s : State) (pid : UInt32) : Nat :=
  ((s.kernel.tasks pid).spentAt s.kernel.clock).running - (s.lives pid).born.running

/-- The same up to the last switch-out. -/
def State.ranUntilSwitchOut (s : State) (pid : UInt32) : Nat :=
  (s.kernel.tasks pid).spent.running - (s.lives pid).born.running

/-- A task whose entry has a stamp is switched out under the filter. -/
def StampsClosed (g : Globals) (s : State) : Event → Prop
  | .schedSwitch w => ∀ m ∈ s.entry w.prev.pid, m.lastRunTs ≠ 0 → shouldMonitor g s.maps w.prev = true
  | _ => True

/-- A stamp of 0 means none, so it is not one that `bpf_ktime_get_ns` gives. -/
def Event.AfterBoot : Event → Prop
  | .schedSwitch w => w.now ≠ 0
  | _ => True

/-! ## No overcounting -/

/-- A stamp is the time the running task was switched in, and only time it has
run is counted. -/
structure View.Metered (v : View) : Prop where
  stamped : ∀ m, v.entry = some m → m.lastRunTs ≠ 0 → v.account.phase.isRunning = true ∧ m.lastRunTs = v.account.since
  counted : ∀ m, v.entry = some m → m.cpuTimeNs.toNat + v.life.born.running ≤ v.account.spent.running

theorem toNat_add_le (a b : UInt64) : (a + b).toNat ≤ a.toNat + b.toNat := by
  rw [UInt64.toNat_add]
  exact Nat.mod_le _ _

namespace View.Metered

variable {v : View} {fresh : Option TaskSchedMetrics} {task : Task}

theorem tick (h : v.Metered) (now : UInt64) : (v.tick now).Metered := ⟨h.stamped, h.counted⟩

theorem le_spentAt (h : v.Metered) {m} (hm : v.entry = some m) :
    m.cpuTimeNs.toNat + v.life.born.running ≤ (v.account.spentAt v.clock).running := by
  have hcounted := h.counted m hm
  simp only [Account.spentAt, Spent.running_add]
  omega

/-- A recorded switch-out counts no more than the run that ends. -/
theorem recorded (h : v.Metered) {m} (hm : v.entry = some m) :
    (m.cpuTimeNs + ranFor v.clock m).toNat + v.life.born.running ≤ (v.account.spentAt v.clock).running := by
  have hcounted := h.counted m hm
  have hadd := toNat_add_le m.cpuTimeNs (ranFor v.clock m)
  have hran := toNat_ranFor v.clock m
  by_cases hstamp : m.lastRunTs = 0
  · rw [if_pos hstamp] at hran
    have := h.le_spentAt hm
    omega
  · obtain ⟨hruns, hsince⟩ := h.stamped m hm hstamp
    rw [if_neg hstamp, hsince] at hran
    simp only [Account.spentAt, Spent.running_add, hruns, if_true]
    omega

theorem switchOut (h : v.Metered) {seen} (hfresh : Fresh task fresh) (prevState : UInt32) (final : Bool)
    (hclosed : ∀ m, v.entry = some m → m.lastRunTs ≠ 0 → seen = true) :
    (v.switchOut seen fresh prevState final).Metered := by
  refine ⟨fun m' hm' hstamp => ?_, fun m' hm' => ?_⟩
  · obtain ⟨m, -, -, rfl, -⟩ | ⟨m, -, -, rfl, -⟩ | ⟨hm, hunseen, -⟩ := recorded_cases (v.account.spentAt v.clock) hm'
    · simp at hstamp
    · simp at hstamp
    · cases (hclosed m' hm hstamp).symm.trans hunseen
  · simp only [View.switchOut, Account.enter]
    obtain ⟨m, -, hf, rfl, hlife⟩ | ⟨m, hm, -, rfl, hlife⟩ | ⟨hm, -, hlife⟩ :=
      recorded_cases (v.account.spentAt v.clock) hm'
    · rw [hlife, hfresh m hf]
      simp [ranFor]
    · rw [hlife, recordSwitchOut_cpuTimeNs]
      exact h.recorded hm
    · rw [hlife]
      exact h.le_spentAt hm

theorem switchIn (h : v.Metered) (seen : Bool) (hfresh : Fresh task fresh) (topology : Bpf.Array CpuTopologyInfo 1024)
    (cpu : UInt32) (hidle : v.account.phase.isRunning = false) : (v.switchIn seen fresh topology cpu).Metered := by
  refine ⟨fun m' hm' hstamp => ?_, fun m' hm' => ?_⟩
  · obtain ⟨m, -, -, rfl, -⟩ | ⟨m, -, -, rfl, -⟩ | ⟨hm, -, -⟩ := recorded_cases (v.account.spentAt v.clock) hm'
    · exact ⟨rfl, recordSwitchIn_lastRunTs ..⟩
    · exact ⟨rfl, recordSwitchIn_lastRunTs ..⟩
    · -- an old stamp would mean that the task was running already
      cases hidle.symm.trans (h.stamped m' hm hstamp).1
  · simp only [View.switchIn, Account.enter]
    obtain ⟨m, -, hf, rfl, hlife⟩ | ⟨m, hm, -, rfl, hlife⟩ | ⟨hm, -, hlife⟩ :=
      recorded_cases (v.account.spentAt v.clock) hm'
    · rw [hlife, hfresh m hf]
      simp
    · rw [hlife, recordSwitchIn_cpuTimeNs]
      exact h.le_spentAt hm
    · rw [hlife]
      exact h.le_spentAt hm

theorem wakeup (h : v.Metered) (hidle : v.account.phase.isRunning = false) : v.wakeup.Metered := by
  refine ⟨fun m hm hstamp => ?_, fun m hm => h.le_spentAt hm⟩
  cases hidle.symm.trans (h.stamped m hm hstamp).1

end View.Metered

theorem isRunning_of_idle {phase : Phase} (h : phase = .blocked ∨ phase = .absent) : phase.isRunning = false := by
  obtain rfl | rfl := h <;> rfl

theorem metered_step {g s s' e pid} (hpid : pid ≠ 0) (h : (s.view pid).Metered) (hclosed : StampsClosed g s e)
    (hstep : (monitor g).step s e = some s') : (s'.view pid).Metered := by
  have hmoves := step_moves hstep hpid
  generalize s'.view pid = v' at hmoves ⊢
  cases hmoves with
  | passes => exact h.tick _
  | switchOut hp _ _ _ _ hfresh =>
    subst hp
    exact (h.tick _).switchOut hfresh _ _ hclosed
  | switchIn _ _ _ hidle hfresh => exact (h.tick _).switchIn _ hfresh _ _ hidle
  | exit =>
    exact ⟨fun m hm => h.stamped m (View.entry_of_exit hm).2, fun m hm => h.counted m (View.entry_of_exit hm).2⟩
  | wakeup _ hidle => exact (h.tick _).wakeup (isRunning_of_idle hidle)

/-! ## Exact entries -/

/-- The entry of a task that passed the filter at each switch: the stamp is
there while the task runs, and all the time it has run is counted. -/
structure View.Exact (v : View) : Prop where
  running : ∀ m, v.entry = some m → v.life.kept = true → v.account.phase.isRunning = true →
    m.lastRunTs ≠ 0 ∧ m.lastRunTs = v.account.since
  idle : ∀ m, v.entry = some m → v.life.kept = true → v.account.phase.isRunning = false → m.lastRunTs = 0
  counted : ∀ m, v.entry = some m → v.life.kept = true →
    m.cpuTimeNs.toNat + v.life.born.running = v.account.spent.running

namespace View.Exact

variable {v : View} {fresh : Option TaskSchedMetrics} {task : Task}

theorem tick (h : v.Exact) (now : UInt64) : (v.tick now).Exact := ⟨h.running, h.idle, h.counted⟩

/-- A recorded switch-out counts the run that ends. -/
theorem recorded (h : v.Exact) (hd : v.Dated) (hruns : v.account.phase.isRunning = true) {m} (hm : v.entry = some m)
    (hkept : v.life.kept = true) :
    (m.cpuTimeNs + ranFor v.clock m).toNat + v.life.born.running = (v.account.spentAt v.clock).running := by
  obtain ⟨hstamp, hsince⟩ := h.running m hm hkept hruns
  have hcounted := h.counted m hm hkept
  have hran := toNat_ranFor v.clock m
  rw [if_neg hstamp, hsince] at hran
  -- what has been counted and the run that ends fit between boot and now
  have htotal := hd.total m hm
  have hidle := (hd.grown m hm).idle
  have hpast := UInt64.le_iff_toNat_le.mp hd.past
  have hlt := v.clock.toNat_lt
  have hadd : (m.cpuTimeNs + ranFor v.clock m).toNat = m.cpuTimeNs.toNat + (ranFor v.clock m).toNat := by
    rw [UInt64.toNat_add]
    exact Nat.mod_eq_of_lt (by omega)
  simp only [Account.spentAt, Spent.running_add, hruns, if_true]
  omega

theorem switchOut (h : v.Exact) (hd : v.Dated) (hruns : v.account.phase.isRunning = true) (seen : Bool)
    (hfresh : Fresh task fresh) (prevState : UInt32) (final : Bool) :
    (v.switchOut seen fresh prevState final).Exact := by
  refine ⟨fun m' _ _ hruns' => ?_, fun m' hm' hkept' _ => ?_, fun m' hm' hkept' => ?_⟩
  · cases (phaseAfter_isRunning prevState final).symm.trans hruns'
  · obtain ⟨m, -, -, rfl, -⟩ | ⟨m, -, -, rfl, -⟩ | ⟨-, -, hlife⟩ := recorded_cases (v.account.spentAt v.clock) hm'
    · simp
    · simp
    · simp only [View.switchOut, hlife] at hkept'
      cases hkept'
  · simp only [View.switchOut, Account.enter] at hkept' ⊢
    obtain ⟨m, -, hf, rfl, hlife⟩ | ⟨m, hm, -, rfl, hlife⟩ | ⟨-, -, hlife⟩ :=
      recorded_cases (v.account.spentAt v.clock) hm'
    · rw [hlife, hfresh m hf]
      simp [ranFor]
    · rw [hlife] at hkept' ⊢
      rw [recordSwitchOut_cpuTimeNs]
      exact h.recorded hd hruns hm hkept'
    · rw [hlife] at hkept'
      cases hkept'

/-- While a task does not run nothing is added. -/
theorem eq_spentAt (h : v.Exact) (hidle : v.account.phase.isRunning = false) {m} (hm : v.entry = some m)
    (hkept : v.life.kept = true) :
    m.cpuTimeNs.toNat + v.life.born.running = (v.account.spentAt v.clock).running := by
  have hcounted := h.counted m hm hkept
  simp only [Account.spentAt, Spent.running_add, hidle]
  exact hcounted

theorem switchIn (h : v.Exact) (hidle : v.account.phase.isRunning = false) (hclock : v.clock ≠ 0) (seen : Bool)
    (hfresh : Fresh task fresh) (topology : Bpf.Array CpuTopologyInfo 1024) (cpu : UInt32) :
    (v.switchIn seen fresh topology cpu).Exact := by
  refine ⟨fun m' hm' hkept' _ => ?_, fun m' _ _ hidle' => (by cases hidle'), fun m' hm' hkept' => ?_⟩
  · simp only [View.switchIn, Account.enter] at hkept' ⊢
    obtain ⟨m, -, -, rfl, -⟩ | ⟨m, -, -, rfl, -⟩ | ⟨-, -, hlife⟩ := recorded_cases (v.account.spentAt v.clock) hm'
    · simpa using hclock
    · simpa using hclock
    · rw [hlife] at hkept'
      cases hkept'
  · simp only [View.switchIn, Account.enter] at hkept' ⊢
    obtain ⟨m, -, hf, rfl, hlife⟩ | ⟨m, hm, -, rfl, hlife⟩ | ⟨-, -, hlife⟩ :=
      recorded_cases (v.account.spentAt v.clock) hm'
    · rw [hlife, hfresh m hf]
      simp
    · rw [hlife] at hkept' ⊢
      rw [recordSwitchIn_cpuTimeNs]
      exact h.eq_spentAt hidle hm hkept'
    · rw [hlife] at hkept'
      cases hkept'

theorem wakeup (h : v.Exact) (hidle : v.account.phase.isRunning = false) : v.wakeup.Exact :=
  ⟨fun _ _ _ hruns => (by cases hruns), fun m hm hkept _ => h.idle m hm hkept hidle,
    fun _ hm hkept => h.eq_spentAt hidle hm hkept⟩

end View.Exact

theorem exact_step {g s s' e pid} (hpid : pid ≠ 0) (hd : (s.view pid).Dated) (h : (s.view pid).Exact)
    (hboot : e.AfterBoot) (hstep : (monitor g).step s e = some s') : (s'.view pid).Exact := by
  have hmoves := step_moves hstep hpid
  generalize s'.view pid = v' at hmoves ⊢
  cases hmoves with
  | passes => exact h.tick _
  | switchOut _ _ hle hruns _ hfresh =>
    refine (h.tick _).switchOut (hd.tick hle) ?_ _ hfresh _ _
    exact congrArg Phase.isRunning hruns
  | switchIn _ _ _ hidle hfresh => exact (h.tick _).switchIn hidle hboot _ hfresh _ _
  | exit =>
    exact ⟨fun m hm => h.running m (View.entry_of_exit hm).2, fun m hm => h.idle m (View.entry_of_exit hm).2,
      fun m hm => h.counted m (View.entry_of_exit hm).2⟩
  | wakeup _ hidle => exact (h.tick _).wakeup (isRunning_of_idle hidle)

/-! ## Whole runs -/

section Runs

variable {g : Globals} {s₀ s : State} {es : List Event}

/-- **CPU time is not overcounted** in any run in which every task that has a
stamp is switched out under the filter, and it is exact for every task that
passed the filter at each switch since its entry was made. -/
theorem cpuTimeNs_bounded (hnew : s₀.Empty) (h : (monitor g).exec s₀ es = some s) :
    ((monitor g).Guarded (StampsClosed g) s₀ es →
      ∀ pid m, s.entry pid = some m → m.cpuTimeNs.toNat ≤ s.ranSinceMade pid) ∧
    ((∀ e ∈ es, e.AfterBoot) →
      ∀ pid m, s.entry pid = some m → (s.lives pid).kept = true → m.cpuTimeNs.toNat = s.ranUntilSwitchOut pid) := by
  refine ⟨fun hclosed pid m hm => ?_, fun hboot pid m hm hkept => ?_⟩
  · have hpid := entry_ne_zero hnew h hm
    have hstart : (s₀.view pid).Metered :=
      ⟨fun m hm => (by cases (hnew pid).symm.trans hm), fun m hm => (by cases (hnew pid).symm.trans hm)⟩
    have hend := Machine.invariantWhere (I := fun s => (s.view pid).Metered)
      (fun hi hc hs => metered_step hpid hi hc hs) h hclosed hstart
    exact Nat.le_sub_of_add_le (hend.le_spentAt hm)
  · have hpid := entry_ne_zero hnew h hm
    have hstart : (s₀.view pid).Dated ∧ (s₀.view pid).Exact :=
      ⟨dated_of_empty hnew pid, fun m hm => (by cases (hnew pid).symm.trans hm),
        fun m hm => (by cases (hnew pid).symm.trans hm), fun m hm => (by cases (hnew pid).symm.trans hm)⟩
    have hend := Machine.invariantWhere (I := fun s => (s.view pid).Dated ∧ (s.view pid).Exact)
      (fun hi hb hs => ⟨dated_step hpid hi.1 hs, exact_step hpid hi.1 hi.2 hb hs⟩) h
      (Machine.guarded_of_forall hboot) hstart
    exact Nat.eq_sub_of_add_eq (hend.2.counted m hm hkept)

end Runs

/-! ## A task in and out of the filter -/

section Refiltered

instance (g : Globals) (s : State) : ∀ e : Event, Decidable (StampsClosed g s e)
  | .schedSwitch w =>
    inferInstanceAs (Decidable (∀ m ∈ s.entry w.prev.pid, m.lastRunTs ≠ 0 → shouldMonitor g s.maps w.prev = true))
  | .schedProcessExit .. | .wakeup .. | .write _ => .isTrue trivial

instance : DecidablePred Event.AfterBoot
  | .schedSwitch w => inferInstanceAs (Decidable (w.now ≠ 0))
  | .schedProcessExit .. | .wakeup .. | .write _ => .isTrue trivial

/-- The task runs from 10 to 20 and from 100 to 110. It passes the filter at
10 and at 110 only. -/
def refiltered : List Event :=
  [.write (.addPid 7), .schedSwitch ⟨10, 0, .idle, ⟨7, 7⟩, 0, false, (true, true)⟩,
    .write (.removePid 7), .schedSwitch ⟨20, 0, ⟨7, 7⟩, .idle, 1, false, (true, true)⟩,
    .schedSwitch ⟨100, 0, .idle, ⟨7, 7⟩, 0, false, (true, true)⟩,
    .write (.addPid 7), .schedSwitch ⟨110, 0, ⟨7, 7⟩, .idle, 1, false, (true, true)⟩]

/-- The same runs, under the filter all the time. -/
def steadilyFiltered : List Event :=
  [.write (.addPid 7), .schedSwitch ⟨10, 0, .idle, ⟨7, 7⟩, 0, false, (true, true)⟩,
    .schedSwitch ⟨20, 0, ⟨7, 7⟩, .idle, 1, false, (true, true)⟩,
    .schedSwitch ⟨100, 0, .idle, ⟨7, 7⟩, 0, false, (true, true)⟩,
    .schedSwitch ⟨110, 0, ⟨7, 7⟩, .idle, 1, false, (true, true)⟩]

theorem cpuTimeNs_overcounts :
    ∃ s, (monitor {}).exec .loaded refiltered = some s ∧
      (s.entry 7).map (·.cpuTimeNs) = some 100 ∧ s.ranSinceMade 7 = 20 :=
  Machine.exists_exec (by decide +kernel)

theorem cpuTimeNs_bounded_steady :
    ∃ s m, (monitor {}).exec .loaded steadilyFiltered = some s ∧ s.entry 7 = some m ∧
      m.cpuTimeNs.toNat ≤ s.ranSinceMade 7 ∧ m.cpuTimeNs.toNat = s.ranUntilSwitchOut 7 := by
  obtain ⟨s, h, hsome, hkept⟩ : ∃ s, (monitor {}).exec .loaded steadilyFiltered = some s ∧
      (s.entry 7).isSome = true ∧ (s.lives 7).kept = true :=
    Machine.exists_exec (by decide +kernel)
  obtain ⟨m, hm⟩ := Option.isSome_iff_exists.mp hsome
  obtain ⟨hle, heq⟩ := cpuTimeNs_bounded loaded_empty h
  exact ⟨s, m, h, hm, hle (by decide +kernel) 7 m hm, heq (by decide +kernel) 7 m hm hkept⟩

end Refiltered

end Gthulhu.Monitor
