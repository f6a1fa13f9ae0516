/-
What `wait_time_ns` says. A switch-out leaves a stamp in the entry whatever
the state of the task, and the next switch-in counts from it. So all the time
a task is off the CPU is counted: on a run queue, and blocked as well
(`waitTimeNs_counts_sleep`).

`waitTimeNs_bounded`: for a task that passes the filter at each switch the
wait time is within its time on run queues if, whenever it comes to run, it
has been blocked for no time since its entry was made; the totals of pods with
only such tasks are within theirs. Conversely a run in which the bound always
holds has only such switch-ins.
-/
import Gthulhu.Monitor.Collector
import Gthulhu.Monitor.CpuTimeFacts
import Mathlib.Algebra.Order.BigOperators.Group.List

namespace Gthulhu.Monitor

open Lib UInt64 Machine

/-! ## Run-queue time -/

/-- Off the CPU and on no run queue. -/
def Spent.unqueued (t : Spent) : Nat := t.blocked + t.absent

theorem Spent.idle_eq (t : Spent) : t.idle = t.runnable + t.unqueued := Nat.add_assoc ..

/-- The time on a run queue since the entry was made. -/
def State.queuedSinceMade (s : State) (pid : UInt32) : Nat :=
  ((s.kernel.tasks pid).spentAt s.kernel.clock).runnable - (s.lives pid).born.runnable

/-- When the task of `pid` comes to run, all its time off the CPU since its
entry was made was on a run queue. -/
def Queues (g : Globals) (pid : UInt32) (s : State) : Event → Prop
  | .schedSwitch w =>
    w.next.pid = pid → (s.entry pid).isSome = true → (s.lives pid).kept = true → shouldMonitor g s.maps w.next = true →
      ((s.kernel.tasks pid).spentAt w.now).unqueued = (s.lives pid).born.unqueued
  | _ => True

/-- The tasks with an entry that the mapper puts into a pod. -/
def State.podTasks (s : State) (reads : ProcReads) (podMapper : PodMapper) (podUID : String) : List UInt32 :=
  (podEntries reads podMapper podUID s.maps.taskMetrics.entries.entries).map Sigma.fst

section Accounts

variable (a : Account)

theorem Account.enter_spentAt_idle (now : UInt64) (phase : Phase) :
    ((a.enter now phase).spentAt now).idle = (a.spentAt now).idle := by
  rw [Account.spentAt, Spent.idle_add]
  simp [Account.enter]

theorem Account.enter_spentAt_runnable (now : UInt64) (phase : Phase) :
    ((a.enter now phase).spentAt now).runnable = (a.spentAt now).runnable := by
  cases phase <;> simp [Account.enter, Account.spentAt, Spent.add]

theorem Account.spentAt_idle (now : UInt64) :
    (a.spentAt now).idle = a.spent.idle + if a.phase.isRunning then 0 else now.toNat - a.since.toNat :=
  Spent.idle_add ..

theorem Account.runnable_le_spentAt {now now'} (hle : now ≤ now') :
    (a.spentAt now).runnable ≤ (a.spentAt now').runnable := by
  have hle := le_iff_toNat_le.mp hle
  unfold Account.spentAt
  cases a.phase <;> simp only [Spent.add] <;> omega

end Accounts

/-! ## All the time off the CPU -/

/-- The entry of a task that passed the filter at each switch: what has been
counted, with what the stamp stands for, is time off the CPU, and it is all of
it if there was no switch at time 0 (`boot`). -/
structure View.Waited (boot : Prop) (v : View) : Prop where
  stamp : ∀ m, v.entry = some m → v.life.kept = true → m.lastEnqueueTs ≠ 0 →
    v.account.phase.isRunning = false ∧ m.lastEnqueueTs ≤ v.clock
  le : ∀ m, v.entry = some m → v.life.kept = true →
    m.waitTimeNs.toNat + (waitedFor v.clock m).toNat + v.life.born.idle ≤ (v.account.spentAt v.clock).idle
  stamped : boot → ∀ m, v.entry = some m → v.life.kept = true → v.account.phase.isRunning = false → m.lastEnqueueTs ≠ 0
  ge : boot → ∀ m, v.entry = some m → v.life.kept = true →
    (v.account.spentAt v.clock).idle ≤ m.waitTimeNs.toNat + (waitedFor v.clock m).toNat + v.life.born.idle

namespace View.Waited

variable {boot : Prop} {v : View} {fresh : Option TaskSchedMetrics} {task : Task}

/-- A running task has no stamp. -/
theorem unstamped (h : v.Waited boot) {m} (hm : v.entry = some m) (hkept : v.life.kept = true)
    (hruns : v.account.phase.isRunning = true) : m.lastEnqueueTs = 0 := by
  by_contra hstamp
  cases hruns.symm.trans (h.stamp m hm hkept hstamp).1

/-- While time passes, a stamp counts it and the kernel does. -/
theorem tick (h : v.Waited boot) (hd : v.Dated) {now} (hle : v.clock ≤ now) : (v.tick now).Waited boot := by
  have hpast := le_iff_toNat_le.mp hd.past
  have hle' := le_iff_toNat_le.mp hle
  refine ⟨fun m hm hkept hstamp => ?_, fun m hm hkept => ?_, h.stamped, fun hb m hm hkept => ?_⟩
  · obtain ⟨hidle, hbefore⟩ := h.stamp m hm hkept hstamp
    exact ⟨hidle, UInt64.le_trans hbefore hle⟩
  · have hcount := h.le m hm hkept
    simp only [View.tick, Account.spentAt_idle, toNat_waitedFor] at hcount ⊢
    by_cases hstamp : m.lastEnqueueTs = 0
    · simp only [hstamp, if_true] at hcount ⊢
      split at hcount <;> rename_i hruns <;> simp only [hruns] <;> simp <;> omega
    · obtain ⟨hidle, hbefore⟩ := h.stamp m hm hkept hstamp
      have hbefore := le_iff_toNat_le.mp hbefore
      simp only [hstamp, hidle, if_false, Bool.false_eq_true] at hcount ⊢
      omega
  · have hcount := h.ge hb m hm hkept
    simp only [View.tick, Account.spentAt_idle, toNat_waitedFor] at hcount ⊢
    cases hruns : v.account.phase.isRunning with
    | true =>
      simp only [hruns, h.unstamped hm hkept hruns, if_true] at hcount ⊢
      exact hcount
    | false =>
      have hstamp := h.stamped hb m hm hkept hruns
      have hbefore := le_iff_toNat_le.mp (h.stamp m hm hkept hstamp).2
      simp only [hruns, hstamp, if_false, Bool.false_eq_true] at hcount ⊢
      omega

/-- A switch-in adds what the stamp stands for; the sum fits, being time since
the entry was made. -/
theorem add (h : v.Waited boot) (hd : v.Dated) {m} (hm : v.entry = some m) (hkept : v.life.kept = true) :
    (m.waitTimeNs + waitedFor v.clock m).toNat = m.waitTimeNs.toNat + (waitedFor v.clock m).toNat := by
  have hcount := h.le m hm hkept
  obtain ⟨hgrown, htotal⟩ := hd.spentAt hm
  have hrunning := hgrown.running
  have hlt := v.clock.toNat_lt
  rw [UInt64.toNat_add]
  exact Nat.mod_eq_of_lt (by omega)

theorem switchOut (h : v.Waited boot) (hboot : boot → v.clock ≠ 0) (hruns : v.account.phase.isRunning = true)
    (seen : Bool) (hfresh : Fresh task fresh) (prevState : UInt32) (final : Bool) :
    (v.switchOut seen fresh prevState final).Waited boot := by
  -- the entry after the switch-out, with the history it belongs to
  have key : ∀ m', (v.switchOut seen fresh prevState final).entry = some m' →
      (v.switchOut seen fresh prevState final).life.kept = true →
      m'.lastEnqueueTs = v.clock ∧
        m'.waitTimeNs.toNat + (v.switchOut seen fresh prevState final).life.born.idle ≤ (v.account.spentAt v.clock).idle ∧
        (boot → (v.account.spentAt v.clock).idle ≤
          m'.waitTimeNs.toNat + (v.switchOut seen fresh prevState final).life.born.idle) := by
    intro m' hm' hkept'
    simp only [View.switchOut] at hm' hkept' ⊢
    obtain ⟨m, -, hf, rfl, hlife⟩ | ⟨m, hm, -, rfl, hlife⟩ | ⟨-, -, hlife⟩ :=
      recorded_cases (v.account.spentAt v.clock) hm'
    · rw [hlife, hfresh m hf]
      simp
    · rw [hlife] at hkept' ⊢
      have hnone := h.unstamped hm hkept' hruns
      have hle := h.le m hm hkept'
      have hge := fun hb => h.ge hb m hm hkept'
      simp only [toNat_waitedFor, hnone, if_true, Nat.add_zero] at hle hge
      exact ⟨rfl, by simpa using hle, by simpa using hge⟩
    · rw [hlife] at hkept'
      cases hkept'
  have hidle : ((v.switchOut seen fresh prevState final).account.spentAt v.clock).idle = (v.account.spentAt v.clock).idle :=
    v.account.enter_spentAt_idle ..
  refine ⟨fun m' hm' hkept' _ => ?_, fun m' hm' hkept' => ?_, fun hb m' hm' hkept' _ => ?_, fun hb m' hm' hkept' => ?_⟩
  · exact ⟨phaseAfter_isRunning prevState final, by rw [(key m' hm' hkept').1]; exact UInt64.le_refl _⟩
  · obtain ⟨hstamp, hle, -⟩ := key m' hm' hkept'
    have hzero : (waitedFor v.clock m').toNat = 0 := by simp [toNat_waitedFor, hstamp]
    simp only [View.switchOut] at hidle hle hzero ⊢
    omega
  · rw [(key m' hm' hkept').1]
    exact hboot hb
  · obtain ⟨-, -, hge⟩ := key m' hm' hkept'
    have hge := hge hb
    simp only [View.switchOut] at hidle hge ⊢
    omega

theorem switchIn (h : v.Waited boot) (hd : v.Dated) (seen : Bool) (hfresh : Fresh task fresh)
    (topology : Bpf.Array CpuTopologyInfo 1024) (cpu : UInt32) : (v.switchIn seen fresh topology cpu).Waited boot := by
  have key : ∀ m', (v.switchIn seen fresh topology cpu).entry = some m' →
      (v.switchIn seen fresh topology cpu).life.kept = true →
      m'.lastEnqueueTs = 0 ∧
        m'.waitTimeNs.toNat + (v.switchIn seen fresh topology cpu).life.born.idle ≤ (v.account.spentAt v.clock).idle ∧
        (boot → (v.account.spentAt v.clock).idle ≤
          m'.waitTimeNs.toNat + (v.switchIn seen fresh topology cpu).life.born.idle) := by
    intro m' hm' hkept'
    simp only [View.switchIn] at hm' hkept' ⊢
    obtain ⟨m, -, hf, rfl, hlife⟩ | ⟨m, hm, -, rfl, hlife⟩ | ⟨-, -, hlife⟩ :=
      recorded_cases (v.account.spentAt v.clock) hm'
    · rw [hlife, hfresh m hf]
      simp [waitedFor]
    · rw [hlife] at hkept' ⊢
      have hadd := h.add hd hm hkept'
      have hle := h.le m hm hkept'
      have hge := fun hb => h.ge hb m hm hkept'
      simp only [recordSwitchIn_lastEnqueueTs, recordSwitchIn_waitTimeNs, hadd]
      exact ⟨trivial, hle, hge⟩
    · rw [hlife] at hkept'
      cases hkept'
  have hidle : ((v.switchIn seen fresh topology cpu).account.spentAt v.clock).idle = (v.account.spentAt v.clock).idle :=
    v.account.enter_spentAt_idle ..
  refine ⟨fun m' hm' hkept' hstamp => absurd (key m' hm' hkept').1 hstamp, fun m' hm' hkept' => ?_,
    fun _ _ _ _ hidle => (by cases hidle), fun hb m' hm' hkept' => ?_⟩
  · obtain ⟨hstamp, hle, -⟩ := key m' hm' hkept'
    have hzero : (waitedFor v.clock m').toNat = 0 := by simp [toNat_waitedFor, hstamp]
    simp only [View.switchIn] at hidle hle hzero ⊢
    omega
  · obtain ⟨-, -, hge⟩ := key m' hm' hkept'
    have hge := hge hb
    simp only [View.switchIn] at hidle hge ⊢
    omega

theorem wakeup (h : v.Waited boot) (hidle : v.account.phase.isRunning = false) : v.wakeup.Waited boot := by
  have hsame : (v.wakeup.account.spentAt v.clock).idle = (v.account.spentAt v.clock).idle := v.account.enter_spentAt_idle ..
  refine ⟨fun m hm hkept hstamp => ⟨rfl, (h.stamp m hm hkept hstamp).2⟩, fun m hm hkept => ?_,
    fun hb m hm hkept _ => h.stamped hb m hm hkept hidle, fun hb m hm hkept => ?_⟩
  · have hle := h.le m hm hkept
    simp only [View.wakeup] at hsame ⊢
    omega
  · have hge := h.ge hb m hm hkept
    simp only [View.wakeup] at hsame ⊢
    omega

end View.Waited

theorem waited_step {g s s' e pid} {boot : Prop} (hpid : pid ≠ 0) (hd : (s.view pid).Dated)
    (h : (s.view pid).Waited boot) (hboot : boot → e.AfterBoot)
    (hstep : (monitor g).step s e = some s') : (s'.view pid).Waited boot := by
  have hmoves := step_moves hstep hpid
  generalize s'.view pid = v' at hmoves ⊢
  cases hmoves with
  | passes hle => exact h.tick hd hle
  | switchOut _ _ hle hruns _ hfresh =>
    refine (h.tick hd hle).switchOut hboot ?_ _ hfresh _ _
    exact congrArg Phase.isRunning hruns
  | switchIn _ _ hle _ hfresh => exact (h.tick hd hle).switchIn (hd.tick hle) _ hfresh _ _
  | exit _ hle =>
    have ht := h.tick hd hle
    exact ⟨fun m hm => ht.stamp m (View.entry_of_exit hm).2, fun m hm => ht.le m (View.entry_of_exit hm).2,
      fun hb m hm => ht.stamped hb m (View.entry_of_exit hm).2, fun hb m hm => ht.ge hb m (View.entry_of_exit hm).2⟩
  | wakeup hle hidle => exact (h.tick hd hle).wakeup (isRunning_of_idle hidle)

/-! ## Time on run queues only -/

/-- What has been counted is time on run queues. -/
def View.Queued (v : View) : Prop :=
  ∀ m, v.entry = some m → v.life.kept = true →
    m.waitTimeNs.toNat + v.life.born.runnable ≤ (v.account.spentAt v.clock).runnable

namespace View.Queued

variable {v : View} {fresh : Option TaskSchedMetrics} {task : Task}

theorem tick (h : v.Queued) {now} (hle : v.clock ≤ now) : (v.tick now).Queued := fun m hm hkept =>
  Nat.le_trans (h m hm hkept) (v.account.runnable_le_spentAt hle)

theorem switchOut (h : v.Queued) (seen : Bool) (hfresh : Fresh task fresh) (prevState : UInt32) (final : Bool) :
    (v.switchOut seen fresh prevState final).Queued := by
  intro m' hm' hkept'
  have hsame := v.account.enter_spentAt_runnable v.clock (phaseAfter prevState final)
  simp only [View.switchOut] at hm' hkept' ⊢
  rw [hsame]
  obtain ⟨m, -, hf, rfl, hlife⟩ | ⟨m, hm, -, rfl, hlife⟩ | ⟨-, -, hlife⟩ :=
    recorded_cases (v.account.spentAt v.clock) hm'
  · rw [hlife, hfresh m hf]
    simp
  · rw [hlife] at hkept' ⊢
    simpa using h m hm hkept'
  · rw [hlife] at hkept'
    cases hkept'

/-- At a switch-in all the time off the CPU is counted. If none of it was
spent blocked, it was on run queues. -/
theorem switchIn {boot : Prop} (hw : v.Waited boot) (hd : v.Dated) {seen} (hfresh : Fresh task fresh)
    (topology : Bpf.Array CpuTopologyInfo 1024) (cpu : UInt32)
    (hqueues : ∀ m, v.entry = some m → v.life.kept = true → seen = true →
      (v.account.spentAt v.clock).unqueued = v.life.born.unqueued) :
    (v.switchIn seen fresh topology cpu).Queued := by
  intro m' hm' hkept'
  have hsame := v.account.enter_spentAt_runnable v.clock (.running cpu)
  simp only [View.switchIn] at hm' hkept' ⊢
  rw [hsame]
  obtain ⟨m, -, hf, rfl, hlife⟩ | ⟨m, hm, hseen, rfl, hlife⟩ | ⟨-, -, hlife⟩ :=
    recorded_cases (v.account.spentAt v.clock) hm'
  · rw [hlife, hfresh m hf]
    simp [waitedFor]
  · rw [hlife] at hkept' ⊢
    have hle := hw.le m hm hkept'
    have hblocked := hqueues m hm hkept' hseen
    rw [recordSwitchIn_waitTimeNs, hw.add hd hm hkept']
    simp only [Spent.idle_eq] at hle
    omega
  · rw [hlife] at hkept'
    cases hkept'

theorem wakeup (h : v.Queued) : v.wakeup.Queued := by
  intro m hm hkept
  have hsame := v.account.enter_spentAt_runnable v.clock .runnable
  simp only [View.wakeup]
  rw [hsame]
  exact h m hm hkept

end View.Queued

theorem queued_step {g s s' e pid} {boot : Prop} (hpid : pid ≠ 0) (hd : (s.view pid).Dated)
    (hw : (s.view pid).Waited boot) (h : (s.view pid).Queued) (hqueues : Queues g pid s e)
    (hstep : (monitor g).step s e = some s') : (s'.view pid).Queued := by
  have hmoves := step_moves hstep hpid
  generalize s'.view pid = v' at hmoves ⊢
  cases hmoves with
  | passes hle => exact h.tick hle
  | switchOut _ _ hle _ _ hfresh => exact (h.tick hle).switchOut _ hfresh _ _
  | switchIn hp _ hle _ hfresh =>
    refine View.Queued.switchIn (hw.tick hd hle) (hd.tick hle) hfresh _ _ fun m hm hkept hseen => ?_
    exact hqueues hp (Option.isSome_iff_exists.mpr ⟨m, hm⟩) hkept hseen
  | exit _ hle => exact fun m hm => h.tick hle m (View.entry_of_exit hm).2
  | wakeup hle => exact (h.tick hle).wakeup

/-! ## Whole runs -/

section Runs

variable {g : Globals} {s₀ s : State} {es : List Event}

theorem waited_of_empty (boot : Prop) (hnew : s₀.Empty) (pid : UInt32) : (s₀.view pid).Waited boot where
  stamp m hm := by cases (hnew pid).symm.trans hm
  le m hm := by cases (hnew pid).symm.trans hm
  stamped _ m hm := by cases (hnew pid).symm.trans hm
  ge _ m hm := by cases (hnew pid).symm.trans hm

theorem queued_run (hnew : s₀.Empty) (h : (monitor g).exec s₀ es = some s) {pid}
    (hqueues : (monitor g).Guarded (Queues g pid) s₀ es) {m} (hm : s.entry pid = some m)
    (hkept : (s.lives pid).kept = true) : m.waitTimeNs.toNat ≤ s.queuedSinceMade pid := by
  have hpid := entry_ne_zero hnew h hm
  have hstart : (s₀.view pid).Dated ∧ (s₀.view pid).Waited False ∧ (s₀.view pid).Queued :=
    ⟨dated_of_empty hnew pid, waited_of_empty False hnew pid, fun m hm => by cases (hnew pid).symm.trans hm⟩
  have hend := Machine.invariantWhere
    (I := fun s => (s.view pid).Dated ∧ (s.view pid).Waited False ∧ (s.view pid).Queued)
    (fun hi hq hs => ⟨dated_step hpid hi.1 hs, waited_step hpid hi.1 hi.2.1 False.elim hs,
      queued_step hpid hi.1 hi.2.1 hi.2.2 hq hs⟩) h hqueues hstart
  exact Nat.le_sub_of_add_le (hend.2.2 m hm hkept)

/-- The entries of a pod are under their PIDs. -/
theorem entry_of_mem {e} (he : e ∈ s.maps.taskMetrics.entries.entries) :
    s.entry e.1 = some e.2 :=
  AList.mem_lookup_iff.mpr he

/-- A switch-in after which the bound holds: the time off the CPU before it was
on run queues. -/
theorem View.queues_of_bound {v : View} {fresh topology cpu} (hd : v.Dated) (hw : v.Waited True) {m}
    (hm : v.entry = some m) (hkept : v.life.kept = true)
    (hbound : ∀ m', (v.switchIn true fresh topology cpu).entry = some m' →
      (v.switchIn true fresh topology cpu).life.kept = true →
      m'.waitTimeNs.toNat ≤ ((v.switchIn true fresh topology cpu).account.spentAt v.clock).runnable -
        (v.switchIn true fresh topology cpu).life.born.runnable) :
    (v.account.spentAt v.clock).unqueued = v.life.born.unqueued := by
  have hentry : v.recorded true fresh (recordSwitchIn topology v.clock cpu) =
      some (recordSwitchIn topology v.clock cpu m) := by
    simp [recorded, hm]
  have hlife : v.life.track v.entry (v.recorded true fresh (recordSwitchIn topology v.clock cpu)) true
      (v.account.spentAt v.clock) = v.life := by
    simp [Life.track, hm]
  have hwait := hbound (recordSwitchIn topology v.clock cpu m) hentry (by simp only [View.switchIn, hlife]; exact hkept)
  simp only [View.switchIn, hlife, Account.enter_spentAt_runnable, recordSwitchIn_waitTimeNs, hw.add hd hm hkept] at hwait
  have hge := hw.ge trivial m hm hkept
  have hgrown := (hd.spentAt hm).1
  have hrunnable := hgrown.runnable
  have hunqueued : v.life.born.unqueued ≤ (v.account.spentAt v.clock).unqueued :=
    Nat.add_le_add hgrown.blocked hgrown.absent
  simp only [Spent.idle_eq] at hge
  omega

theorem queues_step {s' pid e} (hpid : pid ≠ 0) (hd : (s.view pid).Dated) (hw : (s.view pid).Waited True)
    (hstep : (monitor g).step s e = some s')
    (hbound : ∀ m, s'.entry pid = some m → (s'.lives pid).kept = true → m.waitTimeNs.toNat ≤ s'.queuedSinceMade pid) :
    Queues g pid s e := by
  cases e with
  | schedSwitch w =>
    intro hp hsome hkept hseen
    obtain ⟨m, hm⟩ := Option.isSome_iff_exists.mp hsome
    have hmoves := step_moves hstep hpid
    have hbound' : ∀ m', (s'.view pid).entry = some m' → (s'.view pid).life.kept = true →
        m'.waitTimeNs.toNat ≤ ((s'.view pid).account.spentAt (s'.view pid).clock).runnable -
          (s'.view pid).life.born.runnable := hbound
    generalize s'.view pid = v' at hmoves hbound'
    cases hmoves with
    | passes _ hother => exact absurd (.inr hp) hother
    | switchOut _ hnext => exact absurd hp hnext
    | switchIn _ _ hle =>
      rw [hseen] at hbound'
      exact View.queues_of_bound (hd.tick hle) (hw.tick hd hle) hm hkept hbound'
  | _ => trivial

/-- **Wait time is run-queue time** for a task that passes the filter at each
switch, in every run in which it comes to run without having been blocked, and
for a pod of such tasks. Conversely, if the bound holds at every point of a
run, then the run is of that kind. -/
theorem waitTimeNs_bounded (hnew : s₀.Empty) (h : (monitor g).exec s₀ es = some s) :
    (∀ pid, (monitor g).Guarded (Queues g pid) s₀ es →
      ∀ m, s.entry pid = some m → (s.lives pid).kept = true → m.waitTimeNs.toNat ≤ s.queuedSinceMade pid) ∧
    (∀ reads order podMapper podUID agg, (poll reads order podMapper s.maps).2.lookup podUID = some agg →
      (∀ pid ∈ s.podTasks reads podMapper podUID,
        (s.lives pid).kept = true ∧ (monitor g).Guarded (Queues g pid) s₀ es) →
      agg.waitTimeNs.toNat ≤ ((s.podTasks reads podMapper podUID).map s.queuedSinceMade).sum) ∧
    (∀ pid, (∀ e ∈ es, e.AfterBoot) →
      (∀ es₁ es₂ s₁, es = es₁ ++ es₂ → (monitor g).exec s₀ es₁ = some s₁ →
        ∀ m, s₁.entry pid = some m → (s₁.lives pid).kept = true → m.waitTimeNs.toNat ≤ s₁.queuedSinceMade pid) →
      (monitor g).Guarded (Queues g pid) s₀ es) := by
  refine ⟨fun pid hqueues m hm hkept => queued_run hnew h hqueues hm hkept,
    fun reads order podMapper podUID agg hagg htasks => ?_, fun pid hboot hbound => ?_⟩
  · have hsum := exported_poll reads order podMapper s.maps podUID .waitTimeNs
    rw [exported, hagg] at hsum
    refine Nat.le_trans (le_of_eq_of_le hsum (Nat.mod_le _ _)) ?_
    rw [State.podTasks, List.map_map]
    refine List.sum_le_sum fun e he => ?_
    obtain ⟨hkept, hqueues⟩ := htasks e.1 (List.mem_map_of_mem he)
    exact queued_run hnew h hqueues (entry_of_mem (List.mem_filter.mp he).1) hkept
  · refine guarded_of_splits fun es₁ e es₂ s₁ hsplit hexec => ?_
    obtain ⟨_, hexec', hrest⟩ := exec_append (hsplit ▸ h)
    cases hexec.symm.trans hexec'
    obtain ⟨s₃, hstep, -⟩ := exec_cons hrest
    by_cases hpid : pid = 0
    · subst hpid
      cases e with
      | schedSwitch w =>
        intro _ hsome
        obtain ⟨m, hm⟩ := Option.isSome_iff_exists.mp hsome
        exact absurd rfl (entry_ne_zero hnew hexec hm)
      | _ => trivial
    · have hinv := Machine.invariantWhere (I := fun s => (s.view pid).Dated ∧ (s.view pid).Waited True)
        (fun hi hb hs => ⟨dated_step hpid hi.1 hs, waited_step hpid hi.1 hi.2 (fun _ => hb) hs⟩) hexec
        (guarded_of_forall fun e he => hboot e (by rw [hsplit]; exact List.mem_append_left _ he))
        ⟨dated_of_empty hnew pid, waited_of_empty True hnew pid⟩
      refine queues_step hpid hinv.1 hinv.2 hstep fun m hm hkept => ?_
      exact hbound (es₁ ++ [e]) es₂ s₃ (by simp [hsplit])
        (exec_trans hexec (Option.bind_eq_some_iff.mpr ⟨s₃, hstep, rfl⟩)) m hm hkept

end Runs

/-! ## A task that sleeps -/

section Sleeper

instance (g : Globals) (pid : UInt32) (s : State) : ∀ e : Event, Decidable (Queues g pid s e)
  | .schedSwitch w =>
    inferInstanceAs (Decidable
      (w.next.pid = pid → (s.entry pid).isSome = true → (s.lives pid).kept = true →
        shouldMonitor g s.maps w.next = true →
        ((s.kernel.tasks pid).spentAt w.now).unqueued = (s.lives pid).born.unqueued))
  | .schedProcessExit .. | .wakeup .. | .write _ => .isTrue trivial

/-- The task runs from 10 to 20, sleeps until 90 and runs again from 100. -/
def sleeps : List Event :=
  [.write (.addPid 7), .schedSwitch ⟨10, 0, .idle, ⟨7, 7⟩, 0, false, (true, true)⟩,
    .schedSwitch ⟨20, 0, ⟨7, 7⟩, .idle, 1, false, (true, true)⟩, .wakeup 90 7,
    .schedSwitch ⟨100, 0, .idle, ⟨7, 7⟩, 0, false, (true, true)⟩]

/-- The task is preempted at 20 and runs again from 30. -/
def preempted : List Event :=
  [.write (.addPid 7), .schedSwitch ⟨10, 0, .idle, ⟨7, 7⟩, 0, false, (true, true)⟩,
    .schedSwitch ⟨20, 0, ⟨7, 7⟩, .idle, 0, false, (true, true)⟩,
    .schedSwitch ⟨30, 0, .idle, ⟨7, 7⟩, 0, false, (true, true)⟩]

theorem waitTimeNs_counts_sleep :
    ∃ s, (monitor {}).exec .loaded sleeps = some s ∧
      (s.entry 7).map (·.waitTimeNs) = some 80 ∧ (s.lives 7).kept = true ∧ s.queuedSinceMade 7 = 10 ∧
      ((s.kernel.tasks 7).spentAt s.kernel.clock).runnable = 10 :=
  exists_exec (by decide +kernel)

theorem waitTimeNs_bounded_preempted :
    ∃ s m, (monitor {}).exec .loaded preempted = some s ∧ s.entry 7 = some m ∧
      m.waitTimeNs.toNat ≤ s.queuedSinceMade 7 := by
  obtain ⟨s, h, hsome, hkept⟩ : ∃ s, (monitor {}).exec .loaded preempted = some s ∧
      (s.entry 7).isSome = true ∧ (s.lives 7).kept = true :=
    exists_exec (by decide +kernel)
  obtain ⟨m, hm⟩ := Option.isSome_iff_exists.mp hsome
  exact ⟨s, m, h, hm, (waitTimeNs_bounded loaded_empty h).1 7 (by decide +kernel) m hm hkept⟩

end Sleeper

end Gthulhu.Monitor
