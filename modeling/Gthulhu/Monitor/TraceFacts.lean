/-
One task as the monitor and the kernel see it. A step of the whole system
does one of five things to the view of a PID (`step_moves`): its task is
switched out, switched in, exits, is woken up, or time passes. Every
invariant of the entries is checked against these five.
-/
import Gthulhu.Monitor.Trace

namespace Gthulhu.Monitor

open Lib Option

/-- What belongs to one PID, and the time. -/
structure View where
  entry : Option TaskSchedMetrics
  account : Account
  life : Life
  clock : UInt64

def State.view (s : State) (pid : UInt32) : View where
  entry := s.entry pid
  account := s.kernel.tasks pid
  life := s.lives pid
  clock := s.kernel.clock

namespace View

def tick (v : View) (now : UInt64) : View := { v with clock := now }

/-- The entry after a switch that `record` describes: found or made if the
task passes the filter. -/
def recorded (v : View) (seen : Bool) (fresh : Option TaskSchedMetrics) (record : TaskSchedMetrics → TaskSchedMetrics) :
    Option TaskSchedMetrics :=
  if seen then (v.entry.or fresh).map record else v.entry

def switchOut (v : View) (seen : Bool) (fresh : Option TaskSchedMetrics) (prevState : UInt32) (final : Bool) : View :=
  let entry := v.recorded seen fresh (recordSwitchOut v.clock prevState)
  { entry
    account := v.account.enter v.clock (phaseAfter prevState final)
    life := v.life.track v.entry entry seen (v.account.spentAt v.clock)
    clock := v.clock }

def switchIn (v : View) (seen : Bool) (fresh : Option TaskSchedMetrics) (topology : Bpf.Array CpuTopologyInfo 1024)
    (cpu : UInt32) : View :=
  let entry := v.recorded seen fresh (recordSwitchIn topology v.clock cpu)
  let life := v.life.track v.entry entry seen (v.account.spentAt v.clock)
  { entry
    account := v.account.enter v.clock (.running cpu)
    life := { life with cpus := cpu :: life.cpus }
    clock := v.clock }

def exit (v : View) (seen : Bool) : View :=
  { v with entry := if seen then none else v.entry, account := { v.account with exiting := true } }

def wakeup (v : View) : View := { v with account := v.account.enter v.clock .runnable }

end View

/-- An entry that is made for a task is empty. -/
def Fresh (task : Task) (fresh : Option TaskSchedMetrics) : Prop :=
  ∀ m, fresh = some m → m = { pid := task.pid, tgid := task.tgid }

theorem Maps.fresh_fresh (maps : Maps) (task : Task) : Fresh task (maps.fresh task) := by
  intro m hm
  unfold Maps.fresh at hm
  split at hm
  · exact (Option.some.inj hm).symm
  · cases hm

/-- The task of `pid` is switched in or out. -/
def Event.Switches (pid : UInt32) : Event → Prop
  | .schedSwitch w => w.prev.pid = pid ∨ w.next.pid = pid
  | _ => False

/-- What a step can do to the view of `pid`. -/
inductive Moves (g : Globals) (s : State) (pid : UInt32) : Event → View → Prop
  | passes {e : Event} {now : UInt64} (hle : s.kernel.clock ≤ now) (hother : ¬e.Switches pid) :
      Moves g s pid e ((s.view pid).tick now)
  | switchOut {w : Switch} (hpid : w.prev.pid = pid) (hnext : w.next.pid ≠ pid) (hle : s.kernel.clock ≤ w.now)
      (hruns : (s.kernel.tasks pid).phase = .running w.cpu)
      (hexit : w.final = true → (s.kernel.tasks pid).exiting = true) {fresh : Option TaskSchedMetrics}
      (hfresh : Fresh w.prev fresh) :
      Moves g s pid (.schedSwitch w)
        (((s.view pid).tick w.now).switchOut (shouldMonitor g s.maps w.prev) fresh w.prevState w.final)
  | switchIn {w : Switch} (hpid : w.next.pid = pid) (hprev : w.prev.pid ≠ pid) (hle : s.kernel.clock ≤ w.now)
      (hidle : (s.kernel.tasks pid).phase.isRunning = false) {fresh : Option TaskSchedMetrics}
      (hfresh : Fresh w.next fresh) :
      Moves g s pid (.schedSwitch w)
        (((s.view pid).tick w.now).switchIn (shouldMonitor g s.maps w.next) fresh s.maps.cpuTopologyMap w.cpu)
  | exit {now : UInt64} {cpu : UInt32} {task : Task} {reserved : Bool} (hpid : task.pid = pid)
      (hle : s.kernel.clock ≤ now) :
      Moves g s pid (.schedProcessExit now cpu task reserved)
        (((s.view pid).tick now).exit (shouldMonitor g s.maps task))
  | wakeup {now : UInt64} (hle : s.kernel.clock ≤ now)
      (hidle : (s.kernel.tasks pid).phase = .blocked ∨ (s.kernel.tasks pid).phase = .absent) :
      Moves g s pid (.wakeup now pid) ((s.view pid).tick now).wakeup

section Steps

variable {g : Globals} {s s' : State} {w : Switch} {pid : UInt32}

theorem tick_eq {now} (h : s.tick now = some s') :
    ∃ hle : s.kernel.clock ≤ now, s' = { s with kernel := s.kernel.tick now hle } := by
  unfold State.tick at h
  split at h
  case isTrue hle => exact ⟨hle, (Option.some.inj h).symm⟩
  case isFalse => cases h

theorem tick_view {now} (h : s.tick now = some s') :
    s.kernel.clock ≤ now ∧ s'.maps = s.maps ∧ ∀ pid, s'.view pid = (s.view pid).tick now := by
  obtain ⟨hle, rfl⟩ := tick_eq h
  exact ⟨hle, rfl, fun _ => rfl⟩

@[simp] theorem Kernel.set_tasks (k : Kernel) (pid : UInt32) (a : Account) (h : a.since ≤ k.clock) :
    (k.set pid a h).tasks = Function.update k.tasks pid a := rfl

@[simp] theorem Kernel.enter_tasks (k : Kernel) (pid : UInt32) (phase : Phase) :
    (k.enter pid phase).tasks = Function.update k.tasks pid ((k.tasks pid).enter k.clock phase) := rfl

theorem switchOut_sameFilters (h : s.switchOut g w = some s') : s.maps.SameFilters s'.maps := by
  unfold State.switchOut at h
  dsimp only at h
  split at h
  · cases h
    exact handlePrev_sameFilters ..
  · cases h

/-- The first half of a switch, for a PID that is not the idle task's. -/
theorem switchOut_view (h : s.switchOut g w = some s') (hpid : pid ≠ 0) :
    (w.prev.pid ≠ pid ∧ s'.view pid = s.view pid) ∨
      (w.prev.pid = pid ∧ (s.kernel.tasks pid).phase = .running w.cpu ∧
        (w.final = true → (s.kernel.tasks pid).exiting = true) ∧
        s'.view pid = (s.view pid).switchOut (shouldMonitor g s.maps w.prev) (s.maps.fresh w.prev) w.prevState
          w.final) := by
  unfold State.switchOut at h
  dsimp only at h
  split at h
  case isFalse => cases h
  case isTrue hcan =>
    cases h
    by_cases hp : w.prev.pid = pid
    · subst hp
      obtain hzero | ⟨hruns, hexit⟩ := hcan
      · exact absurd hzero hpid
      · refine .inr ⟨rfl, hruns, hexit, ?_⟩
        simp [State.view, State.entry, View.switchOut, View.recorded, lookup_handlePrev, hpid, seen, Maps.entryFor,
          Account.enter, State.view, Kernel.enter, Kernel.set]
    · refine .inl ⟨hp, ?_⟩
      have hp' : pid ≠ w.prev.pid := fun h => hp h.symm
      simp [State.view, State.entry, lookup_handlePrev, hp', Kernel.enter, Kernel.set]

/-- The second half. -/
theorem switchIn_view (h : s.switchIn g w = some s') (hpid : pid ≠ 0) :
    (w.next.pid ≠ pid ∧ s'.view pid = s.view pid) ∨
      (w.next.pid = pid ∧ (s.kernel.tasks pid).phase.isRunning = false ∧ w.prev.pid ≠ pid ∧
        s'.view pid = (s.view pid).switchIn (shouldMonitor g s.maps w.next) (s.maps.fresh w.next)
          s.maps.cpuTopologyMap w.cpu) := by
  unfold State.switchIn at h
  dsimp only at h
  split at h
  case isFalse => cases h
  case isTrue hcan =>
    cases h
    by_cases hp : w.next.pid = pid
    · subst hp
      obtain hzero | ⟨hidle, hne⟩ := hcan
      · exact absurd hzero hpid
      · refine .inr ⟨rfl, hidle, fun h => hne h.symm, ?_⟩
        simp [State.view, State.entry, View.switchIn, View.recorded, lookup_handleNext, hpid, seen, Maps.entryFor,
          Account.enter, Kernel.enter, Kernel.set]
    · refine .inl ⟨hp, ?_⟩
      have hp' : pid ≠ w.next.pid := fun h => hp h.symm
      simp [State.view, State.entry, lookup_handleNext, hp', Kernel.enter, Kernel.set]

theorem Write.apply_taskMetrics (maps : Maps) (w : Write) : (w.apply maps).taskMetrics = maps.taskMetrics := by
  cases w with
  | topology cpu info =>
    simp only [Write.apply]
    split <;> rfl
  | _ => rfl

theorem exit_view (g : Globals) (s : State) (cpu : UInt32) (task : Task) (reserved : Bool) (pid : UInt32) :
    (s.exit g cpu task reserved).view pid =
      if pid = task.pid then (s.view pid).exit (shouldMonitor g s.maps task) else s.view pid := by
  by_cases hp : pid = task.pid
  · subst hp
    simp [State.view, State.exit, State.entry, lookup_handleSchedProcessExit, View.exit, Kernel.set]
  · simp [State.view, State.exit, State.entry, lookup_handleSchedProcessExit, hp, Kernel.set]

theorem wakeup_maps (s : State) (pid : UInt32) : (s.wakeup pid).maps = s.maps := by
  unfold State.wakeup
  dsimp only
  split <;> rfl

theorem wakeup_view (s : State) (pid' pid : UInt32) :
    (s.wakeup pid').view pid =
      if pid = pid' ∧ ((s.kernel.tasks pid).phase = .blocked ∨ (s.kernel.tasks pid).phase = .absent) then
        (s.view pid).wakeup
      else s.view pid := by
  unfold State.wakeup
  by_cases hp : pid = pid'
  · subst hp
    by_cases hidle : (s.kernel.tasks pid).phase = .blocked ∨ (s.kernel.tasks pid).phase = .absent
    · simp [hidle, State.view, View.wakeup, Kernel.enter, Kernel.set, State.entry]
    · simp [hidle]
  · dsimp only
    split
    · simp [hp, State.view, Kernel.enter, Kernel.set, State.entry]
    · simp [hp]

/-- What a step does to a PID that is not the idle task's. -/
theorem step_moves {e} (h : (monitor g).step s e = some s') (hpid : pid ≠ 0) :
    Moves g s pid e (s'.view pid) := by
  cases e with
  | schedSwitch w =>
    obtain ⟨s1, hticked, h⟩ := bind_eq_some_iff.mp h
    obtain ⟨s2, hout, hin⟩ := bind_eq_some_iff.mp h
    obtain ⟨hle, hmaps, hview⟩ := tick_view hticked
    have htask : s1.kernel.tasks pid = s.kernel.tasks pid := congrArg View.account (hview pid)
    have hsame := switchOut_sameFilters hout
    have ho := switchOut_view hout hpid
    obtain ⟨hnext, hi⟩ | ⟨hnext, hidle, hprev, hi⟩ := switchIn_view hin hpid
    · obtain ⟨hprev, ho⟩ | ⟨hprev, hruns, hexit, ho⟩ := ho
      · rw [hi, ho, hview]
        exact .passes hle fun hs => hs.elim hprev hnext
      · rw [hi, ho, hview, hmaps]
        rw [htask] at hruns hexit
        exact .switchOut hprev hnext hle hruns hexit (Maps.fresh_fresh _ _)
    · obtain ⟨-, ho⟩ | ⟨hprev', -⟩ := ho
      · have hidle' : (s.kernel.tasks pid).phase.isRunning = false := by
          rw [← htask, ← show s2.kernel.tasks pid = s1.kernel.tasks pid from congrArg View.account ho]
          exact hidle
        rw [hi, ho, hview, hsame.shouldMonitor, hsame.topology, hmaps]
        exact .switchIn hnext hprev hle hidle' (Maps.fresh_fresh _ _)
      · exact absurd hprev' hprev
  | schedProcessExit now cpu task reserved =>
    obtain ⟨s1, hticked, h⟩ := bind_eq_some_iff.mp h
    obtain ⟨hle, hmaps, hview⟩ := tick_view hticked
    cases h
    rw [exit_view, hview, hmaps]
    split
    case isTrue hp => exact .exit hp.symm hle
    case isFalse => exact .passes hle id
  | wakeup now pid' =>
    obtain ⟨s1, hticked, h⟩ := bind_eq_some_iff.mp h
    obtain ⟨hle, -, hview⟩ := tick_view hticked
    have htask : s1.kernel.tasks pid = s.kernel.tasks pid := congrArg View.account (hview pid)
    cases h
    rw [wakeup_view, hview, htask]
    split
    case isTrue hp =>
      obtain ⟨rfl, hidle⟩ := hp
      exact .wakeup hle hidle
    case isFalse => exact .passes hle id
  | write w =>
    cases h
    have : ({ s with maps := w.apply s.maps } : State).view pid = (s.view pid).tick s.kernel.clock := by
      simp [State.view, State.entry, Write.apply_taskMetrics, View.tick]
    rw [this]
    exact .passes (UInt64.le_refl _) id

end Steps

/-! ## Entries and time -/

@[simp] theorem Spent.running_add (t : Spent) (phase : Phase) (ns : Nat) :
    (t.add phase ns).running = t.running + if phase.isRunning then ns else 0 := by
  cases phase <;> rfl

@[simp] theorem Spent.idle_add (t : Spent) (phase : Phase) (ns : Nat) :
    (t.add phase ns).idle = t.idle + if phase.isRunning then 0 else ns := by
  cases phase <;> simp [Spent.add, Spent.idle, Phase.isRunning] <;> omega

theorem phaseAfter_isRunning (prevState : UInt32) (final : Bool) : (phaseAfter prevState final).isRunning = false := by
  unfold phaseAfter
  split
  · rfl
  · split <;> rfl

/-- An entry after a switch was made by it, rewritten by it, or passed over
by it. -/
theorem View.recorded_cases {v : View} {seen fresh record m'} (spent : Spent)
    (h : v.recorded seen fresh record = some m') :
    (∃ m, v.entry = none ∧ fresh = some m ∧ m' = record m ∧
      v.life.track v.entry (v.recorded seen fresh record) seen spent = ⟨spent, true, []⟩) ∨
    (∃ m, v.entry = some m ∧ seen = true ∧ m' = record m ∧
      v.life.track v.entry (v.recorded seen fresh record) seen spent = v.life) ∨
    (v.entry = some m' ∧ seen = false ∧
      v.life.track v.entry (v.recorded seen fresh record) seen spent = { v.life with kept := false }) := by
  rw [h]
  unfold View.recorded at h
  cases hseen : seen with
  | false =>
    rw [hseen] at h
    have he : v.entry = some m' := h
    exact .inr (.inr ⟨he, rfl, by simp [Life.track, he]⟩)
  | true =>
    rw [hseen, if_pos rfl] at h
    obtain ⟨m, hm, rfl⟩ := map_eq_some_iff.mp h
    cases he : v.entry with
    | none =>
      rw [he] at hm
      exact .inl ⟨m, rfl, hm, rfl, by simp [Life.track]⟩
    | some m1 =>
      rw [he] at hm
      have hm : m1 = m := Option.some.inj hm
      exact .inr (.inl ⟨m, by rw [hm], rfl, rfl, by simp [Life.track]⟩)

theorem View.entry_of_exit {v : View} {seen m} (h : (v.exit seen).entry = some m) :
    seen = false ∧ v.entry = some m := by
  cases seen with
  | true => cases h
  | false => exact ⟨rfl, h⟩

/-- At least as much in each phase. -/
structure Spent.Le (t t' : Spent) : Prop where
  running : t.running ≤ t'.running
  runnable : t.runnable ≤ t'.runnable
  blocked : t.blocked ≤ t'.blocked
  absent : t.absent ≤ t'.absent

theorem Spent.Le.refl (t : Spent) : t.Le t := ⟨Nat.le_refl _, Nat.le_refl _, Nat.le_refl _, Nat.le_refl _⟩

theorem Spent.Le.add {t t' : Spent} (h : t.Le t') (phase : Phase) (ns : Nat) : t.Le (t'.add phase ns) := by
  obtain ⟨hrunning, hrunnable, hblocked, habsent⟩ := h
  constructor <;> cases phase <;> simp only [Spent.add] <;> omega

theorem Spent.Le.idle {t t' : Spent} (h : t.Le t') : t.idle ≤ t'.idle :=
  Nat.add_le_add (Nat.add_le_add h.runnable h.blocked) h.absent

/-- No more time is accounted to a task since its entry was made than the
clock has run. -/
structure View.Dated (v : View) : Prop where
  past : v.account.since ≤ v.clock
  grown : ∀ m, v.entry = some m → v.life.born.Le v.account.spent
  total : ∀ m, v.entry = some m → v.account.spent.running + v.account.spent.idle ≤
    v.life.born.running + v.life.born.idle + v.account.since.toNat

namespace View.Dated

variable {v : View}

theorem tick (h : v.Dated) {now} (hle : v.clock ≤ now) : (v.tick now).Dated :=
  ⟨UInt64.le_trans h.past hle, h.grown, h.total⟩

/-- The account of the next phase, over what had been spent when the entry was
made. -/
theorem spentAt (h : v.Dated) {m} (hm : v.entry = some m) :
    v.life.born.Le (v.account.spentAt v.clock) ∧
      (v.account.spentAt v.clock).running + (v.account.spentAt v.clock).idle ≤
        v.life.born.running + v.life.born.idle + v.clock.toNat := by
  refine ⟨(h.grown m hm).add _ _, ?_⟩
  have hpast := UInt64.le_iff_toNat_le.mp h.past
  have htotal := h.total m hm
  simp only [Account.spentAt, Spent.running_add, Spent.idle_add]
  split <;> omega

theorem switched (h : v.Dated) (seen : Bool) (fresh : Option TaskSchedMetrics)
    (record : TaskSchedMetrics → TaskSchedMetrics) (phase : Phase) {life}
    (hborn : life.born = (v.life.track v.entry (v.recorded seen fresh record) seen (v.account.spentAt v.clock)).born) :
    View.Dated ⟨v.recorded seen fresh record, v.account.enter v.clock phase, life, v.clock⟩ := by
  have key : ∀ m', v.recorded seen fresh record = some m' →
      life.born.Le (v.account.spentAt v.clock) ∧
        (v.account.spentAt v.clock).running + (v.account.spentAt v.clock).idle ≤
          life.born.running + life.born.idle + v.clock.toNat := by
    intro m' hm'
    rw [hborn]
    obtain ⟨m, -, -, -, hlife⟩ | ⟨m, hm, -, -, hlife⟩ | ⟨hm, -, hlife⟩ := recorded_cases _ hm'
    · rw [hlife]
      exact ⟨.refl _, Nat.le_add_right _ _⟩
    · rw [hlife]
      exact h.spentAt hm
    · rw [hlife]
      exact h.spentAt hm
  exact ⟨UInt64.le_refl _, fun m hm => (key m hm).1, fun m hm => (key m hm).2⟩

end View.Dated

/-- Nothing is in `task_metrics` yet. -/
def State.Empty (s : State) : Prop := ∀ pid, s.entry pid = none

theorem loaded_empty : State.loaded.Empty := fun pid => Bpf.HashMap.lookup_empty pid

theorem dated_of_empty {s : State} (h : s.Empty) (pid : UInt32) : (s.view pid).Dated where
  past := s.kernel.past pid
  grown m hm := by cases (h pid).symm.trans hm
  total m hm := by cases (h pid).symm.trans hm

theorem dated_step {g s s' e pid} (hpid : pid ≠ 0) (h : (s.view pid).Dated)
    (hstep : (monitor g).step s e = some s') : (s'.view pid).Dated := by
  have hmoves := step_moves hstep hpid
  generalize s'.view pid = v' at hmoves ⊢
  cases hmoves with
  | passes hle => exact h.tick hle
  | switchOut _ _ hle => exact (h.tick hle).switched _ _ _ _ rfl
  | switchIn _ _ hle => exact (h.tick hle).switched _ _ _ _ rfl
  | exit hp hle =>
    have hd := h.tick hle
    exact ⟨hd.past, fun m hm => hd.grown m (View.entry_of_exit hm).2, fun m hm => hd.total m (View.entry_of_exit hm).2⟩
  | wakeup hle =>
    have hd := h.tick hle
    exact ⟨UInt64.le_refl _, fun m hm => (hd.spentAt hm).1, fun m hm => (hd.spentAt hm).2⟩

/-- The maps are those that the handlers and user space leave. -/
theorem step_maps {g s s' e} (h : (monitor g).step s e = some s') :
    s'.maps = e.apply g s.maps := by
  cases e with
  | schedSwitch w =>
    obtain ⟨s1, hticked, h⟩ := bind_eq_some_iff.mp h
    obtain ⟨s2, hout, hin⟩ := bind_eq_some_iff.mp h
    obtain ⟨hle, rfl⟩ := tick_eq hticked
    simp only [State.switchOut] at hout
    simp only [State.switchIn] at hin
    split at hout
    case isFalse => cases hout
    case isTrue =>
      cases hout
      split at hin
      case isFalse => cases hin
      case isTrue =>
        cases hin
        rfl
  | schedProcessExit now cpu task reserved =>
    obtain ⟨s1, hticked, h⟩ := bind_eq_some_iff.mp h
    obtain ⟨hle, rfl⟩ := tick_eq hticked
    cases h
    rfl
  | wakeup now pid =>
    obtain ⟨s1, hticked, h⟩ := bind_eq_some_iff.mp h
    obtain ⟨hle, rfl⟩ := tick_eq hticked
    cases h
    exact wakeup_maps _ _
  | write w =>
    cases h
    rfl

/-- The idle task gets no entry. -/
theorem entry_zero_step {g s s' e} (h : s.entry 0 = none)
    (hstep : (monitor g).step s e = some s') : s'.entry 0 = none := by
  rw [State.entry, step_maps hstep]
  cases e with
  | schedSwitch w =>
    simp only [Event.apply, handleSchedSwitch, lookup_handleNext, lookup_handlePrev]
    grind [State.entry]
  | schedProcessExit now cpu task reserved =>
    rw [Event.apply, lookup_handleSchedProcessExit]
    split
    · rfl
    · exact h
  | wakeup now pid => exact h
  | write w => exact (congrArg (·.lookup 0) (Write.apply_taskMetrics s.maps w)).trans h

/-- The PID of an entry is not the idle task's. -/
theorem entry_ne_zero {g s0 s es} (hnew : s0.Empty) (h : (monitor g).exec s0 es = some s) {pid m}
    (hm : s.entry pid = some m) :
    pid ≠ 0 := by
  rintro rfl
  have hzero := Machine.invariant (I := fun s => s.entry 0 = none) (fun hi hs => entry_zero_step hi hs) h (hnew 0)
  cases hzero.symm.trans hm

end Gthulhu.Monitor
