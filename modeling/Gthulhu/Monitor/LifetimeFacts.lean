/-
How long entries last. The exit handler deletes the entry of a task, but the
task is still running: its last switch-out comes after, finds no entry and
makes a new one (`entry_outlives_task`). The entry stays until another task
with the same PID exits, and that task starts from what the entry holds. A
task that does not pass the filter when it exits keeps its entry as well.

`entries_of_live_tasks`: where an exiting task passes the filter at its exit
(or has no entry) and at no switch after it, only live tasks have entries;
and an entry is there after a last switch-out exactly if one was there before
or could be made.
-/
import Gthulhu.Monitor.TraceFacts
import Mathlib.Data.FinEnum

namespace Gthulhu.Monitor

open Lib

/-- An exiting task passes the filter at its exit, if it has an entry, and at
no switch after that. -/
def ExitsClean (g : Globals) (s : State) : Event → Prop
  | .schedProcessExit _ _ task _ => shouldMonitor g s.maps task = true ∨ s.entry task.pid = none
  | .schedSwitch w =>
    ((s.kernel.tasks w.prev.pid).exiting = true → shouldMonitor g s.maps w.prev = false) ∧
      ((s.kernel.tasks w.next.pid).exiting = true → shouldMonitor g s.maps w.next = false)
  | _ => True

/-- The PIDs of live tasks. -/
def State.live (s : State) : Set UInt32 := { pid | (s.kernel.tasks pid).phase ≠ .absent }

/-- An entry belongs to a live task that has not exited. -/
def View.Living (v : View) : Prop := ∀ m, v.entry = some m → v.account.phase ≠ .absent ∧ v.account.exiting = false

namespace View.Living

variable {v : View} {seen : Bool}

/-- A task with an entry after a switch had not exited. -/
theorem not_exiting (h : v.Living) (hclean : v.account.exiting = true → seen = false) {fresh record m'}
    (hm' : v.recorded seen fresh record = some m') : v.account.exiting = false := by
  cases hexiting : v.account.exiting with
  | false => rfl
  | true =>
    have hunseen := hclean hexiting
    simp only [recorded, hunseen] at hm'
    have := (h m' hm').2
    rw [hexiting] at this
    cases this

theorem switchOut (h : v.Living) (fresh : Option TaskSchedMetrics) (prevState : UInt32) {final}
    (hclean : v.account.exiting = true → seen = false) (hfinal : final = true → v.account.exiting = true) :
    (v.switchOut seen fresh prevState final).Living := by
  intro m' hm'
  have hnot := h.not_exiting hclean hm'
  have hgoes : final = false := by
    cases hf : final with
    | false => rfl
    | true => cases (hfinal hf).symm.trans hnot
  simp only [View.switchOut, Account.enter, hnot, hgoes, phaseAfter]
  refine ⟨?_, rfl⟩
  simp only [Bool.false_eq_true, if_false]
  split <;> simp

theorem switchIn (h : v.Living) (fresh : Option TaskSchedMetrics) (topology : Bpf.Array CpuTopologyInfo 1024)
    (cpu : UInt32) (hclean : v.account.exiting = true → seen = false) : (v.switchIn seen fresh topology cpu).Living := by
  intro m' hm'
  have hnot := h.not_exiting hclean hm'
  simp [View.switchIn, Account.enter, hnot]

theorem wakeup (h : v.Living) : v.wakeup.Living := by
  intro m hm
  have hnot := (h m hm).2
  simp [View.wakeup, Account.enter, hnot]

end View.Living

section Steps

variable {g : Globals} {s s' : State} {pid : UInt32}

theorem living_step {e} (hpid : pid ≠ 0) (h : (s.view pid).Living) (hclean : ExitsClean g s e)
    (hstep : (monitor g).step s e = some s') : (s'.view pid).Living := by
  have hmoves := step_moves hstep hpid
  generalize s'.view pid = v' at hmoves ⊢
  cases hmoves with
  | passes => exact h
  | @switchOut w hp _ _ _ hexit =>
    subst hp
    exact View.Living.switchOut (v := (s.view w.prev.pid).tick w.now) h _ _ hclean.1 hexit
  | @switchIn w hp =>
    subst hp
    exact View.Living.switchIn (v := (s.view w.next.pid).tick w.now) h _ _ _ hclean.2
  | exit hp =>
    subst hp
    intro m hm
    obtain ⟨hunseen, hm⟩ := View.entry_of_exit hm
    obtain hseen | hnone := hclean
    · cases hseen.symm.trans hunseen
    · cases hnone.symm.trans hm
  | wakeup => exact View.Living.wakeup (v := (s.view pid).tick _) h

/-- After a switch-out there is no entry exactly if there was none and none
could be made. -/
theorem entry_after_switchOut {w} (hpid : w.prev.pid ≠ 0) (hstep : (monitor g).step s (.schedSwitch w) = some s') :
    s'.entry w.prev.pid = none ↔
      s.entry w.prev.pid = none ∧ (shouldMonitor g s.maps w.prev = true → 65536 ≤ s.maps.taskMetrics.size) := by
  obtain ⟨_, hticked, hrest⟩ := Option.bind_eq_some_iff.mp hstep
  obtain ⟨_, hout, hin⟩ := Option.bind_eq_some_iff.mp hrest
  obtain ⟨-, hmaps, hview⟩ := tick_view hticked
  have hfresh : s.maps.fresh w.prev = none ↔ 65536 ≤ s.maps.taskMetrics.size := by
    unfold Maps.fresh
    split <;> simp <;> omega
  obtain ⟨hne, -⟩ | ⟨-, -, -, ho⟩ := switchOut_view hout hpid
  · exact absurd rfl hne
  · obtain ⟨-, hi⟩ | ⟨-, -, hne, -⟩ := switchIn_view hin hpid
    · rw [hview, hmaps] at ho
      have hentry : s'.entry w.prev.pid =
          ((s.view w.prev.pid).tick w.now).recorded (shouldMonitor g s.maps w.prev) (s.maps.fresh w.prev)
            (recordSwitchOut w.now w.prevState) :=
        (congrArg View.entry hi).trans (congrArg View.entry ho)
      rw [hentry, ← hfresh]
      cases shouldMonitor g s.maps w.prev with
      | false => simp [View.recorded, View.tick, State.view]
      | true => simp [View.recorded, View.tick, State.view]
    · exact absurd rfl hne

end Steps

section Runs

variable {g : Globals} {s₀ s : State} {es : List Event}

/-- **Entries of live tasks only**, in every run in which tasks exit clean:
no task that is gone has an entry, one that gets its PID starts from zero, and
there are no more entries than live tasks. In any run, a switch-out leaves no
entry exactly if there was none and the task does not pass the filter (or the
map is full). -/
theorem entries_of_live_tasks (hnew : s₀.Empty) (h : (monitor g).exec s₀ es = some s) :
    ((monitor g).Guarded (ExitsClean g) s₀ es →
      (∀ task : Task, task.pid ∉ s.live →
        s.entry task.pid = none ∧ ∀ m, s.maps.entryFor task = some m → m = { pid := task.pid, tgid := task.tgid }) ∧
      s.maps.taskMetrics.size ≤ s.live.ncard) ∧
    ∀ w s', w.prev.pid ≠ 0 → (monitor g).step s (.schedSwitch w) = some s' →
      (s'.entry w.prev.pid = none ↔
        s.entry w.prev.pid = none ∧ (shouldMonitor g s.maps w.prev = true → 65536 ≤ s.maps.taskMetrics.size)) := by
  refine ⟨fun hclean => ?_, fun w s' hpid hstep => entry_after_switchOut hpid hstep⟩
  have hlive : ∀ pid m, s.entry pid = some m → pid ∈ s.live := by
    intro pid m hm
    have hpid := entry_ne_zero hnew h hm
    have hstart : (s₀.view pid).Living := fun m hm => by cases (hnew pid).symm.trans hm
    have hend := Machine.invariantWhere (I := fun s => (s.view pid).Living)
      (fun hi hc hs => living_step hpid hi hc hs) h hclean hstart
    exact (hend m hm).1
  refine ⟨fun task hgone => ?_, ?_⟩
  · have hnone : s.entry task.pid = none := by
      cases hm : s.entry task.pid with
      | none => rfl
      | some m => exact absurd (hlive task.pid m hm) hgone
    refine ⟨hnone, fun m hm => ?_⟩
    rw [Maps.entryFor, show s.maps.taskMetrics.lookup task.pid = none from hnone] at hm
    exact Maps.fresh_fresh s.maps task m hm
  · refine s.maps.taskMetrics.size_le_ncard (Set.toFinite _) fun pid hsome => ?_
    obtain ⟨m, hm⟩ := Option.isSome_iff_exists.mp hsome
    exact hlive pid m hm

end Runs

/-! ## Two tasks that exit -/

section Exits

instance (g : Globals) (s : State) : ∀ e : Event, Decidable (ExitsClean g s e)
  | .schedProcessExit _ _ task _ =>
    inferInstanceAs (Decidable (shouldMonitor g s.maps task = true ∨ s.entry task.pid = none))
  | .schedSwitch w =>
    inferInstanceAs (Decidable
      (((s.kernel.tasks w.prev.pid).exiting = true → shouldMonitor g s.maps w.prev = false) ∧
        ((s.kernel.tasks w.next.pid).exiting = true → shouldMonitor g s.maps w.next = false)))
  | .wakeup .. | .write _ => .isTrue trivial

/-- A task exits and is switched out for good, under the filter all along. -/
def exitUnderFilter : List Event :=
  [.write (.addPid 7), .schedSwitch ⟨10, 0, .idle, ⟨7, 7⟩, 0, false, (true, true)⟩,
    .schedProcessExit 15 0 ⟨7, 7⟩ true, .schedSwitch ⟨20, 0, ⟨7, 7⟩, .idle, 128, true, (true, true)⟩]

/-- The same, with the PID taken out of the filter between the two. -/
def exitThenUnfiltered : List Event :=
  [.write (.addPid 7), .schedSwitch ⟨10, 0, .idle, ⟨7, 7⟩, 0, false, (true, true)⟩,
    .schedProcessExit 15 0 ⟨7, 7⟩ true, .write (.removePid 7),
    .schedSwitch ⟨20, 0, ⟨7, 7⟩, .idle, 128, true, (true, true)⟩]

theorem entry_outlives_task :
    ∃ s, (monitor {}).exec .loaded exitUnderFilter = some s ∧
      (s.kernel.tasks 7).phase = .absent ∧
      s.entry 7 = some { pid := 7, tgid := 7, voluntaryCtxSwitches := 1, lastEnqueueTs := 20 } ∧
      s.maps.entryFor ⟨7, 7⟩ = some { pid := 7, tgid := 7, voluntaryCtxSwitches := 1, lastEnqueueTs := 20 } :=
  Machine.exists_exec (by decide +kernel)

theorem entries_of_live_tasks_unfiltered :
    ∃ s, (monitor {}).exec .loaded exitThenUnfiltered = some s ∧ 7 ∉ s.live ∧ s.entry 7 = none ∧
      s.maps.taskMetrics.size ≤ s.live.ncard := by
  refine Machine.exists_exec_of (fun s => (s.kernel.tasks 7).phase = .absent) (by decide +kernel) fun s h hgone => ?_
  have hdead : 7 ∉ s.live := fun hlive => hlive hgone
  obtain ⟨hentries, hsize⟩ := (entries_of_live_tasks loaded_empty h).1 (by decide +kernel)
  exact ⟨hdead, (hentries ⟨7, 7⟩ hdead).1, hsize⟩

end Exits

end Gthulhu.Monitor
