/-
What the control API accepts and what the supervisor can start.

Both check the merged settings, but not in the same way: the scheduler mode is
trimmed before it is compared wherever a command is resolved, and for the
validity of a request, but not where a request is held to the executables at
hand. So a mode that is `scx` only once it is trimmed is accepted without an
executable to start, and the supervisor, which finds none, returns. In every
other case what has been accepted can be started
(**`acceptedConfig_resolves_iff`**).
-/
import Gthulhu.Daemon.RuntimeConfigFacts
import Gthulhu.Daemon.Supervisor

namespace Gthulhu.Daemon

open Lib

/-- The executable of the settings' scheduler is there. -/
def Settings.Installed (host : Host) (s : Settings) : Prop :=
  (ensureExecutableInDir host (dir host.schedulerBinPath) s.schedulerName).isOk = true

/-- What the supervisor needs to find a command. -/
def Settings.Resolvable (host : Host) (s : Settings) : Prop :=
  validateScheduler s.mode s.schedulerName = .ok () ∧ (trimSpace s.mode = "scx" → s.Installed host)

section

variable {host : Host}

instance (s : Settings) : Decidable (s.Installed host) :=
  inferInstanceAs (Decidable (_ = true))

/-- The mode as the supervisor reads it. -/
def effectiveMode (mode : String) : String := if trimSpace mode = "" then "gthulhu" else trimSpace mode

theorem effectiveMode_def (mode : String) :
    (if trimSpace mode = "" then "gthulhu" else trimSpace mode) = effectiveMode mode := rfl

theorem trimSpace_effectiveMode (mode : String) : trimSpace (effectiveMode mode) = effectiveMode mode := by
  unfold effectiveMode
  split
  · decide
  · exact trimSpace_idem mode

theorem effectiveMode_idem (mode : String) : effectiveMode (effectiveMode mode) = effectiveMode mode := by
  have htrim := trimSpace_effectiveMode mode
  have hne : effectiveMode mode ≠ "" := by
    unfold effectiveMode
    split
    · decide
    · assumption
  rw [effectiveMode, htrim, if_neg hne]

/-- The checks on a mode that has been trimmed. -/
def checkMode (mode schedulerName : String) : Except Error Unit :=
  if mode = "none" ∨ mode = "gthulhu" ∨ mode = "simple" then .ok ()
  else if mode = "scx" then
    let name := trimSpace schedulerName
    if name = "" then .error .nameRequired
    else if base name ≠ name ∨ '/' ∈ name.toList then .error (.notBinaryName schedulerName)
    else if name ∉ allowedSCXSchedulers then .error (.notAllowed name)
    else .ok ()
  else .error (.unsupportedMode mode)

theorem validateScheduler_eq (mode name : String) :
    validateScheduler mode name = checkMode (effectiveMode mode) name := rfl

theorem validateScheduler_effectiveMode (mode name : String) :
    validateScheduler (effectiveMode mode) name = validateScheduler mode name := by
  rw [validateScheduler_eq, validateScheduler_eq, effectiveMode_idem]

theorem effectiveMode_eq_scx {mode} : effectiveMode mode = "scx" ↔ trimSpace mode = "scx" := by
  unfold effectiveMode
  split
  · rename_i h
    simp [h]
  · rfl

/-- The modes that pass. -/
theorem checkMode_cases {mode name} (h : checkMode mode name = .ok ()) :
    mode = "none" ∨ (mode = "gthulhu" ∨ mode = "simple") ∨ mode = "scx" := by
  unfold checkMode at h
  split at h
  · rename_i hplain
    exact hplain.elim .inl fun hrest => .inr (.inl hrest)
  · split at h
    · rename_i hscx
      exact .inr (.inr hscx)
    · cases h

/-- What `schedulerCommandFromConfig` returns for a configuration it has read. -/
def commandFor (host : Host) (c : Config) : Except ResolveError (Option (String × List String)) :=
  let self := some (host.schedulerBinPath, ["scheduler", "-config", host.runtimeConfigPath])
  if effectiveMode c.scheduler.mode = "none" then .ok (if c.isMonitorEnabled then self else none)
  else match validateScheduler (effectiveMode c.scheduler.mode) c.scheduler.schedulerName with
  | .error err => .error (.invalid err)
  | .ok () =>
    if effectiveMode c.scheduler.mode = "gthulhu" ∨ effectiveMode c.scheduler.mode = "simple" then .ok self
    else if effectiveMode c.scheduler.mode = "scx" then
      match ensureExecutableInDir host (dir host.schedulerBinPath) c.scheduler.schedulerName with
      | .error err => .error (.invalid err)
      | .ok path => .ok (some (path, []))
    else .error (.invalid (.unsupportedMode (effectiveMode c.scheduler.mode)))

theorem schedulerCommandFromConfig_eq {file} :
    schedulerCommandFromConfig host (.ok ()) file =
      match loadConfig host.runtimeConfigPath file with
      | .error err => .error (.load err)
      | .ok c => commandFor host c := by
  unfold schedulerCommandFromConfig commandFor
  cases loadConfig host.runtimeConfigPath file with
  | error err => rfl
  | ok c =>
    simp only [Except.mapError, bind, Except.bind, pure, Except.pure, effectiveMode_def]
    refine if_congr Iff.rfl rfl ?_
    cases validateScheduler (effectiveMode c.scheduler.mode) c.scheduler.schedulerName with
    | error err => rfl
    | ok u =>
      refine if_congr Iff.rfl rfl (if_congr Iff.rfl ?_ rfl)
      cases ensureExecutableInDir host (dir host.schedulerBinPath) c.scheduler.schedulerName <;> rfl

theorem commandFor_isOk_iff {c} : (commandFor host c).isOk = true ↔ c.settings.Resolvable host := by
  have hmode : effectiveMode c.scheduler.mode = "scx" ↔ _ := effectiveMode_eq_scx
  unfold commandFor Settings.Resolvable Settings.Installed
  rw [validateScheduler_effectiveMode]
  simp only [Config.settings, ← hmode]
  have hvalid := validateScheduler_eq c.scheduler.mode c.scheduler.schedulerName
  generalize effectiveMode c.scheduler.mode = mode at hvalid ⊢
  by_cases hnone : mode = "none"
  · subst hnone
    simp [hvalid, checkMode, Except.isOk, Except.toBool]
  · rw [if_neg hnone]
    cases hv : validateScheduler c.scheduler.mode c.scheduler.schedulerName with
    | error err => simp [Except.isOk, Except.toBool]
    | ok u =>
      rcases checkMode_cases (hvalid.symm.trans hv) with h | h | h
      · exact (hnone h).elim
      · rw [if_pos h]
        rcases h with rfl | rfl <;> simp [Except.isOk, Except.toBool]
      · subst h
        cases ensureExecutableInDir host (dir host.schedulerBinPath) c.scheduler.schedulerName <;>
          simp [Except.isOk, Except.toBool]

/-- **What the supervisor can start.** -/
theorem schedulerCommandFromConfig_isOk_iff {file} :
    (schedulerCommandFromConfig host (.ok ()) file).isOk = true ↔
      ∃ c, loadConfig host.runtimeConfigPath file = .ok c ∧ c.settings.Resolvable host := by
  rw [schedulerCommandFromConfig_eq]
  cases loadConfig host.runtimeConfigPath file with
  | error err => simp [Except.isOk, Except.toBool]
  | ok c => simp [commandFor_isOk_iff]

/-- An error is one that `Run` returns, as long as sched_ext is supported. -/
theorem afterResolve_ne_returned_iff {file} :
    Phase.afterResolve (schedulerCommandFromConfig host (.ok ()) file) ≠ .returned ↔
      (schedulerCommandFromConfig host (.ok ()) file).isOk = true := by
  have hsupported : ∀ err, schedulerCommandFromConfig host (.ok ()) file ≠ .error (.unsupported err) := by
    intro err h
    rw [schedulerCommandFromConfig_eq] at h
    split at h
    · cases h
    · unfold commandFor at h
      repeat' split at h
      all_goals cases h
  cases hr : schedulerCommandFromConfig host (.ok ()) file with
  | error e =>
    cases e with
    | load err | invalid err => simp [Phase.afterResolve, Except.isOk, Except.toBool]
    | unsupported err => exact (hsupported err hr).elim
  | ok command => cases command <;> simp [Phase.afterResolve, Except.isOk, Except.toBool]

variable {choice : Choice} {req : RuntimeConfigRequest} {disk disk' : Disk} {changed : Bool}

/-- The settings that an accepted request leads to, as they are read back. -/
theorem applyRuntimeConfigToFile_reads
    (h : applyRuntimeConfigToFile host choice req disk = ((changed, none), disk')) :
    ∃ c c', loadConfig host.runtimeConfigPath disk.file = .ok c ∧ loadConfig host.runtimeConfigPath disk'.file = .ok c' ∧
      (req.over c.settings).Accepted host ∧ c'.settings.mode = (req.over c.settings).mode ∧
      c'.settings.schedulerName = (req.over c.settings).schedulerName := by
  obtain ⟨c, hload, hacc, ⟨heff, -, rfl⟩ | ⟨-, -, hpath, rfl⟩⟩ := applyRuntimeConfigToFile_ok h
  · have hsame := (req.over_eq_iff _).mpr heff
    exact ⟨c, c, hload, hload, hacc, by rw [hsame], by rw [hsame]⟩
  · exact ⟨c, _, hload, loadConfig_encode hpath _, hacc, rfl, rfl⟩

/-- **An accepted request leaves a file that resolves**, and a supervisor that
does not return, just when the executable is there that a mode which has still
to be trimmed was not held to. -/
theorem acceptedConfig_resolves_iff (h : applyRuntimeConfigToFile host choice req disk = ((changed, none), disk')) :
    ((schedulerCommandFromConfig host (.ok ()) disk'.file).isOk = true ↔
      ∀ c, loadConfig host.runtimeConfigPath disk.file = .ok c →
        (req.over c.settings).mode ≠ "scx" → trimSpace (req.over c.settings).mode = "scx" →
          (req.over c.settings).Installed host) ∧
    (Phase.afterResolve (schedulerCommandFromConfig host (.ok ()) disk'.file) ≠ .returned ↔
      (schedulerCommandFromConfig host (.ok ()) disk'.file).isOk = true) := by
  refine ⟨?_, afterResolve_ne_returned_iff⟩
  obtain ⟨c, c', hload, hload', ⟨hvalid, hscx⟩, hmode, hname⟩ := applyRuntimeConfigToFile_reads h
  rw [schedulerCommandFromConfig_isOk_iff]
  simp only [hload, hload', Except.ok.injEq, exists_eq_left', forall_eq', Settings.Resolvable, Settings.Installed,
    hmode, hname]
  constructor
  · intro hresolves _ htrim
    exact hresolves.2 htrim
  · refine fun hinstalled => ⟨hvalid, fun htrim => ?_⟩
    by_cases hplain : (req.over c.settings).mode = "scx"
    · -- A mode that is `scx` as it stands has been held to the executable.
      obtain ⟨path, hpath⟩ := hscx hplain
      rw [hpath]
      rfl
    · exact hinstalled hplain htrim

end

namespace Sample

/-- A request for a scheduler of the list, in a mode with a blank after it. -/
def untrimmed : RuntimeConfigRequest := { configVersion := "1", mode := "scx ", schedulerName := "scx_rusty" }

/-- The same with `scx_rusty` installed. -/
def hostWithRusty : Host := { host with stat := fun path => if path = "/run/scx_rusty" then .file true else .notExist }

end Sample

/-- The mode `scx` with a blank after it is accepted where no scheduler of that
name is installed, and the supervisor, which could start one before, returns. -/
theorem acceptedConfig_untrimmedMode :
    (schedulerCommandFromConfig Sample.host (.ok ()) Sample.disk.file).isOk = true ∧
      (applyRuntimeConfigToFile Sample.host {} Sample.untrimmed Sample.disk).1 = (true, none) ∧
      (schedulerCommandFromConfig Sample.host (.ok ())
        (applyRuntimeConfigToFile Sample.host {} Sample.untrimmed Sample.disk).2.file).isOk = false ∧
      Phase.afterResolve (schedulerCommandFromConfig Sample.host (.ok ())
        (applyRuntimeConfigToFile Sample.host {} Sample.untrimmed Sample.disk).2.file) = .returned := by
  decide +kernel

/-- With the scheduler installed the same request does no harm. -/
theorem acceptedConfig_resolves_iff_installed :
    ∃ disk, applyRuntimeConfigToFile Sample.hostWithRusty {} Sample.untrimmed Sample.disk = ((true, none), disk) ∧
      (schedulerCommandFromConfig Sample.hostWithRusty (.ok ()) disk.file).isOk = true := by
  have happ : applyRuntimeConfigToFile Sample.hostWithRusty {} Sample.untrimmed Sample.disk =
      ((true, none), (applyRuntimeConfigToFile Sample.hostWithRusty {} Sample.untrimmed Sample.disk).2) :=
    Prod.ext (by decide +kernel) rfl
  refine ⟨_, happ, (acceptedConfig_resolves_iff happ).1.mpr fun c hload _ _ => ?_⟩
  cases hload
  decide +kernel

end Gthulhu.Daemon
