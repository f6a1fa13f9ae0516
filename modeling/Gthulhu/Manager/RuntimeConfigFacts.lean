/-
What is in effect at a daemon once the manager reports a runtime
configuration as applied.

Two encodings lose a flag that is off. The request to the daemon leaves it
out, and the daemon keeps what the file has (`toRequest`); and the file cannot
say that the watchdog is off (`Daemon.decode_encode`). **`appliedConfig_inEffect_iff`**:
the status endpoint shows the configuration asked for exactly when no flag
that is to be off is on in the file, the watchdog is not to be turned off by
a write, and the status is not answered from a cache entry that has the
file's new modification time.
-/
import Gthulhu.Manager.RuntimeCalls

namespace Gthulhu.Manager

open Lib Prog Daemon

/-! ## Normalised configurations -/

namespace RuntimeSchedulerConfig

theorem transported_eq (c : RuntimeSchedulerConfig) : c.transported = c := by
  simp [transported]

/-- What normalising and checking make sure of. -/
structure Normalized (c : RuntimeSchedulerConfig) : Prop where
  mode : c.mode ≠ ""
  enabled : c.schedulerEnabled = decide (c.mode ≠ "none")
  scx : c.mode = "scx" → c.schedulerName ≠ ""
  name : c.mode ≠ "scx" → c.schedulerName = ""

theorem normalMode_trimmed (c : RuntimeSchedulerConfig) : trimSpace c.normalMode = c.normalMode ∧ c.normalMode ≠ "" := by
  unfold normalMode
  split
  · split
    · exact ⟨by decide +kernel, by decide⟩
    · exact ⟨by decide +kernel, by decide⟩
  · rename_i hmode
    exact ⟨trimSpace_idem _, hmode⟩

/-- Normalising, by the mode it gives. -/
theorem normalize_cases (c : RuntimeSchedulerConfig) :
    (c.normalMode = "none" ∧ c.normalize = { c with mode := "none", schedulerName := "", schedulerEnabled := false }) ∨
    ((c.normalMode = "gthulhu" ∨ c.normalMode = "simple") ∧
      c.normalize = { c with mode := c.normalMode, schedulerName := "", schedulerEnabled := true }) ∨
    (c.normalMode = "scx" ∧
      c.normalize =
        { c with mode := "scx", schedulerName := trimSpace c.schedulerName, schedulerEnabled := true }) ∨
    ((c.normalMode ≠ "none" ∧ c.normalMode ≠ "gthulhu" ∧ c.normalMode ≠ "simple" ∧ c.normalMode ≠ "scx") ∧
      c.normalize = { c with mode := c.normalMode, schedulerName := trimSpace c.schedulerName }) := by
  unfold normalize
  by_cases hnone : c.normalMode = "none"
  · exact .inl ⟨hnone, by rw [if_pos hnone, hnone]⟩
  by_cases hown : c.normalMode = "gthulhu" ∨ c.normalMode = "simple"
  · exact .inr (.inl ⟨hown, by rw [if_neg hnone, if_pos hown]⟩)
  have hown' := not_or.mp hown
  by_cases hscx : c.normalMode = "scx"
  · exact .inr (.inr (.inl ⟨hscx, by rw [if_neg hnone, if_neg hown, if_pos hscx, hscx]⟩))
  · exact .inr (.inr (.inr ⟨⟨hnone, hown'.1, hown'.2, hscx⟩, by rw [if_neg hnone, if_neg hown, if_neg hscx]⟩))

theorem normalMode_of_mode {c : RuntimeSchedulerConfig} {mode} (hmode : c.mode = mode) (htrim : trimSpace mode = mode)
    (hne : mode ≠ "") : c.normalMode = mode := by
  rw [normalMode, hmode, htrim, if_neg hne]

theorem normalize_idem (c : RuntimeSchedulerConfig) : c.normalize.normalize = c.normalize := by
  obtain ⟨htrim, hne⟩ := c.normalMode_trimmed
  have hmode : c.normalize.normalMode = c.normalMode := by
    refine normalMode_of_mode ?_ htrim hne
    rcases c.normalize_cases with ⟨hmode, he⟩ | ⟨_, he⟩ | ⟨hmode, he⟩ | ⟨_, he⟩ <;> rw [he]
    · exact hmode.symm
    · exact hmode.symm
  rcases c.normalize_cases with ⟨hm, he⟩ | ⟨hm, he⟩ | ⟨hm, he⟩ | ⟨hm, he⟩
  · rw [normalize, hmode, if_pos hm, he, hm]
  · have hnone : c.normalMode ≠ "none" := by rcases hm with hm | hm <;> rw [hm] <;> decide
    rw [normalize, hmode, if_neg hnone, if_pos hm, he]
  · have hown : ¬(c.normalMode = "gthulhu" ∨ c.normalMode = "simple") := by rw [hm]; decide
    have hnone : c.normalMode ≠ "none" := by rw [hm]; decide
    rw [normalize, hmode, if_neg hnone, if_neg hown, if_pos hm, he, hm]
    simp
  · rw [normalize, hmode, if_neg hm.1, if_neg (not_or.mpr ⟨hm.2.1, hm.2.2.1⟩), if_neg hm.2.2.2, he]
    simp

theorem normalized {c : RuntimeSchedulerConfig} (h : c.normalize.validate = .ok ()) : c.normalize.Normalized := by
  have hne := c.normalMode_trimmed.2
  have hcases := c.normalize_cases
  -- Which mode it is does not matter from here on.
  generalize c.normalMode = mode at hne hcases
  rcases hcases with ⟨rfl, he⟩ | ⟨hm, he⟩ | ⟨rfl, he⟩ | ⟨hm, he⟩ <;> rw [he] at h ⊢
  · exact ⟨hne, rfl, fun hscx => absurd hscx (by simp), fun _ => rfl⟩
  · rcases hm with rfl | rfl <;> exact ⟨hne, rfl, fun hscx => absurd hscx (by simp), fun _ => rfl⟩
  · refine ⟨hne, rfl, fun _ hname => ?_, fun hscx => absurd rfl hscx⟩
    simp only at hname
    simp [validate, hname] at h
  · simp [validate, hm] at h

end RuntimeSchedulerConfig

/-! ## One request at the daemon -/

section

variable {host : Host} {req : RuntimeConfigRequest} {d d' : Shared}

/-- Only the last error may differ. -/
structure Untouched (d d' : Shared) : Prop where
  disk : d'.disk = d.disk
  version : d'.state.configVersion = d.state.configVersion
  applied : d'.state.applied = d.state.applied
  cached : d'.state.cached = d.state.cached

/-- The request has been applied once. -/
structure Applied (host : Host) (req : RuntimeConfigRequest) (d d' : Shared) : Prop where
  version : d'.state.configVersion = req.configVersion
  applied : d'.state.applied = true
  cached : d'.state.cached = d.state.cached
  disk : ∃ c, loadConfig host.runtimeConfigPath d.disk.file = .ok c ∧
    ((req.InEffect c.settings ∧ d'.disk = d.disk) ∨
      (¬req.InEffect c.settings ∧ host.runtimeConfigPath ≠ "" ∧
        d'.disk.file = .doc (c.withSettings (req.over c.settings)).encode ∧ d'.disk.mtime = d.disk.clock))

theorem Untouched.refl (d : Shared) : Untouched d d := ⟨rfl, rfl, rfl, rfl⟩

/-- The first request either fails and leaves all but the error, or is applied. -/
theorem handle_first (host : Host) (choice : Daemon.Choice) (hreq : req.configVersion ≠ "") (hu : Untouched d d')
    (hnew : d.state.configVersion ≠ req.configVersion) :
    ((handleRuntimeConfig host choice d' (.ok req)).1.isSuccess = false ∧
        Untouched d (handleRuntimeConfig host choice d' (.ok req)).2) ∨
      Applied host req d (handleRuntimeConfig host choice d' (.ok req)).2 := by
  have hsame : d'.state.sameVersion req = false := by simp [ControlState.sameVersion, hu.version, hnew]
  obtain ⟨⟨⟨changed, err⟩, disk'⟩, happ⟩ : ∃ r, applyRuntimeConfigToFile host choice req d'.disk = r := ⟨_, rfl⟩
  simp only [handleRuntimeConfig, hreq, hsame, happ, if_false, Bool.false_eq_true]
  cases err with
  | some err =>
    obtain ⟨hdisk, -⟩ := applyRuntimeConfigToFile_error happ
    exact .inl ⟨rfl, hdisk.trans hu.disk, hu.version, hu.applied, hu.cached⟩
  | none =>
    obtain ⟨c, hload, -, hdisk⟩ := applyRuntimeConfigToFile_ok happ
    rw [hu.disk] at hload
    refine .inr ⟨rfl, rfl, hu.cached, c, hload, ?_⟩
    rcases hdisk with ⟨heff, -, hdisk⟩ | ⟨heff, -, hp, hdisk⟩
    · exact .inl ⟨heff, hdisk.trans hu.disk⟩
    · refine .inr ⟨heff, hp, ?_, ?_⟩
      · rw [hdisk]
      · rw [hdisk, hu.disk]

/-- The same request again changes nothing. -/
theorem handle_again (hreq : req.configVersion ≠ "") (ha : Applied host req d d') (choice : Daemon.Choice) :
    handleRuntimeConfig host choice d' (.ok req) = (.success true, d') := by
  have hsame : d'.state.sameVersion req = true := by simp [ControlState.sameVersion, ha.version, ha.applied]
  simp [handleRuntimeConfig, hreq, hsame]

/-- A request to a daemon that has had no other since `d`. -/
theorem handle_progress (hreq : req.configVersion ≠ "") (hnew : d.state.configVersion ≠ req.configVersion)
    (h : Untouched d d' ∨ Applied host req d d') (choice : Daemon.Choice) :
    (Untouched d (handleRuntimeConfig host choice d' (.ok req)).2 ∨
        Applied host req d (handleRuntimeConfig host choice d' (.ok req)).2) ∧
      ((handleRuntimeConfig host choice d' (.ok req)).1.isSuccess = true →
        Applied host req d (handleRuntimeConfig host choice d' (.ok req)).2) := by
  rcases h with hu | ha
  · rcases handle_first host choice hreq hu hnew with ⟨hfail, hu'⟩ | ha
    · exact ⟨.inl hu', fun hok => by rw [hfail] at hok; cases hok⟩
    · exact ⟨.inr ha, fun _ => ha⟩
  · rw [handle_again hreq ha choice]
    exact ⟨.inr ha, fun _ => ha⟩

end

/-! ## What the status endpoint shows -/

/-- The configuration shown is the one asked for, where it is asked for. -/
structure RuntimeSchedulerConfig.InEffect (n : RuntimeSchedulerConfig) (c : CurrentConfig) : Prop where
  mode : c.mode = n.mode
  kernelMode : c.kernelMode = n.kernelMode
  maxTimeWatchdog : c.maxTimeWatchdog = n.maxTimeWatchdog
  earlyProcessing : c.earlyProcessing = n.earlyProcessing
  builtinIdle : c.builtinIdle = n.builtinIdle
  schedulerEnabled : c.schedulerEnabled = n.schedulerEnabled
  monitoringEnabled : c.monitoringEnabled = n.monitoringEnabled
  schedulerName : n.mode = "scx" → c.schedulerName = n.schedulerName
  sliceNsDefault : n.sliceNsDefault ≠ 0 → c.sliceNsDefault = n.sliceNsDefault
  sliceNsMin : n.sliceNsMin ≠ 0 → c.sliceNsMin = n.sliceNsMin

/-- No flag that is to be off is kept on, and the watchdog is not to be turned
off by a write. -/
structure RuntimeSchedulerConfig.Kept (n : RuntimeSchedulerConfig) (c : Config) : Prop where
  kernelMode : n.kernelMode = false → c.scheduler.kernelMode = false
  earlyProcessing : n.earlyProcessing = false → c.earlyProcessing = false
  builtinIdle : n.builtinIdle = false → c.builtinIdle = false
  maxTimeWatchdog : n.maxTimeWatchdog = false →
    c.scheduler.maxTimeWatchdog = false ∧ n.toRequest.InEffect c.settings

theorem flag_kept_iff (flag current : Bool) :
    (encodeField true false flag).getD current = flag ↔ (flag = false → current = false) := by
  cases flag <;> cases current <;> decide

section

variable {n : RuntimeSchedulerConfig}

theorem over_toRequest_mode (hn : n.Normalized) (s : Settings) : (n.toRequest.over s).mode = n.mode := by
  have hmode : n.toRequest.mode = n.mode := decodeField_empty _ _
  simp only [RuntimeConfigRequest.over, RuntimeConfigRequest.modeOver, hmode, hn.mode, ne_eq, not_false_eq_true, if_true,
    if_false]
  cases n.toRequest.schedulerEnabled <;> rfl

/-- Merged settings, whatever the watchdog has come to be. -/
theorem inEffect_current_iff (hn : n.Normalized) {s watchdog} {c : Config}
    (hc : c.settings = { n.toRequest.over s with maxTimeWatchdog := watchdog }) :
    n.InEffect c.current ↔ (n.kernelMode = false → s.kernelMode = false) ∧
      (n.earlyProcessing = false → s.earlyProcessing = false) ∧ (n.builtinIdle = false → s.builtinIdle = false) ∧
      watchdog = n.maxTimeWatchdog := by
  have hset : c.current.toSettings = { n.toRequest.over s with maxTimeWatchdog := watchdog } := hc
  have hmode : c.current.mode = n.mode :=
    (congrArg Settings.mode hset).trans (over_toRequest_mode hn s)
  constructor
  · intro h
    refine ⟨(flag_kept_iff _ _).mp ?_, (flag_kept_iff _ _).mp ?_, (flag_kept_iff _ _).mp ?_, ?_⟩
    · exact (congrArg Settings.kernelMode hset).symm.trans h.kernelMode
    · exact (congrArg Settings.earlyProcessing hset).symm.trans h.earlyProcessing
    · exact (congrArg Settings.builtinIdle hset).symm.trans h.builtinIdle
    · exact (congrArg Settings.maxTimeWatchdog hset).symm.trans h.maxTimeWatchdog
  · rintro ⟨hkernel, hearly, hidle, hwatchdog⟩
    refine ⟨hmode, ?_, ?_, ?_, ?_, ?_, ?_, fun hscx => ?_, fun hslice => ?_, fun hmin => ?_⟩
    · exact (congrArg Settings.kernelMode hset).trans ((flag_kept_iff _ _).mpr hkernel)
    · exact (congrArg Settings.maxTimeWatchdog hset).trans hwatchdog
    · exact (congrArg Settings.earlyProcessing hset).trans ((flag_kept_iff _ _).mpr hearly)
    · exact (congrArg Settings.builtinIdle hset).trans ((flag_kept_iff _ _).mpr hidle)
    · have henabled : c.current.schedulerEnabled = (decide (c.current.mode ≠ "") && decide (c.current.mode ≠ "none")) := rfl
      rw [henabled, hmode, hn.enabled, decide_eq_true hn.mode, Bool.true_and]
    · rw [congrArg Settings.monitoringEnabled hset]
      simp [RuntimeConfigRequest.over, RuntimeSchedulerConfig.toRequest, encodeField]
    · rw [congrArg Settings.schedulerName hset]
      simp [RuntimeConfigRequest.over, RuntimeSchedulerConfig.toRequest, hn.scx hscx]
    · rw [congrArg Settings.sliceNsDefault hset]
      simp [RuntimeConfigRequest.over, RuntimeSchedulerConfig.toRequest, hslice]
    · rw [congrArg Settings.sliceNsMin hset]
      simp [RuntimeConfigRequest.over, RuntimeSchedulerConfig.toRequest, hmin]

/-- The cached configuration a status request is answered with while the file
has the modification time. -/
def cachedAt (d : Shared) (mtime : Int) : Option CurrentConfig :=
  (d.state.cached.filter fun entry => entry.2 = mtime).map Prod.fst

theorem handleStatus_config {host d c} (hp : host.runtimeConfigPath ≠ "") (hfile : d.disk.file ≠ .missing)
    (hload : loadConfig host.runtimeConfigPath d.disk.file = .ok c) :
    (d.handleStatus host).1.config = some ((cachedAt d d.disk.mtime).getD c.current) := by
  simp only [Shared.handleStatus, ControlState.readCurrentConfig, hp, hfile, or_self, if_false, cachedAt]
  cases d.state.cached.filter fun entry => entry.2 = d.disk.mtime with
  | none => simp [hload]
  | some entry => simp

/-- After the request the status shows the configuration: by the cache, if it
has an entry for the modification time the file then has, and else by the
file. -/
def RuntimeSchedulerConfig.Shown (n : RuntimeSchedulerConfig) (host : Host) (d : Shared) : Prop :=
  ∀ c, loadConfig host.runtimeConfigPath d.disk.file = .ok c →
    ∀ mtime, (n.toRequest.InEffect c.settings → mtime = d.disk.mtime) →
      (¬n.toRequest.InEffect c.settings → mtime = d.disk.clock) →
      (∀ answer ∈ cachedAt d mtime, n.InEffect answer) ∧ (cachedAt d mtime = none → n.Kept c)

theorem shown_iff_of_load {host d c mtime} (hload : loadConfig host.runtimeConfigPath d.disk.file = .ok c)
    (hkeep : n.toRequest.InEffect c.settings → mtime = d.disk.mtime)
    (hwrite : ¬n.toRequest.InEffect c.settings → mtime = d.disk.clock) :
    n.Shown host d ↔ (∀ answer ∈ cachedAt d mtime, n.InEffect answer) ∧ (cachedAt d mtime = none → n.Kept c) := by
  constructor
  · intro h
    exact h c hload mtime hkeep hwrite
  · intro h c' hload' mtime' hkeep' hwrite'
    cases hload.symm.trans hload'
    have : mtime' = mtime := by
      by_cases heff : n.toRequest.InEffect c.settings
      · rw [hkeep heff, hkeep' heff]
      · rw [hwrite heff, hwrite' heff]
    rw [this]
    exact h

theorem exists_getD_iff {α : Type} {P : α → Prop} (o : Option α) (a : α) :
    (∃ x, some (o.getD a) = some x ∧ P x) ↔ (∀ x ∈ o, P x) ∧ (o = none → P a) := by
  cases o <;> simp

/-- A file that is not written is there, and shows the configuration when the
flags do. -/
theorem kept_iff_of_inEffect (hn : n.Normalized) {c : Config} (heff : n.toRequest.InEffect c.settings) :
    n.InEffect c.current ↔ n.Kept c := by
  have hsettings : c.settings = { n.toRequest.over c.settings with maxTimeWatchdog := c.scheduler.maxTimeWatchdog } := by
    rw [(n.toRequest.over_eq_iff _).mpr heff]
    rfl
  rw [inEffect_current_iff hn hsettings]
  have hon : n.maxTimeWatchdog = true → c.scheduler.maxTimeWatchdog = true := fun hon =>
    heff.maxTimeWatchdog true (by simp [RuntimeSchedulerConfig.toRequest, encodeField, hon])
  constructor
  · rintro ⟨hkernel, hearly, hidle, hwatchdog⟩
    exact ⟨hkernel, hearly, hidle, fun hoff => ⟨hwatchdog.trans hoff, heff⟩⟩
  · intro h
    refine ⟨h.kernelMode, h.earlyProcessing, h.builtinIdle, ?_⟩
    cases hw : n.maxTimeWatchdog with
    | true => exact hon hw
    | false => exact (h.maxTimeWatchdog hw).1

/-- A file that is written shows the watchdog on. -/
theorem kept_iff_of_written (hn : n.Normalized) {c : Config} (heff : ¬n.toRequest.InEffect c.settings) :
    n.InEffect (c.withSettings (n.toRequest.over c.settings)).reloaded.current ↔ n.Kept c := by
  rw [inEffect_current_iff hn (settings_reloaded _)]
  constructor
  · rintro ⟨hkernel, hearly, hidle, hwatchdog⟩
    exact ⟨hkernel, hearly, hidle, fun hoff => by rw [hoff] at hwatchdog; cases hwatchdog⟩
  · intro h
    refine ⟨h.kernelMode, h.earlyProcessing, h.builtinIdle, ?_⟩
    cases hw : n.maxTimeWatchdog with
    | true => rfl
    | false => exact absurd (h.maxTimeWatchdog hw).2 heff

theorem file_of_inEffect (hn : n.Normalized) {path file c} (hload : loadConfig path file = .ok c)
    (heff : n.toRequest.InEffect c.settings) : path ≠ "" ∧ file ≠ .missing := by
  have hmode : n.toRequest.mode = n.mode := decodeField_empty _ _
  have hne : c ≠ defaultConfig := by
    rintro rfl
    have hdefault : defaultConfig.settings.mode = n.toRequest.mode := heff.mode (hmode ▸ hn.mode)
    exact hn.mode (hmode ▸ hdefault.symm)
  constructor
  · rintro rfl
    cases hload
    exact hne rfl
  · rintro rfl
    unfold loadConfig at hload
    split at hload <;> cases hload <;> exact hne rfl

/-- What is shown after the request was applied. -/
theorem status_applied_iff (hn : n.Normalized) {host d d'} (ha : Applied host n.toRequest d d') :
    (∃ c, (d'.handleStatus host).1.config = some c ∧ n.InEffect c) ↔ n.Shown host d := by
  obtain ⟨c, hload, hdisk⟩ := ha.disk
  have hcached : ∀ mtime, cachedAt d' mtime = cachedAt d mtime := fun mtime => by rw [cachedAt, ha.cached, cachedAt]
  rcases hdisk with ⟨heff, hdisk⟩ | ⟨heff, hp, hfile, hmtime⟩
  · obtain ⟨hp, hfile⟩ := file_of_inEffect hn hload heff
    rw [handleStatus_config hp (hdisk ▸ hfile) (hdisk ▸ hload), hcached, hdisk, exists_getD_iff,
      kept_iff_of_inEffect hn heff, shown_iff_of_load hload (fun _ => rfl) (absurd heff)]
  · have hmissing : d'.disk.file ≠ .missing := by
      rw [hfile]
      exact File.noConfusion
    rw [handleStatus_config hp hmissing (hfile ▸ loadConfig_encode hp _), hcached, hmtime, exists_getD_iff,
      kept_iff_of_written hn heff, shown_iff_of_load hload (fun h => absurd h heff) (fun _ => rfl)]

end

/-! ## Runs of the service -/

section

variable {env : Nat → RuntimeChoice} {w w' : RuntimeWorld} {n : RuntimeSchedulerConfig}

/-- What calls for one configuration can have done since `w`. -/
structure Progress (n : RuntimeSchedulerConfig) (w w' : RuntimeWorld) : Prop where
  daemonOf : w'.daemonOf = w.daemonOf
  hosts : w'.hosts = w.hosts
  daemons : ∀ key, (w.daemons key).state.configVersion ≠ n.configVersion →
    Untouched (w.daemons key) (w'.daemons key) ∨
      Applied (w.hosts key) n.toRequest (w.daemons key) (w'.daemons key)

/-- The daemon behind the pod has applied the configuration. -/
def AppliedAt (n : RuntimeSchedulerConfig) (w w' : RuntimeWorld) (dm : DecisionMakerPod) : Prop :=
  (w.daemons (w.daemonKey dm)).state.configVersion ≠ n.configVersion →
    Applied (w.hosts (w.daemonKey dm)) n.toRequest (w.daemons (w.daemonKey dm)) (w'.daemons (w.daemonKey dm))

/-- The decision maker passes a configuration it is sent on to the daemon, or
nothing happens there. -/
theorem decisionMakerApply_daemon (host : Host) (hop : Outcome) (choice : Daemon.Choice)
    (remembered : Option RuntimeSchedulerConfig) (d : Shared) (hn : n.normalize = n) :
    ((decisionMakerApply host hop choice remembered d n).1 ≠ .ok () ∧
        (decisionMakerApply host hop choice remembered d n).2.2 = d) ∨
      (n.configVersion ≠ "" ∧
        (decisionMakerApply host hop choice remembered d n).2.2 =
          (handleRuntimeConfig host choice d (.ok n.toRequest)).2 ∧
        ((decisionMakerApply host hop choice remembered d n).1 = .ok () →
          (handleRuntimeConfig host choice d (.ok n.toRequest)).1.isSuccess = true)) := by
  by_cases hversion : n.configVersion = ""
  · exact .inl (by simp [decisionMakerApply, hversion])
  cases hv : n.validate with
  | error err => exact .inl (by simp [decisionMakerApply, hversion, hn, hv])
  | ok u =>
    cases hop with
    | refused => exact .inl (by simp [decisionMakerApply, hversion, hn, hv])
    | lost => exact .inr (by simp [decisionMakerApply, hversion, hn, hv])
    | ok =>
      refine .inr ⟨hversion, ?_⟩
      cases hr : (handleRuntimeConfig host choice d (.ok n.toRequest)).1 with
      | badRequest err | failed err => simp [decisionMakerApply, hversion, hn, hv, hr]
      | success noop =>
        simp only [decisionMakerApply, hversion, hn, hv, hr, if_false, Response.isSuccess, implies_true, and_true]
        split <;> rfl

theorem toRequest_version (n : RuntimeSchedulerConfig) : n.toRequest.configVersion = n.configVersion :=
  decodeField_empty _ _

theorem decisionMakerApply_progress {host d d'} (hn : n.normalize = n) (hnew : d.state.configVersion ≠ n.configVersion)
    (h : Untouched d d' ∨ Applied host n.toRequest d d') (hop : Outcome) (choice : Daemon.Choice)
    (remembered : Option RuntimeSchedulerConfig) :
    (Untouched d (decisionMakerApply host hop choice remembered d' n).2.2 ∨
        Applied host n.toRequest d (decisionMakerApply host hop choice remembered d' n).2.2) ∧
      ((decisionMakerApply host hop choice remembered d' n).1 = .ok () →
        Applied host n.toRequest d (decisionMakerApply host hop choice remembered d' n).2.2) := by
  rcases decisionMakerApply_daemon host hop choice remembered d' hn with ⟨hfail, hd⟩ | ⟨hversion, hd, hok⟩
  · rw [hd]
    exact ⟨h, fun h => absurd h hfail⟩
  · rw [← toRequest_version n] at hversion hnew
    obtain ⟨hprog, hdone⟩ := handle_progress hversion hnew h choice
    rw [hd]
    exact ⟨hprog, fun h => hdone (hok h)⟩

theorem Progress.refl (n : RuntimeSchedulerConfig) (w : RuntimeWorld) : Progress n w w :=
  ⟨rfl, rfl, fun _ _ => .inl (.refl _)⟩

/-- One daemon changed. -/
theorem Progress.update {w1} (hp : Progress n w w1) {key d}
    (hd : (w.daemons key).state.configVersion ≠ n.configVersion →
      Untouched (w.daemons key) d ∨ Applied (w.hosts key) n.toRequest (w.daemons key) d)
    (remembered : String × Nat → Option RuntimeSchedulerConfig) :
    Progress n w { w1 with remembered := remembered, daemons := Function.update w1.daemons key d } := by
  refine ⟨hp.daemonOf, hp.hosts, fun k hk => ?_⟩
  by_cases hkey : k = key
  · subst hkey
    simpa using hd hk
  · simpa [hkey] using hp.daemons k hk

/-- One configuration sent: the daemon makes progress, and a success means
that it has applied the configuration. -/
theorem send_progress {w1} (hn : n.normalize = n) (hp : Progress n w w1) (choice : RuntimeChoice)
    (dm : DecisionMakerPod) :
    Progress n w (w1.send choice dm n).2 ∧
      ((w1.send choice dm n).1 = .ok () → AppliedAt n w (w1.send choice dm n).2 dm) := by
  have hkey : w1.daemonKey dm = w.daemonKey dm := congrFun hp.daemonOf dm.endpoint
  have hhost : w1.hosts (w.daemonKey dm) = w.hosts (w.daemonKey dm) := by rw [hp.hosts]
  have hserved := fun hnew => decisionMakerApply_progress hn hnew (hp.daemons (w.daemonKey dm) hnew) choice.hop
    choice.daemon (w1.remembered dm.endpoint)
  have hafter := hp.update fun hnew => (hserved hnew).1
  unfold RuntimeWorld.send
  simp only [hkey, hhost, RuntimeSchedulerConfig.transported_eq]
  split
  · exact ⟨hp, nofun⟩
  · split
    · exact ⟨hp, nofun⟩
    · exact ⟨hafter _, nofun⟩
    · refine ⟨hafter _, fun hok hnew => ?_⟩
      have hdone := (hserved hnew).2
      simp only [Function.update_self]
      refine hdone ?_
      cases hr : (decisionMakerApply (w.hosts (w.daemonKey dm)) choice.hop choice.daemon (w1.remembered dm.endpoint)
          (w1.daemons (w.daemonKey dm)) n).1 with
      | error err =>
        rw [hr] at hok
        cases hok
      | ok u => rfl

/-- What has been applied stays applied. -/
theorem send_applied {w1} (hn : n.normalize = n) (hp : Progress n w w1) (choice : RuntimeChoice) (dm : DecisionMakerPod)
    {key} (ha : Applied (w.hosts key) n.toRequest (w.daemons key) (w1.daemons key)) :
    (w1.send choice dm n).2.daemons key = w1.daemons key := by
  have hserved : ∀ remembered, w1.daemonKey dm = key → (decisionMakerApply (w1.hosts (w1.daemonKey dm)) choice.hop
      choice.daemon remembered (w1.daemons (w1.daemonKey dm)) n).2.2 = w1.daemons key := by
    rintro remembered rfl
    rcases decisionMakerApply_daemon (w1.hosts (w1.daemonKey dm)) choice.hop choice.daemon remembered
      (w1.daemons (w1.daemonKey dm)) hn with ⟨-, hd⟩ | ⟨hversion, hd, -⟩
    · exact hd
    · rw [hd, hp.hosts, handle_again (toRequest_version n ▸ hversion) ha]
  have hupdate : Function.update w1.daemons (w1.daemonKey dm) (decisionMakerApply (w1.hosts (w1.daemonKey dm)) choice.hop
      choice.daemon (w1.remembered dm.endpoint) (w1.daemons (w1.daemonKey dm)) n).2.2 key = w1.daemons key := by
    by_cases hkey : key = w1.daemonKey dm
    · rw [hkey, Function.update_self, hserved _ hkey.symm, hkey]
    · rw [Function.update_of_ne hkey]
  unfold RuntimeWorld.send
  simp only [RuntimeSchedulerConfig.transported_eq]
  split
  · rfl
  · split
    · rfl
    · exact hupdate
    · exact hupdate

/-- One call: the progress made stays, what has been applied stays applied,
and a success is one more. -/
theorem serve_progress {w1} (hn : n.normalize = n) (hp : Progress n w w1) (call : RuntimeCall)
    (hcall : ∀ dm config, call = .applyRuntimeConfig dm config → config = n) :
    Progress n w (RuntimeWorld.serve env call w1).2 ∧
      (∀ dm, AppliedAt n w w1 dm → AppliedAt n w (RuntimeWorld.serve env call w1).2 dm) ∧
      ∀ dm, (⟨call, (RuntimeWorld.serve env call w1).1⟩ : Event RuntimeCall.Resp) = ⟨.applyRuntimeConfig dm n, .ok ()⟩ →
        AppliedAt n w (RuntimeWorld.serve env call w1).2 dm := by
  have hp' : Progress n w { w1 with tick := w1.tick + 1 } := ⟨hp.daemonOf, hp.hosts, hp.daemons⟩
  cases call with
  | upsertNodeRuntimeConfig cfg => exact ⟨⟨hp.daemonOf, hp.hosts, hp.daemons⟩, fun _ ha => ha, nofun⟩
  | queryDecisionMakerPods opt | queryNodeRuntimeConfigs nodeIDs | now => exact ⟨hp', fun _ ha => ha, nofun⟩
  | applyRuntimeConfig dm config =>
    rw [hcall dm config rfl]
    obtain ⟨hprog, hdone⟩ := send_progress hn hp' (env w1.tick) dm
    refine ⟨hprog, fun dm' ha hnew => ?_, fun dm' he => ?_⟩
    · have hstays := send_applied hn hp' (env w1.tick) dm (ha hnew)
      rw [show (RuntimeWorld.serve env (.applyRuntimeConfig dm n) w1).2.daemons (w.daemonKey dm') = _ from hstays]
      exact ha hnew
    · obtain ⟨hdm, hr⟩ := Sigma.mk.inj he
      cases hdm
      exact hdone (eq_of_heq hr)

/-- A whole run of calls for one configuration. -/
theorem run_progress {α : Type} {p : Prog RuntimeCall RuntimeCall.Resp α} {w1 w2 : RuntimeWorld}
    {calls : List (Event RuntimeCall.Resp)} {a : α} (hn : n.normalize = n)
    (hr : Run (RuntimeWorld.serve env) p w1 calls a w2) (hp : Progress n w w1)
    (hcalls : ∀ e ∈ calls, ∀ dm config, e.1 = .applyRuntimeConfig dm config → config = n) :
    Progress n w w2 ∧ (∀ dm, AppliedAt n w w1 dm → AppliedAt n w w2 dm) ∧
      ∀ dm, ⟨.applyRuntimeConfig dm n, .ok ()⟩ ∈ calls → AppliedAt n w w2 dm := by
  induction hr with
  | ret => exact ⟨hp, fun _ ha => ha, fun _ hdm => by cases hdm⟩
  | call hrest ih =>
    rename_i o k s s' es a
    obtain ⟨hp', hstays, hdone⟩ := serve_progress hn hp o (hcalls _ List.mem_cons_self)
    obtain ⟨hp'', hstays', hdone'⟩ := ih hp' fun e he => hcalls e (List.mem_cons_of_mem _ he)
    refine ⟨hp'', fun dm ha => hstays' dm (hstays dm ha), fun dm hdm => ?_⟩
    rcases List.mem_cons.mp hdm with he | hdm
    · exact hstays' dm (hdone dm he.symm)
    · exact hdone' dm hdm

variable {calls : List (Event RuntimeCall.Resp)} {repo : Bool}

theorem normalize_version (c : RuntimeSchedulerConfig) : c.normalize.configVersion = c.configVersion := by
  rcases c.normalize_cases with ⟨_, he⟩ | ⟨_, he⟩ | ⟨_, he⟩ | ⟨_, he⟩ <;> rw [he]

/-- What the status endpoint of the daemon behind a pod shows. -/
def RuntimeWorld.shown (w : RuntimeWorld) (dm : DecisionMakerPod) : Option CurrentConfig :=
  ((w.daemons (w.daemonKey dm)).handleStatus (w.hosts (w.daemonKey dm))).1.config

/-- **What is reported as applied.** A success that the service reports comes
from a decision maker that took the configuration; and the daemon behind it,
if it had another version before, then shows the configuration exactly when
`Shown` says so of the daemon's state before. -/
theorem appliedConfig_inEffect_iff {operator : Option Claims} {opt : RuntimeConfigApplyOptions}
    {results : List RuntimeConfigApplyResult}
    (h : RuntimeRuns env (applyRuntimeConfig repo operator opt) w calls (.ok results) w') :
    Reported opt.config.normalize w.decisionMakers results calls ∧
      ∀ dm, ⟨.applyRuntimeConfig dm opt.config.normalize, .ok ()⟩ ∈ calls →
        (w.daemons (w.daemonKey dm)).state.configVersion ≠ opt.config.configVersion →
        ((∃ c, w'.shown dm = some c ∧ opt.config.normalize.InEffect c) ↔
          opt.config.normalize.Shown (w.hosts (w.daemonKey dm)) (w.daemons (w.daemonKey dm))) := by
  obtain ⟨⟨⟨_, he⟩, -⟩ | ⟨hvalid, dms, hcalls⟩, hrequests⟩ := h.traced (applyRuntimeConfig_traced operator opt)
  · cases he
  have hn := RuntimeSchedulerConfig.normalized hvalid
  obtain ⟨hp, -, hdone⟩ := run_progress (RuntimeSchedulerConfig.normalize_idem _) h (.refl _ w) fun e he dm config hcall => by
    have hsent := hrequests e he
    rwa [hcall] at hsent
  refine ⟨fun result hmem hs => ?_, fun dm hdm hnew => ?_⟩
  · obtain ⟨dm, hdm, hreported⟩ := hcalls.reported results rfl result hmem hs
    exact ⟨dm, List.mem_of_mem_filter ((run_found h hcalls.found).mem_iff.mp hdm), hreported⟩
  have happlied := hdone dm hdm (by rwa [normalize_version])
  rw [RuntimeWorld.shown, show w'.daemonKey dm = w.daemonKey dm from congrFun hp.daemonOf _, hp.hosts]
  exact status_applied_iff hn happlied

instance (n : RuntimeSchedulerConfig) (c : CurrentConfig) : Decidable (n.InEffect c) :=
  decidable_of_iff
    (c.mode = n.mode ∧ c.kernelMode = n.kernelMode ∧ c.maxTimeWatchdog = n.maxTimeWatchdog ∧
      c.earlyProcessing = n.earlyProcessing ∧ c.builtinIdle = n.builtinIdle ∧ c.schedulerEnabled = n.schedulerEnabled ∧
      c.monitoringEnabled = n.monitoringEnabled ∧ (n.mode = "scx" → c.schedulerName = n.schedulerName) ∧
      (n.sliceNsDefault ≠ 0 → c.sliceNsDefault = n.sliceNsDefault) ∧
      (n.sliceNsMin ≠ 0 → c.sliceNsMin = n.sliceNsMin))
    ⟨fun ⟨h₁, h₂, h₃, h₄, h₅, h₆, h₇, h₈, h₉, h₁₀⟩ => ⟨h₁, h₂, h₃, h₄, h₅, h₆, h₇, h₈, h₉, h₁₀⟩,
      fun ⟨h₁, h₂, h₃, h₄, h₅, h₆, h₇, h₈, h₉, h₁₀⟩ => ⟨h₁, h₂, h₃, h₄, h₅, h₆, h₇, h₈, h₉, h₁₀⟩⟩

namespace OneDaemon

def dm : DecisionMakerPod := { nodeID := "a", host := "10.0.0.1", port := 8080, state := .online }

/-- One decision maker, and behind it a daemon in kernel mode. -/
def world : RuntimeWorld where
  stored := .empty
  decisionMakers := [dm]
  remembered _ := none
  daemonOf _ := "a"
  hosts _ := Daemon.Sample.host
  daemons _ :=
    { disk := { file := .doc { scheduler := some { kernelMode := some true } }, mtime := 0, clock := 1 }
      state := .bootstrap }

def options (kernelMode : Bool) : RuntimeConfigApplyOptions where
  config :=
    { configVersion := "1", mode := "gthulhu", kernelMode := kernelMode, maxTimeWatchdog := true
      monitoringEnabled := true }

end OneDaemon

/-- Kernel mode is to be turned off, success is reported, and it is still on. -/
theorem appliedConfig_keepsKernelMode :
    ∃ calls results w', RuntimeRuns (fun _ => {}) (applyRuntimeConfig true none (OneDaemon.options false)) OneDaemon.world
        calls (.ok results) w' ∧
      results.map (fun r => (r.nodeID, r.success)) = [("a", true)] ∧
      ∀ c ∈ w'.shown OneDaemon.dm, ¬(OneDaemon.options false).config.normalize.InEffect c :=
  Run.exists_ok (by decide +kernel)

/-- Kernel mode is to stay on, and does. -/
theorem appliedConfig_inEffect_iff_kernelMode :
    ∃ calls results w', RuntimeRuns (fun _ => {}) (applyRuntimeConfig true none (OneDaemon.options true)) OneDaemon.world
        calls (.ok results) w' ∧
      ∃ c, w'.shown OneDaemon.dm = some c ∧ (OneDaemon.options true).config.normalize.InEffect c := by
  refine Run.exists_ok_of (fun calls _ _ => calls.any fun e =>
    e.1 = .applyRuntimeConfig OneDaemon.dm (OneDaemon.options true).config.normalize && e.2.isOk) (by decide +kernel) ?_
  intro calls results w' hrun hcall
  refine ((appliedConfig_inEffect_iff hrun).2 OneDaemon.dm ?_ ?_).mpr ?_
  · obtain ⟨⟨o, r⟩, hmem, he⟩ := List.any_eq_true.mp hcall
    obtain ⟨ho, hok⟩ := Bool.and_eq_true_iff.mp he
    obtain rfl := of_decide_eq_true ho
    cases r with
    | error err => cases hok
    | ok u => exact hmem
  · decide
  · intro c hload mtime _ _
    cases hload
    exact ⟨nofun, fun _ => ⟨nofun, fun _ => rfl, fun _ => rfl, nofun⟩⟩

end

end Gthulhu.Manager
