/-
What the daemon's configuration file keeps of what is written to it.

The encoder leaves out the fields tagged `omitempty` that are empty, and the
file is read over a default that is not empty everywhere: a watchdog turned
off, an empty object path, and an interval or port of zero come back as the
defaults (`decode_encode`). **`runtimeConfigFile_roundTrips_iff`** says that
nothing else is lost, and what follows for a request applied twice: it finds
something to change the second time exactly when it turns the watchdog off
and did not find the file as it wants it the first time.
-/
import Gthulhu.Daemon.RuntimeConfig

namespace Gthulhu.Daemon

open Lib

/-! ## The file written and read back -/

/-- What a configuration is read back as. -/
def Config.reloaded (c : Config) : Config :=
  { c with
    scheduler := { c.scheduler with maxTimeWatchdog := true }
    monitor :=
      { c.monitor with
        bpfObjectPath := if c.monitor.bpfObjectPath = "" then "sched_monitor.bpf.o" else c.monitor.bpfObjectPath
        collectionIntervalSec := if c.monitor.collectionIntervalSec = 0 then 10 else c.monitor.collectionIntervalSec
        prometheusPort := if c.monitor.prometheusPort = 0 then 9090 else c.monitor.prometheusPort } }

theorem SchedulerConfig.decode_encode (c : SchedulerConfig) :
    defaultConfig.scheduler.decode c.encode = { c with maxTimeWatchdog := true } := by
  simp only [SchedulerConfig.decode, SchedulerConfig.encode, defaultConfig, decodeField_plain, decodeField_empty,
    decodeField_encodeField]
  cases c.maxTimeWatchdog <;> rfl

theorem MonitorConfig.decode_encode (c : MonitorConfig) :
    defaultConfig.monitor.decode c.encode =
      { c with
        bpfObjectPath := if c.bpfObjectPath = "" then "sched_monitor.bpf.o" else c.bpfObjectPath
        collectionIntervalSec := if c.collectionIntervalSec = 0 then 10 else c.collectionIntervalSec
        prometheusPort := if c.prometheusPort = 0 then 9090 else c.prometheusPort } := by
  simp [MonitorConfig.decode, MonitorConfig.encode, defaultConfig]

/-- A part left out as a whole, because it is empty, is read back as empty. -/
theorem MTLSConfig.decode_encode (c : MTLSConfig) :
    MTLSConfig.decode {} (((encodeField true {} c).map MTLSConfig.encode).getD {}) = c := by
  unfold encodeField
  split
  · rename_i hc
    rw [hc.2]
    rfl
  · simp [MTLSConfig.decode, MTLSConfig.encode]

theorem SimpleSchedulerConfig.decode_encode (c : SimpleSchedulerConfig) :
    SimpleSchedulerConfig.decode {} (((encodeField true {} c).map SimpleSchedulerConfig.encode).getD {}) = c := by
  unfold encodeField
  split
  · rename_i hc
    rw [hc.2]
    rfl
  · simp [SimpleSchedulerConfig.decode, SimpleSchedulerConfig.encode]

theorem ApiConfig.decode_encode (c : ApiConfig) : ApiConfig.decode {} c.encode = c := by
  simp [ApiConfig.decode, ApiConfig.encode, MTLSConfig.decode_encode]

theorem decode_encode (c : Config) : defaultConfig.decode c.encode = c.reloaded := by
  have hsimple : defaultConfig.simpleScheduler = {} := rfl
  have hapi : defaultConfig.api = {} := rfl
  have hdebug : defaultConfig.debug = false := rfl
  have hearly : defaultConfig.earlyProcessing = false := rfl
  have hidle : defaultConfig.builtinIdle = false := rfl
  simp [Config.decode, Config.encode, Config.reloaded, SchedulerConfig.decode_encode, MonitorConfig.decode_encode, hsimple, SimpleSchedulerConfig.decode_encode, hapi, ApiConfig.decode_encode, hdebug, hearly, hidle]

/-- None of the fields whose default is not empty is empty. -/
structure Config.Representable (c : Config) : Prop where
  maxTimeWatchdog : c.scheduler.maxTimeWatchdog = true
  bpfObjectPath : c.monitor.bpfObjectPath ≠ ""
  collectionIntervalSec : c.monitor.collectionIntervalSec ≠ 0
  prometheusPort : c.monitor.prometheusPort ≠ 0

theorem reloaded_eq_iff (c : Config) : c.reloaded = c ↔ c.Representable := by
  constructor
  · intro h
    have hm := congrArg Config.monitor h
    refine ⟨(congrArg (fun c => c.scheduler.maxTimeWatchdog) h).symm, fun hp => ?_, fun hi => ?_, fun hp => ?_⟩
    · have := congrArg MonitorConfig.bpfObjectPath hm
      simp [Config.reloaded, hp] at this
    · have := congrArg MonitorConfig.collectionIntervalSec hm
      simp [Config.reloaded, hi] at this
    · have := congrArg MonitorConfig.prometheusPort hm
      simp [Config.reloaded, hp] at this
  · intro h
    simp only [Config.reloaded, h.bpfObjectPath, h.collectionIntervalSec, h.prometheusPort, if_false]
    rw [← h.maxTimeWatchdog]

/-! ## What a request finds to change -/

/-- The settings are as the request wants them. -/
structure RuntimeConfigRequest.InEffect (req : RuntimeConfigRequest) (s : Settings) : Prop where
  mode : req.mode ≠ "" → s.mode = req.mode
  modeSet : req.mode = "" → req.schedulerEnabled.isSome → s.mode ≠ ""
  schedulerName : req.schedulerName ≠ "" → s.schedulerName = req.schedulerName
  sliceNsDefault : req.sliceNsDefault ≠ 0 → s.sliceNsDefault = req.sliceNsDefault
  sliceNsMin : req.sliceNsMin ≠ 0 → s.sliceNsMin = req.sliceNsMin
  kernelMode : ∀ v ∈ req.kernelMode, s.kernelMode = v
  maxTimeWatchdog : ∀ v ∈ req.maxTimeWatchdog, s.maxTimeWatchdog = v
  earlyProcessing : ∀ v ∈ req.earlyProcessing, s.earlyProcessing = v
  builtinIdle : ∀ v ∈ req.builtinIdle, s.builtinIdle = v
  monitoringEnabled : ∀ v ∈ req.monitoringEnabled, s.monitoringEnabled = v

theorem getD_eq_self_iff {α : Type} (field : Option α) (value : α) :
    field.getD value = value ↔ ∀ v ∈ field, value = v := by
  cases field <;> simp [eq_comm]

theorem given_eq_self_iff {α : Type} [DecidableEq α] (field empty value : α) :
    (if field ≠ empty then field else value) = value ↔ (field ≠ empty → value = field) := by
  rw [ite_eq_right_iff]
  exact imp_congr_right fun _ => eq_comm

theorem RuntimeConfigRequest.modeOver_eq_iff (req : RuntimeConfigRequest) (mode : String) :
    req.modeOver mode = mode ↔
      (req.mode ≠ "" → mode = req.mode) ∧ (req.mode = "" → req.schedulerEnabled.isSome → mode ≠ "") := by
  unfold RuntimeConfigRequest.modeOver
  by_cases hm : req.mode = ""
  · cases req.schedulerEnabled with
    | none => simp [hm]
    | some enabled =>
      by_cases hmode : mode = ""
      · subst hmode
        cases enabled <;> simp [hm]
      · simp [hm, hmode]
  · cases req.schedulerEnabled <;> simp [hm, eq_comm]

theorem RuntimeConfigRequest.over_eq_iff (req : RuntimeConfigRequest) (s : Settings) :
    req.over s = s ↔ req.InEffect s := by
  obtain ⟨mode, name, slice, min, kernel, watchdog, early, idle, monitoring⟩ := s
  simp only [RuntimeConfigRequest.over, Settings.mk.injEq, req.modeOver_eq_iff, getD_eq_self_iff,
    given_eq_self_iff]
  constructor
  · rintro ⟨⟨h1, h2⟩, h3, h4, h5, h6, h7, h8, h9, h10⟩
    exact ⟨h1, h2, h3, h4, h5, h6, h7, h8, h9, h10⟩
  · rintro ⟨h1, h2, h3, h4, h5, h6, h7, h8, h9, h10⟩
    exact ⟨⟨h1, h2⟩, h3, h4, h5, h6, h7, h8, h9, h10⟩

theorem RuntimeConfigRequest.modeOver_idem (req : RuntimeConfigRequest) (mode : String) :
    req.modeOver (req.modeOver mode) = req.modeOver mode := by
  unfold RuntimeConfigRequest.modeOver
  by_cases hm : req.mode = ""
  · cases req.schedulerEnabled with
    | none => simp [hm]
    | some enabled => by_cases hmode : mode = "" <;> cases enabled <;> simp [hm, hmode]
  · cases req.schedulerEnabled <;> simp [hm]

theorem RuntimeConfigRequest.over_idem (req : RuntimeConfigRequest) (s : Settings) :
    req.over (req.over s) = req.over s := by
  simp only [RuntimeConfigRequest.over, req.modeOver_idem, Settings.mk.injEq]
  refine ⟨trivial, ?_, ?_, ?_, ?_, ?_, ?_, ?_, ?_⟩
  · split <;> rfl
  · split <;> rfl
  · split <;> rfl
  · cases req.kernelMode <;> rfl
  · cases req.maxTimeWatchdog <;> rfl
  · cases req.earlyProcessing <;> rfl
  · cases req.builtinIdle <;> rfl
  · cases req.monitoringEnabled <;> rfl

/-- The checks on the merged settings pass. -/
def Settings.Accepted (host : Host) (s : Settings) : Prop :=
  validateScheduler s.mode s.schedulerName = .ok () ∧
    (s.mode = "scx" → ∃ path, ensureExecutableInDir host (dir host.schedulerBinPath) s.schedulerName = .ok path)

@[simp] theorem settings_withSettings (c : Config) (s : Settings) : (c.withSettings s).settings = s := rfl

theorem settings_reloaded (c : Config) : c.reloaded.settings = { c.settings with maxTimeWatchdog := true } := rfl

section

variable {host : Host} {choice : Choice} {req : RuntimeConfigRequest} {file : File}

/-- All that can come of a load. -/
theorem planRuntimeConfig_eq_ok {plan} :
    planRuntimeConfig host req file = .ok plan ↔ ∃ c, loadConfig host.runtimeConfigPath file = .ok c ∧
      (req.over c.settings).Accepted host ∧ c.planFor (req.over c.settings) = plan := by
  unfold planRuntimeConfig Settings.Accepted
  cases hload : loadConfig host.runtimeConfigPath file with
  | error err => simp [Except.mapError, bind, Except.bind]
  | ok c =>
    simp only [Except.mapError, bind, Except.bind, Except.ok.injEq, exists_eq_left']
    cases hvalid : validateScheduler (req.over c.settings).mode (req.over c.settings).schedulerName with
    | error err => simp
    | ok u =>
      by_cases hscx : (req.over c.settings).mode = "scx"
      · simp only [hscx, if_true, true_and, forall_const]
        cases ensureExecutableInDir host (dir host.schedulerBinPath) (req.over c.settings).schedulerName with
        | error err => simp
        | ok path => simp [pure, Except.pure]
      · simp [hscx, pure, Except.pure]

theorem write_ok {disk disk' : Disk} {c} (h : disk.write host choice c = (.ok (), disk')) :
    host.runtimeConfigPath ≠ "" ∧ disk' = { file := .doc c.encode, mtime := disk.clock, clock := choice.clock } := by
  unfold Disk.write writeConfigFile at h
  split at h
  · rename_i file hw
    split at hw
    · cases hw
    · split at hw
      · cases hw
      · rename_i hp
        cases hw
        cases h
        exact ⟨hp, rfl⟩
  · cases h

theorem write_error {disk disk' : Disk} {c err}
    (h : disk.write host choice c = (.error err, disk')) : disk' = disk := by
  unfold Disk.write writeConfigFile at h
  split at h
  · cases h
  · rename_i err' file hw
    split at hw
    · cases hw
      cases h
      rfl
    · split at hw
      · cases hw
        cases h
        rfl
      · cases hw

/-- All that can come of a request that returns no error: nothing is to be
changed, or the file is written. -/
theorem applyRuntimeConfigToFile_ok {disk disk' changed}
    (h : applyRuntimeConfigToFile host choice req disk = ((changed, none), disk')) :
    ∃ c, loadConfig host.runtimeConfigPath disk.file = .ok c ∧ (req.over c.settings).Accepted host ∧
      ((req.InEffect c.settings ∧ changed = false ∧ disk' = disk) ∨
        (¬req.InEffect c.settings ∧ changed = true ∧ host.runtimeConfigPath ≠ "" ∧
          disk' = ⟨.doc (c.withSettings (req.over c.settings)).encode, disk.clock, choice.clock⟩)) := by
  unfold applyRuntimeConfigToFile at h
  cases hplan : planRuntimeConfig host req disk.file with
  | error err =>
    rw [hplan] at h
    cases h
  | ok plan =>
    obtain ⟨c, hload, hacc, rfl⟩ := planRuntimeConfig_eq_ok.mp hplan
    refine ⟨c, hload, hacc, ?_⟩
    rw [hplan, Config.planFor] at h
    by_cases heff : req.over c.settings = c.settings
    · simp only [heff, if_true] at h
      cases h
      exact .inl ⟨req.over_eq_iff _ |>.mp heff, rfl, rfl⟩
    · simp only [heff, if_false] at h
      obtain ⟨result, disk1, hw⟩ : ∃ result disk1,
          disk.write host choice (c.withSettings (req.over c.settings)) = (result, disk1) := ⟨_, _, rfl⟩
      rw [hw] at h
      cases result with
      | error err => cases h
      | ok u =>
        cases h
        obtain ⟨hp, hdisk⟩ := write_ok hw
        exact .inr ⟨fun h => heff (req.over_eq_iff _ |>.mpr h), rfl, hp, hdisk⟩

/-- Whether a request that is accepted reports a change. -/
theorem applyRuntimeConfigToFile_changed {disk c} (hload : loadConfig host.runtimeConfigPath disk.file = .ok c)
    (hacc : (req.over c.settings).Accepted host) :
    (applyRuntimeConfigToFile host choice req disk).1.1 = false ↔ req.InEffect c.settings := by
  have hplan := planRuntimeConfig_eq_ok.mpr ⟨c, hload, hacc, rfl⟩
  unfold applyRuntimeConfigToFile
  rw [hplan, Config.planFor, ← req.over_eq_iff]
  by_cases heff : req.over c.settings = c.settings
  · simp [heff]
  · simp only [heff, if_false]
    split <;> simp

/-- A request that returns an error leaves the file as it was. -/
theorem applyRuntimeConfigToFile_error {disk disk' changed err}
    (h : applyRuntimeConfigToFile host choice req disk = ((changed, some err), disk')) :
    disk' = disk ∧ (planRuntimeConfig host req disk.file = .error err ∧ changed = false ∨ ∃ e, err = .write e) := by
  unfold applyRuntimeConfigToFile at h
  cases hplan : planRuntimeConfig host req disk.file with
  | error err' =>
    rw [hplan] at h
    cases h
    exact ⟨rfl, .inl ⟨rfl, rfl⟩⟩
  | ok plan =>
    rw [hplan] at h
    cases plan with
    | keep => cases h
    | write c =>
      obtain ⟨result, disk1, hw⟩ : ∃ result disk1, disk.write host choice c = (result, disk1) := ⟨_, _, rfl⟩
      simp only [hw] at h
      cases result with
      | ok u => cases h
      | error e =>
        cases h
        exact ⟨write_error hw, .inr ⟨e, rfl⟩⟩

end

/-! ## A request applied twice -/

theorem loadConfig_encode {path} (hp : path ≠ "") (c : Config) :
    loadConfig path (.doc c.encode) = .ok c.reloaded := by
  rw [loadConfig, if_neg hp, decode_encode]

/-- After a write, only a request that turns the watchdog off is not in effect. -/
theorem RuntimeConfigRequest.inEffect_written_iff (req : RuntimeConfigRequest) (s : Settings) :
    req.InEffect { req.over s with maxTimeWatchdog := true } ↔ req.maxTimeWatchdog ≠ some false := by
  have hover := (req.over_eq_iff _).mp (req.over_idem s)
  constructor
  · intro h hoff
    cases h.maxTimeWatchdog false hoff
  · intro hon
    refine { hover with maxTimeWatchdog := fun v hv => ?_ }
    cases v with
    | true => rfl
    | false => exact absurd hv hon

theorem Settings.accepted_written_iff (host : Host) (req : RuntimeConfigRequest) (s : Settings) :
    (req.over { req.over s with maxTimeWatchdog := true }).Accepted host ↔ (req.over s).Accepted host := by
  have hmode : (req.over { req.over s with maxTimeWatchdog := true }).mode = (req.over s).mode :=
    req.modeOver_idem s.mode
  have hover : (req.over (req.over s)).schedulerName = (req.over s).schedulerName :=
    congrArg Settings.schedulerName (req.over_idem s)
  have hname : (req.over { req.over s with maxTimeWatchdog := true }).schedulerName = (req.over s).schedulerName :=
    hover
  rw [Settings.Accepted, Settings.Accepted, hmode, hname]

/-- What a request finds to change when it is made again, unless it failed to
write. -/
theorem applyRuntimeConfigToFile_again {host choice choice' req disk}
    (hwrite : ∀ err, (applyRuntimeConfigToFile host choice req disk).1.2 ≠ some (.write err)) :
    (applyRuntimeConfigToFile host choice' req (applyRuntimeConfigToFile host choice req disk).2).1.1 = false ↔
      ∀ c, loadConfig host.runtimeConfigPath disk.file = .ok c → (req.over c.settings).Accepted host →
        req.maxTimeWatchdog = some false → req.InEffect c.settings := by
  obtain ⟨⟨⟨changed, err⟩, disk'⟩, happ⟩ : ∃ r, applyRuntimeConfigToFile host choice req disk = r := ⟨_, rfl⟩
  rw [happ] at hwrite ⊢
  cases err with
  | none =>
    obtain ⟨c, hload, hacc, ⟨heff, -, rfl⟩ | ⟨heff, -, hp, rfl⟩⟩ := applyRuntimeConfigToFile_ok happ
    · refine iff_of_true ((applyRuntimeConfigToFile_changed hload hacc).mpr heff) fun c' hload' _ _ => ?_
      cases hload.symm.trans hload'
      exact heff
    · -- The settings written come back with the watchdog on.
      have hreload := loadConfig_encode hp (c.withSettings (req.over c.settings))
      have hacc' : (req.over (c.withSettings (req.over c.settings)).reloaded.settings).Accepted host := by
        rw [settings_reloaded, settings_withSettings, Settings.accepted_written_iff]
        exact hacc
      rw [applyRuntimeConfigToFile_changed hreload hacc', settings_reloaded, settings_withSettings,
        req.inEffect_written_iff]
      constructor
      · intro hon c' _ _ hoff
        exact absurd hoff hon
      · intro h hoff
        exact heff (h c hload hacc hoff)
  | some err =>
    obtain ⟨rfl, ⟨hplan, rfl⟩ | ⟨e, rfl⟩⟩ := applyRuntimeConfigToFile_error happ
    · -- The request was rejected, so the file is as it was and it is rejected again.
      have hagain : (applyRuntimeConfigToFile host choice' req disk').1.1 = false := by
        simp only [applyRuntimeConfigToFile, hplan]
      refine iff_of_true hagain fun c hload hacc _ => ?_
      rw [planRuntimeConfig_eq_ok.mpr ⟨c, hload, hacc, rfl⟩] at hplan
      cases hplan
    · exact absurd rfl (hwrite e)

/-- **What the file keeps.** A configuration written is read back exactly when
it is representable, and a request made a second time finds nothing to change
exactly when it does not turn the watchdog off, or was in effect already. -/
theorem runtimeConfigFile_roundTrips_iff (host : Host) :
    (∀ write path c file file', writeConfigFile write path c file = (.ok (), file') →
      (loadConfig path file' = .ok c ↔ c.Representable)) ∧
    ∀ choice choice' req disk, (∀ err, (applyRuntimeConfigToFile host choice req disk).1.2 ≠ some (.write err)) →
      ((applyRuntimeConfigToFile host choice' req (applyRuntimeConfigToFile host choice req disk).2).1.1 = false ↔
        ∀ c, loadConfig host.runtimeConfigPath disk.file = .ok c → (req.over c.settings).Accepted host →
          req.maxTimeWatchdog = some false → req.InEffect c.settings) := by
  refine ⟨fun write path c file file' h => ?_, fun _ _ _ _ hwrite => applyRuntimeConfigToFile_again hwrite⟩
  unfold writeConfigFile at h
  split at h
  · cases h
  · split at h
    · cases h
    · rename_i hp
      cases h
      rw [loadConfig_encode hp, Except.ok.injEq, reloaded_eq_iff]

namespace Sample

/-- A daemon with its files in `/run`, none of them there yet. -/
def host : Host where
  runtimeConfigPath := "/run/runtime-config.yaml"
  schedulerBinPath := "/run/gthulhu"
  stat _ := .notExist

def disk : Disk := { file := .missing, mtime := 0, clock := 1 }

def watchdog (on : Bool) : RuntimeConfigRequest := { configVersion := "1", maxTimeWatchdog := some on }

end Sample

/-- The default with the watchdog off comes back with the watchdog on, and the
request to turn it off changes the file every time. -/
theorem runtimeConfigFile_forgetsWatchdog :
    let off : Config := { defaultConfig with scheduler := { defaultConfig.scheduler with maxTimeWatchdog := false } }
    (writeConfigFile (.ok ()) "/run/c.yaml" off .missing).1 = .ok () ∧
      loadConfig "/run/c.yaml" (writeConfigFile (.ok ()) "/run/c.yaml" off .missing).2 ≠ .ok off ∧
      (applyRuntimeConfigToFile Sample.host {} (Sample.watchdog false) Sample.disk).1 = (true, none) ∧
      (applyRuntimeConfigToFile Sample.host {} (Sample.watchdog false)
        (applyRuntimeConfigToFile Sample.host {} (Sample.watchdog false) Sample.disk).2).1 = (true, none) := by
  decide +kernel

/-- The default is read back as it was written, and a request to turn the
watchdog on finds nothing to change the second time. -/
theorem runtimeConfigFile_roundTrips_iff_default :
    loadConfig "/run/c.yaml" (.doc defaultConfig.encode) = .ok defaultConfig ∧
      (applyRuntimeConfigToFile Sample.host {} (Sample.watchdog true)
        (applyRuntimeConfigToFile Sample.host {} (Sample.watchdog true) Sample.disk).2).1.1 = false := by
  refine ⟨((runtimeConfigFile_roundTrips_iff Sample.host).1 (.ok ()) "/run/c.yaml" defaultConfig .missing _ rfl).mpr
    ⟨rfl, by decide, by decide, by decide⟩, ?_⟩
  have hfirst : (applyRuntimeConfigToFile Sample.host {} (Sample.watchdog true) Sample.disk).1.2 = none := by
    decide +kernel
  refine ((runtimeConfigFile_roundTrips_iff Sample.host).2 {} {} _ Sample.disk fun err h => ?_).mpr fun _ _ _ h => ?_
  · rw [hfirst] at h
    cases h
  · cases h

end Gthulhu.Daemon
