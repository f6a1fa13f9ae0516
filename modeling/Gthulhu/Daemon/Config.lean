/-
The scheduler's configuration (`internal/config/config.go`) and its YAML file.

A file is read field by field over `DefaultConfig`: a key that is absent, or
null, keeps the default (`decode`). It is written with the `omitempty` tags of
the struct definitions (`encode`). `loadConfig` is `LoadConfig`, with the
three ways it ends: the default for no file name or no such file, an error
for a file that cannot be opened or decoded, and the decoded file.
-/
import Gthulhu.Lib.GoText

namespace Gthulhu.Daemon

open Lib

/-! ## The configuration -/

structure SchedulerConfig where
  sliceNsDefault : UInt64 := 0
  sliceNsMin : UInt64 := 0
  mode : String := ""
  schedulerName : String := ""
  kernelMode : Bool := false
  maxTimeWatchdog : Bool := false
  deriving DecidableEq, Repr

structure SimpleSchedulerConfig where
  enableFifo : Bool := false
  deriving DecidableEq, Repr

structure MonitorConfig where
  enabled : Bool := false
  bpfObjectPath : String := ""
  collectionIntervalSec : Int64 := 0
  monitorAll : Bool := false
  streamEvents : Bool := false
  prometheusPort : Int64 := 0
  enableCRDWatcher : Bool := false
  kubeConfigPath : String := ""
  deriving DecidableEq

structure MTLSConfig where
  enable : Bool := false
  certPem : String := ""
  keyPem : String := ""
  caPem : String := ""
  deriving DecidableEq, Repr

structure ApiConfig where
  url : String := ""
  interval : Int64 := 0
  publicKeyPath : String := ""
  enabled : Bool := false
  authEnabled : Bool := false
  mtls : MTLSConfig := {}
  deriving DecidableEq

structure Config where
  scheduler : SchedulerConfig := {}
  simpleScheduler : SimpleSchedulerConfig := {}
  monitor : MonitorConfig := {}
  debug : Bool := false
  earlyProcessing : Bool := false
  builtinIdle : Bool := false
  api : ApiConfig := {}
  deriving DecidableEq

def defaultConfig : Config where
  scheduler := { sliceNsDefault := 20000 * 1000, sliceNsMin := 1000 * 1000, maxTimeWatchdog := true }
  monitor :=
    { enabled := true
      bpfObjectPath := "sched_monitor.bpf.o"
      collectionIntervalSec := 10
      prometheusPort := 9090 }

def Config.isMonitorEnabled (c : Config) : Bool := c.monitor.enabled

def Config.isSchedulerEnabled (c : Config) : Bool := c.scheduler.mode ≠ "" && c.scheduler.mode ≠ "none"

/-! ## The file -/

structure SchedulerDoc where
  sliceNsDefault : Option UInt64 := none
  sliceNsMin : Option UInt64 := none
  mode : Option String := none
  schedulerName : Option String := none
  kernelMode : Option Bool := none
  maxTimeWatchdog : Option Bool := none
  deriving DecidableEq

structure SimpleSchedulerDoc where
  enableFifo : Option Bool := none
  deriving DecidableEq

structure MonitorDoc where
  enabled : Option Bool := none
  bpfObjectPath : Option String := none
  collectionIntervalSec : Option Int64 := none
  monitorAll : Option Bool := none
  streamEvents : Option Bool := none
  prometheusPort : Option Int64 := none
  enableCRDWatcher : Option Bool := none
  kubeConfigPath : Option String := none
  deriving DecidableEq

structure MTLSDoc where
  enable : Option Bool := none
  certPem : Option String := none
  keyPem : Option String := none
  caPem : Option String := none
  deriving DecidableEq

structure ApiDoc where
  url : Option String := none
  interval : Option Int64 := none
  publicKeyPath : Option String := none
  enabled : Option Bool := none
  authEnabled : Option Bool := none
  mtls : Option MTLSDoc := none
  deriving DecidableEq

/-- A YAML document of this shape: what it gives for each key. -/
structure Doc where
  scheduler : Option SchedulerDoc := none
  simpleScheduler : Option SimpleSchedulerDoc := none
  monitor : Option MonitorDoc := none
  debug : Option Bool := none
  earlyProcessing : Option Bool := none
  builtinIdle : Option Bool := none
  api : Option ApiDoc := none
  deriving DecidableEq

def SchedulerConfig.decode (c : SchedulerConfig) (d : SchedulerDoc) : SchedulerConfig where
  sliceNsDefault := decodeField c.sliceNsDefault d.sliceNsDefault
  sliceNsMin := decodeField c.sliceNsMin d.sliceNsMin
  mode := decodeField c.mode d.mode
  schedulerName := decodeField c.schedulerName d.schedulerName
  kernelMode := decodeField c.kernelMode d.kernelMode
  maxTimeWatchdog := decodeField c.maxTimeWatchdog d.maxTimeWatchdog

def SimpleSchedulerConfig.decode (c : SimpleSchedulerConfig) (d : SimpleSchedulerDoc) : SimpleSchedulerConfig where
  enableFifo := decodeField c.enableFifo d.enableFifo

def MonitorConfig.decode (c : MonitorConfig) (d : MonitorDoc) : MonitorConfig where
  enabled := decodeField c.enabled d.enabled
  bpfObjectPath := decodeField c.bpfObjectPath d.bpfObjectPath
  collectionIntervalSec := decodeField c.collectionIntervalSec d.collectionIntervalSec
  monitorAll := decodeField c.monitorAll d.monitorAll
  streamEvents := decodeField c.streamEvents d.streamEvents
  prometheusPort := decodeField c.prometheusPort d.prometheusPort
  enableCRDWatcher := decodeField c.enableCRDWatcher d.enableCRDWatcher
  kubeConfigPath := decodeField c.kubeConfigPath d.kubeConfigPath

def MTLSConfig.decode (c : MTLSConfig) (d : MTLSDoc) : MTLSConfig where
  enable := decodeField c.enable d.enable
  certPem := decodeField c.certPem d.certPem
  keyPem := decodeField c.keyPem d.keyPem
  caPem := decodeField c.caPem d.caPem

def ApiConfig.decode (c : ApiConfig) (d : ApiDoc) : ApiConfig where
  url := decodeField c.url d.url
  interval := decodeField c.interval d.interval
  publicKeyPath := decodeField c.publicKeyPath d.publicKeyPath
  enabled := decodeField c.enabled d.enabled
  authEnabled := decodeField c.authEnabled d.authEnabled
  mtls := c.mtls.decode (d.mtls.getD {})

/-- `decoder.Decode(config)`. -/
def Config.decode (c : Config) (d : Doc) : Config where
  scheduler := c.scheduler.decode (d.scheduler.getD {})
  simpleScheduler := c.simpleScheduler.decode (d.simpleScheduler.getD {})
  monitor := c.monitor.decode (d.monitor.getD {})
  debug := decodeField c.debug d.debug
  earlyProcessing := decodeField c.earlyProcessing d.earlyProcessing
  builtinIdle := decodeField c.builtinIdle d.builtinIdle
  api := c.api.decode (d.api.getD {})

def SchedulerConfig.encode (c : SchedulerConfig) : SchedulerDoc where
  sliceNsDefault := encodeField false 0 c.sliceNsDefault
  sliceNsMin := encodeField false 0 c.sliceNsMin
  mode := encodeField true "" c.mode
  schedulerName := encodeField true "" c.schedulerName
  kernelMode := encodeField true false c.kernelMode
  maxTimeWatchdog := encodeField true false c.maxTimeWatchdog

def SimpleSchedulerConfig.encode (c : SimpleSchedulerConfig) : SimpleSchedulerDoc where
  enableFifo := encodeField true false c.enableFifo

def MonitorConfig.encode (c : MonitorConfig) : MonitorDoc where
  enabled := encodeField false false c.enabled
  bpfObjectPath := encodeField true "" c.bpfObjectPath
  collectionIntervalSec := encodeField true 0 c.collectionIntervalSec
  monitorAll := encodeField true false c.monitorAll
  streamEvents := encodeField true false c.streamEvents
  prometheusPort := encodeField true 0 c.prometheusPort
  enableCRDWatcher := encodeField true false c.enableCRDWatcher
  kubeConfigPath := encodeField true "" c.kubeConfigPath

def MTLSConfig.encode (c : MTLSConfig) : MTLSDoc where
  enable := encodeField false false c.enable
  certPem := encodeField false "" c.certPem
  keyPem := encodeField false "" c.keyPem
  caPem := encodeField false "" c.caPem

def ApiConfig.encode (c : ApiConfig) : ApiDoc where
  url := encodeField false "" c.url
  interval := encodeField false 0 c.interval
  publicKeyPath := encodeField false "" c.publicKeyPath
  enabled := encodeField true false c.enabled
  authEnabled := encodeField true false c.authEnabled
  mtls := (encodeField true {} c.mtls).map MTLSConfig.encode

/-- `yaml.Marshal(cfg)`. -/
def Config.encode (c : Config) : Doc where
  scheduler := some c.scheduler.encode
  simpleScheduler := (encodeField true {} c.simpleScheduler).map SimpleSchedulerConfig.encode
  monitor := some c.monitor.encode
  debug := encodeField true false c.debug
  earlyProcessing := encodeField true false c.earlyProcessing
  builtinIdle := encodeField true false c.builtinIdle
  api := some c.api.encode

/-- What stands at a path. -/
inductive File where
  | missing
  | unopenable (err : String)
  | undecodable (err : String)
  | doc (d : Doc)
  deriving DecidableEq

inductive ConfigError where
  /-- `failed to open config file: %w` -/
  | openFile (err : String)
  /-- `failed to decode YAML config: %w` -/
  | decodeYAML (err : String)
  deriving DecidableEq

def loadConfig (filename : String) (file : File) : Except ConfigError Config :=
  if filename = "" then .ok defaultConfig
  else match file with
  | .missing => .ok defaultConfig
  | .unopenable err => .error (.openFile err)
  | .undecodable err => .error (.decodeYAML err)
  | .doc d => .ok (defaultConfig.decode d)

/-- `writeConfigFile`: the new contents replace the old ones at once, or an
error leaves the old ones. A rename to the empty name is always an error. -/
def writeConfigFile (write : Except String Unit) (path : String) (c : Config) (file : File) :
    Except String Unit × File :=
  match write with
  | .error err => (.error err, file)
  | .ok () => if path = "" then (.error "no such file or directory", file) else (.ok (), .doc c.encode)

end Gthulhu.Daemon
