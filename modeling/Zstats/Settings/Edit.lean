import Zstats.Settings.Config
import Zstats.Settings.Parsing

namespace Zstats

open FloatText (Number)

namespace Settings

abbrev File := FileConfig Number Number

/-- What the build and the formatter of the source decide: the target, and how numbers of
either width are printed. -/
structure Platform where
  windows : Bool
  display32 : Number → String
  display64 : Number → String

/-- An edit of the file; what is changed before an error stays changed. -/
abbrev Edit (α : Type) := ExceptT String (StateM File) α

/-- The `?` operator. -/
def check {α : Type} (parsed : Except String α) : Edit α := ExceptT.mk (pure parsed)

def knownKeys : String :=
  "interval, history, detach, process-interval, " ++
  "disk-interval, disk-storage-interval, network-interval, temp-interval, " ++
  "cpu-freq-interval, battery-interval, gpu-interval, drive-interval, " ++
  "process-boost, max-processes, " ++
  "collect-processes, collect-disks, collect-networks, collect-temperatures, " ++
  "collect-battery, collect-gpu, collect-drives, process-disk-io, " ++
  "process-groups, dedupe-disks, per-core-cpu, alert-cpu, alert-mem, " ++
  "alert-mem-bytes, alert-app-cpu, alert-app-mem, alert-app-mem-bytes, " ++
  "alert-disk, alert-pressure, " ++
  "alert-cooldown, alert-template"

def unknownKey (other : String) : String :=
  "unknown key: " ++ other ++ " (known keys: " ++ knownKeys ++ ")"

def collectorMut (platform : Platform) : Edit (CollectorConfig Number) := do
  let config ← get
  let collector := config.collector.getD (.default Number platform.windows)
  set { config with collector := some collector }
  return collector

/-- `collector_mut(config).field = parsed`: the right-hand side is evaluated first. -/
def setCollector {α : Type} (platform : Platform) (parsed : Except String α)
    (write : CollectorConfig Number → α → CollectorConfig Number) : Edit Unit := do
  let x ← check parsed
  let collector ← collectorMut platform
  modify fun config => { config with collector := some (write collector x) }

/-- `config.daemon.field = parsed`. -/
def setDaemon {α : Type} (parsed : Except String α) (write : DaemonConfig → α → DaemonConfig) :
    Edit Unit := do
  let x ← check parsed
  modify fun config => { config with daemon := write config.daemon x }

/-- `config.alerts.field = parsed`. -/
def setAlerts {α : Type} (parsed : Except String α)
    (write : AlertsConfig Number Number → α → AlertsConfig Number Number) : Edit Unit := do
  let x ← check parsed
  modify fun config => { config with alerts := write config.alerts x }

def millis (key value : String) : Except String Nat :=
  match parseDuration value with
  | .ok duration => .ok duration
  | .error e => .error (key ++ ": " ++ e)

def positiveInterval (key value : String) : Except String Nat :=
  match millis key value with
  | .ok interval =>
    if interval = 0 then .error "interval must be greater than 0" else .ok interval
  | .error e => .error e

def boostCores (key value : String) : Except String Number :=
  match parse parseF32 key value with
  | .ok cores =>
    if cores.isNan || cores.isNegative then .error (invalidValue key value) else .ok cores
  | .error e => .error e

def parseBytes (key value : String) : Except String Nat :=
  match parseSize value with
  | .ok bytes => .ok bytes
  | .error e => .error (invalidValue key e)

def parsePressure (key value : String) : Except String PressureAlert :=
  match PressureAlert.parse value with
  | .ok pressure => .ok pressure
  | .error e => .error (invalidValue key e)

/-- A percentage of a rule, or `name=pct` for one name. -/
def addPercentage (key value what : String) (fromStr : List Char → Option Number)
    (display : Number → String)
    (write : AlertsConfig Number Number → Number → AlertsConfig Number Number)
    (insert : AlertsConfig Number Number → String → Number → AlertsConfig Number Number) :
    Edit String :=
  match splitOnce value with
  | some (name, pct) => do
    let name := trimmed name
    if name = "" then throw (invalidValue key value ++ " (empty " ++ what ++ ")")
    check (checkNamePattern key name)
    let pct ← check (parse fromStr key pct)
    modify fun config => { config with alerts := insert config.alerts name pct }
    return key ++ " override: " ++ name ++ " = " ++ display pct ++ "% (0 disables)"
  | none => do
    setAlerts (parse fromStr key value) write
    return key ++ " = " ++ trimmed value

/-- An absolute ceiling of a memory rule. -/
def addBytes (key value pctKey : String)
    (write : AlertsConfig Number Number → Nat → AlertsConfig Number Number) : Edit String := do
  let bytes ← check (parseBytes key value)
  modify fun config => { config with alerts := write config.alerts bytes }
  return key ++ " = " ++ formatSize bytes ++
    " (0 removes the absolute ceiling; the effective bar is the lower of this and " ++ pctKey ++ ")"

/-- The end of `apply_add` for the keys that do not return before. -/
def assigned (key value : String) (edit : Edit Unit) : Edit String := do
  edit
  return key ++ " = " ++ trimmed value

def applyAdd (platform : Platform) (key value : String) : Edit String :=
  let collector {α : Type} := setCollector (α := α) platform
  match key with
  -- [daemon]
  | "interval" => assigned key value <|
    setDaemon (positiveInterval key value) fun d x => { d with interval := some x }
  | "history" => assigned key value <|
    setDaemon (millis key value) fun d x => { d with history := some x }
  | "detach" => assigned key value <|
    setDaemon (parse parseBool key value) fun d x => { d with detach := some x }
  -- [collector] cadences
  | "process-interval" => assigned key value <|
    collector (millis key value) fun c x => { c with processRefreshInterval := x }
  | "disk-interval" => assigned key value <|
    collector (millis key value) fun c x => { c with diskIoRefreshInterval := x }
  | "disk-storage-interval" => assigned key value <|
    collector (millis key value) fun c x => { c with diskStorageRefreshInterval := x }
  | "network-interval" => assigned key value <|
    collector (millis key value) fun c x => { c with networkRefreshInterval := x }
  | "temp-interval" => assigned key value <|
    collector (millis key value) fun c x => { c with temperatureRefreshInterval := x }
  | "battery-interval" => assigned key value <|
    collector (millis key value) fun c x => { c with batteryRefreshInterval := x }
  | "gpu-interval" => assigned key value <|
    collector (millis key value) fun c x => { c with gpuRefreshInterval := x }
  | "drive-interval" => assigned key value <|
    collector (millis key value) fun c x => { c with driveRefreshInterval := x }
  | "cpu-freq-interval" => assigned key value <|
    collector (millis key value) fun c x => { c with cpuFrequencyRefreshInterval := x }
  -- [collector] numbers and toggles
  | "process-boost" => assigned key value <|
    collector (boostCores key value) fun c x => { c with processBoostCpuCores := some x }
  | "max-processes" => assigned key value <|
    collector (parse parseU64 key value) fun c x => { c with maxProcesses := x }
  | "collect-processes" => assigned key value <|
    collector (parse parseBool key value) fun c x => { c with collectProcesses := x }
  | "collect-disks" => assigned key value <|
    collector (parse parseBool key value) fun c x => { c with collectDisks := x }
  | "collect-networks" => assigned key value <|
    collector (parse parseBool key value) fun c x => { c with collectNetworks := x }
  | "collect-temperatures" => assigned key value <|
    collector (parse parseBool key value) fun c x => { c with collectTemperatures := x }
  | "collect-battery" => assigned key value <|
    collector (parse parseBool key value) fun c x => { c with collectBattery := x }
  | "collect-gpu" => assigned key value <|
    collector (parse parseBool key value) fun c x => { c with collectGpu := x }
  | "collect-drives" => assigned key value <|
    collector (parse parseBool key value) fun c x => { c with collectDrives := x }
  | "process-disk-io" => assigned key value <|
    collector (parse parseBool key value) fun c x => { c with collectProcessDiskIo := x }
  | "process-groups" => assigned key value <|
    collector (parse parseBool key value) fun c x => { c with collectProcessGroups := x }
  | "dedupe-disks" => assigned key value <|
    collector (parse parseBool key value) fun c x => { c with dedupeDisks := x }
  | "per-core-cpu" => assigned key value <|
    collector (parse parseBool key value) fun c x => { c with perCoreCpu := x }
  -- [alerts]
  | "alert-app-cpu" => addPercentage key value "name" parseF64 platform.display64
    (fun a pct => { a with appCpu := some (asF32 pct) })
    fun a name pct => { a with appCpuOverrides := a.appCpuOverrides.insert name (asF32 pct) }
  | "alert-app-mem" => addPercentage key value "name" parseF64 platform.display64
    (fun a pct => { a with appMem := some pct })
    fun a name pct => { a with appMemOverrides := a.appMemOverrides.insert name pct }
  | "alert-cpu" => addPercentage key value "name" parseF64 platform.display64
    (fun a pct => { a with cpu := some (asF32 pct) })
    fun a name pct => { a with cpuOverrides := a.cpuOverrides.insert name (asF32 pct) }
  | "alert-mem" => addPercentage key value "name" parseF64 platform.display64
    (fun a pct => { a with mem := some pct })
    fun a name pct => { a with memOverrides := a.memOverrides.insert name pct }
  | "alert-mem-bytes" => addBytes key value "alert-mem" fun a bytes =>
    { a with memBytes := some bytes }
  | "alert-app-mem-bytes" => addBytes key value "alert-app-mem" fun a bytes =>
    { a with appMemBytes := some bytes }
  | "alert-disk" => addPercentage key value "mount" parseF32 platform.display32
    (fun a pct => { a with disk := some pct })
    fun a mount pct => { a with diskOverrides := a.diskOverrides.insert mount pct }
  | "alert-cooldown" => assigned key value <|
    setAlerts (millis key value) fun a x => { a with cooldown := some x }
  | "alert-pressure" => assigned key value <|
    setAlerts (parsePressure key value) fun a x => { a with pressure := some x }
  | "alert-template" => assigned key value <|
    setAlerts (parse parseBool key value) fun a x => { a with template := some x }
  | other => throw (unknownKey other)

/-- Drops one override of a map. -/
def removeOverride {F : Type} (key name : String) (map : AlertsConfig Number Number → Overrides F)
    (write : AlertsConfig Number Number → Overrides F → AlertsConfig Number Number) :
    Edit String := do
  let config ← get
  let removed := ((map config.alerts).lookup name).isSome
  set { config with alerts := write config.alerts ((map config.alerts).erase name) }
  if removed then return "removed " ++ key ++ " override for " ++ name
  else throw ("no " ++ key ++ " override found for " ++ name)

/-- The end of `apply_remove` without a name. -/
def resetDone (key : String) (edit : Edit Unit) : Edit String := do
  edit
  return key ++ " reset to default"

def applyRemove (platform : Platform) (key : String) (name : Option String) : Edit String :=
  let defaults := CollectorConfig.default Number platform.windows
  let collector {α : Type} (x : α) := setCollector platform (.ok x)
  let daemon := setDaemon (.ok ())
  let alerts := setAlerts (.ok ())
  match name with
  | some name => match key with
    | "alert-cpu" => removeOverride key name (·.cpuOverrides) fun a m =>
      { a with cpuOverrides := m }
    | "alert-mem" => removeOverride key name (·.memOverrides) fun a m =>
      { a with memOverrides := m }
    | "alert-disk" => removeOverride key name (·.diskOverrides) fun a m =>
      { a with diskOverrides := m }
    | "alert-app-cpu" => removeOverride key name (·.appCpuOverrides) fun a m =>
      { a with appCpuOverrides := m }
    | "alert-app-mem" => removeOverride key name (·.appMemOverrides) fun a m =>
      { a with appMemOverrides := m }
    | other => throw (other ++ " has no per-name overrides")
  | none => match key with
    | "interval" => resetDone key <| daemon fun d _ => { d with interval := none }
    | "history" => resetDone key <| daemon fun d _ => { d with history := none }
    | "detach" => resetDone key <| daemon fun d _ => { d with detach := none }
    | "process-interval" => resetDone key <|
      collector defaults.processRefreshInterval fun c x => { c with processRefreshInterval := x }
    | "disk-interval" => resetDone key <|
      collector defaults.diskIoRefreshInterval fun c x => { c with diskIoRefreshInterval := x }
    | "disk-storage-interval" => resetDone key <|
      collector defaults.diskStorageRefreshInterval fun c x =>
        { c with diskStorageRefreshInterval := x }
    | "network-interval" => resetDone key <|
      collector defaults.networkRefreshInterval fun c x => { c with networkRefreshInterval := x }
    | "temp-interval" => resetDone key <|
      collector defaults.temperatureRefreshInterval fun c x =>
        { c with temperatureRefreshInterval := x }
    | "cpu-freq-interval" => resetDone key <|
      collector defaults.cpuFrequencyRefreshInterval fun c x =>
        { c with cpuFrequencyRefreshInterval := x }
    | "process-boost" => resetDone key <|
      collector defaults.processBoostCpuCores fun c x => { c with processBoostCpuCores := x }
    | "max-processes" => resetDone key <|
      collector defaults.maxProcesses fun c x => { c with maxProcesses := x }
    | "collect-processes" => resetDone key <|
      collector defaults.collectProcesses fun c x => { c with collectProcesses := x }
    | "collect-disks" => resetDone key <|
      collector defaults.collectDisks fun c x => { c with collectDisks := x }
    | "collect-networks" => resetDone key <|
      collector defaults.collectNetworks fun c x => { c with collectNetworks := x }
    | "collect-temperatures" => resetDone key <|
      collector defaults.collectTemperatures fun c x => { c with collectTemperatures := x }
    | "collect-battery" => resetDone key <|
      collector defaults.collectBattery fun c x => { c with collectBattery := x }
    | "battery-interval" => resetDone key <|
      collector defaults.batteryRefreshInterval fun c x => { c with batteryRefreshInterval := x }
    | "collect-gpu" => resetDone key <|
      collector defaults.collectGpu fun c x => { c with collectGpu := x }
    | "gpu-interval" => resetDone key <|
      collector defaults.gpuRefreshInterval fun c x => { c with gpuRefreshInterval := x }
    | "collect-drives" => resetDone key <|
      collector defaults.collectDrives fun c x => { c with collectDrives := x }
    | "drive-interval" => resetDone key <|
      collector defaults.driveRefreshInterval fun c x => { c with driveRefreshInterval := x }
    | "process-disk-io" => resetDone key <|
      collector defaults.collectProcessDiskIo fun c x => { c with collectProcessDiskIo := x }
    | "process-groups" => resetDone key <|
      collector defaults.collectProcessGroups fun c x => { c with collectProcessGroups := x }
    | "dedupe-disks" => resetDone key <|
      collector defaults.dedupeDisks fun c x => { c with dedupeDisks := x }
    | "per-core-cpu" => resetDone key <|
      collector defaults.perCoreCpu fun c x => { c with perCoreCpu := x }
    | "alert-cpu" => resetDone key <| alerts fun a _ => { a with cpu := none }
    | "alert-mem" => resetDone key <| alerts fun a _ => { a with mem := none }
    | "alert-mem-bytes" => resetDone key <| alerts fun a _ => { a with memBytes := none }
    | "alert-app-mem-bytes" => resetDone key <| alerts fun a _ => { a with appMemBytes := none }
    | "alert-app-cpu" => resetDone key <| alerts fun a _ => { a with appCpu := none }
    | "alert-app-mem" => resetDone key <| alerts fun a _ => { a with appMem := none }
    | "alert-disk" => resetDone key <| alerts fun a _ => { a with disk := none }
    | "alert-cooldown" => resetDone key <| alerts fun a _ => { a with cooldown := none }
    | "alert-pressure" => resetDone key <| alerts fun a _ => { a with pressure := none }
    | "alert-template" => resetDone key <| alerts fun a _ => { a with template := none }
    | other => throw (unknownKey other)

end Settings

end Zstats
