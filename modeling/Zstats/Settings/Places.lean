import Zstats.Settings.Edit

namespace Zstats

open FloatText (Number)

namespace Settings

inductive DaemonField where
  | interval
  | history
  | detach
  deriving DecidableEq

namespace DaemonField

def type : DaemonField → Type
  | interval | history => Option Nat
  | detach => Option Bool

def get (d : DaemonConfig) : (f : DaemonField) → f.type
  | interval => d.interval
  | history => d.history
  | detach => d.detach

def put (d : DaemonConfig) : (f : DaemonField) → f.type → DaemonConfig
  | interval, x => { d with interval := x }
  | history, x => { d with history := x }
  | detach, x => { d with detach := x }

theorem get_put (d : DaemonConfig) (f : DaemonField) (x : f.type) : f.get (f.put d x) = x := by
  cases f <;> rfl

theorem get_put_ne (d : DaemonConfig) {f g : DaemonField} (h : g ≠ f) (x : f.type) :
    g.get (f.put d x) = g.get d := by
  cases f <;> cases g <;> first | rfl | exact absurd rfl h

end DaemonField

inductive CollectorField where
  | collectProcesses
  | processRefreshInterval
  | processBoostCpuCores
  | maxProcesses
  | collectProcessDiskIo
  | collectProcessGroups
  | perCoreCpu
  | cpuFrequencyRefreshInterval
  | collectDisks
  | diskStorageRefreshInterval
  | diskIoRefreshInterval
  | dedupeDisks
  | collectNetworks
  | networkRefreshInterval
  | collectBattery
  | batteryRefreshInterval
  | collectTemperatures
  | temperatureRefreshInterval
  | collectGpu
  | gpuRefreshInterval
  | collectDrives
  | driveRefreshInterval
  | labels
  | collectTimeout
  deriving DecidableEq

namespace CollectorField

def type : CollectorField → Type
  | collectProcesses | collectProcessDiskIo | collectProcessGroups | perCoreCpu | collectDisks
  | dedupeDisks | collectNetworks | collectBattery | collectTemperatures | collectGpu
  | collectDrives => Bool
  | processRefreshInterval | maxProcesses | cpuFrequencyRefreshInterval
  | diskStorageRefreshInterval | diskIoRefreshInterval | networkRefreshInterval
  | batteryRefreshInterval | temperatureRefreshInterval | gpuRefreshInterval
  | driveRefreshInterval | collectTimeout => Nat
  | processBoostCpuCores => Option Number
  | labels => Finmap fun _ : String => String

def get (c : CollectorConfig Number) : (f : CollectorField) → f.type
  | collectProcesses => c.collectProcesses
  | processRefreshInterval => c.processRefreshInterval
  | processBoostCpuCores => c.processBoostCpuCores
  | maxProcesses => c.maxProcesses
  | collectProcessDiskIo => c.collectProcessDiskIo
  | collectProcessGroups => c.collectProcessGroups
  | perCoreCpu => c.perCoreCpu
  | cpuFrequencyRefreshInterval => c.cpuFrequencyRefreshInterval
  | collectDisks => c.collectDisks
  | diskStorageRefreshInterval => c.diskStorageRefreshInterval
  | diskIoRefreshInterval => c.diskIoRefreshInterval
  | dedupeDisks => c.dedupeDisks
  | collectNetworks => c.collectNetworks
  | networkRefreshInterval => c.networkRefreshInterval
  | collectBattery => c.collectBattery
  | batteryRefreshInterval => c.batteryRefreshInterval
  | collectTemperatures => c.collectTemperatures
  | temperatureRefreshInterval => c.temperatureRefreshInterval
  | collectGpu => c.collectGpu
  | gpuRefreshInterval => c.gpuRefreshInterval
  | collectDrives => c.collectDrives
  | driveRefreshInterval => c.driveRefreshInterval
  | labels => c.labels
  | collectTimeout => c.collectTimeout

def put (c : CollectorConfig Number) : (f : CollectorField) → f.type → CollectorConfig Number
  | collectProcesses, x => { c with collectProcesses := x }
  | processRefreshInterval, x => { c with processRefreshInterval := x }
  | processBoostCpuCores, x => { c with processBoostCpuCores := x }
  | maxProcesses, x => { c with maxProcesses := x }
  | collectProcessDiskIo, x => { c with collectProcessDiskIo := x }
  | collectProcessGroups, x => { c with collectProcessGroups := x }
  | perCoreCpu, x => { c with perCoreCpu := x }
  | cpuFrequencyRefreshInterval, x => { c with cpuFrequencyRefreshInterval := x }
  | collectDisks, x => { c with collectDisks := x }
  | diskStorageRefreshInterval, x => { c with diskStorageRefreshInterval := x }
  | diskIoRefreshInterval, x => { c with diskIoRefreshInterval := x }
  | dedupeDisks, x => { c with dedupeDisks := x }
  | collectNetworks, x => { c with collectNetworks := x }
  | networkRefreshInterval, x => { c with networkRefreshInterval := x }
  | collectBattery, x => { c with collectBattery := x }
  | batteryRefreshInterval, x => { c with batteryRefreshInterval := x }
  | collectTemperatures, x => { c with collectTemperatures := x }
  | temperatureRefreshInterval, x => { c with temperatureRefreshInterval := x }
  | collectGpu, x => { c with collectGpu := x }
  | gpuRefreshInterval, x => { c with gpuRefreshInterval := x }
  | collectDrives, x => { c with collectDrives := x }
  | driveRefreshInterval, x => { c with driveRefreshInterval := x }
  | labels, x => { c with labels := x }
  | collectTimeout, x => { c with collectTimeout := x }

theorem get_put (c : CollectorConfig Number) (f : CollectorField) (x : f.type) :
    f.get (f.put c x) = x := by
  cases f <;> rfl

theorem get_put_ne (c : CollectorConfig Number) {f g : CollectorField} (h : g ≠ f) (x : f.type) :
    g.get (f.put c x) = g.get c := by
  cases f <;> cases g <;> first | rfl | exact absurd rfl h

end CollectorField

inductive AlertsField where
  | cpu
  | mem
  | memBytes
  | cooldown
  | disk
  | pressure
  | appCpu
  | appMem
  | appMemBytes
  | template
  deriving DecidableEq

inductive OverrideMap where
  | cpu
  | mem
  | disk
  | appCpu
  | appMem
  deriving DecidableEq

namespace OverrideMap

def get (a : AlertsConfig Number Number) : OverrideMap → Overrides Number
  | cpu => a.cpuOverrides
  | mem => a.memOverrides
  | disk => a.diskOverrides
  | appCpu => a.appCpuOverrides
  | appMem => a.appMemOverrides

def put (a : AlertsConfig Number Number) : OverrideMap → Overrides Number →
    AlertsConfig Number Number
  | cpu, x => { a with cpuOverrides := x }
  | mem, x => { a with memOverrides := x }
  | disk, x => { a with diskOverrides := x }
  | appCpu, x => { a with appCpuOverrides := x }
  | appMem, x => { a with appMemOverrides := x }

theorem get_put (a : AlertsConfig Number Number) (m : OverrideMap) (x : Overrides Number) :
    m.get (m.put a x) = x := by
  cases m <;> rfl

theorem get_put_ne (a : AlertsConfig Number Number) {m n : OverrideMap} (h : n ≠ m)
    (x : Overrides Number) : n.get (m.put a x) = n.get a := by
  cases m <;> cases n <;> first | rfl | exact absurd rfl h

end OverrideMap

namespace AlertsField

def type : AlertsField → Type
  | cpu | mem | disk | appCpu | appMem => Option Number
  | memBytes | cooldown | appMemBytes => Option Nat
  | pressure => Option PressureAlert
  | template => Option Bool

def get (a : AlertsConfig Number Number) : (f : AlertsField) → f.type
  | cpu => a.cpu
  | mem => a.mem
  | memBytes => a.memBytes
  | cooldown => a.cooldown
  | disk => a.disk
  | pressure => a.pressure
  | appCpu => a.appCpu
  | appMem => a.appMem
  | appMemBytes => a.appMemBytes
  | template => a.template

def put (a : AlertsConfig Number Number) : (f : AlertsField) → f.type → AlertsConfig Number Number
  | cpu, x => { a with cpu := x }
  | mem, x => { a with mem := x }
  | memBytes, x => { a with memBytes := x }
  | cooldown, x => { a with cooldown := x }
  | disk, x => { a with disk := x }
  | pressure, x => { a with pressure := x }
  | appCpu, x => { a with appCpu := x }
  | appMem, x => { a with appMem := x }
  | appMemBytes, x => { a with appMemBytes := x }
  | template, x => { a with template := x }

theorem get_put (a : AlertsConfig Number Number) (f : AlertsField) (x : f.type) :
    f.get (f.put a x) = x := by
  cases f <;> rfl

theorem get_put_ne (a : AlertsConfig Number Number) {f g : AlertsField} (h : g ≠ f)
    (x : f.type) : g.get (f.put a x) = g.get a := by
  cases f <;> cases g <;> first | rfl | exact absurd rfl h

theorem get_put_map (a : AlertsConfig Number Number) (f : AlertsField) (m : OverrideMap)
    (x : Overrides Number) : f.get (m.put a x) = f.get a := by
  cases m <;> cases f <;> rfl

theorem map_get_put (a : AlertsConfig Number Number) (f : AlertsField) (m : OverrideMap)
    (x : f.type) : m.get (f.put a x) = m.get a := by
  cases f <;> cases m <;> rfl

end AlertsField

inductive Place where
  | daemon (f : DaemonField)
  | collector (f : CollectorField)
  | alerts (f : AlertsField)
  | entry (m : OverrideMap) (name : String)
  deriving DecidableEq

/-- A collector section that is absent counts as its defaults. -/
def effectiveCollector (platform : Platform) (file : File) : CollectorConfig Number :=
  file.collector.getD (.default Number platform.windows)

/-- The file with its collector section spelled out. -/
def effective (platform : Platform) (file : File) : File :=
  { file with collector := some (effectiveCollector platform file) }

namespace Place

def type : Place → Type
  | daemon f => f.type
  | collector f => f.type
  | alerts f => f.type
  | entry _ _ => Option Number

/-- The effective value at a place; `none` where a map has no entry. -/
def value (platform : Platform) (file : File) : (p : Place) → p.type
  | daemon f => f.get file.daemon
  | collector f => f.get (effectiveCollector platform file)
  | alerts f => f.get file.alerts
  | entry m name => (m.get file.alerts).lookup name

def putEntry (m : Overrides Number) (name : String) : Option Number → Overrides Number
  | some x => m.insert name x
  | none => m.erase name

def put (platform : Platform) (file : File) : (p : Place) → p.type → File
  | daemon f, x => { file with daemon := f.put file.daemon x }
  | collector f, x =>
    { file with collector := some (f.put (effectiveCollector platform file) x) }
  | alerts f, x => { file with alerts := f.put file.alerts x }
  | entry m name, x =>
    { file with alerts := m.put file.alerts (putEntry (m.get file.alerts) name x) }

/-- The value at a place in the configuration of an empty file. -/
def default (platform : Platform) (p : Place) : p.type :=
  p.value platform (FileConfig.default Number Number)

theorem lookup_putEntry (m : Overrides Number) (name : String) (x : Option Number) :
    (putEntry m name x).lookup name = x := by
  cases x with
  | none => exact Finmap.lookup_erase name m
  | some x => exact Finmap.lookup_insert m

theorem lookup_putEntry_ne (m : Overrides Number) {name other : String} (h : other ≠ name)
    (x : Option Number) : (putEntry m name x).lookup other = m.lookup other := by
  cases x with
  | none => exact Finmap.lookup_erase_ne h
  | some x => exact Finmap.lookup_insert_of_ne m h

variable (platform : Platform) (file : File)

theorem value_put (p : Place) (x : p.type) : p.value platform (p.put platform file x) = x := by
  cases p with
  | daemon f => exact f.get_put file.daemon x
  | collector f => exact f.get_put (effectiveCollector platform file) x
  | alerts f => exact f.get_put file.alerts x
  | entry m name =>
    have hget := m.get_put file.alerts (putEntry (m.get file.alerts) name x)
    exact (congrArg (Finmap.lookup name) hget).trans (lookup_putEntry _ name x)

/-- What is put at one place changes no other. -/
theorem value_put_ne {p q : Place} (h : q ≠ p) (x : p.type) :
    q.value platform (p.put platform file x) = q.value platform file := by
  cases p with
  | daemon f =>
    cases q with
    | daemon g => exact f.get_put_ne file.daemon (fun hg => h (congrArg _ hg)) x
    | collector _ | alerts _ | entry _ _ => rfl
  | collector f =>
    cases q with
    | collector g => exact f.get_put_ne _ (fun hg => h (congrArg _ hg)) x
    | daemon _ | alerts _ | entry _ _ => rfl
  | alerts f =>
    cases q with
    | alerts g => exact f.get_put_ne file.alerts (fun hg => h (congrArg _ hg)) x
    | entry m name => exact congrArg (Finmap.lookup name) (f.map_get_put file.alerts m x)
    | daemon _ | collector _ => rfl
  | entry m name =>
    cases q with
    | alerts g => exact g.get_put_map file.alerts m _
    | entry n other =>
      by_cases hmap : n = m
      · subst hmap
        have hname : other ≠ name := fun hn => h (congrArg _ hn)
        have hget := n.get_put file.alerts (putEntry (n.get file.alerts) name x)
        exact (congrArg (Finmap.lookup other) hget).trans (lookup_putEntry_ne _ hname x)
      · exact congrArg (Finmap.lookup other) (m.get_put_ne file.alerts hmap _)
    | daemon _ | collector _ => rfl

end Place

theorem daemon_ext {d d' : DaemonConfig} (h : ∀ f : DaemonField, f.get d = f.get d') : d = d' :=
  DaemonConfig.ext (h .interval) (h .history) (h .detach)

theorem collector_ext {c c' : CollectorConfig Number}
    (h : ∀ f : CollectorField, f.get c = f.get c') : c = c' := by
  apply CollectorConfig.ext
  · exact h .collectProcesses
  · exact h .processRefreshInterval
  · exact h .processBoostCpuCores
  · exact h .maxProcesses
  · exact h .collectProcessDiskIo
  · exact h .collectProcessGroups
  · exact h .perCoreCpu
  · exact h .cpuFrequencyRefreshInterval
  · exact h .collectDisks
  · exact h .diskStorageRefreshInterval
  · exact h .diskIoRefreshInterval
  · exact h .dedupeDisks
  · exact h .collectNetworks
  · exact h .networkRefreshInterval
  · exact h .collectBattery
  · exact h .batteryRefreshInterval
  · exact h .collectTemperatures
  · exact h .temperatureRefreshInterval
  · exact h .collectGpu
  · exact h .gpuRefreshInterval
  · exact h .collectDrives
  · exact h .driveRefreshInterval
  · exact h .labels
  · exact h .collectTimeout

theorem alerts_ext {a a' : AlertsConfig Number Number}
    (hf : ∀ f : AlertsField, f.get a = f.get a')
    (hm : ∀ (m : OverrideMap) (name : String), (m.get a).lookup name = (m.get a').lookup name) :
    a = a' := by
  have hmap (m : OverrideMap) : m.get a = m.get a' := Finmap.ext_lookup (hm m)
  apply AlertsConfig.ext
  · exact hf .cpu
  · exact hf .mem
  · exact hf .memBytes
  · exact hf .cooldown
  · exact hf .disk
  · exact hf .pressure
  · exact hf .appCpu
  · exact hf .appMem
  · exact hf .appMemBytes
  · exact hmap .cpu
  · exact hmap .mem
  · exact hmap .disk
  · exact hmap .appCpu
  · exact hmap .appMem
  · exact hf .template

/-- The places are all there is: files that agree on each have the same effective values. -/
theorem effective_ext (platform : Platform) {file file' : File}
    (h : ∀ p : Place, p.value platform file = p.value platform file') :
    effective platform file = effective platform file' := by
  apply FileConfig.ext
  · exact congrArg some (collector_ext fun f => h (.collector f))
  · exact daemon_ext fun f => h (.daemon f)
  · exact alerts_ext (fun f => h (.alerts f)) fun m name => h (.entry m name)

end Settings

end Zstats
