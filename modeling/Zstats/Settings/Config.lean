import Mathlib.Data.Finmap
import Mathlib.Data.Finset.Sort
import Mathlib.Data.String.Basic
import Zstats.Alerts.Thresholds

namespace Zstats

/-- A `BTreeMap` keyed by text. -/
abbrev Overrides (F : Type) := Finmap fun _ : String => F

namespace Overrides

variable {F : Type}

/-- The entries in the order the map is iterated in, by key. -/
def entries (m : Overrides F) : List (String × F) :=
  m.keys.sort.filterMap fun name => (m.lookup name).map fun value => (name, value)

theorem mem_entries (m : Overrides F) (name : String) (value : F) :
    (name, value) ∈ m.entries ↔ m.lookup name = some value := by
  rw [entries, List.mem_filterMap]
  constructor
  · intro h
    obtain ⟨name', -, hvalue⟩ := h
    obtain ⟨value', hlookup, heq⟩ := Option.map_eq_some_iff.mp hvalue
    obtain ⟨rfl, rfl⟩ := Prod.mk.inj heq
    exact hlookup
  · intro h
    have hkey : name ∈ m.keys.sort := by
      rw [Finset.mem_sort, Finmap.mem_keys]
      exact Finmap.mem_of_lookup_eq_some h
    exact ⟨name, hkey, by rw [h]; rfl⟩

end Overrides

/-- `F32` stands for the numbers of single precision. -/
@[ext]
structure CollectorConfig (F32 : Type) where
  collectProcesses : Bool
  processRefreshInterval : Nat
  processBoostCpuCores : Option F32
  maxProcesses : Nat
  collectProcessDiskIo : Bool
  collectProcessGroups : Bool
  perCoreCpu : Bool
  cpuFrequencyRefreshInterval : Nat
  collectDisks : Bool
  diskStorageRefreshInterval : Nat
  diskIoRefreshInterval : Nat
  dedupeDisks : Bool
  collectNetworks : Bool
  networkRefreshInterval : Nat
  collectBattery : Bool
  batteryRefreshInterval : Nat
  collectTemperatures : Bool
  temperatureRefreshInterval : Nat
  collectGpu : Bool
  gpuRefreshInterval : Nat
  collectDrives : Bool
  driveRefreshInterval : Nat
  labels : Finmap fun _ : String => String
  collectTimeout : Nat

/-- `CollectorConfig::default`; temperatures are off on Windows. -/
def CollectorConfig.default (F32 : Type) (windows : Bool) : CollectorConfig F32 where
  collectProcesses := true
  processRefreshInterval := 0
  processBoostCpuCores := none
  maxProcesses := 50
  collectProcessDiskIo := false
  collectProcessGroups := true
  perCoreCpu := true
  cpuFrequencyRefreshInterval := fromSecs 30
  collectDisks := true
  diskStorageRefreshInterval := fromSecs 60
  diskIoRefreshInterval := 0
  dedupeDisks := true
  collectNetworks := true
  networkRefreshInterval := 0
  collectBattery := true
  batteryRefreshInterval := fromSecs 30
  collectTemperatures := !windows
  temperatureRefreshInterval := fromSecs 15
  collectGpu := true
  gpuRefreshInterval := fromSecs 10
  collectDrives := true
  driveRefreshInterval := fromSecs 10
  labels := ∅
  collectTimeout := fromSecs 2

@[ext]
structure DaemonConfig where
  interval : Option Nat
  history : Option Nat
  detach : Option Bool

@[ext]
structure AlertsConfig (F32 F64 : Type) where
  cpu : Option F32
  mem : Option F64
  memBytes : Option Nat
  cooldown : Option Nat
  disk : Option F32
  pressure : Option PressureAlert
  appCpu : Option F32
  appMem : Option F64
  appMemBytes : Option Nat
  cpuOverrides : Overrides F32
  memOverrides : Overrides F64
  diskOverrides : Overrides F32
  appCpuOverrides : Overrides F32
  appMemOverrides : Overrides F64
  template : Option Bool

@[ext]
structure FileConfig (F32 F64 : Type) where
  collector : Option (CollectorConfig F32)
  daemon : DaemonConfig
  alerts : AlertsConfig F32 F64

/-- `FileConfig::default`, the configuration of an empty file. -/
def FileConfig.default (F32 F64 : Type) : FileConfig F32 F64 where
  collector := none
  daemon := ⟨none, none, none⟩
  alerts := ⟨none, none, none, none, none, none, none, none, none, ∅, ∅, ∅, ∅, ∅, none⟩

end Zstats
