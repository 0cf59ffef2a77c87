import Zstats.Framework.Fielded
import Zstats.Framework.FloatRounding
import Zstats.Settings.Places
import Zstats.Settings.Printed

namespace Zstats

open FloatText (Number)

namespace Settings

/-- The values that the settings are made of; arrays and dates are none of them. Keys are unique in
a table, and its plain values come first, as they are printed. -/
inductive Toml where
  | string (s : String)
  | integer (v : ℤ)
  | float (x : Number)
  | boolean (b : Bool)
  | table (entries : List (String × Toml))

namespace Toml

def bool : Toml → Option Bool
  | .boolean b => some b
  | _ => none

def text : Toml → Option String
  | .string s => some s
  | _ => none

/-- A `usize`, of 64 bits. -/
def usize : Toml → Option ℕ
  | .integer v => if 0 ≤ v ∧ v < 2 ^ 64 then some v.toNat else none
  | _ => none

/-- An integer of 64 bits, signed or not, is taken for a number, and a double is narrowed. -/
def f32 : Toml → Option Number
  | .float x => some (x.cast FloatText.single)
  | .integer v =>
    if -2 ^ 63 ≤ v ∧ v < 2 ^ 64 then some ((Number.finite v).cast FloatText.single) else none
  | _ => none

def f64 : Toml → Option Number
  | .float x => some x
  | .integer v =>
    if -2 ^ 63 ≤ v ∧ v < 2 ^ 64 then some ((Number.finite v).cast FloatText.double) else none
  | _ => none

/-- What `deserialize_any` hands to a visitor of durations and sizes, which takes no integer of
more than 64 bits. -/
def visited : Toml → Option Visited
  | .string s => some (.str s)
  | .integer v =>
    if -2 ^ 63 ≤ v ∧ v < 2 ^ 63 then some (.i64 (Int64.ofInt v))
    else if 0 ≤ v ∧ v < 2 ^ 64 then some (.u64 (UInt64.ofNat v.toNat))
    else none
  | _ => none

def ofVisited : Visited → Toml
  | .str s => .string s
  | .u64 v => .integer v.toNat
  | .i64 v => .integer v.toInt

def duration (v : Toml) : Option ℕ := v.visited.bind fun v => (DurationSerde.visit v).toOption

def size (v : Toml) : Option ℕ := v.visited.bind fun v => (SizeSerde.visit v).toOption

/-- The two-way setting of before, or the name of one of three. -/
def pressure : Toml → Option PressureAlert
  | .boolean true => some .warning
  | .boolean false => some .off
  | .string s => (PressureAlert.parse s).toOption
  | _ => none

/-- A map by name, all of whose values are read. -/
def map {F : Type} (read : Toml → Option F) : Toml → Option (Overrides F)
  | .table entries =>
    (entries.mapM fun entry => (read entry.2).map fun x => (entry.1, x)).map
      (List.foldl (fun m entry => m.insert entry.1 entry.2) ∅)
  | _ => none

def ofMap {F : Type} (write : F → Toml) (m : Overrides F) : Toml :=
  .table (m.entries.map fun entry => (entry.1, write entry.2))

def ofPressure : PressureAlert → Toml
  | .off => .string "off"
  | .warning => .string "warning"
  | .critical => .string "critical"

/-- The entries of a section. -/
def entries : Toml → Option (List (String × Toml))
  | .table entries => some entries
  | _ => none

end Toml

open Toml (ofVisited ofMap ofPressure)

section Fields

namespace DaemonField

def key : DaemonField → String
  | interval => "interval"
  | history => "history"
  | detach => "detach"

def write : (f : DaemonField) → f.type → Option Toml
  | interval, x | history, x => x.map fun d => ofVisited (DurationSerde.serialize d)
  | detach, x => x.map .boolean

def read : (f : DaemonField) → Toml → Option f.type
  | interval, v | history, v => v.duration.map some
  | detach, v => v.bool.map some

def shape : Fielded.Shape DaemonConfig DaemonField where
  type := type
  get := fun f d => f.get d
  put := fun f d x => f.put d x
  fields := [interval, history, detach]
  get_put := fun f d x => f.get_put d x
  get_put_ne := fun f _ d x h => f.get_put_ne d h x
  nodup := by decide
  complete := by intro f; cases f <;> decide
  ext := fun _ _ => daemon_ext

theorem key_injective : Function.Injective key := by
  intro f g h
  cases f <;> cases g <;> first | rfl | exact absurd h (by decide)

def codec : Fielded.Codec shape Toml := ⟨key, write, read, key_injective⟩

end DaemonField

namespace CollectorField

def key : CollectorField → String
  | collectProcesses => "collect_processes"
  | processRefreshInterval => "process_refresh_interval"
  | processBoostCpuCores => "process_boost_cpu_cores"
  | maxProcesses => "max_processes"
  | collectProcessDiskIo => "collect_process_disk_io"
  | collectProcessGroups => "collect_process_groups"
  | perCoreCpu => "per_core_cpu"
  | cpuFrequencyRefreshInterval => "cpu_frequency_refresh_interval"
  | collectDisks => "collect_disks"
  | diskStorageRefreshInterval => "disk_storage_refresh_interval"
  | diskIoRefreshInterval => "disk_io_refresh_interval"
  | dedupeDisks => "dedupe_disks"
  | collectNetworks => "collect_networks"
  | networkRefreshInterval => "network_refresh_interval"
  | collectBattery => "collect_battery"
  | batteryRefreshInterval => "battery_refresh_interval"
  | collectTemperatures => "collect_temperatures"
  | temperatureRefreshInterval => "temperature_refresh_interval"
  | collectGpu => "collect_gpu"
  | gpuRefreshInterval => "gpu_refresh_interval"
  | collectDrives => "collect_drives"
  | driveRefreshInterval => "drive_refresh_interval"
  | labels => "labels"
  | collectTimeout => "collect_timeout"

def write : (f : CollectorField) → f.type → Option Toml
  | collectProcesses, b | collectProcessDiskIo, b | collectProcessGroups, b | perCoreCpu, b
  | collectDisks, b | dedupeDisks, b | collectNetworks, b | collectBattery, b
  | collectTemperatures, b | collectGpu, b | collectDrives, b => some (.boolean b)
  | processRefreshInterval, d | cpuFrequencyRefreshInterval, d | diskStorageRefreshInterval, d
  | diskIoRefreshInterval, d | networkRefreshInterval, d | batteryRefreshInterval, d
  | temperatureRefreshInterval, d | gpuRefreshInterval, d | driveRefreshInterval, d
  | collectTimeout, d => some (ofVisited (DurationSerde.serialize d))
  | maxProcesses, n => some (.integer (Int.ofNat n))
  | processBoostCpuCores, x => x.map .float
  | labels, m => some (ofMap .string m)

def read : (f : CollectorField) → Toml → Option f.type
  | collectProcesses, v | collectProcessDiskIo, v | collectProcessGroups, v | perCoreCpu, v
  | collectDisks, v | dedupeDisks, v | collectNetworks, v | collectBattery, v
  | collectTemperatures, v | collectGpu, v | collectDrives, v => v.bool
  | processRefreshInterval, v | cpuFrequencyRefreshInterval, v | diskStorageRefreshInterval, v
  | diskIoRefreshInterval, v | networkRefreshInterval, v | batteryRefreshInterval, v
  | temperatureRefreshInterval, v | gpuRefreshInterval, v | driveRefreshInterval, v
  | collectTimeout, v => v.duration
  | maxProcesses, v => v.usize
  | processBoostCpuCores, v => v.f32.map some
  | labels, v => v.map Toml.text

def shape : Fielded.Shape (CollectorConfig Number) CollectorField where
  type := type
  get := fun f c => f.get c
  put := fun f c x => f.put c x
  fields := [collectProcesses, processRefreshInterval, processBoostCpuCores, maxProcesses,
    collectProcessDiskIo, collectProcessGroups, perCoreCpu, cpuFrequencyRefreshInterval,
    collectDisks, diskStorageRefreshInterval, diskIoRefreshInterval, dedupeDisks,
    collectNetworks, networkRefreshInterval, collectBattery, batteryRefreshInterval,
    collectTemperatures, temperatureRefreshInterval, collectGpu, gpuRefreshInterval,
    collectDrives, driveRefreshInterval, collectTimeout, labels]
  get_put := fun f c x => f.get_put c x
  get_put_ne := fun f _ c x h => f.get_put_ne c h x
  nodup := by decide
  complete := by intro f; cases f <;> decide
  ext := fun _ _ => collector_ext

theorem key_injective : Function.Injective key := by
  intro f g h
  cases f <;> cases g <;> first | rfl | exact absurd h (by decide)

def codec : Fielded.Codec shape Toml := ⟨key, write, read, key_injective⟩

end CollectorField

/-- A field of the alerts section: a value, or a map of overrides. -/
abbrev AlertsEntry := AlertsField ⊕ OverrideMap

namespace AlertsEntry

def type : AlertsEntry → Type
  | .inl f => f.type
  | .inr _ => Overrides Number

def get (a : AlertsConfig Number Number) : (f : AlertsEntry) → type f
  | .inl f => f.get a
  | .inr m => m.get a

def put (a : AlertsConfig Number Number) : (f : AlertsEntry) → type f → AlertsConfig Number Number
  | .inl f, x => f.put a x
  | .inr m, x => m.put a x

def key : AlertsEntry → String
  | .inl .cpu => "cpu"
  | .inl .mem => "mem"
  | .inl .memBytes => "mem_bytes"
  | .inl .cooldown => "cooldown"
  | .inl .disk => "disk"
  | .inl .pressure => "pressure"
  | .inl .appCpu => "app_cpu"
  | .inl .appMem => "app_mem"
  | .inl .appMemBytes => "app_mem_bytes"
  | .inl .template => "template"
  | .inr .cpu => "cpu_overrides"
  | .inr .mem => "mem_overrides"
  | .inr .disk => "disk_overrides"
  | .inr .appCpu => "app_cpu_overrides"
  | .inr .appMem => "app_mem_overrides"

def write : (f : AlertsEntry) → type f → Option Toml
  | .inl .cpu, x | .inl .mem, x | .inl .disk, x | .inl .appCpu, x | .inl .appMem, x => x.map .float
  | .inl .memBytes, x | .inl .appMemBytes, x => x.map fun b => ofVisited (SizeSerde.serialize b)
  | .inl .cooldown, x => x.map fun d => ofVisited (DurationSerde.serialize d)
  | .inl .pressure, x => x.map ofPressure
  | .inl .template, x => x.map .boolean
  | .inr _, m => some (ofMap .float m)

def read : (f : AlertsEntry) → Toml → Option (type f)
  | .inl .cpu, v | .inl .disk, v | .inl .appCpu, v => v.f32.map some
  | .inl .mem, v | .inl .appMem, v => v.f64.map some
  | .inl .memBytes, v | .inl .appMemBytes, v => v.size.map some
  | .inl .cooldown, v => v.duration.map some
  | .inl .pressure, v => v.pressure.map some
  | .inl .template, v => v.bool.map some
  | .inr .cpu, v | .inr .disk, v | .inr .appCpu, v => v.map Toml.f32
  | .inr .mem, v | .inr .appMem, v => v.map Toml.f64

theorem get_put (a : AlertsConfig Number Number) (f : AlertsEntry) (x : type f) :
    get (put a f x) f = x := by
  cases f with
  | inl f => exact f.get_put a x
  | inr m => exact m.get_put a x

theorem get_put_ne (a : AlertsConfig Number Number) {f g : AlertsEntry} (h : g ≠ f) (x : type f) :
    get (put a f x) g = get a g := by
  cases f with
  | inl f => cases g with
    | inl g => exact f.get_put_ne a (fun hg => h (congrArg _ hg)) x
    | inr m => exact f.map_get_put a m x
  | inr m => cases g with
    | inl g => exact g.get_put_map a m x
    | inr n => exact m.get_put_ne a (fun hn => h (congrArg _ hn)) x

theorem ext {a a' : AlertsConfig Number Number} (h : ∀ f, get a f = get a' f) : a = a' := by
  apply alerts_ext
  · intro f
    exact h (.inl f)
  · intro m name
    exact congrArg (Finmap.lookup name) (h (.inr m))

theorem key_injective : Function.Injective key := by
  intro f g h
  rcases f with f | f <;> rcases g with g | g <;> cases f <;> cases g <;>
    first | rfl | exact absurd h (by decide)

def shape : Fielded.Shape (AlertsConfig Number Number) AlertsEntry where
  type := type
  get := fun f a => get a f
  put := fun f a x => put a f x
  fields := [.inl .cpu, .inl .mem, .inl .memBytes, .inl .cooldown, .inl .disk, .inl .pressure,
    .inl .appCpu, .inl .appMem, .inl .appMemBytes, .inl .template, .inr .cpu, .inr .mem,
    .inr .disk, .inr .appCpu, .inr .appMem]
  get_put := fun f a x => get_put a f x
  get_put_ne := fun _ _ a x h => get_put_ne a h x
  nodup := by decide
  complete := by intro f; rcases f with f | f <;> cases f <;> simp
  ext := fun _ _ => ext

def codec : Fielded.Codec shape Toml := ⟨key, write, read, key_injective⟩

end AlertsEntry

/-- The sections of a configuration; a collector section that is absent stays so. -/
def toToml (file : File) : Toml :=
  .table ((file.collector.toList.map fun c =>
      ("collector", .table (CollectorField.codec.encode c))) ++
    [("daemon", .table (DaemonField.codec.encode file.daemon)),
      ("alerts", .table (AlertsEntry.codec.encode file.alerts))])

/-- A section read over its defaults, which are all there is without one. -/
def readSection {ρ : Type} (decode : List (String × Toml) → Option ρ) (default : ρ)
    (entries : List (String × Toml)) (key : String) : Option ρ :=
  match entries.lookup key with
  | none => some default
  | some v => v.entries.bind decode

def readCollector (platform : Platform) (entries : List (String × Toml)) :
    Option (CollectorConfig Number) :=
  CollectorField.codec.decode (.default Number platform.windows) entries

def fromToml (platform : Platform) (v : Toml) : Option File := do
  let entries ← v.entries
  let default := FileConfig.default Number Number
  let collector ← readSection (fun entries => (readCollector platform entries).map some) none
    entries "collector"
  let daemon ← readSection (DaemonField.codec.decode default.daemon) default.daemon entries "daemon"
  let alerts ← readSection (AlertsEntry.codec.decode default.alerts) default.alerts entries "alerts"
  return ⟨collector, daemon, alerts⟩

end Fields

section Kept

/-- A file keeps whole milliseconds. -/
def DurationKept (d : ℕ) : Prop := ∃ ms : UInt64, d = ms.toNat * 1000000

def CountKept (n : ℕ) : Prop := n < 2 ^ 64

def SizeKept (b : ℕ) : Prop := ∃ v : UInt64, b = v.toNat

def SingleKept (x : Number) : Prop := FloatText.single.Holds x

def DaemonField.Kept : (f : DaemonField) → f.type → Prop
  | .interval, x | .history, x => ∀ d, x = some d → DurationKept d
  | .detach, _ => True

def CollectorField.Kept : (f : CollectorField) → f.type → Prop
  | .processRefreshInterval, d | .cpuFrequencyRefreshInterval, d | .diskStorageRefreshInterval, d
  | .diskIoRefreshInterval, d | .networkRefreshInterval, d | .batteryRefreshInterval, d
  | .temperatureRefreshInterval, d | .gpuRefreshInterval, d | .driveRefreshInterval, d
  | .collectTimeout, d => DurationKept d
  | .processBoostCpuCores, x => ∀ cores, x = some cores → SingleKept cores
  | .maxProcesses, n => CountKept n
  | _, _ => True

/-- Of a percentage in a map. -/
def OverrideMap.Kept : OverrideMap → Number → Prop
  | .cpu, pct | .disk, pct | .appCpu, pct => SingleKept pct
  | .mem, _ | .appMem, _ => True

def AlertsEntry.Kept : (f : AlertsEntry) → AlertsEntry.type f → Prop
  | .inl .cpu, x | .inl .disk, x | .inl .appCpu, x => ∀ pct, x = some pct → SingleKept pct
  | .inl .memBytes, x | .inl .appMemBytes, x => ∀ b, x = some b → SizeKept b
  | .inl .cooldown, x => ∀ d, x = some d → DurationKept d
  | .inr m, overrides => ∀ name pct, overrides.lookup name = some pct → m.Kept pct
  | _, _ => True

/-- A configuration all of whose values the file keeps. -/
structure Kept (file : File) : Prop where
  collector : ∀ c, file.collector = some c → ∀ f : CollectorField, f.Kept (f.get c)
  daemon : ∀ f : DaemonField, f.Kept (f.get file.daemon)
  alerts : ∀ f : AlertsEntry, f.Kept (f.get file.alerts)

theorem toNat_ofNat {n : ℕ} (h : n < 2 ^ 64) : (UInt64.ofNat n).toNat = n :=
  UInt64.toNat_ofNat_of_lt' h

theorem durationKept_zero : DurationKept 0 := ⟨0, rfl⟩

theorem durationKept_fromSecs {n : ℕ} (h : n * 1000 < 2 ^ 64) : DurationKept (fromSecs n) := by
  refine ⟨UInt64.ofNat (n * 1000), ?_⟩
  rw [toNat_ofNat h, fromSecs]
  omega

theorem duration_string (s : String) :
    (Toml.string s).duration = (parseDuration s).toOption := rfl

theorem size_string (s : String) : (Toml.string s).size = (parseSize s).toOption := rfl

theorem ofVisited_duration (d : ℕ) :
    ofVisited (DurationSerde.serialize d) = .string (formatDuration d) := rfl

theorem ofVisited_size (b : ℕ) :
    ofVisited (SizeSerde.serialize b) = .string (formatSize b) := rfl

theorem duration_back {d : ℕ} (h : DurationKept d) :
    (ofVisited (DurationSerde.serialize d)).duration = some d := by
  obtain ⟨ms, rfl⟩ := h
  rw [ofVisited_duration, duration_string, parseDuration_formatDuration, Except.toOption]

theorem size_back {b : ℕ} (h : SizeKept b) :
    (ofVisited (SizeSerde.serialize b)).size = some b := by
  obtain ⟨v, rfl⟩ := h
  rw [ofVisited_size, size_string, parseSize_formatSize, Except.toOption]

theorem f32_back {x : Number} (h : SingleKept x) : (Toml.float x).f32 = some x :=
  congrArg some h

theorem usize_back {n : ℕ} (h : CountKept n) : (Toml.integer (Int.ofNat n)).usize = some n := by
  rw [CountKept] at h
  have hrange : 0 ≤ (n : ℤ) ∧ (n : ℤ) < 2 ^ 64 := by omega
  simp only [Toml.usize, Int.ofNat_eq_natCast]
  rw [if_pos hrange, Int.toNat_natCast]

theorem pressure_back (p : PressureAlert) : (ofPressure p).pressure = some p := by
  cases p <;> decide

theorem parseDuration_kept {value : String} {d : ℕ} (h : parseDuration value = .ok d) :
    DurationKept d := by
  obtain ⟨n, f, -, -, rfl⟩ := parseDuration_ok.mp h
  refine ⟨UInt64.ofNat (n * f % 2 ^ 64), ?_⟩
  rw [toNat_ofNat (Nat.mod_lt _ (by decide))]

theorem parseSize_kept {value : String} {b : ℕ} (h : parseSize value = .ok b) : SizeKept b := by
  obtain ⟨n, f, -, hle, rfl⟩ := parseSize_ok.mp h
  refine ⟨UInt64.ofNat (n * f), ?_⟩
  rw [u64Max] at hle
  rw [toNat_ofNat (by omega)]

theorem toInt_lt (v : Int64) : v.toInt.toNat < 2 ^ 64 := by
  have h := Int64.toInt_lt v
  omega

theorem toOption_some {α : Type} {parsed : Except String α} {x : α}
    (h : parsed.toOption = some x) : parsed = .ok x := by
  cases parsed with
  | error e => cases h
  | ok y => rw [Option.some.inj h]

theorem duration_kept {v : Toml} {d : ℕ} (h : v.duration = some d) : DurationKept d := by
  obtain ⟨visited, -, hvisit⟩ := Option.bind_eq_some_iff.mp h
  have hok := toOption_some hvisit
  cases visited with
  | u64 n => exact ⟨n, (Except.ok.inj hok).symm⟩
  | str s => exact parseDuration_kept hok
  | i64 n =>
    rw [DurationSerde.visit] at hok
    split_ifs at hok
    refine ⟨UInt64.ofNat n.toInt.toNat, ?_⟩
    rw [toNat_ofNat (toInt_lt n)]
    exact (Except.ok.inj hok).symm

theorem size_kept {v : Toml} {b : ℕ} (h : v.size = some b) : SizeKept b := by
  obtain ⟨visited, -, hvisit⟩ := Option.bind_eq_some_iff.mp h
  have hok := toOption_some hvisit
  cases visited with
  | u64 n => exact ⟨n, (Except.ok.inj hok).symm⟩
  | str s => exact parseSize_kept hok
  | i64 n =>
    rw [SizeSerde.visit] at hok
    split_ifs at hok
    refine ⟨UInt64.ofNat n.toInt.toNat, ?_⟩
    rw [toNat_ofNat (toInt_lt n)]
    exact (Except.ok.inj hok).symm

theorem f32_kept {v : Toml} {x : Number} (h : v.f32 = some x) : SingleKept x := by
  cases v with
  | float y =>
    rw [← Option.some.inj h]
    exact FloatText.single.holds_cast (by decide) y
  | integer n =>
    rw [Toml.f32] at h
    split_ifs at h
    rw [← Option.some.inj h]
    exact FloatText.single.holds_cast (by decide) (.finite n)
  | string s => cases h
  | boolean b => cases h
  | table entries => cases h

theorem usize_kept {v : Toml} {n : ℕ} (h : v.usize = some n) : CountKept n := by
  cases v with
  | integer n =>
    rw [Toml.usize] at h
    split_ifs at h
    rw [← Option.some.inj h, CountKept]
    omega
  | float x => cases h
  | string s => cases h
  | boolean b => cases h
  | table entries => cases h

section Maps

variable {F : Type}

/-- What is written of a list item by item is read back so. -/
theorem mapM_back {α β : Type} {read : β → Option α} {write : α → β} {l : List α}
    (h : ∀ a ∈ l, read (write a) = some a) : (l.map write).mapM read = some l := by
  induction l with
  | nil => rfl
  | cons a l ih =>
    obtain ⟨ha, hl⟩ := List.forall_mem_cons.mp h
    simp [List.mapM_cons, ha, ih hl]

theorem mem_mapM {α β : Type} {g : α → Option β} {l : List α} {l' : List β}
    (h : l.mapM g = some l') {b : β} (hb : b ∈ l') : ∃ a ∈ l, g a = some b := by
  induction l generalizing l' with
  | nil =>
    obtain rfl : [] = l' := by simpa using h
    simp at hb
  | cons a l ih =>
    rw [List.mapM_cons] at h
    obtain ⟨b', hb', hothers⟩ := Option.bind_eq_some_iff.mp h
    obtain ⟨rest, hrest, hl'⟩ := Option.bind_eq_some_iff.mp hothers
    obtain rfl := Option.some.inj hl'
    rcases List.mem_cons.mp hb with rfl | hmem
    · exact ⟨a, List.mem_cons_self, hb'⟩
    · obtain ⟨a', ha', hg⟩ := ih hrest hmem
      exact ⟨a', List.mem_cons_of_mem a ha', hg⟩

/-- Entries inserted in order: what is found under a name is one of them, or was there before. -/
theorem lookup_insertAll (l : List (String × F)) (m : Overrides F) (name : String) :
    (∃ x, (name, x) ∈ l ∧
      (l.foldl (fun m entry => m.insert entry.1 entry.2) m).lookup name = some x) ∨
    (∀ x, (name, x) ∉ l) ∧
      (l.foldl (fun m entry => m.insert entry.1 entry.2) m).lookup name = m.lookup name := by
  induction l generalizing m with
  | nil => exact Or.inr ⟨by simp, rfl⟩
  | cons entry l ih =>
    rw [List.foldl_cons]
    rcases ih (m.insert entry.1 entry.2) with ⟨x, hx, hlookup⟩ | ⟨hnone, hlookup⟩
    · exact Or.inl ⟨x, List.mem_cons_of_mem _ hx, hlookup⟩
    · rw [hlookup]
      by_cases hname : name = entry.1
      · left
        refine ⟨entry.2, ?_, ?_⟩
        · simp [hname]
        · rw [hname, Finmap.lookup_insert]
      · right
        refine ⟨?_, Finmap.lookup_insert_of_ne m hname⟩
        intro x hx
        rcases List.mem_cons.mp hx with heq | hmem
        · exact hname (congrArg Prod.fst heq)
        · exact hnone x hmem

theorem insertAll_entries (m : Overrides F) :
    m.entries.foldl (fun m entry => m.insert entry.1 entry.2) ∅ = m := by
  apply Finmap.ext_lookup
  intro name
  rcases lookup_insertAll m.entries ∅ name with ⟨x, hx, hlookup⟩ | ⟨hnone, hlookup⟩
  · rw [hlookup, (m.mem_entries name x).mp hx]
  · rw [hlookup, Finmap.lookup_empty]
    cases hm : m.lookup name with
    | none => rfl
    | some x => exact absurd ((m.mem_entries name x).mpr hm) (hnone x)

/-- A map is read back if each of its values is. -/
theorem map_back {read : Toml → Option F} {write : F → Toml} {m : Overrides F}
    (h : ∀ name x, m.lookup name = some x → read (write x) = some x) :
    (ofMap write m).map read = some m := by
  have hread : (m.entries.map fun entry => (entry.1, write entry.2)).mapM
      (fun entry => (read entry.2).map fun x => (entry.1, x)) = some m.entries := by
    apply mapM_back
    intro entry hentry
    rw [h entry.1 entry.2 ((m.mem_entries _ _).mp hentry)]
    rfl
  rw [ofMap, Toml.map, hread]
  exact congrArg some (insertAll_entries m)

/-- What a map that is read holds was read of some value. -/
theorem map_read {read : Toml → Option F} {v : Toml} {m : Overrides F}
    (h : v.map read = some m) {name : String} {x : F} (hx : m.lookup name = some x) :
    ∃ v, read v = some x := by
  cases v with
  | table entries =>
    obtain ⟨l, hl, rfl⟩ := Option.map_eq_some_iff.mp h
    rcases lookup_insertAll l ∅ name with ⟨y, hy, hlookup⟩ | ⟨-, hlookup⟩
    · obtain rfl : y = x := Option.some.inj (hlookup.symm.trans hx)
      obtain ⟨entry, -, hentry⟩ := mem_mapM hl hy
      obtain ⟨z, hz, heq⟩ := Option.map_eq_some_iff.mp hentry
      rw [Prod.mk.injEq] at heq
      exact ⟨entry.2, by rw [hz, heq.2]⟩
    · rw [hlookup, Finmap.lookup_empty] at hx
      cases hx
  | string s => cases h
  | boolean b => cases h
  | integer n => cases h
  | float x => cases h

end Maps

section Each

variable {α : Type} {x : Option α} {v : Toml}

theorem option_back {write : α → Toml} {read : Toml → Option α} (hv : x.map write = some v)
    (h : ∀ a, x = some a → read (write a) = some a) : (read v).map some = some x := by
  obtain ⟨a, rfl, rfl⟩ := Option.map_eq_some_iff.mp hv
  rw [h a rfl]
  rfl

theorem option_kept {read : Toml → Option α} {P : α → Prop} (hx : (read v).map some = some x)
    (h : ∀ a, read v = some a → P a) : ∀ a, x = some a → P a := by
  obtain ⟨b, hb, rfl⟩ := Option.map_eq_some_iff.mp hx
  intro a ha
  obtain rfl := Option.some.inj ha
  exact h b hb

theorem DaemonField.back (f : DaemonField) {x : f.type} (hx : f.Kept x) {v : Toml}
    (hv : f.write x = some v) : f.read v = some x := by
  cases f with
  | interval => exact option_back hv fun d hd => duration_back (hx d hd)
  | history => exact option_back hv fun d hd => duration_back (hx d hd)
  | detach => exact option_back hv fun _ _ => rfl

theorem DaemonField.kept (f : DaemonField) {x : f.type} {v : Toml} (hx : f.read v = some x) :
    f.Kept x := by
  cases f with
  | interval => exact option_kept hx fun _ => duration_kept
  | history => exact option_kept hx fun _ => duration_kept
  | detach => trivial

theorem CollectorField.back (f : CollectorField) {x : f.type} (hx : f.Kept x) {v : Toml}
    (hv : f.write x = some v) : f.read v = some x := by
  cases f with
  | processBoostCpuCores => exact option_back hv fun cores hcores => f32_back (hx cores hcores)
  | maxProcesses =>
    have hback : (Toml.integer (Int.ofNat x)).usize = some x := usize_back hx
    rw [← Option.some.inj hv]
    exact hback
  | labels =>
    rw [← Option.some.inj hv]
    exact map_back fun _ _ _ => rfl
  | processRefreshInterval | cpuFrequencyRefreshInterval | diskStorageRefreshInterval
  | diskIoRefreshInterval | networkRefreshInterval | batteryRefreshInterval
  | temperatureRefreshInterval | gpuRefreshInterval | driveRefreshInterval | collectTimeout =>
    rw [← Option.some.inj hv]
    exact duration_back hx
  | _ =>
    rw [← Option.some.inj hv]
    rfl

theorem CollectorField.kept (f : CollectorField) {x : f.type} {v : Toml} (hx : f.read v = some x) :
    f.Kept x := by
  cases f with
  | processBoostCpuCores => exact option_kept hx fun _ => f32_kept
  | maxProcesses => exact usize_kept hx
  | processRefreshInterval | cpuFrequencyRefreshInterval | diskStorageRefreshInterval
  | diskIoRefreshInterval | networkRefreshInterval | batteryRefreshInterval
  | temperatureRefreshInterval | gpuRefreshInterval | driveRefreshInterval | collectTimeout =>
    exact duration_kept hx
  | _ => trivial

theorem AlertsEntry.back (f : AlertsEntry) {x : AlertsEntry.type f} (hx : f.Kept x) {v : Toml}
    (hv : f.write x = some v) : f.read v = some x := by
  rcases f with f | m
  · cases f with
    | cpu | disk | appCpu => exact option_back hv fun pct hpct => f32_back (hx pct hpct)
    | mem | appMem => exact option_back hv fun _ _ => rfl
    | memBytes | appMemBytes => exact option_back hv fun b hb => size_back (hx b hb)
    | cooldown => exact option_back hv fun d hd => duration_back (hx d hd)
    | pressure => exact option_back hv fun p _ => pressure_back p
    | template => exact option_back hv fun _ _ => rfl
  · rw [← Option.some.inj hv]
    cases m with
    | cpu | disk | appCpu => exact map_back fun name pct hpct => f32_back (hx name pct hpct)
    | mem | appMem => exact map_back fun _ _ _ => rfl

theorem AlertsEntry.kept (f : AlertsEntry) {x : AlertsEntry.type f} {v : Toml}
    (hx : f.read v = some x) : f.Kept x := by
  rcases f with f | m
  · cases f with
    | cpu | disk | appCpu => exact option_kept hx fun _ => f32_kept
    | memBytes | appMemBytes => exact option_kept hx fun _ => size_kept
    | cooldown => exact option_kept hx fun _ => duration_kept
    | mem | appMem | pressure | template => trivial
  · cases m with
    | cpu | disk | appCpu =>
      intro name pct hpct
      obtain ⟨v, hv⟩ := map_read hx hpct
      exact f32_kept hv
    | mem | appMem =>
      intro name pct hpct
      trivial

end Each

section Whole

variable {platform : Platform} {file : File}

theorem DaemonField.skipped (f : DaemonField) {x : f.type} (hx : f.write x = none) :
    x = f.get (FileConfig.default Number Number).daemon := by
  cases f <;> exact Option.map_eq_none_iff.mp hx

theorem CollectorField.skipped (windows : Bool) (f : CollectorField) {x : f.type}
    (hx : f.write x = none) : x = f.get (CollectorConfig.default Number windows) := by
  cases f with
  | processBoostCpuCores => exact Option.map_eq_none_iff.mp hx
  | _ => cases hx

theorem AlertsEntry.skipped (f : AlertsEntry) {x : AlertsEntry.type f} (hx : f.write x = none) :
    x = AlertsEntry.get (FileConfig.default Number Number).alerts f := by
  rcases f with f | m
  · cases f <;> exact Option.map_eq_none_iff.mp hx
  · cases hx

theorem collector_back {c : CollectorConfig Number} (h : ∀ f : CollectorField, f.Kept (f.get c)) :
    readCollector platform (CollectorField.codec.encode c) = some c :=
  Fielded.Codec.decode_encode (fun f _ hv => f.back (h f) hv) fun f hf => f.skipped _ hf

theorem daemon_back (h : ∀ f : DaemonField, f.Kept (f.get file.daemon)) :
    DaemonField.codec.decode (FileConfig.default Number Number).daemon
      (DaemonField.codec.encode file.daemon) = some file.daemon :=
  Fielded.Codec.decode_encode (fun f _ hv => f.back (h f) hv) fun f hf => f.skipped hf

theorem alerts_back (h : ∀ f : AlertsEntry, f.Kept (f.get file.alerts)) :
    AlertsEntry.codec.decode (FileConfig.default Number Number).alerts
      (AlertsEntry.codec.encode file.alerts) = some file.alerts :=
  Fielded.Codec.decode_encode (fun f _ hv => f.back (h f) hv) fun f hf => f.skipped hf

/-- A configuration that the file keeps is read back as it was written, an absent collector
section as absent. -/
theorem fromToml_toToml (h : Kept file) : fromToml platform (toToml file) = some file := by
  have hdaemon := daemon_back h.daemon
  have halerts := alerts_back h.alerts
  cases hcollector : file.collector with
  | none =>
    simp [fromToml, toToml, hcollector, Toml.entries, readSection, List.lookup_cons, hdaemon,
      halerts]
    rw [← hcollector]
  | some c =>
    have hback := @collector_back platform c (h.collector c hcollector)
    simp [fromToml, toToml, hcollector, Toml.entries, readSection, List.lookup_cons, hback, hdaemon,
      halerts]
    rw [← hcollector]

theorem collector_kept {c : CollectorConfig Number} (hboost : c.processBoostCpuCores = none)
    (hmax : CountKept c.maxProcesses)
    (h : ∀ d ∈ [c.processRefreshInterval, c.cpuFrequencyRefreshInterval,
      c.diskStorageRefreshInterval, c.diskIoRefreshInterval, c.networkRefreshInterval,
      c.batteryRefreshInterval, c.temperatureRefreshInterval, c.gpuRefreshInterval,
      c.driveRefreshInterval, c.collectTimeout], DurationKept d) (f : CollectorField) :
    f.Kept (f.get c) := by
  cases f with
  | processBoostCpuCores =>
    intro cores hcores
    rw [CollectorField.get, hboost] at hcores
    cases hcores
  | maxProcesses => exact hmax
  | processRefreshInterval => exact h c.processRefreshInterval (by simp)
  | cpuFrequencyRefreshInterval => exact h c.cpuFrequencyRefreshInterval (by simp)
  | diskStorageRefreshInterval => exact h c.diskStorageRefreshInterval (by simp)
  | diskIoRefreshInterval => exact h c.diskIoRefreshInterval (by simp)
  | networkRefreshInterval => exact h c.networkRefreshInterval (by simp)
  | batteryRefreshInterval => exact h c.batteryRefreshInterval (by simp)
  | temperatureRefreshInterval => exact h c.temperatureRefreshInterval (by simp)
  | gpuRefreshInterval => exact h c.gpuRefreshInterval (by simp)
  | driveRefreshInterval => exact h c.driveRefreshInterval (by simp)
  | collectTimeout => exact h c.collectTimeout (by simp)
  | _ => trivial

theorem defaultCollector_kept (windows : Bool) (f : CollectorField) :
    f.Kept (f.get (CollectorConfig.default Number windows)) := by
  have hsecs : ∀ n ∈ [2, 10, 15, 30, 60], DurationKept (fromSecs n) := by
    intro n hn
    apply durationKept_fromSecs
    simp only [List.mem_cons, List.not_mem_nil, or_false] at hn
    omega
  apply collector_kept
  · rw [CollectorConfig.default]
  · rw [CollectorConfig.default, CountKept]
    norm_num
  · rw [CollectorConfig.default]
    simp [durationKept_zero, hsecs]

theorem default_kept : Kept (FileConfig.default Number Number) where
  collector := by
    intro c hc
    cases hc
  daemon := by
    intro f
    cases f <;> simp [DaemonField.Kept, DaemonField.get, FileConfig.default]
  alerts := by
    intro f
    rcases f with f | m
    · cases f <;>
        simp [AlertsEntry.Kept, AlertsEntry.get, AlertsField.get, FileConfig.default]
    · cases m <;>
        simp [AlertsEntry.Kept, AlertsEntry.get, OverrideMap.get, FileConfig.default]

theorem readSection_some {ρ : Type} {decode : List (String × Toml) → Option ρ} {default r : ρ}
    {entries : List (String × Toml)} {key : String}
    (h : readSection decode default entries key = some r) :
    r = default ∨ ∃ entries, decode entries = some r := by
  rw [readSection] at h
  cases hlookup : entries.lookup key with
  | none =>
    rw [hlookup] at h
    exact Or.inl (Option.some.inj h).symm
  | some v =>
    rw [hlookup] at h
    obtain ⟨inner, -, hdecode⟩ := Option.bind_eq_some_iff.mp h
    exact Or.inr ⟨inner, hdecode⟩

theorem readCollector_kept {entries : List (String × Toml)} {c : CollectorConfig Number}
    (h : readCollector platform entries = some c) (f : CollectorField) : f.Kept (f.get c) :=
  Fielded.Codec.decode_forall h (P := fun f x => f.Kept x)
    (defaultCollector_kept platform.windows) (fun f _ _ hx => f.kept hx) f

/-- Whatever is read from a file is kept by it. -/
theorem fromToml_kept {v : Toml} (h : fromToml platform v = some file) : Kept file := by
  obtain ⟨entries, -, hsections⟩ := Option.bind_eq_some_iff.mp h
  obtain ⟨collector, hcollector, hsections⟩ := Option.bind_eq_some_iff.mp hsections
  obtain ⟨daemon, hdaemon, hsections⟩ := Option.bind_eq_some_iff.mp hsections
  obtain ⟨alerts, halerts, hfile⟩ := Option.bind_eq_some_iff.mp hsections
  obtain rfl := Option.some.inj hfile
  constructor
  · intro c hc
    rcases readSection_some hcollector with hnone | ⟨inner, hinner⟩
    · rw [hnone] at hc
      cases hc
    · obtain ⟨c', hread, hsame⟩ := Option.map_eq_some_iff.mp hinner
      obtain rfl : c' = c := Option.some.inj (hsame.trans hc)
      exact readCollector_kept hread
  · rcases readSection_some hdaemon with rfl | ⟨inner, hinner⟩
    · exact default_kept.daemon
    · exact Fielded.Codec.decode_forall hinner (P := fun f x => f.Kept x) default_kept.daemon
        fun f _ _ hx => f.kept hx
  · rcases readSection_some halerts with rfl | ⟨inner, hinner⟩
    · exact default_kept.alerts
    · exact Fielded.Codec.decode_forall hinner (P := fun f x => f.Kept x) default_kept.alerts
        fun f _ _ hx => f.kept hx

end Whole

end Kept

end Settings

end Zstats
