import Mathlib.Data.List.Sort
import Zstats.Collector.Rate
import Zstats.Framework.Diffing

namespace Zstats

section Gpus

structure GpuSample where
  name : String
  cores : Option ℕ
  utilizationPercent : ℚ
  rendererUtilizationPercent : Option ℚ
  tilerUtilizationPercent : Option ℚ
  memoryInUseBytes : Option ℕ
  memoryAllocatedBytes : Option ℕ
  deriving DecidableEq, Repr

structure GpuSnapshot where
  name : String
  cores : Option ℕ
  utilizationPercent : ℚ
  rendererUtilizationPercent : Option ℚ
  tilerUtilizationPercent : Option ℚ
  memoryInUseBytes : Option ℕ
  memoryAllocatedBytes : Option ℕ
  deriving DecidableEq, Repr

def gpuSnapshot (sample : GpuSample) : GpuSnapshot where
  name := sample.name
  cores := sample.cores
  utilizationPercent := sample.utilizationPercent
  rendererUtilizationPercent := sample.rendererUtilizationPercent
  tilerUtilizationPercent := sample.tilerUtilizationPercent
  memoryInUseBytes := sample.memoryInUseBytes
  memoryAllocatedBytes := sample.memoryAllocatedBytes

structure GpuChannel where
  collectGpu : Bool
  lastGpuRefresh : Option ℕ
  cachedGpus : Option (List GpuSnapshot)

/-- One call: the switches set before it, the clock, and what `ioreg::gpus()` answers if asked. -/
structure GpuRound where
  switches : List Bool
  now : ℕ
  read : Option (List GpuSample)

namespace GpuChannel

def new (collectGpu : Bool) : GpuChannel := ⟨collectGpu, none, none⟩

def setCollectGpu (s : GpuChannel) (on : Bool) : GpuChannel :=
  if s.collectGpu = on then s else ⟨on, none, none⟩

def collectGpus (interval : ℕ) (s : GpuChannel) (r : GpuRound) :
    GpuChannel × Option (List GpuSnapshot) :=
  if !s.collectGpu then (s, none)
  else if !due interval s.lastGpuRefresh r.now then (s, s.cachedGpus)
  else
    let gpus := r.read.map (List.map gpuSnapshot)
    ({ s with lastGpuRefresh := some r.now, cachedGpus := gpus }, gpus)

/-- The switches of the round, and its collect. -/
def turn (interval : ℕ) (s : GpuChannel) (r : GpuRound) :
    GpuChannel × Option (List GpuSnapshot) :=
  collectGpus interval (r.switches.foldl setCollectGpu s) r

end GpuChannel

end Gpus

section Battery

/-- What the battery library tells of one battery, in its own units. -/
structure Battery where
  state : String
  stateOfCharge : ℚ
  stateOfHealth : ℚ
  cycleCount : Option ℕ
  temperature : Option ℚ
  energyRate : ℚ
  timeToFull : Option ℚ
  timeToEmpty : Option ℚ
  deriving DecidableEq, Repr

structure BatterySnapshot where
  state : String
  chargePercent : ℚ
  healthPercent : Option ℚ
  cycleCount : Option ℕ
  temperatureCelsius : Option ℚ
  powerWatts : Option ℚ
  timeToFullSecs : Option ℕ
  timeToEmptySecs : Option ℕ
  deriving DecidableEq, Repr

/-- The library reports ratios and Kelvin. -/
def batterySnapshot (b : Battery) : BatterySnapshot where
  state := b.state
  chargePercent := b.stateOfCharge * 100
  healthPercent := some (b.stateOfHealth * 100)
  cycleCount := b.cycleCount
  temperatureCelsius := b.temperature.map fun t => t - 273.15
  powerWatts := some b.energyRate
  timeToFullSecs := b.timeToFull.map asU64
  timeToEmptySecs := b.timeToEmpty.map asU64

structure BatteryChannel where
  batteryManager : Bool
  lastBatteryRefresh : Option ℕ
  cachedBattery : Option BatterySnapshot

/-- One call: the clock, and what the manager lists, each battery read or failed. -/
structure BatteryRound where
  now : ℕ
  batteries : Option (List (Option Battery))

namespace BatteryChannel

def new (batteryManager : Bool) : BatteryChannel := ⟨batteryManager, none, none⟩

def collectBattery (interval : ℕ) (s : BatteryChannel) (r : BatteryRound) :
    BatteryChannel × Option BatterySnapshot :=
  if !s.batteryManager then (s, none)
  else if !due interval s.lastBatteryRefresh r.now then (s, s.cachedBattery)
  else
    let s := { s with lastBatteryRefresh := some r.now }
    match r.batteries with
    -- the two `?` leave the function with the time noted and the cache as it was
    | none => (s, none)
    | some [] => (s, none)
    | some (first :: _) =>
      let battery := first.map batterySnapshot
      ({ s with cachedBattery := battery }, battery)

end BatteryChannel

end Battery

section Temperatures

/-- A 32-bit float as a sensor reports it. -/
inductive Reading where
  | finite (x : ℚ)
  | infinite (negative : Bool)
  | nan
  deriving DecidableEq, Repr

structure Component where
  label : String
  temperature : Option Reading
  max : Option Reading
  critical : Option Reading
  deriving DecidableEq, Repr

structure TemperatureSnapshot where
  label : String
  celsius : ℚ
  maxCelsius : Option ℚ
  criticalCelsius : Option ℚ
  deriving DecidableEq, Repr

def tempCelsiusMin : ℚ := -20

def tempCelsiusMax : ℚ := 150

/-- The reading, if `is_plausible_celsius` lets it pass. -/
def plausibleCelsius : Reading → Option ℚ
  | .finite t => if tempCelsiusMin ≤ t ∧ t ≤ tempCelsiusMax then some t else none
  | .infinite _ => none
  | .nan => none

def temperatureSnapshot (c : Component) : Option TemperatureSnapshot :=
  (c.temperature.bind plausibleCelsius).map fun celsius =>
    { label := c.label
      celsius := celsius
      maxCelsius := c.max.bind plausibleCelsius
      criticalCelsius := c.critical.bind plausibleCelsius }

structure TemperatureChannel where
  lastTemperatureRefresh : Option ℕ
  cachedTemperatures : Option (List TemperatureSnapshot)

structure TemperatureConfig where
  collectTemperatures : Bool
  temperatureRefreshInterval : ℕ

structure TemperatureRound where
  span : Diffing.Span
  components : List Component

namespace TemperatureChannel

def new : TemperatureChannel := ⟨none, none⟩

def collectTemperatures (config : TemperatureConfig) (s : TemperatureChannel)
    (r : TemperatureRound) : TemperatureChannel × Option (List TemperatureSnapshot) :=
  if !config.collectTemperatures then (s, none)
  else if !due config.temperatureRefreshInterval s.lastTemperatureRefresh r.span.start then
    (s, s.cachedTemperatures)
  else
    -- hottest first
    let sensors := (r.components.filterMap temperatureSnapshot).insertionSort fun a b =>
      b.celsius ≤ a.celsius
    ({ lastTemperatureRefresh := some r.span.finish
       cachedTemperatures := some sensors }, some sensors)

end TemperatureChannel

end Temperatures

end Zstats
