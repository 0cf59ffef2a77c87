import Zstats.Collector.DiskRates
import Zstats.Collector.Drives
import Zstats.Collector.Gauges
import Zstats.Collector.NetworkRates
import Zstats.Framework.Throttled

namespace Zstats

open Diffing Throttled

/-- A channel that is not due has read before. -/
theorem primed_of_not_due {interval now : ℕ} {last : Option ℕ} (h : due interval last now = false) :
    last.isSome := by
  cases last with
  | none => simp [due] at h
  | some t => rfl

/-- The due test that every channel starts with. -/
theorem channel_of_guard {σ ι V : Type*} {collect : σ → ι → σ × Option V} {cache : σ → Option V}
    {last : σ → Option ℕ} {on : σ → ι → Bool} {interval : ℕ} {now : ι → ℕ}
    {refresh : σ → ι → σ × Option V}
    (h : ∀ s i, collect s i = if !on s i then (s, none)
      else if !due interval (last s) (now i) then (s, cache s) else refresh s i) :
    Channel collect cache (fun s => (last s).isSome) (fun s i => on s i = true)
      (fun s i => on s i = true ∧ due interval (last s) (now i) = true) where
  kept := by
    intro s i hs
    rw [h]
    rcases off_or_not_due hs with hoff | ⟨hon, hdue⟩
    · rw [hoff]
      rfl
    · rw [hon, hdue]
      rfl
  answer := by
    intro s i hon hs
    have hdue : due interval (last s) (now i) = false := by
      rw [← Bool.not_eq_true]
      exact fun hdue => hs ⟨hon, hdue⟩
    rw [h, hon, hdue]
    exact ⟨primed_of_not_due hdue, rfl⟩

section Gpus

variable (interval : ℕ) (collect : Bool) (x : ℕ → GpuRound)

/-- The channel as round `n` collects, its switches set. -/
def gpuChannel (n : ℕ) : GpuChannel :=
  (x n).switches.foldl GpuChannel.setCollectGpu
    (Machine.stateAt (GpuChannel.turn interval) (GpuChannel.new collect) x n)

def gpuOutput : ℕ → Option (List GpuSnapshot) :=
  Machine.outAt (GpuChannel.turn interval) (GpuChannel.new collect) x

def GpusEnabled (n : ℕ) : Prop := (gpuChannel interval collect x n).collectGpu = true

def GpusDue (n : ℕ) : Prop :=
  GpusEnabled interval collect x n ∧
    due interval (gpuChannel interval collect x n).lastGpuRefresh (x n).now = true

theorem gpu_channel : Channel (GpuChannel.collectGpus interval) GpuChannel.cachedGpus
    (fun s => s.lastGpuRefresh.isSome) (fun s _ => s.collectGpu = true)
    (fun s r => s.collectGpu = true ∧ due interval s.lastGpuRefresh r.now = true) :=
  channel_of_guard fun _ _ => rfl

theorem setCollectGpu_cases (s : GpuChannel) (on : Bool) :
    s.setCollectGpu on = s ∨ ¬ (s.setCollectGpu on).lastGpuRefresh.isSome := by
  rw [GpuChannel.setCollectGpu]
  split
  · exact Or.inl rfl
  · exact Or.inr nofun

theorem collectGpus_caches (s : GpuChannel) (r : GpuRound)
    (h : s.collectGpu = true ∧ due interval s.lastGpuRefresh r.now = true) :
    (s.collectGpus interval r).1.cachedGpus = (s.collectGpus interval r).2 := by
  simp [GpuChannel.collectGpus, h.1, h.2]

theorem gpus_present : PresentsLatest (GpusEnabled interval collect x)
    (GpusDue interval collect x) (gpuOutput interval collect x) := by
  have hswitch : ∀ (s : GpuChannel) (r : GpuRound),
      r.switches.foldl GpuChannel.setCollectGpu s = s ∨
        ¬ (r.switches.foldl GpuChannel.setCollectGpu s).lastGpuRefresh.isSome := by
    intro s r
    exact switched_cases (fun s => s.lastGpuRefresh.isSome) setCollectGpu_cases r.switches s
  exact (gpu_channel interval).presentsLatest (collectGpus_caches interval) hswitch
    (GpuChannel.new collect) nofun x

end Gpus

section Drives

/-- One call: the switches set before it, and the round itself. -/
structure DriveTurn where
  switches : List Bool
  round : DriveRound

def DriveChannel.turn (interval : ℕ) (s : DriveChannel) (t : DriveTurn) :
    DriveChannel × Option (List DriveSnapshot) :=
  collectDrives interval (t.switches.foldl setCollectDrives s) t.round

variable (interval : ℕ) (collect : Bool) (x : ℕ → DriveTurn)

/-- The channel as round `n` collects, its switches set. -/
def switchedDrives (n : ℕ) : DriveChannel :=
  (x n).switches.foldl DriveChannel.setCollectDrives
    (Machine.stateAt (DriveChannel.turn interval) (DriveChannel.new collect) x n)

def switchedDriveOutput : ℕ → Option (List DriveSnapshot) :=
  Machine.outAt (DriveChannel.turn interval) (DriveChannel.new collect) x

def DrivesEnabled (n : ℕ) : Prop := (switchedDrives interval collect x n).collect = true

def DrivesDue (n : ℕ) : Prop :=
  (switchedDrives interval collect x n).Reads interval (x n).round

theorem drive_channel :
    Channel (fun s t => DriveChannel.collectDrives interval s t.round) DriveChannel.cached
      (fun s => s.lastRefresh.isSome) (fun s _ => s.collect = true)
      (fun s (t : DriveTurn) => s.collect = true ∧
        due interval s.lastRefresh t.round.now = true) :=
  channel_of_guard fun _ _ => rfl

theorem setCollectDrives_cases (s : DriveChannel) (on : Bool) :
    s.setCollectDrives on = s ∨ ¬ (s.setCollectDrives on).lastRefresh.isSome := by
  rw [DriveChannel.setCollectDrives]
  split
  · exact Or.inl rfl
  · exact Or.inr nofun

theorem collectDrives_caches (s : DriveChannel) (t : DriveTurn)
    (h : s.collect = true ∧ due interval s.lastRefresh t.round.now = true) :
    (s.collectDrives interval t.round).1.cached = (s.collectDrives interval t.round).2 := by
  rw [DriveChannel.collectDrives]
  cases t.round.read <;> simp [h.1, h.2]

theorem drives_present : PresentsLatest (DrivesEnabled interval collect x)
    (DrivesDue interval collect x) (switchedDriveOutput interval collect x) := by
  have hswitch : ∀ (s : DriveChannel) (t : DriveTurn),
      t.switches.foldl DriveChannel.setCollectDrives s = s ∨
        ¬ (t.switches.foldl DriveChannel.setCollectDrives s).lastRefresh.isSome := by
    intro s t
    exact switched_cases (fun s => s.lastRefresh.isSome) setCollectDrives_cases t.switches s
  exact (drive_channel interval).presentsLatest (collectDrives_caches interval) hswitch
    (DriveChannel.new collect) nofun x

end Drives

section Unswitched

/-! The temperature, disk and network channels have no switch. -/

variable (temperatureConfig : TemperatureConfig) (temperatures : ℕ → TemperatureRound)

def temperatureOutput : ℕ → Option (List TemperatureSnapshot) :=
  Machine.outAt (TemperatureChannel.collectTemperatures temperatureConfig)
    TemperatureChannel.new temperatures

def TemperaturesDue (n : ℕ) : Prop :=
  temperatureConfig.collectTemperatures = true ∧
    due temperatureConfig.temperatureRefreshInterval
      (Machine.stateAt (TemperatureChannel.collectTemperatures temperatureConfig)
        TemperatureChannel.new temperatures n).lastTemperatureRefresh
      (temperatures n).span.start = true

theorem temperatures_present :
    PresentsLatest (fun _ => temperatureConfig.collectTemperatures = true)
      (TemperaturesDue temperatureConfig temperatures)
      (temperatureOutput temperatureConfig temperatures) := by
  have hchannel : Channel (TemperatureChannel.collectTemperatures temperatureConfig)
      TemperatureChannel.cachedTemperatures (fun s => s.lastTemperatureRefresh.isSome)
      (fun _ _ => temperatureConfig.collectTemperatures = true)
      (fun s r => temperatureConfig.collectTemperatures = true ∧
        due temperatureConfig.temperatureRefreshInterval s.lastTemperatureRefresh
          r.span.start = true) := channel_of_guard fun _ _ => rfl
  apply hchannel.presentsLatest _ (fun s _ => Or.inl rfl) TemperatureChannel.new nofun temperatures
  intro s r h
  simp [TemperatureChannel.collectTemperatures, h.1, h.2]

variable (diskConfig : DiskConfig) (started : ℕ) (mounted : List Disk) (disks : ℕ → DiskRound)

theorem disks_present :
    PresentsLatest (fun _ => diskConfig.collectDisks = true)
      (DisksRefreshed diskConfig started mounted disks)
      (diskOutput diskConfig started mounted disks) := by
  have hchannel : Channel (DiskChannel.collectDisks diskConfig)
      DiskChannel.cachedDisks (fun s => s.lastDiskIoRefresh.isSome)
      (fun _ _ => diskConfig.collectDisks = true)
      (fun s r => diskConfig.collectDisks = true ∧
        due diskConfig.diskIoRefreshInterval s.lastDiskIoRefresh r.span.start = true) :=
    channel_of_guard fun _ _ => rfl
  apply hchannel.presentsLatest _ (fun s _ => Or.inl rfl)
    (DiskChannel.new diskConfig started mounted) nofun disks
  intro s r h
  exact (collectDisks_refreshed diskConfig h).2.2.1

variable (networkConfig : NetworkConfig) (networks : ℕ → NetworkRound)

theorem networks_present :
    PresentsLatest (fun _ => networkConfig.collectNetworks = true)
      (NetworksRefreshed networkConfig networks) (networkOutput networkConfig networks) := by
  have hchannel : Channel (NetworkChannel.collectNetworks networkConfig)
      NetworkChannel.cachedNetworks (fun s => s.lastNetworkRefresh.isSome)
      (fun _ _ => networkConfig.collectNetworks = true)
      (fun s r => networkConfig.collectNetworks = true ∧
        due networkConfig.networkRefreshInterval s.lastNetworkRefresh r.span.start = true) :=
    channel_of_guard fun _ _ => rfl
  apply hchannel.presentsLatest _ (fun s _ => Or.inl rfl) NetworkChannel.new nofun networks
  intro s r h
  simp [NetworkChannel.collectNetworks, h.1, h.2]

end Unswitched

section Battery

variable (interval : ℕ) (manager : Bool) (x : ℕ → BatteryRound)

def batteryChannel (n : ℕ) : BatteryChannel :=
  Machine.stateAt (BatteryChannel.collectBattery interval) (BatteryChannel.new manager) x n

def batteryOutput : ℕ → Option BatterySnapshot :=
  Machine.outAt (BatteryChannel.collectBattery interval) (BatteryChannel.new manager) x

def BatteryEnabled (n : ℕ) : Prop := (batteryChannel interval manager x n).batteryManager = true

def BatteryDue (n : ℕ) : Prop :=
  BatteryEnabled interval manager x n ∧
    due interval (batteryChannel interval manager x n).lastBatteryRefresh (x n).now = true

instance (n : ℕ) : Decidable (BatteryDue interval manager x n) :=
  inferInstanceAs (Decidable (_ = true ∧ _))

/-- The batteries cannot be listed, or there is none. -/
def BatteryRound.LeavesEarly (r : BatteryRound) : Prop := r.batteries.getD [] = []

/-- A read answers what it leaves in the cache, unless it leaves early and there is a sample. -/
theorem collectBattery_caches_iff {s : BatteryChannel} {r : BatteryRound}
    (h : s.batteryManager = true ∧ due interval s.lastBatteryRefresh r.now = true) :
    (s.collectBattery interval r).1.cachedBattery = (s.collectBattery interval r).2 ↔
      (r.LeavesEarly → s.cachedBattery = none) := by
  unfold BatteryChannel.collectBattery BatteryRound.LeavesEarly
  simp only [h.1, h.2, Bool.not_true, Bool.false_eq_true, if_false]
  cases r.batteries with
  | none => simp
  | some batteries => cases batteries <;> simp

variable {interval manager x}

theorem battery_answered {n : ℕ} (hn : BatteryEnabled interval manager x n)
    (hdue : ¬ BatteryDue interval manager x n) :
    ∃ m, Preceding (BatteryDue interval manager x) m n ∧ batteryOutput interval manager x n =
      (batteryChannel interval manager x (m + 1)).cachedBattery := by
  have hchannel : Channel (BatteryChannel.collectBattery interval) BatteryChannel.cachedBattery
      (fun s => s.lastBatteryRefresh.isSome) (fun s _ => s.batteryManager = true)
      (fun s r => s.batteryManager = true ∧ due interval s.lastBatteryRefresh r.now = true) :=
    channel_of_guard fun _ _ => rfl
  have hrun := hchannel.caching (fun s _ => Or.inl rfl) (BatteryChannel.new manager) nofun x
  exact hrun.answered hn hdue

theorem battery_presents_iff :
    PresentsLatest (BatteryEnabled interval manager x) (BatteryDue interval manager x)
      (batteryOutput interval manager x) ↔
    ∀ m n, Preceding (BatteryDue interval manager x) m n → BatteryEnabled interval manager x n →
      ¬ BatteryDue interval manager x n → (x m).LeavesEarly →
        (batteryChannel interval manager x m).cachedBattery = none := by
  constructor
  · intro hpresents m n hm hn hdue
    obtain ⟨k, hk, hlatest⟩ := hpresents n hn hdue
    obtain ⟨l, hl, hcached⟩ := battery_answered hn hdue
    rw [hk.unique hm] at hlatest
    rw [hl.unique hm] at hcached
    exact (collectBattery_caches_iff interval hm.ran).mp (hcached.symm.trans hlatest)
  · intro h n hn hdue
    obtain ⟨m, hm, hcached⟩ := battery_answered hn hdue
    have hread := (collectBattery_caches_iff interval hm.ran).mpr (h m n hm hn hdue)
    exact ⟨m, hm, hcached.trans hread⟩

end Battery

/-- Every channel with a cadence presents its latest read. The battery does if and only if no read
that finds nothing is followed by a round that is not due while a sample is left. -/
theorem latest_reads_presented (gpuInterval driveInterval batteryInterval : ℕ)
    (collectGpu collectDrives manager : Bool) (gpus : ℕ → GpuRound) (drives : ℕ → DriveTurn)
    (batteries : ℕ → BatteryRound) (temperatureConfig : TemperatureConfig)
    (temperatures : ℕ → TemperatureRound) (diskConfig : DiskConfig) (started : ℕ)
    (mounted : List Disk) (disks : ℕ → DiskRound) (networkConfig : NetworkConfig)
    (networks : ℕ → NetworkRound) :
    PresentsLatest (GpusEnabled gpuInterval collectGpu gpus)
      (GpusDue gpuInterval collectGpu gpus) (gpuOutput gpuInterval collectGpu gpus) ∧
    PresentsLatest (DrivesEnabled driveInterval collectDrives drives)
      (DrivesDue driveInterval collectDrives drives)
      (switchedDriveOutput driveInterval collectDrives drives) ∧
    PresentsLatest (fun _ => temperatureConfig.collectTemperatures = true)
      (TemperaturesDue temperatureConfig temperatures)
      (temperatureOutput temperatureConfig temperatures) ∧
    PresentsLatest (fun _ => diskConfig.collectDisks = true)
      (DisksRefreshed diskConfig started mounted disks)
      (diskOutput diskConfig started mounted disks) ∧
    PresentsLatest (fun _ => networkConfig.collectNetworks = true)
      (NetworksRefreshed networkConfig networks) (networkOutput networkConfig networks) ∧
    (PresentsLatest (BatteryEnabled batteryInterval manager batteries)
      (BatteryDue batteryInterval manager batteries)
      (batteryOutput batteryInterval manager batteries) ↔
    ∀ m n, Preceding (BatteryDue batteryInterval manager batteries) m n →
      BatteryEnabled batteryInterval manager batteries n →
      ¬ BatteryDue batteryInterval manager batteries n → (batteries m).LeavesEarly →
        (batteryChannel batteryInterval manager batteries m).cachedBattery = none) :=
  ⟨gpus_present gpuInterval collectGpu gpus, drives_present driveInterval collectDrives drives,
    temperatures_present temperatureConfig temperatures,
    disks_present diskConfig started mounted disks, networks_present networkConfig networks,
    battery_presents_iff⟩

/-- A battery at 80 percent that is gone at 30 s, and a call a second later. -/
def detached : ℕ → BatteryRound
  | 0 => ⟨0, some [some ⟨"Discharging", 4 / 5, 1, none, none, 10, none, none⟩]⟩
  | 1 => ⟨fromSecs 30, some []⟩
  | _ => ⟨fromSecs 31, some []⟩

/-- The battery is back, a second after there was none. -/
theorem detached_returns :
    (List.range 3).map (fun n =>
      (batteryOutput (fromSecs 30) true detached n).map (·.chargePercent)) =
        [some 80, none, some 80] ∧
    ¬ PresentsLatest (BatteryEnabled (fromSecs 30) true detached)
      (BatteryDue (fromSecs 30) true detached) (batteryOutput (fromSecs 30) true detached) := by
  refine ⟨by decide +kernel, ?_⟩
  rw [battery_presents_iff]
  intro h
  have hpreceding : Preceding (BatteryDue (fromSecs 30) true detached) 1 2 :=
    ⟨by decide, by decide, by omega⟩
  have hnone := h 1 2 hpreceding rfl (by decide) rfl
  exact absurd hnone (by decide)

end Zstats
