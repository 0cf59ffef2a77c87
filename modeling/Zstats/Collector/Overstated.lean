import Zstats.Collector.DiskRates
import Zstats.Collector.NetworkRates
import Zstats.Collector.ProcessRates

namespace Zstats

open Diffing

theorem percent_exceeds {elapsed window : ℕ} (hms : 1000000 ≤ elapsed) (hw : elapsed < window) :
    ∃ cores prev curr, 0 ≤ cores ∧ prev.startTimeSecs = curr.startTimeSecs ∧
      (curr.cpuTimeMs : ℚ) - prev.cpuTimeMs ≤ cores * (secs window * 1000) ∧
      100 * cores < percentBetween prev curr elapsed := by
  have helapsed : (1000000 : ℚ) ≤ elapsed := by exact_mod_cast hms
  have hwindow : (elapsed : ℚ) < window := by exact_mod_cast hw
  have hlong : ¬ secs elapsed * 1000 < 1 := by
    unfold secs
    linarith
  refine ⟨1000000, ⟨0, 0⟩, ⟨window, 0⟩, by norm_num, rfl, ?_, ?_⟩
  · unfold secs
    push_cast
    linarith
  · have hpos : (0 : ℚ) < secs elapsed * 1000 := by linarith
    simp only [percentBetween, ne_eq, not_true_eq_false, not_lt_zero, or_self, if_false, hlong,
      Nat.sub_zero]
    have hquot : 1000000 < (window : ℚ) / (secs elapsed * 1000) := by
      rw [lt_div_iff₀ hpos]
      unfold secs
      linarith
    linarith

theorem rate_exceeds {elapsed window : ℕ} (hpos : 0 < elapsed) (hw : elapsed < window)
    (hfits : elapsed + fromSecs 1 < u64Max) :
    ∃ (rate : ℚ) (prev curr : ℕ), 0 ≤ rate ∧ (curr : ℚ) - prev ≤ rate * secs window ∧
      rate + 1 / 2 < ratePerSec prev curr elapsed := by
  -- `k` counts a nanosecond: enough of them for the excess to survive the rounding
  have hk : ∃ k : ℕ, elapsed < k * 1000000000 ∧ k * 1000000000 ≤ elapsed + 1000000000 :=
    ⟨elapsed / 1000000000 + 1, by omega, by omega⟩
  obtain ⟨k, hlow, hhigh⟩ := hk
  have helapsed : (0 : ℚ) < elapsed := by exact_mod_cast hpos
  have hmore : (elapsed : ℚ) + 1 ≤ window := by exact_mod_cast hw
  have hlow' : (elapsed : ℚ) < k * 1000000000 := by exact_mod_cast hlow
  have hexact : ((k * 1000000000 + 1 : ℕ) : ℚ) ≤
      ((k * window : ℕ) - (0 : ℕ) : ℚ) / secs elapsed := by
    rw [le_div_iff₀ (secs_pos hpos)]
    unfold secs
    push_cast
    have hscaled : (k : ℚ) * (elapsed + 1) ≤ k * window :=
      mul_le_mul_of_nonneg_left hmore (Nat.cast_nonneg k)
    linarith
  have hbound : k * 1000000000 + 1 ≤ u64Max := (Nat.succ_le_succ hhigh).trans hfits
  refine ⟨k * 1000000000, 0, k * window, by positivity, ?_, ?_⟩
  · unfold secs
    push_cast
    linarith
  · rw [ratePerSec_forward (Nat.zero_le _) hpos]
    have hround : ((k * 1000000000 + 1 : ℕ) : ℚ) ≤ _ :=
      Nat.cast_le.mpr (le_roundU64 hbound hexact)
    push_cast at hround ⊢
    linarith

section Twice

variable {α : Type*} {m n : ℕ} {earlier later : α}

/-- What the rounds find when there is something in rounds `m` and `n` only. -/
def foundTwice (m n : ℕ) (earlier later : α) (k : ℕ) : List α :=
  if k = m then [earlier] else if k = n then [later] else []

theorem foundTwice_earlier : foundTwice m n earlier later m = [earlier] := if_pos rfl

theorem foundTwice_later (h : m < n) : foundTwice m n earlier later n = [later] := by
  rw [foundTwice, if_neg h.ne', if_pos rfl]

/-- Two rounds that find something are those two. -/
theorem foundTwice_mem (h : m < n) {i j : ℕ} (hij : i < j) {a b : α}
    (ha : a ∈ foundTwice m n earlier later i) (hb : b ∈ foundTwice m n earlier later j) :
    (i = m ∧ a = earlier) ∧ j = n ∧ b = later := by
  unfold foundTwice at ha hb
  split_ifs at ha hb with hi hj hj' hi' hj hj'
  all_goals simp_all
  all_goals omega

/-- The growth of a counter that is found twice is that between the two. -/
theorem foundTwice_grows {κ C : Type*} [DecidableEq κ] {span : ℕ → Span} {refreshed : ℕ → Prop}
    {r : Sampling span κ} (h : m < n) {read : α → κ × C} {pick : C → ℕ} {k : κ} {rate : ℚ}
    (hgrow : (pick (read later).2 : ℚ) - pick (read earlier).2 ≤ rate * secs (r.window m n k)) :
    GrowsAtMost refreshed (fun i => (foundTwice m n earlier later i).map read) r k pick rate := by
  intro i j prev curr hij _ _ hprev hcurr
  obtain ⟨a, ha, hreada⟩ := List.mem_map.mp hprev
  obtain ⟨b, hb, hreadb⟩ := List.mem_map.mp hcurr
  obtain ⟨⟨rfl, rfl⟩, rfl, rfl⟩ := foundTwice_mem h hij ha hb
  rw [hreada, hreadb] at hgrow
  exact hgrow

end Twice

section Processes

variable {x : ℕ → ProcessRound}

/-- The same rounds, with other tables found in them. -/
def withTables (x : ℕ → ProcessRound) (tables : ℕ → List Process) (n : ℕ) : ProcessRound :=
  { x n with table := tables n }

def processOf (pid : Pid) (b : CpuTimeBaseline) : Process := ⟨pid, b.cpuTimeMs, b.startTimeSecs⟩

/-- A process that is found twice is reported by what it used in between. -/
theorem cpuPercentFor_twice {m n : ℕ} (hm : Preceding (ProcessesRefreshed x) m n)
    (hn : ProcessesRefreshed x n) (pid : Pid) (prev curr : CpuTimeBaseline) :
    (processChannel (withTables x (foundTwice m n (processOf pid prev) (processOf pid curr)))
      (n + 1)).cpuPercentFor pid = percentBetween prev curr (measured (processSpan x) m n) := by
  have hon : (x n).refreshProcesses = true := hn
  have hearlier : foundTwice m n (processOf pid prev) (processOf pid curr) m =
    [processOf pid prev] := foundTwice_earlier
  have hlater : foundTwice m n (processOf pid prev) (processOf pid curr) n =
    [processOf pid curr] := foundTwice_later hm.earlier
  generalize foundTwice m n (processOf pid prev) (processOf pid curr) = tables at *
  have hm' : Preceding (ProcessesRefreshed (withTables x tables)) m n := hm
  have hleft := (processes_track (withTables x tables)).left hm'
  have htaken : (processChannel (withTables x tables) n).lastProcessRefresh =
      some (x m).span.finish := congrArg Baseline.taken hleft
  have hcounters : (processChannel (withTables x tables) n).lastCpuTimes = [(pid, prev)] := by
    have hread : (processChannel (withTables x tables) n).lastCpuTimes =
        (tables m).map fun p => (p.pid, ProcessChannel.baselineOf p) :=
      congrArg Baseline.counters hleft
    rw [hread, hearlier]
    rfl
  have hstep : processChannel (withTables x tables) (n + 1) =
      (ProcessChannel.refreshProcessTable (processChannel (withTables x tables) n)
        (withTables x tables n)).1 := rfl
  rw [hstep, ProcessChannel.refreshProcessTable]
  simp only [withTables, hon, hlater, Bool.not_true, Bool.false_eq_true, if_false,
    ProcessChannel.updateCpuPercents, ProcessChannel.cpuPercentFor]
  rw [htaken, hcounters]
  simp [lookupLast, processOf, ProcessChannel.baselineOf, measured, durationSince, processSpan]

/-- Where a process is not sampled at the two ends, some cpu times are overstated. -/
theorem cpuLaw_fails (hseq : Sequential (processSpan x)) (r : Sampling (processSpan x) Pid)
    {m n : ℕ} {pid : Pid} (hm : Preceding (ProcessesRefreshed x) m n)
    (hn : ProcessesRefreshed x n) (hal : ¬ r.Aligned m n pid)
    (hms : 1000000 ≤ measured (processSpan x) m n) :
    ∃ tables, ¬ CpuLaw (withTables x tables) r pid := by
  obtain ⟨cores, prev, curr, hcores, hstart, hgrow, hexceeds⟩ :=
    percent_exceeds hms (r.measured_lt_window hseq hm.earlier hal)
  refine ⟨foundTwice m n (processOf pid prev) (processOf pid curr), ?_⟩
  intro hlaw
  have hbound := hlaw cores hcores ?_ (n + 1)
  · rw [cpuPercentFor_twice hm hn] at hbound
    exact absurd hbound (not_le.mpr hexceeds)
  · intro i j earlier later hij _ _ hearlier hlater _
    obtain ⟨a, ha, hreada⟩ := List.mem_map.mp hearlier
    obtain ⟨b, hb, hreadb⟩ := List.mem_map.mp hlater
    obtain ⟨⟨rfl, rfl⟩, rfl, rfl⟩ := foundTwice_mem hm.earlier hij ha hb
    rw [← (Prod.mk.inj hreada).2, ← (Prod.mk.inj hreadb).2]
    exact hgrow

end Processes

section Disks

variable {config : DiskConfig} {started : ℕ} {mounted : List Disk} {x : ℕ → DiskRound}

/-- The same rounds, with other volumes mounted in them. -/
def withMounted (x : ℕ → DiskRound) (found : ℕ → List Disk) (n : ℕ) : DiskRound :=
  { x n with
    mounted := found n
    names := ((found n).map Disk.name).filter (· ≠ "") }

theorem lastDiskIoRefresh_withMounted (found : ℕ → List Disk) (n : ℕ) :
    (diskChannel config started mounted (withMounted x found) n).lastDiskIoRefresh =
      (diskChannel config started mounted x n).lastDiskIoRefresh := by
  refine Machine.stateAt_related
    (R := fun s s' : DiskChannel => s.lastDiskIoRefresh = s'.lastDiskIoRefresh) rfl ?_ n
  intro k s s' hsame
  by_cases h : config.collectDisks = true ∧
      due config.diskIoRefreshInterval s.lastDiskIoRefresh (withMounted x found k).span.start = true
  · have h' : config.collectDisks = true ∧
        due config.diskIoRefreshInterval s'.lastDiskIoRefresh (x k).span.start = true := by
      rw [← hsame]
      exact h
    rw [(collectDisks_refreshed config h).1, (collectDisks_refreshed config h').1]
    rfl
  · have h' : ¬ (config.collectDisks = true ∧
        due config.diskIoRefreshInterval s'.lastDiskIoRefresh (x k).span.start = true) := by
      rw [← hsame]
      exact h
    rw [(collectDisks_kept config h).1, (collectDisks_kept config h').1]
    exact hsame

theorem refreshed_withMounted (found : ℕ → List Disk) :
    DisksRefreshed config started mounted (withMounted x found) =
      DisksRefreshed config started mounted x := by
  funext n
  rw [DisksRefreshed, DisksRefreshed, lastDiskIoRefresh_withMounted]
  rfl

/-- A volume that is mounted alone is listed, whatever is removed. -/
theorem mem_alone (config : DiskConfig) (d : DiskSnapshot) :
    d ∈ if config.dedupeDisks then dedupeDisksByName ([d.name].filter (· ≠ "")) [d] else [d] := by
  split_ifs
  · rw [dedupeDisksByName, List.mem_insertionSort, List.mem_append]
    by_cases hname : d.name = ""
    · right
      simp [hname]
    · left
      simp [hname, bestDisk]
  · exact List.mem_singleton_self d

def volume (name mountPoint : String) (totalReadBytes : ℕ) : Disk :=
  ⟨name, mountPoint, "apfs", "SSD", false, 0, 0, totalReadBytes, 0⟩

/-- A volume that is found twice is reported by what it read in between. -/
theorem diskOutput_twice {m n : ℕ} (hm : Preceding (DisksRefreshed config started mounted x) m n)
    (hn : DisksRefreshed config started mounted x n) (name mountPoint : String) (prev curr : ℕ) :
    ∃ snapshots, diskOutput config started mounted (withMounted x (foundTwice m n
        (volume name mountPoint prev) (volume name mountPoint curr))) n = some snapshots ∧
      ∃ s ∈ snapshots, diskKey s.name s.mountPoint = diskKey name mountPoint ∧
        s.readBytesPerSec = some (ratePerSec prev curr (measured (diskSpan x) m n)) := by
  have hearlier : foundTwice m n (volume name mountPoint prev) (volume name mountPoint curr) m =
    [volume name mountPoint prev] := foundTwice_earlier
  have hlater : foundTwice m n (volume name mountPoint prev) (volume name mountPoint curr) n =
    [volume name mountPoint curr] := foundTwice_later hm.earlier
  generalize foundTwice m n (volume name mountPoint prev) (volume name mountPoint curr) = found at *
  rw [← refreshed_withMounted found] at hm hn
  have hleft := (disks_track config started mounted (withMounted x found)).left hm
  generalize hstate : diskChannel config started mounted (withMounted x found) n = s at *
  have htaken : s.lastDiskIoRefresh = some (x m).span.finish := by
    rw [← hstate]
    exact congrArg Baseline.taken hleft
  have hcounters : s.lastDiskCounters = [(diskKey name mountPoint, ⟨prev, 0⟩)] := by
    have hread : s.lastDiskCounters = (found m).map fun d => (d.key, d.counters) := by
      rw [← hstate]
      exact congrArg Baseline.counters hleft
    rw [hread, hearlier]
    rfl
  have hfound : ∃ d, DiskChannel.enumerate config s (withMounted x found n) = [d] ∧
      (d.name, d.mountPoint, d.counters) = (name, mountPoint, ⟨curr, 0⟩) := by
    have hmap := enumerate_map config (f := fun d => (d.name, d.mountPoint, d.counters))
      (fun _ _ _ => rfl) s (withMounted x found n)
    have hmounted : (withMounted x found n).mounted = [volume name mountPoint curr] := hlater
    rw [hmounted] at hmap
    exact List.map_eq_singleton_iff.mp hmap
  obtain ⟨d, hd, hfields⟩ := hfound
  obtain ⟨hname, hplace⟩ := Prod.mk.inj hfields
  obtain ⟨hmount, hcount⟩ := Prod.mk.inj hplace
  have hkey : d.key = diskKey name mountPoint := by rw [Disk.key, hname, hmount]
  have hnames : (withMounted x found n).names = [d.name].filter (· ≠ "") := by
    simp [withMounted, hlater, volume, hname]
  have hout : diskOutput config started mounted (withMounted x found) n =
      (DiskChannel.collectDisks config s (withMounted x found n)).2 := by
    rw [← hstate]
    rfl
  rw [DisksRefreshed, hstate] at hn
  rw [hout, DiskChannel.collectDisks]
  simp only [hn.1, hn.2, hd, hnames, Bool.not_true, Bool.false_eq_true, if_false, List.map_cons,
    List.map_nil]
  refine ⟨_, rfl, _, mem_alone config (s.snapshotOf _ d), ?_, ?_⟩
  · exact congrArg₂ diskKey hname hmount
  · have hfigure : (DiskCounters.totalReadBytes, DiskSnapshot.readBytesPerSec) ∈ diskFigures :=
      List.mem_cons_self
    refine (diskFigures_rate hfigure s _ d).trans ?_
    rw [htaken, hcounters, hkey, hcount]
    simp [lookupLast, measured, durationSince, diskSpan, withMounted]

/-- Where a volume is not sampled at the two ends, some counters are overstated. -/
theorem diskLaw_fails (hseq : Sequential (diskSpan x)) (r : Sampling (diskSpan x) String)
    {m n : ℕ} {name mountPoint : String}
    (hm : Preceding (DisksRefreshed config started mounted x) m n)
    (hn : DisksRefreshed config started mounted x n)
    (hal : ¬ r.Aligned m n (diskKey name mountPoint)) (hpos : 0 < measured (diskSpan x) m n)
    (hfits : measured (diskSpan x) m n + fromSecs 1 < u64Max) :
    ∃ found, ¬ DiskLaw config started mounted (withMounted x found) r (diskKey name mountPoint) := by
  obtain ⟨rate, prev, curr, hrate, hgrow, hexceeds⟩ :=
    rate_exceeds hpos (r.measured_lt_window hseq hm.earlier hal) hfits
  obtain ⟨snapshots, hout, s, hs, hkey, hread⟩ := diskOutput_twice hm hn name mountPoint prev curr
  refine ⟨foundTwice m n (volume name mountPoint prev) (volume name mountPoint curr), ?_⟩
  intro hlaw
  have hgrows : GrowsAtMost (DisksRefreshed config started mounted (withMounted x (foundTwice m n
      (volume name mountPoint prev) (volume name mountPoint curr)))) (diskReadings (withMounted x
      (foundTwice m n (volume name mountPoint prev) (volume name mountPoint curr)))) r
      (diskKey name mountPoint) DiskCounters.totalReadBytes rate :=
    foundTwice_grows hm.earlier hgrow
  have hbound := hlaw (_, DiskSnapshot.readBytesPerSec) List.mem_cons_self rate hrate hgrows n
    snapshots hout s hs hkey _ hread
  exact absurd hbound (not_le.mpr hexceeds)

end Disks

section Networks

variable {config : NetworkConfig} {x : ℕ → NetworkRound}

/-- The same rounds, with other interfaces found in them. -/
def withInterfaces (x : ℕ → NetworkRound) (found : ℕ → List NetworkData) (n : ℕ) : NetworkRound :=
  { x n with interfaces := found n }

theorem lastNetworkRefresh_withInterfaces (found : ℕ → List NetworkData) (n : ℕ) :
    (networkChannel config (withInterfaces x found) n).lastNetworkRefresh =
      (networkChannel config x n).lastNetworkRefresh := by
  refine Machine.stateAt_related
    (R := fun s s' : NetworkChannel => s.lastNetworkRefresh = s'.lastNetworkRefresh) rfl ?_ n
  intro k s s' hsame
  by_cases h : config.collectNetworks = true ∧
      due config.networkRefreshInterval s.lastNetworkRefresh
        (withInterfaces x found k).span.start = true
  · have h' : config.collectNetworks = true ∧
        due config.networkRefreshInterval s'.lastNetworkRefresh (x k).span.start = true := by
      rw [← hsame]
      exact h
    rw [collectNetworks_refreshed config h, collectNetworks_refreshed config h']
    rfl
  · have h' : ¬ (config.collectNetworks = true ∧
        due config.networkRefreshInterval s'.lastNetworkRefresh (x k).span.start = true) := by
      rw [← hsame]
      exact h
    rw [(collectNetworks_kept config h).1, (collectNetworks_kept config h').1]
    exact hsame

theorem refreshed_withInterfaces (found : ℕ → List NetworkData) :
    NetworksRefreshed config (withInterfaces x found) = NetworksRefreshed config x := by
  funext n
  rw [NetworksRefreshed, NetworksRefreshed, lastNetworkRefresh_withInterfaces]
  rfl

def traffic (interface : String) (receivedBytes : ℕ) : NetworkData :=
  ⟨interface, [], ⟨receivedBytes, 0, 0, 0, 0, 0⟩⟩

/-- An interface that is found twice is reported by what it received in between. -/
theorem networkOutput_twice {m n : ℕ} (hm : Preceding (NetworksRefreshed config x) m n)
    (hn : NetworksRefreshed config x n) (interface : String) (prev curr : ℕ) :
    ∃ s, networkOutput config (withInterfaces x (foundTwice m n (traffic interface prev)
        (traffic interface curr))) n = some [s] ∧ s.interface = interface ∧
      s.receivedBytesPerSec = ratePerSec prev curr (measured (networkSpan x) m n) := by
  have hearlier : foundTwice m n (traffic interface prev) (traffic interface curr) m =
    [traffic interface prev] := foundTwice_earlier
  have hlater : foundTwice m n (traffic interface prev) (traffic interface curr) n =
    [traffic interface curr] := foundTwice_later hm.earlier
  generalize foundTwice m n (traffic interface prev) (traffic interface curr) = found at *
  rw [← refreshed_withInterfaces found] at hm hn
  have hleft := (networks_track config (withInterfaces x found)).left hm
  generalize hstate : networkChannel config (withInterfaces x found) n = s at *
  have htaken : s.lastNetworkRefresh = some (x m).span.finish := by
    rw [← hstate]
    exact congrArg Baseline.taken hleft
  have hcounters : s.lastNetCounters = [(interface, ⟨prev, 0, 0, 0, 0, 0⟩)] := by
    have hread : s.lastNetCounters = (found m).map fun data => (data.interface, data.counters) := by
      rw [← hstate]
      exact congrArg Baseline.counters hleft
    rw [hread, hearlier]
    rfl
  have hout : networkOutput config (withInterfaces x found) n =
      (NetworkChannel.collectNetworks config s (withInterfaces x found n)).2 := by
    rw [← hstate]
    rfl
  have hinterfaces : (withInterfaces x found n).interfaces = [traffic interface curr] := hlater
  rw [NetworksRefreshed, hstate] at hn
  rw [hout, collectNetworks_refreshed config hn, hinterfaces]
  refine ⟨_, rfl, rfl, ?_⟩
  rw [htaken]
  simp [NetworkChannel.snapshotOf, hcounters, lookupLast, traffic, measured, durationSince,
    networkSpan, withInterfaces]

/-- Where an interface is not sampled at the two ends, some counters are overstated. -/
theorem networkLaw_fails (hseq : Sequential (networkSpan x)) (r : Sampling (networkSpan x) String)
    {m n : ℕ} {interface : String} (hm : Preceding (NetworksRefreshed config x) m n)
    (hn : NetworksRefreshed config x n) (hal : ¬ r.Aligned m n interface)
    (hpos : 0 < measured (networkSpan x) m n)
    (hfits : measured (networkSpan x) m n + fromSecs 1 < u64Max) :
    ∃ found, ¬ NetworkLaw config (withInterfaces x found) r interface := by
  obtain ⟨rate, prev, curr, hrate, hgrow, hexceeds⟩ :=
    rate_exceeds hpos (r.measured_lt_window hseq hm.earlier hal) hfits
  obtain ⟨s, hout, hinterface, hread⟩ := networkOutput_twice hm hn interface prev curr
  refine ⟨foundTwice m n (traffic interface prev) (traffic interface curr), ?_⟩
  intro hlaw
  have hgrows : GrowsAtMost (NetworksRefreshed config (withInterfaces x (foundTwice m n
      (traffic interface prev) (traffic interface curr)))) (networkReadings (withInterfaces x
      (foundTwice m n (traffic interface prev) (traffic interface curr)))) r interface
      NetCounters.receivedBytes rate :=
    foundTwice_grows hm.earlier hgrow
  have hbound := hlaw (_, fun s => some s.receivedBytesPerSec) List.mem_cons_self rate hrate hgrows
    n [s] hout s (List.mem_singleton_self s) hinterface _ (congrArg some hread)
  exact absurd hbound (not_le.mpr hexceeds)

end Networks

end Zstats
