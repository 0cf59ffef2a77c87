import Zstats.Collector.Disks
import Zstats.Collector.RateBounds
import Zstats.Framework.Machine

namespace Zstats

open Diffing

variable (config : DiskConfig) (started : ℕ) (mounted : List Disk) (x : ℕ → DiskRound)

def diskChannel (n : ℕ) : DiskChannel :=
  Machine.stateAt (DiskChannel.collectDisks config) (DiskChannel.new config started mounted) x n

def diskOutput (n : ℕ) : Option (List DiskSnapshot) :=
  Machine.outAt (DiskChannel.collectDisks config) (DiskChannel.new config started mounted) x n

def diskSpan (n : ℕ) : Span := (x n).span

def DisksRefreshed (n : ℕ) : Prop :=
  config.collectDisks = true ∧ due config.diskIoRefreshInterval
    (diskChannel config started mounted x n).lastDiskIoRefresh (x n).span.start = true

instance (n : ℕ) : Decidable (DisksRefreshed config started mounted x n) :=
  inferInstanceAs (Decidable (_ ∧ _))

/-- The counters of the volumes mounted in a round. -/
def diskReadings (n : ℕ) : List (String × DiskCounters) :=
  (x n).mounted.map fun d => (d.key, d.counters)

/-- The rates of a disk, with the counters they diff. -/
def diskFigures : List ((DiskCounters → ℕ) × (DiskSnapshot → Option ℕ)) :=
  [(DiskCounters.totalReadBytes, DiskSnapshot.readBytesPerSec),
    (DiskCounters.totalWrittenBytes, DiskSnapshot.writeBytesPerSec)]

/-- No reported rate of the volume under `key` exceeds its counter's growth, but for rounding. -/
def DiskLaw (r : Sampling (diskSpan x) String) (key : String) : Prop :=
  ∀ figure ∈ diskFigures, ∀ rate, 0 ≤ rate →
    GrowsAtMost (DisksRefreshed config started mounted x) (diskReadings x) r key figure.1 rate →
    ∀ n snapshots, diskOutput config started mounted x n = some snapshots →
      ∀ s ∈ snapshots, diskKey s.name s.mountPoint = key →
        ∀ v, figure.2 s = some v → (v : ℚ) ≤ rate + 1 / 2

/-- A refresh lists what is mounted: all but the capacities is that of the volumes. -/
theorem refreshDisks_map {α : Type*} {f : Disk → α}
    (hf : ∀ d total available, f { d with totalSpace := total, availableSpace := available } = f d)
    (disks mounted : List Disk) (storage : Bool) :
    (refreshDisks disks mounted storage).map f = mounted.map f := by
  rw [refreshDisks]
  cases storage with
  | true => rfl
  | false =>
    simp only [Bool.false_eq_true, if_false, List.map_map]
    apply List.map_congr_left
    intro d _
    simp only [Function.comp_apply]
    split
    · exact hf d _ _
    · exact hf d _ _

theorem enumerate_map {α : Type*} {f : Disk → α}
    (hf : ∀ d total available, f { d with totalSpace := total, availableSpace := available } = f d)
    (s : DiskChannel) (r : DiskRound) :
    (DiskChannel.enumerate config s r).map f = r.mounted.map f := by
  rw [DiskChannel.enumerate]
  cases DiskChannel.storageDue config s r.span.start with
  | true => exact refreshDisks_map hf s.disks r.mounted true
  | false =>
    rw [← refreshDisks_map hf s.disks r.mounted false]
    simp only [Bool.false_eq_true, if_false, List.map_map]
    apply List.map_congr_left
    intro d _
    simp only [Function.comp_apply]
    split
    · rw [Disk.refreshStorage]
      split
      · exact hf d _ _
      · rfl
    · rfl

theorem enumerate_readings (s : DiskChannel) (r : DiskRound) :
    (DiskChannel.enumerate config s r).map (fun d => (d.key, d.counters)) =
      r.mounted.map fun d => (d.key, d.counters) :=
  enumerate_map config (fun _ _ _ => rfl) s r

/-- Removing duplicates only leaves disks out. -/
theorem mem_of_bestDisk {disks : List DiskSnapshot} {name : String} {d : DiskSnapshot}
    (h : bestDisk disks name = some d) : d ∈ disks := by
  have hfold : ∀ d, bestDisk disks name = some d → d ∈ disks := by
    rw [bestDisk]
    apply List.foldlRecOn (motive := fun best => ∀ d, best = some d → d ∈ disks)
    · intro d hd
      cases hd
    · intro best ih disk hdisk d hd
      split at hd
      · exact ih d hd
      · split at hd
        · split at hd
          · exact ih d hd
          · rw [← Option.some.inj hd]
            exact hdisk
        · rw [← Option.some.inj hd]
          exact hdisk
  exact hfold d h

theorem mem_of_dedupe {names : List String} {disks : List DiskSnapshot} {d : DiskSnapshot}
    (h : d ∈ dedupeDisksByName names disks) : d ∈ disks := by
  rw [dedupeDisksByName] at h
  rw [List.mem_insertionSort, List.mem_append] at h
  rcases h with hbest | hunnamed
  · obtain ⟨name, _, hname⟩ := List.mem_filterMap.mp hbest
    exact mem_of_bestDisk hname
  · exact List.mem_of_mem_filter hunnamed

theorem diskFigures_rate {figure : (DiskCounters → ℕ) × (DiskSnapshot → Option ℕ)}
    (h : figure ∈ diskFigures) (s : DiskChannel) (elapsed : Option ℕ) (d : Disk) :
    figure.2 (s.snapshotOf elapsed d) =
      Option.map₂ (fun elapsed prev => ratePerSec (figure.1 prev) (figure.1 d.counters) elapsed)
        elapsed (lookupLast s.lastDiskCounters d.key) := by
  simp only [diskFigures, List.mem_cons, List.not_mem_nil, or_false] at h
  rcases h with rfl | rfl <;> rfl

theorem collectDisks_kept {s : DiskChannel} {r : DiskRound}
    (h : ¬ (config.collectDisks = true ∧
      due config.diskIoRefreshInterval s.lastDiskIoRefresh r.span.start = true)) :
    (DiskChannel.collectDisks config s r).1 = s ∧
      ∀ snapshots, (DiskChannel.collectDisks config s r).2 = some snapshots →
        s.cachedDisks = some snapshots := by
  rw [DiskChannel.collectDisks]
  rcases off_or_not_due h with hoff | ⟨hon, hdue⟩
  · simp [hoff]
  · simp [hon, hdue]

theorem collectDisks_refreshed {s : DiskChannel} {r : DiskRound}
    (h : config.collectDisks = true ∧
      due config.diskIoRefreshInterval s.lastDiskIoRefresh r.span.start = true) :
    (DiskChannel.collectDisks config s r).1.lastDiskIoRefresh = some r.span.finish ∧
    (DiskChannel.collectDisks config s r).1.lastDiskCounters =
      r.mounted.map (fun d => (d.key, d.counters)) ∧
    (DiskChannel.collectDisks config s r).1.cachedDisks =
      (DiskChannel.collectDisks config s r).2 ∧
    ∀ snapshots, (DiskChannel.collectDisks config s r).2 = some snapshots →
      ∀ d ∈ snapshots, ∃ disk ∈ DiskChannel.enumerate config s r,
        d = s.snapshotOf (s.lastDiskIoRefresh.map (durationSince r.span.start)) disk := by
  rw [DiskChannel.collectDisks]
  simp only [h.1, h.2, Bool.not_true, Bool.false_eq_true, if_false]
  refine ⟨trivial, enumerate_readings config s r, trivial, ?_⟩
  intro snapshots hs d hd
  rw [← Option.some.inj hs] at hd
  have hmem : d ∈ (DiskChannel.enumerate config s r).map
      (s.snapshotOf (s.lastDiskIoRefresh.map (durationSince r.span.start))) := by
    cases hdedupe : config.dedupeDisks with
    | true =>
      rw [hdedupe, if_pos rfl] at hd
      exact mem_of_dedupe hd
    | false =>
      rw [hdedupe] at hd
      exact hd
  obtain ⟨disk, hdisk, heq⟩ := List.mem_map.mp hmem
  exact ⟨disk, hdisk, heq.symm⟩

def diskBaseline (n : ℕ) : Baseline String DiskCounters :=
  ⟨(diskChannel config started mounted x n).lastDiskIoRefresh,
    (diskChannel config started mounted x n).lastDiskCounters⟩

theorem diskChannel_succ (n : ℕ) : diskChannel config started mounted x (n + 1) =
    (DiskChannel.collectDisks config (diskChannel config started mounted x n) (x n)).1 :=
  Machine.stateAt_succ n

theorem disks_track : Tracks (diskBaseline config started mounted x)
    (DisksRefreshed config started mounted x) (fun n => (diskSpan x n).finish)
    (diskReadings x) where
  fresh := rfl
  kept := by
    intro n hn
    unfold diskBaseline
    rw [diskChannel_succ, (collectDisks_kept config hn).1]
  replaced := by
    intro n hn
    obtain ⟨htaken, hcounters, -⟩ := collectDisks_refreshed config hn
    rw [diskBaseline]
    rw [diskChannel_succ, htaken, hcounters]
    rfl

variable {config started mounted x}

theorem diskLaw_of_aligned (hseq : Sequential (diskSpan x)) {r : Sampling (diskSpan x) String}
    {key : String}
    (hal : AlignedRefreshes (DisksRefreshed config started mounted x) (diskReadings x) r key) :
    DiskLaw config started mounted x r key := by
  intro figure hfigure rate hrate hgrow n snapshots hout
  apply Machine.outAt_cached DiskChannel.cachedDisks (DisksRefreshed config started mounted x)
    (fun snapshots => ∀ s ∈ snapshots, diskKey s.name s.mountPoint = key →
      ∀ v, figure.2 s = some v → (v : ℚ) ≤ rate + 1 / 2) rfl _ _ hout
  · intro n hn
    obtain ⟨-, -, hcached, hmade⟩ := collectDisks_refreshed config hn
    refine ⟨hcached, ?_⟩
    intro snapshots hs s hsmem hkey v hv
    obtain ⟨disk, hdisk, rfl⟩ := hmade snapshots hs s hsmem
    have hread : (disk.key, disk.counters) ∈ diskReadings x n := by
      rw [diskReadings]
      rw [← enumerate_readings config (diskChannel config started mounted x n)]
      exact List.mem_map_of_mem hdisk
    have hdiskKey : disk.key = key := hkey
    rw [diskFigures_rate hfigure, hdiskKey] at hv
    rw [hdiskKey] at hread
    exact rate_le_of_aligned (disks_track config started mounted x) hseq hal hrate hgrow hn
      hread hv
  · intro n hn
    obtain ⟨hsame, hanswer⟩ := collectDisks_kept config hn
    exact ⟨congrArg DiskChannel.cachedDisks hsame, hanswer⟩

end Zstats
