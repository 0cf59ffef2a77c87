import Zstats.Collector.Drives
import Zstats.Collector.Gauges
import Zstats.Framework.Switchable

namespace Zstats

open Switchable

/-- A channel that has not read yet is due. -/
theorem due_never (interval now : ℕ) : due interval none now = true := by simp [due]

/-- The two channels that can be switched, and all the other fields of the collector. -/
structure LocalCollector (R : Type*) where
  gpus : GpuChannel
  drives : DriveChannel
  rest : R

/-- One collect: the clock and what `ioreg` answers, for either channel, and whatever else is
looked at. -/
structure CollectRound (ι : Type*) where
  gpusNow : ℕ
  gpus : Option (List GpuSample)
  drivesNow : ℕ
  drives : Option (List DriveCounters)
  other : ι

namespace CollectRound

variable {ι : Type*} (r : CollectRound ι)

def gpuRound : GpuRound where
  switches := []
  now := r.gpusNow
  read := r.gpus

def driveRound : DriveRound where
  now := r.drivesNow
  read := r.drives

end CollectRound

inductive CollectorCall (ι : Type*) where
  | setCollectGpu (on : Bool)
  | setCollectDrives (on : Bool)
  | collect (r : CollectRound ι)

/-- The part of a `SystemSnapshot` that the two channels fill. -/
structure ChannelSnapshot where
  gpus : Option (List GpuSnapshot)
  drives : Option (List DriveSnapshot)

namespace LocalCollector

variable {R ι : Type*}

def setCollectGpu (c : LocalCollector R) (on : Bool) : LocalCollector R :=
  { c with gpus := c.gpus.setCollectGpu on }

def setCollectDrives (c : LocalCollector R) (on : Bool) : LocalCollector R :=
  { c with drives := c.drives.setCollectDrives on }

end LocalCollector

/-- What a collector is built with, and what a collect does to its other fields. -/
structure Setup (R ι : Type*) where
  collectGpu : Bool
  collectDrives : Bool
  gpuRefreshInterval : ℕ
  driveRefreshInterval : ℕ
  rest : R
  refresh : R → ι → R

namespace Setup

variable {R ι : Type*} (u : Setup R ι)

def new : LocalCollector R :=
  ⟨GpuChannel.new u.collectGpu, DriveChannel.new u.collectDrives, u.rest⟩

def collect (c : LocalCollector R) (r : CollectRound ι) : LocalCollector R × ChannelSnapshot :=
  let drives := c.drives.collectDrives u.driveRefreshInterval r.driveRound
  let gpus := c.gpus.collectGpus u.gpuRefreshInterval r.gpuRound
  (⟨gpus.1, drives.1, u.refresh c.rest r.other⟩, ⟨gpus.2, drives.2⟩)

def step (c : LocalCollector R) : CollectorCall ι → LocalCollector R × Option ChannelSnapshot
  | .setCollectGpu on => (c.setCollectGpu on, none)
  | .setCollectDrives on => (c.setCollectDrives on, none)
  | .collect r => ((u.collect c r).1, some (u.collect c r).2)

/-- The collector before call `n`. -/
def collectorAt (x : ℕ → CollectorCall ι) (n : ℕ) : LocalCollector R :=
  Machine.stateAt u.step u.new x n

def gpusAt (x : ℕ → CollectorCall ι) (n : ℕ) : Option (List GpuSnapshot) :=
  (Machine.outAt u.step u.new x n).bind ChannelSnapshot.gpus

def drivesAt (x : ℕ → CollectorCall ι) (n : ℕ) : Option (List DriveSnapshot) :=
  (Machine.outAt u.step u.new x n).bind ChannelSnapshot.drives

end Setup

/-- What a call is to the GPU channel. -/
def CollectorCall.gpu {ι : Type*} : CollectorCall ι → Call GpuRound
  | .setCollectGpu on => .set on
  | .setCollectDrives _ => .other
  | .collect r => .collect r.gpuRound

/-- What a call is to the drive channel. -/
def CollectorCall.drive {ι : Type*} : CollectorCall ι → Call DriveRound
  | .setCollectGpu _ => .other
  | .setCollectDrives on => .set on
  | .collect r => .collect r.driveRound

section Gpus

def gpuPart (interval : ℕ) : Part GpuChannel GpuRound (List GpuSnapshot) where
  fresh := GpuChannel.new
  on := GpuChannel.collectGpu
  set := GpuChannel.setCollectGpu
  collect := GpuChannel.collectGpus interval

/-- The round asks for the GPUs rather than answering from the cache. -/
def GpuChannel.Reads (interval : ℕ) (s : GpuChannel) (r : GpuRound) : Prop :=
  s.collectGpu = true ∧ due interval s.lastGpuRefresh r.now = true

theorem gpuPart_lawful (interval : ℕ) : (gpuPart interval).Lawful where
  on_fresh := fun _ => rfl
  set_same := fun _ => if_pos rfl
  set_other := fun _ _ h => if_neg h
  on_collect := by
    intro s r
    change (GpuChannel.collectGpus interval s r).1.collectGpu = s.collectGpu
    unfold GpuChannel.collectGpus
    split
    · rfl
    · split <;> rfl
  collect_off := by
    intro s r h
    have hoff : s.collectGpu = false := h
    simp [gpuPart, GpuChannel.collectGpus, hoff]

variable {interval : ℕ} {b : Bool} {x : ℕ → Call GpuRound}

theorem collectGpus_idle {s : GpuChannel} {r : GpuRound} (h : ¬ s.Reads interval r) :
    (s.collectGpus interval r).1 = s ∧
      ∀ v, (s.collectGpus interval r).2 = some v → s.cachedGpus = some v := by
  unfold GpuChannel.collectGpus
  rcases off_or_not_due h with hoff | ⟨hon, hdue⟩
  · simp [hoff]
  · simp [hon, hdue]

theorem collectGpus_reads {s : GpuChannel} {r : GpuRound} (h : s.Reads interval r) :
    s.collectGpus interval r =
      ({ s with lastGpuRefresh := some r.now, cachedGpus := r.read.map (List.map gpuSnapshot) },
        r.read.map (List.map gpuSnapshot)) := by
  simp [GpuChannel.collectGpus, h.1, h.2]

/-- There is a sample to answer a round that is not due with. -/
def GpuChannel.Holds (s : GpuChannel) (v : List GpuSnapshot) : Prop := s.cachedGpus = some v

/-- Call `n` read the GPUs, and found what `v` says. -/
def GpusMadeAt (interval : ℕ) (x : ℕ → Call GpuRound) (state : ℕ → GpuChannel) (n : ℕ)
    (v : List GpuSnapshot) : Prop :=
  ∃ samples, FetchedAt (GpuChannel.Reads interval) GpuRound.read x state n samples ∧
    v = samples.map gpuSnapshot

theorem collectGpus_made {state : ℕ → GpuChannel} {n : ℕ} {r : GpuRound} {v : List GpuSnapshot}
    (hx : x n = .collect r)
    (hv : ((state n).collectGpus interval r).1.cachedGpus = some v ∨
      ((state n).collectGpus interval r).2 = some v) :
    GpusMadeAt interval x state n v ∨ (state n).Holds v := by
  by_cases hreads : (state n).Reads interval r
  · left
    rw [collectGpus_reads hreads, or_self] at hv
    obtain ⟨samples, hsamples, hmap⟩ := Option.map_eq_some_iff.mp hv
    exact ⟨samples, ⟨r, hx, hreads, hsamples⟩, hmap.symm⟩
  · right
    obtain ⟨hsame, hanswer⟩ := collectGpus_idle hreads
    rw [hsame] at hv
    rcases hv with hv | hv
    · exact hv
    · exact hanswer v hv

/-- After a switch, every answer was read after it. -/
theorem gpus_read_since {i n : ℕ} {on : Bool} {v : List GpuSnapshot} (hi : SwitchAt b x i on)
    (hin : i < n)
    (hv : Machine.outAt (gpuPart interval).step (GpuChannel.new b) x n = some v) :
    ∃ m, i < m ∧ m ≤ n ∧ GpusMadeAt interval x
      (Machine.stateAt (gpuPart interval).step (GpuChannel.new b) x) m v := by
  have hfresh : ∀ on v, ¬ ((gpuPart interval).fresh on).Holds v := by
    intro on v hnone
    cases hnone
  apply (gpuPart_lawful interval).answered_since hfresh _ hi hin hv
  intro n r v hx hheld
  exact collectGpus_made hx hheld

end Gpus

section Drives

def drivePart (interval : ℕ) : Part DriveChannel DriveRound (List DriveSnapshot) where
  fresh := DriveChannel.new
  on := DriveChannel.collect
  set := DriveChannel.setCollectDrives
  collect := DriveChannel.collectDrives interval

theorem drivePart_lawful (interval : ℕ) : (drivePart interval).Lawful where
  on_fresh := fun _ => rfl
  set_same := fun _ => if_pos rfl
  set_other := fun _ _ h => if_neg h
  on_collect := by
    intro s r
    change (DriveChannel.collectDrives interval s r).1.collect = s.collect
    unfold DriveChannel.collectDrives
    split
    · rfl
    · split
      · rfl
      · split <;> rfl
  collect_off := by
    intro s r h
    have hoff : s.collect = false := h
    simp [drivePart, DriveChannel.collectDrives, hoff]

variable {interval : ℕ} {b : Bool} {x : ℕ → Call DriveRound}

/-- There is a sample to answer a round that is not due with. -/
def DriveChannel.Holds (s : DriveChannel) (v : List DriveSnapshot) : Prop := s.cached = some v

/-- `counters` are what the next read is diffed against, and there are some. -/
def DriveChannel.Remembers (s : DriveChannel) (counters : String → Option DriveCounters) : Prop :=
  s.lastCounters = counters ∧ ∃ name, counters name ≠ none

/-- Call `n` read the drives, and diffed what it found against what it knew. -/
def DrivesMadeAt (interval : ℕ) (x : ℕ → Call DriveRound) (state : ℕ → DriveChannel) (n : ℕ)
    (v : List DriveSnapshot) : Prop :=
  ∃ current elapsed,
    FetchedAt (DriveChannel.Reads interval) DriveRound.read x state n current ∧
    v = current.map fun drive => driveSnapshot ((state n).lastCounters drive.name) drive elapsed

/-- Call `n` read the drives, and left `counters` to diff against. -/
def CountersMadeAt (interval : ℕ) (x : ℕ → Call DriveRound) (state : ℕ → DriveChannel) (n : ℕ)
    (counters : String → Option DriveCounters) : Prop :=
  ∃ current, FetchedAt (DriveChannel.Reads interval) DriveRound.read x state n current ∧
    counters = byName current

theorem collectDrives_answer {s : DriveChannel} {r : DriveRound} (h : ¬ s.Reads interval r)
    {v : List DriveSnapshot} (hv : (s.collectDrives interval r).2 = some v) : s.Holds v := by
  unfold DriveChannel.collectDrives at hv
  rcases off_or_not_due h with hoff | ⟨hon, hdue⟩
  · simp [hoff] at hv
  · simp only [hon, hdue] at hv
    exact hv

theorem collectDrives_made {state : ℕ → DriveChannel} {n : ℕ} {r : DriveRound}
    {v : List DriveSnapshot} (hx : x n = .collect r)
    (hv : ((state n).collectDrives interval r).1.Holds v ∨
      ((state n).collectDrives interval r).2 = some v) :
    DrivesMadeAt interval x state n v ∨ (state n).Holds v := by
  by_cases hreads : (state n).Reads interval r
  · left
    cases hread : r.read with
    | none =>
      rw [DriveChannel.collectDrives_failed hreads hread] at hv
      rcases hv with hv | hv
      · cases hv
      · cases hv
    | some current =>
      rw [DriveChannel.collectDrives_read hreads hread, DriveChannel.Holds, or_self] at hv
      have hmap := Option.some.inj hv
      exact ⟨current, _, ⟨r, hx, hreads, hread⟩, hmap.symm⟩
  · right
    rw [DriveChannel.collectDrives_idle hreads] at hv
    rcases hv with hv | hv
    · exact hv
    · exact collectDrives_answer hreads hv

theorem collectDrives_counters {state : ℕ → DriveChannel} {n : ℕ} {r : DriveRound}
    {counters : String → Option DriveCounters} (hx : x n = .collect r)
    (h : ((state n).collectDrives interval r).1.Remembers counters) :
    CountersMadeAt interval x state n counters ∨ (state n).Remembers counters := by
  by_cases hreads : (state n).Reads interval r
  · cases hread : r.read with
    | none =>
      right
      rw [DriveChannel.collectDrives_failed hreads hread] at h
      exact h
    | some current =>
      left
      rw [DriveChannel.collectDrives_read hreads hread] at h
      exact ⟨current, ⟨r, hx, hreads, hread⟩, h.1.symm⟩
  · right
    rw [DriveChannel.collectDrives_idle hreads] at h
    exact h

/-- What a channel diffs against that was fresh at call `i`, a read since then found. -/
theorem counters_since_fresh {i n : ℕ} {on : Bool}
    (hi : Machine.stateAt (drivePart interval).step (DriveChannel.new b) x i = DriveChannel.new on)
    (hin : i ≤ n) :
    let state := Machine.stateAt (drivePart interval).step (DriveChannel.new b) x
    (∀ name, (state n).lastCounters name = none) ∨
      ∃ m, i ≤ m ∧ m < n ∧ CountersMadeAt interval x state m (state n).lastCounters := by
  intro state
  by_cases hnone : ∀ name, (state n).lastCounters name = none
  · exact Or.inl hnone
  · right
    have hfresh : ∀ on counters, ¬ ((drivePart interval).fresh on).Remembers counters := by
      intro on counters hheld
      obtain ⟨hempty, name, hname⟩ := hheld
      rw [← hempty] at hname
      exact hname rfl
    have hcollect : ∀ n r counters, x n = .collect r →
        ((drivePart interval).collect (state n) r).1.Remembers counters →
          CountersMadeAt interval x state n counters ∨ (state n).Remembers counters := by
      intro n r counters hx hheld
      exact collectDrives_counters hx hheld
    have hremembers : (state n).Remembers (state n).lastCounters := by
      rw [not_forall] at hnone
      exact ⟨rfl, hnone⟩
    exact (drivePart_lawful interval).held_since_fresh hfresh hcollect hi hin hremembers

/-- After a switch, every answer was read after it. -/
theorem drives_read_since {i n : ℕ} {on : Bool} {v : List DriveSnapshot} (hi : SwitchAt b x i on)
    (hin : i < n)
    (hv : Machine.outAt (drivePart interval).step (DriveChannel.new b) x n = some v) :
    ∃ m, i < m ∧ m ≤ n ∧ DrivesMadeAt interval x
      (Machine.stateAt (drivePart interval).step (DriveChannel.new b) x) m v := by
  have hfresh : ∀ on v, ¬ ((drivePart interval).fresh on).Holds v := by
    intro on v hnone
    cases hnone
  apply (drivePart_lawful interval).answered_since hfresh _ hi hin hv
  intro n r v hx hheld
  exact collectDrives_made hx hheld

/-- There is no rate, no latency and no queue depth. -/
structure DriveSnapshot.Unrated (s : DriveSnapshot) : Prop where
  readOps : s.readOpsPerSec = none
  writeOps : s.writeOpsPerSec = none
  readBytes : s.readBytesPerSec = none
  writeBytes : s.writeBytesPerSec = none
  readLatency : s.readLatencyMs = none
  writeLatency : s.writeLatencyMs = none
  queueDepth : s.queueDepth = none

theorem driveSnapshot_unrated (current : DriveCounters) (elapsed : Option ℕ) :
    (driveSnapshot none current elapsed).Unrated :=
  ⟨rfl, rfl, rfl, rfl, rfl, rfl, rfl⟩

/-- The first read that succeeds after the channel was off claims nothing. -/
theorem first_read_unrated {i n : ℕ} {current : List DriveCounters} (hin : i ≤ n)
    (hi : setting b x i = false)
    (hfirst : ∀ k earlier, i ≤ k → k < n →
      ¬ FetchedAt (DriveChannel.Reads interval) DriveRound.read x
        (Machine.stateAt (drivePart interval).step (DriveChannel.new b) x) k earlier)
    (hread : FetchedAt (DriveChannel.Reads interval) DriveRound.read x
      (Machine.stateAt (drivePart interval).step (DriveChannel.new b) x) n current) :
    ∃ snapshots,
      Machine.outAt (drivePart interval).step (DriveChannel.new b) x n = some snapshots ∧
      List.Forall₂ (fun drive s => s.name = drive.name ∧ s.Unrated) current snapshots := by
  have hoff := (drivePart_lawful interval).stateAt_off hi
  have hempty : ∀ name, (Machine.stateAt (drivePart interval).step (DriveChannel.new b) x
      n).lastCounters name = none := by
    rcases counters_since_fresh hoff hin with hnone | ⟨k, hik, hkn, before, hbefore, _⟩
    · exact hnone
    · exact absurd hbefore (hfirst k before hik hkn)
  obtain ⟨r, hx, hreads, hr⟩ := hread
  have hcollect := DriveChannel.collectDrives_read hreads hr
  have hout : Machine.outAt (drivePart interval).step (DriveChannel.new b) x n =
      (DriveChannel.collectDrives interval
        (Machine.stateAt (drivePart interval).step (DriveChannel.new b) x n) r).2 := by
    rw [Machine.outAt, hx]
    rfl
  rw [hcollect] at hout
  refine ⟨_, hout, ?_⟩
  rw [List.forall₂_map_right_iff, List.forall₂_same]
  intro drive _
  rw [hempty]
  exact ⟨rfl, driveSnapshot_unrated drive _⟩

end Drives

section Collector

variable {R ι : Type*} (u : Setup R ι) (x : ℕ → CollectorCall ι)

theorem gpus_collectorAt : (fun n => (u.collectorAt x n).gpus) =
    Machine.stateAt (gpuPart u.gpuRefreshInterval).step (GpuChannel.new u.collectGpu)
      (fun n => (x n).gpu) := by
  funext n
  apply Machine.stateAt_related (R := fun (c : LocalCollector R) s => c.gpus = s) rfl
  intro n c s hcs
  subst hcs
  cases x n <;> rfl

theorem drives_collectorAt : (fun n => (u.collectorAt x n).drives) =
    Machine.stateAt (drivePart u.driveRefreshInterval).step (DriveChannel.new u.collectDrives)
      (fun n => (x n).drive) := by
  funext n
  apply Machine.stateAt_related (R := fun (c : LocalCollector R) s => c.drives = s) rfl
  intro n c s hcs
  subst hcs
  cases x n <;> rfl

theorem gpusAt_eq : u.gpusAt x =
    Machine.outAt (gpuPart u.gpuRefreshInterval).step (GpuChannel.new u.collectGpu)
      (fun n => (x n).gpu) := by
  funext n
  have hstate := congrFun (gpus_collectorAt u x) n
  rw [Setup.gpusAt, Machine.outAt, Machine.outAt, ← hstate]
  cases x n <;> rfl

theorem drivesAt_eq : u.drivesAt x =
    Machine.outAt (drivePart u.driveRefreshInterval).step (DriveChannel.new u.collectDrives)
      (fun n => (x n).drive) := by
  funext n
  have hstate := congrFun (drives_collectorAt u x) n
  rw [Setup.drivesAt, Machine.outAt, Machine.outAt, ← hstate]
  cases x n <;> rfl

/-- What a run of a collector owes whoever switches its channels. -/
structure RuntimeSwitching : Prop where
  gpus : Switches (gpuPart u.gpuRefreshInterval) (GpuChannel.Reads u.gpuRefreshInterval)
    u.collectGpu (fun n => (x n).gpu) (fun n => (u.collectorAt x n).gpus) (u.gpusAt x)
  drives : Switches (drivePart u.driveRefreshInterval) (DriveChannel.Reads u.driveRefreshInterval)
    u.collectDrives (fun n => (x n).drive) (fun n => (u.collectorAt x n).drives) (u.drivesAt x)
  /-- A collect that is due answers with what `ioreg` says of the GPUs. -/
  gpuReads : ∀ n r, x n = .collect r →
    (u.collectorAt x n).gpus.Reads u.gpuRefreshInterval r.gpuRound →
    u.gpusAt x n = r.gpus.map (List.map gpuSnapshot)
  /-- The first collect after the GPUs came on is due. -/
  gpuFirst : ∀ i n r, i ≤ n → setting u.collectGpu (fun n => (x n).gpu) i = false →
    (∀ k s, i ≤ k → k < n → x k ≠ .collect s) →
    setting u.collectGpu (fun n => (x n).gpu) n = true → x n = .collect r →
    u.gpusAt x n = r.gpus.map (List.map gpuSnapshot)
  /-- A collect that is due answers nothing where `ioreg` fails to say anything of the drives, and
  else with what it says, diffed against the counters before. -/
  driveReads : ∀ n r, x n = .collect r →
    (u.collectorAt x n).drives.Reads u.driveRefreshInterval r.driveRound →
    u.drivesAt x n = r.drives.map (List.map fun drive =>
      driveSnapshot ((u.collectorAt x n).drives.lastCounters drive.name) drive
        ((u.collectorAt x n).drives.lastRefresh.map (durationSince r.drivesNow)))
  /-- The first collect after the drives came on is due, and it claims nothing. -/
  driveFirst : ∀ i n r, i ≤ n → setting u.collectDrives (fun n => (x n).drive) i = false →
    (∀ k s, i ≤ k → k < n → x k ≠ .collect s) →
    setting u.collectDrives (fun n => (x n).drive) n = true → x n = .collect r →
    match r.drives with
    | none => u.drivesAt x n = none
    | some current => ∃ snapshots, u.drivesAt x n = some snapshots ∧
        List.Forall₂ (fun drive s => s.name = drive.name ∧ s.Unrated) current snapshots
  /-- A GPU sample shown after a switch was read after it. -/
  gpuSamples : ∀ i n on v, SwitchAt u.collectGpu (fun n => (x n).gpu) i on → i < n →
    u.gpusAt x n = some v → ∃ m, i < m ∧ m ≤ n ∧ GpusMadeAt u.gpuRefreshInterval
      (fun n => (x n).gpu) (fun n => (u.collectorAt x n).gpus) m v
  /-- A drive sample shown after a switch was read after it. -/
  driveSamples : ∀ i n on v, SwitchAt u.collectDrives (fun n => (x n).drive) i on → i < n →
    u.drivesAt x n = some v → ∃ m, i < m ∧ m ≤ n ∧ DrivesMadeAt u.driveRefreshInterval
      (fun n => (x n).drive) (fun n => (u.collectorAt x n).drives) m v
  /-- The counters to diff against were read after the last switch, if there are any. -/
  driveCounters : ∀ i n on, SwitchAt u.collectDrives (fun n => (x n).drive) i on → i < n →
    (∀ name, (u.collectorAt x n).drives.lastCounters name = none) ∨
      ∃ m, i < m ∧ m < n ∧ CountersMadeAt u.driveRefreshInterval (fun n => (x n).drive)
        (fun n => (u.collectorAt x n).drives) m (u.collectorAt x n).drives.lastCounters
  /-- The first read that succeeds after the drives were off claims nothing. -/
  firstRead : ∀ i n current, i ≤ n → setting u.collectDrives (fun n => (x n).drive) i = false →
    (∀ k earlier, i ≤ k → k < n → ¬ FetchedAt (DriveChannel.Reads u.driveRefreshInterval)
      DriveRound.read (fun n => (x n).drive) (fun n => (u.collectorAt x n).drives) k earlier) →
    FetchedAt (DriveChannel.Reads u.driveRefreshInterval) DriveRound.read (fun n => (x n).drive)
      (fun n => (u.collectorAt x n).drives) n current →
    ∃ snapshots, u.drivesAt x n = some snapshots ∧
      List.Forall₂ (fun drive s => s.name = drive.name ∧ s.Unrated) current snapshots
  /-- Setting what is set changes no field of the collector. -/
  sameGpu : ∀ n on, x n = .setCollectGpu on → setting u.collectGpu (fun n => (x n).gpu) n = on →
    u.collectorAt x (n + 1) = u.collectorAt x n
  sameDrives : ∀ n on, x n = .setCollectDrives on →
    setting u.collectDrives (fun n => (x n).drive) n = on →
    u.collectorAt x (n + 1) = u.collectorAt x n

theorem collectorAt_sameGpu {n : ℕ} {on : Bool} (hx : x n = .setCollectGpu on)
    (hset : setting u.collectGpu (fun n => (x n).gpu) n = on) :
    u.collectorAt x (n + 1) = u.collectorAt x n := by
  have hstate : (u.collectorAt x n).gpus.collectGpu = on := by
    rw [congrFun (gpus_collectorAt u x) n, ← hset]
    exact (gpuPart_lawful u.gpuRefreshInterval).on_stateAt n
  have hsame : (u.collectorAt x n).gpus.setCollectGpu on = (u.collectorAt x n).gpus :=
    if_pos hstate
  have hcall : u.collectorAt x (n + 1) = (u.collectorAt x n).setCollectGpu on := by
    rw [Setup.collectorAt, Machine.stateAt_succ, hx]
    rfl
  rw [hcall, LocalCollector.setCollectGpu, hsame]

theorem collectorAt_sameDrives {n : ℕ} {on : Bool} (hx : x n = .setCollectDrives on)
    (hset : setting u.collectDrives (fun n => (x n).drive) n = on) :
    u.collectorAt x (n + 1) = u.collectorAt x n := by
  have hstate : (u.collectorAt x n).drives.collect = on := by
    rw [congrFun (drives_collectorAt u x) n, ← hset]
    exact (drivePart_lawful u.driveRefreshInterval).on_stateAt n
  have hsame : (u.collectorAt x n).drives.setCollectDrives on = (u.collectorAt x n).drives :=
    if_pos hstate
  have hcall : u.collectorAt x (n + 1) = (u.collectorAt x n).setCollectDrives on := by
    rw [Setup.collectorAt, Machine.stateAt_succ, hx]
    rfl
  rw [hcall, LocalCollector.setCollectDrives, hsame]

theorem gpusAt_reads {n : ℕ} {r : CollectRound ι} (hx : x n = .collect r)
    (h : (u.collectorAt x n).gpus.Reads u.gpuRefreshInterval r.gpuRound) :
    u.gpusAt x n = r.gpus.map (List.map gpuSnapshot) := by
  have hout : u.gpusAt x n =
      ((u.collectorAt x n).gpus.collectGpus u.gpuRefreshInterval r.gpuRound).2 := by
    rw [Setup.gpusAt, Machine.outAt, hx]
    rfl
  rw [hout, collectGpus_reads h]
  rfl

theorem drivesAt_reads {n : ℕ} {r : CollectRound ι} (hx : x n = .collect r)
    (h : (u.collectorAt x n).drives.Reads u.driveRefreshInterval r.driveRound) :
    u.drivesAt x n = r.drives.map (List.map fun drive =>
      driveSnapshot ((u.collectorAt x n).drives.lastCounters drive.name) drive
        ((u.collectorAt x n).drives.lastRefresh.map (durationSince r.drivesNow))) := by
  have hout : u.drivesAt x n =
      ((u.collectorAt x n).drives.collectDrives u.driveRefreshInterval r.driveRound).2 := by
    rw [Setup.drivesAt, Machine.outAt, hx]
    rfl
  cases hread : r.drives with
  | none =>
    rw [hout, Option.map_none, DriveChannel.collectDrives_failed h hread]
  | some current =>
    rw [hout, DriveChannel.collectDrives_read h hread]
    rfl

variable {u x}

/-- No collect between is one of the channel's calls either. -/
theorem gpu_ne_collect {n : ℕ} (h : ∀ r, x n ≠ .collect r) (s : GpuRound) :
    (x n).gpu ≠ .collect s := by
  cases hx : x n with
  | setCollectGpu on => exact nofun
  | setCollectDrives on => exact nofun
  | collect r => exact absurd hx (h r)

theorem drive_ne_collect {n : ℕ} (h : ∀ r, x n ≠ .collect r) (s : DriveRound) :
    (x n).drive ≠ .collect s := by
  cases hx : x n with
  | setCollectGpu on => exact nofun
  | setCollectDrives on => exact nofun
  | collect r => exact absurd hx (h r)

theorem gpus_switches : Switches (gpuPart u.gpuRefreshInterval)
    (GpuChannel.Reads u.gpuRefreshInterval) u.collectGpu (fun n => (x n).gpu)
    (fun n => (u.collectorAt x n).gpus) (u.gpusAt x) := by
  rw [gpus_collectorAt, gpusAt_eq]
  exact (gpuPart_lawful _).switches fun _ => ⟨rfl, due_never _ _⟩

theorem drives_switches : Switches (drivePart u.driveRefreshInterval)
    (DriveChannel.Reads u.driveRefreshInterval) u.collectDrives (fun n => (x n).drive)
    (fun n => (u.collectorAt x n).drives) (u.drivesAt x) := by
  rw [drives_collectorAt, drivesAt_eq]
  exact (drivePart_lawful _).switches fun _ => ⟨rfl, due_never _ _⟩

theorem gpus_due {i n : ℕ} {r : CollectRound ι} (hin : i ≤ n)
    (hi : setting u.collectGpu (fun n => (x n).gpu) i = false)
    (hidle : ∀ k s, i ≤ k → k < n → x k ≠ .collect s)
    (hn : setting u.collectGpu (fun n => (x n).gpu) n = true) (hx : x n = .collect r) :
    (u.collectorAt x n).gpus.Reads u.gpuRefreshInterval r.gpuRound := by
  apply gpus_switches.due i n r.gpuRound hin hi _ hn
  · rw [hx]
    rfl
  · intro k s hik hkn
    exact gpu_ne_collect (fun r => hidle k r hik hkn) s

theorem drives_due {i n : ℕ} {r : CollectRound ι} (hin : i ≤ n)
    (hi : setting u.collectDrives (fun n => (x n).drive) i = false)
    (hidle : ∀ k s, i ≤ k → k < n → x k ≠ .collect s)
    (hn : setting u.collectDrives (fun n => (x n).drive) n = true) (hx : x n = .collect r) :
    (u.collectorAt x n).drives.Reads u.driveRefreshInterval r.driveRound := by
  apply drives_switches.due i n r.driveRound hin hi _ hn
  · rw [hx]
    rfl
  · intro k s hik hkn
    exact drive_ne_collect (fun r => hidle k r hik hkn) s

variable (u x)

/-- Whatever is switched when, in whatever run of collects: a channel that is off says nothing, one
that comes on reads at once, and nothing from before a switch is seen after it. -/
theorem runtime_switching : RuntimeSwitching u x where
  gpus := gpus_switches
  drives := drives_switches
  gpuReads := fun n r hx h => gpusAt_reads u x hx h
  gpuFirst := by
    intro i n r hin hi hidle hn hx
    exact gpusAt_reads u x hx (gpus_due hin hi hidle hn hx)
  driveReads := fun n r hx h => drivesAt_reads u x hx h
  driveFirst := by
    intro i n r hin hi hidle hn hx
    have hreads := drives_due hin hi hidle hn hx
    cases hread : r.drives with
    | none =>
      have hout := drivesAt_reads u x hx hreads
      rwa [hread, Option.map_none] at hout
    | some current =>
      rw [congrFun (drives_collectorAt u x) n] at hreads
      rw [drivesAt_eq]
      apply first_read_unrated hin hi
      · intro k earlier hik hkn hk
        obtain ⟨s, hs, -⟩ := hk
        exact drive_ne_collect (fun r => hidle k r hik hkn) s hs
      · exact ⟨r.driveRound, congrArg CollectorCall.drive hx, hreads, hread⟩
  gpuSamples := by
    intro i n on v hi hin hv
    rw [gpusAt_eq] at hv
    rw [gpus_collectorAt]
    exact gpus_read_since hi hin hv
  driveSamples := by
    intro i n on v hi hin hv
    rw [drivesAt_eq] at hv
    rw [drives_collectorAt]
    exact drives_read_since hi hin hv
  driveCounters := by
    intro i n on hi hin
    have hfresh := (drivePart_lawful u.driveRefreshInterval).stateAt_switch hi
    have hsince := counters_since_fresh hfresh hin
    rw [← drives_collectorAt] at hsince
    exact hsince
  firstRead := by
    intro i n current hin hi hfirst hread
    rw [drives_collectorAt] at hfirst hread
    rw [drivesAt_eq]
    exact first_read_unrated hin hi hfirst hread
  sameGpu := fun n on hx hset => collectorAt_sameGpu u x hx hset
  sameDrives := fun n on hx hset => collectorAt_sameDrives u x hx hset

end Collector

end Zstats
