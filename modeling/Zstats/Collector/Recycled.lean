import Zstats.Collector.ProcessList
import Zstats.Collector.ProcessRates
import Zstats.Framework.Throttled

namespace Zstats

open Diffing Throttled

variable (config : ProcessConfig) (x : ℕ → ProcessCollect)

def processCollector (n : ℕ) : ProcessCollector :=
  Machine.stateAt (ProcessCollector.collect config) ProcessCollector.new x n

def processOutput (n : ℕ) : Option (List ProcessSnapshot) :=
  Machine.outAt (ProcessCollector.collect config) ProcessCollector.new x n

def processRounds (n : ℕ) : ProcessRound := (x n).round

def ListRefreshed (n : ℕ) : Prop := (x n).refreshProcesses = true

/-- From the end of refresh `m` to the start of refresh `n`. -/
def listElapsed (m n : ℕ) : ℕ := measured (processSpan (processRounds x)) m n

/-- The process that the refresh before found under the pid. -/
def Predecessor (m n : ℕ) (p q : ProcessEntry) : Prop :=
  Preceding (ListRefreshed x) m n ∧ q ∈ (x m).table ∧ q.pid = p.pid

/-- The pid was another process's at the refresh before. -/
def Recycled (n : ℕ) (p : ProcessEntry) : Prop :=
  ∃ m q, Predecessor x m n p q ∧ q.startTime ≠ p.startTime

/-- A percentage of a first sighting, or against what the process itself had used. -/
def OwnPercent (n : ℕ) (p : ProcessEntry) (percent : ℚ) : Prop :=
  percent = 0 ∨ ∃ m q, Predecessor x m n p q ∧ q.startTime = p.startTime ∧
    percent = percentBetween (ProcessChannel.baselineOf q.toProcess)
      (ProcessChannel.baselineOf p.toProcess) (listElapsed x m n)

/-- A rate of a first sighting, or against what the process itself had read or written. -/
def OwnDiskRate (n : ℕ) (p : ProcessEntry) (pick : DiskCounters → ℕ) (rate : Option ℕ) : Prop :=
  rate = none ∨ ∃ m q, Predecessor x m n p q ∧ q.startTime = p.startTime ∧
    rate = some (ratePerSec (pick q.diskUsage) (pick p.diskUsage) (listElapsed x m n))

variable {config x}

theorem collectProcesses_channel (s : ProcessCollector) (refreshed : Bool) (elapsed : Option ℕ)
    (table : List ProcessEntry) :
    (s.collectProcesses config refreshed elapsed table).1.channel = s.channel := by
  rw [ProcessCollector.collectProcesses]
  split
  · rfl
  · split <;> rfl

theorem collector_channel (n : ℕ) :
    (processCollector config x n).channel = processChannel (processRounds x) n := by
  induction n with
  | zero => rfl
  | succ n ih =>
    have hstep : (processCollector config x (n + 1)).channel =
        ((processCollector config x n).channel.refreshProcessTable (x n).round).1 :=
      collectProcesses_channel _ _ _ _
    rw [hstep, ih]
    rfl

theorem entry_unique {n : ℕ} {p q : ProcessEntry} (hp : p ∈ (x n).table) (hq : q ∈ (x n).table)
    (h : q.pid = p.pid) : q = p :=
  List.inj_on_of_nodup_map (x n).pids_nodup hq hp h

theorem Predecessor.unique {m m' n : ℕ} {p q q' : ProcessEntry} (h : Predecessor x m n p q)
    (h' : Predecessor x m' n p q') : m = m' ∧ q = q' := by
  obtain ⟨hm, hq, hpid⟩ := h
  obtain ⟨hm', hq', hpid'⟩ := h'
  obtain rfl := hm.unique hm'
  exact ⟨rfl, entry_unique hq' hq (hpid.trans hpid'.symm)⟩

section Refresh

variable {n : ℕ} {p : ProcessEntry}

theorem mem_readings {m : ℕ} {pid : Pid} {c : CpuTimeBaseline}
    (h : (pid, c) ∈ processReadings (processRounds x) m) :
    ∃ q ∈ (x m).table, q.pid = pid ∧ ProcessChannel.baselineOf q.toProcess = c := by
  obtain ⟨q, hq, heq⟩ := List.mem_map.mp h
  obtain ⟨e, he, rfl⟩ := List.mem_map.mp hq
  exact ⟨e, he, congrArg Prod.fst heq, congrArg Prod.snd heq⟩

/-- The start time is kept beside the cpu time, so that another process's is not diffed. -/
theorem percent_own (hn : ListRefreshed x n) (hp : p ∈ (x n).table) :
    OwnPercent x n p ((processChannel (processRounds x) (n + 1)).cpuPercentFor p.pid) := by
  have hrounds : ProcessesRefreshed (processRounds x) n := hn
  rcases cpuPercentFor_refreshed hrounds p.pid with hzero | hdiffed
  · exact Or.inl hzero
  · obtain ⟨curr, prev, elapsed, hcurr, hagainst, hpercent⟩ := hdiffed
    obtain ⟨m, hm, helapsed, hprev⟩ :=
      (processes_track (processRounds x)).against_preceding hagainst
    obtain ⟨p', hp', hpid', rfl⟩ := mem_readings hcurr
    obtain ⟨q, hq, hpid, rfl⟩ := mem_readings hprev
    obtain rfl := entry_unique hp hp' hpid'
    rw [hpercent]
    by_cases hstart : q.startTime = p'.startTime
    · have hmeasured : elapsed = listElapsed x m n := helapsed
      rw [hmeasured]
      exact Or.inr ⟨m, q, ⟨hm, hq, hpid⟩, hstart, rfl⟩
    · left
      exact if_pos (Or.inl (Ne.symm hstart))

/-- The counters kept under the pids, without start times. -/
def listBaseline (config : ProcessConfig) (x : ℕ → ProcessCollect) (n : ℕ) :
    Baseline Pid DiskCounters :=
  ⟨(processCollector config x n).channel.lastProcessRefresh,
    (processCollector config x n).lastProcessDiskCounters⟩

theorem lists_track (hon : config.collectProcesses = true) :
    Tracks (listBaseline config x) (ListRefreshed x)
      (fun n => (processSpan (processRounds x) n).finish)
      (fun n => ProcessCollector.diskCounters config (x n).table) where
  fresh := rfl
  kept := by
    intro n hn
    have hoff : (x n).refreshProcesses = false := Bool.not_eq_true _ ▸ hn
    have hchannel := congrArg ProcessChannel.lastProcessRefresh
      (processChannel_kept (processRounds x) hn)
    have hcounters : (processCollector config x (n + 1)).lastProcessDiskCounters =
        (processCollector config x n).lastProcessDiskCounters := by
      change (ProcessCollector.collect config (processCollector config x n)
        (x n)).1.lastProcessDiskCounters = _
      simp [ProcessCollector.collect, ProcessCollector.collectProcesses, hon, hoff]
    unfold listBaseline
    rw [collector_channel, collector_channel, hchannel, hcounters]
  replaced := by
    intro n hn
    have hrefreshed : (x n).refreshProcesses = true := hn
    have htaken := congrArg Baseline.taken ((processes_track (processRounds x)).replaced n hn)
    have hcounters : (processCollector config x (n + 1)).lastProcessDiskCounters =
        ProcessCollector.diskCounters config (x n).table := by
      change (ProcessCollector.collect config (processCollector config x n)
        (x n)).1.lastProcessDiskCounters = _
      simp [ProcessCollector.collect, ProcessCollector.collectProcesses, hon, hrefreshed]
    rw [listBaseline]
    rw [collector_channel, hcounters]
    congr 1

/-- The collector as it makes the list of round `n`. -/
def listing (config : ProcessConfig) (x : ℕ → ProcessCollect) (n : ℕ) : ProcessCollector :=
  { processCollector config x n with
    channel := ((processCollector config x n).channel.refreshProcessTable (x n).round).1 }

/-- A disk rate of round `n`. -/
def listRate (config : ProcessConfig) (x : ℕ → ProcessCollect) (n : ℕ) (pid : Pid)
    (pick : DiskCounters → ℕ) : Option ℕ :=
  (listing config x n).diskRate config
    ((processCollector config x n).channel.lastProcessRefresh.map
      (durationSince (x n).span.start)) (x n).table pid pick

theorem lookup_own (hio : config.collectProcessDiskIo = true) (hp : p ∈ (x n).table) :
    lookupLast (ProcessCollector.diskCounters config (x n).table) p.pid = some p.diskUsage := by
  rw [ProcessCollector.diskCounters, if_pos hio]
  apply lookupLast_of_mem
  · rw [List.map_map]
    exact (x n).pids_nodup
  · exact List.mem_map.mpr ⟨p, hp, rfl⟩

/-- The rate of a pid that the refresh before knew, whoever had it. -/
theorem listRate_known (hon : config.collectProcesses = true)
    (hio : config.collectProcessDiskIo = true) (hp : p ∈ (x n).table) {m : ℕ} {q : ProcessEntry}
    (hq : Predecessor x m n p q) (pick : DiskCounters → ℕ) :
    listRate config x n p.pid pick =
      some (ratePerSec (pick q.diskUsage) (pick p.diskUsage) (listElapsed x m n)) := by
  obtain ⟨hm, hqm, hpid⟩ := hq
  have hbaseline := (lists_track hon).left hm
  have htaken : (processCollector config x n).channel.lastProcessRefresh =
      some (processSpan (processRounds x) m).finish := congrArg Baseline.taken hbaseline
  have hcounters : (processCollector config x n).lastProcessDiskCounters =
      ProcessCollector.diskCounters config (x m).table := congrArg Baseline.counters hbaseline
  unfold listRate listing ProcessCollector.diskRate
  rw [if_pos hio, lookup_own hio hp, hcounters, htaken, ← hpid, lookup_own hio hqm]
  rfl

theorem listRate_some (hon : config.collectProcesses = true)
    {pick : DiskCounters → ℕ} {rate : ℕ} (h : listRate config x n p.pid pick = some rate) :
    config.collectProcessDiskIo = true ∧ ∃ m q, Predecessor x m n p q := by
  cases hio : config.collectProcessDiskIo with
  | false => simp [listRate, ProcessCollector.diskRate, hio] at h
  | true =>
    simp only [listRate, listing, ProcessCollector.diskRate, hio, if_true] at h
    obtain ⟨elapsed, prev, helapsed, hprev, -⟩ := Option.map₂_eq_some_iff.mp h
    have hagainst := Baseline.against_of_elapsed (b := listBaseline config x n) helapsed hprev
    obtain ⟨m, hm, -, hmem⟩ := (lists_track hon).against_preceding hagainst
    rw [ProcessCollector.diskCounters, if_pos hio] at hmem
    obtain ⟨q, hq, heq⟩ := List.mem_map.mp hmem
    exact ⟨rfl, m, q, hm, hq, congrArg Prod.fst heq⟩

/-- A disk rate is the process's own unless the pid has been recycled. -/
theorem listRate_own_iff (hon : config.collectProcesses = true) (hp : p ∈ (x n).table)
    (pick : DiskCounters → ℕ) :
    OwnDiskRate x n p pick (listRate config x n p.pid pick) ↔
      (config.collectProcessDiskIo = true → ¬ Recycled x n p) := by
  constructor
  · rintro hown hio ⟨m, q, hq, hstart⟩
    have hknown := listRate_known hon hio hp hq pick
    rcases hown with hnone | ⟨m', q', hq', hstart', -⟩
    · rw [hknown] at hnone
      cases hnone
    · rw [(hq.unique hq').2] at hstart
      exact hstart hstart'
  · intro h
    cases hrate : listRate config x n p.pid pick with
    | none => exact Or.inl rfl
    | some rate =>
      obtain ⟨hio, m, q, hq⟩ := listRate_some hon hrate
      have hstart : q.startTime = p.startTime := by
        by_contra hother
        exact h hio ⟨m, q, hq, hother⟩
      rw [← hrate, listRate_known hon hio hp hq pick]
      exact Or.inr ⟨m, q, hq, hstart, rfl⟩

end Refresh

section Output

theorem collect_refreshed (hon : config.collectProcesses = true) {n : ℕ} (hn : ListRefreshed x n)
    {snapshots : List ProcessSnapshot} (h : processOutput config x n = some snapshots) :
    ∀ s ∈ snapshots, ∃ p ∈ (x n).table, s = (listing config x n).snapshotOf config
      ((processCollector config x n).channel.lastProcessRefresh.map
        (durationSince (x n).span.start)) (x n).table p := by
  have hrefreshed : (x n).refreshProcesses = true := hn
  have hout : processOutput config x n = some
      ((selectTopPids ((x n).table.map (listing config x n).rank) config.maxProcesses).filterMap
        fun pid => ((x n).table.find? fun p => p.pid == pid).map
          ((listing config x n).snapshotOf config
            ((processCollector config x n).channel.lastProcessRefresh.map
              (durationSince (x n).span.start)) (x n).table)) := by
    change (ProcessCollector.collect config (processCollector config x n) (x n)).2 = _
    simp only [ProcessCollector.collect, ProcessCollector.collectProcesses, hon, hrefreshed,
      Bool.not_true, Bool.false_eq_true, if_false, ProcessChannel.refreshProcessTable,
      ProcessCollect.round, listing]
  intro s hs
  rw [hout] at h
  rw [← Option.some.inj h] at hs
  obtain ⟨pid, -, hfound⟩ := List.mem_filterMap.mp hs
  obtain ⟨p, hp, rfl⟩ := Option.map_eq_some_iff.mp hfound
  exact ⟨p, List.mem_of_find?_eq_some hp, rfl⟩

theorem collect_idle (hon : config.collectProcesses = true) {n : ℕ} (hn : ¬ ListRefreshed x n) :
    (processCollector config x (n + 1)).cachedProcesses =
      (processCollector config x n).cachedProcesses ∧
    processOutput config x n = (processCollector config x n).cachedProcesses := by
  have hoff : (x n).refreshProcesses = false := Bool.not_eq_true _ ▸ hn
  have hstep : (ProcessCollector.collect config (processCollector config x n)
      (x n)).1.cachedProcesses = (processCollector config x n).cachedProcesses := by
    simp [ProcessCollector.collect, ProcessCollector.collectProcesses, hon, hoff]
  have hout : (ProcessCollector.collect config (processCollector config x n) (x n)).2 =
      (processCollector config x n).cachedProcesses := by
    simp [ProcessCollector.collect, ProcessCollector.collectProcesses, hon, hoff]
  exact ⟨hstep, hout⟩

theorem collect_cached (hon : config.collectProcesses = true) {n : ℕ} (hn : ListRefreshed x n) :
    (processCollector config x (n + 1)).cachedProcesses = processOutput config x n := by
  have hrefreshed : (x n).refreshProcesses = true := hn
  change (ProcessCollector.collect config (processCollector config x n) (x n)).1.cachedProcesses =
    (ProcessCollector.collect config (processCollector config x n) (x n)).2
  simp [ProcessCollector.collect, ProcessCollector.collectProcesses, hon, hrefreshed]

theorem lists_present (hon : config.collectProcesses = true) :
    PresentsLatest (fun n => (processOutput config x n).isSome) (ListRefreshed x)
      (processOutput config x) := by
  have hcaching : Caching (ProcessCollector.collect config) ProcessCollector.new x
      ProcessCollector.cachedProcesses (fun s => s.cachedProcesses.isSome)
      (fun n => (processOutput config x n).isSome) (ListRefreshed x) := by
    constructor
    · nofun
    · intro n hn hprimed
      have hkept : (processCollector config x (n + 1)).cachedProcesses =
          (processCollector config x n).cachedProcesses := (collect_idle hon hn).1
      have hbefore : (processCollector config x n).cachedProcesses.isSome := by
        rw [← hkept]
        exact hprimed
      exact ⟨hbefore, hkept⟩
    · intro n hsome hn
      have hanswer : processOutput config x n =
          (processCollector config x n).cachedProcesses := (collect_idle hon hn).2
      rw [hanswer] at hsome
      exact ⟨hsome, hanswer⟩
  exact hcaching.presentsLatest fun n hn => collect_cached hon hn

/-- Every list reported is that of the last refresh. -/
theorem output_of_refresh {n : ℕ} {snapshots : List ProcessSnapshot}
    (h : processOutput config x n = some snapshots) :
    config.collectProcesses = true ∧ ∃ k, Preceding (ListRefreshed x) k (n + 1) ∧
      processOutput config x k = some snapshots := by
  cases hon : config.collectProcesses with
  | false =>
    have hnone : (ProcessCollector.collect config (processCollector config x n) (x n)).2 = none := by
      simp [ProcessCollector.collect, ProcessCollector.collectProcesses, hon]
    cases hnone.symm.trans h
  | true =>
    refine ⟨rfl, ?_⟩
    by_cases hn : ListRefreshed x n
    · exact ⟨n, ⟨n.lt_succ_self, hn, fun k hk hkn => absurd hkn (by omega)⟩, h⟩
    · have hsome : (processOutput config x n).isSome := by
        rw [h]
        rfl
      obtain ⟨k, hk, hout⟩ := lists_present hon n hsome hn
      exact ⟨k, hk.succ hn, hout.symm.trans h⟩

end Output

/-- Every process reported is one of the last refresh, its percentage its own; its disk rates are
its own if and only if its pid was not another process's at the refresh before. -/
theorem process_rates_own (config : ProcessConfig) (x : ℕ → ProcessCollect) (n : ℕ)
    (snapshots : List ProcessSnapshot) (h : processOutput config x n = some snapshots) :
    ∀ s ∈ snapshots, ∃ k, Preceding (ListRefreshed x) k (n + 1) ∧
      ∃ p ∈ (x k).table, p.pid = s.pid ∧ OwnPercent x k p s.cpuUsagePercent ∧
        (OwnDiskRate x k p DiskCounters.totalReadBytes s.readBytesPerSec ∧
          OwnDiskRate x k p DiskCounters.totalWrittenBytes s.writeBytesPerSec ↔
        (config.collectProcessDiskIo = true → ¬ Recycled x k p)) := by
  intro s hs
  obtain ⟨hon, k, hk, hout⟩ := output_of_refresh h
  obtain ⟨p, hp, rfl⟩ := collect_refreshed hon hk.ran hout s hs
  have hchannel : (listing config x k).channel = processChannel (processRounds x) (k + 1) := by
    have hrun : (processCollector config x (k + 1)).channel = _ := collector_channel (k + 1)
    rw [← hrun]
    exact (collectProcesses_channel _ _ _ _).symm
  have hpercent : OwnPercent x k p ((listing config x k).channel.cpuPercentFor p.pid) := by
    rw [hchannel]
    exact percent_own hk.ran hp
  refine ⟨k, hk, p, hp, rfl, hpercent, ?_⟩
  have hread := listRate_own_iff hon hp DiskCounters.totalReadBytes
  have hwritten := listRate_own_iff hon hp DiskCounters.totalWrittenBytes
  constructor
  · intro hown
    exact hread.mp hown.1
  · intro hsame
    exact ⟨hread.mpr hsame, hwritten.mpr hsame⟩

/-- A process of pid 7 that has read so many bytes. -/
def reader (startTime readBytes : ℕ) : ProcessEntry :=
  { pid := 7
    accumulatedCpuTime := 0
    startTime := startTime
    name := "p7"
    displayName := none
    cmd := []
    memory := 0
    footprint := none
    virtualMemory := 0
    runTime := 0
    parent := none
    userId := none
    status := "Runnable"
    diskUsage := ⟨readBytes, 0⟩ }

def allProcesses : ProcessConfig := ⟨true, 200, true⟩

/-- A refresh that finds one process, at second `n`. -/
def refreshAt (n : ℕ) (p : ProcessEntry) : ProcessCollect :=
  ⟨true, tick n, [p], List.nodup_singleton _⟩

/-- A process that reads a megabyte a second. -/
def steady (n : ℕ) : ProcessCollect := refreshAt n (reader 100 (n * 1000000))

theorem process_rates_own_steady :
    ∃ s k p, processOutput allProcesses steady 1 = some [s] ∧ s.readBytesPerSec = some 1000000 ∧
      OwnDiskRate steady k p DiskCounters.totalReadBytes s.readBytesPerSec := by
  let s : ProcessSnapshot :=
    { proc 7 0 0 with readBytesPerSec := some 1000000, writeBytesPerSec := some 0 }
  have hout : processOutput allProcesses steady 1 = some [s] := by decide +kernel
  obtain ⟨k, -, p, hp, -, -, hown⟩ :=
    process_rates_own allProcesses steady 1 [s] hout s (List.mem_singleton_self s)
  have hsame : ¬ Recycled steady k p := by
    rintro ⟨m, q, ⟨-, hq, -⟩, hstart⟩
    rw [List.mem_singleton.mp hp, List.mem_singleton.mp hq] at hstart
    exact hstart rfl
  exact ⟨s, k, p, hout, rfl, (hown.mpr fun _ => hsame).1⟩

/-- At 1 s the pid belongs to another process, which has read a megabyte since its start. -/
def reused : ℕ → ProcessCollect
  | 0 => refreshAt 0 (reader 100 0)
  | n + 1 => refreshAt (n + 1) (reader 200 1000000)

theorem reused_first : Preceding (ListRefreshed reused) 0 1 :=
  ⟨Nat.zero_lt_one, rfl, fun k hk hk1 => absurd hk1 (by omega)⟩

/-- What the new process has read before is reported as read in the second before. -/
theorem reused_inherits :
    (processOutput allProcesses reused 1).map (fun snapshots => snapshots.map (·.readBytesPerSec)) =
      some [some 1000000] ∧
    ¬ OwnDiskRate reused 1 (reader 200 1000000) DiskCounters.totalReadBytes (some 1000000) := by
  refine ⟨by decide +kernel, ?_⟩
  rintro (hnone | ⟨m, q, ⟨hm, hq, -⟩, hstart, -⟩)
  · cases hnone
  · obtain rfl := hm.unique reused_first
    rw [List.mem_singleton.mp hq] at hstart
    exact absurd hstart (by decide)

end Zstats
