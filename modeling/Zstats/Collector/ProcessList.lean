import Mathlib.Data.List.Sort
import Zstats.Collector.Disks
import Zstats.Collector.Processes

namespace Zstats

open Diffing

/-- A process as a refresh finds it, with all that the list tells of it. -/
structure ProcessEntry extends Process where
  name : String
  displayName : Option String
  cmd : List String
  memory : ℕ
  footprint : Option ℕ
  virtualMemory : ℕ
  runTime : ℕ
  parent : Option Pid
  userId : Option String
  status : String
  diskUsage : DiskCounters
  deriving DecidableEq, Repr

/-- One collect: whether the process table is refreshed, while what, and the table, whose pids are
the keys of a map. -/
structure ProcessCollect where
  refreshProcesses : Bool
  span : Span
  table : List ProcessEntry
  pids_nodup : (table.map fun p => p.pid).Nodup

def ProcessCollect.round (r : ProcessCollect) : ProcessRound :=
  ⟨r.refreshProcesses, r.span, r.table.map ProcessEntry.toProcess⟩

/-- What the selection compares: `cpu` stands for any number in the order of `total_cmp`. -/
structure ProcKey where
  pid : Pid
  cpu : ℚ
  mem : ℕ
  deriving DecidableEq, Repr

/-- `by_cpu_then_memory`. -/
def ByCpuThenMemory (a b : ProcKey) : Prop :=
  b.cpu < a.cpu ∨ b.cpu = a.cpu ∧ (b.mem < a.mem ∨ b.mem = a.mem ∧ a.pid ≤ b.pid)

instance : DecidableRel ByCpuThenMemory := fun _ _ => inferInstanceAs (Decidable (_ ∨ _))

/-- Half of the budget goes to the first by cpu, the rest to the first by memory. -/
def selectTopPids (keys : List ProcKey) (max : ℕ) : List Pid :=
  let ranked := keys.insertionSort ByCpuThenMemory
  let kept :=
    if max < ranked.length then
      let cpuBudget := max / 2
      let rest := (ranked.drop cpuBudget).insertionSort fun a b => b.mem ≤ a.mem
      (ranked.take cpuBudget ++ rest.take (max - cpuBudget)).insertionSort ByCpuThenMemory
    else ranked
  kept.map ProcKey.pid

structure ProcessConfig where
  collectProcesses : Bool
  maxProcesses : ℕ
  collectProcessDiskIo : Bool

structure ProcessCollector where
  channel : ProcessChannel
  lastProcessDiskCounters : List (Pid × DiskCounters)
  cachedProcesses : Option (List ProcessSnapshot)

namespace ProcessCollector

def new : ProcessCollector := ⟨.new, [], none⟩

def rank (s : ProcessCollector) (p : ProcessEntry) : ProcKey :=
  ⟨p.pid, s.channel.cpuPercentFor p.pid, p.memory⟩

/-- The counters of the table, as a map of its pids. -/
def diskCounters (config : ProcessConfig) (table : List ProcessEntry) : List (Pid × DiskCounters) :=
  if config.collectProcessDiskIo then table.map fun p => (p.pid, p.diskUsage) else []

/-- A disk rate of the process, against the counters kept under its pid. -/
def diskRate (config : ProcessConfig) (s : ProcessCollector) (elapsed : Option ℕ)
    (table : List ProcessEntry) (pid : Pid) (pick : DiskCounters → ℕ) : Option ℕ :=
  if config.collectProcessDiskIo then
    let current := (lookupLast (diskCounters config table) pid).getD ⟨0, 0⟩
    Option.map₂ (fun elapsed prev => ratePerSec (pick prev) (pick current) elapsed) elapsed
      (lookupLast s.lastProcessDiskCounters pid)
  else none

def snapshotOf (config : ProcessConfig) (s : ProcessCollector) (elapsed : Option ℕ)
    (table : List ProcessEntry) (p : ProcessEntry) : ProcessSnapshot where
  pid := p.pid
  name := p.name
  displayName := p.displayName
  cmd := " ".intercalate p.cmd
  cpuUsagePercent := s.channel.cpuPercentFor p.pid
  cpuTimeMs := p.accumulatedCpuTime
  memoryBytes := p.memory
  physFootprintBytes := p.footprint
  virtualMemoryBytes := p.virtualMemory
  runTimeSecs := p.runTime
  parentPid := p.parent
  userId := p.userId
  status := p.status
  readBytesPerSec := diskRate config s elapsed table p.pid DiskCounters.totalReadBytes
  writeBytesPerSec := diskRate config s elapsed table p.pid DiskCounters.totalWrittenBytes

def collectProcesses (config : ProcessConfig) (s : ProcessCollector) (refreshed : Bool)
    (elapsed : Option ℕ) (table : List ProcessEntry) :
    ProcessCollector × Option (List ProcessSnapshot) :=
  if !config.collectProcesses then (s, none)
  else if !refreshed then (s, s.cachedProcesses)
  else
    let selectedPids := selectTopPids (table.map s.rank) config.maxProcesses
    let selected := selectedPids.filterMap fun pid =>
      (table.find? fun p => p.pid == pid).map (snapshotOf config s elapsed table)
    ({ s with
        lastProcessDiskCounters := diskCounters config table
        cachedProcesses := some selected }, some selected)

/-- The table is refreshed if it is due, and the list made from it. -/
def collect (config : ProcessConfig) (s : ProcessCollector) (r : ProcessCollect) :
    ProcessCollector × Option (List ProcessSnapshot) :=
  let refreshed := s.channel.refreshProcessTable r.round
  collectProcesses config { s with channel := refreshed.1 } r.refreshProcesses refreshed.2 r.table

end ProcessCollector

end Zstats
