import Zstats.Collector.Rate
import Zstats.Framework.Diffing

namespace Zstats

open Diffing

/-- What a process refresh finds of a process. -/
structure Process where
  pid : Pid
  accumulatedCpuTime : ℕ
  startTime : ℕ
  deriving DecidableEq, Repr

structure CpuTimeBaseline where
  cpuTimeMs : ℕ
  startTimeSecs : ℕ
  deriving DecidableEq, Repr

def percentBetween (prev current : CpuTimeBaseline) (elapsed : ℕ) : ℚ :=
  if current.startTimeSecs ≠ prev.startTimeSecs ∨ current.cpuTimeMs < prev.cpuTimeMs then 0
  else
    let elapsedMs : ℚ := secs elapsed * 1000
    if elapsedMs < 1 then 0
    else ((current.cpuTimeMs - prev.cpuTimeMs : ℕ) : ℚ) / elapsedMs * 100

structure ProcessChannel where
  lastProcessRefresh : Option ℕ
  lastCpuTimes : List (Pid × CpuTimeBaseline)
  cpuPercents : List (Pid × ℚ)

/-- One round: whether processes are refreshed, while what, and the table found. -/
structure ProcessRound where
  refreshProcesses : Bool
  span : Span
  table : List Process

/-- A refresh that takes no time, at second `n`. -/
def tick (n : ℕ) : Span := ⟨fromSecs n, fromSecs n, le_rfl⟩

namespace ProcessChannel

def new : ProcessChannel := ⟨none, [], []⟩

def baselineOf (p : Process) : CpuTimeBaseline := ⟨p.accumulatedCpuTime, p.startTime⟩

def updateCpuPercents (s : ProcessChannel) (elapsed : Option ℕ) (table : List Process) :
    ProcessChannel :=
  let percent (p : Process) : ℚ :=
    (Option.map₂ (fun elapsed prev => percentBetween prev (baselineOf p) elapsed) elapsed
      (lookupLast s.lastCpuTimes p.pid)).getD 0
  { s with
    lastCpuTimes := table.map fun p => (p.pid, baselineOf p)
    cpuPercents := table.map fun p => (p.pid, percent p) }

/-- The elapsed time is taken before the table is read, the stamp after. -/
def refreshProcessTable (s : ProcessChannel) (r : ProcessRound) : ProcessChannel × Option ℕ :=
  if !r.refreshProcesses then (s, none)
  else
    let elapsed := s.lastProcessRefresh.map (durationSince r.span.start)
    ({ s with lastProcessRefresh := some r.span.finish }.updateCpuPercents elapsed r.table, elapsed)

def cpuPercentFor (s : ProcessChannel) (pid : Pid) : ℚ := (lookupLast s.cpuPercents pid).getD 0

end ProcessChannel

end Zstats
