import Mathlib.Data.Finset.Basic
import Zstats.Alerts.Event
import Zstats.Framework.Machine
import Zstats.Rolling

namespace Zstats

/-- The fields of `AlertEngine` that belong to the memory-pressure rule. -/
structure PressureState where
  pressureSince : Option Nat
  pressureNormalSince : Option Nat
  pressureAlerted : Nat
  pressureLastAlert : Option Nat
  pressureReminderGap : Nat
  pressureFirstAlert : Option Nat
  deriving DecidableEq, Repr

/-- What `clear_pressure` leaves, and what a new engine starts with. -/
def PressureState.cleared : PressureState := ⟨none, none, 0, none, 0, none⟩

structure AlertEngine where
  fast : Option ProcessWindows
  slow : Option ProcessWindows
  apps : Option ProcessWindows
  episodes : EpisodeState
  diskDisarmed : Finset String
  pressure : PressureState
  lastRecord : Option Nat

def memShare (totalMemory : Nat) (avgBytes : ℚ) : ℚ :=
  if 0 < totalMemory then avgBytes / totalMemory else 0

section Disk

def evaluateDisk (active : ActiveThresholds) (acc : Finset String × List AlertEvent)
    (d : DiskSnapshot) : Finset String × List AlertEvent :=
  match active.disk.forProcess d.mountPoint with
  | none => acc
  | some threshold =>
    if d.totalBytes = 0 then acc
    else
      let used : ℚ := ((d.totalBytes - d.availableBytes : Nat) : ℚ) / d.totalBytes
      if d.mountPoint ∈ acc.1 then
        if used < threshold - diskRearmMargin then (acc.1.erase d.mountPoint, acc.2) else acc
      else if threshold ≤ used then
        (insert d.mountPoint acc.1, acc.2 ++ [{
          subject := .volume d.mountPoint
          detail := .disk (used * 100) (threshold * 100) d.availableBytes d.totalBytes
          repeatAfter := none }])
      else acc

def evaluateDisks (disarmed : Finset String) (disks : Option (List DiskSnapshot))
    (active : ActiveThresholds) : Finset String × List AlertEvent :=
  match disks with
  | none => (disarmed, [])
  | some disks =>
    disks.foldl (evaluateDisk active)
      (disarmed.filter fun mount => disks.any fun d => d.mountPoint = mount, [])

end Disk

section Pressure

/-- How long a level must have been above normal before it first alerts. -/
def requiredSpan (level : Nat) : Nat := if 4 ≤ level then window else slowWindow

/-- The pressure rule on one reading, with `repeat_after` and `sustained` of the event. -/
def readPressure (p : PressureState) (now : Nat) (threshold level : Nat) :
    PressureState × Option (Option Nat × Nat) :=
  if level ≤ 1 then
    let normalSince := p.pressureNormalSince.getD now
    if pressureRearm ≤ durationSince now normalSince then (.cleared, none)
    else ({ p with pressureNormalSince := some normalSince }, none)
  else
    let since := p.pressureSince.getD now
    let q := { p with pressureNormalSince := none, pressureSince := some since }
    let elapsed := durationSince now since
    if threshold ≤ level ∧ q.pressureAlerted < level ∧ requiredSpan level ≤ elapsed then
      ({ q with
        pressureAlerted := level
        pressureReminderGap := persistReminder
        pressureFirstAlert := some (q.pressureFirstAlert.getD now)
        pressureLastAlert := some now }, some (none, elapsed))
    else if threshold ≤ level ∧ 0 < q.pressureAlerted ∧ q.pressureLastAlert.any (fun last =>
        decide (q.pressureReminderGap ≤ durationSince now last)) = true then
      ({ q with
        pressureReminderGap := min (q.pressureReminderGap * 2) pressureReminderMax
        pressureLastAlert := some now },
        some (q.pressureFirstAlert.map fun first => durationSince now first, elapsed))
    else (q, none)

def pressureEvent (snapshot : SystemSnapshot) (level : Nat) (sustained : Nat)
    (repeatAfter : Option Nat) : AlertEvent :=
  { subject := .system
    detail := .pressure {
      level := level
      sustained := sustained
      swapUsedBytes := snapshot.memory.swapUsedBytes
      swapTotalBytes := snapshot.memory.swapTotalBytes
      compressedBytes := snapshot.memory.compressedBytes
      swapInsPerSec := snapshot.memory.swapInsPerSec
      swapOutsPerSec := snapshot.memory.swapOutsPerSec
      topConsumers := topMemoryConsumers snapshot }
    repeatAfter := repeatAfter }

def evaluatePressure (p : PressureState) (now : Nat) (snapshot : SystemSnapshot)
    (active : ActiveThresholds) : PressureState × List AlertEvent :=
  match active.pressure, snapshot.memory.pressureLevel with
  | some threshold, some level =>
    let (p, notify) := readPressure p now threshold level
    (p, notify.toList.map fun (repeatAfter, sustained) =>
      pressureEvent snapshot level sustained repeatAfter)
  | _, _ => (p, [])

end Pressure

section Judge

/-- What a windowed rule makes of one subject: nothing, under its bar, or at its bar. -/
inductive Verdict where
  | skip
  | below
  | reached (subject : AlertSubject) (detail : AlertDetail)

/-- Under the bar the episode is over; at the bar it may notify. -/
def judge (now : Nat) (cooldown : Nat) (acc : EpisodeState × List AlertEvent)
    (kv : Key × Verdict) : EpisodeState × List AlertEvent :=
  match kv.2 with
  | .skip => acc
  | .below => (acc.1.clear kv.1, acc.2)
  | .reached subject detail =>
    let (episodes, notify) := acc.1.notify kv.1 now cooldown
    (episodes, acc.2 ++ notify.toList.map fun n => ⟨subject, detail, n.elapsed⟩)

/-- The verdicts of one rule section, in order. -/
def judgeAll (now : Nat) (cooldown : Nat) (episodes : EpisodeState)
    (verdicts : List (Key × Verdict)) : EpisodeState × List AlertEvent :=
  verdicts.foldl (judge now cooldown) (episodes, [])

end Judge

section Apps

/-- A group in the shape `ProcessWindows` records, keyed by its root pid. -/
def asProcess (g : ProcessGroupSnapshot) : ProcessSnapshot :=
  { pid := g.rootPid
    name := g.name
    displayName := g.displayName
    cmd := ""
    cpuUsagePercent := g.cpuUsagePercent
    cpuTimeMs := 0
    memoryBytes := g.memoryBytes
    physFootprintBytes := g.physFootprintBytes
    virtualMemoryBytes := 0
    runTimeSecs := 0
    parentPid := none
    userId := none
    status := ""
    readBytesPerSec := none
    writeBytesPerSec := none }

/-- The footprint where some sample carried one, the resident size otherwise. -/
def heldBytes (stat : ProcessStats) : ℚ := stat.footprintAvgBytes.getD stat.memoryAvgBytes

def memoryDetail (totalMemory bar : Nat) (heldBytes : ℚ) : AlertDetail :=
  .memory (asU64 heldBytes) (memShare totalMemory heldBytes * 100) bar
    (memShare totalMemory bar * 100) slowWindow

def appCpuVerdict (active : ActiveThresholds) (g : ProcessGroupSnapshot) (stat : ProcessStats) :
    Verdict :=
  match active.appCpu.forProcess g.name with
  | none => .skip
  | some threshold =>
    if stat.cpuAvg < threshold then .below
    else .reached (.app g.rootPid g.name g.displayName g.processCount)
      (.cpu stat.cpuAvg threshold slowWindow false)

def appMemoryVerdict (active : ActiveThresholds) (totalMemory : Nat) (g : ProcessGroupSnapshot)
    (stat : ProcessStats) : Verdict :=
  match active.appMemoryBarBytes g.name totalMemory with
  | none => .skip
  | some bar =>
    if totalMemory = 0 then .skip
    else if asU64 (heldBytes stat) < bar then .below
    else .reached (.app g.rootPid g.name g.displayName g.processCount)
      (memoryDetail totalMemory bar (heldBytes stat))

def appVerdicts (active : ActiveThresholds) (totalMemory : Nat) (stats : StatsMap)
    (g : ProcessGroupSnapshot) : List (Key × Verdict) :=
  match stats g.rootPid with
  | none => []
  | some stat =>
    if stat.span < slowMinSpan then []
    else [((g.rootPid, .appCpu), appCpuVerdict active g stat),
      ((g.rootPid, .appMemory), appMemoryVerdict active totalMemory g stat)]

def AlertKind.isApp : AlertKind → Bool
  | .appCpu | .appMemory => true
  | _ => false

def evaluateApps (apps : Option ProcessWindows) (episodes : EpisodeState) (now : Nat)
    (snapshot : SystemSnapshot) (active : ActiveThresholds) :
    Option ProcessWindows × EpisodeState × List AlertEvent :=
  match snapshot.processGroups with
  | none => (apps, episodes, [])
  | some groups =>
    if active.appCpu.anyEnabled || active.appMemory.anyEnabled then
      let (apps, stats) := (apps.getD (.new slowWindow)).record now (groups.map asProcess)
      let episodes := episodes.retain fun (pid, kind) => !kind.isApp || (stats pid).isSome
      let verdicts := groups.flatMap (appVerdicts active snapshot.memory.totalBytes stats)
      let (episodes, events) := judgeAll now active.cooldown episodes verdicts
      (some apps, episodes, events)
    else (apps, episodes, [])

end Apps

section Processes

def cpuVerdict (active : ActiveThresholds) (p : ProcessSnapshot) (fast slow : ProcessStats) :
    Verdict :=
  match active.cpu.forProcess p.name with
  | none => .skip
  | some threshold =>
    let acute := decide (minSpan ≤ fast.span) && decide (acuteFactor * threshold ≤ fast.cpuAvg)
    let chronic := decide (slowMinSpan ≤ slow.span) && decide (threshold ≤ slow.cpuAvg)
    if !(acute || chronic) then .below
    else .reached (.process p.pid p.name p.displayName)
      (.cpu (if acute then fast.cpuAvg else slow.cpuAvg)
        (if acute then acuteFactor * threshold else threshold)
        (if acute then window else slowWindow) acute)

def memoryVerdict (active : ActiveThresholds) (totalMemory : Nat) (p : ProcessSnapshot)
    (slow : ProcessStats) : Verdict :=
  match active.memoryBarBytes p.name totalMemory with
  | none => .skip
  | some bar =>
    if totalMemory = 0 ∨ slow.span < slowMinSpan then .skip
    else if asU64 (heldBytes slow) < bar then .below
    else .reached (.process p.pid p.name p.displayName)
      (memoryDetail totalMemory bar (heldBytes slow))

def processVerdicts (active : ActiveThresholds) (totalMemory : Nat)
    (fastStats slowStats : StatsMap) (p : ProcessSnapshot) : List (Key × Verdict) :=
  match fastStats p.pid, slowStats p.pid with
  | some fast, some slow => [((p.pid, .cpu), cpuVerdict active p fast slow),
      ((p.pid, .memory), memoryVerdict active totalMemory p slow)]
  | _, _ => []

/-- The pids that spent the most CPU time over the fast window, ties broken by pid. -/
def topCpuTime (processes : List ProcessSnapshot) (fastStats : StatsMap) : List Pid :=
  let ranked := (processes.map (·.pid)).dedup.filterMap fun pid =>
    (fastStats pid).bind fun s =>
      if minSpan ≤ s.span ∧ 0 < s.cpuTimeDeltaMs then some (pid, s.cpuTimeDeltaMs) else none
  let ranked := ranked.mergeSort fun a b =>
    decide (b.2 < a.2) || (a.2 == b.2 && decide (a.1 ≤ b.1))
  (ranked.take recordTopCpuTime).map (·.1)

/-- The record of one process in a recording pass: base thresholds only. -/
def recordOf (snapshot : SystemSnapshot) (active : ActiveThresholds) (topCpuTime : List Pid)
    (fastStats slowStats : StatsMap) (p : ProcessSnapshot) : Option MetricRecord :=
  let totalMemory := snapshot.memory.totalBytes
  match fastStats p.pid, slowStats p.pid with
  | some fast, some _ =>
    if minSpan ≤ fast.span then
      let overCpu := active.cpu.base.any fun threshold => decide (threshold ≤ fast.cpuAvg)
      let overMem := (active.memoryBaseBytes totalMemory).any fun bar =>
        decide (0 < totalMemory) && decide (bar ≤ asU64 (heldBytes fast))
      if overCpu || overMem || topCpuTime.contains p.pid then
        some {
          timestamp := snapshot.timestamp
          pid := p.pid
          name := p.name
          displayName := p.displayName
          cpuAvgPercent := fast.cpuAvg
          memoryAvgBytes := asU64 fast.memoryAvgBytes
          memorySharePercent := memShare totalMemory fast.memoryAvgBytes * 100
          memoryFootprintBytes := fast.footprintAvgBytes.map asU64
          cpuTimeMs := p.cpuTimeMs }
      else none
    else none
  | _, _ => none

def recordDue (lastRecord : Option Nat) (now : Nat) : Bool :=
  lastRecord.all fun t => decide (recordEvery ≤ durationSince now t)

def evaluateProcesses (e : AlertEngine) (now : Nat) (snapshot : SystemSnapshot)
    (active : ActiveThresholds) (processes : List ProcessSnapshot) : AlertEngine × Evaluation :=
  let due := recordDue e.lastRecord now
  let (fast, fastStats) := (e.fast.getD (.new window)).record now processes
  let (slow, slowStats) := (e.slow.getD (.new slowWindow)).record now processes
  let top := if due then topCpuTime processes fastStats else []
  let episodes := e.episodes.retain fun (pid, kind) => kind.isApp || (fastStats pid).isSome
  let verdicts := processes.flatMap
    (processVerdicts active snapshot.memory.totalBytes fastStats slowStats)
  let (episodes, events) := judgeAll now active.cooldown episodes verdicts
  let records :=
    if due then processes.filterMap (recordOf snapshot active top fastStats slowStats) else []
  ({ e with
    fast := some fast
    slow := some slow
    episodes := episodes
    lastRecord := if due then some now else e.lastRecord }, ⟨events, records⟩)

end Processes

namespace AlertEngine

def new : AlertEngine := ⟨none, none, none, .empty, ∅, .cleared, none⟩

/-- `AlertEngine::evaluate`. -/
def evaluate (e : AlertEngine) (now : Nat) (snapshot : SystemSnapshot)
    (active : ActiveThresholds) : AlertEngine × Evaluation :=
  let (diskDisarmed, diskEvents) := evaluateDisks e.diskDisarmed snapshot.disks active
  let (pressure, pressureEvents) := evaluatePressure e.pressure now snapshot active
  let (apps, episodes, appEvents) := evaluateApps e.apps e.episodes now snapshot active
  let e := { e with
    diskDisarmed := diskDisarmed
    pressure := pressure
    apps := apps
    episodes := episodes }
  let events := diskEvents ++ pressureEvents ++ appEvents
  match snapshot.processes with
  | none => (e, ⟨events, []⟩)
  | some processes =>
    let (e, evaluation) := evaluateProcesses e now snapshot active processes
    (e, ⟨events ++ evaluation.events, evaluation.records⟩)

/-- The arguments of one call of `evaluate`. -/
structure Input where
  now : Nat
  snapshot : SystemSnapshot
  active : ActiveThresholds

def step (e : AlertEngine) (i : Input) : AlertEngine × Evaluation :=
  e.evaluate i.now i.snapshot i.active

/-- The engine before evaluation `n` of a run. -/
def before (x : ℕ → Input) (n : ℕ) : AlertEngine := Machine.stateAt step new x n

/-- What evaluation `n` of a run returns. -/
def result (x : ℕ → Input) (n : ℕ) : Evaluation := Machine.outAt step new x n

end AlertEngine

end Zstats
