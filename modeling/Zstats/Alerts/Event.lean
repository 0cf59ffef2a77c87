import Zstats.Alerts.Episodes

namespace Zstats

inductive AlertSubject where
  | process (pid : Pid) (name : String) (displayName : Option String)
  | app (rootPid : Pid) (name : String) (displayName : Option String) (processCount : Nat)
  | volume (mountPoint : String)
  | system
  deriving DecidableEq, Repr

structure MemoryConsumer where
  pid : Pid
  name : String
  displayName : Option String
  bytes : Nat
  sharePercent : ℚ
  processCount : Nat
  deriving DecidableEq, Repr

structure PressureDetail where
  level : Nat
  sustained : Nat
  swapUsedBytes : Nat
  swapTotalBytes : Nat
  compressedBytes : Option Nat
  swapInsPerSec : Option Nat
  swapOutsPerSec : Option Nat
  topConsumers : List MemoryConsumer
  deriving DecidableEq, Repr

inductive AlertDetail where
  | cpu (avgPercent thresholdPercent : ℚ) (window : Nat) (runaway : Bool)
  | memory (avgBytes : Nat) (sharePercent : ℚ) (thresholdBytes : Nat) (thresholdPercent : ℚ)
      (window : Nat)
  | disk (usedPercent thresholdPercent : ℚ) (availableBytes totalBytes : Nat)
  | pressure (detail : PressureDetail)
  deriving DecidableEq, Repr

structure AlertEvent where
  subject : AlertSubject
  detail : AlertDetail
  repeatAfter : Option Nat
  deriving DecidableEq, Repr

namespace AlertEvent

/-- `AlertEvent::kind`. -/
def kind (e : AlertEvent) : AlertKind :=
  let app := match e.subject with | .app .. => true | _ => false
  match e.detail with
  | .cpu .. => if app then .appCpu else .cpu
  | .memory .. => if app then .appMemory else .memory
  | .disk .. => .disk
  | .pressure _ => .pressure

/-- The key under which the episode of a per-process or per-application event is kept. -/
def key (e : AlertEvent) : Option Key :=
  match e.subject with
  | .process pid _ _ => some (pid, e.kind)
  | .app rootPid _ _ _ => some (rootPid, e.kind)
  | _ => none

end AlertEvent

structure Evaluation where
  events : List AlertEvent
  records : List MetricRecord
  deriving DecidableEq, Repr

def holderShare (bytes total : Nat) : ℚ := bytes / total

/-- `top_memory_consumers`: groups where there are any, else single processes. -/
def topMemoryConsumers (snapshot : SystemSnapshot) : List MemoryConsumer :=
  let total := snapshot.memory.totalBytes
  if total = 0 then []
  else
    let consumer (pid : Pid) (name : String) (displayName : Option String) (bytes count : Nat) :
        MemoryConsumer :=
      ⟨pid, name, displayName, bytes, holderShare bytes total * 100, count⟩
    let ranked : List MemoryConsumer :=
      match snapshot.processGroups.filter fun groups => !groups.isEmpty with
      | some groups => groups.map fun g =>
          consumer g.rootPid g.name g.displayName (g.physFootprintBytes.getD g.memoryBytes)
            g.processCount
      | none => (snapshot.processes.getD []).map fun p =>
          consumer p.pid p.name p.displayName (p.physFootprintBytes.getD p.memoryBytes) 1
    let ranked := ranked.filter fun c => decide (pressureConsumerFloor ≤ holderShare c.bytes total)
    let ranked := ranked.mergeSort fun a b =>
      decide (b.bytes < a.bytes) || (a.bytes == b.bytes && decide (a.pid ≤ b.pid))
    ranked.take pressureTopConsumers

end Zstats
