import Mathlib.Data.Rat.Floor
import Mathlib.Algebra.Order.Field.Rat

/-!
The part of `SystemSnapshot` that the modelled functions read or write, and the record kept of
it. Floating-point numbers are exact rationals; durations and instants count nanoseconds.
-/

namespace Zstats

abbrev Pid := Nat

def fromSecs (n : Nat) : Nat := n * 1000000000

/-- `Instant::duration_since`, which saturates at zero. -/
def durationSince (now earlier : Nat) : Nat := now - earlier

def u64Max : Nat := 18446744073709551615

/-- `u64::saturating_add`. -/
def saturatingAdd (a b : Nat) : Nat := min (a + b) u64Max

/-- `x as u64`: truncates towards zero and saturates. -/
def asU64 (x : ℚ) : Nat := min ⌊x⌋.toNat u64Max

theorem asU64_mono {x y : ℚ} (h : x ≤ y) : asU64 x ≤ asU64 y :=
  min_le_min (Int.toNat_le_toNat (Int.floor_le_floor h)) le_rfl

theorem asU64_natCast (n : Nat) : asU64 (n : ℚ) = min n u64Max := by
  simp [asU64]

theorem le_asU64 {n : Nat} {x : ℚ} (hn : n ≤ u64Max) (h : (n : ℚ) ≤ x) : n ≤ asU64 x := by
  have hmono := asU64_mono h
  rwa [asU64_natCast, min_eq_left hn] at hmono

theorem asU64_le (x : ℚ) : asU64 x ≤ u64Max := min_le_right _ _

structure MemorySnapshot where
  totalBytes : Nat
  swapTotalBytes : Nat
  swapUsedBytes : Nat
  compressedBytes : Option Nat
  pressureLevel : Option Nat
  swapInsPerSec : Option Nat
  swapOutsPerSec : Option Nat
  deriving DecidableEq, Repr

structure DiskSnapshot where
  name : String
  mountPoint : String
  fileSystem : String
  kind : String
  isRemovable : Bool
  totalBytes : Nat
  availableBytes : Nat
  usedPercent : ℚ
  readBytesPerSec : Option Nat
  writeBytesPerSec : Option Nat
  deriving DecidableEq, Repr

structure NetworkSnapshot where
  interface : String
  isLoopback : Bool
  receivedBytesPerSec : Nat
  transmittedBytesPerSec : Nat
  receivedPacketsPerSec : Option Nat
  transmittedPacketsPerSec : Option Nat
  receivedErrorsPerSec : Option Nat
  transmittedErrorsPerSec : Option Nat
  deriving DecidableEq, Repr

structure DriveSnapshot where
  name : String
  model : Option String
  sizeBytes : Option Nat
  isRemovable : Bool
  readOpsPerSec : Option Nat
  writeOpsPerSec : Option Nat
  readBytesPerSec : Option Nat
  writeBytesPerSec : Option Nat
  readLatencyMs : Option ℚ
  writeLatencyMs : Option ℚ
  queueDepth : Option ℚ
  readErrors : Nat
  writeErrors : Nat
  deriving DecidableEq, Repr

structure ProcessSnapshot where
  pid : Pid
  name : String
  displayName : Option String
  cmd : String
  cpuUsagePercent : ℚ
  cpuTimeMs : Nat
  memoryBytes : Nat
  physFootprintBytes : Option Nat
  virtualMemoryBytes : Nat
  runTimeSecs : Nat
  parentPid : Option Pid
  userId : Option String
  status : String
  readBytesPerSec : Option Nat
  writeBytesPerSec : Option Nat
  deriving DecidableEq, Repr

structure ProcessGroupSnapshot where
  rootPid : Pid
  name : String
  displayName : Option String
  processCount : Nat
  cpuUsagePercent : ℚ
  memoryBytes : Nat
  physFootprintBytes : Option Nat
  readBytesPerSec : Option Nat
  writeBytesPerSec : Option Nat
  deriving DecidableEq, Repr

/-- `timestamp` counts nanoseconds since the Unix epoch. -/
structure SystemSnapshot where
  timestamp : Int
  memory : MemorySnapshot
  disks : Option (List DiskSnapshot)
  processes : Option (List ProcessSnapshot)
  processGroups : Option (List ProcessGroupSnapshot)
  deriving DecidableEq, Repr

/-- A process with a cpu percentage and a resident size, as the source's tests build it. -/
def proc (pid : Pid) (cpu : ℚ) (mem : Nat) : ProcessSnapshot :=
  { pid := pid
    name := "p" ++ toString pid
    displayName := none
    cmd := ""
    cpuUsagePercent := cpu
    cpuTimeMs := 0
    memoryBytes := mem
    physFootprintBytes := none
    virtualMemoryBytes := mem
    runTimeSecs := 0
    parentPid := none
    userId := none
    status := "Runnable"
    readBytesPerSec := none
    writeBytesPerSec := none }

/-- A snapshot of a process list, as the source's tests build it. -/
def snapshot (processes : List ProcessSnapshot) (totalMemory : Nat) : SystemSnapshot :=
  { timestamp := 0
    memory := ⟨totalMemory, 0, 0, none, none, none, none⟩
    disks := none
    processes := some processes
    processGroups := none }

structure MetricRecord where
  timestamp : Int
  pid : Pid
  name : String
  displayName : Option String
  cpuAvgPercent : ℚ
  memoryAvgBytes : Nat
  memorySharePercent : ℚ
  memoryFootprintBytes : Option Nat
  cpuTimeMs : Nat
  deriving DecidableEq, Repr

end Zstats
