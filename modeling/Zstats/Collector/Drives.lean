import Mathlib.Data.List.Forall2
import Zstats.Collector.Rate
import Zstats.Framework.Diffing
import Zstats.Framework.Machine

namespace Zstats

structure DriveCounters where
  name : String
  model : Option String
  sizeBytes : Option ℕ
  isRemovable : Bool
  readOps : ℕ
  writeOps : ℕ
  readBytes : ℕ
  writeBytes : ℕ
  readTimeNs : ℕ
  writeTimeNs : ℕ
  readErrors : ℕ
  writeErrors : ℕ
  deriving DecidableEq, Repr

def latencyMs (prevTimeNs timeNs prevOps ops : ℕ) : Option ℚ :=
  if ops ≤ prevOps ∨ timeNs < prevTimeNs then none
  else some (((timeNs - prevTimeNs : ℕ) : ℚ) / (ops - prevOps : ℕ) / 1000000)

def checkedSub (a b : ℕ) : Option ℕ := if b ≤ a then some (a - b) else none

def checkedAdd (a b : ℕ) : Option ℕ := if a + b ≤ u64Max then some (a + b) else none

/-- The previous counters and the time since, where there is something to diff. -/
def diffed (prev : Option DriveCounters) (elapsed : Option ℕ) : Option (DriveCounters × ℕ) :=
  match prev, elapsed with
  | some prev, some elapsed => if elapsed = 0 then none else some (prev, elapsed)
  | _, _ => none

def queueDepth (prev current : DriveCounters) (elapsed : ℕ) : Option ℚ := do
  let reading ← checkedSub current.readTimeNs prev.readTimeNs
  let writing ← checkedSub current.writeTimeNs prev.writeTimeNs
  let busyNs ← checkedAdd reading writing
  return (busyNs : ℚ) / elapsed

def driveSnapshot (prev : Option DriveCounters) (current : DriveCounters) (elapsed : Option ℕ) :
    DriveSnapshot :=
  let rate (pick : DriveCounters → ℕ) : Option ℕ :=
    (diffed prev elapsed).map fun (prev, elapsed) => ratePerSec (pick prev) (pick current) elapsed
  { name := current.name
    model := current.model
    sizeBytes := current.sizeBytes
    isRemovable := current.isRemovable
    readOpsPerSec := rate DriveCounters.readOps
    writeOpsPerSec := rate DriveCounters.writeOps
    readBytesPerSec := rate DriveCounters.readBytes
    writeBytesPerSec := rate DriveCounters.writeBytes
    readLatencyMs := (diffed prev elapsed).bind fun (prev, _) =>
      latencyMs prev.readTimeNs current.readTimeNs prev.readOps current.readOps
    writeLatencyMs := (diffed prev elapsed).bind fun (prev, _) =>
      latencyMs prev.writeTimeNs current.writeTimeNs prev.writeOps current.writeOps
    queueDepth := (diffed prev elapsed).bind fun (prev, elapsed) =>
      queueDepth prev current elapsed
    readErrors := current.readErrors
    writeErrors := current.writeErrors }

/-- The counters of a read as a map; of two drives of one name the later one stays. -/
def byName (drives : List DriveCounters) : String → Option DriveCounters :=
  Diffing.lookupLast (drives.map fun drive => (drive.name, drive))

structure DriveChannel where
  collect : Bool
  lastRefresh : Option ℕ
  lastCounters : String → Option DriveCounters
  cached : Option (List DriveSnapshot)

def DriveChannel.new (collect : Bool) : DriveChannel := ⟨collect, none, fun _ => none, none⟩

/-- One call: the clock, and what `ioreg::drives()` answers if it is asked. -/
structure DriveRound where
  now : ℕ
  read : Option (List DriveCounters)

namespace DriveChannel

def collectDrives (interval : ℕ) (s : DriveChannel) (r : DriveRound) :
    DriveChannel × Option (List DriveSnapshot) :=
  if !s.collect then (s, none)
  else if !due interval s.lastRefresh r.now then (s, s.cached)
  else
    match r.read with
    | none => ({ s with lastRefresh := some r.now, cached := none }, none)
    | some current =>
      let elapsed := s.lastRefresh.map (durationSince r.now)
      let snapshots := current.map fun drive =>
        driveSnapshot (s.lastCounters drive.name) drive elapsed
      ({ s with
          lastRefresh := some r.now
          lastCounters := byName current
          cached := some snapshots }, some snapshots)

/-- Either direction drops the counters and the last sample. -/
def setCollectDrives (s : DriveChannel) (on : Bool) : DriveChannel :=
  if s.collect = on then s else new on

/-- The round reads the drives rather than answering from the cache. -/
def Reads (interval : ℕ) (s : DriveChannel) (r : DriveRound) : Prop :=
  s.collect = true ∧ due interval s.lastRefresh r.now = true

instance (interval : ℕ) (s : DriveChannel) (r : DriveRound) : Decidable (Reads interval s r) :=
  inferInstanceAs (Decidable (_ ∧ _))

variable {interval : ℕ} {s : DriveChannel} {r : DriveRound}

theorem collectDrives_idle (h : ¬ Reads interval s r) : (collectDrives interval s r).1 = s := by
  unfold collectDrives
  rcases off_or_not_due h with hoff | ⟨hon, hdue⟩
  · simp [hoff]
  · simp [hon, hdue]

theorem collectDrives_failed (h : Reads interval s r) (hr : r.read = none) :
    collectDrives interval s r = ({ s with lastRefresh := some r.now, cached := none }, none) := by
  simp [collectDrives, h.1, h.2, hr]

theorem collectDrives_read {current : List DriveCounters} (h : Reads interval s r)
    (hr : r.read = some current) :
    collectDrives interval s r =
      ({ s with
          lastRefresh := some r.now
          lastCounters := byName current
          cached := some (current.map fun drive => driveSnapshot (s.lastCounters drive.name) drive
            (s.lastRefresh.map (durationSince r.now))) },
        some (current.map fun drive => driveSnapshot (s.lastCounters drive.name) drive
          (s.lastRefresh.map (durationSince r.now)))) := by
  simp [collectDrives, h.1, h.2, hr]

end DriveChannel

/-! What a run has read, and what its figures ought to be. -/

section Runs

variable (interval : ℕ) (collect : Bool) (x : ℕ → DriveRound)

/-- The channel before round `n`. -/
def driveChannel (n : ℕ) : DriveChannel :=
  Machine.stateAt (DriveChannel.collectDrives interval) (DriveChannel.new collect) x n

def driveOutput (n : ℕ) : Option (List DriveSnapshot) :=
  Machine.outAt (DriveChannel.collectDrives interval) (DriveChannel.new collect) x n

/-- Round `n` reads the drives and finds `current`. -/
def ReadAt (n : ℕ) (current : List DriveCounters) : Prop :=
  (driveChannel interval collect x n).Reads interval (x n) ∧ (x n).read = some current

/-- Round `n` asks for the drives and gets nothing. -/
def FailedAt (n : ℕ) : Prop :=
  (driveChannel interval collect x n).Reads interval (x n) ∧ (x n).read = none

instance (n : ℕ) (current : List DriveCounters) : Decidable (ReadAt interval collect x n current) :=
  inferInstanceAs (Decidable (_ ∧ _))

instance (n : ℕ) : Decidable (FailedAt interval collect x n) := inferInstanceAs (Decidable (_ ∧ _))

/-- `m` is the successful read that immediately precedes round `n`. -/
structure PrecedingRead (m n : ℕ) (before : List DriveCounters) : Prop where
  earlier : m < n
  read : ReadAt interval collect x m before
  nearest : ∀ k l, m < k → k < n → ¬ ReadAt interval collect x k l

end Runs

structure Forward (prev current : DriveCounters) : Prop where
  readOps : prev.readOps ≤ current.readOps
  writeOps : prev.writeOps ≤ current.writeOps
  readBytes : prev.readBytes ≤ current.readBytes
  writeBytes : prev.writeBytes ≤ current.writeBytes
  readTimeNs : prev.readTimeNs ≤ current.readTimeNs
  writeTimeNs : prev.writeTimeNs ≤ current.writeTimeNs

/-- Some figure that takes two reads is there. -/
def Claimed (s : DriveSnapshot) : Prop :=
  s.readOpsPerSec.isSome ∨ s.writeOpsPerSec.isSome ∨ s.readBytesPerSec.isSome ∨
    s.writeBytesPerSec.isSome ∨ s.queueDepth.isSome

/-- A counter's difference over a time, in units per second. -/
def perSec (prev current elapsed : ℕ) : ℕ := roundU64 (((current : ℚ) - prev) / secs elapsed)

/-- The figures of `s` are those of a drive that went from `prev` to `current` in `elapsed`. -/
structure Measured (prev current : DriveCounters) (elapsed : ℕ) (s : DriveSnapshot) : Prop where
  readOps : ∀ r, s.readOpsPerSec = some r → r = perSec prev.readOps current.readOps elapsed
  writeOps : ∀ r, s.writeOpsPerSec = some r → r = perSec prev.writeOps current.writeOps elapsed
  readBytes : ∀ r, s.readBytesPerSec = some r →
    r = perSec prev.readBytes current.readBytes elapsed
  writeBytes : ∀ r, s.writeBytesPerSec = some r →
    r = perSec prev.writeBytes current.writeBytes elapsed
  queueDepth : ∀ q, s.queueDepth = some q →
    q = ((current.readTimeNs - prev.readTimeNs : ℚ) +
      (current.writeTimeNs - prev.writeTimeNs)) / elapsed

/-- What round `n` reports of a drive `c` it has just read is measured between that read and
the successful one before it. -/
def TrueReport (interval : ℕ) (collect : Bool) (x : ℕ → DriveRound) (n : ℕ) (c : DriveCounters)
    (s : DriveSnapshot) : Prop :=
  Claimed s → ∃ m before prev, PrecedingRead interval collect x m n before ∧
    byName before c.name = some prev ∧
    (Forward prev c → Measured prev c ((x n).now - (x m).now) s)

/-- Every drive that round `n` has just read is reported truthfully. -/
def TrueReports (interval : ℕ) (collect : Bool) (x : ℕ → DriveRound) (n : ℕ) : Prop :=
  ∀ current, ReadAt interval collect x n current → ∃ snapshots,
    driveOutput interval collect x n = some snapshots ∧
    List.Forall₂ (TrueReport interval collect x n) current snapshots

end Zstats
