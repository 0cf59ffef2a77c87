import Mathlib.Data.List.Sort
import Zstats.Collector.Rate
import Zstats.Framework.Diffing

namespace Zstats

open Diffing

/-- A mounted volume as sysinfo lists it. -/
structure Disk where
  name : String
  mountPoint : String
  fileSystem : String
  kind : String
  isRemovable : Bool
  totalSpace : ℕ
  availableSpace : ℕ
  totalReadBytes : ℕ
  totalWrittenBytes : ℕ
  deriving DecidableEq, Repr

structure DiskCounters where
  totalReadBytes : ℕ
  totalWrittenBytes : ℕ
  deriving DecidableEq, Repr

def diskKey (name mountPoint : String) : String := name ++ ":" ++ mountPoint

def Disk.key (d : Disk) : String := diskKey d.name d.mountPoint

def Disk.counters (d : Disk) : DiskCounters := ⟨d.totalReadBytes, d.totalWrittenBytes⟩

def isNewMount (key : String) (known : List (String × DiskCounters)) : Bool :=
  !known.isEmpty && (lookupLast known key).isNone

def ratioPercent (used total : ℕ) : ℚ := if total = 0 then 0 else (used : ℚ) / total * 100

/-- `Disk::refresh_specifics` with storage: the capacity of the volume as it is mounted now. -/
def Disk.refreshStorage (mounted : List Disk) (d : Disk) : Disk :=
  match mounted.find? fun v => v.name == d.name && v.mountPoint == d.mountPoint with
  | some v => { d with totalSpace := v.totalSpace, availableSpace := v.availableSpace }
  | none => d

/-- `Disks::refresh_specifics`: the mounted volumes with their io counters. Without storage an
entry keeps the capacity it had, and a new one has none. -/
def refreshDisks (disks mounted : List Disk) (storage : Bool) : List Disk :=
  if storage then mounted
  else
    mounted.map fun v =>
      match disks.find? fun d => d.name == v.name && d.mountPoint == v.mountPoint with
      | some d => { v with totalSpace := d.totalSpace, availableSpace := d.availableSpace }
      | none => { v with totalSpace := 0, availableSpace := 0 }

/-- The map of `dedupe_disks_by_name`: under each name the disk kept for it. -/
def bestDisk (disks : List DiskSnapshot) (name : String) : Option DiskSnapshot :=
  disks.foldl
    (fun best disk =>
      if disk.name = "" ∨ disk.name ≠ name then best
      else
        match best with
        | some existing =>
          if existing.mountPoint.utf8ByteSize ≤ disk.mountPoint.utf8ByteSize then best
          else some disk
        | none => some disk)
    none

/-- `names` lists the keys of the map in the order in which it is walked. -/
def dedupeDisksByName (names : List String) (disks : List DiskSnapshot) : List DiskSnapshot :=
  let unnamed := disks.filter fun disk => disk.name = ""
  let out := names.filterMap (bestDisk disks) ++ unnamed
  out.insertionSort fun a b => a.mountPoint ≤ b.mountPoint

structure DiskConfig where
  collectDisks : Bool
  diskIoRefreshInterval : ℕ
  diskStorageRefreshInterval : ℕ
  dedupeDisks : Bool

structure DiskChannel where
  disks : List Disk
  lastDiskStorageRefresh : Option ℕ
  lastDiskIoRefresh : Option ℕ
  lastDiskCounters : List (String × DiskCounters)
  cachedDisks : Option (List DiskSnapshot)

/-- One call: while what it runs, the volumes mounted then, and the order of the names in the
map that removes duplicates. -/
structure DiskRound where
  span : Span
  mounted : List Disk
  names : List String

namespace DiskChannel

/-- The constructor enumerates the volumes, capacities included. -/
def new (config : DiskConfig) (now : ℕ) (mounted : List Disk) : DiskChannel :=
  { disks := if config.collectDisks then mounted else []
    lastDiskStorageRefresh := if config.collectDisks then some now else none
    lastDiskIoRefresh := none
    lastDiskCounters := []
    cachedDisks := none }

/-- The snapshot of one volume, against the counters kept from the previous refresh. -/
def snapshotOf (s : DiskChannel) (elapsed : Option ℕ) (disk : Disk) : DiskSnapshot :=
  let rate (pick : DiskCounters → ℕ) : Option ℕ :=
    Option.map₂ (fun elapsed prev => ratePerSec (pick prev) (pick disk.counters) elapsed) elapsed
      (lookupLast s.lastDiskCounters disk.key)
  let usedBytes := disk.totalSpace - disk.availableSpace
  { name := disk.name
    mountPoint := disk.mountPoint
    fileSystem := disk.fileSystem
    kind := disk.kind
    isRemovable := disk.isRemovable
    totalBytes := disk.totalSpace
    availableBytes := disk.availableSpace
    usedPercent := ratioPercent usedBytes disk.totalSpace
    readBytesPerSec := rate DiskCounters.totalReadBytes
    writeBytesPerSec := rate DiskCounters.totalWrittenBytes }

/-- Whether the refresh that starts now asks for capacities. -/
def storageDue (config : DiskConfig) (s : DiskChannel) (now : ℕ) : Bool :=
  s.lastDiskStorageRefresh.all fun t =>
    decide (config.diskStorageRefreshInterval ≤ durationSince now t)

/-- The list after the refresh and after one capacity read for each new mount. -/
def enumerate (config : DiskConfig) (s : DiskChannel) (r : DiskRound) : List Disk :=
  let storage := storageDue config s r.span.start
  let disks := refreshDisks s.disks r.mounted storage
  if storage then disks
  else disks.map fun disk =>
    if isNewMount disk.key s.lastDiskCounters then disk.refreshStorage r.mounted else disk

def collectDisks (config : DiskConfig) (s : DiskChannel) (r : DiskRound) :
    DiskChannel × Option (List DiskSnapshot) :=
  if !config.collectDisks then (s, none)
  else if !due config.diskIoRefreshInterval s.lastDiskIoRefresh r.span.start then
    (s, s.cachedDisks)
  else
    let elapsed := s.lastDiskIoRefresh.map (durationSince r.span.start)
    let disks := enumerate config s r
    let all := disks.map (snapshotOf s elapsed)
    let snapshots := if config.dedupeDisks then dedupeDisksByName r.names all else all
    ({ disks := disks
       lastDiskStorageRefresh :=
         if storageDue config s r.span.start then some r.span.start else s.lastDiskStorageRefresh
       lastDiskIoRefresh := some r.span.finish
       lastDiskCounters := disks.map fun disk => (disk.key, disk.counters)
       cachedDisks := some snapshots }, some snapshots)

end DiskChannel

end Zstats
