import Zstats.Rolling

namespace Zstats

open ProcessWindows

/-- An entry of a process list, and the instant at which it was listed. -/
structure SeenProcess where
  instant : ℕ
  process : ProcessSnapshot

namespace SeenProcess

/-- What a window is to hold of an entry. -/
def carried (e : SeenProcess) : Sample where
  sampledAt := e.instant
  cpu := e.process.cpuUsagePercent
  memoryBytes := e.process.memoryBytes
  footprintBytes := e.process.physFootprintBytes
  cpuTimeMs := e.process.cpuTimeMs

theorem sampleOf_eq (now : ℕ) (p : ProcessSnapshot) : sampleOf now p = (SeenProcess.mk now p).carried :=
  rfl

/-- The entries of `pid` in a list. -/
def ofList (now : ℕ) (processes : List ProcessSnapshot) (pid : Pid) : List SeenProcess :=
  (processes.filter (·.pid = pid)).map (SeenProcess.mk now)

theorem added_eq (now : ℕ) (processes : List ProcessSnapshot) (pid : Pid) :
    added now processes pid = (ofList now processes pid).map carried := by
  rw [added, ofList, List.map_map]
  rfl

variable (entries : List SeenProcess)

def meanCpu : ℚ := (entries.map (·.process.cpuUsagePercent)).sum / entries.length

def footprints : List ℕ := entries.filterMap (·.process.physFootprintBytes)

/-- The mean of the footprints where there are any, else of the resident memory. -/
def meanHeld : ℚ :=
  if footprints entries = [] then
    (entries.map fun e => (e.process.memoryBytes : ℚ)).sum / entries.length
  else ((footprints entries).map fun b : ℕ => (b : ℚ)).sum / (footprints entries).length

/-- The time from the first entry to `now`. -/
def span (now : ℕ) : ℕ := (entries.head?.map fun e => now - e.instant).getD 0

/-- The cpu time from the first entry to the last, zero where the counter went back. -/
def spentMs : ℕ :=
  (entries.getLast?.map (·.process.cpuTimeMs)).getD 0 -
    (entries.head?.map (·.process.cpuTimeMs)).getD 0

theorem footprints_carried :
    (entries.map carried).filterMap Sample.footprintBytes = footprints entries := by
  rw [List.filterMap_map]
  rfl

theorem statsOf_cpu (now : ℕ) : (statsOf now (entries.map carried)).cpuAvg = meanCpu entries := by
  simp [statsOf, Window.mean, meanCpu, carried, Function.comp_def]

theorem statsOf_held (now : ℕ) :
    (statsOf now (entries.map carried)).footprintAvgBytes.getD
      (statsOf now (entries.map carried)).memoryAvgBytes = meanHeld entries := by
  simp only [statsOf, footprints_carried, meanHeld, List.isEmpty_iff]
  split_ifs
  · simp [Window.mean, carried, Function.comp_def]
  · rw [Option.getD_some, Window.mean, List.length_map]

theorem statsOf_span (now : ℕ) : (statsOf now (entries.map carried)).span = span entries now := by
  simp only [statsOf, List.head?_map, span]
  cases entries.head? <;> rfl

theorem statsOf_spent (now : ℕ) :
    (statsOf now (entries.map carried)).cpuTimeDeltaMs = spentMs entries := by
  cases entries with
  | nil => rfl
  | cons e entries =>
    obtain ⟨last, hlast⟩ := Option.isSome_iff_exists.mp
      (List.getLast?_isSome.mpr (List.cons_ne_nil e entries))
    simp only [statsOf, spentMs, List.head?_map, List.getLast?_map, List.head?_cons, hlast]
    rfl

end SeenProcess

end Zstats
