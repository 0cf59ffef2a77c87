import Zstats.Framework.Window
import Zstats.Snapshot

namespace Zstats

open Window

structure Sample where
  sampledAt : Nat
  cpu : ℚ
  memoryBytes : Nat
  footprintBytes : Option Nat
  cpuTimeMs : Nat
  deriving DecidableEq, Repr

structure ProcessStats where
  cpuAvg : ℚ
  cpuTimeDeltaMs : Nat
  memoryAvgBytes : ℚ
  footprintAvgBytes : Option ℚ
  span : Nat
  samples : Nat
  deriving DecidableEq, Repr

/-- The map `ProcessWindows::record` returns. -/
abbrev StatsMap := Pid → Option ProcessStats

/-- `history` gives `[]` for a pid that has no entry: an entry always holds a sample. -/
structure ProcessWindows where
  window : Nat
  history : Pid → List Sample

namespace ProcessWindows

def new (window : Nat) : ProcessWindows := ⟨window, fun _ => []⟩

def sampleOf (now : Nat) (p : ProcessSnapshot) : Sample :=
  { sampledAt := now
    cpu := p.cpuUsagePercent
    memoryBytes := p.memoryBytes
    footprintBytes := p.physFootprintBytes
    cpuTimeMs := p.cpuTimeMs }

/-- What `record` reports of the samples it retains. -/
def statsOf (now : Nat) (samples : List Sample) : ProcessStats :=
  let footprints : List Nat := samples.filterMap (·.footprintBytes)
  { cpuAvg := mean (samples.map (·.cpu))
    cpuTimeDeltaMs :=
      match samples.head?, samples.getLast? with
      | some first, some last => last.cpuTimeMs - first.cpuTimeMs
      | _, _ => 0
    memoryAvgBytes := mean (samples.map fun s => (s.memoryBytes : ℚ))
    footprintAvgBytes :=
      if footprints.isEmpty then none else some (mean (footprints.map fun b : Nat => (b : ℚ)))
    span :=
      match samples.head? with
      | some oldest => durationSince now oldest.sampledAt
      | none => 0
    samples := samples.length }

def recordOne (window : Nat) (now : Nat) (acc : (Pid → List Sample) × StatsMap)
    (p : ProcessSnapshot) : (Pid → List Sample) × StatsMap :=
  let samples := prune Sample.sampledAt window now (acc.1 p.pid ++ [sampleOf now p])
  (Function.update acc.1 p.pid samples, Function.update acc.2 p.pid (some (statsOf now samples)))

/-- `ProcessWindows::record`. -/
def record (w : ProcessWindows) (now : Nat) (processes : List ProcessSnapshot) :
    ProcessWindows × StatsMap :=
  let current := processes.map (·.pid)
  let kept := fun pid => if pid ∈ current then w.history pid else []
  let (history, stats) := processes.foldl (recordOne w.window now) (kept, fun _ => none)
  (⟨w.window, history⟩, stats)

/-- The samples that `processes` adds for `pid`. -/
def added (now : Nat) (processes : List ProcessSnapshot) (pid : Pid) : List Sample :=
  (processes.filter (·.pid = pid)).map (sampleOf now)

theorem foldl_recordOne (window : Nat) (now : Nat) (pid : Pid)
    (processes : List ProcessSnapshot) (acc : (Pid → List Sample) × StatsMap) :
    let samples := prune Sample.sampledAt window now (acc.1 pid ++ added now processes pid)
    let out := processes.foldl (recordOne window now) acc
    out.1 pid = (if pid ∈ processes.map (·.pid) then samples else acc.1 pid) ∧
    out.2 pid = (if pid ∈ processes.map (·.pid) then some (statsOf now samples)
      else acc.2 pid) := by
  induction processes generalizing acc with
  | nil => simp
  | cons p ps ih =>
    have h := ih (recordOne window now acc p)
    simp only [List.foldl_cons, List.map_cons, List.mem_cons] at h ⊢
    rw [h.1, h.2]
    by_cases hp : p.pid = pid
    · subst hp
      have hadd : added now (p :: ps) p.pid = sampleOf now p :: added now ps p.pid := by
        simp [added]
      have hprune : prune Sample.sampledAt window now
          ((recordOne window now acc p).1 p.pid ++ added now ps p.pid) =
          prune Sample.sampledAt window now (acc.1 p.pid ++ added now (p :: ps) p.pid) := by
        simp only [recordOne, Function.update_self, prune_prune_append le_rfl, hadd,
          List.append_assoc, List.singleton_append]
      by_cases hin : p.pid ∈ ps.map (·.pid)
      · simp only [hin, or_true, if_true, hprune, and_self]
      · have hnone : added now ps p.pid = [] := by
          simp only [added, List.map_eq_nil_iff, List.filter_eq_nil_iff, decide_eq_true_eq]
          intro q hq he
          exact hin (List.mem_map.mpr ⟨q, hq, he⟩)
        simp [hin, hadd, hnone, recordOne]
    · have hadd : added now (p :: ps) pid = added now ps pid := by
        simp [added, hp]
      have hp' : pid ≠ p.pid := Ne.symm hp
      simp [hadd, hp', recordOne]

theorem record_window (w : ProcessWindows) (now : Nat) (processes : List ProcessSnapshot) :
    (w.record now processes).1.window = w.window := rfl

/-- A listed pid keeps its history, extended and pruned; any other is forgotten. -/
theorem record_history (w : ProcessWindows) (now : Nat) (processes : List ProcessSnapshot)
    (pid : Pid) :
    (w.record now processes).1.history pid =
      if pid ∈ processes.map (·.pid) then
        prune Sample.sampledAt w.window now (w.history pid ++ added now processes pid)
      else [] := by
  have h := (foldl_recordOne w.window now pid processes
    (fun pid => if pid ∈ processes.map (·.pid) then w.history pid else [], fun _ => none)).1
  simp only [record]
  rw [h]
  split_ifs with hin <;> simp only [hin, if_true, if_false]

theorem record_stats (w : ProcessWindows) (now : Nat) (processes : List ProcessSnapshot)
    (pid : Pid) :
    (w.record now processes).2 pid =
      if pid ∈ processes.map (·.pid) then
        some (statsOf now ((w.record now processes).1.history pid))
      else none := by
  have h := (foldl_recordOne w.window now pid processes
    (fun pid => if pid ∈ processes.map (·.pid) then w.history pid else [], fun _ => none)).2
  rw [record_history]
  simp only [record]
  rw [h]
  split_ifs with hin <;> simp only [hin, if_true]

theorem record_stats_isSome (w : ProcessWindows) (now : Nat)
    (processes : List ProcessSnapshot) (pid : Pid) :
    ((w.record now processes).2 pid).isSome = true ↔ pid ∈ processes.map (·.pid) := by
  rw [record_stats]
  split_ifs with h <;> simp [h]

theorem added_ne_nil (now : Nat) {processes : List ProcessSnapshot} {pid : Pid}
    (h : pid ∈ processes.map (·.pid)) : added now processes pid ≠ [] := by
  obtain ⟨p, hp, rfl⟩ := List.mem_map.mp h
  intro hnil
  have := List.filter_eq_nil_iff.mp (List.map_eq_nil_iff.mp hnil) p hp
  simp at this

/-- A pid that was just listed has at least one sample, taken now. -/
theorem record_history_ne_nil (w : ProcessWindows) (now : Nat)
    {processes : List ProcessSnapshot} {pid : Pid} (h : pid ∈ processes.map (·.pid)) :
    (w.record now processes).1.history pid ≠ [] := by
  rw [record_history, if_pos h]
  obtain ⟨s, hs⟩ := List.exists_mem_of_ne_nil _ (added_ne_nil now h)
  obtain ⟨p, -, rfl⟩ := List.mem_map.mp hs
  exact prune_ne_nil (List.mem_append_right _ hs) (by simp [sampleOf])

section Run

variable {ws : ℕ → ProcessWindows} {width : ℕ} {now : ℕ → ℕ} {processes : ℕ → List ProcessSnapshot}
  {pid : Pid}

/-- The samples that `n` rounds have added for `pid`. -/
def addedBy (now : ℕ → ℕ) (processes : ℕ → List ProcessSnapshot) (pid : Pid) (n : ℕ) :
    List Sample :=
  (List.range n).flatMap fun m => added (now m) (processes m) pid

theorem addedBy_succ (n : ℕ) :
    addedBy now processes pid (n + 1) =
      addedBy now processes pid n ++ added (now n) (processes n) pid := by
  simp [addedBy, List.range_succ]

/-- A pid listed in every round keeps exactly what pruning all its samples leaves. -/
theorem record_run (h0 : ws 0 = new width)
    (hstep : ∀ n, ws (n + 1) = ((ws n).record (now n) (processes n)).1) (hmono : Monotone now)
    (hlisted : ∀ n, pid ∈ (processes n).map (·.pid)) (n : ℕ) :
    (ws n).window = width ∧ (ws (n + 1)).history pid =
      prune Sample.sampledAt width (now n) (addedBy now processes pid (n + 1)) := by
  induction n with
  | zero =>
    rw [h0]
    refine ⟨rfl, ?_⟩
    rw [hstep, h0, record_history, if_pos (hlisted 0)]
    simp [addedBy, new]
  | succ n ih =>
    have hwindow : (ws (n + 1)).window = width := by
      rw [hstep, record_window]
      exact ih.1
    refine ⟨hwindow, ?_⟩
    rw [hstep (n + 1), record_history, if_pos (hlisted (n + 1)), hwindow, ih.2,
      prune_prune_append (hmono n.le_succ), addedBy_succ (n + 1)]

theorem mem_addedBy {n : ℕ} {s : Sample} :
    s ∈ addedBy now processes pid n ↔
      ∃ m < n, ∃ p ∈ processes m, p.pid = pid ∧ s = sampleOf (now m) p := by
  simp only [addedBy, added, List.mem_flatMap, List.mem_range, List.mem_map, List.mem_filter,
    decide_eq_true_eq]
  constructor
  · intro ⟨m, hm, p, ⟨hp, hpid⟩, hs⟩
    exact ⟨m, hm, p, hp, hpid, hs.symm⟩
  · intro ⟨m, hm, p, hp, hpid, hs⟩
    exact ⟨m, hm, p, ⟨hp, hpid⟩, hs.symm⟩

theorem addedBy_sorted (hmono : Monotone now) (n : ℕ) :
    (addedBy now processes pid n).Pairwise fun a b => a.sampledAt ≤ b.sampledAt := by
  induction n with
  | zero => exact List.Pairwise.nil
  | succ n ih =>
    rw [addedBy_succ]
    refine List.pairwise_append.mpr ⟨ih, ?_, ?_⟩
    · apply List.pairwise_of_forall_mem_list
      intro a ha b hb
      obtain ⟨p, -, rfl⟩ := List.mem_map.mp ha
      obtain ⟨q, -, rfl⟩ := List.mem_map.mp hb
      exact le_rfl
    · intro a ha b hb
      obtain ⟨m, hm, p, -, -, rfl⟩ := mem_addedBy.mp ha
      obtain ⟨q, -, rfl⟩ := List.mem_map.mp hb
      exact hmono hm.le

theorem run_window (h0 : ws 0 = new width)
    (hstep : ∀ n, ws (n + 1) = ((ws n).record (now n) (processes n)).1) (n : ℕ) :
    (ws n).window = width := by
  induction n with
  | zero =>
    rw [h0]
    rfl
  | succ n ih => rw [hstep, record_window, ih]

/-- At a constant interval `d` the span reported after `n` intervals is the largest multiple of
`d` that fits both in them and in the window. -/
theorem record_run_span {d : ℕ} (hd : 0 < d) (h0 : ws 0 = new width)
    (hstep : ∀ n, ws (n + 1) = ((ws n).record (n * d) (processes n)).1)
    (hlisted : ∀ n, pid ∈ (processes n).map (·.pid)) (n : ℕ) :
    ∃ samples, ((ws n).record (n * d) (processes n)).2 pid = some (statsOf (n * d) samples) ∧
      samples ≠ [] ∧ (statsOf (n * d) samples).span = min n (width / d) * d ∧
      ∀ s ∈ samples, ∃ m, ∃ p ∈ processes m, p.pid = pid ∧ s = sampleOf (m * d) p := by
  have hmono : Monotone fun n => n * d := fun _ _ h => Nat.mul_le_mul_right d h
  have hrun := record_run h0 hstep hmono hlisted n
  have hne := record_history_ne_nil (ws n) (n * d) (hlisted n)
  rw [← hstep, hrun.2] at hne
  refine ⟨_, ?_, hne, ?_, ?_⟩
  · rw [record_stats, if_pos (hlisted n), ← hstep, hrun.2]
  · obtain ⟨oldest, holdest⟩ := Option.isSome_iff_exists.mp (List.isSome_head?.mpr hne)
    simp only [statsOf, holdest, durationSince]
    apply regular_span hd (addedBy_sorted hmono (n + 1)) ?_ ?_ holdest
    · intro s hs
      obtain ⟨m, hm, p, -, -, rfl⟩ := mem_addedBy.mp hs
      exact ⟨m, Nat.le_of_lt_succ hm, rfl⟩
    · intro m hm
      obtain ⟨p, hp, hpid⟩ := List.mem_map.mp (hlisted m)
      exact ⟨sampleOf (m * d) p, mem_addedBy.mpr ⟨m, Nat.lt_succ_of_le hm, p, hp, hpid, rfl⟩, rfl⟩
  · intro s hs
    obtain ⟨m, -, h⟩ := mem_addedBy.mp (prune_subset hs)
    exact ⟨m, h⟩

end Run

section Bounds

variable {now : ℕ} {samples : List Sample} (hne : samples ≠ [])
include hne

theorem le_cpuAvg {a : ℚ} (h : ∀ s ∈ samples, a ≤ s.cpu) : a ≤ (statsOf now samples).cpuAvg := by
  apply le_mean (by simpa using hne)
  intro c hc
  obtain ⟨s, hs, rfl⟩ := List.mem_map.mp hc
  exact h s hs

theorem cpuAvg_lt {a : ℚ} (h : ∀ s ∈ samples, s.cpu < a) : (statsOf now samples).cpuAvg < a := by
  apply mean_lt (by simpa using hne)
  intro c hc
  obtain ⟨s, hs, rfl⟩ := List.mem_map.mp hc
  exact h s hs

end Bounds

end ProcessWindows

end Zstats
