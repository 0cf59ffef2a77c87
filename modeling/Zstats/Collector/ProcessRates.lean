import Zstats.Collector.Processes
import Zstats.Collector.RateBounds
import Zstats.Framework.Machine

namespace Zstats

open Diffing

theorem percentBetween_le {prev current : CpuTimeBaseline} {elapsed window : ℕ} {cores : ℚ}
    (hcores : 0 ≤ cores) (hw : window ≤ elapsed)
    (h : prev.startTimeSecs = current.startTimeSecs →
      (current.cpuTimeMs : ℚ) - prev.cpuTimeMs ≤ cores * (secs window * 1000)) :
    percentBetween prev current elapsed ≤ 100 * cores := by
  have hzero : (0 : ℚ) ≤ 100 * cores := by linarith
  unfold percentBetween
  by_cases hother : current.startTimeSecs ≠ prev.startTimeSecs ∨
      current.cpuTimeMs < prev.cpuTimeMs
  · rw [if_pos hother]
    exact hzero
  · rw [if_neg hother]
    by_cases hshort : secs elapsed * 1000 < 1
    · simpa only [if_pos hshort] using hzero
    · simp only [if_neg hshort]
      rw [not_or, not_not, not_lt] at hother
      have hsecs : secs window * 1000 ≤ secs elapsed * 1000 := by
        have := secs_mono hw
        linarith
      have hquot : ((current.cpuTimeMs : ℚ) - prev.cpuTimeMs) / (secs elapsed * 1000) ≤ cores :=
        div_le_of_growth hcores (by linarith) hsecs (h hother.1.symm)
      rw [Nat.cast_sub hother.2]
      linarith

variable (x : ℕ → ProcessRound)

def processChannel (n : ℕ) : ProcessChannel :=
  Machine.stateAt ProcessChannel.refreshProcessTable ProcessChannel.new x n

def processSpan (n : ℕ) : Span := (x n).span

def ProcessesRefreshed (n : ℕ) : Prop := (x n).refreshProcesses = true

def processReadings (n : ℕ) : List (Pid × CpuTimeBaseline) :=
  (x n).table.map fun p => (p.pid, ProcessChannel.baselineOf p)

/-- A process takes at most `cores` cores: its cpu time grows by so much a second. -/
def CoresAtMost (r : Sampling (processSpan x) Pid) (pid : Pid) (cores : ℚ) : Prop :=
  ∀ m n prev curr, m < n → ProcessesRefreshed x m → ProcessesRefreshed x n →
    (pid, prev) ∈ processReadings x m → (pid, curr) ∈ processReadings x n →
    prev.startTimeSecs = curr.startTimeSecs →
    (curr.cpuTimeMs : ℚ) - prev.cpuTimeMs ≤ cores * (secs (r.window m n pid) * 1000)

/-- No percentage exceeds what the process can have used. -/
def CpuLaw (r : Sampling (processSpan x) Pid) (pid : Pid) : Prop :=
  ∀ cores, 0 ≤ cores → CoresAtMost x r pid cores →
    ∀ n, (processChannel x n).cpuPercentFor pid ≤ 100 * cores

def processBaseline (n : ℕ) : Baseline Pid CpuTimeBaseline :=
  ⟨(processChannel x n).lastProcessRefresh, (processChannel x n).lastCpuTimes⟩

theorem processChannel_kept {n : ℕ} (hn : ¬ ProcessesRefreshed x n) :
    processChannel x (n + 1) = processChannel x n := by
  have hoff : (x n).refreshProcesses = false := Bool.not_eq_true _ ▸ hn
  simp [processChannel, Machine.stateAt, ProcessChannel.refreshProcessTable, hoff]

theorem processes_track : Tracks (processBaseline x) (ProcessesRefreshed x)
    (fun n => (processSpan x n).finish) (processReadings x) where
  fresh := rfl
  kept := by
    intro n hn
    unfold processBaseline
    rw [processChannel_kept x hn]
  replaced := by
    intro n hn
    have hon : (x n).refreshProcesses = true := hn
    simp [processBaseline, processChannel, Machine.stateAt, ProcessChannel.refreshProcessTable,
      hon, ProcessChannel.updateCpuPercents, processSpan, processReadings]

variable {x}

/-- A percentage derived by a refresh is zero or measured against an earlier refresh. -/
theorem cpuPercentFor_refreshed {n : ℕ} (hn : ProcessesRefreshed x n) (pid : Pid) :
    (processChannel x (n + 1)).cpuPercentFor pid = 0 ∨
    ∃ curr prev elapsed, (pid, curr) ∈ processReadings x n ∧
      (processBaseline x n).against (x n).span.start pid = some (prev, elapsed) ∧
      (processChannel x (n + 1)).cpuPercentFor pid = percentBetween prev curr elapsed := by
  have hon : (x n).refreshProcesses = true := hn
  have hstep : processChannel x (n + 1) =
      (ProcessChannel.refreshProcessTable (processChannel x n) (x n)).1 := rfl
  rw [hstep]
  simp only [ProcessChannel.refreshProcessTable, hon, Bool.not_true, Bool.false_eq_true, if_false,
    ProcessChannel.updateCpuPercents, ProcessChannel.cpuPercentFor]
  cases hfound : lookupLast _ pid with
  | none =>
    left
    rfl
  | some v =>
    obtain ⟨p, hp, hentry⟩ := List.mem_map.mp (mem_of_lookupLast hfound)
    have hpid : p.pid = pid := congrArg Prod.fst hentry
    have hv := congrArg Prod.snd hentry
    simp only [hpid] at hv
    rw [Option.getD_some, ← hv]
    cases hpair : Option.map₂ _ _ _ with
    | none =>
      left
      rfl
    | some percent =>
      right
      obtain ⟨elapsed, prev, helapsed, hprev, hpercent⟩ := Option.map₂_eq_some_iff.mp hpair
      have hread : (pid, ProcessChannel.baselineOf p) ∈ processReadings x n :=
        List.mem_map.mpr ⟨p, hp, by rw [hpid]⟩
      exact ⟨ProcessChannel.baselineOf p, prev, elapsed, hread,
        Baseline.against_of_elapsed helapsed hprev, hpercent.symm⟩

theorem cpuLaw_of_aligned (hseq : Sequential (processSpan x)) {r : Sampling (processSpan x) Pid}
    {pid : Pid} (hal : AlignedRefreshes (ProcessesRefreshed x) (processReadings x) r pid) :
    CpuLaw x r pid := by
  intro cores hcores hgrow n
  induction n with
  | zero =>
    have hnone : (processChannel x 0).cpuPercentFor pid = 0 := rfl
    rw [hnone]
    linarith
  | succ n ih =>
    by_cases hn : ProcessesRefreshed x n
    · rcases cpuPercentFor_refreshed hn pid with hzero | ⟨curr, prev, elapsed, hcurr, ha, heq⟩
      · rw [hzero]
        linarith
      · obtain ⟨m, hmn, hm, hw, hread⟩ :=
          window_le_of_aligned (processes_track x) hseq hal hn hcurr ha
        rw [heq]
        exact percentBetween_le hcores hw (hgrow m n prev curr hmn hm hn hread hcurr)
    · rw [processChannel_kept x hn]
      exact ih

end Zstats
