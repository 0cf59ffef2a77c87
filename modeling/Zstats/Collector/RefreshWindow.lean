import Zstats.Collector.Overstated

namespace Zstats

open Diffing

/-- In a run whose refreshes read at once no rate exceeds its counter's growth; where two refreshes
in a row sample a counter otherwise, some counters make the same run report more than they grew. -/
theorem rates_within_growth (processes : ℕ → ProcessRound) (disks : ℕ → DiskRound)
    (networks : ℕ → NetworkRound) (diskConfig : DiskConfig) (networkConfig : NetworkConfig)
    (started : ℕ) (mounted : List Disk) (hprocesses : Sequential (processSpan processes))
    (hdisks : Sequential (diskSpan disks)) (hnetworks : Sequential (networkSpan networks)) :
    (∀ (r : Sampling (processSpan processes) Pid) pid,
      AlignedRefreshes (ProcessesRefreshed processes) (processReadings processes) r pid →
      CpuLaw processes r pid) ∧
    (∀ (r : Sampling (diskSpan disks) String) key,
      AlignedRefreshes (DisksRefreshed diskConfig started mounted disks) (diskReadings disks) r
        key →
      DiskLaw diskConfig started mounted disks r key) ∧
    (∀ (r : Sampling (networkSpan networks) String) key,
      AlignedRefreshes (NetworksRefreshed networkConfig networks) (networkReadings networks) r
        key →
      NetworkLaw networkConfig networks r key) ∧
    (∀ (r : Sampling (processSpan processes) Pid) m n pid,
      Preceding (ProcessesRefreshed processes) m n → ProcessesRefreshed processes n →
      ¬ r.Aligned m n pid → 1000000 ≤ measured (processSpan processes) m n →
      ∃ tables, ¬ CpuLaw (withTables processes tables) r pid) ∧
    (∀ (r : Sampling (diskSpan disks) String) m n name mountPoint,
      Preceding (DisksRefreshed diskConfig started mounted disks) m n →
      DisksRefreshed diskConfig started mounted disks n →
      ¬ r.Aligned m n (diskKey name mountPoint) → 0 < measured (diskSpan disks) m n →
      measured (diskSpan disks) m n + fromSecs 1 < u64Max →
      ∃ found, ¬ DiskLaw diskConfig started mounted (withMounted disks found) r
        (diskKey name mountPoint)) ∧
    ∀ (r : Sampling (networkSpan networks) String) m n interface,
      Preceding (NetworksRefreshed networkConfig networks) m n →
      NetworksRefreshed networkConfig networks n → ¬ r.Aligned m n interface →
      0 < measured (networkSpan networks) m n →
      measured (networkSpan networks) m n + fromSecs 1 < u64Max →
      ∃ found, ¬ NetworkLaw networkConfig (withInterfaces networks found) r interface := by
  refine ⟨?_, ?_, ?_, ?_, ?_, ?_⟩
  · intro r pid hal
    exact cpuLaw_of_aligned hprocesses hal
  · intro r key hal
    exact diskLaw_of_aligned hdisks hal
  · intro r key hal
    exact networkLaw_of_aligned hnetworks hal
  · intro r m n pid
    exact cpuLaw_fails hprocesses r
  · intro r m n name mountPoint
    exact diskLaw_fails hdisks r
  · intro r m n interface
    exact networkLaw_fails hnetworks r

theorem tick_sequential : Sequential tick := by
  intro n
  exact Nat.mul_le_mul_right _ n.le_succ

/-- Every second at once, a process that keeps one core busy. -/
def prompt (n : ℕ) : ProcessRound := ⟨true, tick n, [⟨1, n * 1000, 0⟩]⟩

theorem prompt_cores : CoresAtMost prompt (Sampling.atStart (processSpan prompt) Pid) 1 1 := by
  intro m n prev curr hmn _ _ hprev hcurr _
  have hp : prev.cpuTimeMs = m * 1000 := by
    simp only [processReadings, prompt, List.map_cons, List.map_nil, List.mem_singleton,
      Prod.mk.injEq] at hprev
    rw [hprev.2]
    rfl
  have hc : curr.cpuTimeMs = n * 1000 := by
    simp only [processReadings, prompt, List.map_cons, List.map_nil, List.mem_singleton,
      Prod.mk.injEq] at hcurr
    rw [hcurr.2]
    rfl
  have hwindow : (Sampling.atStart (processSpan prompt) Pid).window m n 1 =
      (n - m) * 1000000000 := by
    simp only [Sampling.window, Sampling.atStart, processSpan, prompt, tick, fromSecs]
    omega
  rw [hp, hc, hwindow]
  unfold secs
  push_cast [Nat.cast_sub hmn.le]
  linarith

/-- A process on one core, and a first refresh that reads it at once and then stalls for 3 s. -/
def stalled : ℕ → ProcessRound
  | 0 => ⟨true, ⟨0, fromSecs 3, Nat.zero_le _⟩, [⟨1, 0, 0⟩]⟩
  | 1 => ⟨true, tick 4, [⟨1, 4000, 0⟩]⟩
  | _ => ⟨false, tick 4, []⟩

theorem stalled_sequential : Sequential (processSpan stalled) := by
  intro n
  match n with
  | 0 | 1 => decide
  | n + 2 => exact le_rfl

def quietDisks (n : ℕ) : DiskRound := ⟨tick n, [], []⟩

def quietNetworks (n : ℕ) : NetworkRound := ⟨tick n, []⟩

theorem rates_within_growth_prompt :
    (∀ n, (processChannel prompt n).cpuPercentFor 1 ≤ 100 * 1) ∧
    ∃ tables, ¬ CpuLaw (withTables stalled tables) (Sampling.atStart (processSpan stalled) Pid) 1 := by
  constructor
  · obtain ⟨hcpu, -⟩ := rates_within_growth prompt quietDisks quietNetworks
      ⟨true, 0, 0, true⟩ ⟨true, 0⟩ 0 [] tick_sequential tick_sequential tick_sequential
    apply hcpu (Sampling.atStart _ _) 1 _ 1 (by norm_num) prompt_cores
    intro m n _ _ _ _ _ _
    exact Sampling.atStart_aligned (fun _ => rfl) m n 1
  · obtain ⟨-, -, -, hexceeds, -⟩ := rates_within_growth stalled quietDisks quietNetworks
      ⟨true, 0, 0, true⟩ ⟨true, 0⟩ 0 [] stalled_sequential tick_sequential tick_sequential
    have hrow : Preceding (ProcessesRefreshed stalled) 0 1 :=
      ⟨Nat.zero_lt_one, rfl, fun k hk hk' => by omega⟩
    exact hexceeds (Sampling.atStart _ _) 0 1 1 hrow rfl (by decide) (by decide)

/-- The process on one core is reported at 400 percent. -/
theorem stalled_overstated :
    Sequential (processSpan stalled) ∧
    CoresAtMost stalled (Sampling.atStart (processSpan stalled) Pid) 1 1 ∧
    (processChannel stalled 2).cpuPercentFor 1 = 400 ∧
    ¬ CpuLaw stalled (Sampling.atStart (processSpan stalled) Pid) 1 := by
  have hcores : CoresAtMost stalled (Sampling.atStart (processSpan stalled) Pid) 1 1 := by
    intro m n prev curr hmn _ hn hprev hcurr _
    -- only the first two rounds refresh
    have hn1 : n = 1 := by
      match n with
      | 0 => omega
      | 1 => rfl
      | n + 2 => cases hn
    obtain rfl : m = 0 := by omega
    subst hn1
    simp only [processReadings, stalled, List.map_cons, List.map_nil, List.mem_singleton,
      Prod.mk.injEq] at hprev hcurr
    rw [hprev.2, hcurr.2]
    decide +kernel
  have hreported : (processChannel stalled 2).cpuPercentFor 1 = 400 := by decide +kernel
  refine ⟨stalled_sequential, hcores, hreported, ?_⟩
  intro hlaw
  have hbound := hlaw 1 (by norm_num) hcores 2
  rw [hreported] at hbound
  norm_num at hbound

end Zstats
