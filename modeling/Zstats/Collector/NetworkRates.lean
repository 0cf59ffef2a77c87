import Zstats.Collector.Networks
import Zstats.Collector.RateBounds
import Zstats.Framework.Machine

namespace Zstats

open Diffing

variable (config : NetworkConfig) (x : ℕ → NetworkRound)

def networkChannel (n : ℕ) : NetworkChannel :=
  Machine.stateAt (NetworkChannel.collectNetworks config) NetworkChannel.new x n

def networkOutput (n : ℕ) : Option (List NetworkSnapshot) :=
  Machine.outAt (NetworkChannel.collectNetworks config) NetworkChannel.new x n

def networkSpan (n : ℕ) : Span := (x n).span

def NetworksRefreshed (n : ℕ) : Prop :=
  config.collectNetworks = true ∧ due config.networkRefreshInterval
    (networkChannel config x n).lastNetworkRefresh (x n).span.start = true

def networkReadings (n : ℕ) : List (String × NetCounters) :=
  (x n).interfaces.map fun data => (data.interface, data.counters)

/-- The rates of an interface, with the counters they diff. -/
def networkFigures : List ((NetCounters → ℕ) × (NetworkSnapshot → Option ℕ)) :=
  [(NetCounters.receivedBytes, fun s => some s.receivedBytesPerSec),
    (NetCounters.transmittedBytes, fun s => some s.transmittedBytesPerSec),
    (NetCounters.receivedPackets, NetworkSnapshot.receivedPacketsPerSec),
    (NetCounters.transmittedPackets, NetworkSnapshot.transmittedPacketsPerSec),
    (NetCounters.receivedErrors, NetworkSnapshot.receivedErrorsPerSec),
    (NetCounters.transmittedErrors, NetworkSnapshot.transmittedErrorsPerSec)]

/-- No reported rate of the interface `key` exceeds its counter's growth, but for rounding. -/
def NetworkLaw (r : Sampling (networkSpan x) String) (key : String) : Prop :=
  ∀ figure ∈ networkFigures, ∀ rate, 0 ≤ rate →
    GrowsAtMost (NetworksRefreshed config x) (networkReadings x) r key figure.1 rate →
    ∀ n snapshots, networkOutput config x n = some snapshots →
      ∀ s ∈ snapshots, s.interface = key →
        ∀ v, figure.2 s = some v → (v : ℚ) ≤ rate + 1 / 2

theorem networkFigures_rate {figure : (NetCounters → ℕ) × (NetworkSnapshot → Option ℕ)}
    (h : figure ∈ networkFigures) (s : NetworkChannel) (elapsed : Option ℕ) (data : NetworkData)
    {v : ℕ} (hv : figure.2 (s.snapshotOf elapsed data) = some v) :
    v = 0 ∨ Option.map₂ (fun elapsed prev =>
      ratePerSec (figure.1 prev) (figure.1 data.counters) elapsed)
        elapsed (lookupLast s.lastNetCounters data.interface) = some v := by
  have hbytes : ∀ rated : Option ℕ, some (rated.getD 0) = some v → v = 0 ∨ rated = some v := by
    intro rated h
    cases rated with
    | none => exact Or.inl (Option.some.inj h).symm
    | some rated => exact Or.inr h
  simp only [networkFigures, List.mem_cons, List.not_mem_nil, or_false] at h
  rcases h with rfl | rfl | rfl | rfl | rfl | rfl
  · exact hbytes _ hv
  · exact hbytes _ hv
  · exact Or.inr hv
  · exact Or.inr hv
  · exact Or.inr hv
  · exact Or.inr hv

theorem collectNetworks_kept {s : NetworkChannel} {r : NetworkRound}
    (h : ¬ (config.collectNetworks = true ∧
      due config.networkRefreshInterval s.lastNetworkRefresh r.span.start = true)) :
    (NetworkChannel.collectNetworks config s r).1 = s ∧
      ∀ snapshots, (NetworkChannel.collectNetworks config s r).2 = some snapshots →
        s.cachedNetworks = some snapshots := by
  unfold NetworkChannel.collectNetworks
  rcases off_or_not_due h with hoff | ⟨hon, hdue⟩
  · simp [hoff]
  · simp [hon, hdue]

theorem collectNetworks_refreshed {s : NetworkChannel} {r : NetworkRound}
    (h : config.collectNetworks = true ∧
      due config.networkRefreshInterval s.lastNetworkRefresh r.span.start = true) :
    NetworkChannel.collectNetworks config s r =
      (⟨some r.span.finish, r.interfaces.map fun data => (data.interface, data.counters),
        some (r.interfaces.map
          (s.snapshotOf (s.lastNetworkRefresh.map (durationSince r.span.start))))⟩,
        some (r.interfaces.map
          (s.snapshotOf (s.lastNetworkRefresh.map (durationSince r.span.start))))) := by
  simp [NetworkChannel.collectNetworks, h.1, h.2]

theorem networkChannel_succ (n : ℕ) : networkChannel config x (n + 1) =
    (NetworkChannel.collectNetworks config (networkChannel config x n) (x n)).1 :=
  Machine.stateAt_succ n

def networkBaseline (n : ℕ) : Baseline String NetCounters :=
  ⟨(networkChannel config x n).lastNetworkRefresh, (networkChannel config x n).lastNetCounters⟩

theorem networks_track : Tracks (networkBaseline config x) (NetworksRefreshed config x)
    (fun n => (networkSpan x n).finish) (networkReadings x) where
  fresh := rfl
  kept := by
    intro n hn
    unfold networkBaseline
    rw [networkChannel_succ, (collectNetworks_kept config hn).1]
  replaced := by
    intro n hn
    unfold networkBaseline
    rw [networkChannel_succ, collectNetworks_refreshed config hn]
    rfl

variable {config x}

theorem networkLaw_of_aligned (hseq : Sequential (networkSpan x))
    {r : Sampling (networkSpan x) String} {key : String}
    (hal : AlignedRefreshes (NetworksRefreshed config x) (networkReadings x) r key) :
    NetworkLaw config x r key := by
  intro figure hfigure rate hrate hgrow n snapshots hout
  apply Machine.outAt_cached NetworkChannel.cachedNetworks (NetworksRefreshed config x)
    (fun snapshots => ∀ s ∈ snapshots, s.interface = key →
      ∀ v, figure.2 s = some v → (v : ℚ) ≤ rate + 1 / 2) rfl _ _ hout
  · intro n hn
    have hstep := collectNetworks_refreshed config hn
    refine ⟨(congrArg (fun out => out.1.cachedNetworks) hstep).trans
      (congrArg Prod.snd hstep).symm, ?_⟩
    intro snapshots hs s hsmem hkey v hv
    have hout : some snapshots = some _ := hs.symm.trans (congrArg Prod.snd hstep)
    rw [Option.some.inj hout] at hsmem
    obtain ⟨data, hdata, rfl⟩ := List.mem_map.mp hsmem
    have hinterface : data.interface = key := hkey
    rcases networkFigures_rate hfigure _ _ _ hv with rfl | hrate'
    · push_cast
      linarith
    · have hread : (key, data.counters) ∈ networkReadings x n :=
        List.mem_map.mpr ⟨data, hdata, by rw [hinterface]⟩
      rw [hinterface] at hrate'
      exact rate_le_of_aligned (networks_track config x) hseq hal hrate hgrow hn hread hrate'
  · intro n hn
    obtain ⟨hsame, hanswer⟩ := collectNetworks_kept config hn
    exact ⟨congrArg NetworkChannel.cachedNetworks hsame, hanswer⟩

end Zstats
