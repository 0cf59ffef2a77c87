import Zstats.Collector.Rate
import Zstats.Framework.Diffing

namespace Zstats

open Diffing

theorem ratePerSec_le {prev curr elapsed window : ℕ} {rate : ℚ} (hrate : 0 ≤ rate)
    (hw : window ≤ elapsed) (h : (curr : ℚ) - prev ≤ rate * secs window) :
    (ratePerSec prev curr elapsed : ℚ) ≤ rate + 1 / 2 := by
  have hzero : ((0 : ℕ) : ℚ) ≤ rate + 1 / 2 := by
    push_cast
    linarith
  by_cases hback : curr < prev
  · rw [ratePerSec, if_pos hback]
    exact hzero
  by_cases he : elapsed = 0
  · rw [ratePerSec, if_neg hback, if_pos he]
    exact hzero
  have hforward : prev ≤ curr := not_lt.mp hback
  have hpos : 0 < elapsed := Nat.pos_of_ne_zero he
  have hsecs : secs window ≤ secs elapsed := secs_mono hw
  have hquot : ((curr : ℚ) - prev) / secs elapsed ≤ rate :=
    div_le_of_growth hrate (secs_pos hpos) hsecs h
  have hnonneg : 0 ≤ ((curr : ℚ) - prev) / secs elapsed := by
    have : (prev : ℚ) ≤ curr := by exact_mod_cast hforward
    exact div_nonneg (by linarith) (secs_pos hpos).le
  rw [ratePerSec_forward hforward hpos]
  have hround := roundU64_le hnonneg
  linarith

/-! The growth of a counter between the refreshes of a run, and the refreshes that measure it. -/

section Runs

variable {κ C : Type*} [DecidableEq κ]

/-- The counter that `pick` reads under `k` grows by at most `rate` a second between samples. -/
def GrowsAtMost {span : ℕ → Span} (refreshed : ℕ → Prop) (readings : ℕ → List (κ × C))
    (r : Sampling span κ) (k : κ) (pick : C → ℕ) (rate : ℚ) : Prop :=
  ∀ m n prev curr, m < n → refreshed m → refreshed n → (k, prev) ∈ readings m →
    (k, curr) ∈ readings n → (pick curr : ℚ) - pick prev ≤ rate * secs (r.window m n k)

/-- Each refresh that reads `k`, as the one before it did, samples it at once, the one before it
having sampled it at its very end. -/
def AlignedRefreshes {span : ℕ → Span} (refreshed : ℕ → Prop) (readings : ℕ → List (κ × C))
    (r : Sampling span κ) (k : κ) : Prop :=
  ∀ m n prev curr, Preceding refreshed m n → refreshed n → (k, prev) ∈ readings m →
    (k, curr) ∈ readings n → r.Aligned m n k

variable {baseline : ℕ → Baseline κ C} {refreshed : ℕ → Prop} {span : ℕ → Span}
  {readings : ℕ → List (κ × C)}

/-- What a refresh of an aligned run diffs has been measured over the time it grew in. -/
theorem window_le_of_aligned (ht : Tracks baseline refreshed (fun n => (span n).finish) readings)
    (hseq : Sequential span) {r : Sampling span κ} {k : κ}
    (hal : AlignedRefreshes refreshed readings r k) {n elapsed : ℕ} {prev curr : C}
    (hn : refreshed n) (hcurr : (k, curr) ∈ readings n)
    (ha : (baseline n).against (span n).start k = some (prev, elapsed)) :
    ∃ m < n, refreshed m ∧ r.window m n k ≤ elapsed ∧ (k, prev) ∈ readings m := by
  obtain ⟨m, hm, helapsed, hread⟩ := ht.against_preceding ha
  refine ⟨m, hm.earlier, hm.ran, ?_, hread⟩
  rw [helapsed]
  exact (r.window_le_iff hseq hm.earlier k).mpr (hal m n prev curr hm hn hread hcurr)

/-- The one law behind the rates of disks and networks. -/
theorem rate_le_of_aligned (ht : Tracks baseline refreshed (fun n => (span n).finish) readings)
    (hseq : Sequential span) {r : Sampling span κ} {k : κ}
    (hal : AlignedRefreshes refreshed readings r k) {pick : C → ℕ} {rate : ℚ} (hrate : 0 ≤ rate)
    (hgrow : GrowsAtMost refreshed readings r k pick rate) {n v : ℕ} {curr : C}
    (hn : refreshed n) (hcurr : (k, curr) ∈ readings n)
    (hv : Option.map₂ (fun elapsed prev => ratePerSec (pick prev) (pick curr) elapsed)
      ((baseline n).taken.map (durationSince (span n).start))
      (lookupLast (baseline n).counters k) = some v) :
    (v : ℚ) ≤ rate + 1 / 2 := by
  obtain ⟨elapsed, prev, helapsed, hprev, hrated⟩ := Option.map₂_eq_some_iff.mp hv
  have ha : (baseline n).against (span n).start k = some (prev, elapsed) :=
    Baseline.against_of_elapsed helapsed hprev
  obtain ⟨m, hmn, hm, hw, hread⟩ := window_le_of_aligned ht hseq hal hn hcurr ha
  rw [← hrated]
  exact ratePerSec_le hrate hw (hgrow m n prev curr hmn hm hn hread hcurr)

end Runs

end Zstats
