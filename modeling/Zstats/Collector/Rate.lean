import Mathlib.Algebra.Order.Round
import Zstats.Snapshot

namespace Zstats

/-- `Duration::as_secs_f64`. -/
def secs (elapsed : ℕ) : ℚ := elapsed / 1000000000

theorem secs_pos {elapsed : ℕ} (h : 0 < elapsed) : 0 < secs elapsed := by
  unfold secs
  positivity

theorem secs_mono {a b : ℕ} (h : a ≤ b) : secs a ≤ secs b :=
  div_le_div_of_nonneg_right (by exact_mod_cast h) (by norm_num)

/-- Round to the nearest integer, halves up, and saturate as `as u64` does. -/
def roundU64 (x : ℚ) : ℕ := asU64 (round x : ℤ)

theorem roundU64_le {x : ℚ} (hx : 0 ≤ x) : (roundU64 x : ℚ) ≤ x + 1 / 2 := by
  have hround : (0 : ℤ) ≤ round x := by
    rw [round_eq]
    exact Int.floor_nonneg.mpr (by positivity)
  have hle : roundU64 x ≤ (round x).toNat := by
    unfold roundU64 asU64
    rw [Int.floor_intCast]
    exact min_le_left _ _
  calc (roundU64 x : ℚ) ≤ ((round x).toNat : ℚ) := by exact_mod_cast hle
    _ = (round x : ℚ) := by exact_mod_cast congrArg (Int.cast (R := ℚ)) (Int.toNat_of_nonneg hround)
    _ ≤ x + 1 / 2 := by
      rw [round_eq]
      exact Int.floor_le _

theorem le_roundU64 {n : ℕ} {x : ℚ} (hn : n ≤ u64Max) (h : (n : ℚ) ≤ x) : n ≤ roundU64 x := by
  have hround : (n : ℤ) ≤ round x := by
    rw [round_eq, Int.le_floor]
    push_cast
    linarith
  apply le_asU64 hn
  exact_mod_cast hround

/-- `rate_per_sec`. -/
def ratePerSec (prev curr elapsed : ℕ) : ℕ :=
  if curr < prev then 0
  else if elapsed = 0 then 0
  else roundU64 (((curr - prev : ℕ) : ℚ) / secs elapsed)

theorem ratePerSec_forward {prev curr elapsed : ℕ} (h : prev ≤ curr) (he : 0 < elapsed) :
    ratePerSec prev curr elapsed = roundU64 (((curr : ℚ) - prev) / secs elapsed) := by
  rw [ratePerSec, if_neg (not_lt.mpr h), if_neg (by omega), Nat.cast_sub h]

/-- Whether a channel with its own cadence reads in this round. -/
def due (interval : ℕ) (last : Option ℕ) (now : ℕ) : Bool :=
  interval == 0 || last.all fun t => decide (interval ≤ durationSince now t)

/-- A channel that does not read is off, or on and not due. -/
theorem off_or_not_due {on : Bool} {interval now : ℕ} {last : Option ℕ}
    (h : ¬ (on = true ∧ due interval last now = true)) :
    on = false ∨ on = true ∧ due interval last now = false := by
  cases on with
  | false => exact Or.inl rfl
  | true =>
    right
    refine ⟨rfl, ?_⟩
    rw [← Bool.not_eq_true]
    exact fun hdue => h ⟨rfl, hdue⟩

end Zstats
