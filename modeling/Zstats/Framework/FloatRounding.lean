import Mathlib.Tactic.Linarith
import Mathlib.Tactic.Ring
import Zstats.Framework.FloatText

namespace FloatText

theorem nearestEven_intCast (n : ℤ) : nearestEven (n : ℚ) = n := by
  simp [nearestEven]

theorem nearestEven_cases (x : ℚ) :
    nearestEven x = ⌊x⌋ ∨ nearestEven x = ⌊x⌋ + 1 ∧ (⌊x⌋ : ℚ) < x := by
  unfold nearestEven
  by_cases hlow : x - ⌊x⌋ < 1 / 2
  · left
    simp only [if_pos hlow]
  · have hbelow : (⌊x⌋ : ℚ) < x := by linarith
    simp only [if_neg hlow]
    split_ifs
    · exact Or.inr ⟨rfl, hbelow⟩
    · exact Or.inl rfl
    · exact Or.inr ⟨rfl, hbelow⟩

theorem abs_nearestEven_le {x : ℚ} {n : ℤ} (h : |x| ≤ n) : |nearestEven x| ≤ n := by
  obtain ⟨hlow, hhigh⟩ := abs_le.mp h
  have hfloor : -n ≤ ⌊x⌋ := by
    rw [Int.le_floor]
    push_cast
    exact hlow
  rw [abs_le]
  rcases nearestEven_cases x with heq | ⟨heq, hlt⟩
  · have hle : ⌊x⌋ ≤ n := by
      have hcast : (⌊x⌋ : ℚ) ≤ n := (Int.floor_le x).trans hhigh
      exact_mod_cast hcast
    rw [heq]
    exact ⟨hfloor, hle⟩
  · have hlt' : ⌊x⌋ < n := by
      have hcast : (⌊x⌋ : ℚ) < n := hlt.trans_le hhigh
      exact_mod_cast hcast
    rw [heq]
    constructor <;> omega

namespace Format

variable (f : Format)

/-- The exponent of a number, as far down as the normal numbers go. -/
def exponent (x : ℚ) : ℤ := max (Int.log 2 |x|) (1 - f.maxExponent)

/-- What the numbers next to `x` are apart. -/
def unit (x : ℚ) : ℚ := 2 ^ (f.exponent x - f.precision + 1)

def rounded (x : ℚ) : ℚ := nearestEven (x / f.unit x) * f.unit x

theorem nearest_eq (x : ℚ) : f.nearest x =
    if 2 ^ (f.maxExponent + 1) ≤ |f.rounded x| then .infinite (decide (x < 0))
    else .finite (f.rounded x) := rfl

theorem unit_pos (x : ℚ) : 0 < f.unit x := zpow_pos (by norm_num) _

/-- A significand has no more bits than the format. -/
theorem abs_significand_le (x : ℚ) : |nearestEven (x / f.unit x)| ≤ 2 ^ f.precision := by
  have hpos := f.unit_pos x
  apply abs_nearestEven_le
  have hlog : |x| < (2 : ℚ) ^ (Int.log 2 |x| + 1) := by
    exact_mod_cast Int.lt_zpow_succ_log_self (by norm_num) |x|
  have hexponent : (2 : ℚ) ^ (Int.log 2 |x| + 1) ≤ 2 ^ (f.exponent x + 1) := by
    apply zpow_le_zpow_right₀ (by norm_num)
    have hle : Int.log 2 |x| ≤ f.exponent x := le_max_left _ _
    omega
  have hsplit : (2 : ℚ) ^ (f.exponent x + 1) = 2 ^ f.precision * f.unit x := by
    rw [unit, ← zpow_natCast, ← zpow_add₀ (by norm_num)]
    congr 1
    ring
  rw [abs_div, abs_of_pos hpos, div_le_iff₀ hpos]
  push_cast
  rw [← hsplit]
  exact (hlog.trans_le hexponent).le

theorem scaled_unit (x : ℚ) : (2 : ℚ) ^ f.precision * f.unit x = 2 ^ (f.exponent x + 1) := by
  rw [unit, ← zpow_natCast, ← zpow_add₀ (by norm_num)]
  congr 1
  ring

/-- Rounding raises an exponent by one at most. -/
theorem exponent_rounded_le {x : ℚ} (h : f.rounded x ≠ 0) :
    f.exponent (f.rounded x) ≤ f.exponent x + 1 := by
  have hlow : (2 : ℚ) ^ Int.log 2 |f.rounded x| ≤ |f.rounded x| := by
    exact_mod_cast Int.zpow_log_le_self (by norm_num) (abs_pos.mpr h)
  have hhigh : |f.rounded x| ≤ 2 ^ (f.exponent x + 1) := by
    rw [rounded, abs_mul, abs_of_pos (f.unit_pos x), ← scaled_unit]
    apply mul_le_mul_of_nonneg_right _ (f.unit_pos x).le
    exact_mod_cast f.abs_significand_le x
  have hlog : Int.log 2 |f.rounded x| ≤ f.exponent x + 1 :=
    (zpow_le_zpow_iff_right₀ (by norm_num)).mp (hlow.trans hhigh)
  have hmin : 1 - f.maxExponent ≤ f.exponent x := le_max_right _ _
  rw [exponent]
  omega

/-- A smaller exponent has units that the larger one's are made of. -/
theorem unit_of_le {x y : ℚ} (h : f.exponent y ≤ f.exponent x) :
    f.unit x = (2 : ℚ) ^ (f.exponent x - f.exponent y).toNat * f.unit y := by
  rw [unit, unit, ← zpow_natCast, Int.toNat_of_nonneg (by omega), ← zpow_add₀ (by norm_num)]
  congr 1
  ring

/-- A significand whose rounding raises the exponent is a power of two. -/
theorem significand_of_raised {x : ℚ} (hne : f.rounded x ≠ 0)
    (h : f.exponent (f.rounded x) = f.exponent x + 1) :
    |nearestEven (x / f.unit x)| = 2 ^ f.precision := by
  have hpos := f.unit_pos x
  have hmin : 1 - f.maxExponent ≤ f.exponent x := le_max_right _ _
  have hlog : Int.log 2 |f.rounded x| = f.exponent x + 1 := by
    rw [← h, exponent, eq_comm, max_eq_left]
    rw [exponent] at h
    omega
  have hlow : (2 : ℚ) ^ Int.log 2 |f.rounded x| ≤ |f.rounded x| := by
    exact_mod_cast Int.zpow_log_le_self (by norm_num) (abs_pos.mpr hne)
  rw [hlog, ← scaled_unit, rounded, abs_mul, abs_of_pos hpos] at hlow
  have hle := le_of_mul_le_mul_right hlow hpos
  apply le_antisymm (f.abs_significand_le x)
  exact_mod_cast hle

/-- What a number is rounded to is a whole number of its own units. -/
theorem whole_units (hp : 0 < f.precision) (x : ℚ) :
    ∃ n : ℤ, f.rounded x = n * f.unit (f.rounded x) := by
  by_cases hzero : f.rounded x = 0
  · exact ⟨0, by simp [hzero]⟩
  · rcases Int.lt_or_eq_of_le (f.exponent_rounded_le hzero) with hlt | hraised
    · have hunit := f.unit_of_le (Int.lt_add_one_iff.mp hlt)
      refine ⟨nearestEven (x / f.unit x) *
        2 ^ (f.exponent x - f.exponent (f.rounded x)).toNat, ?_⟩
      push_cast
      rw [mul_assoc, ← hunit]
      rfl
    · -- the significand is a power of two, and an even number as the format has a bit
      obtain ⟨q, hq⟩ := Nat.exists_eq_succ_of_ne_zero (Nat.pos_iff_ne_zero.mp hp)
      have hunit : f.unit (f.rounded x) = 2 * f.unit x := by
        rw [unit, hraised, unit, ← zpow_one_add₀ (by norm_num)]
        congr 1
        ring
      have hpower : (2 : ℚ) ^ f.precision = 2 ^ q * 2 := by rw [hq, pow_succ]
      rw [hunit, rounded]
      rcases (abs_eq (by positivity)).mp (f.significand_of_raised hzero hraised) with hk | hk
      · refine ⟨2 ^ q, ?_⟩
        rw [hk]
        push_cast
        rw [hpower]
        ring
      · refine ⟨-2 ^ q, ?_⟩
        rw [hk]
        push_cast
        rw [hpower]
        ring

/-- The numbers of a format are rounded to themselves. -/
theorem nearest_idem (hp : 0 < f.precision) {x value : ℚ} (h : f.nearest x = .finite value) :
    f.nearest value = .finite value := by
  rw [nearest_eq] at h
  by_cases hlarge : 2 ^ (f.maxExponent + 1) ≤ |f.rounded x|
  · rw [if_pos hlarge] at h
    cases h
  · rw [if_neg hlarge, Number.finite.injEq] at h
    subst h
    obtain ⟨n, hn⟩ := f.whole_units hp x
    have hquot : f.rounded x / f.unit (f.rounded x) = n := by
      rw [div_eq_iff (f.unit_pos _).ne']
      exact hn
    have hsame : f.rounded (f.rounded x) = f.rounded x := by
      rw [rounded, hquot, nearestEven_intCast, ← hn]
    rw [nearest_eq, hsame, if_neg hlarge]

/-- A number of a format: what casting to it leaves as it is. -/
def Holds (x : Number) : Prop := x.cast f = x

theorem holds_cast (hp : 0 < f.precision) (x : Number) : f.Holds (x.cast f) := by
  cases x with
  | nan => rfl
  | infinite negative => rfl
  | finite x =>
    cases h : f.nearest x with
    | nan => simp [Holds, Number.cast, h]
    | infinite negative => simp [Holds, Number.cast, h]
    | finite value => simp [Holds, Number.cast, h, f.nearest_idem hp h]

theorem holds_decimal (hp : 0 < f.precision) {decimal : Option ℚ} {signed : ℚ → ℚ} {x : Number}
    (h : decimal.map (fun x => f.nearest (signed x)) = some x) : f.Holds x := by
  obtain ⟨value, -, rfl⟩ := Option.map_eq_some_iff.mp h
  exact f.holds_cast hp (.finite (signed value))

/-- What is read from text is a number of the format. -/
theorem holds_parse (hp : 0 < f.precision) {text : List Char} {x : Number}
    (h : f.parse text = some x) : f.Holds x := by
  simp only [Format.parse] at h
  split_ifs at h
  · rw [← Option.some.inj h]
    rfl
  · rw [← Option.some.inj h]
    rfl
  · exact f.holds_decimal hp h
  · exact f.holds_decimal hp h

end Format

end FloatText
