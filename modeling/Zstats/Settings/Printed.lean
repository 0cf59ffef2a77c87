import Zstats.Settings.Amounts

namespace Zstats

open Quantity (Written plain)

theorem toList_printed (n : ℕ) (unit : String) :
    (toString n ++ unit).toList = Nat.toDigits 10 n ++ unit.toList := by
  rw [String.toList_append, Nat.toString_eq_ofList_toDigits, String.toList_ofList]

/-- A number printed before a plain unit is read as that number and the factor of the unit. -/
theorem reads_printed {factor : List Char → Option ℕ} (n : ℕ) {f : ℕ} {unit : String}
    (hplain : plain unit.toList = true) (hf : factor unit.toList = some f) :
    Reads factor (toString n ++ unit) n f := by
  have hwritten := Quantity.written_toDigits n hplain
  rw [← toList_printed] at hwritten
  exact ⟨_, _, hwritten, (Quantity.value_toDigits n).symm, hf⟩

theorem denotes_printed {factor : List Char → Option ℕ} (amount : ℕ) {f : ℕ} {unit : String}
    (hplain : plain unit.toList = true) (hf : factor unit.toList = some f) (hdvd : amount % f = 0) :
    Denotes factor (toString (amount / f) ++ unit) amount := by
  refine ⟨amount / f, f, reads_printed _ hplain hf, ?_⟩
  exact (Nat.div_mul_cancel (Nat.dvd_of_mod_eq_zero hdvd)).symm

theorem denotes_single {factor : List Char → Option ℕ} (amount : ℕ) {unit : String}
    (hplain : plain unit.toList = true) (hf : factor unit.toList = some 1) :
    Denotes factor (toString amount ++ unit) amount := by
  have h := denotes_printed amount hplain hf (Nat.mod_one amount)
  rwa [Nat.div_one] at h

theorem formatDuration_denotes (duration : ℕ) :
    Denotes durationFactor (formatDuration duration) (duration / 1000000 % 2 ^ 64) := by
  rw [formatDuration]
  generalize duration / 1000000 % 2 ^ 64 = ms
  split
  · next hzero =>
    subst hzero
    have hprinted : toString (0 / 1000) ++ "s" = "0s" := by decide
    rw [← hprinted]
    exact denotes_printed 0 (by decide) (by decide) rfl
  split
  · next h => exact denotes_printed _ (by decide) (by decide) h
  split
  · next h => exact denotes_printed _ (by decide) (by decide) h
  split
  · next h => exact denotes_printed _ (by decide) (by decide) h
  · exact denotes_single ms (by decide) (by decide)

theorem formatSize_denotes (bytes : ℕ) : Denotes bytesFactor (formatSize bytes) bytes := by
  rw [formatSize]
  split
  · next factor unit hfind =>
    have hdvd := List.find?_some hfind
    have hunit := List.mem_of_find?_eq_some hfind
    rw [decide_eq_true_eq] at hdvd
    simp only [List.mem_cons, Prod.mk.injEq, List.not_mem_nil, or_false] at hunit
    obtain ⟨rfl, rfl⟩ | ⟨rfl, rfl⟩ | ⟨rfl, rfl⟩ | ⟨rfl, rfl⟩ := hunit
    all_goals exact denotes_printed _ (by decide) (by decide) hdvd.2
  · exact denotes_single bytes (by decide) (by decide)

theorem u64_le (x : UInt64) : x.toNat ≤ u64Max := by
  have hlt := x.toNat_lt
  rw [u64Max]
  omega

theorem fromMillis_back (ms : UInt64) : ms.toNat * 1000000 / 1000000 % 2 ^ 64 = ms.toNat := by
  rw [Nat.mul_div_cancel _ (by decide), wrapped_eq (u64_le ms)]

theorem denotes_formatDuration (ms : UInt64) :
    Denotes durationFactor (formatDuration (ms.toNat * 1000000)) ms.toNat := by
  have h := formatDuration_denotes (ms.toNat * 1000000)
  rwa [fromMillis_back] at h

theorem not_wraps_of_denotes {text : String} {ms : ℕ} (h : Denotes durationFactor text ms)
    (hms : ms ≤ u64Max) : ¬ Wraps text := by
  intro hcase
  obtain ⟨n, f, hreads, -, hlarge⟩ := hcase
  have hsame : ms = n * f := h.unique ⟨n, f, hreads, rfl⟩
  omega

theorem parseDuration_formatDuration (ms : UInt64) :
    parseDuration (formatDuration (ms.toNat * 1000000)) = .ok (ms.toNat * 1000000) := by
  have hdenotes := denotes_formatDuration ms
  have hexact := (readsDuration_iff _).mpr (not_wraps_of_denotes hdenotes (u64_le ms))
  exact (hexact _).mpr ⟨ms.toNat, u64_le ms, hdenotes, rfl⟩

theorem parseSize_formatSize (b : UInt64) : parseSize (formatSize b.toNat) = .ok b.toNat :=
  (readsSize _ _).mpr ⟨u64_le b, formatSize_denotes b.toNat⟩

/-- A setting saved is read back unchanged, and the product of the reading is the amount itself. -/
theorem codecs_round_trip :
    (∀ ms : UInt64,
      parseDuration (formatDuration (ms.toNat * 1000000)) = .ok (ms.toNat * 1000000) ∧
      Denotes durationFactor (formatDuration (ms.toNat * 1000000)) ms.toNat ∧
      DurationSerde.visit (DurationSerde.serialize (ms.toNat * 1000000)) = .ok (ms.toNat * 1000000)) ∧
    (∀ b : UInt64,
      parseSize (formatSize b.toNat) = .ok b.toNat ∧
      Denotes bytesFactor (formatSize b.toNat) b.toNat ∧
      SizeSerde.visit (SizeSerde.serialize b.toNat) = .ok b.toNat) := by
  constructor
  · intro ms
    have hround := parseDuration_formatDuration ms
    exact ⟨hround, denotes_formatDuration ms, hround⟩
  · intro b
    have hround := parseSize_formatSize b
    exact ⟨hround, formatSize_denotes b.toNat, hround⟩

example : formatDuration (90000 * 1000000) = "90s" := by decide

end Zstats
