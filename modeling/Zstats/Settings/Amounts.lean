import Zstats.Framework.Quantity
import Zstats.Settings.Parsing

namespace Zstats

open Quantity (Written number suffix)

/-- The milliseconds of a unit of time; a bare number counts milliseconds. -/
def durationFactor (unit : List Char) : Option ℕ :=
  match String.ofList unit with
  | "" | "ms" => some 1
  | "s" => some 1000
  | "m" => some 60000
  | "h" => some 3600000
  | _ => none

/-- The bytes of a unit of size, in either case; a bare number counts bytes. -/
def bytesFactor (unit : List Char) : Option ℕ :=
  match String.ofList (unit.map Char.toLower) with
  | "" | "b" => some 1
  | "k" | "kib" => some 1024
  | "m" | "mib" => some (1024 * 1024)
  | "g" | "gib" => some (1024 * 1024 * 1024)
  | "t" | "tib" => some (1024 * 1024 * 1024 * 1024)
  | "kb" => some 1000
  | "mb" => some (1000 * 1000)
  | "gb" => some (1000 * 1000 * 1000)
  | "tb" => some (1000 * 1000 * 1000 * 1000)
  | _ => none

/-- The number a text is written with, and the factor of its unit. -/
def Reads (factor : List Char → Option ℕ) (text : String) (n f : ℕ) : Prop :=
  ∃ digits unit, Written text.toList digits unit ∧ n = Quantity.value digits ∧ factor unit = some f

def Denotes (factor : List Char → Option ℕ) (text : String) (amount : ℕ) : Prop :=
  ∃ n f, Reads factor text n f ∧ amount = n * f

theorem reads_iff {factor : List Char → Option ℕ} {text : String} {n f : ℕ} :
    Reads factor text n f ↔ number text.toList ≠ [] ∧ n = Quantity.value (number text.toList) ∧
      factor (suffix text.toList) = some f :=
  Quantity.exists_written

/-- A text is read in one way at most. -/
theorem Reads.unique {factor : List Char → Option ℕ} {text : String} {n f n' f' : ℕ}
    (h : Reads factor text n f) (h' : Reads factor text n' f') : n = n' ∧ f = f' := by
  obtain ⟨-, hn, hf⟩ := reads_iff.mp h
  obtain ⟨-, hn', hf'⟩ := reads_iff.mp h'
  rw [hf] at hf'
  exact ⟨hn.trans hn'.symm, Option.some.inj hf'⟩

theorem Denotes.unique {factor : List Char → Option ℕ} {text : String} {m m' : ℕ}
    (h : Denotes factor text m) (h' : Denotes factor text m') : m = m' := by
  obtain ⟨n, f, hreads, rfl⟩ := h
  obtain ⟨n', f', hreads', rfl⟩ := h'
  obtain ⟨rfl, rfl⟩ := hreads.unique hreads'
  rfl

theorem parseU64_number (value : String) :
    parseU64 (number value.toList) =
      if number value.toList ≠ [] ∧ Quantity.value (number value.toList) ≤ u64Max then
        some (Quantity.value (number value.toList)) else none := by
  by_cases hsome : number value.toList = []
  · rw [hsome]
    rfl
  · have hdigits := Quantity.digits_number value.toList
    rw [parseU64, Quantity.parseUnsigned_digits hdigits hsome]
    simp [hsome]

theorem parseU64_some {value : String} {n : ℕ} :
    parseU64 (number value.toList) = some n ↔
      number value.toList ≠ [] ∧ n = Quantity.value (number value.toList) ∧ n ≤ u64Max := by
  rw [parseU64_number]
  constructor
  · intro h
    split at h
    · next hfits =>
      cases h
      exact ⟨hfits.1, rfl, hfits.2⟩
    · cases h
  · intro hcase
    obtain ⟨hsome, rfl, hfits⟩ := hcase
    rw [if_pos ⟨hsome, hfits⟩]

theorem trim_ne_nil {value : String} (h : number value.toList ≠ []) : Text.trim value.toList ≠ [] := by
  intro hempty
  apply h
  rw [number, hempty]
  rfl

/-- What a number and a unit of time give. -/
def durationOf (n : ℕ) (unit : List Char) : Except String ℕ :=
  match durationFactor unit with
  | some f => .ok (n * f % 2 ^ 64 * 1000000)
  | none => .error ("invalid duration unit: " ++ String.ofList unit ++ " (use ms, s, m or h)")

theorem durationOf_nil {n : ℕ} (h : n ≤ u64Max) : durationOf n [] = .ok (n * 1000000) := by
  have hwrap : n * 1 % 2 ^ 64 = n := by
    rw [u64Max] at h
    omega
  change Except.ok (n * 1 % 2 ^ 64 * 1000000) = _
  rw [hwrap]

theorem durationOf_unit {n : ℕ} {unit : List Char} (h : n ≤ u64Max) (hunit : unit ≠ []) :
    durationOf n unit = match String.ofList unit with
      | "ms" => .ok (n * 1000000)
      | "s" => .ok (n * 1000 % 2 ^ 64 * 1000000)
      | "m" => .ok (n * 60000 % 2 ^ 64 * 1000000)
      | "h" => .ok (n * 3600000 % 2 ^ 64 * 1000000)
      | other => .error ("invalid duration unit: " ++ other ++ " (use ms, s, m or h)") := by
  have hname : String.ofList unit ≠ "" := by
    intro hempty
    apply hunit
    have hlist := congrArg String.toList hempty
    simpa using hlist
  have hwrap : n * 1 % 2 ^ 64 = n := by
    rw [u64Max] at h
    omega
  rw [durationOf, durationFactor]
  generalize String.ofList unit = name at *
  split
  · next f hf =>
    split at hf <;> cases hf
    · exact absurd rfl hname
    all_goals simp only [hwrap]
  · next hf =>
    split at hf <;> cases hf
    split <;> simp_all

/-- `parse_duration` as its number and its unit. -/
theorem parseDuration_eq (value : String) :
    parseDuration value =
      if Text.trim value.toList = [] then .error "empty duration"
      else match parseU64 (number value.toList) with
        | none => .error ("invalid duration: " ++ value)
        | some n => durationOf n (suffix value.toList) := by
  by_cases hempty : Text.trim value.toList = []
  · rw [parseDuration, if_pos hempty, if_pos hempty]
  · rw [parseDuration, if_neg hempty, if_neg hempty]
    cases hall : (Text.trim value.toList).all Char.isDigit with
    | true =>
      obtain ⟨hnumber, hsuffix⟩ := Quantity.all_digits hall
      rw [if_pos rfl, ← hnumber, hsuffix]
      cases hparse : parseU64 (number value.toList) with
      | none => rfl
      | some n => exact (durationOf_nil (parseU64_some.mp hparse).2.2).symm
    | false =>
      rw [if_neg (by decide)]
      change (match parseU64 (number value.toList) with
        | none => _
        | some n => _) = _
      cases hparse : parseU64 (number value.toList) with
      | none => rfl
      | some n =>
        obtain ⟨hsome, -, hfits⟩ := parseU64_some.mp hparse
        dsimp only
        rewrite [durationOf_unit hfits (Quantity.suffix_ne_nil hsome hall), suffix]
        generalize String.ofList _ = name
        split <;> simp_all

/-- A duration read: its product is taken modulo `2 ^ 64`. -/
theorem parseDuration_ok {value : String} {duration : ℕ} :
    parseDuration value = .ok duration ↔
      ∃ n f, Reads durationFactor value n f ∧ n ≤ u64Max ∧ duration = n * f % 2 ^ 64 * 1000000 := by
  rw [parseDuration_eq]
  constructor
  · intro h
    split at h
    · cases h
    · cases hparse : parseU64 (number value.toList) with
      | none =>
        rw [hparse] at h
        cases h
      | some n =>
        obtain ⟨hsome, hn, hfits⟩ := parseU64_some.mp hparse
        rw [hparse] at h
        dsimp only [durationOf] at h
        split at h
        · next f hf =>
          cases h
          exact ⟨n, f, reads_iff.mpr ⟨hsome, hn, hf⟩, hfits, rfl⟩
        · cases h
  · intro hcase
    obtain ⟨n, f, hreads, hfits, rfl⟩ := hcase
    obtain ⟨hsome, hn, hf⟩ := reads_iff.mp hreads
    rw [if_neg (trim_ne_nil hsome), parseU64_some.mpr ⟨hsome, hn, hfits⟩]
    simp only [durationOf, hf]

theorem bytesFactor_nil : bytesFactor [] = some 1 := rfl

theorem bytesFactor_of_ne {unit : List Char} (h : unit ≠ []) :
    bytesFactor unit = sizeFactor (String.ofList (unit.map Char.toLower)) := by
  have hname : String.ofList (unit.map Char.toLower) ≠ "" := by
    intro hempty
    have hlist := congrArg String.toList hempty
    rw [String.toList_ofList] at hlist
    exact h (List.map_eq_nil_iff.mp hlist)
  rw [bytesFactor]
  generalize String.ofList (unit.map Char.toLower) = name at *
  split
  · exact absurd rfl hname
  all_goals try rfl
  · rw [sizeFactor] <;> assumption

/-- What a number and a unit of size give. -/
def sizeOf (value : String) (n : ℕ) (unit : List Char) : Except String ℕ :=
  match bytesFactor unit with
  | none => .error ("invalid size unit: " ++ String.ofList (unit.map Char.toLower) ++
      " (use B, KiB, MiB, GiB, TiB or their KB/MB/GB forms)")
  | some f => if n * f ≤ u64Max then .ok (n * f) else .error ("size out of range: " ++ value)

theorem sizeOf_nil (value : String) {n : ℕ} (h : n ≤ u64Max) : sizeOf value n [] = .ok n := by
  simp only [sizeOf, bytesFactor_nil, Nat.mul_one, if_pos h]

/-- `parse_size` as its number and its unit. -/
theorem parseSize_eq (value : String) :
    parseSize value =
      if Text.trim value.toList = [] then .error "empty size"
      else match parseU64 (number value.toList) with
        | none => .error ("invalid size: " ++ value)
        | some n => sizeOf value n (suffix value.toList) := by
  by_cases hempty : Text.trim value.toList = []
  · rw [parseSize, if_pos hempty, if_pos hempty]
  · rw [parseSize, if_neg hempty, if_neg hempty]
    cases hall : (Text.trim value.toList).all Char.isDigit with
    | true =>
      obtain ⟨hnumber, hsuffix⟩ := Quantity.all_digits hall
      rw [if_pos rfl, ← hnumber, hsuffix]
      cases hparse : parseU64 (number value.toList) with
      | none => rfl
      | some n => exact (sizeOf_nil value (parseU64_some.mp hparse).2.2).symm
    | false =>
      rw [if_neg (by decide)]
      change (match parseU64 (number value.toList) with
        | none => _
        | some n => _) = _
      cases hparse : parseU64 (number value.toList) with
      | none => rfl
      | some n =>
        obtain ⟨hsome, -, -⟩ := parseU64_some.mp hparse
        dsimp only [sizeOf]
        rewrite [bytesFactor_of_ne (Quantity.suffix_ne_nil hsome hall), suffix]
        generalize sizeFactor _ = factor
        cases factor with
        | none => rfl
        | some f => rfl

theorem bytesFactor_pos {unit : List Char} {f : ℕ} (h : bytesFactor unit = some f) : 0 < f := by
  rw [bytesFactor] at h
  split at h <;> cases h <;> decide

theorem number_le {n f : ℕ} (hf : 0 < f) (h : n * f ≤ u64Max) : n ≤ u64Max :=
  (Nat.le_mul_of_pos_right n hf).trans h

/-- A size read: its product is checked. -/
theorem parseSize_ok {value : String} {bytes : ℕ} :
    parseSize value = .ok bytes ↔
      ∃ n f, Reads bytesFactor value n f ∧ n * f ≤ u64Max ∧ bytes = n * f := by
  rw [parseSize_eq]
  constructor
  · intro h
    split at h
    · cases h
    · cases hparse : parseU64 (number value.toList) with
      | none =>
        rw [hparse] at h
        cases h
      | some n =>
        obtain ⟨hsome, hn, -⟩ := parseU64_some.mp hparse
        rw [hparse] at h
        dsimp only [sizeOf] at h
        split at h
        · cases h
        · next f hf =>
          split at h
          · next hfits =>
            cases h
            exact ⟨n, f, reads_iff.mpr ⟨hsome, hn, hf⟩, hfits, rfl⟩
          · cases h
  · intro hcase
    obtain ⟨n, f, hreads, hfits, rfl⟩ := hcase
    obtain ⟨hsome, hn, hf⟩ := reads_iff.mp hreads
    have hnumber := number_le (bytesFactor_pos hf) hfits
    rw [if_neg (trim_ne_nil hsome), parseU64_some.mpr ⟨hsome, hn, hnumber⟩]
    simp only [sizeOf, hf, if_pos hfits]

/-- A duration is read exactly or refused: refused when nothing is denoted, or more than 64 bits
hold. -/
def ReadsDuration (value : String) : Prop :=
  ∀ duration, parseDuration value = .ok duration ↔
    ∃ ms ≤ u64Max, Denotes durationFactor value ms ∧ duration = ms * 1000000

def ReadsSize (value : String) : Prop :=
  ∀ bytes, parseSize value = .ok bytes ↔ bytes ≤ u64Max ∧ Denotes bytesFactor value bytes

/-- A number that fits, with a unit that takes it past 64 bits. -/
def Wraps (value : String) : Prop :=
  ∃ n f, Reads durationFactor value n f ∧ n ≤ u64Max ∧ u64Max < n * f

theorem durationFactor_pos {unit : List Char} {f : ℕ} (h : durationFactor unit = some f) : 0 < f := by
  unfold durationFactor at h
  split at h <;> cases h <;> decide

theorem wrapped_eq {m : ℕ} (h : m ≤ u64Max) : m % 2 ^ 64 = m := by
  apply Nat.mod_eq_of_lt
  rw [u64Max] at h
  omega

theorem readsSize (value : String) : ReadsSize value := by
  intro bytes
  rw [parseSize_ok]
  constructor
  · intro hcase
    obtain ⟨n, f, hreads, hfits, rfl⟩ := hcase
    exact ⟨hfits, n, f, hreads, rfl⟩
  · intro hcase
    obtain ⟨hfits, n, f, hreads, rfl⟩ := hcase
    exact ⟨n, f, hreads, hfits, rfl⟩

theorem readsDuration_iff (value : String) : ReadsDuration value ↔ ¬ Wraps value := by
  constructor
  · intro h hcase
    obtain ⟨n, f, hreads, hfits, hlarge⟩ := hcase
    have hok := parseDuration_ok.mpr ⟨n, f, hreads, hfits, rfl⟩
    obtain ⟨ms, hms, hdenotes, heq⟩ := (h _).mp hok
    have hsame : ms = n * f := hdenotes.unique ⟨n, f, hreads, rfl⟩
    omega
  · intro hwraps duration
    rw [parseDuration_ok]
    constructor
    · intro hcase
      obtain ⟨n, f, hreads, hfits, rfl⟩ := hcase
      have hproduct : n * f ≤ u64Max := by
        by_contra hlarge
        exact hwraps ⟨n, f, hreads, hfits, Nat.lt_of_not_le hlarge⟩
      refine ⟨n * f, hproduct, ⟨n, f, hreads, rfl⟩, ?_⟩
      rw [wrapped_eq hproduct]
    · intro hcase
      obtain ⟨ms, hms, ⟨n, f, hreads, rfl⟩, rfl⟩ := hcase
      have hpos := durationFactor_pos (reads_iff.mp hreads).2.2
      refine ⟨n, f, hreads, number_le hpos hms, ?_⟩
      rw [wrapped_eq hms]

/-- Both readers are exact on a text if and only if its number of units of time does not leave 64
bits. -/
theorem exact_or_refused (value : String) : ReadsDuration value ∧ ReadsSize value ↔ ¬ Wraps value := by
  rw [readsDuration_iff]
  exact ⟨fun h => h.1, fun h => ⟨h, readsSize value⟩⟩

/-- More seconds than 64 bits of milliseconds hold, read as 384 ms. -/
theorem exact_or_refused_fails :
    parseDuration "18446744073709552s" = .ok (384 * 1000000) ∧
    Denotes durationFactor "18446744073709552s" 18446744073709552000 ∧
    ¬ ∀ value, ReadsDuration value ∧ ReadsSize value := by
  have hreads : Reads durationFactor "18446744073709552s" 18446744073709552 1000 :=
    reads_iff.mpr (by decide)
  have hok : parseDuration "18446744073709552s" = .ok (384 * 1000000) :=
    parseDuration_ok.mpr ⟨_, _, hreads, by decide, rfl⟩
  refine ⟨hok, ⟨_, _, hreads, rfl⟩, ?_⟩
  intro h
  apply (readsDuration_iff _).mp (h "18446744073709552s").1
  exact ⟨_, _, hreads, by decide, by decide⟩

end Zstats
