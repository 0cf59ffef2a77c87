import Mathlib.Tactic.Ring
import Zstats.Framework.Quantity

namespace Numeral

/-- `char::to_digit`. -/
def digit (radix : ℕ) (c : Char) : Option ℕ :=
  let n := c.toNat
  let d :=
    if 48 ≤ n ∧ n ≤ 57 then n - 48
    else if 65 ≤ n ∧ n ≤ 90 then n - 55
    else if 97 ≤ n ∧ n ≤ 122 then n - 87
    else radix
  if d < radix then some d else none

/-- The digits one after the other, until one does not fit. -/
def accumulate (radix max : ℕ) : ℕ → List Char → Option ℕ
  | n, [] => some n
  | n, c :: text =>
    match digit radix c with
    | some d => if radix * n + d ≤ max then accumulate radix max (radix * n + d) text else none
    | none => none

/-- `from_str_radix` of an unsigned type: at most one plus sign, then digits. -/
def fromStrRadix (radix max : ℕ) (text : List Char) : Option ℕ :=
  let digits := if text.head? = some '+' then text.tail else text
  if digits = [] then none else accumulate radix max 0 digits

/-- The number that digits in front of others add up to. -/
def value (radix n : ℕ) (text : List Char) : ℕ :=
  text.foldl (fun n c => radix * n + (digit radix c).getD 0) n

/-- A run of digits that denotes `n`. -/
structure Spells (radix : ℕ) (text : List Char) (n : ℕ) : Prop where
  nonempty : text ≠ []
  digits : ∀ c ∈ text, (digit radix c).isSome
  denotes : value radix 0 text = n

/-- A run of digits, or one behind a plus sign. -/
def Reads (radix : ℕ) (text : List Char) (n : ℕ) : Prop :=
  Spells radix text n ∨ ∃ digits, text = '+' :: digits ∧ Spells radix digits n

/-- A digit, or an upper-case letter. -/
def digitChar (d : ℕ) : Char := if d < 10 then Char.ofNat (48 + d) else Char.ofNat (55 + d)

/-- The last `width` digits of a number, zeros in front: `{:0width$X}` of one that has no more. -/
def padded (radix : ℕ) : ℕ → ℕ → List Char
  | 0, _ => []
  | width + 1, n => padded radix width (n / radix) ++ [digitChar (n % radix)]

variable {radix max n : ℕ} {text : List Char}

theorem le_value (hradix : 0 < radix) (n : ℕ) (text : List Char) : n ≤ value radix n text := by
  induction text generalizing n with
  | nil => exact Nat.le_refl n
  | cons c text ih =>
    have hstep := ih (radix * n + (digit radix c).getD 0)
    have hmul : n ≤ radix * n := Nat.le_mul_of_pos_left n hradix
    change n ≤ value radix (radix * n + (digit radix c).getD 0) text
    omega

/-- Digits are accumulated to their value, if it fits. -/
theorem accumulate_eq_some (hradix : 0 < radix) {m : ℕ} (hn : n ≤ max) :
    accumulate radix max n text = some m ↔
      (∀ c ∈ text, (digit radix c).isSome) ∧ value radix n text = m ∧ m ≤ max := by
  induction text generalizing n with
  | nil =>
    simp only [accumulate, value, List.foldl_nil, Option.some.injEq]
    constructor
    · intro h
      subst h
      exact ⟨by simp, rfl, hn⟩
    · intro h
      exact h.2.1
  | cons c text ih =>
    have hvalue : value radix n (c :: text) =
        value radix (radix * n + (digit radix c).getD 0) text := rfl
    rw [accumulate, hvalue, List.forall_mem_cons]
    cases hdigit : digit radix c with
    | none => simp
    | some d =>
      simp only [Option.isSome_some, true_and, Option.getD_some]
      by_cases hfits : radix * n + d ≤ max
      · rw [if_pos hfits, ih hfits]
      · rw [if_neg hfits]
        constructor
        · intro h
          cases h
        · intro h
          obtain ⟨-, hm, hmax⟩ := h
          have hle := le_value hradix (radix * n + d) text
          omega

theorem digit_lt {c : Char} {d : ℕ} (h : digit radix c = some d) : d < radix := by
  simp only [digit, Option.ite_none_right_eq_some, Option.some.injEq] at h
  obtain ⟨hlt, rfl⟩ := h
  exact hlt

/-- A digit is an ASCII digit or letter. -/
theorem code_of_digit {c : Char} (h : (digit radix c).isSome) :
    48 ≤ c.toNat ∧ c.toNat ≤ 57 ∨ 65 ≤ c.toNat ∧ c.toNat ≤ 90 ∨ 97 ≤ c.toNat ∧ c.toNat ≤ 122 := by
  by_contra hother
  simp only [not_or] at hother
  obtain ⟨hdecimal, hupper, hlower⟩ := hother
  have hnone : digit radix c = none := by
    simp [digit, hdecimal, hupper, hlower]
  rw [hnone] at h
  cases h

theorem not_whitespace {c : Char} (h : (digit radix c).isSome) : Text.isWhitespace c = false := by
  have hcode := code_of_digit h
  simp only [Text.isWhitespace, decide_eq_false_iff_not]
  omega

/-- A number is bounded by how many digits spell it. -/
theorem value_lt (n : ℕ) (h : ∀ c ∈ text, (digit radix c).isSome) :
    value radix n text < (n + 1) * radix ^ text.length := by
  induction text generalizing n with
  | nil => simp [value]
  | cons c text ih =>
    obtain ⟨d, hd⟩ := Option.isSome_iff_exists.mp (h c List.mem_cons_self)
    have hlt := digit_lt hd
    have hstep := ih (radix * n + d) (fun c hc => h c (List.mem_cons_of_mem _ hc))
    have hvalue : value radix n (c :: text) = value radix (radix * n + d) text := by
      simp [value, hd]
    rw [hvalue, List.length_cons, Nat.pow_succ', ← Nat.mul_assoc]
    apply Nat.lt_of_lt_of_le hstep
    apply Nat.mul_le_mul_right
    calc
      radix * n + d + 1 ≤ radix * n + radix := by omega
      _ = (n + 1) * radix := by ring

theorem Spells.lt (h : Spells radix text n) : n < radix ^ text.length := by
  have hlt := value_lt 0 h.digits
  rw [h.denotes, Nat.zero_add, Nat.one_mul] at hlt
  exact hlt

theorem digit_plus (radix : ℕ) : digit radix '+' = none := by
  have hcode : ('+' : Char).toNat = 43 := rfl
  simp [digit, hcode]

theorem Spells.not_signed (h : Spells radix text n) : text.head? ≠ some '+' := by
  intro hhead
  have hdigit := h.digits '+' (List.mem_of_mem_head? hhead)
  rw [digit_plus] at hdigit
  cases hdigit

theorem Reads.spells (h : Reads radix text n) (hplain : text.head? ≠ some '+') :
    Spells radix text n := by
  rcases h with h | ⟨digits, rfl, -⟩
  · exact h
  · exact absurd rfl hplain

/-- Digits without a sign are read as what they spell. -/
theorem unsigned_eq_some (hradix : 0 < radix) (digits : List Char) :
    (if digits = [] then none else accumulate radix max 0 digits) = some n ↔
      Spells radix digits n ∧ n ≤ max := by
  by_cases hempty : digits = []
  · rw [if_pos hempty]
    constructor
    · intro h
      cases h
    · intro h
      exact absurd hempty h.1.nonempty
  · rw [if_neg hempty, accumulate_eq_some hradix (Nat.zero_le max)]
    constructor
    · intro h
      exact ⟨⟨hempty, h.1, h.2.1⟩, h.2.2⟩
    · intro h
      exact ⟨h.1.digits, h.1.denotes, h.2⟩

theorem Reads.lt (hpos : 0 < radix) (h : Reads radix text n) : n < radix ^ text.length := by
  rcases h with h | ⟨digits, rfl, h⟩
  · exact h.lt
  · apply Nat.lt_of_lt_of_le h.lt
    apply Nat.pow_le_pow_right hpos
    simp

/-- What is read, and as what. -/
theorem fromStrRadix_eq_some (hradix : 0 < radix) :
    fromStrRadix radix max text = some n ↔ Reads radix text n ∧ n ≤ max := by
  by_cases hsign : text.head? = some '+'
  · obtain ⟨digits, rfl⟩ : ∃ digits, text = '+' :: digits := List.head?_eq_some_iff.mp hsign
    simp only [fromStrRadix, if_pos hsign, List.tail_cons]
    rw [unsigned_eq_some hradix]
    constructor
    · intro h
      exact ⟨.inr ⟨digits, rfl, h.1⟩, h.2⟩
    · intro h
      obtain ⟨hreads, hmax⟩ := h
      rcases hreads with hspells | ⟨digits', heq, hspells⟩
      · exact absurd hsign hspells.not_signed
      · cases heq
        exact ⟨hspells, hmax⟩
  · simp only [fromStrRadix, if_neg hsign]
    rw [unsigned_eq_some hradix]
    constructor
    · intro h
      exact ⟨.inl h.1, h.2⟩
    · intro h
      exact ⟨h.1.spells hsign, h.2⟩

section Printing

/-- A digit is read back. -/
theorem digit_digitChar (hradix : radix ≤ 36) {d : ℕ} (hd : d < radix) :
    digit radix (digitChar d) = some d := by
  have hcode : ∀ d < 36, (digitChar d).toNat = if d < 10 then 48 + d else 55 + d := by decide
  have hlarge : d < 36 := by omega
  simp only [digit, hcode d hlarge]
  split_ifs <;> first | omega | (congr 1; omega)

theorem value_append (n : ℕ) (front back : List Char) :
    value radix n (front ++ back) = value radix (value radix n front) back := by
  simp [value]

theorem length_padded (radix width n : ℕ) : (padded radix width n).length = width := by
  induction width generalizing n with
  | zero => rfl
  | succ width ih => simp [padded, ih]

variable (hpos : 0 < radix) (hradix : radix ≤ 36)

include hpos hradix in
theorem digits_padded (width n : ℕ) : ∀ c ∈ padded radix width n, (digit radix c).isSome := by
  induction width generalizing n with
  | zero => simp [padded]
  | succ width ih =>
    intro c hc
    rw [padded, List.mem_append, List.mem_singleton] at hc
    rcases hc with hc | rfl
    · exact ih (n / radix) c hc
    · rw [digit_digitChar hradix (Nat.mod_lt n hpos), Option.isSome_some]

include hpos hradix in
theorem value_padded {width n : ℕ} (hn : n < radix ^ width) :
    value radix 0 (padded radix width n) = n := by
  induction width generalizing n with
  | zero =>
    have hzero : n = 0 := by simpa using hn
    subst hzero
    rfl
  | succ width ih =>
    have hdiv : n / radix < radix ^ width := by
      rw [Nat.pow_succ] at hn
      exact Nat.div_lt_of_lt_mul (by rw [Nat.mul_comm]; exact hn)
    have hlast := digit_digitChar hradix (Nat.mod_lt n hpos)
    rw [padded, value_append, ih hdiv, value, List.foldl_cons, List.foldl_nil, hlast,
      Option.getD_some]
    exact Nat.div_add_mod n radix

include hpos hradix in
/-- What is printed spells the number, if it has no more digits than there is room for. -/
theorem spells_padded {width n : ℕ} (hwidth : 0 < width) (hn : n < radix ^ width) :
    Spells radix (padded radix width n) n := by
  have hsome : padded radix width n ≠ [] := by
    apply List.ne_nil_of_length_pos
    rw [length_padded]
    exact hwidth
  exact ⟨hsome, digits_padded hpos hradix width n, value_padded hpos hradix hn⟩

end Printing

section Decimal

open Text

theorem isSome_digit_ten (c : Char) : (digit 10 c).isSome ↔ c.isDigit := by
  have hdigit : c.isDigit ↔ 48 ≤ c.toNat ∧ c.toNat ≤ 57 := Char.isDigit_iff_toNat
  rw [hdigit]
  simp only [digit]
  split_ifs <;> simp <;> omega

theorem digit_ten {c : Char} (h : c.isDigit) : digit 10 c = some (c.toNat - '0'.toNat) := by
  have hdigit : 48 ≤ c.toNat ∧ c.toNat ≤ 57 := Char.isDigit_iff_toNat.mp h
  have hzero : '0'.toNat = 48 := rfl
  simp only [digit, if_pos hdigit, hzero]
  rw [if_pos (by omega)]

theorem value_ten (n : ℕ) (h : Digits text) : value 10 n text = Nat.ofDigitChars 10 text n := by
  induction text generalizing n with
  | nil => rfl
  | cons c text ih =>
    have hc : digit 10 c = some (c.toNat - '0'.toNat) := digit_ten (h c List.mem_cons_self)
    have htext : Digits text := fun c hc => h c (List.mem_cons_of_mem _ hc)
    rw [Nat.ofDigitChars_cons, ← ih _ htext, value, List.foldl_cons, hc, Option.getD_some, value]

theorem spells_ten : Spells 10 text n ↔ text ≠ [] ∧ Digits text ∧ Quantity.value text = n := by
  constructor
  · intro h
    have hdigits : Digits text := fun c hc => (isSome_digit_ten c).mp (h.digits c hc)
    exact ⟨h.nonempty, hdigits, (value_ten 0 hdigits).symm.trans h.denotes⟩
  · intro h
    obtain ⟨hsome, hdigits, hvalue⟩ := h
    exact ⟨hsome, fun c hc => (isSome_digit_ten c).mpr (hdigits c hc),
      (value_ten 0 hdigits).trans hvalue⟩

theorem spells_toDigits (n : ℕ) : Spells 10 (Nat.toDigits 10 n) n :=
  spells_ten.mpr ⟨Nat.toDigits_ne_nil, Quantity.digits_toDigits n, Quantity.value_toDigits n⟩

/-- `parse` of an unsigned type is `from_str_radix` with the radix ten. -/
theorem parseUnsigned_eq (max : ℕ) (text : List Char) :
    parseUnsigned max text = fromStrRadix 10 max text := by
  have hdigits (digits : List Char) (n : ℕ) :
      (if digits = [] ∨ ¬ digits.all Char.isDigit then none
        else if Quantity.value digits ≤ max then some (Quantity.value digits) else none) = some n ↔
        (if digits = [] then none else accumulate 10 max 0 digits) = some n := by
    rw [unsigned_eq_some (by decide), spells_ten]
    by_cases hgood : digits = [] ∨ ¬ digits.all Char.isDigit
    · rw [if_pos hgood]
      constructor
      · intro h
        cases h
      · intro h
        obtain ⟨⟨hsome, hall, -⟩, -⟩ := h
        rcases hgood with hempty | hnot
        · exact absurd hempty hsome
        · exact absurd (List.all_eq_true.mpr hall) hnot
    · rw [if_neg hgood]
      rw [not_or, not_not, List.all_eq_true] at hgood
      split_ifs with hfits
      · constructor
        · intro h
          cases h
          exact ⟨⟨hgood.1, hgood.2, rfl⟩, hfits⟩
        · intro h
          rw [h.1.2.2]
      · constructor
        · intro h
          cases h
        · intro h
          obtain ⟨⟨-, -, rfl⟩, hmax⟩ := h
          exact absurd hmax hfits
  apply Option.ext
  intro n
  exact hdigits (if text.head? = some '+' then text.tail else text) n

end Decimal

end Numeral
