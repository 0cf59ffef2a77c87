import Mathlib.Data.List.Basic

namespace Text

def stripPrefix (beginning text : List Char) : Option (List Char) :=
  if beginning.isPrefixOf text then some (text.drop beginning.length) else none

def stripSuffix (ending text : List Char) : Option (List Char) :=
  (stripPrefix ending.reverse text.reverse).map List.reverse

/-- The characters with the property `White_Space`. -/
def isWhitespace (c : Char) : Bool :=
  let n := c.toNat
  decide (9 ≤ n ∧ n ≤ 13 ∨ n = 32 ∨ n = 133 ∨ n = 160 ∨ n = 5760 ∨ 8192 ≤ n ∧ n ≤ 8202 ∨
    n = 8232 ∨ n = 8233 ∨ n = 8239 ∨ n = 8287 ∨ n = 12288)

def trim (text : List Char) : List Char :=
  ((text.dropWhile isWhitespace).reverse.dropWhile isWhitespace).reverse

/-- Digits after at most one plus sign, of a number up to `max`. -/
def parseUnsigned (max : ℕ) (text : List Char) : Option ℕ :=
  let digits := if text.head? = some '+' then text.tail else text
  if digits = [] ∨ ¬ digits.all Char.isDigit then none
  else
    let n := Nat.ofDigitChars 10 digits 0
    if n ≤ max then some n else none

theorem stripPrefix_append (beginning text : List Char) :
    stripPrefix beginning (beginning ++ text) = some text := by
  rw [stripPrefix, if_pos (List.isPrefixOf_iff_prefix.mpr (List.prefix_append _ _)),
    List.drop_left]

theorem stripSuffix_append (text ending : List Char) :
    stripSuffix ending (text ++ ending) = some text := by
  rw [stripSuffix, List.reverse_append, stripPrefix_append, Option.map_some, List.reverse_reverse]

theorem not_whitespace_of_digit {c : Char} (h : c.isDigit) : isWhitespace c = false := by
  have hrange : 48 ≤ c.toNat ∧ c.toNat ≤ 57 := by
    simpa [Char.isDigit, UInt32.le_iff_toNat_le] using h
  simp only [isWhitespace, decide_eq_false_iff_not]
  omega

theorem dropWhile_digits {text : List Char} (h : ∀ c ∈ text, c.isDigit) :
    text.dropWhile isWhitespace = text := by
  cases text with
  | nil => rfl
  | cons c text =>
    have hc := not_whitespace_of_digit (h c List.mem_cons_self)
    simp [hc]

theorem trim_digits {text : List Char} (h : ∀ c ∈ text, c.isDigit) : trim text = text := by
  have hreverse : ∀ c ∈ text.reverse, c.isDigit := by
    intro c hc
    exact h c (List.mem_reverse.mp hc)
  rw [trim, dropWhile_digits h, dropWhile_digits hreverse, List.reverse_reverse]

/-- A number that fits is read back from its digits. -/
theorem parseUnsigned_le {max n : ℕ} {text : List Char} (h : parseUnsigned max text = some n) :
    n ≤ max := by
  dsimp only [parseUnsigned] at h
  generalize (if text.head? = some '+' then text.tail else text) = digits at h
  split_ifs at h with _ hmax
  obtain rfl := Option.some.inj h
  exact hmax

theorem parseUnsigned_toDigits {max n : ℕ} (h : n ≤ max) :
    parseUnsigned max (Nat.toDigits 10 n) = some n := by
  have hdigits : ∀ c ∈ Nat.toDigits 10 n, c.isDigit := by
    intro c hc
    exact Nat.isDigit_of_mem_toDigits (by decide) (Nat.le_refl 10) hc
  have hplus : (Nat.toDigits 10 n).head? ≠ some '+' := by
    intro hhead
    have hdigit := hdigits _ (List.mem_of_mem_head? hhead)
    exact absurd hdigit (by decide)
  have hgood : ¬ (Nat.toDigits 10 n = [] ∨ ¬ (Nat.toDigits 10 n).all Char.isDigit) := by
    rw [not_or, not_not, List.all_eq_true]
    exact ⟨Nat.toDigits_ne_nil, hdigits⟩
  simp only [parseUnsigned, if_neg hplus, if_neg hgood, Nat.ofDigitChars_ten_toDigits, if_pos h]

end Text
