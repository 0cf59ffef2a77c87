import Mathlib.Algebra.Order.Field.Rat
import Mathlib.Data.Int.Log
import Mathlib.Data.Rat.Floor
import Zstats.Framework.Text

namespace FloatText

/-- A number with its exact value, an infinity or no number at all; a zero has no sign. -/
inductive Number where
  | nan
  | infinite (negative : Bool)
  | finite (value : ℚ)
  deriving DecidableEq, Repr

/-- The bits of a significand and the largest exponent. -/
structure Format where
  precision : ℕ
  maxExponent : ℤ

def single : Format := ⟨24, 127⟩
def double : Format := ⟨53, 1023⟩

/-- The nearest integer, the even one of two. -/
def nearestEven (x : ℚ) : ℤ :=
  let below := ⌊x⌋
  let rest := x - below
  if rest < 1 / 2 then below
  else if 1 / 2 < rest then below + 1
  else if below % 2 = 0 then below
  else below + 1

/-- The nearest number of the format, an infinity where that is out of its range. -/
def Format.nearest (f : Format) (x : ℚ) : Number :=
  -- below the smallest normal exponent the unit stays: the subnormal numbers
  let exponent := max (Int.log 2 |x|) (1 - f.maxExponent)
  let unit : ℚ := 2 ^ (exponent - f.precision + 1)
  let value := nearestEven (x / unit) * unit
  if 2 ^ (f.maxExponent + 1) ≤ |value| then .infinite (decide (x < 0)) else .finite value

/-- A number of one format as one of another. -/
def Number.cast (f : Format) : Number → Number
  | .finite x => f.nearest x
  | other => other

def Number.isNan : Number → Bool
  | .nan => true
  | _ => false

/-- `x < 0.0`. -/
def Number.isNegative : Number → Bool
  | .nan => false
  | .infinite negative => negative
  | .finite x => decide (x < 0)

/-- A sign and the rest. -/
def splitSign : List Char → Bool × List Char
  | '-' :: text => (true, text)
  | '+' :: text => (false, text)
  | text => (false, text)

/-- What follows the digits: nothing, or `e` and an integer. -/
def parseExponent : List Char → Option ℤ
  | [] => some 0
  | c :: text =>
    let (negative, digits) := splitSign text
    if c.toLower = 'e' ∧ digits ≠ [] ∧ digits.all Char.isDigit then
      let n : ℤ := Nat.ofDigitChars 10 digits 0
      some (if negative then -n else n)
    else none

/-- Digits with at most one point and an exponent. -/
def parseDecimal (text : List Char) : Option ℚ :=
  let whole := text.takeWhile Char.isDigit
  let rest := text.dropWhile Char.isDigit
  let point := decide (rest.head? = some '.')
  let fraction := if point then rest.tail.takeWhile Char.isDigit else []
  let rest := if point then rest.tail.dropWhile Char.isDigit else rest
  if whole = [] ∧ fraction = [] then none
  else
    (parseExponent rest).map fun exponent : ℤ =>
      (Nat.ofDigitChars 10 (whole ++ fraction) 0 : ℚ) * 10 ^ (exponent - fraction.length : ℤ)

def Format.parse (f : Format) (text : List Char) : Option Number :=
  let (negative, text) := splitSign text
  let word := String.ofList (text.map Char.toLower)
  if word = "inf" ∨ word = "infinity" then some (.infinite negative)
  else if word = "nan" then some .nan
  else (parseDecimal text).map fun x => f.nearest (if negative then -x else x)

theorem nearest_zero (f : Format) : f.nearest 0 = .finite 0 := by
  have hpos : (0 : ℚ) < 2 ^ (f.maxExponent + 1) := zpow_pos (by decide) _
  simp [Format.nearest, nearestEven, hpos]

/-- A zero is read as one. -/
theorem parse_zero (f : Format) : f.parse ['0'] = some (.finite 0) := by
  have hdigits : Nat.ofDigitChars 10 ['0'] 0 = 0 := by decide
  have hdecimal : parseDecimal ['0'] = some 0 := by
    simp [parseDecimal, parseExponent, hdigits]
  simp [Format.parse, splitSign, hdecimal, nearest_zero]

end FloatText
