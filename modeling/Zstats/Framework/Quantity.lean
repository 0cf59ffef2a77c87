import Zstats.Framework.Text
import Mathlib.Data.List.TakeWhile

namespace Text

def Blank (text : List Char) : Prop := ∀ c ∈ text, isWhitespace c = true

instance (text : List Char) : Decidable (Blank text) :=
  decidable_of_iff (text.all isWhitespace = true) List.all_eq_true

def Digits (text : List Char) : Prop := ∀ c ∈ text, c.isDigit = true

/-- Neither end is whitespace. -/
structure Tight (text : List Char) : Prop where
  front : ∀ c ∈ text.head?, isWhitespace c = false
  back : ∀ c ∈ text.getLast?, isWhitespace c = false

theorem dropWhile_blank {w : List Char} (h : Blank w) (text : List Char) :
    (w ++ text).dropWhile isWhitespace = text.dropWhile isWhitespace :=
  List.dropWhile_append_of_pos h

theorem dropWhile_of_front {text : List Char} (h : ∀ c ∈ text.head?, isWhitespace c = false) :
    text.dropWhile isWhitespace = text := by
  cases text with
  | nil => rfl
  | cons c text =>
    have hc := h c rfl
    simp [hc]

theorem trim_of_tight {text : List Char} (h : Tight text) : trim text = text := by
  have hback : ∀ c ∈ text.reverse.head?, isWhitespace c = false := by
    intro c hc
    rw [List.head?_reverse] at hc
    exact h.back c hc
  rw [trim, dropWhile_of_front h.front, dropWhile_of_front hback, List.reverse_reverse]

theorem trim_blank_append {w : List Char} (h : Blank w) (text : List Char) :
    trim (w ++ text) = trim text := by
  rw [trim, dropWhile_blank h, trim]

theorem Blank.reverse {w : List Char} (h : Blank w) : Blank w.reverse := by
  intro c hc
  exact h c (List.mem_reverse.mp hc)

theorem trim_append_blank (text : List Char) {w : List Char} (h : Blank w) :
    trim (text ++ w) = trim text := by
  rw [trim, trim, List.dropWhile_append]
  split
  · next hempty =>
    have hdrop : w.dropWhile isWhitespace = [] := List.dropWhile_eq_nil_iff.mpr h
    have hnil := List.isEmpty_iff.mp hempty
    rw [hdrop, hnil]
  · rw [List.reverse_append, dropWhile_blank h.reverse]

theorem exists_dropWhile (text : List Char) :
    ∃ w, Blank w ∧ text = w ++ text.dropWhile isWhitespace := by
  refine ⟨text.takeWhile isWhitespace, ?_, List.takeWhile_append_dropWhile.symm⟩
  intro c hc
  exact List.mem_takeWhile_imp hc

/-- What trimming takes away is whitespace on either side. -/
theorem exists_trim (text : List Char) :
    ∃ w w', Blank w ∧ Blank w' ∧ text = w ++ trim text ++ w' := by
  obtain ⟨w, hw, htext⟩ := exists_dropWhile text
  obtain ⟨w', hw', hback⟩ := exists_dropWhile (text.dropWhile isWhitespace).reverse
  refine ⟨w, w'.reverse, hw, hw'.reverse, ?_⟩
  have hdropped := congrArg List.reverse hback
  rw [List.reverse_reverse, List.reverse_append] at hdropped
  rw [trim, List.append_assoc, ← hdropped]
  exact htext

theorem front_dropWhile (text : List Char) :
    ∀ c ∈ (text.dropWhile isWhitespace).head?, isWhitespace c = false := by
  intro c hc
  have hnot := List.head?_dropWhile_not isWhitespace text
  rw [hc] at hnot
  simpa using hnot

theorem or_some {α : Type*} {c : α} {front back : Option α} (h : c ∈ front) :
    front.or back = some c := by
  rw [Option.mem_def.mp h, Option.some_or]

theorem tight_trim (text : List Char) : Tight (trim text) := by
  constructor
  · intro c hc
    obtain ⟨w, hw, hback⟩ := exists_dropWhile (text.dropWhile isWhitespace).reverse
    have hsplit := congrArg List.reverse hback
    rw [List.reverse_reverse, List.reverse_append] at hsplit
    apply front_dropWhile text c
    rw [hsplit, List.head?_append]
    exact or_some hc
  · intro c hc
    apply front_dropWhile (text.dropWhile isWhitespace).reverse c
    rw [trim, List.getLast?_reverse] at hc
    exact hc

end Text

namespace Quantity

open Text

/-- A quantity in a text: its digits, and its unit, which may be missing. -/
structure Written (text digits unit : List Char) : Prop where
  some_digits : digits ≠ []
  isDigits : Digits digits
  tight : Tight unit
  layout : ∃ w₁ w₂ w₃, Blank w₁ ∧ Blank w₂ ∧ Blank w₃ ∧ text = w₁ ++ digits ++ w₂ ++ unit ++ w₃ ∧
    ∀ c ∈ (w₂ ++ unit).head?, c.isDigit = false

/-- The digits in front of a trimmed text. -/
def number (text : List Char) : List Char := (trim text).takeWhile Char.isDigit

/-- What stands after the digits, trimmed. -/
def suffix (text : List Char) : List Char := trim ((trim text).dropWhile Char.isDigit)

def value (digits : List Char) : ℕ := Nat.ofDigitChars 10 digits 0

theorem takeWhile_digits {digits rest : List Char} (h : Digits digits)
    (hrest : ∀ c ∈ rest.head?, c.isDigit = false) :
    (digits ++ rest).takeWhile Char.isDigit = digits ∧
    (digits ++ rest).dropWhile Char.isDigit = rest := by
  rw [List.takeWhile_append_of_pos h, List.dropWhile_append_of_pos h]
  cases rest with
  | nil => simp
  | cons c rest =>
    have hc := hrest c rfl
    simp [hc]

theorem tight_digits {digits : List Char} (h : Digits digits) : Tight digits := by
  constructor
  · intro c hc
    exact not_whitespace_of_digit (h c (List.mem_of_mem_head? hc))
  · intro c hc
    exact not_whitespace_of_digit (h c (List.mem_of_getLast? hc))

theorem trim_written {text digits unit : List Char} (h : Written text digits unit) :
    ∃ rest, trim text = digits ++ rest ∧ trim rest = unit ∧ (unit = [] → rest = []) ∧
      ∀ c ∈ rest.head?, c.isDigit = false := by
  obtain ⟨w₁, w₂, w₃, h₁, h₂, h₃, rfl, hhead⟩ := h.layout
  rw [trim_append_blank _ h₃, List.append_assoc, List.append_assoc, trim_blank_append h₁]
  by_cases hunit : unit = []
  · subst hunit
    refine ⟨[], ?_, rfl, fun _ => rfl, by simp⟩
    rw [List.append_nil, List.append_nil, trim_append_blank _ h₂, trim_of_tight (tight_digits h.isDigits)]
  · refine ⟨w₂ ++ unit, ?_, ?_, fun h => absurd h hunit, hhead⟩
    · apply trim_of_tight
      constructor
      · intro c hc
        rw [List.head?_append_of_ne_nil _ h.some_digits] at hc
        exact (tight_digits h.isDigits).front c hc
      · intro c hc
        rw [← List.append_assoc, List.getLast?_append_of_ne_nil _ hunit] at hc
        exact h.tight.back c hc
    · rw [trim_blank_append h₂, trim_of_tight h.tight]

theorem digits_number (text : List Char) : Digits (number text) := by
  intro c hc
  exact List.mem_takeWhile_imp hc

theorem written_number {text : List Char} (h : number text ≠ []) :
    Written text (number text) (suffix text) := by
  have hsplit : trim text = number text ++ (trim text).dropWhile Char.isDigit :=
    List.takeWhile_append_dropWhile.symm
  obtain ⟨w₁, w₃, h₁, h₃, htext⟩ := exists_trim text
  obtain ⟨w₂, w, h₂, hw, hrest⟩ := exists_trim ((trim text).dropWhile Char.isDigit)
  change _ = w₂ ++ suffix text ++ w at hrest
  refine ⟨h, digits_number text, tight_trim _, w₁, w₂, w ++ w₃, h₁, h₂, ?_, ?_, ?_⟩
  · intro c hc
    rcases List.mem_append.mp hc with hc | hc
    · exact hw c hc
    · exact h₃ c hc
  · rw [hrest] at hsplit
    rw [hsplit] at htext
    simpa only [List.append_assoc] using htext
  · intro c hc
    have hnot := List.head?_dropWhile_not Char.isDigit (trim text)
    have hhead : ((trim text).dropWhile Char.isDigit).head? = some c := by
      rw [hrest, List.head?_append]
      exact or_some hc
    rw [hhead] at hnot
    simpa using hnot

/-- Taking the digits in front and trimming the rest reads exactly what is written. -/
theorem written_iff (text digits unit : List Char) :
    Written text digits unit ↔ digits ≠ [] ∧ number text = digits ∧ suffix text = unit := by
  constructor
  · intro h
    obtain ⟨rest, htext, hunit, -, hhead⟩ := trim_written h
    have hdigits := takeWhile_digits h.isDigits hhead
    rw [number, suffix, htext, hdigits.1, hdigits.2]
    exact ⟨h.some_digits, rfl, hunit⟩
  · intro hcase
    obtain ⟨hsome, rfl, rfl⟩ := hcase
    exact written_number hsome

/-- A text of nothing but digits has no unit. -/
theorem all_digits {text : List Char} (h : (trim text).all Char.isDigit = true) :
    number text = trim text ∧ suffix text = [] := by
  have hall : ∀ c ∈ trim text, c.isDigit = true := by
    simpa using h
  have hdrop : (trim text).dropWhile Char.isDigit = [] := List.dropWhile_eq_nil_iff.mpr hall
  rw [number, suffix, hdrop]
  exact ⟨List.takeWhile_eq_self_iff.mpr hall, rfl⟩

theorem suffix_ne_nil {text : List Char} (hsome : number text ≠ [])
    (h : (trim text).all Char.isDigit = false) : suffix text ≠ [] := by
  intro hsuffix
  obtain ⟨rest, htext, -, hrest, -⟩ := trim_written (written_number hsome)
  rw [hrest hsuffix, List.append_nil] at htext
  have hall : (trim text).all Char.isDigit = true := by
    rw [htext, List.all_eq_true]
    exact digits_number text
  rw [h] at hall
  exact absurd hall (by decide)

theorem exists_written {text : List Char} {P : List Char → List Char → Prop} :
    (∃ digits unit, Written text digits unit ∧ P digits unit) ↔
      number text ≠ [] ∧ P (number text) (suffix text) := by
  constructor
  · intro hcase
    obtain ⟨digits, unit, hwritten, hP⟩ := hcase
    obtain ⟨hsome, rfl, rfl⟩ := (written_iff text digits unit).mp hwritten
    exact ⟨hsome, hP⟩
  · intro hcase
    obtain ⟨hsome, hP⟩ := hcase
    exact ⟨_, _, written_number hsome, hP⟩

theorem parseUnsigned_digits {max : ℕ} {digits : List Char} (h : Digits digits) (hsome : digits ≠ []) :
    parseUnsigned max digits = if value digits ≤ max then some (value digits) else none := by
  have hplus : digits.head? ≠ some '+' := by
    intro hhead
    have hdigit := h _ (List.mem_of_mem_head? hhead)
    exact absurd hdigit (by decide)
  have hgood : ¬ (digits = [] ∨ ¬ digits.all Char.isDigit) := by
    rw [not_or, not_not, List.all_eq_true]
    exact ⟨hsome, h⟩
  simp only [parseUnsigned, if_neg hplus, if_neg hgood]
  rfl

theorem digits_toDigits (n : ℕ) : Digits (Nat.toDigits 10 n) := by
  intro c hc
  exact Nat.isDigit_of_mem_toDigits (by decide) (Nat.le_refl 10) hc

/-- A unit with a digit in front would be taken for a part of the number. -/
def plain (unit : List Char) : Bool :=
  unit.head?.all (fun c => !c.isDigit && !isWhitespace c) && unit.getLast?.all (!isWhitespace ·)

/-- A number printed before a plain unit. -/
theorem written_toDigits (n : ℕ) {unit : List Char} (h : plain unit = true) :
    Written (Nat.toDigits 10 n ++ unit) (Nat.toDigits 10 n) unit := by
  have hblank : Blank [] := by
    intro c hc
    simp at hc
  simp only [plain, Bool.and_eq_true, Option.all_eq_true, Bool.not_eq_true'] at h
  obtain ⟨hfront, hback⟩ := h
  have htight : Tight unit := ⟨fun c hc => (hfront c hc).2, hback⟩
  refine ⟨Nat.toDigits_ne_nil, digits_toDigits n, htight, [], [], [], hblank, hblank, hblank, ?_, ?_⟩
  · simp
  · intro c hc
    exact (hfront c hc).1

theorem value_toDigits (n : ℕ) : value (Nat.toDigits 10 n) = n := Nat.ofDigitChars_ten_toDigits

end Quantity
