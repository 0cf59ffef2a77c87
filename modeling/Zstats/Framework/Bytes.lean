import Mathlib.Data.List.Basic
import Mathlib.Tactic.Ring

namespace Bytes

/-- The order of the bytes of a number. -/
inductive Endian where
  | little
  | big
  deriving DecidableEq, Repr

/-- The number whose least significant byte comes first. -/
def ofLittle : List UInt8 → ℕ
  | [] => 0
  | b :: bytes => b.toNat + 256 * ofLittle bytes

/-- `width` bytes of a number, the least significant first. -/
def toLittle : ℕ → ℕ → List UInt8
  | 0, _ => []
  | width + 1, n => UInt8.ofNat n :: toLittle width (n / 256)

def decode (e : Endian) (bytes : List UInt8) : ℕ :=
  match e with
  | .little => ofLittle bytes
  | .big => ofLittle bytes.reverse

def encode (e : Endian) (width n : ℕ) : List UInt8 :=
  match e with
  | .little => toLittle width n
  | .big => (toLittle width n).reverse

@[simp] theorem length_toLittle (width n : ℕ) : (toLittle width n).length = width := by
  induction width generalizing n with
  | zero => rfl
  | succ width ih => simp [toLittle, ih]

@[simp] theorem length_encode (e : Endian) (width n : ℕ) : (encode e width n).length = width := by
  cases e <;> simp [encode]

theorem ofLittle_toLittle (width n : ℕ) : ofLittle (toLittle width n) = n % 256 ^ width := by
  induction width generalizing n with
  | zero => simp [toLittle, ofLittle, Nat.mod_one]
  | succ width ih =>
    have hbyte : (UInt8.ofNat n).toNat = n % 256 := by simp
    rw [toLittle, ofLittle, ih, hbyte, Nat.pow_succ, Nat.mul_comm (256 ^ width), Nat.mod_mul]

/-- A number that fits is read back. -/
theorem decode_encode (e : Endian) {width n : ℕ} (h : n < 256 ^ width) :
    decode e (encode e width n) = n := by
  cases e <;> simp [decode, encode, ofLittle_toLittle, Nat.mod_eq_of_lt h]

theorem toLittle_ofLittle (bytes : List UInt8) :
    toLittle bytes.length (ofLittle bytes) = bytes := by
  induction bytes with
  | nil => rfl
  | cons b bytes ih =>
    have hlt := b.toNat_lt
    have hbyte : UInt8.ofNat (b.toNat + 256 * ofLittle bytes) = b := by
      apply UInt8.toNat_inj.mp
      rw [UInt8.toNat_ofNat']
      omega
    have hrest : (b.toNat + 256 * ofLittle bytes) / 256 = ofLittle bytes := by omega
    rw [List.length_cons, ofLittle, toLittle, hbyte, hrest, ih]

theorem ofLittle_lt (bytes : List UInt8) : ofLittle bytes < 256 ^ bytes.length := by
  induction bytes with
  | nil => simp [ofLittle]
  | cons b bytes ih =>
    have hlt := b.toNat_lt
    rw [ofLittle, List.length_cons, Nat.pow_succ]
    omega

theorem decode_lt (e : Endian) (bytes : List UInt8) : decode e bytes < 256 ^ bytes.length := by
  cases e with
  | little => exact ofLittle_lt bytes
  | big =>
    have hlt := ofLittle_lt bytes.reverse
    rw [List.length_reverse] at hlt
    exact hlt

/-- A number is written back as the bytes it was read from. -/
theorem encode_decode (e : Endian) {width : ℕ} {bytes : List UInt8} (h : bytes.length = width) :
    encode e width (decode e bytes) = bytes := by
  subst h
  cases e with
  | little => exact toLittle_ofLittle bytes
  | big =>
    have hreverse := toLittle_ofLittle bytes.reverse
    rw [List.length_reverse] at hreverse
    rw [encode, decode, hreverse, List.reverse_reverse]

/-- The `len` bytes from `start` on, if there are as many. -/
def slice (buf : List UInt8) (start len : ℕ) : Option (List UInt8) :=
  if start + len ≤ buf.length then some ((buf.drop start).take len) else none

variable {a b : List UInt8} {start len : ℕ}

theorem slice_length {buf bytes : List UInt8} (h : slice buf start len = some bytes) :
    bytes.length = len ∧ start + len ≤ buf.length := by
  rw [slice] at h
  by_cases hle : start + len ≤ buf.length
  · rw [if_pos hle] at h
    cases h
    refine ⟨?_, hle⟩
    rw [List.length_take, List.length_drop]
    omega
  · rw [if_neg hle] at h
    cases h

/-- A slice behind the first part is one of the second. -/
theorem slice_skip (h : a.length ≤ start) :
    slice (a ++ b) start len = slice b (start - a.length) len := by
  unfold slice
  have hdrop : (a ++ b).drop start = b.drop (start - a.length) := by
    rw [List.drop_append, List.drop_of_length_le h, List.nil_append]
  have hbound : start + len ≤ (a ++ b).length ↔ start - a.length + len ≤ b.length := by
    rw [List.length_append]
    omega
  rw [hdrop]
  by_cases hle : start + len ≤ (a ++ b).length
  · rw [if_pos hle, if_pos (hbound.mp hle)]
  · rw [if_neg hle, if_neg (fun h => hle (hbound.mpr h))]

theorem slice_cons (x : UInt8) (h : 1 ≤ start) :
    slice (x :: b) start len = slice b (start - 1) len :=
  slice_skip (a := [x]) h

/-- A slice within the first part does not see the second. -/
theorem slice_within (h : start + len ≤ a.length) :
    slice (a ++ b) start len = slice a start len := by
  have hle : start + len ≤ (a ++ b).length := by
    rw [List.length_append]
    omega
  have hdrop : a.length - start ≥ len := by omega
  rw [slice, slice, if_pos hle, if_pos h, List.drop_append_of_le_length (by omega),
    List.take_append_of_le_length (by rw [List.length_drop]; exact hdrop)]

theorem slice_self (a : List UInt8) : slice a 0 a.length = some a := by
  simp [slice]

/-- The first part, whole. -/
theorem slice_here (h : a.length = len) : slice (a ++ b) 0 len = some a := by
  rw [slice_within (by omega), ← h, slice_self]

/-- A number of `width` bytes at `start`. -/
def read (e : Endian) (width : ℕ) (buf : List UInt8) (start : ℕ) : Option ℕ :=
  (slice buf start width).map (decode e)

variable {e : Endian} {width : ℕ}

theorem read_skip (h : a.length ≤ start) :
    read e width (a ++ b) start = read e width b (start - a.length) := by
  rw [read, slice_skip h, read]

/-- A number is read back where it has been written. -/
theorem read_encode {n : ℕ} (h : n < 256 ^ width) (b : List UInt8) :
    read e width (encode e width n ++ b) 0 = some n := by
  rw [read, slice_here (length_encode e width n), Option.map_some, decode_encode e h]

end Bytes
