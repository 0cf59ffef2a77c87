import Mathlib.Data.List.Basic
import Mathlib.Tactic.Ring

namespace Pieces

variable {α : Type*} (width : ℕ)

/-- The first `count` pieces, the piece `i` from the item `i * width` on. -/
def pieces (count : ℕ) (l : List α) : List (List α) :=
  (List.range count).map fun i => (l.drop (i * width)).take width

theorem pieces_succ (count : ℕ) (l : List α) :
    pieces width (count + 1) l = l.take width :: pieces width count (l.drop width) := by
  have hnext (i : ℕ) : width + i * width = (i + 1) * width := by ring
  simp [pieces, List.range_succ_eq_map, List.map_map, Function.comp_def, hnext]

variable {width}

/-- Pieces put together are cut apart again. -/
theorem pieces_flatten {parts : List (List α)} (h : ∀ part ∈ parts, part.length = width) :
    pieces width parts.length parts.flatten = parts := by
  induction parts with
  | nil => rfl
  | cons part parts ih =>
    have hpart := h part List.mem_cons_self
    have hparts := ih (fun p hp => h p (List.mem_cons_of_mem _ hp))
    rw [List.length_cons, pieces_succ, List.flatten_cons, List.take_left' hpart,
      List.drop_left' hpart, hparts]

theorem length_flatten {parts : List (List α)} (h : ∀ part ∈ parts, part.length = width) :
    parts.flatten.length = parts.length * width := by
  induction parts with
  | nil => simp
  | cons part parts ih =>
    have hpart := h part List.mem_cons_self
    have hparts := ih (fun p hp => h p (List.mem_cons_of_mem _ hp))
    rw [List.flatten_cons, List.length_append, hpart, hparts, List.length_cons, Nat.succ_mul,
      Nat.add_comm]

variable {count : ℕ} {l : List α}

theorem flatten_pieces (h : l.length = count * width) : (pieces width count l).flatten = l := by
  induction count generalizing l with
  | zero =>
    rw [Nat.zero_mul, List.length_eq_zero_iff] at h
    subst h
    rfl
  | succ count ih =>
    have hdrop : (l.drop width).length = count * width := by
      rw [List.length_drop, h, Nat.succ_mul, Nat.add_sub_cancel]
    rw [pieces_succ, List.flatten_cons, ih hdrop, List.take_append_drop]

theorem length_of_mem (h : l.length = count * width) :
    ∀ part ∈ pieces width count l, part.length = width := by
  intro part hpart
  obtain ⟨i, hi, rfl⟩ := List.mem_map.mp hpart
  have hlt : i + 1 ≤ count := List.mem_range.mp hi
  have hbound := Nat.mul_le_mul_right width hlt
  rw [Nat.succ_mul] at hbound
  rw [List.length_take, List.length_drop, h]
  omega

theorem length_pieces (width count : ℕ) (l : List α) : (pieces width count l).length = count := by
  simp [pieces]

end Pieces
