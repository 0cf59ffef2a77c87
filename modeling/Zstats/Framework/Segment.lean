import Mathlib.Data.List.Basic
import Mathlib.Tactic.TypeStar

namespace Segment

variable {α : Type*} (f : ℕ → α) {a b : ℕ}

/-- The items numbered from `a` on and below `b`. -/
def segment (a b : ℕ) : List α := ((List.range b).drop a).map f

theorem segment_empty (h : b ≤ a) : segment f a b = [] := by
  have hlen : (List.range b).length ≤ a := by simpa using h
  rw [segment, List.drop_of_length_le hlen, List.map_nil]

@[simp] theorem length_segment (a b : ℕ) : (segment f a b).length = b - a := by
  simp [segment]

theorem drop_segment (a b k : ℕ) : (segment f a b).drop k = segment f (a + k) b := by
  simp [segment, List.drop_drop]

theorem segment_concat (h : a ≤ b) : segment f a (b + 1) = segment f a b ++ [f b] := by
  have hlen : a ≤ (List.range b).length := by simpa using h
  rw [segment, List.range_succ, List.drop_append_of_le_length hlen, List.map_append]
  rfl

theorem segment_cons (h : a < b) : segment f a b = f a :: segment f (a + 1) b := by
  have hlen : a < (List.range b).length := by simpa using h
  rw [segment, List.drop_eq_getElem_cons hlen, List.map_cons, List.getElem_range]
  rfl

variable {f} in
/-- What begins a segment and is not all of it is followed by an item of the segment. -/
theorem segment_eq_cons {x : α} {l : List α} (h : segment f a b = x :: l) :
    a < b ∧ x = f a ∧ l = segment f (a + 1) b := by
  have hlt : a < b := by
    by_contra hle
    rw [segment_empty f (Nat.not_lt.mp hle)] at h
    cases h
  rw [segment_cons f hlt] at h
  obtain ⟨hx, hl⟩ := List.cons.inj h
  exact ⟨hlt, hx.symm, hl.symm⟩

end Segment
