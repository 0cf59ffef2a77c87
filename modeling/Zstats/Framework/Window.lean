import Mathlib.Algebra.Order.BigOperators.Group.List
import Mathlib.Algebra.Order.Field.Basic
import Mathlib.Data.List.TakeWhile
import Mathlib.Data.Nat.Cast.Order.Ring
import Mathlib.Tactic.Linarith

namespace Window

section Prune

variable {α : Type*} (stamp : α → ℕ)

/-- Drop from the front what is older than `width`. -/
def prune (width now : ℕ) (l : List α) : List α := l.dropWhile fun a => width < now - stamp a

variable {stamp} {width now later : ℕ}

/-- Pruning early changes nothing that a later pruning leaves. -/
theorem prune_prune_append (h : now ≤ later) (l m : List α) :
    prune stamp width later (prune stamp width now l ++ m) = prune stamp width later (l ++ m) := by
  induction l with
  | nil => rfl
  | cons a l ih =>
    by_cases ha : width < now - stamp a
    · have hl : width < later - stamp a := by omega
      simpa [prune, ha, hl] using ih
    · simp [prune, ha]

theorem prune_subset {l : List α} : prune stamp width now l ⊆ l :=
  List.dropWhile_subset _

theorem prune_ne_nil {l : List α} {a : α} (ha : a ∈ l) (hf : now - stamp a ≤ width) :
    prune stamp width now l ≠ [] := by
  intro hnil
  have := List.dropWhile_eq_nil_iff.mp hnil a ha
  simp only [decide_eq_true_eq] at this
  omega

variable {l : List α} (hs : l.Pairwise fun a b => stamp a ≤ stamp b)
include hs

/-- In a list in order of its stamps exactly the items of age at most `width` are kept. -/
theorem prune_eq_filter : prune stamp width now l = l.filter fun a => now - stamp a ≤ width := by
  induction l with
  | nil => rfl
  | cons a l ih =>
    obtain ⟨hfirst, hrest⟩ := List.pairwise_cons.mp hs
    by_cases ha : width < now - stamp a
    · have hn : ¬ decide (now - stamp a ≤ width) = true := by
        rw [decide_eq_true_eq]
        omega
      rw [List.filter_cons, if_neg hn, ← ih hrest]
      simp [prune, ha]
    · have hall : ∀ b ∈ a :: l, decide (now - stamp b ≤ width) = true := by
        intro b hb
        rw [decide_eq_true_eq]
        rcases List.mem_cons.mp hb with rfl | hb
        · omega
        · have := hfirst b hb
          omega
      rw [List.filter_eq_self.mpr hall]
      simp [prune, ha]

/-- The oldest item kept is as old as any other that is not too old. -/
theorem head_prune {b : α} (hb : (prune stamp width now l).head? = some b) :
    b ∈ l ∧ now - stamp b ≤ width ∧
      ∀ a ∈ l, now - stamp a ≤ width → now - stamp a ≤ now - stamp b := by
  rw [prune_eq_filter hs] at hb
  have hmem := List.mem_of_mem_head? (Option.mem_def.mpr hb)
  rw [List.mem_filter, decide_eq_true_eq] at hmem
  refine ⟨hmem.1, hmem.2, fun a ha hf => ?_⟩
  obtain ⟨r, hr⟩ := List.head?_eq_some_iff.mp hb
  have hsorted : (l.filter fun a => now - stamp a ≤ width).Pairwise
      fun a b => stamp a ≤ stamp b := hs.sublist List.filter_sublist
  have hin : a ∈ l.filter fun a => now - stamp a ≤ width :=
    List.mem_filter.mpr ⟨ha, by simpa using hf⟩
  rw [hr] at hsorted hin
  rcases List.mem_cons.mp hin with rfl | hin
  · exact le_rfl
  · have := (List.pairwise_cons.mp hsorted).1 a hin
    omega

end Prune

/-- Items stamped with every multiple of `d` up to the `n`-th: the span of a window of width `w`
is the largest multiple of `d` that fits both in it and in the time elapsed. -/
theorem regular_span {α : Type*} {stamp : α → ℕ} {l : List α} {d n w : ℕ} (hd : 0 < d)
    (hs : l.Pairwise fun a b => stamp a ≤ stamp b)
    (hall : ∀ a ∈ l, ∃ m ≤ n, stamp a = m * d) (hevery : ∀ m ≤ n, ∃ a ∈ l, stamp a = m * d)
    {b : α} (hb : (prune stamp w (n * d) l).head? = some b) :
    n * d - stamp b = min n (w / d) * d := by
  obtain ⟨hmem, hw, hmax⟩ := head_prune hs hb
  obtain ⟨m, hm, hstamp⟩ := hall b hmem
  obtain ⟨a, ha, hsa⟩ := hevery (n - min n (w / d)) (Nat.sub_le _ _)
  have hage : n * d - stamp a = min n (w / d) * d := by
    rw [hsa, ← Nat.sub_mul, Nat.sub_sub_self (min_le_left _ _)]
  have hfit : min n (w / d) * d ≤ w :=
    (Nat.mul_le_mul_right d (min_le_right _ _)).trans (Nat.div_mul_le_self w d)
  apply le_antisymm
  · rw [hstamp, ← Nat.sub_mul] at hw ⊢
    exact Nat.mul_le_mul_right d (le_min (Nat.sub_le _ _) ((Nat.le_div_iff_mul_le hd).mpr hw))
  · rw [← hage]
    exact hmax a ha (by omega)

section Mean

variable {K : Type*} [Field K] [LinearOrder K] [IsStrictOrderedRing K]

def mean (l : List K) : K := l.sum / l.length

theorem length_cast_pos {l : List K} (h : l ≠ []) : (0 : K) < l.length := by
  exact_mod_cast List.length_pos_iff.mpr h

theorem le_mean {l : List K} {a : K} (h : l ≠ []) (ha : ∀ x ∈ l, a ≤ x) : a ≤ mean l := by
  rw [mean, le_div_iff₀ (length_cast_pos h), mul_comm, ← nsmul_eq_mul]
  exact List.card_nsmul_le_sum l a ha

theorem sum_lt_of_forall_lt {l : List K} {a : K} (h : l ≠ []) (ha : ∀ x ∈ l, x < a) :
    l.sum < l.length * a := by
  induction l with
  | nil => exact absurd rfl h
  | cons x l ih =>
    have hx := ha x (by simp)
    by_cases hl : l = []
    · subst hl
      simpa using hx
    · have hrest := ih hl fun y hy => ha y (by simp [hy])
      simp only [List.sum_cons, List.length_cons]
      push_cast
      linarith

theorem mean_lt {l : List K} {a : K} (h : l ≠ []) (ha : ∀ x ∈ l, x < a) : mean l < a := by
  rw [mean, div_lt_iff₀ (length_cast_pos h), mul_comm]
  exact sum_lt_of_forall_lt h ha

end Mean

end Window
