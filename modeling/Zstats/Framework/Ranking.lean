import Mathlib.Data.List.Basic
import Mathlib.Data.List.Nodup
import Mathlib.Tactic.TypeStar

namespace Ranking

variable {α : Type*} [DecidableEq α] {le : α → α → Bool}

/-- The items of `l` that come before `a`. -/
def ahead (le : α → α → Bool) (l : List α) (a : α) : List α := l.filter fun b => le b a && b != a

/-- Items that come before each other are the same. -/
def Antisymm (le : α → α → Bool) (l : List α) : Prop :=
  ∀ a ∈ l, ∀ b ∈ l, le a b = true → le b a = true → a = b

theorem ahead_cons_self {a : α} {l : List α} (hanti : Antisymm le (a :: l))
    (hsorted : (a :: l).Pairwise fun a b => le a b = true) : ahead le (a :: l) a = [] := by
  rw [ahead, List.filter_eq_nil_iff]
  intro b hb hahead
  simp only [Bool.and_eq_true, bne_iff_ne, ne_eq] at hahead
  obtain ⟨hle, hne⟩ := hahead
  rcases List.mem_cons.mp hb with heq | hmem
  · exact hne heq
  · exact hne (hanti b hb a List.mem_cons_self hle ((List.pairwise_cons.mp hsorted).1 b hmem))

theorem mem_take_iff {l : List α} (hanti : Antisymm le l)
    (hsorted : l.Pairwise fun a b => le a b = true) (hnodup : l.Nodup) (a : α) (k : ℕ) :
    a ∈ l.take k ↔ a ∈ l ∧ (ahead le l a).length < k := by
  induction l generalizing k with
  | nil => simp
  | cons c l ih =>
    obtain ⟨hfirst, hrest⟩ := List.pairwise_cons.mp hsorted
    obtain ⟨hnew, hnodup⟩ := List.nodup_cons.mp hnodup
    cases k with
    | zero => simp
    | succ k =>
      have hanti' : Antisymm le l := fun b hb d hd =>
        hanti b (List.mem_cons_of_mem c hb) d (List.mem_cons_of_mem c hd)
      rw [List.take_succ_cons, List.mem_cons, List.mem_cons, ih hanti' hrest hnodup]
      by_cases hac : a = c
      · subst hac
        simp [ahead_cons_self hanti hsorted]
      · have hcount : a ∈ l → (ahead le (c :: l) a).length = (ahead le l a).length + 1 := by
          intro ha
          rw [ahead, List.filter_cons_of_pos]
          · rfl
          · simp [hfirst a ha, Ne.symm hac]
        constructor
        · rintro (heq | ⟨ha, hlt⟩)
          · exact absurd heq hac
          · refine ⟨Or.inr ha, ?_⟩
            rw [hcount ha]
            omega
        · rintro ⟨heq | ha, hlt⟩
          · exact absurd heq hac
          · right
            rw [hcount ha] at hlt
            exact ⟨ha, by omega⟩

/-- The first `k` of a list once it is in order are the items that fewer than `k` others come
before. -/
theorem mem_take_sorted {l sorted : List α} (hperm : sorted.Perm l) (hanti : Antisymm le l)
    (hsorted : sorted.Pairwise fun a b => le a b = true) (hnodup : l.Nodup) (a : α) (k : ℕ) :
    a ∈ sorted.take k ↔ a ∈ l ∧ (ahead le l a).length < k := by
  have hanti' : Antisymm le sorted := fun a ha b hb =>
    hanti a (hperm.mem_iff.mp ha) b (hperm.mem_iff.mp hb)
  rw [mem_take_iff hanti' hsorted (hperm.nodup_iff.mpr hnodup), hperm.mem_iff, ahead,
    (hperm.filter _).length_eq]
  rfl

end Ranking
