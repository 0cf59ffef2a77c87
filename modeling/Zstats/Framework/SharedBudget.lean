import Mathlib.Data.List.Sort

namespace SharedBudget

variable {α : Type*} (r s : α → α → Prop) [DecidableRel r] [DecidableRel s]

/-- What the second ranking adds to the `half` of the first. -/
def added (ranked : List α) (half rest : ℕ) : List α :=
  ((ranked.drop half).insertionSort s).take rest

/-- The items left out, in the order of the second ranking. -/
def leftOut (ranked : List α) (half rest : ℕ) : List α :=
  ((ranked.drop half).insertionSort s).drop rest

/-- The first half and what is added, in order; the whole list where it fits. -/
def select (l : List α) (max : ℕ) : List α :=
  let ranked := l.insertionSort r
  if max < ranked.length then
    (ranked.take (max / 2) ++ added s ranked (max / 2) (max - max / 2)).insertionSort r
  else ranked

variable {r s} {l : List α} {max : ℕ}

theorem length_added (ranked : List α) {half rest : ℕ} (h : half + rest ≤ ranked.length) :
    (added s ranked half rest).length = rest := by
  rw [added, List.length_take, List.length_insertionSort, List.length_drop]
  omega

theorem select_of_lt (h : max < l.length) :
    select r s l max =
      ((l.insertionSort r).take (max / 2) ++
        added s (l.insertionSort r) (max / 2) (max - max / 2)).insertionSort r := by
  rw [select, if_pos (by rwa [List.length_insertionSort])]

theorem select_of_le (h : l.length ≤ max) : select r s l max = l.insertionSort r := by
  rw [select, if_neg (by rw [List.length_insertionSort]; omega)]

theorem length_select : (select r s l max).length = min max l.length := by
  rcases Nat.lt_or_ge max l.length with h | h
  · rw [select_of_lt h, List.length_insertionSort, List.length_append, List.length_take,
      length_added _ (by rw [List.length_insertionSort]; omega), List.length_insertionSort]
    omega
  · rw [select_of_le h, List.length_insertionSort]
    omega

variable (s) in
/-- The first half, what is added to it and what is left out make up the list. -/
theorem parts_perm (ranked : List α) (half rest : ℕ) :
    (ranked.take half ++ added s ranked half rest ++
      leftOut s ranked half rest).Perm ranked := by
  rw [List.append_assoc, added, leftOut, List.take_append_drop]
  have hdrop := List.perm_insertionSort s (ranked.drop half)
  exact (hdrop.append_left (ranked.take half)).trans (by rw [List.take_append_drop])

/-- Some items are left out, the rest is selected. -/
theorem select_perm_append (l : List α) (max : ℕ) :
    ∃ out, (select r s l max ++ out).Perm l := by
  have hranked := List.perm_insertionSort r l
  rcases Nat.lt_or_ge max l.length with h | h
  · rw [select_of_lt h]
    refine ⟨leftOut s (l.insertionSort r) (max / 2) (max - max / 2), ?_⟩
    have hkept := List.perm_insertionSort r ((l.insertionSort r).take (max / 2) ++
      added s (l.insertionSort r) (max / 2) (max - max / 2))
    exact ((hkept.append_right _).trans (parts_perm s _ _ _)).trans hranked
  · rw [select_of_le h]
    exact ⟨[], by rw [List.append_nil]; exact hranked⟩

theorem mem_of_select {a : α} (h : a ∈ select r s l max) : a ∈ l := by
  obtain ⟨out, hperm⟩ := select_perm_append (r := r) (s := s) l max
  exact hperm.subset (List.mem_append_left out h)

theorem take_subset_select {a : α} (h : a ∈ (l.insertionSort r).take (max / 2)) :
    a ∈ select r s l max := by
  rcases Nat.lt_or_ge max l.length with hlt | hle
  · rw [select_of_lt hlt, List.mem_insertionSort]
    exact List.mem_append_left _ h
  · rw [select_of_le hle]
    exact List.mem_of_mem_take h

section Order

variable [Std.Total r] [IsTrans α r]

theorem pairwise_select : (select r s l max).Pairwise r := by
  rw [select]
  split
  · exact List.pairwise_insertionSort _ _
  · exact List.pairwise_insertionSort _ _

/-- A list in the first order has one arrangement only. -/
theorem insertionSort_perm (hanti : ∀ a b, r a b → r b a → a = b) {l l' : List α}
    (hperm : l.Perm l') : l.insertionSort r = l'.insertionSort r := by
  have hsorted := ((List.perm_insertionSort r l).trans hperm).trans (List.perm_insertionSort r l').symm
  exact hsorted.eq_of_pairwise (fun a b _ _ => hanti a b) (List.pairwise_insertionSort _ _)
    (List.pairwise_insertionSort _ _)

theorem select_perm (hanti : ∀ a b, r a b → r b a → a = b) {l l' : List α}
    (hperm : l.Perm l') (max : ℕ) : select r s l max = select r s l' max := by
  rw [select, select, insertionSort_perm hanti hperm]

end Order

/-- An item not selected is in the last of the three parts. -/
theorem mem_leftOut {a : α} (ha : a ∈ l) (hout : a ∉ select r s l max) :
    max < l.length ∧
      a ∈ leftOut s (l.insertionSort r) (max / 2) (max - max / 2) := by
  rcases Nat.lt_or_ge max l.length with hlt | hle
  · refine ⟨hlt, ?_⟩
    rw [select_of_lt hlt, List.mem_insertionSort] at hout
    have hall := ((parts_perm s (l.insertionSort r) (max / 2) (max - max / 2)).trans
      (List.perm_insertionSort r l)).mem_iff.mpr ha
    exact (List.mem_append.mp hall).resolve_left hout
  · rw [select_of_le hle, List.mem_insertionSort] at hout
    exact absurd ha hout

section Heavier

variable [Std.Total s] [IsTrans α s]

/-- What is added is at least as heavy as what is left out. -/
theorem added_heavier {ranked : List α} {half rest : ℕ} {a b : α}
    (ha : a ∈ added s ranked half rest)
    (hb : b ∈ leftOut s ranked half rest) : s a b := by
  have hsorted := List.pairwise_insertionSort s (ranked.drop half)
  rw [← List.take_append_drop rest ((ranked.drop half).insertionSort s)] at hsorted
  exact (List.pairwise_append.mp hsorted).2.2 a ha b hb

/-- A selected item that is not among the first is at least as heavy as one left out. -/
theorem select_heavier {a b : α} (ha : a ∈ select r s l max)
    (hfirst : a ∉ (l.insertionSort r).take (max / 2)) (hb : b ∈ l)
    (hout : b ∉ select r s l max) : s a b := by
  obtain ⟨hlt, hleft⟩ := mem_leftOut hb hout
  rw [select_of_lt hlt, List.mem_insertionSort] at ha
  exact added_heavier ((List.mem_append.mp ha).resolve_left hfirst) hleft

/-- For one left out, half of the budget and more went to items at least as heavy. -/
theorem heavier_count {b : α} (hb : b ∈ l) (hout : b ∉ select r s l max) :
    max - max / 2 ≤ ((select r s l max).filter fun a => decide (s a b)).length := by
  obtain ⟨hlt, hleft⟩ := mem_leftOut hb hout
  have hfits : max / 2 + (max - max / 2) ≤ (l.insertionSort r).length := by
    rw [List.length_insertionSort]
    omega
  have hcount := length_added (s := s) (l.insertionSort r) hfits
  have hall : (added s (l.insertionSort r) (max / 2) (max - max / 2)).filter
      (fun a => decide (s a b)) =
        added s (l.insertionSort r) (max / 2) (max - max / 2) := by
    apply List.filter_eq_self.mpr
    intro a ha
    exact decide_eq_true (added_heavier ha hleft)
  rw [select_of_lt hlt, ((List.perm_insertionSort r _).filter _).length_eq, List.filter_append,
    List.length_append, hall, hcount]
  exact Nat.le_add_left _ _

end Heavier

end SharedBudget
