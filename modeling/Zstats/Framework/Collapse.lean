import Mathlib.Data.Finset.Card
import Mathlib.Data.List.Destutter
import Mathlib.Data.List.Perm.Subperm
import Mathlib.Data.List.Sort
import Mathlib.SetTheory.Cardinal.Order

namespace Collapse

variable {α κ : Type*} [DecidableEq α] [LinearOrder κ] {key : α → κ} {l : List α}

/-- The order of the keys. Items of one key are of equal rank. -/
def KeyLe (key : α → κ) (a b : α) : Prop := key a ≤ key b

instance : DecidableRel (KeyLe key) := fun a b => inferInstanceAs (Decidable (key a ≤ key b))

instance : Std.Total (KeyLe key) := ⟨fun a b => le_total (key a) (key b)⟩

instance : IsTrans α (KeyLe key) := ⟨fun _ _ _ => le_trans⟩

/-- The list in the order of its keys, stably, and without the repeats that then lie next to each
other. -/
def collapse (key : α → κ) (l : List α) : List α :=
  (l.insertionSort (KeyLe key)).destutter (· ≠ ·)

/-- An item comes back after another one of its key. -/
def Returns (key : α → κ) (l : List α) : Prop :=
  ∃ a b, List.Sublist [a, b, a] l ∧ key a = key b ∧ a ≠ b

theorem mem_destutter' (a b : α) (l : List α) :
    b ∈ l.destutter' (· ≠ ·) a ↔ b ∈ a :: l := by
  induction l generalizing a with
  | nil => rfl
  | cons c l ih =>
    by_cases hac : a = c
    · subst hac
      rw [List.destutter'_cons_neg l (by simp), ih]
      simp
    · rw [List.destutter'_cons_pos l hac, List.mem_cons, List.mem_cons, ih]

theorem mem_destutter (b : α) : b ∈ l.destutter (· ≠ ·) ↔ b ∈ l := by
  cases l with
  | nil => rfl
  | cons a l => exact mem_destutter' a b l

theorem nodup_destutter' (a : α) (l : List α) :
    (l.destutter' (· ≠ ·) a).Nodup ↔ ∀ b c, List.Sublist [b, c, b] (a :: l) → b = c := by
  induction l generalizing a with
  | nil =>
    constructor
    · intro _ b c h
      have hlen := h.length_le
      simp at hlen
    · intro _
      simp
  | cons d l ih =>
    by_cases had : a = d
    · subst had
      rw [List.destutter'_cons_neg l (by simp), ih]
      constructor
      · intro h b c hbc
        cases hbc with
        | cons _ hbc => exact h b c hbc
        | cons_cons _ hcb =>
          cases hcb with
          | cons _ hcb => exact h a c (hcb.cons_cons a)
          | cons_cons _ _ => rfl
      · intro h b c hbc
        exact h b c (hbc.cons a)
    · rw [List.destutter'_cons_pos l had, List.nodup_cons, ih, mem_destutter']
      constructor
      · intro ⟨hnew, h⟩ b c hbc
        cases hbc with
        | cons _ hbc => exact h b c hbc
        | cons_cons _ hca =>
          have hmem : a ∈ d :: l := hca.subset (by simp)
          exact absurd hmem hnew
      · intro h
        constructor
        · intro hmem
          rcases List.mem_cons.mp hmem with heq | hmem
          · exact had heq
          · have hback : List.Sublist [a, d, a] (a :: d :: l) :=
              ((List.singleton_sublist.mpr hmem).cons_cons d).cons_cons a
            exact had (h a d hback)
        · intro b c hbc
          exact h b c (hbc.cons a)

theorem nodup_destutter :
    (l.destutter (· ≠ ·)).Nodup ↔ ∀ b c, List.Sublist [b, c, b] l → b = c := by
  cases l with
  | nil => simp
  | cons a l => exact nodup_destutter' a l

omit [DecidableEq α] in
/-- Items of one key stay in the order they came in. -/
theorem filter_insertionSort (k : κ) :
    (l.insertionSort (KeyLe key)).filter (key · = k) = l.filter (key · = k) := by
  have hlevel : (l.filter (key · = k)).Pairwise (KeyLe key) := by
    apply List.pairwise_of_forall_mem_list
    intro a ha b hb
    have hka : key a = k := by simpa using (List.mem_filter.mp ha).2
    have hkb : key b = k := by simpa using (List.mem_filter.mp hb).2
    exact (hka.trans hkb.symm).le
  have hsub : List.Sublist (l.filter (key · = k)) (l.insertionSort (KeyLe key)) :=
    List.sublist_insertionSort hlevel List.filter_sublist
  have hsub' := hsub.filter (key · = k)
  rw [List.filter_filter] at hsub'
  simp only [Bool.and_self] at hsub'
  have hlen := ((List.perm_insertionSort (KeyLe key) l).filter (key · = k)).length_eq
  exact (hsub'.eq_of_length hlen.symm).symm

omit [DecidableEq α] in
theorem triple_insertionSort {a b : α} (hab : key a = key b) :
    List.Sublist [a, b, a] (l.insertionSort (KeyLe key)) ↔ List.Sublist [a, b, a] l := by
  have hclass (m : List α) :
      List.Sublist [a, b, a] m ↔ List.Sublist [a, b, a] (m.filter (key · = key a)) := by
    constructor
    · intro h
      have hfilter := h.filter (key · = key a)
      simpa [hab] using hfilter
    · intro h
      exact h.trans List.filter_sublist
  rw [hclass, filter_insertionSort, ← hclass]

theorem mem_collapse (a : α) : a ∈ collapse key l ↔ a ∈ l := by
  rw [collapse, mem_destutter, List.mem_insertionSort]

theorem pairwise_collapse (key : α → κ) (l : List α) : (collapse key l).Pairwise (KeyLe key) :=
  (List.pairwise_insertionSort (KeyLe key) l).sublist (List.destutter_sublist _ _)

/-- No repeat is left if and only if nothing came back after another of its key. -/
theorem nodup_collapse_iff : (collapse key l).Nodup ↔ ¬ Returns key l := by
  rw [collapse, nodup_destutter]
  constructor
  · intro h hreturns
    obtain ⟨a, b, haba, hkey, hne⟩ := hreturns
    exact hne (h a b ((triple_insertionSort hkey).mpr haba))
  · intro h a b haba
    by_contra hne
    have hsorted := (List.pairwise_insertionSort (KeyLe key) l).sublist haba
    have hkey : key a = key b := by
      obtain ⟨hfirst, hrest⟩ := List.pairwise_cons.mp hsorted
      have hle : key a ≤ key b := hfirst b (by simp)
      have hge : key b ≤ key a := (List.pairwise_cons.mp hrest).1 a (by simp)
      exact le_antisymm hle hge
    exact h ⟨a, b, (triple_insertionSort hkey).mp haba, hkey, hne⟩

theorem length_collapse_iff :
    (collapse key l).length = l.toFinset.card ↔ ¬ Returns key l := by
  have hfinset : (collapse key l).toFinset = l.toFinset := by
    ext a
    rw [List.mem_toFinset, List.mem_toFinset, mem_collapse]
  rw [← nodup_collapse_iff, ← hfinset]
  constructor
  · intro h
    rw [List.card_toFinset] at h
    rw [← List.dedup_eq_self]
    exact (List.dedup_sublist _).eq_of_length h.symm
  · intro h
    exact (List.toFinset_card_of_nodup h).symm

omit [DecidableEq α] [LinearOrder κ] in
/-- Some order has nothing come back. -/
theorem exists_perm_not_returns {γ : Type*} (f : γ → α) (m : List γ) :
    ∃ m' : List γ, m'.Perm m ∧ ¬ Returns key (m'.map f) := by
  obtain ⟨order, _⟩ := exists_wellFoundedLT α
  refine ⟨m.insertionSort (KeyLe f), List.perm_insertionSort _ m, ?_⟩
  intro hreturns
  obtain ⟨a, b, haba, _, hne⟩ := hreturns
  have hsorted : ((m.insertionSort (KeyLe f)).map f).Pairwise (· ≤ ·) := by
    rw [List.pairwise_map]
    exact List.pairwise_insertionSort (KeyLe f) m
  obtain ⟨hfirst, hrest⟩ := List.pairwise_cons.mp (hsorted.sublist haba)
  have hle : a ≤ b := hfirst b (by simp)
  have hge : b ≤ a := (List.pairwise_cons.mp hrest).1 a (by simp)
  exact hne (le_antisymm hle hge)

/-- The number left is the same for every order if and only if in no order anything comes back. -/
theorem length_collapse_perm_iff {γ : Type*} (f : γ → α) (m : List γ) :
    (∀ m' : List γ, m'.Perm m →
        (collapse key (m'.map f)).length = (collapse key (m.map f)).length) ↔
      ∀ m' : List γ, m'.Perm m → ¬ Returns key (m'.map f) := by
  have hcard (m' : List γ) (h : m'.Perm m) : (m'.map f).toFinset = (m.map f).toFinset :=
    List.toFinset_eq_of_perm _ _ (h.map f)
  constructor
  · intro h m' hm'
    have hexists : ∃ good : List γ, good.Perm m ∧ ¬ Returns key (good.map f) :=
      exists_perm_not_returns f m
    obtain ⟨good, hperm, hgood⟩ := hexists
    rw [← length_collapse_iff] at hgood ⊢
    rw [h m' hm', ← h good hperm, hgood, hcard good hperm, hcard m' hm']
  · intro h m' hm'
    have hleft := length_collapse_iff.mpr (h m' hm')
    have hright := length_collapse_iff.mpr (h m (List.Perm.refl m))
    rw [hleft, hright, hcard m' hm']

end Collapse
