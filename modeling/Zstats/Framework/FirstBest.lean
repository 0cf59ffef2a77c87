import Mathlib.Data.List.Induction
import Mathlib.Data.List.Perm.Basic
import Mathlib.Order.Lattice
import Mathlib.Tactic.TypeStar

namespace FirstBest

variable {α : Type*}

/-- The best of those wanted: a later item has to be strictly better than the one held. -/
def scan (better : α → α → Bool) (wanted : α → Bool) (l : List α) : Option α :=
  l.foldl (fun best a => if wanted a && best.all (fun b => better a b) then some a else best) none

variable {better : α → α → Bool} {wanted : α → Bool}

theorem scan_concat (l : List α) (a : α) :
    scan better wanted (l ++ [a]) =
      if wanted a && (scan better wanted l).all (fun b => better a b) then some a
      else scan better wanted l := by
  rw [scan, List.foldl_append]
  rfl

/-- Wanted, in the list, and beaten by nothing wanted in it. -/
def Unbeaten (better : α → α → Bool) (wanted : α → Bool) (l : List α) (a : α) : Prop :=
  a ∈ l ∧ wanted a = true ∧ ∀ b ∈ l, wanted b = true → better b a = false

theorem Unbeaten.perm {l l' : List α} (hperm : l.Perm l') {a : α}
    (h : Unbeaten better wanted l a) : Unbeaten better wanted l' a := by
  obtain ⟨ha, hw, hb⟩ := h
  exact ⟨hperm.mem_iff.mp ha, hw, fun b hmem => hb b (hperm.mem_iff.mpr hmem)⟩

theorem scan_eq_none (l : List α) :
    scan better wanted l = none ↔ ∀ a ∈ l, wanted a = false := by
  induction l using List.reverseRecOn with
  | nil => simp [scan]
  | append_singleton l a ih =>
    rw [scan_concat]
    constructor
    · intro h
      split_ifs at h with hc
      rw [h] at hc
      have ha : wanted a = false := by simpa using hc
      intro b hb
      rcases List.mem_append.mp hb with hl | hone
      · exact ih.mp h b hl
      · rw [List.mem_singleton.mp hone]
        exact ha
    · intro h
      have ha : wanted a = false := h a (by simp)
      rw [ha, Bool.false_and, if_neg (by simp)]
      exact ih.mpr fun b hb => h b (by simp [hb])

/-- What the scan holds at the end is unbeaten, where being better is a strict order. -/
theorem scan_unbeaten (irrefl : ∀ a, better a a = false)
    (trans : ∀ a b c, better a b = true → better b c = true → better a c = true)
    (l : List α) (a : α) (h : scan better wanted l = some a) :
    Unbeaten better wanted l a := by
  induction l using List.reverseRecOn generalizing a with
  | nil => simp [scan] at h
  | append_singleton l c ih =>
    rw [scan_concat] at h
    split_ifs at h with hc
    · obtain rfl : c = a := by simpa using h
      obtain ⟨hw, hbest⟩ := Bool.and_eq_true_iff.mp hc
      refine ⟨by simp, hw, fun b hb hwb => ?_⟩
      rcases List.mem_append.mp hb with hl | hone
      · -- an item of `l` that beat `c` would beat what `c` beats
        cases hs : scan better wanted l with
        | none =>
          have hno := (scan_eq_none l).mp hs b hl
          rw [hwb] at hno
          exact absurd hno (by simp)
        | some d =>
          rw [hs] at hbest
          have hcd : better c d = true := by simpa using hbest
          obtain ⟨hd, hwd, hun⟩ := ih d hs
          by_contra hbc
          have hbd := trans b c d (by simpa using hbc) hcd
          rw [hun b hl hwb] at hbd
          exact absurd hbd (by simp)
      · rw [List.mem_singleton.mp hone]
        exact irrefl c
    · obtain ⟨ha, hw, hun⟩ := ih a h
      refine ⟨by simp [ha], hw, fun b hb hwb => ?_⟩
      rcases List.mem_append.mp hb with hl | hone
      · exact hun b hl hwb
      · rw [List.mem_singleton.mp hone] at hwb ⊢
        simpa [hwb, h] using hc

/-- The order of the list decides only among the unbeaten: where they all have one value, so
has the scan of any rearrangement. -/
theorem scan_perm {β : Type*} (irrefl : ∀ a, better a a = false)
    (trans : ∀ a b c, better a b = true → better b c = true → better a c = true)
    (f : α → β) {l l' : List α} (hperm : l.Perm l')
    (hone : ∀ a b, Unbeaten better wanted l a → Unbeaten better wanted l b → f a = f b) :
    (scan better wanted l).map f = (scan better wanted l').map f := by
  cases hs : scan better wanted l with
  | none =>
    have hnone : scan better wanted l' = none :=
      (scan_eq_none l').mpr fun a ha => (scan_eq_none l).mp hs a (hperm.mem_iff.mpr ha)
    rw [hnone]
  | some a =>
    cases hs' : scan better wanted l' with
    | none =>
      obtain ⟨ha, hw, -⟩ := scan_unbeaten irrefl trans l a hs
      have hno := (scan_eq_none l').mp hs' a (hperm.mem_iff.mp ha)
      rw [hw] at hno
      exact absurd hno (by simp)
    | some b =>
      have ha := scan_unbeaten irrefl trans l a hs
      have hb := (scan_unbeaten irrefl trans l' b hs').perm hperm.symm
      simp [hone a b ha hb]

section Measure

variable {β : Type*} [LinearOrder β] (f : α → β)

/-- Better where its measure is smaller. -/
def smaller (a b : α) : Bool := decide (f a < f b)

/-- The first of the wanted items whose measure is the smallest. -/
def First (wanted : α → Bool) (l : List α) (a : α) : Prop :=
  wanted a = true ∧ ∃ before after, l = before ++ a :: after ∧
    (∀ b ∈ before, wanted b = true → f a < f b) ∧ ∀ b ∈ after, wanted b = true → f a ≤ f b

variable {f}

theorem First.mem {l : List α} {a : α} (h : First f wanted l a) : a ∈ l := by
  obtain ⟨-, before, after, rfl, -, -⟩ := h
  simp

theorem First.le {l : List α} {a b : α} (h : First f wanted l a) (hb : b ∈ l)
    (hw : wanted b = true) : f a ≤ f b := by
  obtain ⟨-, before, after, rfl, hbefore, hafter⟩ := h
  rcases List.mem_append.mp hb with hl | hr
  · exact (hbefore b hl hw).le
  · rcases List.mem_cons.mp hr with rfl | hr
    · exact le_rfl
    · exact hafter b hr hw

theorem first_of_scan (l : List α) (a : α) (h : scan (smaller f) wanted l = some a) :
    First f wanted l a := by
  induction l using List.reverseRecOn generalizing a with
  | nil => simp [scan] at h
  | append_singleton l c ih =>
    rw [scan_concat] at h
    split_ifs at h with hc
    · obtain rfl : c = a := by simpa using h
      obtain ⟨hw, hbest⟩ := Bool.and_eq_true_iff.mp hc
      refine ⟨hw, l, [], rfl, ?_, by simp⟩
      intro b hb hwb
      cases hs : scan (smaller f) wanted l with
      | none =>
        have hno := (scan_eq_none l).mp hs b hb
        rw [hwb] at hno
        exact absurd hno (by decide)
      | some d =>
        rw [hs] at hbest
        have hcd : f c < f d := by simpa [smaller] using hbest
        exact hcd.trans_le ((ih d hs).le hb hwb)
    · obtain ⟨hw, before, after, rfl, hbefore, hafter⟩ := ih a h
      refine ⟨hw, before, after ++ [c], by simp, hbefore, ?_⟩
      intro b hb hwb
      rcases List.mem_append.mp hb with hl | hone
      · exact hafter b hl hwb
      · rw [List.mem_singleton.mp hone] at hwb ⊢
        simpa [hwb, h, smaller] using hc

/-- Of two items both first, one would stand before the other. -/
theorem First.unique {l : List α} {a a' : α} (h : First f wanted l a) (h' : First f wanted l a') :
    a = a' := by
  have hle := h.le h'.mem h'.1
  have hle' := h'.le h.mem h.1
  obtain ⟨hw, before, after, hl, hbefore, -⟩ := h
  obtain ⟨hw', before', after', hl', hbefore', -⟩ := h'
  rw [hl] at hl'
  rcases List.append_eq_append_iff.mp hl' with ⟨mid, hmid, hrest⟩ | ⟨mid, hmid, hrest⟩
  · cases mid with
    | nil => simpa using congrArg List.head? hrest
    | cons c mid =>
      have hc : a = c := by simpa using congrArg List.head? hrest
      have hmem : a ∈ before' := by rw [hmid, hc]; simp
      exact absurd (hbefore' a hmem hw) hle.not_gt
  · cases mid with
    | nil => simpa using (congrArg List.head? hrest).symm
    | cons c mid =>
      have hc : a' = c := by simpa using congrArg List.head? hrest
      have hmem : a' ∈ before := by rw [hmid, hc]; simp
      exact absurd (hbefore a' hmem hw') hle'.not_gt

theorem scan_eq_some (l : List α) (a : α) :
    scan (smaller f) wanted l = some a ↔ First f wanted l a := by
  constructor
  · exact first_of_scan l a
  · intro h
    cases hs : scan (smaller f) wanted l with
    | none =>
      have hno := (scan_eq_none l).mp hs a h.mem
      rw [h.1] at hno
      exact absurd hno (by decide)
    | some b => rw [(first_of_scan l b hs).unique h]

end Measure

end FirstBest
