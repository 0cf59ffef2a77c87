import Mathlib.Algebra.BigOperators.Group.Finset.Basic
import Mathlib.Algebra.Order.BigOperators.Group.Finset
import Mathlib.Data.Int.ConditionallyCompleteOrder
import Mathlib.Data.Int.Interval
import Mathlib.Data.List.TakeWhile
import Mathlib.Tactic.Linarith
import Zstats.Daemon.Serve

namespace Zstats.HistoryBuffer

variable {retentionSecs : ℤ}

/-- The history after these snapshots have been pushed. -/
def after (retentionSecs : ℤ) (pushed : List SystemSnapshot) : List SystemSnapshot :=
  pushed.foldl (push retentionSecs) []

/-- In whole seconds, the snapshot is further than the retention before `newest`. -/
def TooOld (retentionSecs : ℤ) (newest s : SystemSnapshot) : Prop :=
  retentionSecs < newest.second - s.second

instance (retentionSecs : ℤ) (newest s : SystemSnapshot) :
    Decidable (TooOld retentionSecs newest s) := inferInstanceAs (Decidable (_ < _))

/-- What is pushed stays, behind what is left from the first snapshot on that is young enough. -/
theorem push_eq (queue : List SystemSnapshot) (newest : SystemSnapshot) :
    push retentionSecs queue newest =
      queue.dropWhile (fun s => TooOld retentionSecs newest s) ++ [newest] := by
  rw [push]
  induction queue with
  | nil => rfl
  | cons front queue ih =>
    have hprune : ∀ rest, prune retentionSecs (front :: (rest ++ [newest])) =
        if TooOld retentionSecs newest front then prune retentionSecs (rest ++ [newest])
        else front :: (rest ++ [newest]) := by
      intro rest
      cases rest with
      | nil => rfl
      | cons next rest =>
        rw [List.cons_append, prune]
        have hback : (next :: (rest ++ [newest])).getLast (List.cons_ne_nil _ _) = newest := by simp
        simp only [hback]
        rfl
    rw [List.cons_append, hprune]
    by_cases hold : TooOld retentionSecs newest front
    · rw [if_pos hold, ih, List.dropWhile_cons_of_pos (by simpa using hold)]
    · rw [if_neg hold, List.dropWhile_cons_of_neg (by simpa using hold), List.cons_append]

theorem after_concat (pushed : List SystemSnapshot) (newest : SystemSnapshot) :
    after retentionSecs (pushed ++ [newest]) =
      push retentionSecs (after retentionSecs pushed) newest :=
  List.foldl_concat ..

/-- The history is a contiguous range of what was pushed, up to the newest. -/
theorem after_suffix (pushed : List SystemSnapshot) : after retentionSecs pushed <:+ pushed := by
  induction pushed using List.reverseRecOn with
  | nil => exact List.suffix_rfl
  | append_singleton pushed newest ih =>
    rw [after_concat, push_eq]
    obtain ⟨before, hbefore⟩ := (List.dropWhile_suffix _).trans ih
    exact ⟨before, by rw [← List.append_assoc, hbefore]⟩

/-- No snapshot of the history is further than the retention from `newest`, on either side. -/
def WithinRetention (retentionSecs : ℤ) (newest : SystemSnapshot)
    (queue : List SystemSnapshot) : Prop :=
  ∀ s ∈ queue, |newest.timestamp - s.timestamp| ≤ retentionSecs * 1000000000

instance (retentionSecs : ℤ) (newest : SystemSnapshot) (queue : List SystemSnapshot) :
    Decidable (WithinRetention retentionSecs newest queue) :=
  inferInstanceAs (Decidable (∀ s ∈ queue, _))

/-- A later snapshot is further than the retention behind snapshot `i`. -/
def Passed (retentionSecs : ℤ) (pushed : List SystemSnapshot) (i : ℕ) : Prop :=
  ∃ m s newer, i < m ∧ pushed[i]? = some s ∧ pushed[m]? = some newer ∧
    TooOld retentionSecs newer s

/-- Whatever was pushed up to snapshot `i` is passed by a later one. -/
def AgedOut (retentionSecs : ℤ) (pushed : List SystemSnapshot) (i : ℕ) : Prop :=
  ∀ j ≤ i, Passed retentionSecs pushed j

/-- At every push, what is stamped more than the retention away from the newest, to the fraction of
a second and on either side, has aged out. -/
def StampsAgree (retentionSecs : ℤ) (pushed : List SystemSnapshot) : Prop :=
  ∀ before newest, before ++ [newest] <+: pushed →
    0 ≤ retentionSecs ∧ ∀ i s, before[i]? = some s →
      |newest.timestamp - s.timestamp| ≤ retentionSecs * 1000000000 ∨
        AgedOut retentionSecs (before ++ [newest]) i

variable {before pushed : List SystemSnapshot} {newest : SystemSnapshot}

theorem getElem?_of_prefix {i : ℕ} {s : SystemSnapshot} (hpre : before <+: pushed)
    (h : before[i]? = some s) : pushed[i]? = some s := by
  obtain ⟨behind, rfl⟩ := hpre
  rw [List.getElem?_append_left (List.getElem?_eq_some_iff.mp h).1, h]

theorem Passed.mono {i : ℕ} (hpre : before <+: pushed) (h : Passed retentionSecs before i) :
    Passed retentionSecs pushed i := by
  obtain ⟨m, s, newer, hm, hs, hnewer, hold⟩ := h
  exact ⟨m, s, newer, hm, getElem?_of_prefix hpre hs, getElem?_of_prefix hpre hnewer, hold⟩

theorem timestamp_of_tooOld {newest s : SystemSnapshot} (hnonneg : 0 ≤ retentionSecs)
    (h : TooOld retentionSecs newest s) :
    retentionSecs * 1000000000 < newest.timestamp - s.timestamp := by
  rw [TooOld, SystemSnapshot.second, SystemSnapshot.second, Int.tdiv_eq_ediv, Int.tdiv_eq_ediv,
    show (1000000000 : ℤ).sign = 1 from rfl] at h
  split_ifs at h <;> omega

variable (retentionSecs) in
/-- A push drops more of the front, as far as it is too old. -/
theorem push_drop (before : List SystemSnapshot) (newest : SystemSnapshot) {k : ℕ}
    (hk : k ≤ before.length) : ∃ k' ≤ before.length, k ≤ k' ∧
      push retentionSecs (before.drop k) newest = before.drop k' ++ [newest] ∧
      (∀ j s, k ≤ j → j < k' → before[j]? = some s → TooOld retentionSecs newest s) ∧
      ∀ s, before[k']? = some s → ¬ TooOld retentionSecs newest s := by
  let young := fun s => !decide (TooOld retentionSecs newest s)
  refine ⟨k + (before.drop k).findIdx young, ?_, by omega, ?_, ?_, ?_⟩
  · have hle : (before.drop k).findIdx young ≤ (before.drop k).length := List.findIdx_le_length
    rw [List.length_drop] at hle
    omega
  · rw [push_eq, List.dropWhile_eq_drop_findIdx_not, List.drop_drop]
  · intro j s hkj hj hs
    have hat : (before.drop k)[j - k]? = some s := by
      rw [List.getElem?_drop, Nat.add_sub_cancel' hkj, hs]
    obtain ⟨hlt, hget⟩ := List.getElem?_eq_some_iff.mp hat
    have hnot := List.not_of_lt_findIdx (show j - k < (before.drop k).findIdx young by omega)
    rw [hget] at hnot
    simpa [young] using hnot
  · intro s hs
    rw [← List.getElem?_drop] at hs
    obtain ⟨hlt, hget⟩ := List.getElem?_eq_some_iff.mp hs
    have hyoung := List.findIdx_getElem (p := young) (w := hlt)
    rw [hget] at hyoung
    simpa [young] using hyoung

variable (retentionSecs) in
/-- The history is what is left of the pushed ones from some `k` on, and those before are passed. -/
theorem after_drop (pushed : List SystemSnapshot) : ∃ k ≤ pushed.length,
    after retentionSecs pushed = pushed.drop k ∧ ∀ j < k, Passed retentionSecs pushed j := by
  induction pushed using List.reverseRecOn with
  | nil => exact ⟨0, le_rfl, rfl, by simp⟩
  | append_singleton before newest ih =>
    obtain ⟨k, hk, hafter, hpassed⟩ := ih
    obtain ⟨k', hk', hkk', hpush, hold, -⟩ :=
      push_drop retentionSecs before newest hk
    refine ⟨k', by simp; omega, ?_, ?_⟩
    · rw [after_concat, hafter, hpush, List.drop_append_of_le_length hk']
    · intro j hj
      by_cases hjk : j < k
      · exact (hpassed j hjk).mono (List.prefix_append ..)
      · have hlt : j < before.length := by omega
        have hget : before[j]? = some before[j] := List.getElem?_eq_getElem hlt
        exact ⟨before.length, before[j], newest, hlt,
          getElem?_of_prefix (List.prefix_append ..) hget, List.getElem?_concat_length,
          hold j before[j] (by omega) hj hget⟩

/-- As long as the stamps agree, what is left has not been passed at its front. -/
theorem after_front (h : StampsAgree retentionSecs pushed) (hpre : before <+: pushed) :
    ∃ k ≤ before.length, after retentionSecs before = before.drop k ∧
      ¬ Passed retentionSecs before k := by
  induction before using List.reverseRecOn with
  | nil => exact ⟨0, le_rfl, rfl, by rintro ⟨m, s, newer, -, hs, -⟩; simp at hs⟩
  | append_singleton before newest ih =>
    obtain ⟨k, hk, hafter, hfront⟩ := ih ((List.prefix_append ..).trans hpre)
    obtain ⟨k', hk', hkk', hpush, -, hyoung⟩ :=
      push_drop retentionSecs before newest hk
    refine ⟨k', by simp; omega, ?_, ?_⟩
    · rw [after_concat, hafter, hpush, List.drop_append_of_le_length hk']
    · rintro ⟨m, s, newer, hm, hs, hnewer, hold⟩
      have hmlen := (List.getElem?_eq_some_iff.mp hnewer).1
      rw [List.length_append, List.length_singleton] at hmlen
      rw [List.getElem?_append_left (by omega)] at hs
      rcases (show m < before.length ∨ m = before.length by omega) with hlt | rfl
      · -- it was passed already at push `m`, where the stamps make all that is older passed
        rw [List.getElem?_append_left hlt] at hnewer
        have htake : before.take m ++ [newer] <+: before := by
          rw [← (List.getElem?_eq_some_iff.mp hnewer).2, List.take_append_getElem]
          exact List.take_prefix ..
        obtain ⟨hnonneg, hnear⟩ := h (before.take m) newer
          (htake.trans ((List.prefix_append ..).trans hpre))
        rcases hnear k' s (by rw [List.getElem?_take_of_lt hm, hs]) with hwithin | haged
        · have hfar := timestamp_of_tooOld hnonneg hold
          have hle := (abs_le.mp hwithin).2
          omega
        · exact hfront ((haged k hkk').mono htake)
      · rw [List.getElem?_concat_length, Option.some.injEq] at hnewer
        exact hyoung s hs (hnewer ▸ hold)

theorem stampsAgree_of_within (h : ∀ before newest, before ++ [newest] <+: pushed →
    WithinRetention retentionSecs newest (after retentionSecs (before ++ [newest]))) :
    StampsAgree retentionSecs pushed := by
  intro before newest hpre
  have hwithin := h before newest hpre
  constructor
  · have hself := hwithin newest (by simp [after_concat, push_eq])
    rw [sub_self, abs_zero] at hself
    omega
  · intro i s hs
    obtain ⟨k, -, hafter, hpassed⟩ := after_drop retentionSecs (before ++ [newest])
    rcases Nat.lt_or_ge i k with hik | hki
    · exact .inr fun j hj => hpassed j (by omega)
    · rw [hafter] at hwithin
      have hkept : ((before ++ [newest]).drop k)[i - k]? = some s := by
        rw [List.getElem?_drop, Nat.add_sub_cancel' hki,
          getElem?_of_prefix (List.prefix_append ..) hs]
      exact .inl (hwithin s (List.mem_of_getElem? hkept))

theorem within_of_stampsAgree (h : StampsAgree retentionSecs pushed)
    (hpre : before ++ [newest] <+: pushed) :
    WithinRetention retentionSecs newest (after retentionSecs (before ++ [newest])) := by
  obtain ⟨hnonneg, hnear⟩ := h before newest hpre
  obtain ⟨k, hk, hafter, hfront⟩ := after_front h hpre
  rw [hafter]
  intro s hs
  obtain ⟨i, hi⟩ := List.mem_iff_getElem?.mp hs
  rw [List.getElem?_drop] at hi
  rcases Nat.lt_or_ge (k + i) before.length with hlt | hge
  · rw [List.getElem?_append_left hlt] at hi
    exact (hnear _ s hi).resolve_right fun haged => hfront (haged k (by omega))
  · rw [List.getElem?_append_right hge] at hi
    have hs : s = newest := by
      obtain ⟨hlt, hget⟩ := List.getElem?_eq_some_iff.mp hi
      simpa using hget.symm
    rw [hs, sub_self, abs_zero]
    omega

section Rate

/-- The second of the wall clock in which the snapshot was taken. -/
def wallSecond (s : SystemSnapshot) : ℤ := s.timestamp / 1000000000

theorem length_le_of_count_le {l : List ℤ} {lo hi : ℤ} {m : ℕ}
    (hmem : ∀ a ∈ l, a ∈ Finset.Icc lo hi) (hcount : ∀ a, l.count a ≤ m) :
    l.length ≤ (hi + 1 - lo).toNat * m := by
  have hsum : ∑ a ∈ Finset.Icc lo hi, (l : Multiset ℤ).count a = l.length := by
    rw [Multiset.sum_count_eq_card (by simpa using hmem), Multiset.coe_card]
  have hle : ∑ a ∈ Finset.Icc lo hi, (l : Multiset ℤ).count a ≤
      (Finset.Icc lo hi).card • m := by
    apply Finset.sum_le_card_nsmul
    intro a _
    simpa using hcount a
  rwa [hsum, Int.card_Icc, nsmul_eq_mul, Nat.cast_id] at hle

/-- A history within its retention holds no more than what a bounded rate makes in that time. -/
theorem length_of_within {newest : SystemSnapshot} {queue pushed : List SystemSnapshot} {m : ℕ}
    (hsuffix : queue <:+ pushed) (hrate : ∀ second, (pushed.map wallSecond).count second ≤ m)
    (h : WithinRetention retentionSecs newest queue) :
    queue.length ≤ (2 * retentionSecs + 1).toNat * m := by
  have hmem : ∀ second ∈ queue.map wallSecond, second ∈
      Finset.Icc (wallSecond newest - retentionSecs) (wallSecond newest + retentionSecs) := by
    intro second hsecond
    obtain ⟨s, hs, rfl⟩ := List.mem_map.mp hsecond
    obtain ⟨hlow, hhigh⟩ := abs_le.mp (h s hs)
    rw [Finset.mem_Icc, wallSecond, wallSecond]
    constructor <;> omega
  have hcount : ∀ second, (queue.map wallSecond).count second ≤ m := by
    intro second
    exact ((hsuffix.map wallSecond).sublist.count_le second).trans (hrate second)
  have hlength := length_le_of_count_le hmem hcount
  have hspan : wallSecond newest + retentionSecs + 1 - (wallSecond newest - retentionSecs) =
      2 * retentionSecs + 1 := by ring
  rwa [List.length_map, hspan] at hlength

end Rate

/-- After every push the history is a contiguous range up to the newest snapshot. It stays within
its retention exactly when the stamps agree with the order of the pushes, and then a bounded rate
of snapshots makes for a bounded history. -/
theorem history_within_retention_iff (retentionSecs : ℤ) (pushed : List SystemSnapshot) :
    (∀ before newest, before ++ [newest] <+: pushed →
      after retentionSecs (before ++ [newest]) <:+ before ++ [newest] ∧
      (after retentionSecs (before ++ [newest])).getLast? = some newest) ∧
    ((∀ before newest, before ++ [newest] <+: pushed →
        WithinRetention retentionSecs newest (after retentionSecs (before ++ [newest]))) ↔
      StampsAgree retentionSecs pushed) ∧
    (StampsAgree retentionSecs pushed → ∀ m before newest, before ++ [newest] <+: pushed →
      (∀ second, (pushed.map wallSecond).count second ≤ m) →
      (after retentionSecs (before ++ [newest])).length ≤ (2 * retentionSecs + 1).toNat * m) := by
  refine ⟨?_, ⟨?_, ?_⟩, ?_⟩
  · intro before newest _
    refine ⟨after_suffix _, ?_⟩
    rw [after_concat, push_eq, List.getLast?_concat]
  · exact stampsAgree_of_within
  · intro h before newest hpre
    exact within_of_stampsAgree h hpre
  · intro h m before newest hpre hrate
    obtain ⟨behind, hbehind⟩ := id hpre
    have hrate' : ∀ second, ((before ++ [newest]).map wallSecond).count second ≤ m := by
      intro second
      have hsub : ((before ++ [newest]).map wallSecond).Sublist (pushed.map wallSecond) := by
        rw [← hbehind]
        exact (List.sublist_append_left _ behind).map wallSecond
      exact (hsub.count_le second).trans (hrate second)
    exact length_of_within (after_suffix _) hrate' (within_of_stampsAgree h hpre)

/-- A snapshot taken at a second of the wall clock. -/
def takenAt (second : ℤ) : SystemSnapshot :=
  { snapshot [] 0 with timestamp := second * 1000000000 }

/-- The clock goes back by a thousand seconds: the snapshot taken before stays. -/
theorem history_after_step_back :
    ¬ ∀ (retentionSecs : ℤ) (pushed : List SystemSnapshot), 0 ≤ retentionSecs →
      ∀ before newest, before ++ [newest] <+: pushed →
        WithinRetention retentionSecs newest (after retentionSecs (before ++ [newest])) := by
  intro h
  have hwithin := h 300 [takenAt 1000, takenAt 0] (by decide) [takenAt 1000] (takenAt 0)
    List.prefix_rfl
  exact absurd hwithin (by decide)

end Zstats.HistoryBuffer
