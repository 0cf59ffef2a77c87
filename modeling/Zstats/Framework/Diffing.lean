import Mathlib.Algebra.Order.Field.Basic
import Mathlib.Data.List.Induction
import Mathlib.Data.Option.NAry
import Mathlib.Tactic.Linarith

namespace Diffing

section Keyed

variable {κ C : Type*} [DecidableEq κ]

/-- What a map holds under `k` once the entries have been inserted in order. -/
def lookupLast (entries : List (κ × C)) (k : κ) : Option C :=
  entries.foldl (fun found entry => if entry.1 = k then some entry.2 else found) none

theorem lookupLast_nil (k : κ) : lookupLast ([] : List (κ × C)) k = none := rfl

theorem lookupLast_concat (entries : List (κ × C)) (entry : κ × C) (k : κ) :
    lookupLast (entries ++ [entry]) k =
      if entry.1 = k then some entry.2 else lookupLast entries k := by
  simp [lookupLast]

theorem mem_of_lookupLast {entries : List (κ × C)} {k : κ} {c : C}
    (h : lookupLast entries k = some c) : (k, c) ∈ entries := by
  induction entries using List.reverseRecOn with
  | nil => simp [lookupLast_nil] at h
  | append_singleton entries entry ih =>
    rw [lookupLast_concat] at h
    by_cases hk : entry.1 = k
    · rw [if_pos hk] at h
      have hc : entry.2 = c := Option.some.inj h
      rw [← hk, ← hc]
      simp
    · rw [if_neg hk] at h
      exact List.mem_append_left _ (ih h)

theorem lookupLast_eq_none {entries : List (κ × C)} {k : κ} :
    lookupLast entries k = none ↔ k ∉ entries.map Prod.fst := by
  induction entries using List.reverseRecOn with
  | nil => simp [lookupLast_nil]
  | append_singleton entries entry ih =>
    rw [lookupLast_concat, List.map_append, List.mem_append, not_or, ← ih]
    by_cases hk : entry.1 = k
    · simp [hk]
    · simp [hk, Ne.symm hk]

theorem lookupLast_of_mem {entries : List (κ × C)} (hkeys : (entries.map Prod.fst).Nodup) {k : κ}
    {c : C} (h : (k, c) ∈ entries) : lookupLast entries k = some c := by
  induction entries using List.reverseRecOn with
  | nil => simp at h
  | append_singleton entries entry ih =>
    rw [List.map_append, List.nodup_append] at hkeys
    obtain ⟨hold, -, hnew⟩ := hkeys
    rw [lookupLast_concat]
    rcases List.mem_append.mp h with hmem | hlast
    · have hne : k ≠ entry.1 := hnew k (List.mem_map_of_mem hmem) entry.1 (by simp)
      rw [if_neg hne.symm]
      exact ih hold hmem
    · rw [← List.mem_singleton.mp hlast, if_pos rfl]

/-- The counters of the last refresh, and when it ended. -/
structure Baseline (κ C : Type*) where
  taken : Option ℕ
  counters : List (κ × C)

namespace Baseline

/-- What a refresh that starts now has to subtract under `k`, and over which time. -/
def against (b : Baseline κ C) (start : ℕ) (k : κ) : Option (C × ℕ) :=
  Option.map₂ (fun taken prev => (prev, start - taken)) b.taken (lookupLast b.counters k)

theorem against_of_elapsed {b : Baseline κ C} {start elapsed : ℕ} {k : κ} {prev : C}
    (helapsed : b.taken.map (fun taken => start - taken) = some elapsed)
    (hprev : lookupLast b.counters k = some prev) : b.against start k = some (prev, elapsed) := by
  obtain ⟨taken, htaken, hsince⟩ := Option.map_eq_some_iff.mp helapsed
  have hpair : (prev, start - taken) = (prev, elapsed) := by rw [hsince]
  exact Option.map₂_eq_some_iff.mpr ⟨taken, prev, htaken, hprev, hpair⟩

theorem against_some {b : Baseline κ C} {start : ℕ} {k : κ} {prev : C} {elapsed : ℕ}
    (h : b.against start k = some (prev, elapsed)) :
    ∃ taken, b.taken = some taken ∧ elapsed = start - taken ∧ (k, prev) ∈ b.counters := by
  obtain ⟨taken, c, htaken, hc, heq⟩ := Option.map₂_eq_some_iff.mp h
  have hprev : c = prev := congrArg Prod.fst heq
  have helapsed : start - taken = elapsed := congrArg Prod.snd heq
  rw [hprev] at hc
  exact ⟨taken, htaken, helapsed.symm, mem_of_lookupLast hc⟩

end Baseline

/-- The baseline changes by refreshes only, each of which replaces all of it. -/
structure Tracks (baseline : ℕ → Baseline κ C) (refreshed : ℕ → Prop) (finish : ℕ → ℕ)
    (readings : ℕ → List (κ × C)) : Prop where
  fresh : (baseline 0).taken = none
  kept : ∀ n, ¬ refreshed n → baseline (n + 1) = baseline n
  replaced : ∀ n, refreshed n → baseline (n + 1) = ⟨some (finish n), readings n⟩

/-- Refresh `m` is the last one before `n`. -/
structure Preceding (refreshed : ℕ → Prop) (m n : ℕ) : Prop where
  earlier : m < n
  ran : refreshed m
  nearest : ∀ k, m < k → k < n → ¬ refreshed k

theorem Preceding.succ {refreshed : ℕ → Prop} {m n : ℕ} (h : Preceding refreshed m n)
    (hn : ¬ refreshed n) : Preceding refreshed m (n + 1) where
  earlier := Nat.lt_succ_of_lt h.earlier
  ran := h.ran
  nearest := by
    intro k hk hkn
    rcases Nat.lt_succ_iff_lt_or_eq.mp hkn with hlt | heq
    · exact h.nearest k hk hlt
    · rw [heq]
      exact hn

theorem Preceding.unique {refreshed : ℕ → Prop} {m m' n : ℕ} (h : Preceding refreshed m n)
    (h' : Preceding refreshed m' n) : m = m' := by
  rcases lt_trichotomy m m' with hlt | heq | hgt
  · exact absurd h'.ran (h.nearest m' hlt h'.earlier)
  · exact heq
  · exact absurd h.ran (h'.nearest m hgt h.earlier)

variable {baseline : ℕ → Baseline κ C} {refreshed : ℕ → Prop} {finish : ℕ → ℕ}
  {readings : ℕ → List (κ × C)}

omit [DecidableEq κ] in
/-- A baseline that has been taken is what the last refresh left. -/
theorem Tracks.preceding (h : Tracks baseline refreshed finish readings) {n taken : ℕ}
    (ht : (baseline n).taken = some taken) :
    ∃ m, Preceding refreshed m n ∧ baseline n = ⟨some (finish m), readings m⟩ := by
  induction n with
  | zero =>
    rw [h.fresh] at ht
    cases ht
  | succ n ih =>
    by_cases hn : refreshed n
    · have hnone : ∀ k, n < k → k < n + 1 → ¬ refreshed k := by
        intro k hk hkn
        omega
      exact ⟨n, ⟨n.lt_succ_self, hn, hnone⟩, h.replaced n hn⟩
    · rw [h.kept n hn] at ht
      obtain ⟨m, hm, hb⟩ := ih ht
      exact ⟨m, hm.succ hn, (h.kept n hn).trans hb⟩

omit [DecidableEq κ] in
/-- What the last refresh left is the baseline. -/
theorem Tracks.left (h : Tracks baseline refreshed finish readings) {m n : ℕ}
    (hm : Preceding refreshed m n) : baseline n = ⟨some (finish m), readings m⟩ := by
  have hkept : ∀ k, m + 1 ≤ k → k ≤ n → baseline k = ⟨some (finish m), readings m⟩ := by
    intro k hk
    induction k, hk using Nat.le_induction with
    | base => exact fun _ => h.replaced m hm.ran
    | succ k hk ih =>
      intro hkn
      rw [h.kept k (hm.nearest k hk hkn)]
      exact ih (Nat.le_of_succ_le hkn)
  exact hkept n hm.earlier le_rfl

/-- A refresh subtracts what the preceding one read, over the time since that one ended. -/
theorem Tracks.against_preceding (h : Tracks baseline refreshed finish readings)
    {n start elapsed : ℕ} {k : κ} {prev : C}
    (ha : (baseline n).against start k = some (prev, elapsed)) :
    ∃ m, Preceding refreshed m n ∧ elapsed = start - finish m ∧ (k, prev) ∈ readings m := by
  obtain ⟨taken, htaken, helapsed, hmem⟩ := Baseline.against_some ha
  obtain ⟨m, hm, hb⟩ := h.preceding htaken
  rw [hb] at htaken hmem
  have hfinish : finish m = taken := Option.some.inj htaken
  refine ⟨m, hm, ?_, hmem⟩
  rw [helapsed, hfinish]

end Keyed

/-! A refresh takes time, and a counter is sampled somewhere in it. -/

structure Span where
  start : ℕ
  finish : ℕ
  ordered : start ≤ finish

/-- When each refresh samples each counter. -/
structure Sampling (span : ℕ → Span) (κ : Type*) where
  instant : ℕ → κ → ℕ
  mem : ∀ n k, (span n).start ≤ instant n k ∧ instant n k ≤ (span n).finish

/-- From the end of refresh `m` to the start of refresh `n`: what rates are divided by. -/
def measured (span : ℕ → Span) (m n : ℕ) : ℕ := (span n).start - (span m).finish

/-- One refresh ends before the next one starts. -/
def Sequential (span : ℕ → Span) : Prop := ∀ n, (span n).finish ≤ (span (n + 1)).start

theorem Sequential.finish_le_start {span : ℕ → Span} (h : Sequential span) {m n : ℕ}
    (hmn : m < n) : (span m).finish ≤ (span n).start := by
  induction n, hmn using Nat.le_induction with
  | base => exact h m
  | succ n _ ih => exact (ih.trans (span n).ordered).trans (h n)

namespace Sampling

variable {span : ℕ → Span} {κ : Type*} (r : Sampling span κ)

/-- From one sample to the other: what a counter has grown over. -/
def window (m n : ℕ) (k : κ) : ℕ := r.instant n k - r.instant m k

/-- The earlier sample ends its refresh and the later one starts its. -/
def Aligned (m n : ℕ) (k : κ) : Prop :=
  r.instant m k = (span m).finish ∧ r.instant n k = (span n).start

instance (m n : ℕ) (k : κ) : Decidable (r.Aligned m n k) := inferInstanceAs (Decidable (_ ∧ _))

/-- A counter grows over no more than what its rate is divided by only if both are one. -/
theorem window_le_iff (h : Sequential span) {m n : ℕ} (hmn : m < n) (k : κ) :
    r.window m n k ≤ measured span m n ↔ r.Aligned m n k := by
  have h0 := h.finish_le_start hmn
  have h1 := (r.mem m k).2
  have h2 := (r.mem n k).1
  unfold measured window Aligned
  constructor
  · intro hle
    constructor <;> omega
  · intro hal
    omega

theorem measured_lt_window (h : Sequential span) {m n : ℕ} (hmn : m < n) {k : κ}
    (hal : ¬ r.Aligned m n k) : measured span m n < r.window m n k := by
  rw [← not_le, r.window_le_iff h hmn k]
  exact hal

/-- Every counter is sampled as its refresh starts. -/
def atStart (span : ℕ → Span) (κ : Type*) : Sampling span κ where
  instant := fun n _ => (span n).start
  mem := fun n _ => ⟨le_rfl, (span n).ordered⟩

theorem atStart_aligned (h : ∀ n, (span n).start = (span n).finish) (m n : ℕ) (k : κ) :
    (atStart span κ).Aligned m n k :=
  ⟨h m, rfl⟩

end Sampling

/-- A quotient by at least the time a counter grew over does not exceed its growth rate. -/
theorem div_le_of_growth {K : Type*} [Field K] [LinearOrder K] [IsStrictOrderedRing K]
    {growth rate window divisor : K} (hrate : 0 ≤ rate) (hdivisor : 0 < divisor)
    (hw : window ≤ divisor) (h : growth ≤ rate * window) : growth / divisor ≤ rate := by
  rw [div_le_iff₀ hdivisor]
  exact h.trans (mul_le_mul_of_nonneg_left hw hrate)

end Diffing
