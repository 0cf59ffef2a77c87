import Mathlib.Data.Nat.Init
import Mathlib.Tactic.TypeStar

namespace Machine

variable {σ ι ο : Type*} (step : σ → ι → σ × ο) (init : σ) (x : ℕ → ι)

/-- The state before step `n`. -/
def stateAt : ℕ → σ
  | 0 => init
  | n + 1 => (step (stateAt n) (x n)).1

/-- The output of step `n`. -/
def outAt (n : ℕ) : ο := (step (stateAt step init x n) (x n)).2

variable {step init x}

theorem stateAt_zero : stateAt step init x 0 = init := rfl

theorem stateAt_succ (n : ℕ) :
    stateAt step init x (n + 1) = (step (stateAt step init x n) (x n)).1 := rfl

/-- A run goes on as one that starts from the state it has reached. -/
theorem stateAt_add (i k : ℕ) : stateAt step init x (i + k) =
    stateAt step (stateAt step init x i) (fun n => x (i + n)) k := by
  induction k with
  | zero => rfl
  | succ k ih =>
    rw [← Nat.add_assoc, stateAt_succ, ih]
    rfl

theorem outAt_add (i k : ℕ) : outAt step init x (i + k) =
    outAt step (stateAt step init x i) (fun n => x (i + n)) k := by
  rw [outAt, outAt, stateAt_add]

/-- A run over a sequence that begins with a list has gone through the list after its length. -/
theorem stateAt_list (l : List ι) (init : σ) {x : ℕ → ι}
    (hx : ∀ k (h : k < l.length), x k = l[k]) :
    stateAt step init x l.length = l.foldl (fun s i => (step s i).1) init := by
  induction l generalizing init x with
  | nil => rfl
  | cons i l ih =>
    have hfirst : x 0 = i := hx 0 (Nat.succ_pos _)
    have hrest : ∀ k (h : k < l.length), x (1 + k) = l[k] := by
      intro k hk
      have hmem := hx (k + 1) (Nat.succ_lt_succ hk)
      rw [Nat.add_comm 1 k]
      exact hmem
    have hsum : (i :: l).length = 1 + l.length := Nat.add_comm _ _
    rw [hsum, stateAt_add, ih _ hrest, List.foldl_cons, stateAt_succ, stateAt_zero, hfirst]

/-- What survives each step from `i` on holds from `i` on. -/
theorem stateAt_from {P : ℕ → σ → Prop} {i : ℕ} (hi : P i (stateAt step init x i))
    (hstep : ∀ n, i ≤ n → P n (stateAt step init x n) →
      P (n + 1) (step (stateAt step init x n) (x n)).1) {n : ℕ} (hn : i ≤ n) :
    P n (stateAt step init x n) := by
  induction n, hn using Nat.le_induction with
  | base => exact hi
  | succ n hn ih => exact hstep n hn ih

/-- Two machines whose steps keep their states related have related states at all times. -/
theorem stateAt_related {σ' ι' ο' : Type*} {step' : σ' → ι' → σ' × ο'} {init' : σ'} {x' : ℕ → ι'}
    {R : σ → σ' → Prop} (h0 : R init init')
    (hstep : ∀ n s s', R s s' → R (step s (x n)).1 (step' s' (x' n)).1) (n : ℕ) :
    R (stateAt step init x n) (stateAt step' init' x' n) := by
  induction n with
  | zero => exact h0
  | succ n ih => exact hstep n _ _ ih

/-- What holds of the state now was brought about by some step, and each step since has kept it. -/
theorem stateAt_since {Q : σ → Prop} {born kept : ℕ → Prop} (h0 : ¬ Q init)
    (hstep : ∀ n, Q (stateAt step init x (n + 1)) →
      born n ∨ Q (stateAt step init x n) ∧ kept n) {n : ℕ} (h : Q (stateAt step init x n)) :
    ∃ i < n, born i ∧ ∀ m, i < m → m < n → kept m := by
  induction n with
  | zero => exact absurd h h0
  | succ n ih =>
    rcases hstep n h with hborn | ⟨hq, hkept⟩
    · exact ⟨n, n.lt_succ_self, hborn, fun m hm hmn => by omega⟩
    · obtain ⟨i, hi, hborn, hsince⟩ := ih hq
      refine ⟨i, Nat.lt_succ_of_lt hi, hborn, ?_⟩
      intro m him hmn
      rcases Nat.lt_succ_iff_lt_or_eq.mp hmn with hlt | rfl
      · exact hsince m him hlt
      · exact hkept

/-- A latch that some steps set and some reset is on since the last one that set it. -/
theorem latch_iff {P born reset : ℕ → Prop} (h0 : ¬ P 0)
    (hstep : ∀ n, P (n + 1) ↔ born n ∨ P n ∧ ¬ reset n) (n : ℕ) :
    P n ↔ ∃ i < n, born i ∧ ∀ j, i < j → j < n → ¬ reset j := by
  induction n with
  | zero => simp [h0]
  | succ n ih =>
    rw [hstep, ih]
    constructor
    · rintro (hborn | ⟨⟨i, hi, hborn, hkept⟩, hnow⟩)
      · exact ⟨n, n.lt_succ_self, hborn, fun j hnj hjn => by omega⟩
      · refine ⟨i, Nat.lt_succ_of_lt hi, hborn, ?_⟩
        intro j hij hjn
        rcases Nat.lt_succ_iff_lt_or_eq.mp hjn with hlt | rfl
        · exact hkept j hij hlt
        · exact hnow
    · intro ⟨i, hi, hborn, hkept⟩
      rcases Nat.lt_succ_iff_lt_or_eq.mp hi with hlt | rfl
      · exact Or.inr ⟨⟨i, hlt, hborn, fun j hij hjn => hkept j hij (by omega)⟩,
          hkept n hlt n.lt_succ_self⟩
      · exact Or.inl hborn

theorem exists_last {P : ℕ → Prop} {n : ℕ} (h : ∃ i < n, P i) :
    ∃ i < n, P i ∧ ∀ j, i < j → j < n → ¬ P j := by
  induction n with
  | zero =>
    obtain ⟨i, hi, _⟩ := h
    omega
  | succ n ih =>
    by_cases hn : P n
    · exact ⟨n, n.lt_succ_self, hn, fun j hnj hjn => by omega⟩
    · obtain ⟨i, hi, hP⟩ := h
      have hlt : i < n := by
        rcases Nat.lt_succ_iff_lt_or_eq.mp hi with hlt | rfl
        · exact hlt
        · exact absurd hP hn
      obtain ⟨m, hm, hPm, hlast⟩ := ih ⟨i, hlt, hP⟩
      refine ⟨m, Nat.lt_succ_of_lt hm, hPm, ?_⟩
      intro j hmj hjn
      rcases Nat.lt_succ_iff_lt_or_eq.mp hjn with hlt | rfl
      · exact hlast j hmj hlt
      · exact hn

/-- A step either makes an output and caches it, or leaves the cache and answers from it: then
what holds of every output made holds of every output. -/
theorem outAt_cached {V : Type*} {step : σ → ι → σ × Option V} {init : σ} {x : ℕ → ι}
    (cache : σ → Option V) (refreshed : ℕ → Prop) (P : V → Prop) (h0 : cache init = none)
    (hmade : ∀ n, refreshed n → cache (stateAt step init x (n + 1)) = outAt step init x n ∧
      ∀ v, outAt step init x n = some v → P v)
    (hkept : ∀ n, ¬ refreshed n →
      cache (stateAt step init x (n + 1)) = cache (stateAt step init x n) ∧
      ∀ v, outAt step init x n = some v → cache (stateAt step init x n) = some v)
    {n : ℕ} {v : V} (h : outAt step init x n = some v) : P v := by
  have hcache : ∀ n v, cache (stateAt step init x n) = some v → P v := by
    intro n
    induction n with
    | zero =>
      intro v hv
      rw [stateAt_zero, h0] at hv
      cases hv
    | succ n ih =>
      intro v hv
      by_cases hn : refreshed n
      · rw [(hmade n hn).1] at hv
        exact (hmade n hn).2 v hv
      · rw [(hkept n hn).1] at hv
        exact ih v hv
  by_cases hn : refreshed n
  · exact (hmade n hn).2 v h
  · exact hcache n v ((hkept n hn).2 v h)

end Machine
