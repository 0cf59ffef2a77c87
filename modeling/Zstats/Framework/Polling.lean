import Mathlib.Tactic.Common
import Mathlib.Tactic.SplitIfs
import Zstats.Framework.Machine

namespace Polling

variable {T V : Type*}

structure Poll (T V : Type*) where
  rounds : ℕ
  last : T
  value : V

/-- What a step finds if it looks. -/
structure Look (T V : Type*) where
  stamp : T
  read : Option V

/-- Once in `every` steps the stamp is compared with the one last seen, and a source with another
stamp is read. One that cannot be read leaves the value as it is. -/
def step [DecidableEq T] (every : ℕ) (s : Poll T V) (x : Look T V) : Poll T V :=
  if s.rounds + 1 < every then { s with rounds := s.rounds + 1 }
  else if x.stamp = s.last then { s with rounds := 0 }
  else ⟨0, x.stamp, x.read.getD s.value⟩

section

variable [DecidableEq T] (every : ℕ) (last : T) (value : V) (x : ℕ → Look T V)

/-- The state before step `n`. -/
def before (n : ℕ) : Poll T V :=
  Machine.stateAt (fun s x => (step every s x, ())) ⟨0, last, value⟩ x n

/-- The value that is in effect once step `n` has looked. -/
def inEffect (n : ℕ) : V := (before every last value x (n + 1)).value

/-- Step `n` looks at the stamp. -/
def Looks (n : ℕ) : Prop := (n + 1) % every = 0

/-- Step `n` finds another stamp and reads the value. -/
def Accepts (n : ℕ) (v : V) : Prop :=
  Looks every n ∧ (x n).stamp ≠ (before every last value x n).last ∧ (x n).read = some v

end

section Steps

variable [DecidableEq T] {every : ℕ} (last : T) (value : V) (x : ℕ → Look T V)

theorem before_zero : before every last value x 0 = ⟨0, last, value⟩ := rfl

theorem before_succ (n : ℕ) :
    before every last value x (n + 1) = step every (before every last value x n) (x n) := rfl

theorem succ_mod (h : 0 < every) (n : ℕ) :
    (n + 1) % every = if n % every + 1 < every then n % every + 1 else 0 := by
  have hlt : n % every < every := Nat.mod_lt n h
  have hsum : (n + 1) % every = (n % every + 1) % every := by simp
  rw [hsum]
  split_ifs with hnext
  · exact Nat.mod_eq_of_lt hnext
  · have hfull : n % every + 1 = every := by omega
    rw [hfull, Nat.mod_self]

theorem rounds_eq (h : 0 < every) (n : ℕ) :
    (before every last value x n).rounds = n % every := by
  induction n with
  | zero => exact (Nat.zero_mod every).symm
  | succ n ih =>
    rw [before_succ, succ_mod h, step, ih]
    split_ifs <;> rfl

/-- The steps at which the counter has run up look. -/
theorem looks_iff (h : 0 < every) (n : ℕ) :
    Looks every n ↔ ¬ (before every last value x n).rounds + 1 < every := by
  rw [Looks, succ_mod h, rounds_eq last value x h]
  split_ifs with hlt
  · simp [hlt]
  · simp [hlt]

theorem step_quiet (h : 0 < every) {n : ℕ} (hn : ¬ Looks every n) :
    (before every last value x (n + 1)).last = (before every last value x n).last ∧
    (before every last value x (n + 1)).value = (before every last value x n).value := by
  rw [looks_iff last value x h, not_not] at hn
  rw [before_succ, step, if_pos hn]
  exact ⟨rfl, rfl⟩

theorem step_looks (h : 0 < every) {n : ℕ} (hn : Looks every n) :
    (before every last value x (n + 1)).last = (x n).stamp ∧
    (before every last value x (n + 1)).value =
      if (x n).stamp = (before every last value x n).last then (before every last value x n).value
      else (x n).read.getD (before every last value x n).value := by
  rw [looks_iff last value x h] at hn
  rw [before_succ, step, if_neg hn]
  split_ifs with hstamp
  · exact ⟨hstamp.symm, rfl⟩
  · exact ⟨rfl, rfl⟩

/-- The stamp last seen is that of the step before which looked. -/
theorem last_eq (h : 0 < every) (n : ℕ) :
    (before every last value x n).last =
      if n < every then last else (x (n - n % every - 1)).stamp := by
  induction n with
  | zero => rw [if_pos h, before_zero]
  | succ n ih =>
    have hle := Nat.mod_le n every
    by_cases hn : Looks every n
    · have hge : every ≤ n + 1 := by
        obtain ⟨k, hk⟩ := Nat.dvd_of_mod_eq_zero hn
        cases k with
        | zero => omega
        | succ k =>
          rw [hk]
          exact Nat.le_mul_of_pos_right every (Nat.succ_pos k)
      have hmod : (n + 1) % every = 0 := hn
      rw [(step_looks last value x h hn).1, if_neg (Nat.not_lt.mpr hge), hmod, Nat.sub_zero,
        Nat.add_sub_cancel]
    · rw [(step_quiet last value x h hn).1, ih, succ_mod h]
      have hnext : n % every + 1 < every := by
        by_contra hfull
        exact hn (by rw [Looks, succ_mod h, if_neg hfull])
      rw [if_pos hnext]
      rcases Nat.lt_or_ge n every with hlt | hge
      · have hsmall : n + 1 < every := by
          rw [Nat.mod_eq_of_lt hlt] at hnext
          exact hnext
        rw [if_pos hlt, if_pos hsmall]
      · have hlarge : ¬ n + 1 < every := by omega
        have hsame : n + 1 - (n % every + 1) - 1 = n - n % every - 1 := by omega
        rw [if_neg (Nat.not_lt.mpr hge), if_neg hlarge, hsame]

/-- The stamp that a step which looks compares with. -/
theorem last_looks (h : 0 < every) {n : ℕ} (hn : Looks every n) :
    (before every last value x n).last = if n < every then last else (x (n - every)).stamp := by
  have hmod : n % every + 1 = every := by
    by_contra hne
    have hlt := Nat.mod_lt n h
    rw [Looks, succ_mod h, if_pos (by omega)] at hn
    cases hn
  have hback : n - n % every - 1 = n - every := by omega
  rw [last_eq last value x h, hback]

/-- A step that accepts puts into effect what it read; no other step changes what is. -/
theorem value_step (h : 0 < every) (n : ℕ) :
    (∃ v, Accepts every last value x n v ∧ (before every last value x (n + 1)).value = v) ∨
    (∀ v, ¬ Accepts every last value x n v) ∧
      (before every last value x (n + 1)).value = (before every last value x n).value := by
  by_cases hn : Looks every n
  · obtain ⟨-, hvalue⟩ := step_looks last value x h hn
    by_cases hstamp : (x n).stamp = (before every last value x n).last
    · rw [if_pos hstamp] at hvalue
      exact Or.inr ⟨fun v hv => hv.2.1 hstamp, hvalue⟩
    · rw [if_neg hstamp] at hvalue
      cases hread : (x n).read with
      | none =>
        rw [hread] at hvalue
        refine Or.inr ⟨?_, hvalue⟩
        intro v hv
        have hsome := hv.2.2
        rw [hread] at hsome
        cases hsome
      | some v =>
        rw [hread] at hvalue
        exact Or.inl ⟨v, ⟨hn, hstamp, hread⟩, hvalue⟩
  · exact Or.inr ⟨fun v hv => hn hv.1, (step_quiet last value x h hn).2⟩

/-- In effect is what the latest step that accepted has read. -/
theorem inEffect_latest (h : 0 < every) (n : ℕ) :
    (∃ m ≤ n, Accepts every last value x m (inEffect every last value x n) ∧
      ∀ k, m < k → k ≤ n → ∀ v, ¬ Accepts every last value x k v) ∨
    inEffect every last value x n = value ∧
      ∀ k ≤ n, ∀ v, ¬ Accepts every last value x k v := by
  induction n with
  | zero =>
    rcases value_step last value x h 0 with ⟨v, hv, hvalue⟩ | ⟨hno, hsame⟩
    · left
      refine ⟨0, Nat.le_refl 0, ?_, ?_⟩
      · rw [inEffect, hvalue]
        exact hv
      · intro k hk hk0
        omega
    · right
      refine ⟨hsame, ?_⟩
      intro k hk
      rw [Nat.le_zero.mp hk]
      exact hno
  | succ n ih =>
    rcases value_step last value x h (n + 1) with
      ⟨v, hv, hvalue⟩ | ⟨hno, hsame⟩
    · left
      refine ⟨n + 1, Nat.le_refl _, ?_, ?_⟩
      · rw [inEffect, hvalue]
        exact hv
      · intro k hk hkn
        omega
    · have heffect : inEffect every last value x (n + 1) = inEffect every last value x n := hsame
      rw [heffect]
      rcases ih with ⟨m, hm, haccepts, hlatest⟩ | ⟨hvalue, hnone⟩
      · left
        refine ⟨m, by omega, haccepts, ?_⟩
        intro k hmk hk
        rcases Nat.lt_or_ge n k with hlast | hearlier
        · obtain rfl : k = n + 1 := by omega
          exact hno
        · exact hlatest k hmk hearlier
      · right
        refine ⟨hvalue, ?_⟩
        intro k hk
        rcases Nat.lt_or_ge n k with hlast | hearlier
        · obtain rfl : k = n + 1 := by omega
          exact hno
        · exact hnone k hearlier

end Steps

section Freshness

variable [DecidableEq T] {every : ℕ} {last : T} {value : V} {x : ℕ → Look T V}

/-- The stamp tells what is there to be read, and what is in effect was there at the outset. -/
structure Honest (last : T) (value : V) (x : ℕ → Look T V) : Prop where
  read : ∀ m n, (x m).stamp = (x n).stamp → (x m).read = (x n).read
  outset : ∀ n, (x n).stamp = last → ∀ v, (x n).read = some v → value = v

/-- What the stamp last seen stands for is in effect, if it could be read. -/
theorem Honest.value_last (h : 0 < every) (hx : Honest last value x) (n : ℕ) :
    ∀ k, (x k).stamp = (before every last value x n).last → ∀ v, (x k).read = some v →
      (before every last value x n).value = v := by
  induction n with
  | zero => exact hx.outset
  | succ n ih =>
    intro k hk v hv
    by_cases hn : Looks every n
    · obtain ⟨hlast, hvalue⟩ := step_looks last value x h hn
      rw [hlast] at hk
      rw [hvalue]
      split_ifs with hstamp
      · exact ih k (hk.trans hstamp) v hv
      · rw [← hx.read k n hk, hv]
        rfl
    · obtain ⟨hlast, hvalue⟩ := step_quiet last value x h hn
      rw [hlast] at hk
      rw [hvalue]
      exact ih k hk v hv

/-- Among `every` steps in a row one looks. -/
theorem exists_looks (h : 0 < every) {n : ℕ} (hn : every ≤ n + 1) :
    ∃ m ≤ n, n < m + every ∧ Looks every m := by
  have hdiv := Nat.div_add_mod (n + 1) every
  have hmod := Nat.mod_lt (n + 1) h
  have hpos : every ≤ every * ((n + 1) / every) := by
    have hone : 1 ≤ (n + 1) / every := (Nat.one_le_div_iff h).mpr hn
    exact Nat.le_mul_of_pos_right every hone
  refine ⟨every * ((n + 1) / every) - 1, by omega, by omega, ?_⟩
  have hsucc : every * ((n + 1) / every) - 1 + 1 = every * ((n + 1) / every) := by omega
  rw [Looks, hsucc]
  exact Nat.mul_mod_right every _

theorem last_still (h : 0 < every) {m n : ℕ} {t : T} (hm : Looks every m) (hmn : m ≤ n)
    (hstill : ∀ k, m ≤ k → k ≤ n → (x k).stamp = t) :
    (before every last value x (n + 1)).last = t := by
  induction n, hmn using Nat.le_induction with
  | base =>
    rw [(step_looks last value x h hm).1]
    exact hstill m (Nat.le_refl m) (Nat.le_refl m)
  | succ n hmn ih =>
    by_cases hn : Looks every (n + 1)
    · rw [(step_looks last value x h hn).1]
      exact hstill (n + 1) (by omega) (Nat.le_refl _)
    · rw [(step_quiet last value x h hn).1]
      exact ih fun k hk hkn => hstill k hk (by omega)

/-- A source that has stood still for `every` steps and can be read is in effect. -/
theorem Honest.inEffect_still (h : 0 < every) (hx : Honest last value x) {n : ℕ} {v : V}
    (hn : every ≤ n + 1) (hstill : ∀ k ≤ n, n < k + every → (x k).stamp = (x n).stamp)
    (hv : (x n).read = some v) : inEffect every last value x n = v := by
  obtain ⟨m, hmn, hm, hlooks⟩ := exists_looks h hn
  have hlast : (before every last value x (n + 1)).last = (x n).stamp :=
    last_still h hlooks hmn fun k hmk hkn => hstill k hkn (by omega)
  exact hx.value_last h (n + 1) n hlast.symm v hv

end Freshness

end Polling
