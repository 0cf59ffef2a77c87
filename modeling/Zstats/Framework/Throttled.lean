import Zstats.Framework.Diffing
import Zstats.Framework.Machine

namespace Throttled

open Diffing

variable {σ ι V : Type*}

/-- Between reads the cache is kept, until the machine loses what it had; only a machine that has
something answers without a read. -/
structure Caching (step : σ → ι → σ × V) (init : σ) (x : ℕ → ι) (cache : σ → V) (primed : σ → Prop)
    (enabled reads : ℕ → Prop) : Prop where
  fresh : ¬ primed init
  kept : ∀ n, ¬ reads n → primed (Machine.stateAt step init x (n + 1)) →
    primed (Machine.stateAt step init x n) ∧
      cache (Machine.stateAt step init x (n + 1)) = cache (Machine.stateAt step init x n)
  answer : ∀ n, enabled n → ¬ reads n → primed (Machine.stateAt step init x n) ∧
    Machine.outAt step init x n = cache (Machine.stateAt step init x n)

/-- Whoever asks between reads is told what the latest one was. -/
def PresentsLatest (enabled reads : ℕ → Prop) (out : ℕ → V) : Prop :=
  ∀ n, enabled n → ¬ reads n → ∃ m, Preceding reads m n ∧ out n = out m

variable {step : σ → ι → σ × V} {init : σ} {x : ℕ → ι} {cache : σ → V} {primed : σ → Prop}
  {enabled reads : ℕ → Prop}

theorem Caching.since (h : Caching step init x cache primed enabled reads) {n : ℕ}
    (hn : primed (Machine.stateAt step init x n)) : ∃ m, Preceding reads m n ∧
      cache (Machine.stateAt step init x n) = cache (Machine.stateAt step init x (m + 1)) := by
  induction n with
  | zero => exact absurd hn h.fresh
  | succ n ih =>
    by_cases hread : reads n
    · have hnearest : ∀ k, n < k → k < n + 1 → ¬ reads k := by
        intro k hk hkn
        omega
      exact ⟨n, ⟨n.lt_succ_self, hread, hnearest⟩, rfl⟩
    · obtain ⟨hprimed, hcache⟩ := h.kept n hread hn
      obtain ⟨m, hm, hsince⟩ := ih hprimed
      exact ⟨m, hm.succ hread, hcache.trans hsince⟩

/-- An answer without a read is what the latest read left in the cache. -/
theorem Caching.answered (h : Caching step init x cache primed enabled reads) {n : ℕ}
    (hn : enabled n) (hread : ¬ reads n) : ∃ m, Preceding reads m n ∧
      Machine.outAt step init x n = cache (Machine.stateAt step init x (m + 1)) := by
  obtain ⟨hprimed, hanswer⟩ := h.answer n hn hread
  obtain ⟨m, hm, hsince⟩ := h.since hprimed
  exact ⟨m, hm, hanswer.trans hsince⟩

/-- If each read caches what it answers, the latest read is presented. -/
theorem Caching.presentsLatest (h : Caching step init x cache primed enabled reads)
    (hread : ∀ n, reads n →
      cache (Machine.stateAt step init x (n + 1)) = Machine.outAt step init x n) :
    PresentsLatest enabled reads (Machine.outAt step init x) := by
  intro n hn hdue
  obtain ⟨m, hm, hout⟩ := h.answered hn hdue
  exact ⟨m, hm, hout.trans (hread m hm.ran)⟩

/-- Switches that do nothing or lose everything: after any number of them the state is the old
one, or there is nothing in it. -/
theorem switched_cases (primed : σ → Prop) {set : σ → Bool → σ}
    (h : ∀ s on, set s on = s ∨ ¬ primed (set s on)) (switches : List Bool) (s : σ) :
    switches.foldl set s = s ∨ ¬ primed (switches.foldl set s) := by
  induction switches generalizing s with
  | nil => exact Or.inl rfl
  | cons on switches ih =>
    rw [List.foldl_cons]
    rcases ih (set s on) with hsame | hlost
    · rw [hsame]
      exact h s on
    · exact Or.inr hlost

/-- One call that is not a read: the state stays, and what the cache holds is the answer. -/
structure Channel (collect : σ → ι → σ × V) (cache : σ → V) (primed : σ → Prop)
    (on reads : σ → ι → Prop) : Prop where
  kept : ∀ s i, ¬ reads s i → (collect s i).1 = s
  answer : ∀ s i, on s i → ¬ reads s i → primed s ∧ (collect s i).2 = cache s

/-- Runs of a channel that may be switched before each call. -/
theorem Channel.caching {collect : σ → ι → σ × V} {on reads : σ → ι → Prop}
    (h : Channel collect cache primed on reads) {switch : σ → ι → σ}
    (hswitch : ∀ s i, switch s i = s ∨ ¬ primed (switch s i)) (init : σ) (hinit : ¬ primed init)
    (x : ℕ → ι) :
    let step := fun s i => collect (switch s i) i
    let before := fun n => switch (Machine.stateAt step init x n) (x n)
    Caching step init x cache primed (fun n => on (before n) (x n))
      (fun n => reads (before n) (x n)) := by
  intro step before
  have hunswitched : ∀ n, primed (before n) → before n = Machine.stateAt step init x n := by
    intro n hn
    rcases hswitch (Machine.stateAt step init x n) (x n) with hsame | hlost
    · exact hsame
    · exact absurd hn hlost
  constructor
  · exact hinit
  · intro n hn hprimed
    have hstate : Machine.stateAt step init x (n + 1) = before n := h.kept _ _ hn
    rw [hstate] at hprimed
    have hsame := hunswitched n hprimed
    rw [hstate, hsame]
    rw [hsame] at hprimed
    exact ⟨hprimed, rfl⟩
  · intro n hon hn
    obtain ⟨hprimed, hanswer⟩ := h.answer _ _ hon hn
    have hsame := hunswitched n hprimed
    have hcache : Machine.outAt step init x n = cache (before n) := hanswer
    rw [hsame] at hprimed hcache
    exact ⟨hprimed, hcache⟩

/-- A channel whose reads cache what they answer presents the latest one. -/
theorem Channel.presentsLatest {collect : σ → ι → σ × V} {on reads : σ → ι → Prop}
    (h : Channel collect cache primed on reads)
    (hread : ∀ s i, reads s i → cache (collect s i).1 = (collect s i).2) {switch : σ → ι → σ}
    (hswitch : ∀ s i, switch s i = s ∨ ¬ primed (switch s i)) (init : σ) (hinit : ¬ primed init)
    (x : ℕ → ι) :
    let step := fun s i => collect (switch s i) i
    let before := fun n => switch (Machine.stateAt step init x n) (x n)
    PresentsLatest (fun n => on (before n) (x n)) (fun n => reads (before n) (x n))
      (Machine.outAt step init x) := by
  intro step before
  apply (h.caching hswitch init hinit x).presentsLatest
  intro n hn
  exact hread (before n) (x n) hn

end Throttled
