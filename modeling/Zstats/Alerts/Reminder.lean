import Zstats.Alerts.Sections

namespace Zstats

open AlertEngine

variable {x : ℕ → Input} {k : Key}

/-- An open episode was opened by the event of an earlier evaluation. Each evaluation since that
was able to judge the key's pid found it at its bar. -/
theorem episode_opened {n : ℕ} {episode : Episode}
    (h : (before x n).episodes.active k = some episode) :
    ∃ i < n, ((x i).now = episode.started ∧
        ∃ ev ∈ (result x i).events, ev.key = some k ∧ ev.repeatAfter = none) ∧
      ∀ m, i < m → m < n → (before x m).Judged (x m) k → (before x m).AtBar (x m) k := by
  refine Machine.stateAt_since (Q := fun e : AlertEngine => ∃ reminded,
    e.episodes.active k = some ⟨episode.started, reminded⟩) ?_ ?_ ⟨episode.reminded, h⟩
  · rintro ⟨reminded, h⟩
    simp [new, EpisodeState.empty] at h
  · rintro n ⟨reminded, h⟩
    rcases step_episode h with ⟨hnow, hev⟩ | ⟨⟨r, hr⟩, hjudged⟩
    · exact Or.inl ⟨hnow.symm, hev⟩
    · exact Or.inr ⟨⟨r, hr⟩, hjudged⟩

/-- A reminder repeats an event of the same key from as long ago as it says. In between the pid
was always listed with the rule on and the average at its bar exactly when no evaluation in
between was unable to judge it. -/
theorem reminder_truthful_iff {n : ℕ} {ev : AlertEvent} {elapsed : Nat}
    (hev : ev ∈ (result x n).events) (hkey : ev.key = some k)
    (hrepeat : ev.repeatAfter = some elapsed) :
    ∃ i < n, (x i).now + elapsed = (x n).now ∧
      (∃ first ∈ (result x i).events, first.key = some k ∧ first.repeatAfter = none) ∧
      ((∀ m, i ≤ m → m ≤ n → (before x m).AtBar (x m) k) ↔
        ∀ m, i < m → m < n → (before x m).Judged (x m) k) := by
  obtain ⟨-, -, -, -, hnew | ⟨started, hactive, helapsed, hlong⟩⟩ := step_event hev hkey
  · simp [hnew] at hrepeat
  obtain ⟨i, hi, ⟨hnow, first, hfirst, hfk, hfr⟩, hsince⟩ := episode_opened hactive
  refine ⟨i, hi, ?_, ⟨first, hfirst, hfk, hfr⟩, ?_, ?_⟩
  · rw [hrepeat, Option.some.injEq] at helapsed
    simp only at hnow
    simp only [durationSince, persistReminder, fromSecs] at hlong helapsed
    omega
  · intro h m him hmn
    obtain ⟨st, hst, hon, hst'⟩ := h m him.le hmn.le
    exact ⟨st, hst, hon, Or.inr hst'⟩
  · intro h m him hmn
    rcases him.eq_or_lt with rfl | him
    · exact event_atBar hfirst hfk
    · rcases hmn.eq_or_lt with rfl | hmn
      · exact event_atBar hev hkey
      · exact hsince m him hmn (h m him hmn)

section Lapse

/-- A busy process whose rule is switched off, and which is idle, between two evaluations at
which it is over the bar. -/
def lapse (n : ℕ) : Input :=
  let run (secs : ℕ) (cpu : ℚ) (threshold : Option ℚ) : Input :=
    { now := fromSecs secs
      snapshot := snapshot [proc 1 cpu 0] 100
      active := { ActiveThresholds.off (fromSecs 600) with cpu := .new threshold } }
  match n with
  | 0 => run 0 400 (some 100)
  | 1 => run 50 400 (some 100)
  | 2 => run 100 0 none
  | 3 => run 1800 400 none
  | _ => run 1850 400 (some 100)

theorem lapse_mono : Monotone fun n => (lapse n).now := by
  apply monotone_nat_of_le_succ
  intro n
  match n with
  | 0 | 1 | 2 | 3 => decide
  | n + 4 => exact le_rfl

theorem lapse_reminds : ∃ ev ∈ (result lapse 4).events,
    ev.key = some (1, .cpu) ∧ ev.repeatAfter = some (fromSecs 1800) := by
  decide +kernel

theorem lapse_off : ¬ (before lapse 2).AtBar (lapse 2) (1, .cpu) := by
  have hoff : (before lapse 2).standings (lapse 2) =
      [((1, .cpu), .off), ((1, .memory), .off)] := by decide
  rintro ⟨st, hst, hon, -⟩
  rw [hoff] at hst
  rcases List.mem_pair.mp hst with h | h
  · rw [(Prod.mk.inj h).2] at hon
    simp [Standing.off] at hon
  · simp at h

theorem reminder_truthful_lapse : ∃ i < 4, (lapse i).now + fromSecs 1800 = (lapse 4).now ∧
    (∃ first ∈ (result lapse i).events, first.key = some (1, .cpu) ∧ first.repeatAfter = none) ∧
    ((∀ m, i ≤ m → m ≤ 4 → (before lapse m).AtBar (lapse m) (1, .cpu)) ↔
      ∀ m, i < m → m < 4 → (before lapse m).Judged (lapse m) (1, .cpu)) := by
  obtain ⟨ev, hev, hkey, hrepeat⟩ := lapse_reminds
  exact reminder_truthful_iff hev hkey hrepeat

/-- The reminder of `lapse` speaks of half an hour during which the rule was off. -/
theorem lapse_untruthful :
    ¬ ∀ x : ℕ → Input, (Monotone fun n => (x n).now) → ∀ n ev k elapsed,
      ev ∈ (result x n).events → ev.key = some k → ev.repeatAfter = some elapsed →
      ∃ i ≤ n, (x i).now + elapsed = (x n).now ∧
        (∃ first ∈ (result x i).events, first.key = some k ∧ first.repeatAfter = none) ∧
        ∀ m, i ≤ m → m ≤ n → (before x m).AtBar (x m) k := by
  intro h
  obtain ⟨ev, hev, hkey, hrepeat⟩ := lapse_reminds
  obtain ⟨i, hi, hnow, -, hbar⟩ := h lapse lapse_mono 4 ev (1, .cpu) _ hev hkey hrepeat
  have hi2 : i ≤ 2 := by
    by_contra hlate
    have hlate := lapse_mono (show 3 ≤ i by omega)
    simp only [lapse, fromSecs] at hlate hnow
    omega
  exact lapse_off (hbar 2 hi2 (by omega))

end Lapse

end Zstats
