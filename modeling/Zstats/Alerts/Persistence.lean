import Zstats.Alerts.PressureEpisode

namespace Zstats.AlertEngine

/-- From `i` to `j` the rule is on and no level above normal is read, and at both ends one is
read. -/
structure Dip (x : ℕ → Input) (i j : ℕ) : Prop where
  on : ∀ k, i ≤ k → k ≤ j → (x k).active.pressure ≠ none
  normal : ∀ k, i ≤ k → k ≤ j → ∀ level, (x k).snapshot.memory.pressureLevel = some level → level ≤ 1
  first : (x i).snapshot.memory.pressureLevel ≠ none
  last : (x j).snapshot.memory.pressureLevel ≠ none

theorem normal_of_read {x : ℕ → Input} {n : ℕ} (hon : (x n).active.pressure ≠ none)
    (hread : (x n).snapshot.memory.pressureLevel ≠ none)
    (hnormal : ∀ level, (x n).snapshot.memory.pressureLevel = some level → level ≤ 1) :
    Normal x n := by
  obtain ⟨threshold, hthreshold⟩ := Option.ne_none_iff_exists'.mp hon
  obtain ⟨level, hlevel⟩ := Option.ne_none_iff_exists'.mp hread
  refine ⟨threshold, level, ?_, hnormal level hlevel⟩
  rw [Input.reading, hthreshold, hlevel]
  rfl

theorem level_of_above {x : ℕ → Input} {n : ℕ} (h : Above x n) :
    ∃ level, (x n).snapshot.memory.pressureLevel = some level ∧ 1 < level := by
  obtain ⟨threshold, level, hread, hlevel⟩ := h
  rw [Input.reading] at hread
  cases hon : (x n).active.pressure with
  | none => simp [hon] at hread
  | some t =>
    simp only [hon, Option.bind_some, Option.map_eq_some_iff, Prod.mk.injEq] at hread
    obtain ⟨l, hl, -, rfl⟩ := hread
    exact ⟨l, hl, hlevel⟩

/-- News needs a level above normal that was read the required span ago, and from then on only
dips that are shorter than `pressureRearm`. -/
theorem pressure_news_persists (x : ℕ → Input) (hmono : Monotone fun n => (x n).now) {n : ℕ}
    {ev : AlertEvent} (hev : ev ∈ pressureEvents x n) (hnews : ev.repeatAfter = none) :
    ∃ m ≤ n, Above x m ∧ (x m).now + requiredSpan ev.pressureLevel ≤ (x n).now ∧
      ∀ i j, m ≤ i → i ≤ j → j ≤ n → Dip x i j → (x j).now < (x i).now + pressureRearm := by
  obtain ⟨threshold, level, hread, hlevel⟩ := above_of_event hev
  have hspan : requiredSpan level ≤
      durationSince (x n).now ((before x n).pressure.pressureSince.getD (x n).now) ∧
      ev.pressureLevel = level := by
    rcases pressure_above hread hlevel with
      ⟨hesc, -, hevents⟩ | ⟨-, hdue, -, hevents⟩ | ⟨-, -, -, hevents⟩
    · rw [hevents, List.mem_singleton] at hev
      exact ⟨hesc.2.2, by rw [hev]; rfl⟩
    · have hfirst := (pulse x n).first
      rw [List.getLast?_eq_some_getLast (episode_ne_nil hdue), Option.map_some] at hfirst
      rw [hevents, List.mem_singleton] at hev
      simp [hev, pressureEvent, hfirst] at hnews
    · simp [hevents] at hev
  obtain ⟨hspan, hev⟩ := hspan
  have hpos : 0 < requiredSpan level := by
    unfold requiredSpan
    split_ifs <;> decide
  cases hp : (before x n).pressure.pressureSince with
  | none =>
    rw [hp, Option.getD_none, durationSince] at hspan
    omega
  | some since =>
    rw [hp, Option.getD_some, durationSince] at hspan
    obtain ⟨m, hm, ⟨habove, htime⟩, hkept⟩ := pressure_since hp
    have hclear : ∀ i, m ≤ i → i ≤ n → ¬ Clears x i := by
      intro i hmi hin hc
      rcases hmi.eq_or_lt with rfl | hmi
      · exact not_normal_above hc.1 habove
      · rcases hin.eq_or_lt with rfl | hin
        · exact not_normal_above hc.1 ⟨threshold, level, hread, hlevel⟩
        · exact hkept i hmi hin hc
    refine ⟨m, hm.le, habove, by rw [hev]; omega, ?_⟩
    intro i j hmi hij hjn hdip
    by_contra hlong
    rw [not_lt] at hlong
    have hni : Normal x i := normal_of_read (hdip.on i le_rfl hij) hdip.first
      (hdip.normal i le_rfl hij)
    have hnj : Normal x j := normal_of_read (hdip.on j hij le_rfl) hdip.last
      (hdip.normal j hij le_rfl)
    apply hclear j (hmi.trans hij) hjn
    refine (clears_iff hmono).mpr ⟨hnj, i, hij, hni, hlong, ?_⟩
    intro k hik hkj
    refine ⟨?_, hclear k (hmi.trans hik) (hkj.le.trans hjn)⟩
    intro hk
    obtain ⟨l, hl, hlt⟩ := level_of_above hk
    have hle := hdip.normal k hik hkj.le l hl
    omega

section Dips

/-- Warning at the start, normal after 100 seconds, warning again after 300. -/
def dips (n : ℕ) : Input :=
  match n with
  | 0 => .ofLevel 0 .warning 2
  | 1 => .ofLevel 100 .warning 1
  | _ => .ofLevel 300 .warning 2

theorem dips_mono : Monotone fun n => (dips n).now := by
  apply monotone_nat_of_le_succ
  intro n
  match n with
  | 0 | 1 => decide
  | n + 2 => exact le_rfl

theorem dips_news : ∃ ev ∈ pressureEvents dips 2, ev.repeatAfter = none ∧ ev.pressureLevel = 2 := by
  decide

theorem pressure_news_persists_dips : ∃ m ≤ 2, Above dips m ∧
    (dips m).now + requiredSpan 2 ≤ (dips 2).now ∧
    ∀ i j, m ≤ i → i ≤ j → j ≤ 2 → Dip dips i j → (dips j).now < (dips i).now + pressureRearm := by
  obtain ⟨ev, hev, hnews, hlevel⟩ := dips_news
  have h := pressure_news_persists dips dips_mono hev hnews
  rwa [hlevel] at h

/-- News after 300 seconds although the level was back to normal in between. -/
theorem dips_not_contiguous :
    ¬ ∀ x : ℕ → Input, (Monotone fun n => (x n).now) → ∀ n, ∀ ev ∈ pressureEvents x n,
      ev.repeatAfter = none → episode x n = [] →
      ∃ m ≤ n, (x m).now + requiredSpan ev.pressureLevel ≤ (x n).now ∧
        (∃ level, (x m).snapshot.memory.pressureLevel = some level ∧ 1 < level) ∧
        ∀ i, m ≤ i → i ≤ n → ∀ level, (x i).snapshot.memory.pressureLevel = some level →
          1 < level := by
  intro h
  obtain ⟨ev, hev, hnews, hlevel⟩ := dips_news
  obtain ⟨m, hm, hspan, -, habove⟩ :=
    h dips dips_mono 2 ev hev hnews (by decide)
  have hzero : m ≤ 1 := by
    by_contra hlate
    have hle : (dips 2).now ≤ (dips m).now := dips_mono (show 2 ≤ m by omega)
    have hpos : 0 < requiredSpan 2 := by decide
    rw [hlevel] at hspan
    omega
  have hdip := habove 1 hzero (by omega) 1 rfl
  omega

end Dips

end Zstats.AlertEngine
