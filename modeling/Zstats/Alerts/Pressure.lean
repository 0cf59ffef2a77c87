import Zstats.Alerts.Sections

namespace Zstats

open AlertEngine

/-- The threshold and the level of an evaluation that reaches the pressure rule. -/
def AlertEngine.Input.reading (i : Input) : Option (ℕ × ℕ) :=
  i.active.pressure.bind fun threshold =>
    i.snapshot.memory.pressureLevel.map fun level => (threshold, level)

namespace PressureState

/-- The state once a level above normal was read, before anything is notified. -/
def above (p : PressureState) (now : ℕ) : PressureState :=
  { p with pressureNormalSince := none, pressureSince := some (p.pressureSince.getD now) }

/-- A dip that has lasted long enough to end the episode. -/
def rearmed (p : PressureState) (now : ℕ) : Prop :=
  pressureRearm ≤ durationSince now (p.pressureNormalSince.getD now)

def escalates (p : PressureState) (now threshold level : ℕ) : Prop :=
  threshold ≤ level ∧ p.pressureAlerted < level ∧
    requiredSpan level ≤ durationSince now (p.pressureSince.getD now)

def overdue (p : PressureState) (now threshold level : ℕ) : Prop :=
  threshold ≤ level ∧ 0 < p.pressureAlerted ∧
    ∃ last, p.pressureLastAlert = some last ∧ p.pressureReminderGap ≤ durationSince now last

variable {p : PressureState} {now threshold level : ℕ}

theorem read_rearmed (hlevel : level ≤ 1) (h : p.rearmed now) :
    readPressure p now threshold level = (.cleared, none) := by
  rw [rearmed] at h
  simp [readPressure, hlevel, h]

theorem read_dip (hlevel : level ≤ 1) (h : ¬ p.rearmed now) :
    readPressure p now threshold level =
      ({ p with pressureNormalSince := some (p.pressureNormalSince.getD now) }, none) := by
  rw [rearmed] at h
  simp [readPressure, hlevel, h]

theorem read_escalates (hlevel : 1 < level) (h : p.escalates now threshold level) :
    readPressure p now threshold level =
      ({ p.above now with
        pressureAlerted := level
        pressureReminderGap := persistReminder
        pressureFirstAlert := some (p.pressureFirstAlert.getD now)
        pressureLastAlert := some now },
        some (none, durationSince now (p.pressureSince.getD now))) := by
  rw [readPressure]
  rw [if_neg (not_le.mpr hlevel)]
  exact if_pos h

theorem read_overdue (hlevel : 1 < level) (hesc : ¬ p.escalates now threshold level)
    (h : p.overdue now threshold level) :
    readPressure p now threshold level =
      ({ p.above now with
        pressureReminderGap := min (p.pressureReminderGap * 2) pressureReminderMax
        pressureLastAlert := some now },
        some (p.pressureFirstAlert.map fun first => durationSince now first,
          durationSince now (p.pressureSince.getD now))) := by
  obtain ⟨hthreshold, halerted, last, hlast, hgap⟩ := h
  rw [readPressure]
  rw [if_neg (not_le.mpr hlevel)]
  apply (if_neg hesc).trans
  apply if_pos
  exact ⟨hthreshold, halerted, by simp [hlast, hgap]⟩

theorem read_quiet (hlevel : 1 < level) (hesc : ¬ p.escalates now threshold level)
    (h : ¬ p.overdue now threshold level) :
    readPressure p now threshold level = (p.above now, none) := by
  rw [readPressure]
  rw [if_neg (not_le.mpr hlevel)]
  apply (if_neg hesc).trans
  apply if_neg
  intro ⟨hthreshold, halerted, hlast⟩
  obtain ⟨last, hsome, hgap⟩ := (Option.any_eq_true _ _).mp hlast
  exact h ⟨hthreshold, halerted, last, hsome, of_decide_eq_true hgap⟩

end PressureState

theorem AlertEvent.key_kind {ev : AlertEvent} {k : Key} (h : ev.key = some k) : ev.kind = k.2 := by
  rw [AlertEvent.key] at h
  split at h
  · rw [← Option.some.inj h]
  · rw [← Option.some.inj h]
  · simp at h

def AlertEvent.isPressure (ev : AlertEvent) : Bool := decide (ev.kind = .pressure)

theorem AlertEngine.step_pressure (e : AlertEngine) (i : Input) :
    (e.step i).1.pressure = (evaluatePressure e.pressure i.now i.snapshot i.active).1 := by
  unfold step evaluate
  cases i.snapshot.processes <;> rfl

theorem AlertEngine.step_pressureEvents (e : AlertEngine) (i : Input) :
    (e.step i).2.events.filter AlertEvent.isPressure =
      (evaluatePressure e.pressure i.now i.snapshot i.active).2 := by
  have hdisk : ∀ ev ∈ (evaluateDisks e.diskDisarmed i.snapshot.disks i.active).2,
      ¬ ev.isPressure = true := fun ev hev => by
    simp [AlertEvent.isPressure, (evaluateDisks_kind hev).2]
  have hpressure : ∀ ev ∈ (evaluatePressure e.pressure i.now i.snapshot i.active).2,
      ev.isPressure = true := fun ev hev => by
    simp [AlertEvent.isPressure, (evaluatePressure_kind hev).2]
  have hsection : ∀ app episodes, ∀ ev ∈ (e.runSection i app episodes).2,
      ¬ ev.isPressure = true := by
    intro app episodes ev hev
    obtain ⟨k, hkey, -, hkind⟩ := e.runSection_event i hev
    simp [AlertEvent.isPressure, AlertEvent.key_kind hkey, hkind]
  rw [step_events, List.filter_append, List.filter_append, List.filter_append,
    List.filter_eq_nil_iff.mpr hdisk, List.filter_eq_self.mpr hpressure,
    List.filter_eq_nil_iff.mpr (hsection _ _), List.filter_eq_nil_iff.mpr (hsection _ _)]
  simp

namespace AlertEngine

section Run

variable (x : ℕ → Input) (n : ℕ)

def pressureEvents : List AlertEvent := (result x n).events.filter AlertEvent.isPressure

/-- Evaluation `n` reads a normal level with the rule on. -/
def Normal : Prop := ∃ threshold level, (x n).reading = some (threshold, level) ∧ level ≤ 1

def Above : Prop := ∃ threshold level, (x n).reading = some (threshold, level) ∧ 1 < level

/-- Evaluation `n` executes `clear_pressure`. -/
def Clears : Prop := Normal x n ∧ (before x n).pressure.rearmed (x n).now

instance : Decidable (Normal x n) :=
  decidable_of_iff ((x n).reading.any fun r => decide (r.2 ≤ 1)) <| by
    simp [Normal, Option.any_eq_true]

instance : Decidable (Clears x n) :=
  inferInstanceAs (Decidable (Normal x n ∧ pressureRearm ≤ durationSince (x n).now
    ((before x n).pressure.pressureNormalSince.getD (x n).now)))

/-- What one evaluation does to the pressure rule. -/
theorem pressure_cases :
    ((x n).reading = none ∧ (before x (n + 1)).pressure = (before x n).pressure ∧
      pressureEvents x n = []) ∨
    ∃ threshold level, (x n).reading = some (threshold, level) ∧
      (before x (n + 1)).pressure =
        (readPressure (before x n).pressure (x n).now threshold level).1 ∧
      pressureEvents x n =
        (readPressure (before x n).pressure (x n).now threshold level).2.toList.map fun r =>
          pressureEvent (x n).snapshot level r.2 r.1 := by
  have hstate := step_pressure (before x n) (x n)
  have hevents := step_pressureEvents (before x n) (x n)
  rw [Input.reading]
  unfold evaluatePressure at hstate hevents
  cases hthreshold : (x n).active.pressure with
  | none =>
    rw [hthreshold] at hstate hevents
    exact Or.inl ⟨rfl, hstate, hevents⟩
  | some threshold =>
    cases hlevel : (x n).snapshot.memory.pressureLevel with
    | none =>
      rw [hthreshold, hlevel] at hstate hevents
      exact Or.inl ⟨rfl, hstate, hevents⟩
    | some level =>
      rw [hthreshold, hlevel] at hstate hevents
      exact Or.inr ⟨threshold, level, rfl, hstate, hevents⟩

variable {x n}

theorem not_normal_above (hn : Normal x n) (ha : Above x n) : False := by
  obtain ⟨t, l, hread, hlevel⟩ := hn
  obtain ⟨t', l', hread', hlevel'⟩ := ha
  rw [hread, Option.some.injEq, Prod.mk.injEq] at hread'
  omega

theorem pressure_clear (h : Clears x n) :
    (before x (n + 1)).pressure = .cleared ∧ pressureEvents x n = [] := by
  obtain ⟨⟨t, l, hread, hlevel⟩, hrearmed⟩ := h
  rcases pressure_cases x n with ⟨hnone, -⟩ | ⟨t', l', hread', hstate, hevents⟩
  · simp [hread] at hnone
  rw [hread, Option.some.injEq, Prod.mk.injEq] at hread'
  obtain ⟨rfl, rfl⟩ := hread'
  rw [PressureState.read_rearmed hlevel hrearmed] at hstate hevents
  exact ⟨hstate, hevents⟩

theorem pressure_dip (hn : Normal x n) (hc : ¬ Clears x n) :
    (before x (n + 1)).pressure = { (before x n).pressure with
      pressureNormalSince := some ((before x n).pressure.pressureNormalSince.getD (x n).now) } ∧
    pressureEvents x n = [] := by
  have hrearmed : ¬ (before x n).pressure.rearmed (x n).now := fun h => hc ⟨hn, h⟩
  obtain ⟨t, l, hread, hlevel⟩ := hn
  rcases pressure_cases x n with ⟨hnone, -⟩ | ⟨t', l', hread', hstate, hevents⟩
  · simp [hread] at hnone
  rw [hread, Option.some.injEq, Prod.mk.injEq] at hread'
  obtain ⟨rfl, rfl⟩ := hread'
  rw [PressureState.read_dip hlevel hrearmed] at hstate hevents
  exact ⟨hstate, hevents⟩

theorem pressure_skip (hn : ¬ Normal x n) (ha : ¬ Above x n) :
    (before x (n + 1)).pressure = (before x n).pressure ∧ pressureEvents x n = [] := by
  rcases pressure_cases x n with ⟨-, hstate, hevents⟩ | ⟨t, l, hread, -⟩
  · exact ⟨hstate, hevents⟩
  · rcases Nat.lt_or_ge 1 l with h | h
    · exact absurd ⟨t, l, hread, h⟩ ha
    · exact absurd ⟨t, l, hread, h⟩ hn

/-- Above normal the rule announces a new severity, reminds, or stays silent. -/
theorem pressure_above {threshold level : ℕ} (hread : (x n).reading = some (threshold, level))
    (hlevel : 1 < level) :
    let p := (before x n).pressure
    let sustained := durationSince (x n).now (p.pressureSince.getD (x n).now)
    (p.escalates (x n).now threshold level ∧
      (before x (n + 1)).pressure = { p.above (x n).now with
        pressureAlerted := level
        pressureReminderGap := persistReminder
        pressureFirstAlert := some (p.pressureFirstAlert.getD (x n).now)
        pressureLastAlert := some (x n).now } ∧
      pressureEvents x n = [pressureEvent (x n).snapshot level sustained none]) ∨
    (¬ p.escalates (x n).now threshold level ∧ p.overdue (x n).now threshold level ∧
      (before x (n + 1)).pressure = { p.above (x n).now with
        pressureReminderGap := min (p.pressureReminderGap * 2) pressureReminderMax
        pressureLastAlert := some (x n).now } ∧
      pressureEvents x n = [pressureEvent (x n).snapshot level sustained
        (p.pressureFirstAlert.map fun first => durationSince (x n).now first)]) ∨
    (¬ p.escalates (x n).now threshold level ∧ ¬ p.overdue (x n).now threshold level ∧
      (before x (n + 1)).pressure = p.above (x n).now ∧ pressureEvents x n = []) := by
  intro p sustained
  rcases pressure_cases x n with ⟨hnone, -⟩ | ⟨t, l, hread', hstate, hevents⟩
  · simp [hread] at hnone
  rw [hread, Option.some.injEq, Prod.mk.injEq] at hread'
  obtain ⟨rfl, rfl⟩ := hread'
  by_cases hesc : p.escalates (x n).now threshold level
  · rw [PressureState.read_escalates hlevel hesc] at hstate hevents
    exact Or.inl ⟨hesc, hstate, hevents⟩
  · by_cases hdue : p.overdue (x n).now threshold level
    · rw [PressureState.read_overdue hlevel hesc hdue] at hstate hevents
      exact Or.inr (Or.inl ⟨hesc, hdue, hstate, hevents⟩)
    · rw [PressureState.read_quiet hlevel hesc hdue] at hstate hevents
      exact Or.inr (Or.inr ⟨hesc, hdue, hstate, hevents⟩)

theorem pressureNormalSince_above (h : Above x n) :
    (before x (n + 1)).pressure.pressureNormalSince = none := by
  obtain ⟨t, l, hread, hlevel⟩ := h
  rcases pressure_above hread hlevel with ⟨-, hstate, -⟩ | ⟨-, -, hstate, -⟩ | ⟨-, -, hstate, -⟩
  all_goals rw [hstate]; rfl

theorem pressureSince_above (h : Above x n) :
    (before x (n + 1)).pressure.pressureSince =
      some ((before x n).pressure.pressureSince.getD (x n).now) := by
  obtain ⟨t, l, hread, hlevel⟩ := h
  rcases pressure_above hread hlevel with ⟨-, hstate, -⟩ | ⟨-, -, hstate, -⟩ | ⟨-, -, hstate, -⟩
  all_goals rw [hstate]; rfl

/-- The episode began at a level above normal and has not ended since. -/
theorem pressure_since {since : ℕ} (h : (before x n).pressure.pressureSince = some since) :
    ∃ i < n, (Above x i ∧ (x i).now = since) ∧ ∀ m, i < m → m < n → ¬ Clears x m := by
  refine Machine.stateAt_since (Q := fun e : AlertEngine =>
    e.pressure.pressureSince = some since) (by simp [new, PressureState.cleared]) ?_ h
  intro m hm
  change (before x (m + 1)).pressure.pressureSince = some since at hm
  by_cases hc : Clears x m
  · rw [(pressure_clear hc).1] at hm
    simp [PressureState.cleared] at hm
  by_cases ha : Above x m
  · rw [pressureSince_above ha, Option.some.injEq] at hm
    cases hp : (before x m).pressure.pressureSince with
    | none =>
      rw [hp] at hm
      exact Or.inl ⟨ha, hm⟩
    | some s =>
      rw [hp] at hm
      exact Or.inr ⟨hm ▸ hp, hc⟩
  · right
    refine ⟨?_, hc⟩
    by_cases hn : Normal x m
    · rw [(pressure_dip hn hc).1] at hm
      exact hm
    · rw [(pressure_skip hn ha).1] at hm
      exact hm

/-- A dip began at a normal level, and since then nothing above normal was read. -/
theorem dip_since {since : ℕ} (h : (before x n).pressure.pressureNormalSince = some since) :
    ∃ i < n, (Normal x i ∧ ¬ Clears x i ∧ (x i).now = since) ∧
      ∀ m, i < m → m < n → ¬ Above x m ∧ ¬ Clears x m := by
  refine Machine.stateAt_since (Q := fun e : AlertEngine =>
    e.pressure.pressureNormalSince = some since) (by simp [new, PressureState.cleared]) ?_ h
  intro m hm
  change (before x (m + 1)).pressure.pressureNormalSince = some since at hm
  by_cases hc : Clears x m
  · rw [(pressure_clear hc).1] at hm
    simp [PressureState.cleared] at hm
  by_cases ha : Above x m
  · rw [pressureNormalSince_above ha] at hm
    simp at hm
  by_cases hn : Normal x m
  · rw [(pressure_dip hn hc).1, Option.some.injEq] at hm
    cases hp : (before x m).pressure.pressureNormalSince with
    | none =>
      rw [hp] at hm
      exact Or.inl ⟨hn, hc, hm⟩
    | some s =>
      rw [hp] at hm
      exact Or.inr ⟨hm ▸ hp, ha, hc⟩
  · rw [(pressure_skip hn ha).1] at hm
    exact Or.inr ⟨hm, ha, hc⟩

/-- A dip that nothing ends is timed from no later than any of its normal levels. -/
theorem dip_from (hmono : Monotone fun n => (x n).now) {i : ℕ} (hi : i < n) (hn : Normal x i)
    (hkept : ∀ m, i ≤ m → m < n → ¬ Above x m ∧ ¬ Clears x m) :
    ∃ since ≤ (x i).now, (before x n).pressure.pressureNormalSince = some since := by
  obtain ⟨since, hle, hstart⟩ : ∃ since ≤ (x i).now,
      (before x (i + 1)).pressure.pressureNormalSince = some since := by
    refine ⟨(before x i).pressure.pressureNormalSince.getD (x i).now, ?_, ?_⟩
    · cases hp : (before x i).pressure.pressureNormalSince with
      | none => exact le_rfl
      | some s =>
        obtain ⟨j, hj, ⟨-, -, rfl⟩, -⟩ := dip_since hp
        exact hmono hj.le
    · rw [(pressure_dip hn (hkept i le_rfl hi).2).1]
  refine ⟨since, hle, ?_⟩
  refine Machine.stateAt_from (P := fun m (e : AlertEngine) => m ≤ n →
    e.pressure.pressureNormalSince = some since) (fun _ => hstart) ?_ hi le_rfl
  intro m him hm hmn
  obtain ⟨ha, hc⟩ := hkept m (by omega) (by omega)
  have hm : (before x m).pressure.pressureNormalSince = some since := hm (by omega)
  change (before x (m + 1)).pressure.pressureNormalSince = some since
  by_cases hn : Normal x m
  · rw [(pressure_dip hn hc).1, hm]
    rfl
  · rw [(pressure_skip hn ha).1, hm]

end Run

end AlertEngine

end Zstats
