import Zstats.Alerts.Pressure

namespace Zstats

/-- One notification: news where `repeatAfter` is `none`, a reminder otherwise. -/
structure Told where
  time : ℕ
  level : ℕ
  repeatAfter : Option ℕ
  deriving DecidableEq, Repr

namespace Told

def isNews (t : Told) : Bool := t.repeatAfter.isNone

/-- The reminders since the last news, in a log whose newest entry comes first. -/
def reminders (log : List Told) : ℕ := (log.takeWhile fun t => !t.isNews).length

end Told

open Told

def AlertEvent.pressureLevel (ev : AlertEvent) : ℕ :=
  match ev.detail with
  | .pressure detail => detail.level
  | _ => 0

/-- The gap before the reminder that follows `k` others. -/
def reminderGap (k : ℕ) : ℕ := min (persistReminder * 2 ^ k) pressureReminderMax

theorem reminderGap_pos (k : ℕ) : 0 < reminderGap k :=
  lt_min (Nat.mul_pos (by decide) (Nat.two_pow_pos k)) (by decide)

theorem reminderGap_succ (k : ℕ) :
    min (reminderGap k * 2) pressureReminderMax = reminderGap (k + 1) := by
  unfold reminderGap
  rw [pow_succ, ← mul_assoc]
  omega

/-- The state of the pressure rule sums up what was told in the episode. -/
structure Pulse (p : PressureState) (log : List Told) : Prop where
  first : p.pressureFirstAlert = log.getLast?.map Told.time
  last : p.pressureLastAlert = log.head?.map Told.time
  silent : log = [] → p.pressureAlerted = 0
  opened : log ≠ [] → 0 < p.pressureAlerted
  gap : log ≠ [] → p.pressureReminderGap = reminderGap (reminders log)
  highest : ∀ t ∈ log, t.isNews = true → t.level ≤ p.pressureAlerted
  rising : (log.filter isNews).Pairwise fun later earlier => earlier.level < later.level

namespace Pulse

theorem cleared : Pulse .cleared [] :=
  ⟨rfl, rfl, fun _ => rfl, by simp, by simp, by simp, by simp⟩

variable {p : PressureState} {log : List Told}

/-- The rule's two clocks are no part of the sum. -/
theorem congr (h : Pulse p log) (since normalSince : Option ℕ) :
    Pulse { p with pressureSince := since, pressureNormalSince := normalSince } log :=
  ⟨h.first, h.last, h.silent, h.opened, h.gap, h.highest, h.rising⟩

theorem getLast_time (log : List Told) (t : Told) :
    (t :: log).getLast?.map Told.time = some ((log.getLast?.map Told.time).getD t.time) := by
  cases log with
  | nil => rfl
  | cons u log =>
    rw [List.getLast?_cons_cons, List.getLast?_eq_some_getLast (by simp)]
    rfl

theorem news (h : Pulse p log) {now level : ℕ} (hlevel : p.pressureAlerted < level) :
    Pulse { p with
      pressureAlerted := level
      pressureReminderGap := persistReminder
      pressureFirstAlert := some (p.pressureFirstAlert.getD now)
      pressureLastAlert := some now } (⟨now, level, none⟩ :: log) where
  first := by
    rw [getLast_time, h.first]
  last := rfl
  silent := by simp
  opened _ := by
    change 0 < level
    omega
  gap _ := by simp [reminders, isNews, reminderGap]; decide
  highest t ht hnews := by
    rcases List.mem_cons.mp ht with rfl | ht
    · exact le_rfl
    · exact (h.highest t ht hnews).trans hlevel.le
  rising := by
    rw [List.filter_cons_of_pos rfl, List.pairwise_cons]
    refine ⟨?_, h.rising⟩
    intro t ht
    obtain ⟨ht, hnews⟩ := List.mem_filter.mp ht
    exact (h.highest t ht hnews).trans_lt hlevel

theorem remind (h : Pulse p log) {now level elapsed : ℕ} (hlog : log ≠ []) :
    Pulse { p with
      pressureReminderGap := min (p.pressureReminderGap * 2) pressureReminderMax
      pressureLastAlert := some now } (⟨now, level, some elapsed⟩ :: log) where
  first := by
    have hlast := List.getLast?_eq_some_getLast hlog
    rw [getLast_time, hlast]
    exact h.first.trans (by rw [hlast, Option.map_some, Option.getD_some])
  last := rfl
  silent := by simp
  opened _ := h.opened hlog
  gap _ := by
    change min (p.pressureReminderGap * 2) pressureReminderMax = _
    rw [h.gap hlog, reminderGap_succ]
    simp [reminders, isNews]
  highest t ht hnews := by
    rcases List.mem_cons.mp ht with rfl | ht
    · simp [isNews] at hnews
    · exact h.highest t ht hnews
  rising := by
    rw [List.filter_cons_of_neg (by simp [isNews])]
    exact h.rising

end Pulse

namespace AlertEngine

section Run

variable (x : ℕ → Input)

/-- What was told before evaluation `n` in the episode then running, newest first. -/
def episode : ℕ → List Told
  | 0 => []
  | n + 1 =>
    if Clears x n then []
    else (pressureEvents x n).reverse.map
      (fun ev => ⟨(x n).now, ev.pressureLevel, ev.repeatAfter⟩) ++ episode n

/-- The law of an episode, at one evaluation. -/
structure NotificationLaw (n : ℕ) : Prop where
  /-- No severity is announced twice as news. -/
  rising : ((episode x n).filter isNews).Pairwise fun later earlier => earlier.level < later.level
  /-- A reminder waits for the doubled gap since the last notification. -/
  spaced : ∀ ev ∈ pressureEvents x n, ev.repeatAfter.isSome = true →
    ∃ last, (episode x n).head? = some last ∧
      last.time + reminderGap (reminders (episode x n)) ≤ (x n).now
  /-- Once the gap has passed the rule notifies, of a higher level if there is one. -/
  prompt : ∀ threshold level last, (x n).reading = some (threshold, level) →
    threshold ≤ level → (episode x n).head? = some last →
    last.time + reminderGap (reminders (episode x n)) ≤ (x n).now →
    ∃ ev, pressureEvents x n = [ev] ∧ (ev.repeatAfter.isSome = true ∨
      ∀ t ∈ episode x n, t.isNews = true → t.level < ev.pressureLevel)
  /-- A reminder tells the time since the first notification of the episode. -/
  measured : ∀ ev ∈ pressureEvents x n, ∀ elapsed, ev.repeatAfter = some elapsed →
    ∃ first, (episode x n).getLast? = some first ∧ first.time + elapsed = (x n).now
  /-- The episode ends at a normal level that is `pressureRearm` after another one, with nothing
  above normal and no other end in between. -/
  rearmed : Clears x n ↔ Normal x n ∧ ∃ m ≤ n, Normal x m ∧
    (x m).now + pressureRearm ≤ (x n).now ∧ ∀ j, m ≤ j → j < n → ¬ Above x j ∧ ¬ Clears x j

variable {x}

theorem pulse (x : ℕ → Input) (n : ℕ) : Pulse (before x n).pressure (episode x n) := by
  induction n with
  | zero => exact .cleared
  | succ n ih =>
    by_cases hc : Clears x n
    · rw [(pressure_clear hc).1, episode, if_pos hc]
      exact .cleared
    rw [episode, if_neg hc]
    by_cases hn : Normal x n
    · obtain ⟨hstate, hevents⟩ := pressure_dip hn hc
      rw [hstate, hevents]
      exact ih.congr _ _
    by_cases ha : Above x n
    · obtain ⟨t, l, hread, hlevel⟩ := ha
      rcases pressure_above hread hlevel with
        ⟨hesc, hstate, hevents⟩ | ⟨-, hdue, hstate, hevents⟩ | ⟨-, -, hstate, hevents⟩
      · rw [hstate, hevents]
        exact (ih.congr _ _).news hesc.2.1
      · rw [hstate, hevents]
        have hlog : episode x n ≠ [] := by
          intro h
          have := ih.silent h
          have := hdue.2.1
          omega
        have hfirst := ih.first
        rw [List.getLast?_eq_some_getLast hlog, Option.map_some] at hfirst
        rw [hfirst]
        exact (ih.congr _ _).remind hlog
      · rw [hstate, hevents]
        exact ih.congr _ _
    · obtain ⟨hstate, hevents⟩ := pressure_skip hn ha
      rw [hstate, hevents]
      exact ih

theorem episode_time {n : ℕ} {t : Told} (ht : t ∈ episode x n) : ∃ i < n, t.time = (x i).now := by
  induction n with
  | zero => simp [episode] at ht
  | succ n ih =>
    rw [episode] at ht
    split_ifs at ht with hc
    · simp at ht
    rcases List.mem_append.mp ht with ht | ht
    · obtain ⟨ev, -, rfl⟩ := List.mem_map.mp ht
      exact ⟨n, n.lt_succ_self, rfl⟩
    · obtain ⟨i, hi, h⟩ := ih ht
      exact ⟨i, Nat.lt_succ_of_lt hi, h⟩

variable {n : ℕ} {ev : AlertEvent}

/-- Only a level above normal notifies. -/
theorem above_of_event (hev : ev ∈ pressureEvents x n) :
    ∃ threshold level, (x n).reading = some (threshold, level) ∧ 1 < level := by
  by_contra ha
  by_cases hc : Clears x n
  · simp [(pressure_clear hc).2] at hev
  by_cases hn : Normal x n
  · simp [(pressure_dip hn hc).2] at hev
  · simp [(pressure_skip hn ha).2] at hev

theorem episode_ne_nil {threshold level : ℕ}
    (h : (before x n).pressure.overdue (x n).now threshold level) : episode x n ≠ [] := by
  intro hnil
  have hzero := (pulse x n).silent hnil
  have hpos := h.2.1
  omega

/-- The rule is overdue when the gap has passed since the last notification. -/
theorem overdue_iff {threshold level : ℕ} {last : Told} (hlast : (episode x n).head? = some last) :
    (before x n).pressure.overdue (x n).now threshold level ↔
      threshold ≤ level ∧ last.time + reminderGap (reminders (episode x n)) ≤ (x n).now := by
  have hne : episode x n ≠ [] := by
    intro h
    simp [h] at hlast
  have htime := (pulse x n).last
  have hgap := (pulse x n).gap hne
  have hpos := reminderGap_pos (reminders (episode x n))
  rw [hlast, Option.map_some] at htime
  unfold PressureState.overdue
  rw [htime, hgap]
  simp only [durationSince]
  constructor
  · intro h
    obtain ⟨hthreshold, -, t, ht, hle⟩ := h
    rw [← Option.some.inj ht] at hle
    exact ⟨hthreshold, by omega⟩
  · intro h
    obtain ⟨hthreshold, hle⟩ := h
    exact ⟨hthreshold, (pulse x n).opened hne, last.time, rfl, by omega⟩

theorem reminder_spaced (hev : ev ∈ pressureEvents x n) (hr : ev.repeatAfter.isSome = true) :
    ∃ last, (episode x n).head? = some last ∧
      last.time + reminderGap (reminders (episode x n)) ≤ (x n).now := by
  obtain ⟨t, l, hread, hlevel⟩ := above_of_event hev
  rcases pressure_above hread hlevel with
    ⟨-, -, hevents⟩ | ⟨-, hdue, -, -⟩ | ⟨-, -, -, hevents⟩
  · rw [hevents, List.mem_singleton] at hev
    simp [hev, pressureEvent] at hr
  · obtain ⟨last, hlast⟩ := Option.isSome_iff_exists.mp
      (List.isSome_head?.mpr (episode_ne_nil hdue))
    exact ⟨last, hlast, ((overdue_iff hlast).mp hdue).2⟩
  · simp [hevents] at hev

theorem reminder_prompt {threshold level : ℕ} {last : Told}
    (hread : (x n).reading = some (threshold, level)) (hlevel : 1 < level)
    (hthreshold : threshold ≤ level) (hlast : (episode x n).head? = some last)
    (hgap : last.time + reminderGap (reminders (episode x n)) ≤ (x n).now) :
    ∃ ev, pressureEvents x n = [ev] ∧ (ev.repeatAfter.isSome = true ∨
      ∀ t ∈ episode x n, t.isNews = true → t.level < ev.pressureLevel) := by
  have hdue : (before x n).pressure.overdue (x n).now threshold level :=
    (overdue_iff hlast).mpr ⟨hthreshold, hgap⟩
  rcases pressure_above hread hlevel with
    ⟨hesc, -, hevents⟩ | ⟨-, -, -, hevents⟩ | ⟨-, hquiet, -, -⟩
  · refine ⟨_, hevents, Or.inr ?_⟩
    intro t ht hnews
    exact ((pulse x n).highest t ht hnews).trans_lt hesc.2.1
  · refine ⟨_, hevents, Or.inl ?_⟩
    have hfirst := (pulse x n).first
    rw [List.getLast?_eq_some_getLast (episode_ne_nil hdue), Option.map_some] at hfirst
    simp [pressureEvent, hfirst]
  · exact absurd hdue hquiet

theorem reminder_measured (hmono : Monotone fun n => (x n).now) (hev : ev ∈ pressureEvents x n)
    {elapsed : ℕ} (hr : ev.repeatAfter = some elapsed) :
    ∃ first, (episode x n).getLast? = some first ∧ first.time + elapsed = (x n).now := by
  obtain ⟨t, l, hread, hlevel⟩ := above_of_event hev
  rcases pressure_above hread hlevel with
    ⟨-, -, hevents⟩ | ⟨-, hdue, -, hevents⟩ | ⟨-, -, -, hevents⟩
  · rw [hevents, List.mem_singleton] at hev
    simp [hev, pressureEvent] at hr
  · have hne := episode_ne_nil hdue
    have hfirst := (pulse x n).first
    have hlast := List.getLast?_eq_some_getLast hne
    rw [hlast, Option.map_some] at hfirst
    rw [hevents, List.mem_singleton] at hev
    simp only [hev, pressureEvent, hfirst, Option.map_some, Option.some.injEq,
      durationSince] at hr
    obtain ⟨i, hi, htime⟩ := episode_time (List.getLast_mem hne)
    have hle : (x i).now ≤ (x n).now := hmono hi.le
    exact ⟨_, hlast, by omega⟩
  · simp [hevents] at hev

theorem clears_iff (hmono : Monotone fun n => (x n).now) :
    Clears x n ↔ Normal x n ∧ ∃ m ≤ n, Normal x m ∧ (x m).now + pressureRearm ≤ (x n).now ∧
      ∀ j, m ≤ j → j < n → ¬ Above x j ∧ ¬ Clears x j := by
  have hpos : 0 < pressureRearm := by decide
  constructor
  · intro h
    refine ⟨h.1, ?_⟩
    have hlong := h.2
    unfold PressureState.rearmed durationSince at hlong
    cases hp : (before x n).pressure.pressureNormalSince with
    | none =>
      rw [hp, Option.getD_none] at hlong
      omega
    | some since =>
      rw [hp, Option.getD_some] at hlong
      obtain ⟨i, hi, ⟨hn, hc, htime⟩, hkept⟩ := dip_since hp
      refine ⟨i, hi.le, hn, by omega, ?_⟩
      intro j hij hjn
      rcases hij.eq_or_lt with rfl | hij
      · exact ⟨fun ha => not_normal_above hn ha, hc⟩
      · exact hkept j hij hjn
  · intro ⟨hn, m, hmn, hm, hlong, hkept⟩
    have hlt : m < n := by
      rcases hmn.eq_or_lt with rfl | hlt
      · omega
      · exact hlt
    obtain ⟨since, hsince, hp⟩ := dip_from hmono hlt hm hkept
    refine ⟨hn, ?_⟩
    unfold PressureState.rearmed durationSince
    rw [hp, Option.getD_some]
    omega

/-- The notification law holds at every evaluation of every run. -/
theorem pressure_notification_law (x : ℕ → Input) (hmono : Monotone fun n => (x n).now)
    (hrule : ∀ n, ∃ alert : PressureAlert, (x n).active.pressure = alert.level) (n : ℕ) :
    NotificationLaw x n where
  rising := (pulse x n).rising
  spaced ev hev hr := reminder_spaced hev hr
  prompt threshold level last hread hthreshold hlast hgap := by
    have hlevel : 1 < level := by
      obtain ⟨t, ht, hread⟩ := Option.bind_eq_some_iff.mp hread
      obtain ⟨l, -, hpair⟩ := Option.map_eq_some_iff.mp hread
      obtain ⟨alert, halert⟩ := hrule n
      rw [ht] at halert
      obtain rfl := (Prod.mk.inj hpair).1
      cases alert with
      | off => simp [PressureAlert.level] at halert
      | warning | critical =>
        simp only [PressureAlert.level, Option.some.injEq] at halert
        omega
    exact reminder_prompt hread hlevel hthreshold hlast hgap
  measured ev hev elapsed hr := reminder_measured hmono hev hr
  rearmed := clears_iff hmono

end Run

/-- A reading of the pressure rule and of nothing else. -/
def Input.ofLevel (secs : ℕ) (alert : PressureAlert) (level : ℕ) : Input :=
  let s := Zstats.snapshot [] 100
  { now := fromSecs secs
    snapshot := { s with memory := { s.memory with pressureLevel := some level } }
    active := { ActiveThresholds.off (fromSecs 600) with pressure := alert.level } }

/-- Warning, read every five minutes. -/
def siege (n : ℕ) : Input := .ofLevel (300 * n) .warning 2

theorem pressure_notification_law_siege :
    NotificationLaw siege 7 ∧ (pressureEvents siege 1).map (·.repeatAfter) = [none] ∧
      (pressureEvents siege 7).map (·.repeatAfter) = [some (fromSecs 1800)] := by
  have hmono : Monotone fun n => (siege n).now := by
    intro m n h
    change 300 * m * 1000000000 ≤ 300 * n * 1000000000
    omega
  have hlaw := pressure_notification_law siege hmono (fun n => ⟨.warning, rfl⟩) 7
  exact ⟨hlaw, by decide, by decide⟩

end AlertEngine

end Zstats
