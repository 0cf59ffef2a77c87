import Zstats.Alerts.Engine

namespace Zstats

open EpisodeState

section Judge

variable {now : Nat} {cooldown : Nat}

/-- What judging one verdict can do. -/
theorem judge_cases (now : Nat) (cooldown : Nat) (acc : EpisodeState × List AlertEvent)
    (kv : Key × Verdict) :
    (kv.2 = .skip ∧ judge now cooldown acc kv = acc) ∨
    (kv.2 = .below ∧ judge now cooldown acc kv = (acc.1.clear kv.1, acc.2)) ∨
    ∃ subject detail, kv.2 = .reached subject detail ∧
      ((acc.1.notify kv.1 now cooldown).2 = none ∧ judge now cooldown acc kv = acc ∨
        ∃ n episode, acc.1.decision kv.1 now cooldown = some (n, episode) ∧
          judge now cooldown acc kv =
            (⟨Function.update acc.1.active kv.1 (some episode),
              Function.update acc.1.lastAlert kv.1 (some now)⟩,
              acc.2 ++ [⟨subject, detail, n.elapsed⟩])) := by
  obtain ⟨k, v⟩ := kv
  cases v with
  | skip => exact Or.inl ⟨rfl, rfl⟩
  | below => exact Or.inr (Or.inl ⟨rfl, rfl⟩)
  | reached subject detail =>
    refine Or.inr (Or.inr ⟨subject, detail, rfl, ?_⟩)
    cases hn : (acc.1.notify k now cooldown).2 with
    | none =>
      left
      refine ⟨rfl, ?_⟩
      simp [judge, hn, notify_none hn]
    | some n =>
      right
      obtain ⟨episode, hd, he⟩ := notify_some hn
      refine ⟨n, episode, hd, ?_⟩
      simp [judge, hn, he]

theorem judgeAll_concat (episodes : EpisodeState) (verdicts : List (Key × Verdict))
    (kv : Key × Verdict) :
    judgeAll now cooldown episodes (verdicts ++ [kv]) =
      judge now cooldown (judgeAll now cooldown episodes verdicts) kv := by
  simp [judgeAll]

/-- A key no verdict is about keeps its episode. -/
theorem judgeAll_frame {episodes : EpisodeState} {verdicts : List (Key × Verdict)} {k : Key}
    (h : ∀ kv ∈ verdicts, kv.1 ≠ k) :
    (judgeAll now cooldown episodes verdicts).1.entry k = episodes.entry k := by
  induction verdicts using List.reverseRecOn with
  | nil => rfl
  | append_singleton verdicts kv ih =>
    have hrest := ih fun kv hkv => h kv (List.mem_append_left _ hkv)
    have hk : k ≠ kv.1 := (h kv (by simp)).symm
    rw [judgeAll_concat]
    rcases judge_cases now cooldown
      (judgeAll now cooldown episodes verdicts) kv with ⟨-, h⟩ | ⟨-, h⟩ | ⟨s, d, -, h⟩
    · rwa [h]
    · rw [h]
      simpa [entry, clear, hk] using hrest
    · rcases h with ⟨-, h⟩ | ⟨n, episode, -, h⟩
      · rwa [h]
      · rw [h]
        simpa [entry, hk] using hrest

theorem update_active_cases {active : Key → Option Episode} {k key : Key} {episode new : Episode}
    (h : Function.update active key (some new) k = some episode) :
    k = key ∧ episode = new ∨ k ≠ key ∧ active k = some episode := by
  by_cases hk : k = key
  · subst hk
    rw [Function.update_self, Option.some.injEq] at h
    exact Or.inl ⟨rfl, h.symm⟩
  · rw [Function.update_of_ne hk] at h
    exact Or.inr ⟨hk, h⟩

/-- An episode that is open after a section was opened by it, with an event, or was open before
and no verdict ended it. -/
theorem judgeAll_active {episodes : EpisodeState} {verdicts : List (Key × Verdict)} {k : Key}
    {episode : Episode}
    (h : (judgeAll now cooldown episodes verdicts).1.active k = some episode) :
    (episode.started = now ∧ ∃ e ∈ (judgeAll now cooldown episodes verdicts).2,
      e.repeatAfter = none ∧ (k, .reached e.subject e.detail) ∈ verdicts) ∨
    ∃ reminded, episodes.active k = some ⟨episode.started, reminded⟩ ∧
      (episode.reminded = false → reminded = false) ∧ (k, .below) ∉ verdicts := by
  induction verdicts using List.reverseRecOn generalizing episode with
  | nil =>
    right
    exact ⟨episode.reminded, h, id, by simp⟩
  | append_singleton verdicts kv ih =>
    rw [judgeAll_concat] at h ⊢
    -- an episode the verdict `kv` leaves alone is the one of the verdicts before it
    have hkeep : ∀ {episode : Episode} (evs : List AlertEvent),
        (judgeAll now cooldown episodes verdicts).1.active k = some episode →
        (∀ e ∈ (judgeAll now cooldown episodes verdicts).2, e ∈ evs) → (k, .below) ≠ kv →
        (episode.started = now ∧ ∃ e ∈ evs,
          e.repeatAfter = none ∧ (k, .reached e.subject e.detail) ∈ verdicts ++ [kv]) ∨
        ∃ reminded, episodes.active k = some ⟨episode.started, reminded⟩ ∧
          (episode.reminded = false → reminded = false) ∧ (k, .below) ∉ verdicts ++ [kv] := by
      intro episode evs ha hsub hbelow
      rcases ih ha with ⟨hs, e, he, hnew, hv⟩ | ⟨r, hr, himp, hnot⟩
      · exact Or.inl ⟨hs, e, hsub e he, hnew, List.mem_append_left _ hv⟩
      · refine Or.inr ⟨r, hr, himp, ?_⟩
        rw [List.mem_append, List.mem_singleton]
        exact fun hmem => hmem.elim hnot hbelow
    rcases judge_cases now cooldown (judgeAll now cooldown episodes verdicts) kv with
      ⟨hv, hj⟩ | ⟨hv, hj⟩ | ⟨s, d, hv, ⟨-, hj⟩ | ⟨n, new, hd, hj⟩⟩
    · rw [hj] at h ⊢
      exact hkeep _ h (fun e he => he) (by rintro rfl; simp at hv)
    · rw [hj] at h ⊢
      by_cases hk : k = kv.1
      · simp [clear, hk] at h
      · simp only [clear, Function.update_of_ne hk] at h
        exact hkeep _ h (fun e he => he) (by rintro rfl; simp at hk)
    · rw [hj] at h ⊢
      exact hkeep _ h (fun e he => he) (by rintro rfl; simp at hv)
    · rw [hj] at h ⊢
      have hbelow : (k, Verdict.below) ≠ kv := by
        rintro rfl
        simp at hv
      have hsub : ∀ e ∈ (judgeAll now cooldown episodes verdicts).2,
          e ∈ (judgeAll now cooldown episodes verdicts).2 ++ [⟨s, d, n.elapsed⟩] :=
        fun e he => List.mem_append_left _ he
      rcases update_active_cases h with ⟨rfl, rfl⟩ | ⟨-, ha⟩
      · rcases decision_cases hd with ⟨rfl, rfl, -⟩ | ⟨started, ha, rfl, -, -⟩
        · left
          refine ⟨rfl, ⟨s, d, none⟩, by simp [Notify.elapsed], rfl, ?_⟩
          simp [← hv]
        · rcases hkeep _ ha hsub hbelow with ⟨hs, hex⟩ | ⟨r, hr, himp, hnot⟩
          · exact Or.inl ⟨hs, hex⟩
          · exact Or.inr ⟨r, hr, by simp, hnot⟩
      · exact hkeep _ ha hsub hbelow

/-- Every event of a section is that of a verdict at its bar, and a reminder is about an episode
that was open before the section. -/
theorem mem_judgeAll {episodes : EpisodeState} {verdicts : List (Key × Verdict)}
    {e : AlertEvent} (he : e ∈ (judgeAll now cooldown episodes verdicts).2) :
    ∃ k, (k, .reached e.subject e.detail) ∈ verdicts ∧ (e.repeatAfter = none ∨
      ∃ started, episodes.active k = some ⟨started, false⟩ ∧
        e.repeatAfter = some (durationSince now started) ∧
        persistReminder ≤ durationSince now started) := by
  induction verdicts using List.reverseRecOn with
  | nil => simp [judgeAll] at he
  | append_singleton verdicts kv ih =>
    have hold : e ∈ (judgeAll now cooldown episodes verdicts).2 →
        ∃ k, (k, .reached e.subject e.detail) ∈ verdicts ++ [kv] ∧ (e.repeatAfter = none ∨
          ∃ started, episodes.active k = some ⟨started, false⟩ ∧
            e.repeatAfter = some (durationSince now started) ∧
            persistReminder ≤ durationSince now started) := by
      intro h
      obtain ⟨k, hk, hr⟩ := ih h
      exact ⟨k, List.mem_append_left _ hk, hr⟩
    rw [judgeAll_concat] at he
    rcases judge_cases now cooldown (judgeAll now cooldown episodes verdicts) kv with
      ⟨-, hj⟩ | ⟨-, hj⟩ | ⟨s, d, hv, ⟨-, hj⟩ | ⟨n, new, hd, hj⟩⟩
    · exact hold (hj ▸ he)
    · rw [hj] at he
      exact hold he
    · exact hold (hj ▸ he)
    · rw [hj] at he
      rcases List.mem_append.mp he with he | he
      · exact hold he
      obtain rfl := List.mem_singleton.mp he
      refine ⟨kv.1, List.mem_append_right _ (by simp [← hv]), ?_⟩
      rcases decision_cases hd with ⟨rfl, -, -⟩ | ⟨started, ha, -, rfl, hlong⟩
      · exact Or.inl rfl
      · right
        refine ⟨started, ?_, rfl, hlong⟩
        rcases judgeAll_active ha with ⟨hs, -⟩ | ⟨r, hr, himp, -⟩
        · -- an episode this section opened has lasted no time at all
          simp only at hs
          simp [hs, durationSince, persistReminder, fromSecs] at hlong
        · rw [hr, himp rfl]

/-- A key that a section leaves with a trace of a notification had one before, or an event now. -/
theorem judgeAll_notified {episodes : EpisodeState} {verdicts : List (Key × Verdict)} {k : Key}
    (hfresh : episodes.entry k = (none, none)) :
    ((judgeAll now cooldown episodes verdicts).1.entry k = (none, none) ∧
      ∀ s d, (k, .reached s d) ∉ verdicts) ∨
    ∃ e ∈ (judgeAll now cooldown episodes verdicts).2, (k, .reached e.subject e.detail) ∈ verdicts := by
  induction verdicts using List.reverseRecOn with
  | nil => exact Or.inl ⟨hfresh, by simp⟩
  | append_singleton verdicts kv ih =>
    rw [judgeAll_concat]
    rcases ih with ⟨hentry, hnone⟩ | ⟨e, he, hv⟩
    · -- the key is fresh so far: the next verdict at its bar notifies
      have hquiet : (∀ s d, kv ≠ (k, .reached s d)) →
          ∀ s d, (k, .reached s d) ∉ verdicts ++ [kv] := by
        intro hne s d hmem
        rcases List.mem_append.mp hmem with hmem | hmem
        · exact hnone s d hmem
        · exact hne s d (List.mem_singleton.mp hmem).symm
      rcases judge_cases now cooldown (judgeAll now cooldown episodes verdicts) kv with
        ⟨hv, hj⟩ | ⟨hv, hj⟩ | ⟨s, d, hv, ⟨hn, hj⟩ | ⟨n, new, hd, hj⟩⟩
      · left
        rw [hj]
        exact ⟨hentry, hquiet fun s d h => by simp [h] at hv⟩
      · left
        rw [hj]
        refine ⟨?_, hquiet fun s d h => by simp [h] at hv⟩
        obtain ⟨ha, hl⟩ := Prod.mk.inj hentry
        by_cases hk : k = kv.1 <;> simp_all [entry, clear]
      · left
        rw [hj]
        refine ⟨hentry, hquiet fun s d h => ?_⟩
        rw [h, notify_fresh now cooldown hentry] at hn
        simp at hn
      · rw [hj]
        by_cases hk : k = kv.1
        · right
          refine ⟨⟨s, d, n.elapsed⟩, by simp, List.mem_append_right _ ?_⟩
          simp [hk, ← hv]
        · left
          exact ⟨by simpa [entry, hk] using hentry, hquiet fun s d h => hk (by rw [h])⟩
    · right
      refine ⟨e, ?_, List.mem_append_left _ hv⟩
      rcases judge_cases now cooldown (judgeAll now cooldown episodes verdicts) kv with
        ⟨-, hj⟩ | ⟨-, hj⟩ | ⟨s, d, -, ⟨-, hj⟩ | ⟨n, new, -, hj⟩⟩
      all_goals simp [hj, he]

end Judge

end Zstats
