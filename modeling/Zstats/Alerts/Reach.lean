import Zstats.Alerts.Recording

namespace Zstats.AlertEngine

open ProcessWindows

/-- A run at the constant interval `d` in which `pid` is listed each time, with its entries as
`like` says, under a cpu threshold, a memory bar and a total that stay fixed. -/
structure Watched (x : ℕ → Input) (d : ℕ) (pid : Pid) (threshold : ℚ) (bar total : ℕ)
    (like : ProcessSnapshot → Prop) : Prop where
  now : ∀ n, (x n).now = n * d
  totalBytes : ∀ n, (x n).snapshot.memory.totalBytes = total
  total_pos : 0 < total
  cpu : ∀ n, (x n).active.cpu = .new (some threshold)
  memory : ∀ n, (x n).active.memory.overrides = [] ∧ (x n).active.memoryBaseBytes total = some bar
  bar_le : bar ≤ u64Max
  listed : ∀ n, ∃ processes, (x n).snapshot.processes = some processes ∧
    pid ∈ processes.map (·.pid) ∧ ∀ p ∈ processes, p.pid = pid → like p

def Hot (threshold : ℚ) (bar : ℕ) (p : ProcessSnapshot) : Prop :=
  acuteFactor * threshold ≤ p.cpuUsagePercent ∧ bar ≤ p.physFootprintBytes.getD p.memoryBytes

def Warm (threshold : ℚ) (p : ProcessSnapshot) : Prop :=
  threshold ≤ p.cpuUsagePercent ∧ p.cpuUsagePercent < acuteFactor * threshold

def cpuAlert (x : ℕ → Input) (pid : Pid) (runaway : Bool) : Prop :=
  ∃ n, ∃ ev ∈ (result x n).events, ev.key = some (pid, .cpu) ∧
    ∃ avg threshold width, ev.detail = .cpu avg threshold width runaway

/-- The fast window is full enough and over its bar. -/
def acute (threshold : ℚ) (fast : ProcessStats) : Bool :=
  decide (minSpan ≤ fast.span) && decide (acuteFactor * threshold ≤ fast.cpuAvg)

def Over (threshold : ℚ) (fast slow : ProcessStats) : Prop :=
  (minSpan ≤ fast.span ∧ acuteFactor * threshold ≤ fast.cpuAvg) ∨
    slowMinSpan ≤ slow.span ∧ threshold ≤ slow.cpuAvg

/-- At the interval `d` every hot process is alerted on and recorded, and every warm one is
alerted on. -/
def Reachable (d : ℕ) : Prop :=
  ∀ x pid threshold bar total,
    (Watched x d pid threshold bar total (Hot threshold bar) →
      cpuAlert x pid true ∧
      (∃ n, ∃ ev ∈ (result x n).events, ev.key = some (pid, .memory)) ∧
      ∃ n, ∃ r ∈ (result x n).records, r.pid = pid) ∧
    (Watched x d pid threshold bar total (Warm threshold) → cpuAlert x pid false)

/-- Statistics over samples of entries as `like` says, over the span that `n` intervals of `d`
leave in a window of `width`. -/
structure Seen (like : ProcessSnapshot → Prop) (d n width : ℕ) (stats : ProcessStats) : Prop where
  span : stats.span = min n (width / d) * d
  samples : ∃ samples, samples ≠ [] ∧ stats = statsOf (n * d) samples ∧
    ∀ s ∈ samples, ∃ t p, like p ∧ s = sampleOf t p

section Seen

variable {d n width : ℕ} {stats : ProcessStats} {threshold : ℚ} {bar : ℕ}

theorem Seen.hot_cpu (h : Seen (Hot threshold bar) d n width stats) :
    acuteFactor * threshold ≤ stats.cpuAvg := by
  obtain ⟨samples, hne, rfl, hall⟩ := h.samples
  apply le_cpuAvg hne
  intro s hs
  obtain ⟨t, p, hp, rfl⟩ := hall s hs
  exact hp.1

theorem Seen.hot_memory (h : Seen (Hot threshold bar) d n width stats) (hbar : bar ≤ u64Max) :
    bar ≤ asU64 (heldBytes stats) := by
  obtain ⟨samples, hne, rfl, hall⟩ := h.samples
  apply le_asU64 hbar
  have hheld : ∀ s ∈ samples, bar ≤ s.footprintBytes.getD s.memoryBytes := by
    intro s hs
    obtain ⟨t, p, hp, rfl⟩ := hall s hs
    exact hp.2
  simp only [heldBytes, statsOf]
  by_cases hfoot : samples.filterMap (·.footprintBytes) = []
  · -- no footprint was ever read: every sample counts with its resident size
    rw [hfoot]
    simp only [List.isEmpty_nil, if_true, Option.getD_none]
    apply Window.le_mean (by simpa using hne)
    intro q hq
    obtain ⟨s, hs, rfl⟩ := List.mem_map.mp hq
    have hnone := List.filterMap_eq_nil_iff.mp hfoot s hs
    have hs := hheld s hs
    rw [hnone, Option.getD_none] at hs
    exact_mod_cast hs
  · rw [if_neg (by simpa using hfoot), Option.getD_some]
    apply Window.le_mean (by simpa using hfoot)
    intro q hq
    obtain ⟨b, hb, rfl⟩ := List.mem_map.mp hq
    obtain ⟨s, hs, hb⟩ := List.mem_filterMap.mp hb
    have hs := hheld s hs
    rw [hb, Option.getD_some] at hs
    exact_mod_cast hs

theorem Seen.warm_cpu (h : Seen (Warm threshold) d n width stats) :
    threshold ≤ stats.cpuAvg ∧ stats.cpuAvg < acuteFactor * threshold := by
  obtain ⟨samples, hne, rfl, hall⟩ := h.samples
  constructor
  · apply le_cpuAvg hne
    intro s hs
    obtain ⟨t, p, hp, rfl⟩ := hall s hs
    exact hp.1
  · apply cpuAvg_lt hne
    intro s hs
    obtain ⟨t, p, hp, rfl⟩ := hall s hs
    exact hp.2

end Seen

section Watched

variable {x : ℕ → Input} {d : ℕ} {pid : Pid} {threshold : ℚ} {bar total : ℕ}
  {like : ProcessSnapshot → Prop}

theorem watched_seen (hd : 0 < d) (h : Watched x d pid threshold bar total like) (n : ℕ) :
    ∃ processes fast slow, (x n).snapshot.processes = some processes ∧
      pid ∈ processes.map (·.pid) ∧
      (before x n).fastStats (x n).now processes pid = some fast ∧ Seen like d n window fast ∧
      (before x n).slowStats (x n).now processes pid = some slow ∧
        Seen like d n slowWindow slow := by
  choose processes hprocesses hlisted hlike using h.listed
  have hseen : ∀ (width : ℕ) (ws : ℕ → ProcessWindows), ws 0 = .new width →
      (∀ n, ws (n + 1) = ((ws n).record (n * d) (processes n)).1) →
      ∃ stats, ((ws n).record (n * d) (processes n)).2 pid = some stats ∧
        Seen like d n width stats := by
    intro width ws h0 hstep
    obtain ⟨samples, hstats, hne, hspan, hall⟩ := record_run_span hd h0 hstep hlisted n
    refine ⟨_, hstats, hspan, samples, hne, rfl, ?_⟩
    intro s hs
    obtain ⟨m, p, hp, hpid, hs⟩ := hall s hs
    exact ⟨m * d, p, hlike m p hp hpid, hs⟩
  obtain ⟨fast, hfast, hfastSeen⟩ := hseen window
    (fun n => (before x n).fast.getD (.new window)) rfl fun m => by
      change ((before x m).step (x m)).1.fast.getD _ = _
      rw [step_fast (hprocesses m), h.now, Option.getD_some]
  obtain ⟨slow, hslow, hslowSeen⟩ := hseen slowWindow
    (fun n => (before x n).slow.getD (.new slowWindow)) rfl fun m => by
      change ((before x m).step (x m)).1.slow.getD _ = _
      rw [step_slow (hprocesses m), h.now, Option.getD_some]
  refine ⟨processes n, fast, slow, hprocesses n, hlisted n, ?_, hfastSeen, ?_, hslowSeen⟩
  · rw [fastStats, h.now, hfast]
  · rw [slowStats, h.now, hslow]

theorem processVerdicts_eq {active : ActiveThresholds} {fastStats slowStats : StatsMap}
    {p : ProcessSnapshot} {fast slow : ProcessStats} (hf : fastStats p.pid = some fast)
    (hs : slowStats p.pid = some slow) :
    processVerdicts active total fastStats slowStats p =
      [((p.pid, .cpu), cpuVerdict active p fast slow),
        ((p.pid, .memory), memoryVerdict active total p slow)] := by
  simp only [processVerdicts, hf, hs]

/-- The rule for cpu usage notifies of a watched process over one of the two bars, as a runaway
where the fast window is over. -/
theorem watched_cpuVerdict (h : Watched x d pid threshold bar total like) (n : ℕ)
    (p : ProcessSnapshot) (fast slow : ProcessStats) :
    (Over threshold fast slow → ∃ subject detail,
      cpuVerdict (x n).active p fast slow = .reached subject detail) ∧
    ∀ subject detail, cpuVerdict (x n).active p fast slow = .reached subject detail →
      Over threshold fast slow ∧
        ∃ avg bar width, detail = .cpu avg bar width (acute threshold fast) := by
  have hrule : (x n).active.cpu.forProcess p.name = some threshold := by
    rw [h.cpu]
    rfl
  have hover : (acute threshold fast || (decide (slowMinSpan ≤ slow.span) &&
      decide (threshold ≤ slow.cpuAvg))) = true ↔ Over threshold fast slow := by
    simp only [Over, acute, Bool.or_eq_true, Bool.and_eq_true, decide_eq_true_eq]
  rw [← hover]
  simp only [cpuVerdict, hrule]
  constructor
  · intro hbar
    refine ⟨_, _, if_neg ?_⟩
    rw [Bool.not_eq_true', Bool.not_eq_false]
    exact hbar
  · intro subject detail hv
    rw [ite_eq_iff] at hv
    rcases hv with ⟨-, hv⟩ | ⟨hbar, hv⟩
    · simp at hv
    · rw [Bool.not_eq_true', Bool.not_eq_false] at hbar
      exact ⟨hbar, _, _, _, (Verdict.reached.inj hv).2.symm⟩

/-- An event of the cpu rule on a watched process says whether the fast window was over. -/
theorem watched_cpu_event (hd : 0 < d) (h : Watched x d pid threshold bar total like) {n : ℕ}
    {ev : AlertEvent} (hev : ev ∈ (result x n).events) (hkey : ev.key = some (pid, .cpu)) :
    ∃ fast slow, Seen like d n window fast ∧ Seen like d n slowWindow slow ∧
      Over threshold fast slow ∧
      ∃ avg bar width, ev.detail = .cpu avg bar width (acute threshold fast) := by
  obtain ⟨processes, fast, slow, hprocesses, -, hfast, hseenFast, hslow, hseenSlow⟩ :=
    watched_seen hd h n
  obtain ⟨pids, verdicts, hsection, hv, -⟩ := step_event (e := before x n) hev hkey
  obtain ⟨ps, hps, hlist⟩ := Option.map_eq_some_iff.mp hsection
  obtain rfl : ps = processes := Option.some.inj (hps.symm.trans hprocesses)
  rw [← (Prod.mk.inj hlist).2] at hv
  obtain ⟨p, hp, hv⟩ := List.mem_flatMap.mp hv
  obtain rfl : pid = p.pid := (processVerdicts_fits hv).1
  rw [processVerdicts_eq hfast hslow, List.mem_pair] at hv
  have hv := (Prod.mk.inj (hv.resolve_right (by simp))).2
  exact ⟨fast, slow, hseenFast, hseenSlow, (watched_cpuVerdict h n p fast slow).2 _ _ hv.symm⟩

theorem process_notified {k : Key} {n : ℕ} {processes : List ProcessSnapshot} {p : ProcessSnapshot}
    {subject : AlertSubject} {detail : AlertDetail} (hk : k.2.isApp = false)
    (hprocesses : (x n).snapshot.processes = some processes) (hp : p ∈ processes)
    (hv : (k, .reached subject detail) ∈ processVerdicts (x n).active
      (x n).snapshot.memory.totalBytes ((before x n).fastStats (x n).now processes)
      ((before x n).slowStats (x n).now processes) p) :
    ∃ m, ∃ ev ∈ (result x m).events, ev.key = some k := by
  have hsection : (before x n).sectionOf (x n) k.2.isApp = some (processes.map (·.pid),
      processes.flatMap (processVerdicts (x n).active (x n).snapshot.memory.totalBytes
        ((before x n).fastStats (x n).now processes)
        ((before x n).slowStats (x n).now processes))) := by
    simp [sectionOf, hk, processSection, hprocesses]
  exact reached_notified hsection (List.mem_flatMap.mpr ⟨p, hp, hv⟩)

/-- A watched process over one of the two bars is notified of. -/
theorem watched_cpu_notified (hd : 0 < d) (h : Watched x d pid threshold bar total like) {n : ℕ}
    (hbar : ∀ fast slow, Seen like d n window fast → Seen like d n slowWindow slow →
      Over threshold fast slow) :
    ∃ m, ∃ ev ∈ (result x m).events, ev.key = some (pid, .cpu) := by
  obtain ⟨processes, fast, slow, hprocesses, hlisted, hfast, hseenFast, hslow, hseenSlow⟩ :=
    watched_seen hd h n
  obtain ⟨p, hp, rfl⟩ := List.mem_map.mp hlisted
  obtain ⟨subject, detail, hverdict⟩ :=
    (watched_cpuVerdict h n p fast slow).1 (hbar fast slow hseenFast hseenSlow)
  refine process_notified rfl hprocesses hp (?_ : (_, Verdict.reached subject detail) ∈ _)
  rw [processVerdicts_eq hfast hslow, hverdict]
  simp

/-- A watched process that holds its bar is notified of once the slow window is full enough. -/
theorem watched_memory_notified (hd : 0 < d)
    (h : Watched x d pid threshold bar total (Hot threshold bar)) {n : ℕ}
    (hspan : slowMinSpan ≤ min n (slowWindow / d) * d) :
    ∃ m, ∃ ev ∈ (result x m).events, ev.key = some (pid, .memory) := by
  obtain ⟨processes, fast, slow, hprocesses, hlisted, hfast, -, hslow, hseen⟩ :=
    watched_seen hd h n
  obtain ⟨p, hp, rfl⟩ := List.mem_map.mp hlisted
  have hrule : (x n).active.memoryBarBytes p.name (x n).snapshot.memory.totalBytes = some bar := by
    unfold ActiveThresholds.memoryBarBytes Thresholds.overrideFor
    rw [(h.memory n).1, h.totalBytes]
    exact (h.memory n).2
  have hjudged : ¬ ((x n).snapshot.memory.totalBytes = 0 ∨ slow.span < slowMinSpan) := by
    rw [h.totalBytes, hseen.span]
    have := h.total_pos
    omega
  have hbar : ¬ asU64 (heldBytes slow) < bar := not_lt.mpr (hseen.hot_memory h.bar_le)
  have hverdict : ∃ subject detail, memoryVerdict (x n).active
      (x n).snapshot.memory.totalBytes p slow = .reached subject detail := by
    simp only [memoryVerdict, hrule, if_neg hjudged, if_neg hbar]
    exact ⟨_, _, rfl⟩
  obtain ⟨subject, detail, hverdict⟩ := hverdict
  refine process_notified rfl hprocesses hp (?_ : (_, Verdict.reached subject detail) ∈ _)
  rw [processVerdicts_eq hfast hslow, hverdict]
  simp

theorem watched_lastRecord_le (h : Watched x d pid threshold bar total like) {n t : ℕ}
    (ht : (before x n).lastRecord = some t) : t ≤ (x n).now := by
  obtain ⟨i, hi, htime, -⟩ : ∃ i < n, (x i).now = t ∧ ∀ m, i < m → m < n → True := by
    refine Machine.stateAt_since (Q := fun e : AlertEngine => e.lastRecord = some t)
      (by simp [new]) ?_ ht
    intro m hm
    obtain ⟨processes, hprocesses, -⟩ := h.listed m
    change ((before x m).step (x m)).1.lastRecord = some t at hm
    rw [step_lastRecord hprocesses] at hm
    split_ifs at hm
    · exact Or.inl (Option.some.inj hm)
    · exact Or.inr ⟨hm, trivial⟩
  rw [← htime, h.now, h.now]
  exact Nat.mul_le_mul_right d hi.le

/-- A recording pass comes due again and again. -/
theorem watched_due (hd : 0 < d) (h : Watched x d pid threshold bar total like) (n : ℕ) :
    ∃ m ≥ n, recordDue (before x m).lastRecord (x m).now = true := by
  by_contra hnever
  push Not at hnever
  have hkept : ∀ m, n ≤ m → (before x m).lastRecord = (before x n).lastRecord := by
    intro m hm
    induction m, hm using Nat.le_induction with
    | base => rfl
    | succ m hm ih =>
      obtain ⟨processes, hprocesses, -⟩ := h.listed m
      change ((before x m).step (x m)).1.lastRecord = _
      rw [step_lastRecord hprocesses, if_neg (by simpa using hnever m hm), ih]
  cases hlast : (before x n).lastRecord with
  | none =>
    have hdue := hnever n le_rfl
    rw [hlast] at hdue
    simp [recordDue] at hdue
  | some t =>
    have hle := watched_lastRecord_le h hlast
    obtain ⟨m, hm, hgrow⟩ : ∃ m ≥ n, n * d + recordEvery ≤ m * d := by
      refine ⟨n + recordEvery, Nat.le_add_right _ _, ?_⟩
      rw [Nat.add_mul]
      exact Nat.add_le_add_left (Nat.le_mul_of_pos_right _ hd) _
    have hlate := hnever m hm
    rw [hkept m hm, hlast] at hlate
    simp only [recordDue, Option.all_some, decide_eq_true_eq, not_le, durationSince, h.now,
      ne_eq] at hlate hle
    omega

/-- A watched process that holds its bar is recorded once the fast window is full enough. -/
theorem watched_recorded (hd : 0 < d)
    (h : Watched x d pid threshold bar total (Hot threshold bar)) {n : ℕ}
    (hspan : ∀ m ≥ n, minSpan ≤ min m (window / d) * d) :
    ∃ m, ∃ r ∈ (result x m).records, r.pid = pid := by
  obtain ⟨m, hm, hdue⟩ := watched_due hd h n
  obtain ⟨processes, fast, slow, hprocesses, hlisted, hfast, hseen, hslow, -⟩ :=
    watched_seen hd h m
  obtain ⟨p, hp, rfl⟩ := List.mem_map.mp hlisted
  have hfull : minSpan ≤ fast.span := by
    rw [hseen.span]
    exact hspan m hm
  have hover : (((x m).active.memoryBaseBytes (x m).snapshot.memory.totalBytes).any fun bar =>
      decide (0 < (x m).snapshot.memory.totalBytes) &&
        decide (bar ≤ asU64 (heldBytes fast))) = true := by
    rw [h.totalBytes, (h.memory m).2]
    simp [h.total_pos, hseen.hot_memory h.bar_le]
  have hrecord : ∀ top, ∃ r, recordOf (x m).snapshot (x m).active top
      ((before x m).fastStats (x m).now processes) ((before x m).slowStats (x m).now processes) p =
        some r ∧ r.pid = p.pid := by
    intro top
    simp only [recordOf, hfast, hslow, hfull, if_true, hover, Bool.or_true, Bool.true_or]
    exact ⟨_, rfl, rfl⟩
  obtain ⟨r, hr, hpid⟩ := hrecord (topCpuTime processes ((before x m).fastStats (x m).now processes))
  refine ⟨m, r, ?_, hpid⟩
  change r ∈ ((before x m).step (x m)).2.records
  rw [step_records hprocesses hdue]
  exact List.mem_filterMap.mpr ⟨p, hp, hr⟩

/-- An event of the cpu rule on a watched process is a runaway exactly as the fast window says. -/
theorem watched_cpuAlert (hd : 0 < d) (h : Watched x d pid threshold bar total like)
    (hbar : ∃ n, ∀ fast slow, Seen like d n window fast → Seen like d n slowWindow slow →
      Over threshold fast slow) {runaway : Bool}
    (hrunaway : ∀ n fast slow, Seen like d n window fast → Seen like d n slowWindow slow →
      Over threshold fast slow → acute threshold fast = runaway) :
    cpuAlert x pid runaway := by
  obtain ⟨n, hbar⟩ := hbar
  obtain ⟨m, ev, hev, hkey⟩ := watched_cpu_notified hd h hbar
  obtain ⟨fast, slow, hfast, hslow, hover, avg, bar, width, hdetail⟩ :=
    watched_cpu_event hd h hev hkey
  rw [hrunaway m fast slow hfast hslow hover] at hdetail
  exact ⟨m, ev, hev, hkey, avg, bar, width, hdetail⟩

end Watched

section Interval

variable {d : ℕ}

theorem le_min_mul {a n q : ℕ} (hn : a ≤ n * d) (hq : a ≤ q * d) : a ≤ min n q * d := by
  rcases min_choice n q with h | h
  · rw [h]
    exact hn
  · rw [h]
    exact hq

/-- Where a multiple of the interval fits in the fast window late enough, one does in the slow. -/
theorem slow_fit (hfit : minSpan ≤ window / d * d) : slowMinSpan ≤ slowWindow / d * d := by
  have hslow : slowWindow = 5 * window := rfl
  have hmin : slowMinSpan = 5 * minSpan := rfl
  have hdiv : 5 * (window / d) ≤ 5 * window / d := Nat.mul_div_le_mul_div_assoc 5 window d
  calc slowMinSpan = 5 * minSpan := hmin
    _ ≤ 5 * (window / d * d) := Nat.mul_le_mul_left 5 hfit
    _ = 5 * (window / d) * d := by rw [mul_assoc]
    _ ≤ slowWindow / d * d := by
      rw [hslow]
      exact Nat.mul_le_mul_right d hdiv

theorem reachable_of_fit (hd : 0 < d) (hfit : minSpan ≤ window / d * d) : Reachable d := by
  obtain ⟨late, hlate⟩ : ∃ n, slowMinSpan ≤ n * d :=
    ⟨slowMinSpan, Nat.le_mul_of_pos_right _ hd⟩
  have hmin : minSpan ≤ slowMinSpan := by decide
  have hslow := le_min_mul hlate (slow_fit hfit)
  -- whenever the slow window is full enough, so is the fast one
  have hfast : ∀ n, slowMinSpan ≤ n * d → minSpan ≤ min n (window / d) * d := by
    intro n hn
    exact le_min_mul (hmin.trans hn) hfit
  intro x pid threshold bar total
  constructor
  · intro h
    refine ⟨watched_cpuAlert hd h ⟨late, ?_⟩ ?_, watched_memory_notified hd h hslow,
      watched_recorded (n := late) hd h ?_⟩
    · intro fast slow hseen _
      refine Or.inl ⟨?_, hseen.hot_cpu⟩
      rw [hseen.span]
      exact hfast late hlate
    · intro n fast slow hseen hseenSlow hover
      have hspan : minSpan ≤ fast.span := by
        rcases hover with ⟨hspan, -⟩ | ⟨hspan, -⟩
        · exact hspan
        · rw [hseen.span]
          rw [hseenSlow.span] at hspan
          exact hfast n (hspan.trans (Nat.mul_le_mul_right d (min_le_left _ _)))
      simp [acute, hspan, hseen.hot_cpu]
    · intro m hm
      exact hfast m (hlate.trans (Nat.mul_le_mul_right d hm))
  · intro h
    refine watched_cpuAlert hd h ⟨late, ?_⟩ ?_
    · intro fast slow _ hseen
      refine Or.inr ⟨?_, hseen.warm_cpu.1⟩
      rw [hseen.span]
      exact hslow
    · intro n fast slow hseen _ _
      simp [acute, hseen.warm_cpu.2]

/-- One process far over both bars, sampled every `d`. -/
def hotRun (d n : ℕ) : Input :=
  { now := n * d
    snapshot := snapshot [proc 1 300 100] 100
    active := { ActiveThresholds.off (fromSecs 600) with
      cpu := .new (some 100)
      memory := .new (some (1 / 2)) } }

theorem hotRun_watched (d : ℕ) :
    Watched (hotRun d) d 1 100 (fractionBytes (1 / 2) 100) 100
      (Hot 100 (fractionBytes (1 / 2) 100)) where
  now _ := rfl
  totalBytes _ := rfl
  total_pos := by decide
  cpu _ := rfl
  memory _ := ⟨rfl, rfl⟩
  bar_le := fractionBytes_le _ _
  listed n := by
    refine ⟨[proc 1 300 100], rfl, by simp [proc], ?_⟩
    intro p hp _
    obtain rfl := List.mem_singleton.mp hp
    exact ⟨by simp [acuteFactor, proc]; norm_num, by decide +kernel⟩

theorem fit_of_reachable (hd : 0 < d) (h : Reachable d) : minSpan ≤ window / d * d := by
  obtain ⟨⟨n, ev, hev, hkey, avg, bar, width, hdetail⟩, -⟩ := (h _ _ _ _ _).1 (hotRun_watched d)
  obtain ⟨fast, slow, hseen, -, -, avg', bar', width', hdetail'⟩ :=
    watched_cpu_event hd (hotRun_watched d) hev hkey
  rw [hdetail, AlertDetail.cpu.injEq] at hdetail'
  have hspan : minSpan ≤ fast.span := by
    have hacute := hdetail'.2.2.2.symm
    simp only [acute, Bool.and_eq_true, decide_eq_true_eq] at hacute
    exact hacute.1
  rw [hseen.span] at hspan
  exact hspan.trans (Nat.mul_le_mul_right d (min_le_right _ _))

/-- The rules reach every process at the interval `d` exactly if one of its multiples lies between
the span the fast window must cover and the span it can hold. -/
theorem reachable_iff (hd : 0 < d) : Reachable d ↔ minSpan ≤ window / d * d :=
  ⟨fit_of_reachable hd, reachable_of_fit hd⟩

theorem reachable_iff_tenSecs :
    Reachable (fromSecs 10) ↔ minSpan ≤ window / fromSecs 10 * fromSecs 10 :=
  reachable_iff (by decide)

/-- Sampled every forty seconds the fast window never covers fifty. -/
theorem fortySecs_unreachable : ¬ ∀ d, 0 < d → Reachable d := by
  intro h
  have hfit := fit_of_reachable (by decide) (h (fromSecs 40) (by decide))
  revert hfit
  decide

end Interval

end Zstats.AlertEngine
