import Mathlib.Algebra.BigOperators.Ring.Finset
import Mathlib.Algebra.Order.BigOperators.Group.Finset
import Mathlib.Tactic.FieldSimp
import Zstats.Collector.Processes
import Zstats.Rolling.Entries

namespace Zstats

open ProcessWindows

/-- `percent_between` of the last two counter samples; the first one makes no claim. -/
def percentAt (startTime : ℕ) (instant counter : ℕ → ℕ) : ℕ → ℚ
  | 0 => 0
  | n + 1 => percentBetween ⟨counter n, startTime⟩ ⟨counter (n + 1), startTime⟩
      (instant (n + 1) - instant n)

/-- A process as every refresh finds it: its counter, and the list with its percentage in it. -/
structure Watch where
  pid : Pid
  startTime : ℕ
  instant : ℕ → ℕ
  instant_strictMono : StrictMono instant
  counter : ℕ → ℕ
  counter_mono : Monotone counter
  processes : ℕ → List ProcessSnapshot
  pids_nodup : ∀ n, ((processes n).map (·.pid)).Nodup
  listed : ∀ n, ∃ p ∈ processes n, p.pid = pid ∧
    p.cpuUsagePercent = percentAt startTime instant counter n

namespace Watch

variable (w : Watch) (window n : ℕ)

def call (n : ℕ) : Call := ⟨w.instant n, w.processes n, w.pids_nodup n⟩

/-- The first `n` refreshes. -/
def calls (n : ℕ) : List Call := (List.range n).map w.call

/-- What `record` returns for the process at the refresh numbered `n`. -/
def stats : Option ProcessStats := (after window (w.calls (n + 1))).2 w.pid

def percent (i : ℕ) : ℚ := percentAt w.startTime w.instant w.counter i

/-- The period that ends at the refresh numbered `i`, in milliseconds. -/
def length (i : ℕ) : ℚ := secs (w.instant i - w.instant (i - 1)) * 1000

/-- The cpu time consumed over it, in milliseconds. -/
def consumed (i : ℕ) : ℚ := ((w.counter i - w.counter (i - 1) : ℕ) : ℚ)

/-- The refreshes whose samples the window retains at the one numbered `n`. -/
def retainedAt : Finset ℕ :=
  (Finset.range (n + 1)).filter fun i => w.instant n - w.instant i ≤ window

/-- The periods that these samples cover. -/
def periods : Finset ℕ := (w.retainedAt window n).filter fun i => 0 < i

/-- The average is the cpu time consumed over the periods covered, in percent of their length. -/
def TimeWeighted : Prop :=
  ∃ stats, w.stats window n = some stats ∧
    stats.cpuAvg = 100 * (∑ i ∈ w.periods window n, w.consumed i) /
      ∑ i ∈ w.periods window n, w.length i

theorem calls_succ (n : ℕ) : w.calls (n + 1) = w.calls n ++ [w.call n] := by
  simp [calls, List.range_succ]

theorem calls_ordered (n : ℕ) : Ordered (w.calls n) := by
  have hrange : (List.range n).Pairwise fun a b => w.instant a ≤ w.instant b := by
    apply List.Pairwise.imp _ List.pairwise_lt_range
    intro a b hab
    exact (w.instant_strictMono hab).le
  exact List.pairwise_map.mpr hrange

theorem entry_call (n : ℕ) : ∃ e, (w.call n).entry w.pid = some e ∧ e.instant = w.instant n ∧
    e.process.cpuUsagePercent = w.percent n := by
  obtain ⟨p, hp, hpid, hpercent⟩ := w.listed n
  have hlisted : w.pid ∈ (w.call n).pids := List.mem_map.mpr ⟨p, hp, hpid⟩
  obtain ⟨e, he⟩ := Option.isSome_iff_exists.mp (((w.call n).entry_isSome w.pid).mpr hlisted)
  refine ⟨e, he, Call.entry_at he, ?_⟩
  obtain ⟨q, hfind, rfl⟩ := Option.map_eq_some_iff.mp he
  have hq : q ∈ w.processes n := List.mem_of_find?_eq_some hfind
  have hqpid : q.pid = w.pid := by simpa using List.find?_some hfind
  have hsame : q = p := by
    apply List.inj_on_of_nodup_map (w.pids_nodup n) hq hp
    rw [hqpid, hpid]
  rw [hsame]
  exact hpercent

/-- Every refresh is seen, with its percentage. -/
theorem seenSince_calls (n : ℕ) :
    (seenSince w.pid (w.calls n)).map (fun e => (e.instant, e.process.cpuUsagePercent)) =
      (List.range n).map fun i => (w.instant i, w.percent i) := by
  induction n with
  | zero => rfl
  | succ n ih =>
    obtain ⟨e, he, hat, hcpu⟩ := w.entry_call n
    rw [calls_succ, seenSince_listed _ he, List.map_append, ih, List.range_succ, List.map_append]
    simp [hat, hcpu]

theorem seen_cpu :
    (seen window w.pid (w.calls (n + 1)) (w.instant n)).map (·.process.cpuUsagePercent) =
      ((List.range (n + 1)).filter fun i => decide (w.instant n - w.instant i ≤ window)).map
        w.percent := by
  have hpairs := congrArg (fun l => (l.filter fun q : ℕ × ℚ =>
    decide (w.instant n - q.1 ≤ window)).map Prod.snd) (w.seenSince_calls (n + 1))
  simpa [List.filter_map, Function.comp_def, seen] using hpairs

theorem stats_cpuAvg : ∃ stats, w.stats window n = some stats ∧
    stats.cpuAvg = (∑ i ∈ w.retainedAt window n, w.percent i) / (w.retainedAt window n).card := by
  obtain ⟨e, he, -, -⟩ := w.entry_call n
  have hordered := w.calls_ordered (n + 1)
  rw [calls_succ] at hordered
  have hstats : (after window (w.calls n ++ [w.call n])).2 w.pid = _ := after_stats hordered he
  rw [← calls_succ] at hstats
  refine ⟨_, hstats, ?_⟩
  change (statsOf (w.instant n)
    ((seen window w.pid (w.calls (n + 1)) (w.instant n)).map SeenProcess.carried)).cpuAvg = _
  rw [SeenProcess.statsOf_cpu, SeenProcess.meanCpu, ← List.length_map (·.process.cpuUsagePercent),
    seen_cpu, List.length_map]
  rfl

theorem length_pos {i : ℕ} (hi : 0 < i) : 0 < w.length i := by
  have hlt : w.instant (i - 1) < w.instant i := w.instant_strictMono (by omega)
  have hsecs : 0 < secs (w.instant i - w.instant (i - 1)) := secs_pos (by omega)
  rw [length]
  linarith

theorem percent_of_pos {i : ℕ} (hi : 0 < i) :
    w.percent i = if 1 ≤ w.length i then 100 * (w.consumed i / w.length i) else 0 := by
  obtain ⟨i, rfl⟩ := Nat.exists_eq_succ_of_ne_zero hi.ne'
  have hmono : ¬ w.counter (i + 1) < w.counter i := (w.counter_mono i.le_succ).not_gt
  rw [percent, Nat.succ_eq_add_one, percentAt, percentBetween,
    if_neg (by rintro (h | h); exacts [h rfl, hmono h])]
  change (if w.length (i + 1) < 1 then 0 else w.consumed (i + 1) / w.length (i + 1) * 100) = _
  by_cases hlong : 1 ≤ w.length (i + 1)
  · rw [if_neg hlong.not_gt, if_pos hlong, mul_comm]
  · rw [if_pos (not_le.mp hlong), if_neg hlong]

theorem self_mem_retainedAt : n ∈ w.retainedAt window n := by
  rw [retainedAt, Finset.mem_filter, Finset.mem_range]
  omega

theorem card_pos : (0 : ℚ) < (w.retainedAt window n).card := by
  exact_mod_cast Finset.card_pos.mpr ⟨n, w.self_mem_retainedAt window n⟩

theorem pos_of_mem_periods {window n i : ℕ} (h : i ∈ w.periods window n) : 0 < i :=
  (Finset.mem_filter.mp h).2

def total : ℚ := ∑ i ∈ w.periods window n, w.length i

theorem total_pos {window n i : ℕ} (h : i ∈ w.periods window n) : 0 < w.total window n :=
  Finset.sum_pos (fun _ hj => w.length_pos (w.pos_of_mem_periods hj)) ⟨i, h⟩

theorem sum_percent :
    ∑ i ∈ w.retainedAt window n, w.percent i = ∑ i ∈ w.periods window n, w.percent i := by
  apply (Finset.sum_filter_of_ne _).symm
  intro i _ hne
  rcases Nat.eq_zero_or_pos i with rfl | hi
  · exact absurd rfl hne
  · exact hi

/-- The rates balance: each weighted by how far its period is from the length that one sample of the
window stands for, they add up to nothing. A period under a millisecond stands for none. -/
def Balanced : Prop :=
  ∑ i ∈ w.periods window n, w.consumed i / w.length i *
    ((if 1 ≤ w.length i then w.total window n else 0) -
      (w.retainedAt window n).card * w.length i) = 0

theorem balance_term {window n i : ℕ} (h : i ∈ w.periods window n) :
    100 * (w.consumed i / w.length i *
        ((if 1 ≤ w.length i then w.total window n else 0) -
          (w.retainedAt window n).card * w.length i)) =
      w.percent i * w.total window n - 100 * w.consumed i * (w.retainedAt window n).card := by
  have hpos := w.pos_of_mem_periods h
  have hlength := (w.length_pos hpos).ne'
  rw [w.percent_of_pos hpos]
  split
  · field_simp
  · field_simp
    ring

theorem timeWeighted_iff : w.TimeWeighted window n ↔ w.Balanced window n := by
  obtain ⟨stats, hstats, havg⟩ := w.stats_cpuAvg window n
  have hone : w.TimeWeighted window n ↔ stats.cpuAvg =
      100 * (∑ i ∈ w.periods window n, w.consumed i) / w.total window n := by
    rw [TimeWeighted, hstats]
    constructor
    · intro hcase
      obtain ⟨stats', hsome, h⟩ := hcase
      rw [Option.some.inj hsome]
      exact h
    · intro h
      exact ⟨stats, rfl, h⟩
  rw [hone, havg, sum_percent]
  rcases (w.periods window n).eq_empty_or_nonempty with hempty | ⟨i, hi⟩
  · simp [Balanced, hempty]
  · have htotal := w.total_pos hi
    have hcard := w.card_pos window n
    have hsum : 100 * ∑ i ∈ w.periods window n, w.consumed i / w.length i *
          ((if 1 ≤ w.length i then w.total window n else 0) -
            (w.retainedAt window n).card * w.length i) =
        (∑ i ∈ w.periods window n, w.percent i) * w.total window n -
          100 * (∑ i ∈ w.periods window n, w.consumed i) * (w.retainedAt window n).card := by
      rw [Finset.mul_sum, Finset.sum_congr rfl fun i hi => w.balance_term hi, Finset.sum_sub_distrib,
        ← Finset.sum_mul, ← Finset.sum_mul, ← Finset.mul_sum]
    rw [div_eq_div_iff hcard.ne' htotal.ne', Balanced]
    constructor
    · intro h
      linarith
    · intro h
      rw [h] at hsum
      linarith

/-- A cadence that does not vary: no period is covered, or all covered have one length of a
millisecond at least and the first sample of all is not among those retained. -/
def Steady : Prop :=
  w.periods window n = ∅ ∨ 0 ∉ w.retainedAt window n ∧
    ∀ i ∈ w.periods window n, 1 ≤ w.length i ∧ ∀ j ∈ w.periods window n, w.length j = w.length i

theorem periods_eq (h : 0 ∉ w.retainedAt window n) : w.periods window n = w.retainedAt window n := by
  apply Finset.filter_true_of_mem
  intro i hi
  by_contra hzero
  obtain rfl : i = 0 := by omega
  exact h hi

/-- Each period is as long as what one sample of the window stands for exactly when the cadence is
steady. -/
theorem steady_iff : w.Steady window n ↔ ∀ i ∈ w.periods window n,
    1 ≤ w.length i ∧ (w.retainedAt window n).card * w.length i = w.total window n := by
  constructor
  · intro hcase i hi
    rcases hcase with hempty | ⟨hfirst, hsame⟩
    · rw [hempty] at hi
      exact absurd hi (Finset.notMem_empty i)
    · refine ⟨(hsame i hi).1, ?_⟩
      rw [total, Finset.sum_congr rfl (hsame i hi).2, Finset.sum_const, nsmul_eq_mul,
        w.periods_eq window n hfirst]
  · intro h
    rcases (w.periods window n).eq_empty_or_nonempty with hempty | ⟨i, hi⟩
    · exact Or.inl hempty
    · right
      have hcard := (w.card_pos window n).ne'
      have hsame : ∀ i ∈ w.periods window n, ∀ j ∈ w.periods window n, w.length j = w.length i := by
        intro i hi j hj
        exact mul_left_cancel₀ hcard ((h j hj).2.trans (h i hi).2.symm)
      refine ⟨?_, fun i hi => ⟨(h i hi).1, hsame i hi⟩⟩
      intro hzero
      have hcount := (h i hi).2
      rw [total, Finset.sum_congr rfl (hsame i hi), Finset.sum_const, nsmul_eq_mul] at hcount
      have hlength := (w.length_pos (w.pos_of_mem_periods hi)).ne'
      have hequal := mul_right_cancel₀ hlength hcount
      have hsubset : w.periods window n ⊂ w.retainedAt window n := by
        rw [Finset.ssubset_iff_subset_ne]
        refine ⟨Finset.filter_subset _ _, ?_⟩
        intro heq
        rw [← heq] at hzero
        exact absurd (w.pos_of_mem_periods hzero) (Nat.lt_irrefl 0)
      have hless := Finset.card_lt_card hsubset
      have hsame : (w.retainedAt window n).card = (w.periods window n).card := by exact_mod_cast hequal
      omega

theorem balanced_of_steady (h : w.Steady window n) : w.Balanced window n := by
  have hterms := (w.steady_iff window n).mp h
  apply Finset.sum_eq_zero
  intro i hi
  obtain ⟨hlong, hlength⟩ := hterms i hi
  rw [if_pos hlong, hlength, sub_self, mul_zero]

section Cadence

variable {w} {v : Watch} (h : v.instant = w.instant)
include h

theorem length_congr (i : ℕ) : v.length i = w.length i := by
  rw [length, length, h]

theorem retainedAt_congr : v.retainedAt window n = w.retainedAt window n := by
  rw [retainedAt, retainedAt, h]

theorem periods_congr : v.periods window n = w.periods window n := by
  rw [periods, periods, retainedAt_congr window n h]

theorem total_congr : v.total window n = w.total window n := by
  rw [total, total, periods_congr window n h]
  exact Finset.sum_congr rfl fun i _ => length_congr h i

/-- Being steady is a matter of the instants. -/
theorem steady_congr : v.Steady window n ↔ w.Steady window n := by
  rw [steady_iff, steady_iff, periods_congr window n h, retainedAt_congr window n h,
    total_congr window n h]
  simp only [length_congr h]

end Cadence

/-- A process that consumes a millisecond in the period that ends at `k`, and nothing else. -/
def pulse (k : ℕ) : Watch where
  pid := 1
  startTime := 0
  instant := w.instant
  instant_strictMono := w.instant_strictMono
  counter := fun i => if i < k then 0 else 1
  counter_mono := by
    intro a b hab
    dsimp only
    split_ifs
    all_goals omega
  processes := fun i =>
    [proc 1 (percentAt 0 w.instant (fun i => if i < k then 0 else 1) i) 0]
  pids_nodup := fun _ => List.nodup_singleton _
  listed := fun _ => ⟨_, List.mem_singleton_self _, rfl, rfl⟩

theorem pulse_consumed {k i : ℕ} (hi : 0 < i) :
    (w.pulse k).consumed i = if i = k then 1 else 0 := by
  rw [consumed, pulse]
  dsimp only
  split_ifs <;> first | rfl | omega

/-- Only a steady cadence balances every pulse. -/
theorem steady_of_pulses (h : ∀ k, (w.pulse k).Balanced window n) : w.Steady window n := by
  rw [steady_iff]
  intro k hk
  have hpos := w.pos_of_mem_periods hk
  have hlength := w.length_pos hpos
  have hcard := w.card_pos window n
  have hinstant : (w.pulse k).instant = w.instant := rfl
  have hbalanced := h k
  rw [Balanced, periods_congr window n hinstant,
    Finset.sum_eq_single_of_mem k hk, pulse_consumed w hpos, if_pos rfl, mul_eq_zero] at hbalanced
  · have hrate : (1 : ℚ) / w.length k ≠ 0 := by positivity
    have hterm := hbalanced.resolve_left hrate
    rw [length_congr hinstant,
      retainedAt_congr window n hinstant,
      total_congr window n hinstant] at hterm
    have hproduct : 0 < (w.retainedAt window n).card * w.length k := mul_pos hcard hlength
    split at hterm
    · next hlong => exact ⟨hlong, by linarith⟩
    · linarith
  · intro i hi hne
    rw [pulse_consumed w (w.pos_of_mem_periods hi), if_neg hne, zero_div, zero_mul]

/-- For one process the average is weighted by time if and only if its rates balance; it is for
every process refreshed at these instants if and only if their cadence is steady over the window. -/
theorem time_weighted_iff (w : Watch) (window n : ℕ) :
    (w.TimeWeighted window n ↔ w.Balanced window n) ∧
    ((∀ v : Watch, v.instant = w.instant → v.TimeWeighted window n) ↔ w.Steady window n) := by
  refine ⟨w.timeWeighted_iff window n, ?_⟩
  constructor
  · intro h
    apply w.steady_of_pulses
    intro k
    exact ((w.pulse k).timeWeighted_iff window n).mp (h (w.pulse k) rfl)
  · intro h v hv
    rw [timeWeighted_iff]
    exact v.balanced_of_steady window n ((steady_congr window n hv).mpr h)

/-- Two idle periods of ten seconds, and a busy one of one second after them. -/
def boosted : Watch where
  pid := 1
  startTime := 0
  instant := fun n => fromSecs (if n ≤ 2 then 10 * n else n + 18)
  instant_strictMono := by
    apply strictMono_nat_of_lt_succ
    intro n
    dsimp only [fromSecs]
    split_ifs <;> omega
  counter := fun n => 1000 * (n - 2)
  counter_mono := by
    intro a b hab
    dsimp only
    omega
  processes := fun n =>
    [proc 1 (percentAt 0 (fun n => fromSecs (if n ≤ 2 then 10 * n else n + 18))
      (fun n => 1000 * (n - 2)) n) 0]
  pids_nodup := fun _ => List.nodup_singleton _
  listed := fun _ => ⟨_, List.mem_singleton_self _, rfl, rfl⟩

theorem boosted_periods : boosted.periods (fromSecs 15) 3 = {1, 2, 3} := by decide

theorem boosted_retainedAt : boosted.retainedAt (fromSecs 15) 3 = {1, 2, 3} := by decide

/-- One second of cpu time in 21 seconds, reported as a third of a core. -/
theorem time_weighted_fails :
    (∃ stats, boosted.stats (fromSecs 15) 3 = some stats ∧ stats.cpuAvg = 100 / 3) ∧
    (∑ i ∈ boosted.periods (fromSecs 15) 3, boosted.consumed i = 1000) ∧
    (∑ i ∈ boosted.periods (fromSecs 15) 3, boosted.length i = 21000) ∧
    ¬ ∀ (w : Watch) (window n : ℕ), w.TimeWeighted window n := by
  have hlength1 : boosted.length 1 = 10000 := by norm_num [length, boosted, fromSecs, secs]
  have hlength2 : boosted.length 2 = 10000 := by norm_num [length, boosted, fromSecs, secs]
  have hlength3 : boosted.length 3 = 1000 := by norm_num [length, boosted, fromSecs, secs]
  have hconsumed1 : boosted.consumed 1 = 0 := by norm_num [consumed, boosted]
  have hconsumed2 : boosted.consumed 2 = 0 := by norm_num [consumed, boosted]
  have hconsumed3 : boosted.consumed 3 = 1000 := by norm_num [consumed, boosted]
  have htotal : ∑ i ∈ boosted.periods (fromSecs 15) 3, boosted.length i = 21000 := by
    rw [boosted_periods]
    norm_num [hlength1, hlength2, hlength3]
  have hspent : ∑ i ∈ boosted.periods (fromSecs 15) 3, boosted.consumed i = 1000 := by
    rw [boosted_periods]
    norm_num [hconsumed1, hconsumed2, hconsumed3]
  have havg : ∃ stats, boosted.stats (fromSecs 15) 3 = some stats ∧ stats.cpuAvg = 100 / 3 := by
    obtain ⟨stats, hstats, havg⟩ := boosted.stats_cpuAvg (fromSecs 15) 3
    refine ⟨stats, hstats, ?_⟩
    rw [havg, sum_percent, boosted_periods, boosted_retainedAt]
    norm_num [percent_of_pos, hlength1, hlength2, hlength3, hconsumed1, hconsumed2, hconsumed3]
  refine ⟨havg, hspent, htotal, ?_⟩
  intro hall
  obtain ⟨stats, hstats, hthird⟩ := havg
  obtain ⟨stats', hstats', hweighted⟩ := hall boosted (fromSecs 15) 3
  rw [hstats] at hstats'
  rw [← Option.some.inj hstats', hspent, htotal, hthird] at hweighted
  norm_num at hweighted

end Watch

end Zstats
