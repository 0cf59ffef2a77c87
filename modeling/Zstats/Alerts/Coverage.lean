import Zstats.Alerts.Recording
import Zstats.Framework.Grouping
import Zstats.Framework.Ranking
import Zstats.Rolling.Seen

namespace Zstats.AlertEngine

open ProcessWindows Window

section Pass

variable {snapshot : SystemSnapshot} {active : ActiveThresholds} {top : List Pid}
  {fastStats slowStats : StatsMap}

/-- The means over these entries are over one of the base thresholds. -/
def OverBase (i : Input) (entries : List SeenProcess) : Prop :=
  (∃ threshold ∈ i.active.cpu.base, threshold ≤ SeenProcess.meanCpu entries) ∨
    0 < i.snapshot.memory.totalBytes ∧
      ∃ bar ∈ i.active.memoryBaseBytes i.snapshot.memory.totalBytes,
        bar ≤ asU64 (SeenProcess.meanHeld entries)

theorem recordOf_pid {p : ProcessSnapshot} {r : MetricRecord}
    (h : recordOf snapshot active top fastStats slowStats p = some r) : r.pid = p.pid := by
  rw [recordOf] at h
  split at h
  · dsimp only at h
    split_ifs at h
    obtain rfl := Option.some.inj h
    rfl
  · cases h

/-- A pass records a process that has been seen for long enough and is over a base threshold or
among the top. -/
theorem recordOf_isSome {i : Input} {p : ProcessSnapshot} {slow : ProcessStats}
    {entries : List SeenProcess}
    (hfast : fastStats p.pid = some (statsOf i.now (entries.map SeenProcess.carried)))
    (hslow : slowStats p.pid = some slow) :
    (recordOf i.snapshot i.active top fastStats slowStats p).isSome = true ↔
      fromSecs 50 ≤ SeenProcess.span entries i.now ∧ (OverBase i entries ∨ p.pid ∈ top) := by
  have hheld : heldBytes (statsOf i.now (entries.map SeenProcess.carried)) =
      SeenProcess.meanHeld entries :=
    SeenProcess.statsOf_held entries i.now
  have hover : (i.active.cpu.base.any (fun threshold =>
        decide (threshold ≤ SeenProcess.meanCpu entries)) ||
      (i.active.memoryBaseBytes i.snapshot.memory.totalBytes).any (fun bar =>
        decide (0 < i.snapshot.memory.totalBytes) &&
          decide (bar ≤ asU64 (SeenProcess.meanHeld entries))) ||
      top.contains p.pid) = true ↔ OverBase i entries ∨ p.pid ∈ top := by
    simp only [OverBase, Bool.or_eq_true, Option.any_eq_true, Bool.and_eq_true, decide_eq_true_eq,
      List.contains_iff_mem, Option.mem_def]
    grind
  simp only [recordOf, hfast, hslow, hheld, SeenProcess.statsOf_cpu, SeenProcess.statsOf_span]
  split_ifs with hspan hrecord
  · simp only [Option.isSome_some, true_iff]
    exact ⟨hspan, hover.mp hrecord⟩
  · simp only [Option.isSome_none, Bool.false_eq_true, false_iff, not_and]
    intro _ h
    exact hrecord (hover.mpr h)
  · simp only [Option.isSome_none, Bool.false_eq_true, false_iff, not_and]
    intro h
    exact absurd h hspan

end Pass

section Top

variable {stats : StatsMap} {pids : List Pid}

/-- A process with these entries has been seen for long enough and has spent cpu time. -/
def spends (now : ℕ) (entries : List SeenProcess) : Bool :=
  decide (fromSecs 50 ≤ SeenProcess.span entries now ∧ 0 < SeenProcess.spentMs entries)

/-- The pid spends less than `q`, or as much with a higher pid. -/
def outspent (δ : Pid → ℕ) (pid q : Pid) : Bool :=
  decide (δ pid < δ q) || (δ pid == δ q && decide (q < pid))

def bySpending (a b : ℕ × ℕ) : Bool :=
  decide (b.2 < a.2) || (a.2 == b.2 && decide (a.1 ≤ b.1))

theorem bySpending_iff {a b : ℕ × ℕ} :
    bySpending a b = true ↔ b.2 < a.2 ∨ a.2 = b.2 ∧ a.1 ≤ b.1 := by
  simp [bySpending]

theorem bySpending_antisymm (l : List (ℕ × ℕ)) : Ranking.Antisymm bySpending l := by
  intro a _ b _ hab hba
  rw [bySpending_iff] at hab hba
  exact Prod.ext (by omega) (by omega)

theorem bySpending_trans (a b c : ℕ × ℕ) (hab : bySpending a b = true)
    (hbc : bySpending b c = true) : bySpending a c = true := by
  rw [bySpending_iff] at hab hbc ⊢
  omega

theorem bySpending_total (a b : ℕ × ℕ) : (bySpending a b || bySpending b a) = true := by
  rw [Bool.or_eq_true, bySpending_iff, bySpending_iff]
  omega

theorem ahead_spending (δ : Pid → ℕ) (pids : List Pid) (pid : Pid) :
    Ranking.ahead bySpending (pids.map fun q => (q, δ q)) (pid, δ pid) =
      (pids.filter (outspent δ pid)).map fun q => (q, δ q) := by
  rw [Ranking.ahead, List.filter_map]
  congr 1
  apply List.filter_congr
  intro q _
  rw [Bool.eq_iff_iff, Function.comp_apply, Bool.and_eq_true, bySpending_iff, outspent]
  simp only [bne_iff_ne, ne_eq, Prod.mk.injEq, Bool.or_eq_true, Bool.and_eq_true, beq_iff_eq,
    decide_eq_true_eq]
  constructor
  · intro h
    obtain ⟨hle, hne⟩ := h
    rcases hle with hlt | ⟨heq, hle⟩
    · exact Or.inl hlt
    · right
      refine ⟨heq.symm, lt_of_le_of_ne hle ?_⟩
      intro hq
      exact hne ⟨hq, heq⟩
  · rintro (hlt | ⟨heq, hlt⟩)
    · exact ⟨Or.inl hlt, fun h => absurd h.2 (Nat.ne_of_gt hlt)⟩
    · exact ⟨Or.inr ⟨heq.symm, Nat.le_of_lt hlt⟩, fun h => absurd h.1 (Nat.ne_of_lt hlt)⟩

/-- Of the pids that spend cpu time, the top ones are those that fewer than five others outspend. -/
theorem mem_topCpuTime {processes : List ProcessSnapshot} (hnodup : (processes.map (·.pid)).Nodup)
    {now : ℕ} {entries : Pid → List SeenProcess}
    (hstats : ∀ pid ∈ processes.map (·.pid),
      stats pid = some (statsOf now ((entries pid).map SeenProcess.carried))) (pid : Pid) :
    pid ∈ topCpuTime processes stats ↔
      pid ∈ (processes.map (·.pid)).filter (fun q => spends now (entries q)) ∧
        (((processes.map (·.pid)).filter fun q => spends now (entries q)).filter
          (outspent (fun q => SeenProcess.spentMs (entries q)) pid)).length < 5 := by
  let δ := fun q => SeenProcess.spentMs (entries q)
  let spenders := (processes.map (·.pid)).filter fun q => spends now (entries q)
  have hranked : ((processes.map (·.pid)).dedup.filterMap fun pid => (stats pid).bind fun s =>
      if minSpan ≤ s.span ∧ 0 < s.cpuTimeDeltaMs then some (pid, s.cpuTimeDeltaMs) else none) =
      spenders.map fun q => (q, δ q) := by
    have hpairs : spenders.map (fun q => (q, δ q)) =
        spenders.filterMap fun q => some (q, δ q) := (Grouping.filterMap_eq_map fun _ _ => rfl).symm
    rw [hnodup.dedup, hpairs, List.filterMap_filter]
    apply List.filterMap_congr
    intro q hq
    simp only [hstats q hq, Option.bind_some, SeenProcess.statsOf_span, SeenProcess.statsOf_spent,
      spends, decide_eq_true_eq, δ]
    rfl
  have htop : topCpuTime processes stats =
      (((spenders.map fun q => (q, δ q)).mergeSort bySpending).take recordTopCpuTime).map (·.1) := by
    rw [← hranked]
    rfl
  have hpairs : (spenders.map fun q => (q, δ q)).Nodup :=
    (hnodup.filter _).map fun _ _ h => congrArg Prod.fst h
  have hmem : pid ∈ topCpuTime processes stats ↔ (pid, δ pid) ∈
      ((spenders.map fun q => (q, δ q)).mergeSort bySpending).take recordTopCpuTime := by
    rw [htop, List.mem_map]
    constructor
    · intro ⟨a, ha, hpid⟩
      obtain ⟨q, -, rfl⟩ := List.mem_map.mp (List.mem_mergeSort.mp (List.mem_of_mem_take ha))
      simp only at hpid
      subst hpid
      exact ha
    · intro h
      exact ⟨_, h, rfl⟩
  rw [hmem, Ranking.mem_take_sorted (List.mergeSort_perm _ _) (bySpending_antisymm _)
    (List.pairwise_mergeSort bySpending_trans bySpending_total _) hpairs, ahead_spending,
    List.length_map]
  refine and_congr_left fun _ => ?_
  rw [List.mem_map]
  constructor
  · intro ⟨q, hq, heq⟩
    obtain rfl : q = pid := congrArg Prod.fst heq
    exact hq
  · intro h
    exact ⟨pid, h, rfl⟩

end Top

/-- Every snapshot of the run lists its processes, each pid once, and the clock does not run back. -/
structure Listing (x : ℕ → Input) : Prop where
  listed : ∀ n, ∃ l, (x n).snapshot.processes = some l ∧ (l.map (·.pid)).Nodup
  mono : Monotone fun n => (x n).now

section Run

variable {x : ℕ → Input}

def processesAt (x : ℕ → Input) (n : ℕ) : List ProcessSnapshot :=
  (x n).snapshot.processes.getD []

def pidsAt (x : ℕ → Input) (n : ℕ) : List Pid := (processesAt x n).map (·.pid)

/-- The entries of `pid` at evaluation `n`. -/
def entriesAt (x : ℕ → Input) (pid : Pid) (n : ℕ) : List SeenProcess :=
  SeenProcess.ofList (x n).now (processesAt x n) pid

/-- The entries of `pid` from the last sixty seconds, up to evaluation `n`. -/
def recentEntries (x : ℕ → Input) (pid : Pid) (n : ℕ) : List SeenProcess :=
  ((List.range (n + 1)).flatMap (entriesAt x pid)).filter fun e =>
    decide ((x n).now ≤ e.instant + fromSecs 60)

/-- The entries of `pid` up to evaluation `n`, from the last one on that did not list it. -/
def seenSince (x : ℕ → Input) (pid : Pid) : ℕ → List SeenProcess
  | 0 => entriesAt x pid 0
  | n + 1 => if pid ∈ pidsAt x (n + 1) then seenSince x pid n ++ entriesAt x pid (n + 1) else []

/-- Those of them that are not older than sixty seconds. -/
def retainedEntries (x : ℕ → Input) (pid : Pid) (n : ℕ) : List SeenProcess :=
  (seenSince x pid n).filter fun e => decide ((x n).now ≤ e.instant + fromSecs 60)

/-- The fast window before evaluation `n`. -/
def fastAt (x : ℕ → Input) (n : ℕ) : ProcessWindows := (before x n).fast.getD (.new window)

/-- Evaluation `n` takes a recording pass. -/
def Pass (x : ℕ → Input) (n : ℕ) : Prop :=
  recordDue (before x n).lastRecord (x n).now = true

def Recorded (x : ℕ → Input) (pid : Pid) (n : ℕ) : Prop := ∃ r ∈ (result x n).records, r.pid = pid

def spendersAt (x : ℕ → Input) (n : ℕ) : List Pid :=
  (pidsAt x n).filter fun q => spends (x n).now (retainedEntries x q n)

/-- The pid spends cpu time, and fewer than five others spend more, or as much under a lower pid. -/
def AmongLargest (x : ℕ → Input) (pid : Pid) (n : ℕ) : Prop :=
  pid ∈ spendersAt x n ∧ ((spendersAt x n).filter
    (outspent (fun q => SeenProcess.spentMs (retainedEntries x q n)) pid)).length < 5

theorem slowStats_some {n : ℕ} {pid : Pid} (h : pid ∈ pidsAt x n) :
    ∃ slow, (before x n).slowStats (x n).now (processesAt x n) pid = some slow := by
  apply Option.isSome_iff_exists.mp
  rw [slowStats, record_stats_isSome]
  exact h

variable (hx : Listing x)
include hx

theorem Listing.list_eq (n : ℕ) : (x n).snapshot.processes = some (processesAt x n) ∧
    (pidsAt x n).Nodup := by
  obtain ⟨l, hl, hnodup⟩ := hx.listed n
  have hlist : processesAt x n = l := by rw [processesAt, hl, Option.getD_some]
  rw [pidsAt, hlist]
  exact ⟨hl, hnodup⟩

theorem Listing.fast_step (n : ℕ) :
    fastAt x (n + 1) = ((fastAt x n).record (x n).now (processesAt x n)).1 := by
  change ((before x n).step (x n)).1.fast.getD _ = _
  rw [step_fast (hx.list_eq n).1, Option.getD_some, fastAt]

omit hx in
theorem mem_seenSince {pid : Pid} {n : ℕ} {e : SeenProcess} (h : e ∈ seenSince x pid n) :
    ∃ m ≤ n, e ∈ entriesAt x pid m := by
  induction n with
  | zero => exact ⟨0, le_rfl, h⟩
  | succ n ih =>
    rw [seenSince] at h
    split_ifs at h with hlisted
    · rcases List.mem_append.mp h with hbefore | hnow
      · obtain ⟨m, hm, he⟩ := ih hbefore
        exact ⟨m, Nat.le_succ_of_le hm, he⟩
      · exact ⟨n + 1, le_rfl, hnow⟩
    · cases h

omit hx in
theorem entriesAt_instant {pid : Pid} {n : ℕ} {e : SeenProcess} (h : e ∈ entriesAt x pid n) :
    e.instant = (x n).now := by
  obtain ⟨p, -, rfl⟩ := List.mem_map.mp h
  rfl

theorem Listing.seenSince_sorted (pid : Pid) (n : ℕ) :
    (seenSince x pid n).Pairwise fun a b => a.instant ≤ b.instant := by
  have hat (n : ℕ) : (entriesAt x pid n).Pairwise fun a b => a.instant ≤ b.instant := by
    apply List.pairwise_of_forall_mem_list
    intro a ha b hb
    rw [entriesAt_instant ha, entriesAt_instant hb]
  induction n with
  | zero => exact hat 0
  | succ n ih =>
    rw [seenSince]
    split_ifs
    · refine List.pairwise_append.mpr ⟨ih, hat _, ?_⟩
      intro a ha b hb
      obtain ⟨m, hm, hentry⟩ := mem_seenSince ha
      rw [entriesAt_instant hentry, entriesAt_instant hb]
      exact hx.mono (Nat.le_succ_of_le hm)
    · exact List.Pairwise.nil

theorem Listing.fastAt_window (n : ℕ) : (fastAt x n).window = fromSecs 60 :=
  run_window (rfl : fastAt x 0 = .new window) hx.fast_step n

/-- What the fast window holds is what pruning leaves of the entries since the last absence. -/
theorem Listing.history_eq (pid : Pid) (n : ℕ) : (fastAt x (n + 1)).history pid =
    prune Sample.sampledAt (fromSecs 60) (x n).now ((seenSince x pid n).map SeenProcess.carried) := by
  induction n with
  | zero =>
    rw [hx.fast_step, record_history, hx.fastAt_window, SeenProcess.added_eq]
    change (if pid ∈ pidsAt x 0 then _ else _) = _
    split_ifs with hlisted
    · rfl
    · have hnone : seenSince x pid 0 = [] := by
        rw [seenSince, entriesAt, SeenProcess.ofList, List.map_eq_nil_iff, List.filter_eq_nil_iff]
        intro p hp hpid
        exact hlisted (List.mem_map.mpr ⟨p, hp, of_decide_eq_true hpid⟩)
      rw [hnone]
      rfl
  | succ n ih =>
    rw [hx.fast_step, record_history, hx.fastAt_window, SeenProcess.added_eq, ih, seenSince]
    change (if pid ∈ pidsAt x (n + 1) then _ else _) = _
    split_ifs with hlisted
    · rw [prune_prune_append (hx.mono n.le_succ), List.map_append]
      rfl
    · rfl

theorem Listing.retained_eq (pid : Pid) (n : ℕ) :
    (fastAt x (n + 1)).history pid = (retainedEntries x pid n).map SeenProcess.carried := by
  have hsorted : ((seenSince x pid n).map SeenProcess.carried).Pairwise
      fun a b => a.sampledAt ≤ b.sampledAt := List.pairwise_map.mpr (hx.seenSince_sorted pid n)
  rw [hx.history_eq, prune_eq_filter hsorted, List.filter_map, retainedEntries]
  congr 1
  apply List.filter_congr
  intro e _
  exact decide_eq_decide.mpr tsub_le_iff_left

theorem Listing.fastStats_eq {n : ℕ} {pid : Pid} (h : pid ∈ pidsAt x n) :
    (before x n).fastStats (x n).now (processesAt x n) pid =
      some (statsOf (x n).now ((retainedEntries x pid n).map SeenProcess.carried)) := by
  have hin : pid ∈ (processesAt x n).map (·.pid) := h
  rw [fastStats, record_stats, if_pos hin, ← hx.retained_eq, hx.fast_step, fastAt]

theorem Listing.records_eq {n : ℕ} (hpass : Pass x n) :
    (result x n).records = (processesAt x n).filterMap
      (recordOf (x n).snapshot (x n).active
        (topCpuTime (processesAt x n)
          ((before x n).fastStats (x n).now (processesAt x n)))
        ((before x n).fastStats (x n).now (processesAt x n))
        ((before x n).slowStats (x n).now (processesAt x n))) :=
  step_records (hx.list_eq n).1 hpass

theorem Listing.records_idle {n : ℕ} (hidle : ¬ Pass x n) : (result x n).records = [] :=
  step_records_idle (hx.list_eq n).1 ((Bool.not_eq_true _).mp hidle)

theorem records_nodup (n : ℕ) : ((result x n).records.map (·.pid)).Nodup := by
  by_cases hpass : Pass x n
  · rw [hx.records_eq hpass]
    exact (hx.list_eq n).2.sublist (Grouping.filterMap_keys_sublist (fun _ _ => recordOf_pid) _)
  · rw [hx.records_idle hpass]
    exact List.nodup_nil

/-- A pass records the listed pids that have been seen for long enough and are over a base threshold
or among the largest. -/
theorem recorded_iff {n : ℕ} (hpass : Pass x n) (pid : Pid) :
    Recorded x pid n ↔ pid ∈ pidsAt x n ∧
      fromSecs 50 ≤ SeenProcess.span (retainedEntries x pid n) (x n).now ∧
      (OverBase (x n) (retainedEntries x pid n) ∨ AmongLargest x pid n) := by
  have htop := mem_topCpuTime (hx.list_eq n).2 (fun q hq => hx.fastStats_eq hq) pid
  have hentry : ∀ p ∈ processesAt x n, (recordOf (x n).snapshot (x n).active
      (topCpuTime (processesAt x n)
        ((before x n).fastStats (x n).now (processesAt x n)))
      ((before x n).fastStats (x n).now (processesAt x n))
      ((before x n).slowStats (x n).now (processesAt x n)) p).isSome = true ↔
      fromSecs 50 ≤ SeenProcess.span (retainedEntries x p.pid n) (x n).now ∧
        (OverBase (x n) (retainedEntries x p.pid n) ∨
          p.pid ∈ topCpuTime (processesAt x n)
            ((before x n).fastStats (x n).now (processesAt x n))) := by
    intro p hp
    have hlisted : p.pid ∈ pidsAt x n := List.mem_map_of_mem hp
    obtain ⟨slow, hslow⟩ := slowStats_some hlisted
    exact recordOf_isSome (hx.fastStats_eq hlisted) hslow
  rw [Recorded, hx.records_eq hpass]
  constructor
  · intro ⟨r, hr, hpid⟩
    obtain ⟨p, hp, hrecord⟩ := List.mem_filterMap.mp hr
    obtain rfl : p.pid = pid := (recordOf_pid hrecord).symm.trans hpid
    obtain ⟨hspan, hover⟩ := (hentry p hp).mp (by rw [hrecord]; rfl)
    exact ⟨List.mem_map_of_mem hp, hspan, hover.imp_right htop.mp⟩
  · intro ⟨hlisted, hspan, hover⟩
    obtain ⟨p, hp, rfl⟩ := List.mem_map.mp hlisted
    obtain ⟨r, hr⟩ := Option.isSome_iff_exists.mp
      ((hentry p hp).mpr ⟨hspan, hover.imp_right htop.mpr⟩)
    exact ⟨r, List.mem_filterMap.mpr ⟨p, hp, hr⟩, recordOf_pid hr⟩

end Run

section Cadence

variable {x : ℕ → Input} (hx : Listing x)
include hx

theorem Listing.lastRecord_pass {n : ℕ} (hpass : Pass x n) :
    (before x (n + 1)).lastRecord = some (x n).now :=
  (step_lastRecord (hx.list_eq n).1).trans (if_pos hpass)

theorem Listing.lastRecord_idle {n : ℕ} (hidle : ¬ Pass x n) :
    (before x (n + 1)).lastRecord = (before x n).lastRecord :=
  (step_lastRecord (hx.list_eq n).1).trans (if_neg hidle)

/-- The time of the last record is that of an earlier pass. -/
theorem last_pass {n t : ℕ} (h : (before x n).lastRecord = some t) :
    ∃ m < n, Pass x m ∧ (x m).now = t := by
  obtain ⟨m, hm, hpass, -⟩ : ∃ m < n, (Pass x m ∧ (x m).now = t) ∧
      ∀ j, m < j → j < n → True := by
    refine Machine.stateAt_since (Q := fun e : AlertEngine => e.lastRecord = some t)
      (by simp [new]) ?_ h
    intro m hm
    by_cases hpass : Pass x m
    · exact Or.inl ⟨hpass, Option.some.inj ((hx.lastRecord_pass hpass).symm.trans hm)⟩
    · exact Or.inr ⟨(hx.lastRecord_idle hpass).symm.trans hm, trivial⟩
  exact ⟨m, hm, hpass⟩

/-- After a pass the last record is no older. -/
theorem last_after_pass {m n : ℕ} (hpass : Pass x m) (hmn : m < n) :
    ∃ t ∈ (before x n).lastRecord, (x m).now ≤ t := by
  induction n, hmn using Nat.le_induction with
  | base =>
    rw [hx.lastRecord_pass hpass]
    exact ⟨_, rfl, le_rfl⟩
  | succ n hmn ih =>
    by_cases hnext : Pass x n
    · rw [hx.lastRecord_pass hnext]
      exact ⟨_, rfl, hx.mono (Nat.le_of_succ_le hmn)⟩
    · rw [hx.lastRecord_idle hnext]
      exact ih

theorem passes_apart {m n : ℕ} (hmn : m < n) (hm : Pass x m) (hn : Pass x n) :
    (x m).now + fromSecs 60 ≤ (x n).now := by
  obtain ⟨t, ht, hle⟩ := last_after_pass hx hm hmn
  rw [Pass, recordDue, Option.mem_def.mp ht] at hn
  have hlong := of_decide_eq_true hn
  simp only [recordEvery, durationSince, fromSecs] at hlong ⊢
  omega

/-- No stretch of seventy seconds that ends with an evaluation goes without a pass. -/
theorem pass_within (j : ℕ) : ∃ n ≤ j, Pass x n ∧ (x j).now ≤ (x n).now + fromSecs 70 := by
  by_cases hj : Pass x j
  · exact ⟨j, le_rfl, hj, Nat.le_add_right _ _⟩
  · obtain ⟨t, ht, hsoon⟩ : ∃ t, (before x j).lastRecord = some t ∧
        ¬ recordEvery ≤ durationSince (x j).now t := by
      rw [Pass, recordDue] at hj
      cases hlast : (before x j).lastRecord with
      | none =>
        rw [hlast] at hj
        exact absurd rfl hj
      | some t =>
        rw [hlast] at hj
        exact ⟨t, rfl, fun h => hj (decide_eq_true h)⟩
    obtain ⟨m, hm, hpass, rfl⟩ := last_pass hx ht
    refine ⟨m, hm.le, hpass, ?_⟩
    simp only [recordEvery, durationSince, fromSecs] at hsoon ⊢
    omega

/-- Of a pid listed throughout the last sixty seconds no entry of that time has been lost, up to any
evaluation in it. -/
theorem seenSince_recent {pid : Pid} {n : ℕ}
    (hlisted : ∀ m ≤ n, (x n).now ≤ (x m).now + fromSecs 60 → pid ∈ pidsAt x m) {k : ℕ}
    (hk : k ≤ n) :
    (seenSince x pid k).filter (fun e => decide ((x n).now ≤ e.instant + fromSecs 60)) =
      ((List.range (k + 1)).flatMap (entriesAt x pid)).filter fun e =>
        decide ((x n).now ≤ e.instant + fromSecs 60) := by
  induction k with
  | zero => simp [seenSince]
  | succ k ih =>
    rw [List.range_succ, List.flatMap_append, List.flatMap_singleton, List.filter_append,
      ← ih (Nat.le_of_succ_le hk), seenSince]
    split_ifs with hin
    · rw [List.filter_append]
    · -- the evaluation was more than sixty seconds ago, and so were all before it
      have hearly : (x (k + 1)).now + fromSecs 60 < (x n).now := by
        by_contra hlate
        exact hin (hlisted (k + 1) hk (not_lt.mp hlate))
      rw [List.filter_nil, eq_comm, List.append_eq_nil_iff, List.filter_eq_nil_iff,
        List.filter_eq_nil_iff]
      constructor
      · intro e he hrecent
        obtain ⟨m, hm, hentry⟩ := mem_seenSince he
        have hle : (x m).now ≤ (x (k + 1)).now := hx.mono (Nat.le_succ_of_le hm)
        have hrecent := of_decide_eq_true hrecent
        rw [entriesAt_instant hentry] at hrecent
        omega
      · intro e he hrecent
        have hrecent := of_decide_eq_true hrecent
        rw [entriesAt_instant he] at hrecent
        omega

theorem retained_recent {pid : Pid} {n : ℕ}
    (hlisted : ∀ m ≤ n, (x n).now ≤ (x m).now + fromSecs 60 → pid ∈ pidsAt x m) :
    retainedEntries x pid n = recentEntries x pid n :=
  seenSince_recent hx hlisted le_rfl

omit hx in
theorem le_span {now : ℕ} {entries : List SeenProcess}
    (hsorted : entries.Pairwise fun a b => a.instant ≤ b.instant) {e : SeenProcess} (he : e ∈ entries) :
    now - e.instant ≤ SeenProcess.span entries now := by
  cases entries with
  | nil => cases he
  | cons first entries =>
    change now - e.instant ≤ now - first.instant
    rcases List.mem_cons.mp he with rfl | he
    · exact le_rfl
    · have hle := (List.pairwise_cons.mp hsorted).1 e he
      omega

/-- At gaps of at most ten seconds the first entry retained is at least fifty seconds old, where the
pid has been listed for that long. -/
theorem span_recent (hgap : ∀ n, (x (n + 1)).now ≤ (x n).now + fromSecs 10) {pid : Pid} {i n : ℕ}
    (hin : (x i).now + fromSecs 60 ≤ (x n).now)
    (hlisted : ∀ m ≤ n, (x n).now ≤ (x m).now + fromSecs 60 → pid ∈ pidsAt x m) :
    fromSecs 50 ≤ SeenProcess.span (retainedEntries x pid n) (x n).now := by
  have hexists : ∃ m, (x n).now ≤ (x m).now + fromSecs 60 := ⟨n, Nat.le_add_right _ _⟩
  obtain ⟨m, hm, hfirst⟩ : ∃ m, (x n).now ≤ (x m).now + fromSecs 60 ∧
      ∀ k < m, ¬ (x n).now ≤ (x k).now + fromSecs 60 :=
    ⟨Nat.find hexists, Nat.find_spec hexists, fun k hk => Nat.find_min hexists hk⟩
  have hmn : m ≤ n := by
    by_contra hlt
    exact hfirst n (not_le.mp hlt) (Nat.le_add_right _ _)
  have hold : (x m).now + fromSecs 50 ≤ (x n).now := by
    cases m with
    | zero =>
      have hstart := hx.mono (Nat.zero_le i)
      simp only [fromSecs] at hin hm hstart ⊢
      omega
    | succ k =>
      have hbefore := hfirst k k.lt_succ_self
      have hstep := hgap k
      simp only [fromSecs] at hbefore hstep ⊢
      omega
  obtain ⟨p, hp, hpid⟩ := List.mem_map.mp (hlisted m hmn hm)
  have hentry : SeenProcess.mk (x m).now p ∈ entriesAt x pid m :=
    List.mem_map_of_mem (List.mem_filter.mpr ⟨hp, decide_eq_true hpid⟩)
  have hmem : SeenProcess.mk (x m).now p ∈ retainedEntries x pid n := by
    rw [retained_recent hx hlisted, recentEntries, List.mem_filter]
    exact ⟨List.mem_flatMap.mpr ⟨m, List.mem_range.mpr (Nat.lt_succ_of_le hmn), hentry⟩,
      decide_eq_true hm⟩
  have hsorted : (retainedEntries x pid n).Pairwise fun a b => a.instant ≤ b.instant :=
    (hx.seenSince_sorted pid n).sublist List.filter_sublist
  have hspan : (x n).now - (x m).now ≤ SeenProcess.span (retainedEntries x pid n) (x n).now :=
    le_span hsorted hmem
  simp only [fromSecs] at hold hspan ⊢
  omega

/-- A process that stays over a base threshold is recorded. -/
theorem recorded_within (hgap : ∀ n, (x (n + 1)).now ≤ (x n).now + fromSecs 10) {i j : ℕ}
    {pid : Pid} (hij : (x i).now + fromSecs 130 ≤ (x j).now)
    (hlisted : ∀ n, (x i).now ≤ (x n).now → (x n).now ≤ (x j).now → pid ∈ pidsAt x n)
    (hover : ∀ n, (x j).now ≤ (x n).now + fromSecs 70 → (x n).now ≤ (x j).now →
      OverBase (x n) (recentEntries x pid n)) :
    ∃ n, (x j).now ≤ (x n).now + fromSecs 70 ∧ (x n).now ≤ (x j).now ∧ Recorded x pid n := by
  obtain ⟨n, hnj, hpass, hlate⟩ := pass_within hx j
  have hle := hx.mono hnj
  have hwindow : ∀ m ≤ n, (x n).now ≤ (x m).now + fromSecs 60 → pid ∈ pidsAt x m := by
    intro m hmn hrecent
    have hmn := hx.mono hmn
    apply hlisted m
    · simp only [fromSecs] at hij hlate hrecent
      omega
    · exact hmn.trans hle
  refine ⟨n, hlate, hle, (recorded_iff hx hpass pid).mpr ⟨?_, ?_, ?_⟩⟩
  · exact hwindow n le_rfl (Nat.le_add_right _ _)
  · apply span_recent hx hgap (i := i) _ hwindow
    simp only [fromSecs] at hij hlate ⊢
    omega
  · rw [retained_recent hx hwindow]
    exact Or.inl (hover n hlate hle)

/-- What recording promises at a cadence of ten seconds or less. -/
theorem recording_covers (hgap : ∀ n, (x (n + 1)).now ≤ (x n).now + fromSecs 10) :
    ((∀ m n, m < n → (result x m).records ≠ [] → (result x n).records ≠ [] →
        (x m).now + fromSecs 60 ≤ (x n).now) ∧
      ∀ n, ((result x n).records.map (·.pid)).Nodup) ∧
    (∀ i j pid, (x i).now + fromSecs 130 ≤ (x j).now →
      (∀ n, (x i).now ≤ (x n).now → (x n).now ≤ (x j).now → pid ∈ pidsAt x n) →
      (∀ n, (x j).now ≤ (x n).now + fromSecs 70 → (x n).now ≤ (x j).now →
        OverBase (x n) (recentEntries x pid n)) →
      ∃ n, (x j).now ≤ (x n).now + fromSecs 70 ∧ (x n).now ≤ (x j).now ∧ Recorded x pid n) ∧
    ∀ n, Pass x n → ∀ pid, Recorded x pid n ↔
      pid ∈ pidsAt x n ∧ fromSecs 50 ≤ SeenProcess.span (retainedEntries x pid n) (x n).now ∧
        (OverBase (x n) (retainedEntries x pid n) ∨ AmongLargest x pid n) := by
  refine ⟨⟨?_, records_nodup hx⟩, fun i j pid => recorded_within hx hgap, ?_⟩
  · intro m n hmn hm hn
    apply passes_apart hx hmn
    · by_contra hidle
      exact hm (hx.records_idle hidle)
    · by_contra hidle
      exact hn (hx.records_idle hidle)
  · intro n hpass pid
    exact recorded_iff hx hpass pid

end Cadence

/-- The promises for a process that is sampled every ten seconds. -/
theorem recording_covers_busy :
    ((∀ m n, m < n → (result (busyRun []) m).records ≠ [] → (result (busyRun []) n).records ≠ [] →
        (busyRun [] m).now + fromSecs 60 ≤ (busyRun [] n).now) ∧
      ∀ n, ((result (busyRun []) n).records.map (·.pid)).Nodup) ∧
    (∀ i j pid, (busyRun [] i).now + fromSecs 130 ≤ (busyRun [] j).now →
      (∀ n, (busyRun [] i).now ≤ (busyRun [] n).now → (busyRun [] n).now ≤ (busyRun [] j).now →
        pid ∈ pidsAt (busyRun []) n) →
      (∀ n, (busyRun [] j).now ≤ (busyRun [] n).now + fromSecs 70 →
        (busyRun [] n).now ≤ (busyRun [] j).now →
        OverBase (busyRun [] n) (recentEntries (busyRun []) pid n)) →
      ∃ n, (busyRun [] j).now ≤ (busyRun [] n).now + fromSecs 70 ∧
        (busyRun [] n).now ≤ (busyRun [] j).now ∧ Recorded (busyRun []) pid n) ∧
    ∀ n, Pass (busyRun []) n → ∀ pid, Recorded (busyRun []) pid n ↔
      pid ∈ pidsAt (busyRun []) n ∧
        fromSecs 50 ≤ SeenProcess.span (retainedEntries (busyRun []) pid n) (busyRun [] n).now ∧
        (OverBase (busyRun [] n) (retainedEntries (busyRun []) pid n) ∨
          AmongLargest (busyRun []) pid n) :=
  recording_covers (x := busyRun [])
    ⟨fun _ => ⟨_, rfl, by decide⟩, fun _ _ h => Nat.mul_le_mul_right _ h⟩
    fun n => (Nat.succ_mul n (fromSecs 10)).le

end Zstats.AlertEngine
