import Mathlib.Data.List.Induction
import Zstats.Rolling.Seen

namespace Zstats

open Window

namespace ProcessWindows

/-- One call of `record`. -/
structure Call where
  now : ℕ
  processes : List ProcessSnapshot
  pids_nodup : (processes.map (·.pid)).Nodup

namespace Call

def pids (c : Call) : List Pid := c.processes.map (·.pid)

/-- The entry of `pid`, if the call lists it. -/
def entry (c : Call) (pid : Pid) : Option SeenProcess :=
  (c.processes.find? fun p => decide (p.pid = pid)).map (SeenProcess.mk c.now)

def lists (pid : Pid) (c : Call) : Bool := decide (pid ∈ c.pids)

theorem entry_isSome (c : Call) (pid : Pid) : (c.entry pid).isSome = true ↔ pid ∈ c.pids := by
  rw [entry, Option.isSome_map, List.find?_isSome, pids, List.mem_map]
  simp only [decide_eq_true_eq]

theorem entry_none {c : Call} {pid : Pid} (h : pid ∉ c.pids) : c.entry pid = none := by
  cases hentry : c.entry pid with
  | none => rfl
  | some e => exact absurd ((c.entry_isSome pid).mp (by rw [hentry]; rfl)) h

theorem entry_at {c : Call} {pid : Pid} {e : SeenProcess} (h : c.entry pid = some e) :
    e.instant = c.now := by
  obtain ⟨p, -, rfl⟩ := Option.map_eq_some_iff.mp h
  rfl

end Call

abbrev Entries := Pid → Option (List Sample)

/-- The loop of `record`, for one process. -/
def recordEntry (window now : ℕ) (acc : Entries × StatsMap) (p : ProcessSnapshot) :
    Entries × StatsMap :=
  let samples := prune Sample.sampledAt window now ((acc.1 p.pid).getD [] ++ [sampleOf now p])
  (Function.update acc.1 p.pid (some samples),
    Function.update acc.2 p.pid (some (statsOf now samples)))

/-- `ProcessWindows::record` on its map. -/
def recordEntries (window : ℕ) (entries : Entries) (c : Call) : Entries × StatsMap :=
  let retained := fun pid => if pid ∈ c.pids then entries pid else none
  c.processes.foldl (recordEntry window c.now) (retained, fun _ => none)

/-- The windows after a run of calls, and what the last of them returned. -/
def after (window : ℕ) (calls : List Call) : Entries × StatsMap :=
  calls.foldl (fun s c => recordEntries window s.1 c) (fun _ => none, fun _ => none)

theorem after_concat (window : ℕ) (calls : List Call) (c : Call) :
    after window (calls ++ [c]) = recordEntries window (after window calls).1 c := by
  rw [after, List.foldl_append]
  rfl

/-- Windows that hold no entry and windows that hold an empty one act alike. -/
theorem record_entries (window : ℕ) (entries : Entries) (c : Call) :
    record ⟨window, fun pid => (entries pid).getD []⟩ c.now c.processes =
      (⟨window, fun pid => ((recordEntries window entries c).1 pid).getD []⟩,
        (recordEntries window entries c).2) := by
  have hloop (ps : List ProcessSnapshot) (acc : Entries × StatsMap) :
      ps.foldl (recordOne window c.now) (fun pid => (acc.1 pid).getD [], acc.2) =
        (fun pid => ((ps.foldl (recordEntry window c.now) acc).1 pid).getD [],
          (ps.foldl (recordEntry window c.now) acc).2) := by
    induction ps generalizing acc with
    | nil => rfl
    | cons p ps ih =>
      have hone : recordOne window c.now (fun pid => (acc.1 pid).getD [], acc.2) p =
          (fun pid => ((recordEntry window c.now acc p).1 pid).getD [],
            (recordEntry window c.now acc p).2) := by
        simp only [recordOne, recordEntry, Prod.mk.injEq, and_true]
        funext pid
        by_cases hpid : pid = p.pid
        · subst hpid
          simp
        · simp [hpid]
      rw [List.foldl_cons, List.foldl_cons, hone, ih]
  have hretained : (fun pid => if pid ∈ c.pids then (entries pid).getD [] else []) =
      fun pid => (if pid ∈ c.pids then entries pid else none).getD [] := by
    funext pid
    split <;> rfl
  have hrun := hloop c.processes (fun pid => if pid ∈ c.pids then entries pid else none, fun _ => none)
  rw [← hretained] at hrun
  rw [recordEntries, record]
  dsimp only
  rw [show (fun pid => if pid ∈ c.processes.map (·.pid) then (entries pid).getD [] else []) =
    fun pid => if pid ∈ c.pids then (entries pid).getD [] else [] from rfl, hrun]

theorem foldl_recordEntry (window now : ℕ) (pid : Pid) (ps : List ProcessSnapshot)
    (hnodup : (ps.map (·.pid)).Nodup) (acc : Entries × StatsMap) :
    let samples p := prune Sample.sampledAt window now ((acc.1 pid).getD [] ++ [sampleOf now p])
    let out := ps.foldl (recordEntry window now) acc
    match ps.find? (fun p => decide (p.pid = pid)) with
    | some p => out.1 pid = some (samples p) ∧ out.2 pid = some (statsOf now (samples p))
    | none => out.1 pid = acc.1 pid ∧ out.2 pid = acc.2 pid := by
  induction ps generalizing acc with
  | nil => exact ⟨rfl, rfl⟩
  | cons p ps ih =>
    obtain ⟨hnew, hrest⟩ := List.nodup_cons.mp hnodup
    have h := ih hrest (recordEntry window now acc p)
    by_cases hp : p.pid = pid
    · subst hp
      have hnone : ps.find? (fun q => decide (q.pid = p.pid)) = none := by
        rw [List.find?_eq_none]
        intro q hq hsame
        exact hnew (List.mem_map.mpr ⟨q, hq, of_decide_eq_true hsame⟩)
      rw [hnone] at h
      rw [List.find?_cons_of_pos (by simp)]
      simp only [List.foldl_cons] at h ⊢
      rw [h.1, h.2]
      simp [recordEntry]
    · rw [List.find?_cons_of_neg (by simpa using hp)]
      have hother : pid ≠ p.pid := Ne.symm hp
      simpa [recordEntry, hother] using h

/-- One call, pid by pid: an entry is extended and pruned, or made, or forgotten. -/
theorem recordEntries_listed {window : ℕ} {entries : Entries} {c : Call} {pid : Pid} {e : SeenProcess}
    (h : c.entry pid = some e) :
    let samples := prune Sample.sampledAt window c.now ((entries pid).getD [] ++ [e.carried])
    (recordEntries window entries c).1 pid = some samples ∧
    (recordEntries window entries c).2 pid = some (statsOf c.now samples) := by
  have hlisted : pid ∈ c.pids := (c.entry_isSome pid).mp (by rw [h]; rfl)
  obtain ⟨p, hfind, rfl⟩ := Option.map_eq_some_iff.mp h
  have hfold := foldl_recordEntry window c.now pid c.processes c.pids_nodup
    (fun pid => if pid ∈ c.pids then entries pid else none, fun _ => none)
  rw [hfind] at hfold
  simpa only [recordEntries, if_pos hlisted, SeenProcess.sampleOf_eq] using hfold

theorem recordEntries_absent {window : ℕ} {entries : Entries} {c : Call} {pid : Pid}
    (h : pid ∉ c.pids) :
    (recordEntries window entries c).1 pid = none ∧ (recordEntries window entries c).2 pid = none := by
  have hfold := foldl_recordEntry window c.now pid c.processes c.pids_nodup
    (fun pid => if pid ∈ c.pids then entries pid else none, fun _ => none)
  have hnone := Option.map_eq_none_iff.mp (Call.entry_none h)
  rw [hnone] at hfold
  simpa only [recordEntries, if_neg h] using hfold

/-- The calls since `pid` was last absent. -/
def sinceAbsence (pid : Pid) (calls : List Call) : List Call :=
  (calls.reverse.takeWhile (Call.lists pid)).reverse

/-- The entries of it that they listed. -/
def seenSince (pid : Pid) (calls : List Call) : List SeenProcess :=
  (sinceAbsence pid calls).filterMap fun c => c.entry pid

theorem seenSince_listed {pid : Pid} {c : Call} {e : SeenProcess} (calls : List Call)
    (h : c.entry pid = some e) : seenSince pid (calls ++ [c]) = seenSince pid calls ++ [e] := by
  have hlisted : c.lists pid = true := decide_eq_true ((c.entry_isSome pid).mp (by rw [h]; rfl))
  rw [seenSince, sinceAbsence, List.reverse_concat, List.takeWhile_cons_of_pos hlisted,
    List.reverse_cons, List.filterMap_append, ← sinceAbsence, ← seenSince]
  simp [h]

theorem seenSince_absent {pid : Pid} {c : Call} (calls : List Call) (h : pid ∉ c.pids) :
    seenSince pid (calls ++ [c]) = [] := by
  have hnone : ¬ c.lists pid = true := by simpa [Call.lists] using h
  rw [seenSince, sinceAbsence, List.reverse_concat, List.takeWhile_cons_of_neg hnone]
  rfl

/-- The calls of a run come in the order of their instants. -/
def Ordered (calls : List Call) : Prop := calls.Pairwise fun a b => a.now ≤ b.now

instance (calls : List Call) : Decidable (Ordered calls) :=
  inferInstanceAs (Decidable (calls.Pairwise fun a b => a.now ≤ b.now))

/-- What is held is what pruning leaves of all that was seen since the last absence. -/
theorem after_listed {window : ℕ} {pid : Pid} {calls : List Call} {c : Call} {e : SeenProcess}
    (hordered : Ordered (calls ++ [c])) (h : c.entry pid = some e) :
    (after window (calls ++ [c])).1 pid = some (prune Sample.sampledAt window c.now
      ((seenSince pid (calls ++ [c])).map SeenProcess.carried)) := by
  induction calls using List.reverseRecOn generalizing c e with
  | nil =>
    rw [after_concat, (recordEntries_listed h).1, seenSince_listed [] h]
    rfl
  | append_singleton calls b ih =>
    obtain ⟨hbefore, -, hlater⟩ := List.pairwise_append.mp hordered
    have hle : b.now ≤ c.now := hlater b (by simp) c (by simp)
    rw [after_concat, (recordEntries_listed h).1, seenSince_listed _ h, List.map_append]
    by_cases hb : pid ∈ b.pids
    · obtain ⟨d, hd⟩ := Option.isSome_iff_exists.mp ((b.entry_isSome pid).mpr hb)
      rw [ih hbefore hd, Option.getD_some, prune_prune_append hle]
      rfl
    · rw [after_concat, (recordEntries_absent hb).1, seenSince_absent calls hb]
      rfl

theorem after_absent {window : ℕ} {pid : Pid} {calls : List Call} {c : Call} (h : pid ∉ c.pids) :
    (after window (calls ++ [c])).1 pid = none ∧ (after window (calls ++ [c])).2 pid = none := by
  rw [after_concat]
  exact recordEntries_absent h

theorem mem_seenSince {pid : Pid} {calls : List Call} {e : SeenProcess}
    (h : e ∈ seenSince pid calls) : ∃ c ∈ calls, e.instant = c.now := by
  obtain ⟨c, hc, he⟩ := List.mem_filterMap.mp h
  have hmem := List.takeWhile_subset _ (List.mem_reverse.mp hc)
  exact ⟨c, List.mem_reverse.mp hmem, Call.entry_at he⟩

theorem seenSince_sorted {pid : Pid} {calls : List Call} (hordered : Ordered calls) :
    (seenSince pid calls).Pairwise fun a b => a.instant ≤ b.instant := by
  induction calls using List.reverseRecOn with
  | nil => exact List.Pairwise.nil
  | append_singleton calls c ih =>
    obtain ⟨hbefore, -, hlater⟩ := List.pairwise_append.mp hordered
    by_cases hc : pid ∈ c.pids
    · obtain ⟨e, he⟩ := Option.isSome_iff_exists.mp ((c.entry_isSome pid).mpr hc)
      rw [seenSince_listed calls he]
      refine List.pairwise_append.mpr ⟨ih hbefore, List.pairwise_singleton _ _, ?_⟩
      intro a ha b hb
      obtain ⟨d, hd, hat⟩ := mem_seenSince ha
      rw [List.mem_singleton.mp hb, Call.entry_at he, hat]
      exact hlater d hd c (by simp)
    · rw [seenSince_absent calls hc]
      exact List.Pairwise.nil

/-- The entries of `pid` since its last absence whose age is at most the window. -/
def seen (window : ℕ) (pid : Pid) (calls : List Call) (now : ℕ) : List SeenProcess :=
  (seenSince pid calls).filter fun e => decide (now - e.instant ≤ window)

theorem seen_ne_nil {window : ℕ} {pid : Pid} {c : Call} {e : SeenProcess} (calls : List Call)
    (h : c.entry pid = some e) : seen window pid (calls ++ [c]) c.now ≠ [] := by
  have hmem : e ∈ seen window pid (calls ++ [c]) c.now := by
    rw [seen, seenSince_listed calls h, List.mem_filter]
    refine ⟨by simp, ?_⟩
    rw [Call.entry_at h, Nat.sub_self]
    exact decide_eq_true (Nat.zero_le _)
  exact List.ne_nil_of_mem hmem

theorem after_seen {window : ℕ} {pid : Pid} {calls : List Call} {c : Call} {e : SeenProcess}
    (hordered : Ordered (calls ++ [c])) (h : c.entry pid = some e) :
    (after window (calls ++ [c])).1 pid =
      some ((seen window pid (calls ++ [c]) c.now).map SeenProcess.carried) := by
  have hsorted : ((seenSince pid (calls ++ [c])).map SeenProcess.carried).Pairwise
      fun a b => a.sampledAt ≤ b.sampledAt := List.pairwise_map.mpr (seenSince_sorted hordered)
  rw [after_listed hordered h, prune_eq_filter hsorted, List.filter_map]
  rfl

theorem after_stats {window : ℕ} {pid : Pid} {calls : List Call} {c : Call} {e : SeenProcess}
    (hordered : Ordered (calls ++ [c])) (h : c.entry pid = some e) :
    (after window (calls ++ [c])).2 pid =
      some (statsOf c.now ((seen window pid (calls ++ [c]) c.now).map SeenProcess.carried)) := by
  have hentry : _ = some ((seen window _ _ _).map SeenProcess.carried) := after_seen hordered h
  rw [after_concat, (recordEntries_listed h).1] at hentry
  rw [after_concat, (recordEntries_listed h).2, Option.some.inj hentry]

/-- What the stats say of the entries they are about. -/
structure Exact (window now : ℕ) (entries : List SeenProcess) (stats : ProcessStats) : Prop where
  cpu : stats.cpuAvg * entries.length = (entries.map (·.process.cpuUsagePercent)).sum
  memory : stats.memoryAvgBytes * entries.length =
    (entries.map fun e => (e.process.memoryBytes : ℚ)).sum
  noFootprint : stats.footprintAvgBytes = none ↔ ∀ e ∈ entries, e.process.physFootprintBytes = none
  footprint : ∀ avg, stats.footprintAvgBytes = some avg →
    avg * (entries.filterMap (·.process.physFootprintBytes)).length =
      ((entries.filterMap (·.process.physFootprintBytes)).map fun b : ℕ => (b : ℚ)).sum
  ends : ∃ oldest newest, entries.head? = some oldest ∧ entries.getLast? = some newest ∧
    stats.span = now - oldest.instant ∧
    stats.cpuTimeDeltaMs = newest.process.cpuTimeMs - oldest.process.cpuTimeMs
  within : stats.span ≤ window
  count : stats.samples = entries.length

theorem mean_mul {l : List ℚ} (h : l ≠ []) : mean l * l.length = l.sum := by
  rw [mean, div_mul_cancel₀]
  exact (length_cast_pos h).ne'

theorem statsOf_exact {window now : ℕ} {entries : List SeenProcess} (hne : entries ≠ [])
    (hage : ∀ e ∈ entries, now - e.instant ≤ window) :
    Exact window now entries (statsOf now (entries.map SeenProcess.carried)) := by
  obtain ⟨oldest, holdest⟩ := Option.isSome_iff_exists.mp (List.isSome_head?.mpr hne)
  obtain ⟨newest, hnewest⟩ := Option.isSome_iff_exists.mp (List.getLast?_isSome.mpr hne)
  have hspan : (statsOf now (entries.map SeenProcess.carried)).span = now - oldest.instant := by
    rw [SeenProcess.statsOf_span, SeenProcess.span, holdest]
    rfl
  have hspent : (statsOf now (entries.map SeenProcess.carried)).cpuTimeDeltaMs =
      newest.process.cpuTimeMs - oldest.process.cpuTimeMs := by
    rw [SeenProcess.statsOf_spent, SeenProcess.spentMs, holdest, hnewest]
    rfl
  have hcpu : (statsOf now (entries.map SeenProcess.carried)).cpuAvg =
      mean (entries.map (·.process.cpuUsagePercent)) := by
    rw [SeenProcess.statsOf_cpu, SeenProcess.meanCpu, mean, List.length_map]
  have hmemory : (statsOf now (entries.map SeenProcess.carried)).memoryAvgBytes =
      mean (entries.map fun e => (e.process.memoryBytes : ℚ)) := by
    simp only [statsOf, List.map_map]
    rfl
  have hfootprint : (statsOf now (entries.map SeenProcess.carried)).footprintAvgBytes =
      if SeenProcess.footprints entries = [] then none
      else some (mean ((SeenProcess.footprints entries).map fun b : ℕ => (b : ℚ))) := by
    simp only [statsOf, SeenProcess.footprints_carried, List.isEmpty_iff]
  refine ⟨?_, ?_, ?_, ?_, ⟨oldest, newest, holdest, hnewest, hspan, hspent⟩, ?_, ?_⟩
  · have hmean := mean_mul (l := entries.map (·.process.cpuUsagePercent)) (by simpa using hne)
    rwa [List.length_map, ← hcpu] at hmean
  · have hmean := mean_mul (l := entries.map fun e => (e.process.memoryBytes : ℚ))
      (by simpa using hne)
    rwa [List.length_map, ← hmemory] at hmean
  · rw [hfootprint]
    split
    · next hempty => simpa [SeenProcess.footprints] using hempty
    · next hsome => simpa [SeenProcess.footprints] using hsome
  · intro avg havg
    rw [hfootprint] at havg
    split at havg
    · cases havg
    · next hsome =>
      obtain rfl := Option.some.inj havg
      have hmean := mean_mul (l := (SeenProcess.footprints entries).map fun b : ℕ => (b : ℚ))
        (by simpa using hsome)
      rwa [List.length_map] at hmean
  · rw [hspan]
    exact hage oldest (List.mem_of_mem_head? holdest)
  · simp only [statsOf, List.length_map]

/-- What is known of a pid after an absence is what the calls from there on say: two pasts make no
difference. -/
theorem after_absence {window : ℕ} {pid : Pid} (past past' : List Call) {absent : Call}
    (h : pid ∉ absent.pids) (calls : List Call) :
    (after window (past ++ absent :: calls)).1 pid = (after window (past' ++ absent :: calls)).1 pid ∧
    (after window (past ++ absent :: calls)).2 pid = (after window (past' ++ absent :: calls)).2 pid := by
  induction calls using List.reverseRecOn with
  | nil =>
    have hnone (past : List Call) : (after window (past ++ [absent])).1 pid = none ∧
        (after window (past ++ [absent])).2 pid = none := after_absent h
    rw [(hnone past).1, (hnone past).2, (hnone past').1, (hnone past').2]
    exact ⟨rfl, rfl⟩
  | append_singleton calls c ih =>
    have hpast (past : List Call) : past ++ absent :: (calls ++ [c]) =
        past ++ absent :: calls ++ [c] := by simp
    rw [hpast, hpast, after_concat, after_concat]
    by_cases hc : pid ∈ c.pids
    · obtain ⟨e, he⟩ := Option.isSome_iff_exists.mp ((c.entry_isSome pid).mpr hc)
      rw [(recordEntries_listed he).1, (recordEntries_listed he).1, (recordEntries_listed he).2,
        (recordEntries_listed he).2, ih.1]
      exact ⟨rfl, rfl⟩
    · rw [(recordEntries_absent hc).1, (recordEntries_absent hc).1, (recordEntries_absent hc).2,
        (recordEntries_absent hc).2]
      exact ⟨rfl, rfl⟩

theorem tracked_iff {window : ℕ} {calls : List Call} {last : Call} (hordered : Ordered (calls ++ [last]))
    (pid : Pid) :
    (((after window (calls ++ [last])).1 pid).isSome = true ↔ pid ∈ last.pids) ∧
    (((after window (calls ++ [last])).2 pid).isSome = true ↔ pid ∈ last.pids) := by
  by_cases hlisted : pid ∈ last.pids
  · obtain ⟨e, he⟩ := Option.isSome_iff_exists.mp ((last.entry_isSome pid).mpr hlisted)
    rw [after_seen hordered he, after_stats hordered he]
    simp [hlisted]
  · have hnone : (after window (calls ++ [last])).1 pid = none ∧
        (after window (calls ++ [last])).2 pid = none := after_absent hlisted
    rw [hnone.1, hnone.2]
    simp [hlisted]

/-- The windows after a run of calls, where an entry that is not there and one that is empty are
the same. -/
def recorded (window : ℕ) (calls : List Call) : ProcessWindows :=
  calls.foldl (fun w c => (w.record c.now c.processes).1) (new window)

theorem recorded_entries (window : ℕ) (calls : List Call) :
    recorded window calls = ⟨window, fun pid => ((after window calls).1 pid).getD []⟩ := by
  induction calls using List.reverseRecOn with
  | nil => rfl
  | append_singleton calls c ih =>
    have hstep : recorded window (calls ++ [c]) =
        ((recorded window calls).record c.now c.processes).1 := List.foldl_concat ..
    rw [hstep, ih, record_entries, after_concat]

/-- What the windows hold and report after a run of calls and a last one. -/
structure WindowsExact (window : ℕ) (calls : List Call) (last : Call) : Prop where
  tracked : ∀ pid, (((after window (calls ++ [last])).1 pid).isSome = true ↔ pid ∈ last.pids) ∧
    (((after window (calls ++ [last])).2 pid).isSome = true ↔ pid ∈ last.pids)
  kept : ∀ pid ∈ last.pids,
    (after window (calls ++ [last])).1 pid =
      some ((seen window pid (calls ++ [last]) last.now).map SeenProcess.carried) ∧
    seen window pid (calls ++ [last]) last.now ≠ []
  reported : ∀ pid ∈ last.pids, ∃ stats, (after window (calls ++ [last])).2 pid = some stats ∧
    Exact window last.now (seen window pid (calls ++ [last]) last.now) stats
  forgotten : ∀ pid past absent rest, calls ++ [last] = past ++ absent :: rest → pid ∉ absent.pids →
    ∀ past',
      (after window (past' ++ absent :: rest)).1 pid = (after window (calls ++ [last])).1 pid ∧
      (after window (past' ++ absent :: rest)).2 pid = (after window (calls ++ [last])).2 pid
  alike : ((recorded window calls).record last.now last.processes).2 =
      (after window (calls ++ [last])).2 ∧
    ∀ pid, ((recorded window calls).record last.now last.processes).1.history pid =
      ((after window (calls ++ [last])).1 pid).getD []

/-- The windows are exact after every run of calls whose instants do not go back. -/
theorem windows_exact (window : ℕ) (calls : List Call) (last : Call)
    (hordered : Ordered (calls ++ [last])) : WindowsExact window calls last where
  tracked := tracked_iff hordered
  kept := by
    intro pid hpid
    obtain ⟨e, he⟩ := Option.isSome_iff_exists.mp ((last.entry_isSome pid).mpr hpid)
    exact ⟨after_seen hordered he, seen_ne_nil calls he⟩
  reported := by
    intro pid hpid
    obtain ⟨e, he⟩ := Option.isSome_iff_exists.mp ((last.entry_isSome pid).mpr hpid)
    refine ⟨_, after_stats hordered he, statsOf_exact (seen_ne_nil calls he) ?_⟩
    intro r hr
    exact of_decide_eq_true (List.mem_filter.mp hr).2
  forgotten := by
    intro pid past absent rest hcalls habsent past'
    rw [hcalls]
    exact after_absence past' past habsent rest
  alike := by
    rw [recorded_entries, record_entries, after_concat]
    exact ⟨rfl, fun _ => rfl⟩

/-- A pid that comes back between two calls of one instant. -/
theorem windows_exact_return :
    WindowsExact (fromSecs 60)
      [⟨0, [proc 1 10 100], by decide⟩, ⟨fromSecs 2, [proc 2 30 300], by decide⟩]
      ⟨fromSecs 2, [proc 2 30 300, proc 1 50 100], by decide⟩ :=
  windows_exact _ _ _ (by decide)

end ProcessWindows

end Zstats
