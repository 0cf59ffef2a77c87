import Zstats.Alerts.Sections

namespace Zstats.AlertEngine

section Step

variable {e : AlertEngine} {i : Input} {processes : List ProcessSnapshot}

theorem step_fast (h : i.snapshot.processes = some processes) :
    (e.step i).1.fast = some ((e.fast.getD (.new window)).record i.now processes).1 := by
  simp only [step, evaluate, h]
  rfl

theorem step_slow (h : i.snapshot.processes = some processes) :
    (e.step i).1.slow = some ((e.slow.getD (.new slowWindow)).record i.now processes).1 := by
  simp only [step, evaluate, h]
  rfl

theorem step_lastRecord (h : i.snapshot.processes = some processes) :
    (e.step i).1.lastRecord =
      if recordDue e.lastRecord i.now then some i.now else e.lastRecord := by
  simp only [step, evaluate, h]
  rfl

theorem step_records (h : i.snapshot.processes = some processes)
    (hdue : recordDue e.lastRecord i.now = true) :
    (e.step i).2.records = processes.filterMap (recordOf i.snapshot i.active
      (topCpuTime processes (e.fastStats i.now processes)) (e.fastStats i.now processes)
      (e.slowStats i.now processes)) := by
  simp only [step, evaluate, h, evaluateProcesses, hdue, if_true]
  rfl

theorem step_records_idle (h : i.snapshot.processes = some processes)
    (hidle : recordDue e.lastRecord i.now = false) : (e.step i).2.records = [] := by
  simp [step, evaluate, h, evaluateProcesses, hidle]

/-- Without a process list the windows stand still, and nothing is recorded. -/
theorem step_unlisted (h : i.snapshot.processes = none) :
    (e.step i).1.fast = e.fast ∧ (e.step i).1.slow = e.slow ∧
      (e.step i).1.lastRecord = e.lastRecord ∧ (e.step i).2.records = [] := by
  simp [step, evaluate, h]

end Step

/-- The thresholds agree on the base values of the two process rules. -/
structure BasesAgree (a b : ActiveThresholds) : Prop where
  cpu : a.cpu.base = b.cpu.base
  memory : a.memory.base = b.memory.base
  memoryBytes : a.memoryBytes = b.memoryBytes

/-- The engines agree on what recording takes of them. -/
structure RecordersAgree (e e' : AlertEngine) : Prop where
  fast : e.fast = e'.fast
  slow : e.slow = e'.slow
  lastRecord : e.lastRecord = e'.lastRecord

theorem recordOf_bases {a b : ActiveThresholds} (h : BasesAgree a b) (snapshot : SystemSnapshot)
    (top : List Pid) (fastStats slowStats : StatsMap) :
    recordOf snapshot a top fastStats slowStats = recordOf snapshot b top fastStats slowStats := by
  have hbar : a.memoryBaseBytes = b.memoryBaseBytes := by
    funext totalMemory
    rw [ActiveThresholds.memoryBaseBytes, ActiveThresholds.memoryBaseBytes, h.memory, h.memoryBytes]
  funext p
  simp only [recordOf, h.cpu, hbar]

section Twice

variable {e e' : AlertEngine} {i i' : Input} (he : RecordersAgree e e') (hnow : i.now = i'.now)
  (hsnapshot : i.snapshot = i'.snapshot)
include he hnow hsnapshot

theorem step_recorders : RecordersAgree (e.step i).1 (e'.step i').1 := by
  cases hlist : i.snapshot.processes with
  | none =>
    have hlist' : i'.snapshot.processes = none := hsnapshot ▸ hlist
    obtain ⟨hfast, hslow, hlast, -⟩ := step_unlisted hlist
    obtain ⟨hfast', hslow', hlast', -⟩ := step_unlisted hlist'
    exact ⟨by rw [hfast, hfast', he.fast], by rw [hslow, hslow', he.slow],
      by rw [hlast, hlast', he.lastRecord]⟩
  | some processes =>
    have hlist' : i'.snapshot.processes = some processes := hsnapshot ▸ hlist
    constructor
    · rw [step_fast hlist, step_fast hlist', he.fast, hnow]
    · rw [step_slow hlist, step_slow hlist', he.slow, hnow]
    · rw [step_lastRecord hlist, step_lastRecord hlist', he.lastRecord, hnow]

theorem step_records_bases (hbases : BasesAgree i.active i'.active) :
    (e.step i).2.records = (e'.step i').2.records := by
  cases hlist : i.snapshot.processes with
  | none =>
    have hlist' : i'.snapshot.processes = none := hsnapshot ▸ hlist
    rw [(step_unlisted hlist).2.2.2, (step_unlisted hlist').2.2.2]
  | some processes =>
    have hlist' : i'.snapshot.processes = some processes := hsnapshot ▸ hlist
    have hfast : e.fastStats i.now processes = e'.fastStats i'.now processes := by
      rw [fastStats, fastStats, he.fast, hnow]
    have hslow : e.slowStats i.now processes = e'.slowStats i'.now processes := by
      rw [slowStats, slowStats, he.slow, hnow]
    have hdue : recordDue e.lastRecord i.now = recordDue e'.lastRecord i'.now := by
      rw [he.lastRecord, hnow]
    cases hnext : recordDue e.lastRecord i.now with
    | false => rw [step_records_idle hlist hnext, step_records_idle hlist' (hdue ▸ hnext)]
    | true =>
      rw [step_records hlist hnext, step_records hlist' (hdue ▸ hnext), hfast, hslow, hsnapshot,
        recordOf_bases hbases]

end Twice

/-- What is recorded depends on the base thresholds alone. -/
theorem records_of_bases {x y : ℕ → Input} (hnow : ∀ n, (x n).now = (y n).now)
    (hsnapshot : ∀ n, (x n).snapshot = (y n).snapshot)
    (hbases : ∀ n, BasesAgree (x n).active (y n).active) (n : ℕ) :
    (result x n).records = (result y n).records := by
  have hrecorders : RecordersAgree (before x n) (before y n) := by
    refine Machine.stateAt_related ⟨rfl, rfl, rfl⟩ ?_ n
    intro m e e' he
    exact step_recorders he (hnow m) (hsnapshot m)
  exact step_records_bases hrecorders (hnow n) (hsnapshot n) (hbases n)

/-- Every ten seconds, under a cpu threshold with these overrides, a process that is always busy. -/
def busyRun (overrides : List (Override ℚ)) (n : ℕ) : Input :=
  { now := n * fromSecs 10
    snapshot := snapshot [proc 1 80 100] 1000
    active := { ActiveThresholds.off (fromSecs 600) with cpu := ⟨some 30, overrides⟩ } }

/-- An override turns the rule off for the process, and not its recording. -/
theorem records_of_bases_override :
    (result (busyRun []) 6).records = (result (busyRun [⟨.exact "p1", none, true⟩]) 6).records :=
  records_of_bases (x := busyRun []) (y := busyRun [⟨.exact "p1", none, true⟩])
    (fun _ => rfl) (fun _ => rfl) (fun _ => ⟨rfl, rfl, rfl⟩) 6

end Zstats.AlertEngine
