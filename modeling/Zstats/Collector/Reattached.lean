import Zstats.Collector.DriveRates

namespace Zstats

/-- The increase of a counter is under half a unit per second. -/
def Unseen (prev current elapsed : ℕ) : Prop := 2 * 1000000000 * (current - prev) < elapsed

instance (prev current elapsed : ℕ) : Decidable (Unseen prev current elapsed) :=
  inferInstanceAs (Decidable (_ < _))

theorem roundU64_eq_zero_iff {x : ℚ} : roundU64 x = 0 ↔ x < 1 / 2 := by
  have hround : roundU64 x = 0 ↔ round x ≤ 0 := by
    rw [roundU64, asU64, Int.floor_intCast]
    simp [u64Max]
  have hfloor : round x ≤ 0 ↔ x + 1 / 2 < 1 := by
    rw [round_eq, ← Int.lt_add_one_iff, Int.floor_lt]
    norm_num
  rw [hround, hfloor]
  constructor <;> intro h <;> linarith

theorem ratePerSec_eq_zero_iff {prev current elapsed : ℕ} (he : 0 < elapsed) :
    ratePerSec prev current elapsed = 0 ↔ Unseen prev current elapsed := by
  by_cases hfell : current < prev
  · have hnone : current - prev = 0 := by omega
    rw [ratePerSec, if_pos hfell, Unseen, hnone]
    exact iff_of_true rfl he
  · have hsecs := secs_pos he
    rw [ratePerSec, if_neg hfell, if_neg he.ne', roundU64_eq_zero_iff, div_lt_iff₀ hsecs, Unseen,
      secs]
    have hcast : ((2 * 1000000000 * (current - prev) : ℕ) : ℚ) < elapsed ↔
        2 * 1000000000 * (current - prev) < elapsed := Nat.cast_lt
    rw [← hcast]
    push_cast
    constructor <;> intro h <;> linarith

theorem latencyMs_eq_none_iff {prevTimeNs timeNs prevOps ops : ℕ} :
    latencyMs prevTimeNs timeNs prevOps ops = none ↔ ops ≤ prevOps ∨ timeNs < prevTimeNs := by
  rw [latencyMs]
  split_ifs with h <;> simp [h]

theorem queueDepth_eq_none_iff {prev current : DriveCounters} {elapsed : ℕ}
    (hsum : (current.readTimeNs - prev.readTimeNs) + (current.writeTimeNs - prev.writeTimeNs) ≤
      u64Max) :
    queueDepth prev current elapsed = none ↔
      current.readTimeNs < prev.readTimeNs ∨ current.writeTimeNs < prev.writeTimeNs := by
  by_cases hr : prev.readTimeNs ≤ current.readTimeNs
  · by_cases hw : prev.writeTimeNs ≤ current.writeTimeNs
    · simp [queueDepth, checkedSub, checkedAdd, hr, hw, hsum]
    · simp [queueDepth, checkedSub, hr, hw, Nat.lt_of_not_le hw]
  · simp [queueDepth, checkedSub, hr, Nat.lt_of_not_le hr]

/-- Some cumulative counter is smaller than it was. -/
def Fell (prev current : DriveCounters) : Prop :=
  current.readOps < prev.readOps ∨ current.writeOps < prev.writeOps ∨
    current.readBytes < prev.readBytes ∨ current.writeBytes < prev.writeBytes ∨
    current.readTimeNs < prev.readTimeNs ∨ current.writeTimeNs < prev.writeTimeNs

instance (prev current : DriveCounters) : Decidable (Fell prev current) :=
  inferInstanceAs (Decidable (_ ∨ _))

theorem forward_of_not_fell {prev current : DriveCounters} (h : ¬ Fell prev current) :
    Forward prev current := by
  simp only [Fell, not_or, not_lt] at h
  obtain ⟨hro, hwo, hrb, hwb, hrt, hwt⟩ := h
  exact ⟨hro, hwo, hrb, hwb, hrt, hwt⟩

/-- No figure is a difference: the rates are absent or zero, and the others absent. -/
structure Unclaimed (s : DriveSnapshot) : Prop where
  readOps : ∀ r, s.readOpsPerSec = some r → r = 0
  writeOps : ∀ r, s.writeOpsPerSec = some r → r = 0
  readBytes : ∀ r, s.readBytesPerSec = some r → r = 0
  writeBytes : ∀ r, s.writeBytesPerSec = some r → r = 0
  readLatency : s.readLatencyMs = none
  writeLatency : s.writeLatencyMs = none
  queueDepth : s.queueDepth = none

/-- The average service time of the operations completed, where there are any. -/
def averageMs (prevTimeNs timeNs prevOps ops : ℕ) : Option ℚ :=
  if prevOps < ops then some (((timeNs : ℚ) - prevTimeNs) / (ops - prevOps) / 1000000) else none

/-- Every figure is there, and exact. -/
structure Exact (prev current : DriveCounters) (elapsed : ℕ) (s : DriveSnapshot) : Prop where
  readOps : s.readOpsPerSec = some (perSec prev.readOps current.readOps elapsed)
  writeOps : s.writeOpsPerSec = some (perSec prev.writeOps current.writeOps elapsed)
  readBytes : s.readBytesPerSec = some (perSec prev.readBytes current.readBytes elapsed)
  writeBytes : s.writeBytesPerSec = some (perSec prev.writeBytes current.writeBytes elapsed)
  readLatency : s.readLatencyMs =
    averageMs prev.readTimeNs current.readTimeNs prev.readOps current.readOps
  writeLatency : s.writeLatencyMs =
    averageMs prev.writeTimeNs current.writeTimeNs prev.writeOps current.writeOps
  queueDepth : s.queueDepth = some (((current.readTimeNs - prev.readTimeNs : ℚ) +
    (current.writeTimeNs - prev.writeTimeNs)) / elapsed)

/-- What shows of a drive is shown by none of its counters: each rate rounds to zero, and for each
latency and the queue depth one of the counters they take has fallen or stood still. -/
structure Hidden (prev current : DriveCounters) (elapsed : ℕ) : Prop where
  readOps : Unseen prev.readOps current.readOps elapsed
  writeOps : Unseen prev.writeOps current.writeOps elapsed
  readBytes : Unseen prev.readBytes current.readBytes elapsed
  writeBytes : Unseen prev.writeBytes current.writeBytes elapsed
  reads : current.readOps ≤ prev.readOps ∨ current.readTimeNs < prev.readTimeNs
  writes : current.writeOps ≤ prev.writeOps ∨ current.writeTimeNs < prev.writeTimeNs
  times : current.readTimeNs < prev.readTimeNs ∨ current.writeTimeNs < prev.writeTimeNs

/-- When a counter has fallen nothing is claimed, and otherwise every figure is exact. -/
def HonestWindow (prev current : DriveCounters) (elapsed : ℕ) : Prop :=
  (Fell prev current → Unclaimed (driveSnapshot (some prev) current (some elapsed))) ∧
  (¬ Fell prev current →
    Exact prev current elapsed (driveSnapshot (some prev) current (some elapsed)))

section Window

variable {prev current : DriveCounters} {elapsed : ℕ} (he : 0 < elapsed)
include he

/-- The figures of a window of positive length. -/
theorem driveSnapshot_window :
    driveSnapshot (some prev) current (some elapsed) =
      { name := current.name
        model := current.model
        sizeBytes := current.sizeBytes
        isRemovable := current.isRemovable
        readOpsPerSec := some (ratePerSec prev.readOps current.readOps elapsed)
        writeOpsPerSec := some (ratePerSec prev.writeOps current.writeOps elapsed)
        readBytesPerSec := some (ratePerSec prev.readBytes current.readBytes elapsed)
        writeBytesPerSec := some (ratePerSec prev.writeBytes current.writeBytes elapsed)
        readLatencyMs := latencyMs prev.readTimeNs current.readTimeNs prev.readOps current.readOps
        writeLatencyMs :=
          latencyMs prev.writeTimeNs current.writeTimeNs prev.writeOps current.writeOps
        queueDepth := queueDepth prev current elapsed
        readErrors := current.readErrors
        writeErrors := current.writeErrors } := by
  simp only [driveSnapshot, diffed_some he, Option.map_some, Option.bind_some]

theorem unclaimed_iff
    (hsum : (current.readTimeNs - prev.readTimeNs) + (current.writeTimeNs - prev.writeTimeNs) ≤
      u64Max) :
    Unclaimed (driveSnapshot (some prev) current (some elapsed)) ↔ Hidden prev current elapsed := by
  rw [driveSnapshot_window he]
  constructor
  · intro h
    exact {
      readOps := (ratePerSec_eq_zero_iff he).mp (h.readOps _ rfl)
      writeOps := (ratePerSec_eq_zero_iff he).mp (h.writeOps _ rfl)
      readBytes := (ratePerSec_eq_zero_iff he).mp (h.readBytes _ rfl)
      writeBytes := (ratePerSec_eq_zero_iff he).mp (h.writeBytes _ rfl)
      reads := latencyMs_eq_none_iff.mp h.readLatency
      writes := latencyMs_eq_none_iff.mp h.writeLatency
      times := (queueDepth_eq_none_iff hsum).mp h.queueDepth }
  · intro h
    have hrate : ∀ {before now r : ℕ}, Unseen before now elapsed →
        some (ratePerSec before now elapsed) = some r → r = 0 := by
      intro before now r hunseen hr
      rw [← Option.some.inj hr]
      exact (ratePerSec_eq_zero_iff he).mpr hunseen
    exact {
      readOps := fun r => hrate h.readOps
      writeOps := fun r => hrate h.writeOps
      readBytes := fun r => hrate h.readBytes
      writeBytes := fun r => hrate h.writeBytes
      readLatency := latencyMs_eq_none_iff.mpr h.reads
      writeLatency := latencyMs_eq_none_iff.mpr h.writes
      queueDepth := (queueDepth_eq_none_iff hsum).mpr h.times }

omit he in
theorem latencyMs_average {prevTimeNs timeNs : ℕ} (prevOps ops : ℕ) (h : prevTimeNs ≤ timeNs) :
    latencyMs prevTimeNs timeNs prevOps ops = averageMs prevTimeNs timeNs prevOps ops := by
  by_cases hops : prevOps < ops
  · have hnot : ¬ (ops ≤ prevOps ∨ timeNs < prevTimeNs) := by omega
    rw [latencyMs, if_neg hnot, averageMs, if_pos hops, Nat.cast_sub h, Nat.cast_sub hops.le]
  · rw [latencyMs, if_pos (Or.inl (not_lt.mp hops)), averageMs, if_neg hops]

theorem exact_of_forward (hf : Forward prev current)
    (hsum : (current.readTimeNs - prev.readTimeNs) + (current.writeTimeNs - prev.writeTimeNs) ≤
      u64Max) : Exact prev current elapsed (driveSnapshot (some prev) current (some elapsed)) := by
  have hrate : ∀ {before now : ℕ}, before ≤ now →
      some (ratePerSec before now elapsed) = some (perSec before now elapsed) := by
    intro before now hle
    rw [ratePerSec_forward hle he, perSec]
  have hdepth := queueDepth_isSome elapsed hf hsum
  obtain ⟨q, hq⟩ := Option.isSome_iff_exists.mp hdepth
  rw [driveSnapshot_window he]
  exact {
    readOps := hrate hf.readOps
    writeOps := hrate hf.writeOps
    readBytes := hrate hf.readBytes
    writeBytes := hrate hf.writeBytes
    readLatency := latencyMs_average _ _ hf.readTimeNs
    writeLatency := latencyMs_average _ _ hf.writeTimeNs
    queueDepth := by rw [← queueDepth_forward hq, ← hq] }

end Window

/-- A window in which no counter falls is reported exactly; in one in which some counter falls
nothing is claimed as long as what has risen stays hidden. -/
theorem honest_window_iff {prev current : DriveCounters} {elapsed : ℕ} (he : 0 < elapsed)
    (hsum : (current.readTimeNs - prev.readTimeNs) + (current.writeTimeNs - prev.writeTimeNs) ≤
      u64Max) :
    HonestWindow prev current elapsed ↔ (Fell prev current → Hidden prev current elapsed) := by
  rw [HonestWindow, ← unclaimed_iff he hsum]
  constructor
  · intro h
    exact h.1
  · intro h
    refine ⟨h, ?_⟩
    intro hfell
    exact exact_of_forward he (forward_of_not_fell hfell) hsum

/-- The counters of `disk4`, as the source's tests build them. -/
def disk4 (readOps writeOps readBytes writeBytes readTimeNs writeTimeNs : ℕ) : DriveCounters :=
  ⟨"disk4", some "Test SSD", some 500000000000, false, readOps, writeOps, readBytes, writeBytes,
    readTimeNs, writeTimeNs, 1, 2⟩

/-- Every counter falls at once. -/
theorem honest_window_all_fall :
    HonestWindow (disk4 1000 500 1073741824 1073741824 9000 9000) (disk4 10 5 100 100 50 50)
      1000000000 := by
  apply (honest_window_iff (by decide) (by decide)).mpr
  intro _
  constructor <;> decide

/-- The drive in its place has written less and read more. -/
theorem replaced_drive_claims :
    ¬ ∀ prev current elapsed, prev.name = current.name → 0 < elapsed →
      (current.readTimeNs - prev.readTimeNs) + (current.writeTimeNs - prev.writeTimeNs) ≤ u64Max →
      HonestWindow prev current elapsed := by
  intro h
  have hhonest := h (disk4 1000 500 1073741824 1073741824 9000 9000)
    (disk4 4000 5 2147483648 100 12000 50) 1000000000 rfl (by decide) (by decide)
  have hsilent := (unclaimed_iff (by decide) (by decide)).mp (hhonest.1 (by decide))
  exact absurd hsilent.readOps (by decide)

end Zstats
