import Zstats.Alerts.Sections
import Zstats.Framework.Unwinding

namespace Zstats

/-- The event is about the volume at `mount`. -/
def ofVolume (mount : String) (ev : AlertEvent) : Bool := decide (ev.subject = .volume mount)

/-- What a volume sees of the disk rule: is it disarmed, and the events about it. -/
def volumeView (mount : String) (acc : Finset String × List AlertEvent) :
    Bool × List AlertEvent :=
  (decide (mount ∈ acc.1), acc.2.filter (ofVolume mount))

def usedFraction (d : DiskSnapshot) : ℚ :=
  ((d.totalBytes - d.availableBytes : Nat) : ℚ) / d.totalBytes

def crossing (d : DiskSnapshot) (threshold : ℚ) : AlertEvent :=
  { subject := .volume d.mountPoint
    detail := .disk (usedFraction d * 100) (threshold * 100) d.availableBytes d.totalBytes
    repeatAfter := none }

/-- What judging its disk does to one volume. -/
def judgeVolume (rule : Option ℚ) (d : DiskSnapshot) (seen : Bool × List AlertEvent) :
    Bool × List AlertEvent :=
  match rule with
  | none => seen
  | some threshold =>
    if d.totalBytes = 0 then seen
    else if seen.1 = true then
      if usedFraction d < threshold - diskRearmMargin then (false, seen.2) else seen
    else if threshold ≤ usedFraction d then (true, seen.2 ++ [crossing d threshold])
    else seen

/-- The disk has a size and has reached its threshold. -/
def AtThreshold (rule : Option ℚ) (d : DiskSnapshot) : Prop :=
  d.totalBytes ≠ 0 ∧ ∃ threshold ∈ rule, threshold ≤ usedFraction d

/-- The disk has a size and is below its threshold by more than the margin. -/
def WellBelow (rule : Option ℚ) (d : DiskSnapshot) : Prop :=
  d.totalBytes ≠ 0 ∧ ∃ threshold ∈ rule, usedFraction d < threshold - diskRearmMargin

/-- A volume alerts where it reaches its threshold armed, and is disarmed from then until it falls
well below. -/
theorem judgeVolume_spec (rule : Option ℚ) (d : DiskSnapshot) (disarmed : Bool) :
    (judgeVolume rule d (disarmed, [])).2.length ≤ 1 ∧
      ((judgeVolume rule d (disarmed, [])).2 ≠ [] ↔ AtThreshold rule d ∧ disarmed = false) ∧
      ((judgeVolume rule d (disarmed, [])).1 = true ↔
        (judgeVolume rule d (disarmed, [])).2 ≠ [] ∨ disarmed = true ∧ ¬ WellBelow rule d) := by
  cases rule with
  | none => simp [judgeVolume, AtThreshold, WellBelow]
  | some threshold =>
    by_cases htotal : d.totalBytes = 0
    · simp [judgeVolume, AtThreshold, WellBelow, htotal]
    · cases disarmed with
      | true =>
        by_cases hlow : usedFraction d < threshold - diskRearmMargin
        · simp [judgeVolume, WellBelow, htotal, hlow]
        · simp [judgeVolume, WellBelow, htotal, hlow]
      | false =>
        by_cases hover : threshold ≤ usedFraction d
        · simp [judgeVolume, AtThreshold, htotal, hover]
        · simp [judgeVolume, AtThreshold, htotal, hover]

section Fold

variable {mount : String} {active : ActiveThresholds} {d : DiskSnapshot}
  (acc : Finset String × List AlertEvent)

theorem ofVolume_crossing {threshold : ℚ} :
    ofVolume mount (crossing d threshold) = decide (d.mountPoint = mount) := by
  simp [ofVolume, crossing]

theorem evaluateDisk_eq : evaluateDisk active acc d =
    match active.disk.forProcess d.mountPoint with
    | none => acc
    | some threshold =>
      if d.totalBytes = 0 then acc
      else if d.mountPoint ∈ acc.1 then
        if usedFraction d < threshold - diskRearmMargin then (acc.1.erase d.mountPoint, acc.2)
        else acc
      else if threshold ≤ usedFraction d then
        (insert d.mountPoint acc.1, acc.2 ++ [crossing d threshold])
      else acc := rfl

/-- Judging another disk is not seen. -/
theorem evaluateDisk_unseen (h : d.mountPoint ≠ mount) :
    volumeView mount (evaluateDisk active acc d) = volumeView mount acc := by
  rw [evaluateDisk_eq]
  cases active.disk.forProcess d.mountPoint with
  | none => rfl
  | some threshold =>
    dsimp only
    split_ifs
    · rfl
    · simp [volumeView, Ne.symm h]
    · rfl
    · simp [volumeView, Ne.symm h, ofVolume_crossing, h]
    · rfl

theorem evaluateDisk_seen (h : d.mountPoint = mount) :
    volumeView mount (evaluateDisk active acc d) =
      judgeVolume (active.disk.forProcess mount) d (volumeView mount acc) := by
  subst h
  rw [evaluateDisk_eq]
  unfold judgeVolume
  cases active.disk.forProcess d.mountPoint with
  | none => rfl
  | some threshold =>
    have hmem : (volumeView d.mountPoint acc).1 = true ↔ d.mountPoint ∈ acc.1 :=
      decide_eq_true_iff
    simp only [hmem]
    split_ifs with htotal hin hlow hover
    · rfl
    · simp [volumeView]
    · rfl
    · simp [volumeView, ofVolume_crossing]
    · rfl

theorem evaluateDisk_secure (mount : String) (disks : List DiskSnapshot) :
    Unwinding.Secure (evaluateDisk active) (volumeView mount)
      (fun d => decide (d.mountPoint = mount)) disks := by
  constructor
  · intro d _ hother acc
    exact evaluateDisk_unseen acc (of_decide_eq_false hother)
  · intro d _ hown acc acc' hview
    have hmount := of_decide_eq_true hown
    rw [evaluateDisk_seen acc hmount, evaluateDisk_seen acc' hmount, hview]

end Fold

def diskOf (mount : String) (disks : List DiskSnapshot) : Option DiskSnapshot :=
  disks.find? fun d => decide (d.mountPoint = mount)

/-- What an evaluation with a list of disks does to one volume: nothing is left of one that is not
listed, and its own disk alone decides about one that is. -/
theorem evaluateDisks_view {disks : List DiskSnapshot} (h : (disks.map (·.mountPoint)).Nodup)
    (disarmed : Finset String) (active : ActiveThresholds) (mount : String) :
    volumeView mount (evaluateDisks disarmed (some disks) active) =
      match diskOf mount disks with
      | none => (false, [])
      | some d => judgeVolume (active.disk.forProcess mount) d (decide (mount ∈ disarmed), []) := by
  rw [evaluateDisks, Unwinding.foldl_find h (evaluateDisk_secure mount disks)]
  cases hfind : diskOf mount disks with
  | none =>
    have habsent : ∀ d ∈ disks, d.mountPoint ≠ mount := by
      intro d hd hmount
      have hnone := List.find?_eq_none.mp hfind d hd
      simp [hmount] at hnone
    rw [diskOf] at hfind
    rw [hfind]
    simp only [Option.toList_none, List.foldl_nil, volumeView, List.filter_nil, Prod.mk.injEq,
      decide_eq_false_iff_not, Finset.mem_filter, and_true, List.any_eq_true, decide_eq_true_eq,
      not_and]
    intro _ ⟨d, hd, hmount⟩
    exact habsent d hd hmount
  | some d =>
    have hlisted : d ∈ disks := List.mem_of_find?_eq_some hfind
    have hmount : d.mountPoint = mount := by
      simpa using List.find?_some hfind
    rw [diskOf] at hfind
    rw [hfind]
    simp only [Option.toList_some, List.foldl_cons, List.foldl_nil]
    rw [evaluateDisk_seen _ hmount]
    congr 1
    simp only [volumeView, List.filter_nil, Finset.mem_filter, List.any_eq_true, decide_eq_true_eq]
    congr 1
    exact decide_eq_decide.mpr (and_iff_left ⟨d, hlisted, hmount⟩)

namespace AlertEngine

variable {x : ℕ → Input} {disk : Thresholds ℚ} {mount : String}

/-- The events about a volume at evaluation `n`. -/
def volumeEvents (x : ℕ → Input) (mount : String) (n : ℕ) : List AlertEvent :=
  (result x n).events.filter (ofVolume mount)

def Alerted (x : ℕ → Input) (mount : String) (n : ℕ) : Prop := volumeEvents x mount n ≠ []

/-- The volume is listed and at its threshold. -/
def Filled (disk : Thresholds ℚ) (mount : String) (i : Input) : Prop :=
  ∃ disks d, i.snapshot.disks = some disks ∧ diskOf mount disks = some d ∧
    AtThreshold (disk.forProcess mount) d

/-- The disks are listed, and the volume is not among them or is well below its threshold. -/
def Rearming (disk : Thresholds ℚ) (mount : String) (i : Input) : Prop :=
  ∃ disks, i.snapshot.disks = some disks ∧ (diskOf mount disks = none ∨
    ∃ d, diskOf mount disks = some d ∧ WellBelow (disk.forProcess mount) d)

def LastAlerted (x : ℕ → Input) (mount : String) (m n : ℕ) : Prop :=
  m < n ∧ Alerted x mount m ∧ ∀ j, m < j → j < n → ¬ Alerted x mount j

theorem step_diskDisarmed (e : AlertEngine) (i : Input) :
    (e.step i).1.diskDisarmed = (evaluateDisks e.diskDisarmed i.snapshot.disks i.active).1 := by
  unfold step evaluate
  cases i.snapshot.processes <;> rfl

theorem evaluatePressure_subject {p : PressureState} {now : ℕ} {snapshot : SystemSnapshot}
    {active : ActiveThresholds} {ev : AlertEvent}
    (hev : ev ∈ (evaluatePressure p now snapshot active).2) : ev.subject = .system := by
  rw [evaluatePressure] at hev
  split at hev
  · obtain ⟨_, -, rfl⟩ := List.mem_map.mp hev
    rfl
  · cases hev

/-- The events about a volume are those of the disk rule. -/
theorem step_volume (e : AlertEngine) (i : Input) (mount : String) :
    (e.step i).2.events.filter (ofVolume mount) =
      (evaluateDisks e.diskDisarmed i.snapshot.disks i.active).2.filter (ofVolume mount) := by
  have hpressure : (evaluatePressure e.pressure i.now i.snapshot i.active).2.filter
      (ofVolume mount) = [] := by
    rw [List.filter_eq_nil_iff]
    intro ev hev
    simp [ofVolume, evaluatePressure_subject hev]
  have hsection : ∀ app episodes,
      (e.runSection i app episodes).2.filter (ofVolume mount) = [] := by
    intro app episodes
    rw [List.filter_eq_nil_iff]
    intro ev hev hvolume
    obtain ⟨k, hkey, -⟩ := e.runSection_event i hev
    rw [AlertEvent.key, of_decide_eq_true hvolume] at hkey
    cases hkey
  rw [step_events, List.filter_append, List.filter_append, List.filter_append, hpressure,
    hsection, hsection, List.append_nil, List.append_nil, List.append_nil]

theorem step_volumeView (e : AlertEngine) (i : Input) (mount : String) :
    (decide (mount ∈ (e.step i).1.diskDisarmed), (e.step i).2.events.filter (ofVolume mount)) =
      volumeView mount (evaluateDisks e.diskDisarmed i.snapshot.disks i.active) := by
  rw [step_diskDisarmed, step_volume, volumeView]

/-- An evaluation without a list of disks leaves every volume as it was. -/
theorem volume_unlisted {n : ℕ} (h : (x n).snapshot.disks = none) :
    (before x (n + 1)).diskDisarmed = (before x n).diskDisarmed ∧
      ∀ mount, volumeEvents x mount n = [] := by
  constructor
  · change ((before x n).step (x n)).1.diskDisarmed = _
    rw [step_diskDisarmed, h]
    rfl
  · intro mount
    change ((before x n).step (x n)).2.events.filter (ofVolume mount) = []
    rw [step_volume, h]
    rfl

section Fixed

variable (hdisk : ∀ n, (x n).active.disk = disk)
  (hunique : ∀ n disks, (x n).snapshot.disks = some disks → (disks.map (·.mountPoint)).Nodup)
include hdisk hunique

/-- What one evaluation does to a volume. -/
theorem volume_step (mount : String) (n : ℕ) :
    (volumeEvents x mount n).length ≤ 1 ∧
      (Alerted x mount n ↔
        Filled disk mount (x n) ∧ mount ∉ (before x n).diskDisarmed) ∧
      (mount ∈ (before x (n + 1)).diskDisarmed ↔
        Alerted x mount n ∨
          mount ∈ (before x n).diskDisarmed ∧ ¬ Rearming disk mount (x n)) := by
  cases hlist : (x n).snapshot.disks with
  | none =>
    obtain ⟨hafter, hevents⟩ := volume_unlisted hlist
    simp [hafter, Alerted, hevents, Filled, Rearming, hlist]
  | some disks =>
    have hview := step_volumeView (before x n) (x n) mount
    rw [hlist, evaluateDisks_view (hunique n disks hlist), hdisk] at hview
    change (decide (mount ∈ (before x (n + 1)).diskDisarmed), volumeEvents x mount n) = _ at hview
    cases hfind : diskOf mount disks with
    | none =>
      rw [hfind] at hview
      obtain ⟨hafter, hevents⟩ := Prod.mk.inj hview
      have hafter := of_decide_eq_false hafter
      simp [hafter, Alerted, hevents, Filled, Rearming, hlist, hfind]
    | some d =>
      rw [hfind] at hview
      obtain ⟨hlength, halert, hdisarmed⟩ := judgeVolume_spec (disk.forProcess mount) d
        (decide (mount ∈ (before x n).diskDisarmed))
      have hover : Filled disk mount (x n) ↔ AtThreshold (disk.forProcess mount) d := by
        simp [Filled, hlist, hfind]
      have hrearming : Rearming disk mount (x n) ↔ WellBelow (disk.forProcess mount) d := by
        simp [Rearming, hlist, hfind]
      simp only at hview
      rw [← hview] at hlength halert hdisarmed
      simp only [decide_eq_true_eq, decide_eq_false_iff_not] at halert hdisarmed
      rw [hover, hrearming]
      exact ⟨hlength, halert, hdisarmed⟩

/-- A volume is disarmed from an alert on until it goes or falls well below its threshold. -/
theorem disarmed_iff (mount : String) (n : ℕ) :
    mount ∈ (before x n).diskDisarmed ↔
      ∃ i < n, Alerted x mount i ∧ ∀ j, i < j → j < n → ¬ Rearming disk mount (x j) := by
  refine Machine.latch_iff (P := fun n => mount ∈ (before x n).diskDisarmed) ?_ ?_ n
  · intro hmem
    cases hmem
  · intro n
    exact (volume_step hdisk hunique mount n).2.2

theorem rearmed_between {mount : String} {m n : ℕ} (hmn : m < n) (hm : Alerted x mount m)
    (hn : Alerted x mount n) : ∃ j, m < j ∧ j < n ∧ Rearming disk mount (x j) := by
  have harmed := ((volume_step hdisk hunique mount n).2.1.mp hn).2
  rw [disarmed_iff hdisk hunique] at harmed
  by_contra hnone
  apply harmed
  refine ⟨m, hmn, hm, ?_⟩
  intro j hmj hjn hj
  exact hnone ⟨j, hmj, hjn, hj⟩

/-- Every crossing of a volume is alerted on once, and once more only after the volume has gone or
fallen well below its threshold. -/
theorem disk_crossings (mount : String) :
    (∀ n, (volumeEvents x mount n).length ≤ 1) ∧
      (∀ m n, m < n → Alerted x mount m → Alerted x mount n →
        ∃ j, m < j ∧ j < n ∧ Rearming disk mount (x j)) ∧
      (∀ n, Filled disk mount (x n) → (Alerted x mount n ↔
        (∀ i < n, ¬ Alerted x mount i) ∨
          ∃ i j, LastAlerted x mount i n ∧ i < j ∧ j < n ∧ Rearming disk mount (x j))) ∧
      ∀ n, (x n).snapshot.disks = none →
        (before x (n + 1)).diskDisarmed = (before x n).diskDisarmed ∧
          ∀ mount, volumeEvents x mount n = [] := by
  refine ⟨fun n => (volume_step hdisk hunique mount n).1,
    fun m n hmn => rearmed_between hdisk hunique hmn, ?_, fun n => volume_unlisted⟩
  intro n hfilled
  rw [(volume_step hdisk hunique mount n).2.1, and_iff_right hfilled, disarmed_iff hdisk hunique]
  constructor
  · intro harmed
    by_cases hearlier : ∃ i < n, Alerted x mount i
    · right
      obtain ⟨i, hi, halerted, hlast⟩ := Machine.exists_last hearlier
      by_contra hnone
      apply harmed
      refine ⟨i, hi, halerted, ?_⟩
      intro j hij hjn hj
      exact hnone ⟨i, j, ⟨hi, halerted, hlast⟩, hij, hjn, hj⟩
    · left
      intro i hi halerted
      exact hearlier ⟨i, hi, halerted⟩
  · rintro (hnone | ⟨i, j, ⟨hi, halerted, hlast⟩, hij, hjn, hj⟩) ⟨m, hm, hm', hkept⟩
    · exact hnone m hm hm'
    · -- the alert that disarmed it is no later than the last one
      have hle : m ≤ i := by
        by_contra hlt
        exact hlast m (not_le.mp hlt) hm hm'
      exact hkept j (lt_of_le_of_lt hle hij) hjn hj

end Fixed

def volume (total available : ℕ) : DiskSnapshot :=
  { name := "disk1"
    mountPoint := "/"
    fileSystem := "apfs"
    kind := "SSD"
    isRemovable := false
    totalBytes := total
    availableBytes := available
    usedPercent := 0
    readBytesPerSec := none
    writeBytesPerSec := none }

/-- Each minute, a volume that is nine tenths full. -/
def fullRun (n : ℕ) : Input :=
  { now := n * fromSecs 60
    snapshot := { snapshot [] 1000 with disks := some [volume 1000 100] }
    active := { ActiveThresholds.off (fromSecs 600) with disk := .new (some (9 / 10)) } }

/-- A volume that stays full is not alerted on a second time. -/
theorem disk_crossings_full :
    (∀ n, (volumeEvents fullRun "/" n).length ≤ 1) ∧
      (∀ m n, m < n → Alerted fullRun "/" m → Alerted fullRun "/" n →
        ∃ j, m < j ∧ j < n ∧ Rearming (.new (some (9 / 10))) "/" (fullRun j)) ∧
      (∀ n, Filled (.new (some (9 / 10))) "/" (fullRun n) → (Alerted fullRun "/" n ↔
        (∀ i < n, ¬ Alerted fullRun "/" i) ∨
          ∃ i j, LastAlerted fullRun "/" i n ∧ i < j ∧ j < n ∧
            Rearming (.new (some (9 / 10))) "/" (fullRun j))) ∧
      ∀ n, (fullRun n).snapshot.disks = none →
        (before fullRun (n + 1)).diskDisarmed = (before fullRun n).diskDisarmed ∧
          ∀ mount, volumeEvents fullRun mount n = [] :=
  disk_crossings (x := fullRun) (fun _ => rfl) (fun _ _ h => by cases h; decide) "/"

end AlertEngine

end Zstats
