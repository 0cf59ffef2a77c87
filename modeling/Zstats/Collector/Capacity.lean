import Mathlib.Tactic.IntervalCases
import Zstats.Collector.DiskRates

namespace Zstats

open Diffing

/-- By what sysinfo tells the volumes of its list apart. -/
def Disk.volume (d : Disk) : String × String := (d.name, d.mountPoint)

def Disk.capacity (d : Disk) : ℕ × ℕ := (d.totalSpace, d.availableSpace)

def DiskSnapshot.volume (s : DiskSnapshot) : String × String := (s.name, s.mountPoint)

def DiskSnapshot.capacity (s : DiskSnapshot) : ℕ × ℕ := (s.totalBytes, s.availableBytes)

theorem Disk.key_of_volume {d v : Disk} (h : d.volume = v.volume) : d.key = v.key := by
  have hname : d.name = v.name := congrArg Prod.fst h
  have hmount : d.mountPoint = v.mountPoint := congrArg Prod.snd h
  rw [Disk.key, Disk.key, hname, hmount]

/-- Both lookups by volume, in the list and among what is mounted. -/
theorem volume_found {disks : List Disk} {v d : Disk}
    (h : disks.find? (fun d => d.name == v.name && d.mountPoint == v.mountPoint) = some d) :
    d ∈ disks ∧ d.volume = v.volume := by
  have hsame := List.find?_some h
  rw [Bool.and_eq_true, beq_iff_eq, beq_iff_eq] at hsame
  exact ⟨List.mem_of_find?_eq_some h, Prod.ext hsame.1 hsame.2⟩

theorem volume_missing {disks : List Disk} {v : Disk}
    (h : disks.find? (fun d => d.name == v.name && d.mountPoint == v.mountPoint) = none) :
    ∀ d ∈ disks, d.volume ≠ v.volume := by
  intro d hd hsame
  have hname : d.name = v.name := congrArg Prod.fst hsame
  have hmount : d.mountPoint = v.mountPoint := congrArg Prod.snd hsame
  have hno := List.find?_eq_none.mp h d hd
  simp [hname, hmount] at hno

theorem Disk.refreshStorage_volume (mounted : List Disk) (d : Disk) :
    (d.refreshStorage mounted).volume = d.volume := by
  rw [Disk.refreshStorage]
  split <;> rfl

theorem Disk.refreshStorage_capacity {mounted : List Disk} {d v : Disk} (hv : v ∈ mounted)
    (h : v.volume = d.volume) :
    ∃ u ∈ mounted, u.volume = d.volume ∧ u.capacity = (d.refreshStorage mounted).capacity := by
  rw [Disk.refreshStorage]
  split
  case h_1 u hfound =>
    have hu := volume_found hfound
    exact ⟨u, hu.1, hu.2, rfl⟩
  case h_2 hmissing => exact absurd h (volume_missing hmissing v hv)

/-- Without storage an entry has the capacity it had, if it was there. -/
theorem refreshDisks_entry {disks mounted : List Disk} {d : Disk}
    (h : d ∈ refreshDisks disks mounted false) :
    (∃ v ∈ mounted, v.volume = d.volume) ∧
    ((∃ e ∈ disks, e.volume = d.volume ∧ e.capacity = d.capacity) ∨
      ∀ e ∈ disks, e.volume ≠ d.volume) := by
  obtain ⟨v, hv, hd⟩ := List.mem_map.mp h
  split at hd
  case h_1 e hfound =>
    have he := volume_found hfound
    rw [← hd]
    exact ⟨⟨v, hv, rfl⟩, Or.inl ⟨e, he.1, he.2, rfl⟩⟩
  case h_2 hmissing =>
    rw [← hd]
    exact ⟨⟨v, hv, rfl⟩, Or.inr (volume_missing hmissing)⟩

section Refresh

variable (config : DiskConfig) (s : DiskChannel) (r : DiskRound)

/-- The refresh reads the capacity of a volume: all are due, or this one counts as new. -/
def ReadsCapacity (key : String) : Prop :=
  s.storageDue config r.span.start = true ∨ isNewMount key s.lastDiskCounters = true

/-- The refresh reads every volume that it adds to the list. -/
def RecognisesNew : Prop :=
  ∀ v ∈ r.mounted, (∀ d ∈ s.disks, d.volume ≠ v.volume) → ReadsCapacity config s r v.key

instance (key : String) : Decidable (ReadsCapacity config s r key) :=
  inferInstanceAs (Decidable (_ ∨ _))

instance : Decidable (RecognisesNew config s r) := inferInstanceAs (Decidable (∀ v ∈ _, _))

variable {config s r}

/-- Where a refreshed entry has its capacity from: the volume itself, the entry before, or
nowhere. -/
theorem enumerate_entry {d : Disk} (h : d ∈ s.enumerate config r) :
    (ReadsCapacity config s r d.key ∧
      ∃ v ∈ r.mounted, v.volume = d.volume ∧ v.capacity = d.capacity) ∨
    (∃ e ∈ s.disks, e.volume = d.volume ∧ e.capacity = d.capacity) ∨
    ((∃ v ∈ r.mounted, v.volume = d.volume) ∧ (∀ e ∈ s.disks, e.volume ≠ d.volume) ∧
      ¬ ReadsCapacity config s r d.key) := by
  rw [DiskChannel.enumerate] at h
  cases hdue : s.storageDue config r.span.start with
  | true =>
    have hd : d ∈ r.mounted := by simpa [hdue, refreshDisks] using h
    exact Or.inl ⟨Or.inl hdue, d, hd, rfl, rfl⟩
  | false =>
    have hmade : d ∈ (refreshDisks s.disks r.mounted false).map fun d =>
        if isNewMount d.key s.lastDiskCounters then d.refreshStorage r.mounted else d := by
      simpa only [hdue, Bool.false_eq_true, if_false] using h
    obtain ⟨e, he, hd⟩ := List.mem_map.mp hmade
    obtain ⟨⟨v, hv, hve⟩, hold⟩ := refreshDisks_entry he
    by_cases hnew : isNewMount e.key s.lastDiskCounters = true
    · rw [if_pos hnew] at hd
      have hvolume : d.volume = e.volume := by
        rw [← hd, Disk.refreshStorage_volume]
      left
      rw [Disk.key_of_volume hvolume, hvolume, ← hd]
      exact ⟨Or.inr hnew, Disk.refreshStorage_capacity hv hve⟩
    · rw [if_neg hnew] at hd
      right
      rw [← hd]
      rcases hold with hkept | hentered
      · exact Or.inl hkept
      · right
        refine ⟨⟨v, hv, hve⟩, hentered, ?_⟩
        intro hreads
        rcases hreads with hall | hone
        · rw [hdue] at hall
          cases hall
        · exact hnew hone

theorem enumerate_volume :
    (s.enumerate config r).map Disk.volume = r.mounted.map Disk.volume :=
  enumerate_map config (fun _ _ _ => rfl) s r

theorem collectDisks_disks (h : config.collectDisks = true ∧
      due config.diskIoRefreshInterval s.lastDiskIoRefresh r.span.start = true) :
    (s.collectDisks config r).1.disks = s.enumerate config r := by
  simp [DiskChannel.collectDisks, h.1, h.2]

theorem collectDisks_all (h : config.collectDisks = true ∧
      due config.diskIoRefreshInterval s.lastDiskIoRefresh r.span.start = true)
    (hall : config.dedupeDisks = false) :
    (s.collectDisks config r).2 = some ((s.enumerate config r).map
      (s.snapshotOf (s.lastDiskIoRefresh.map (durationSince r.span.start)))) := by
  simp [DiskChannel.collectDisks, h.1, h.2, hall]

end Refresh

section Run

variable (config : DiskConfig) (started : ℕ) (mounted : List Disk) (x : ℕ → DiskRound)

/-- The volume is in the list before round `n`. -/
def Listed (n : ℕ) (volume : String × String) : Prop :=
  ∃ d ∈ (diskChannel config started mounted x n).disks, d.volume = volume

/-- The reads of capacities: at 0 those of the constructor, at `n + 1` those of round `n`. -/
def CapacityRead : ℕ → String × String → ℕ × ℕ → Prop
  | 0, volume, capacity =>
    config.collectDisks = true ∧ ∃ v ∈ mounted, v.volume = volume ∧ v.capacity = capacity
  | n + 1, volume, capacity =>
    DisksRefreshed config started mounted x n ∧
    ReadsCapacity config (diskChannel config started mounted x n) (x n)
      (diskKey volume.1 volume.2) ∧
    ∃ v ∈ (x n).mounted, v.volume = volume ∧ v.capacity = capacity

/-- The capacity was read when the volume was in the list, which it has not left since. -/
def ReadSinceListed (n : ℕ) (volume : String × String) (capacity : ℕ × ℕ) : Prop :=
  ∃ m ≤ n, CapacityRead config started mounted x m volume capacity ∧
    ∀ k, m ≤ k → k ≤ n → Listed config started mounted x k volume

/-- The volumes that were mounted at the last refresh before round `n`, if there was one. -/
def foundBefore : ℕ → List (String × String)
  | 0 => []
  | n + 1 =>
    if DisksRefreshed config started mounted x n then (x n).mounted.map Disk.volume
    else foundBefore n

/-- Those in the list before round `n`, which has its first ones from the constructor. -/
def listedBefore : ℕ → List (String × String)
  | 0 => if config.collectDisks then mounted.map Disk.volume else []
  | n + 1 =>
    if DisksRefreshed config started mounted x n then (x n).mounted.map Disk.volume
    else listedBefore n

/-- Capacities are due in round `n`, or each volume that it adds to the list comes after a refresh
that found some volume, and none under the key of this one. -/
def Recognised (n : ℕ) : Prop :=
  DisksRefreshed config started mounted x n →
    (diskChannel config started mounted x n).storageDue config (x n).span.start = true ∨
      ∀ v ∈ (x n).mounted, v.volume ∉ listedBefore config started mounted x n →
        foundBefore config started mounted x n ≠ [] ∧
          ∀ u ∈ foundBefore config started mounted x n, diskKey u.1 u.2 ≠ v.key

/-- What round `n` reports has capacities read since the volumes appeared. -/
def CapacitiesRead (n : ℕ) : Prop :=
  ∀ snapshots, diskOutput config started mounted x n = some snapshots → ∀ s ∈ snapshots,
    ReadSinceListed config started mounted x (n + 1) s.volume s.capacity

/-- The volume is among the snapshots of round `n`. -/
def Reported (n : ℕ) (volume : String × String) : Prop :=
  ∃ snapshots, diskOutput config started mounted x n = some snapshots ∧
    ∃ s ∈ snapshots, s.volume = volume

variable {config started mounted x}

theorem disks_volumes (n : ℕ) : (diskChannel config started mounted x n).disks.map Disk.volume =
    listedBefore config started mounted x n := by
  induction n with
  | zero =>
    change (if config.collectDisks then mounted else []).map Disk.volume =
      if config.collectDisks then mounted.map Disk.volume else []
    cases config.collectDisks <;> rfl
  | succ n ih =>
    rw [diskChannel_succ, listedBefore]
    by_cases hn : DisksRefreshed config started mounted x n
    · rw [if_pos hn, collectDisks_disks hn, enumerate_volume]
    · rw [if_neg hn, (collectDisks_kept config hn).1, ih]

theorem counters_keys (n : ℕ) :
    (diskChannel config started mounted x n).lastDiskCounters.map Prod.fst =
      (foundBefore config started mounted x n).map fun u => diskKey u.1 u.2 := by
  induction n with
  | zero => rfl
  | succ n ih =>
    rw [diskChannel_succ, foundBefore]
    by_cases hn : DisksRefreshed config started mounted x n
    · rw [if_pos hn, (collectDisks_refreshed config hn).2.1, List.map_map, List.map_map]
      rfl
    · rw [if_neg hn, (collectDisks_kept config hn).1, ih]

theorem isNewMount_iff {key : String} {known : List (String × DiskCounters)} :
    isNewMount key known = true ↔ known.map Prod.fst ≠ [] ∧ key ∉ known.map Prod.fst := by
  rw [isNewMount, Bool.and_eq_true, Bool.not_eq_true', List.isEmpty_eq_false_iff,
    Option.isNone_iff_eq_none, lookupLast_eq_none, ne_eq, ne_eq, List.map_eq_nil_iff]

/-- The condition is that the refresh reads every volume that it adds. -/
theorem recognised_iff {n : ℕ} : Recognised config started mounted x n ↔
    (DisksRefreshed config started mounted x n →
      RecognisesNew config (diskChannel config started mounted x n) (x n)) := by
  have hnew (v : Disk) : (∀ d ∈ (diskChannel config started mounted x n).disks,
      d.volume ≠ v.volume) ↔ v.volume ∉ listedBefore config started mounted x n := by
    rw [← disks_volumes, List.mem_map]
    simp
  have hreads (v : Disk) :
      isNewMount v.key (diskChannel config started mounted x n).lastDiskCounters = true ↔
        foundBefore config started mounted x n ≠ [] ∧
          ∀ u ∈ foundBefore config started mounted x n, diskKey u.1 u.2 ≠ v.key := by
    rw [isNewMount_iff, counters_keys, ne_eq, List.map_eq_nil_iff, List.mem_map]
    simp
  rw [Recognised, RecognisesNew]
  apply imp_congr_right
  intro _
  simp only [hnew, ReadsCapacity, hreads]
  by_cases hdue : (diskChannel config started mounted x n).storageDue config
      (x n).span.start = true
  · simp only [hdue, true_or, implies_true]
  · simp only [hdue, Bool.false_eq_true, false_or]

theorem ReadSinceListed.succ {n : ℕ} {volume : String × String} {capacity : ℕ × ℕ}
    (h : ReadSinceListed config started mounted x n volume capacity)
    (hlisted : Listed config started mounted x (n + 1) volume) :
    ReadSinceListed config started mounted x (n + 1) volume capacity := by
  obtain ⟨m, hm, hread, hsince⟩ := h
  refine ⟨m, Nat.le_succ_of_le hm, hread, ?_⟩
  intro k hmk hk
  rcases Nat.le_succ_iff.mp hk with hle | heq
  · exact hsince k hmk hle
  · rw [heq]
    exact hlisted

/-- If every volume is recognised as it enters, each entry's capacity has been read since. -/
theorem listed_read {n : ℕ} (h : ∀ k < n, Recognised config started mounted x k) :
    ∀ d ∈ (diskChannel config started mounted x n).disks,
      ReadSinceListed config started mounted x n d.volume d.capacity := by
  induction n with
  | zero =>
    intro d hd
    have hlisted : Listed config started mounted x 0 d.volume := ⟨d, hd, rfl⟩
    refine ⟨0, le_rfl, ?_, fun k _ hk => ?_⟩
    · change d ∈ if config.collectDisks then mounted else [] at hd
      cases hon : config.collectDisks with
      | true =>
        rw [hon, if_pos rfl] at hd
        exact ⟨hon, d, hd, rfl, rfl⟩
      | false => simp [hon] at hd
    · rw [Nat.le_zero.mp hk]
      exact hlisted
  | succ n ih =>
    have hbefore := ih fun k hk => h k (Nat.lt_succ_of_lt hk)
    intro d hd
    have hlisted : Listed config started mounted x (n + 1) d.volume := ⟨d, hd, rfl⟩
    by_cases hn : DisksRefreshed config started mounted x n
    · rw [diskChannel_succ, collectDisks_disks hn] at hd
      rcases enumerate_entry hd with ⟨hreads, hv⟩ | ⟨e, he, hvolume, hcapacity⟩ | hentered
      · refine ⟨n + 1, le_rfl, ⟨hn, hreads, hv⟩, fun k hk hk' => ?_⟩
        rw [le_antisymm hk' hk]
        exact hlisted
      · have hread := hbefore e he
        rw [hvolume, hcapacity] at hread
        exact hread.succ hlisted
      · obtain ⟨⟨v, hv, hvolume⟩, hnew, hunread⟩ := hentered
        rw [← hvolume] at hnew
        have hreads := recognised_iff.mp (h n n.lt_succ_self) hn v hv hnew
        rw [Disk.key_of_volume hvolume] at hreads
        exact absurd hreads hunread
    · rw [diskChannel_succ, (collectDisks_kept config hn).1] at hd
      exact (hbefore d hd).succ hlisted

/-- Every snapshot reported shows an entry of the list as it is then. -/
theorem reported_listed {n : ℕ} {snapshots : List DiskSnapshot}
    (h : diskOutput config started mounted x n = some snapshots) :
    ∀ s ∈ snapshots, ∃ d ∈ (diskChannel config started mounted x (n + 1)).disks,
      d.volume = s.volume ∧ d.capacity = s.capacity := by
  have hmade : ∀ n, DisksRefreshed config started mounted x n →
      ∀ snapshots, diskOutput config started mounted x n = some snapshots → ∀ s ∈ snapshots,
        ∃ d ∈ (diskChannel config started mounted x (n + 1)).disks,
          d.volume = s.volume ∧ d.capacity = s.capacity := by
    intro n hn snapshots hs s hmem
    obtain ⟨d, hd, rfl⟩ := (collectDisks_refreshed config hn).2.2.2 snapshots hs s hmem
    rw [diskChannel_succ, collectDisks_disks hn]
    exact ⟨d, hd, rfl, rfl⟩
  have hcached : ∀ n snapshots,
      (diskChannel config started mounted x n).cachedDisks = some snapshots → ∀ s ∈ snapshots,
        ∃ d ∈ (diskChannel config started mounted x n).disks,
          d.volume = s.volume ∧ d.capacity = s.capacity := by
    intro n
    induction n with
    | zero =>
      intro snapshots hs
      cases hs
    | succ n ih =>
      intro snapshots hs
      by_cases hn : DisksRefreshed config started mounted x n
      · apply hmade n hn snapshots
        rw [diskChannel_succ, (collectDisks_refreshed config hn).2.2.1] at hs
        exact hs
      · rw [diskChannel_succ, (collectDisks_kept config hn).1] at hs ⊢
        exact ih snapshots hs
  by_cases hn : DisksRefreshed config started mounted x n
  · exact hmade n hn snapshots h
  · have hkept := collectDisks_kept config hn
    rw [diskChannel_succ, hkept.1]
    exact hcached n snapshots (hkept.2 snapshots h)

theorem capacitiesRead_of_recognised {n : ℕ}
    (h : ∀ k ≤ n, Recognised config started mounted x k) :
    CapacitiesRead config started mounted x n := by
  intro snapshots hs s hmem
  obtain ⟨d, hd, hvolume, hcapacity⟩ := reported_listed hs s hmem
  rw [← hvolume, ← hcapacity]
  exact listed_read (fun k hk => h k (Nat.le_of_lt_succ hk)) d hd

/-- A volume that enters the list unread has no capacity to report. -/
theorem not_readSinceListed {n : ℕ} {v : Disk}
    (hnew : ∀ d ∈ (diskChannel config started mounted x n).disks, d.volume ≠ v.volume)
    (hunread : ¬ ReadsCapacity config (diskChannel config started mounted x n) (x n) v.key)
    (capacity : ℕ × ℕ) :
    ¬ ReadSinceListed config started mounted x (n + 1) v.volume capacity := by
  rintro ⟨m, hm, hread, hsince⟩
  rcases Nat.le_succ_iff.mp hm with hle | heq
  · obtain ⟨d, hd, hvolume⟩ := hsince n hle n.le_succ
    exact hnew d hd hvolume
  · rw [heq] at hread
    exact hunread hread.2.1

/-- Without the removal of duplicates every volume is reported. -/
theorem reported_of_all {n : ℕ} (hall : config.dedupeDisks = false)
    (hn : DisksRefreshed config started mounted x n) {v : Disk} (hv : v ∈ (x n).mounted) :
    Reported config started mounted x n v.volume := by
  have hvolume : v.volume ∈ ((diskChannel config started mounted x n).enumerate config
      (x n)).map Disk.volume := by
    rw [enumerate_volume]
    exact List.mem_map_of_mem hv
  obtain ⟨d, hd, hdv⟩ := List.mem_map.mp hvolume
  exact ⟨_, collectDisks_all hn hall, _, List.mem_map_of_mem hd, hdv⟩

theorem recognised_of_capacitiesRead {n : ℕ}
    (hreported : ∀ v ∈ (x n).mounted, Reported config started mounted x n v.volume)
    (h : CapacitiesRead config started mounted x n) : Recognised config started mounted x n := by
  rw [recognised_iff]
  intro _ v hv hnew
  by_contra hunread
  obtain ⟨snapshots, hs, s, hmem, hvolume⟩ := hreported v hv
  have hread := h snapshots hs s hmem
  rw [hvolume] at hread
  exact not_readSinceListed hnew hunread _ hread

end Run

/-- A run whose refreshes recognise every volume that enters the list reports no volume without a
capacity read. Where no volume is left out as a duplicate, as where duplicates stay, only such a run
does. -/
theorem capacities_read_when_recognised (config : DiskConfig) (started : ℕ) (mounted : List Disk)
    (x : ℕ → DiskRound) (n : ℕ) :
    ((∀ k ≤ n, Recognised config started mounted x k) →
      ∀ k ≤ n, CapacitiesRead config started mounted x k) ∧
    ((∀ k ≤ n, DisksRefreshed config started mounted x k → ∀ v ∈ (x k).mounted,
        Reported config started mounted x k v.volume) →
      (∀ k ≤ n, CapacitiesRead config started mounted x k) →
      ∀ k ≤ n, Recognised config started mounted x k) ∧
    (config.dedupeDisks = false →
      ((∀ k ≤ n, CapacitiesRead config started mounted x k) ↔
        ∀ k ≤ n, Recognised config started mounted x k)) := by
  have hforth : (∀ k ≤ n, Recognised config started mounted x k) →
      ∀ k ≤ n, CapacitiesRead config started mounted x k :=
    fun h k hk => capacitiesRead_of_recognised fun j hj => h j (hj.trans hk)
  have hback : (∀ k ≤ n, DisksRefreshed config started mounted x k → ∀ v ∈ (x k).mounted,
        Reported config started mounted x k v.volume) →
      (∀ k ≤ n, CapacitiesRead config started mounted x k) →
      ∀ k ≤ n, Recognised config started mounted x k := by
    intro hreported h k hk hn
    exact recognised_of_capacitiesRead (hreported k hk hn) (h k hk) hn
  refine ⟨hforth, hback, ?_⟩
  intro hall
  exact ⟨hback fun k _ hn v hv => reported_of_all hall hn hv, hforth⟩

/-- A volume of 100 GB with 40 GB free. -/
def volumeAt (name mountPoint : String) : Disk :=
  ⟨name, mountPoint, "apfs", "SSD", false, 100000000000, 40000000000, 0, 0⟩

/-- Capacities are due once a minute. -/
def minutely : DiskConfig := ⟨true, 0, fromSecs 60, true⟩

/-- The second volume is mounted when the counters of the first are known. -/
def knownFirst : ℕ → DiskRound
  | 0 => ⟨⟨fromSecs 1, fromSecs 1, le_rfl⟩, [volumeAt "disk0" "/"], ["disk0"]⟩
  | _ => ⟨⟨fromSecs 2, fromSecs 2, le_rfl⟩,
      [volumeAt "disk0" "/", volumeAt "disk1" "/Volumes/X"], ["disk0", "disk1"]⟩

theorem capacities_read_knownFirst :
    ∀ k ≤ 1, CapacitiesRead minutely 0 [volumeAt "disk0" "/"] knownFirst k := by
  apply (capacities_read_when_recognised minutely 0 [volumeAt "disk0" "/"] knownFirst 1).1
  intro k hk _
  interval_cases k <;> decide

/-- The second volume is mounted before the first collect. -/
def lateMount (_ : ℕ) : DiskRound := knownFirst 1

/-- The second volume is reported with nothing in it. -/
theorem lateMount_unread :
    (diskOutput minutely 0 [volumeAt "disk0" "/"] lateMount 0).map
      (fun snapshots => snapshots.map DiskSnapshot.capacity) =
        some [(100000000000, 40000000000), (0, 0)] ∧
    ¬ CapacitiesRead minutely 0 [volumeAt "disk0" "/"] lateMount 0 := by
  refine ⟨by decide, ?_⟩
  intro h
  have hreported : ∃ s ∈ (diskOutput minutely 0 [volumeAt "disk0" "/"] lateMount 0).getD [],
      s.volume = ("disk1", "/Volumes/X") := by decide
  obtain ⟨s, hs, hvolume⟩ := hreported
  have hread := h _ (by rfl) s hs
  rw [hvolume] at hread
  have hnew : ∀ d ∈ (diskChannel minutely 0 [volumeAt "disk0" "/"] lateMount 0).disks,
      d.volume ≠ (volumeAt "disk1" "/Volumes/X").volume := by decide
  exact not_readSinceListed hnew (by decide) _ hread

end Zstats
