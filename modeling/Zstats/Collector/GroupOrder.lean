import Mathlib.Data.List.Induction
import Mathlib.Tactic.Ring
import Zstats.Collector.Groups

namespace Zstats

theorem saturatingAdd_right_comm (a b c : ℕ) :
    saturatingAdd (saturatingAdd a b) c = saturatingAdd (saturatingAdd a c) b := by
  unfold saturatingAdd
  omega

theorem GroupTotals.add_right_comm (entry : GroupTotals) (a b : ProcNode) :
    (entry.add a).add b = (entry.add b).add a := by
  have hmem := saturatingAdd_right_comm entry.mem a.mem b.mem
  have hfootprint := saturatingAdd_right_comm entry.footprintSum (a.footprint.getD a.mem)
    (b.footprint.getD b.mem)
  have hcpu : entry.cpu + a.cpu + b.cpu = entry.cpu + b.cpu + a.cpu := by ring
  have hany : ((entry.anyFootprint || a.footprint.isSome) || b.footprint.isSome) =
      ((entry.anyFootprint || b.footprint.isSome) || a.footprint.isSome) := by
    rw [Bool.or_assoc, Bool.or_comm a.footprint.isSome, ← Bool.or_assoc]
  have hread := saturatingAdd_right_comm (entry.readBytes.getD 0)
  have hwritten := saturatingAdd_right_comm (entry.writtenBytes.getD 0)
  unfold GroupTotals.add
  rw [GroupTotals.mk.injEq]
  refine ⟨rfl, rfl, hcpu, hmem, hfootprint, hany, ?_, ?_⟩
  · cases a.io <;> cases b.io <;> simp [hread]
  · cases a.io <;> cases b.io <;> simp [hwritten]

theorem tally_right_comm (root : Pid → Pid) (totals : Pid → Option GroupTotals)
    (a b : Pid × ProcNode) :
    tally root (tally root totals a) b = tally root (tally root totals b) a := by
  by_cases h : root a.1 = root b.1
  · unfold tally
    rw [h]
    simp only [Function.update_self, Function.update_idem, Option.getD_some]
    rw [GroupTotals.add_right_comm]
  · have hne : root b.1 ≠ root a.1 := Ne.symm h
    unfold tally
    simp only [Function.update_of_ne h, Function.update_of_ne hne]
    rw [Function.update_comm hne]

section Rank

theorem rankedBefore_total (a b : GroupTotals) : RankedBefore a b ∨ RankedBefore b a := by
  rw [RankedBefore]
  rcases lt_trichotomy a.cpu b.cpu with hlt | heq | hgt
  · exact Or.inr (Or.inl hlt)
  · rcases lt_trichotomy a.mem b.mem with hlt | hmem | hgt
    · exact Or.inr (Or.inr ⟨heq, Or.inl hlt⟩)
    · rcases le_total a.rootPid b.rootPid with hle | hle
      · exact Or.inl (Or.inr ⟨heq.symm, Or.inr ⟨hmem.symm, hle⟩⟩)
      · exact Or.inr (Or.inr ⟨heq, Or.inr ⟨hmem, hle⟩⟩)
    · exact Or.inl (Or.inr ⟨heq.symm, Or.inl hgt⟩)
  · exact Or.inl (Or.inl hgt)

theorem rankedBefore_trans {a b c : GroupTotals} (hab : RankedBefore a b)
    (hbc : RankedBefore b c) : RankedBefore a c := by
  unfold RankedBefore at *
  rcases hab with hcpu | ⟨hcpu, hmem⟩
  · rcases hbc with hcpu' | ⟨hcpu', -⟩
    · exact Or.inl (hcpu'.trans hcpu)
    · rw [← hcpu'] at hcpu
      exact Or.inl hcpu
  · rcases hbc with hcpu' | ⟨hcpu', hmem'⟩
    · rw [hcpu] at hcpu'
      exact Or.inl hcpu'
    · right
      refine ⟨hcpu'.trans hcpu, ?_⟩
      rcases hmem with hlt | ⟨heq, hle⟩
      · rcases hmem' with hlt' | ⟨heq', -⟩
        · exact Or.inl (hlt'.trans hlt)
        · rw [← heq'] at hlt
          exact Or.inl hlt
      · rcases hmem' with hlt' | ⟨heq', hle'⟩
        · rw [heq] at hlt'
          exact Or.inl hlt'
        · exact Or.inr ⟨heq'.trans heq, hle.trans hle'⟩

instance : Std.Total RankedBefore := ⟨rankedBefore_total⟩

instance : IsTrans GroupTotals RankedBefore := ⟨fun _ _ _ => rankedBefore_trans⟩

theorem rankedBefore_rootPid {a b : GroupTotals} (hab : RankedBefore a b)
    (hba : RankedBefore b a) : a.rootPid = b.rootPid := by
  unfold RankedBefore at *
  rcases hab with hcpu | ⟨hcpu, hmem⟩
  · rcases hba with hcpu' | ⟨hcpu', -⟩
    · exact absurd hcpu' hcpu.asymm
    · exact absurd hcpu' hcpu.ne'
  · rcases hba with hcpu' | ⟨-, hmem'⟩
    · exact absurd hcpu hcpu'.ne'
    · rcases hmem with hlt | ⟨heq, hle⟩
      · rcases hmem' with hlt' | ⟨heq', -⟩
        · exact absurd hlt' hlt.asymm
        · exact absurd heq' hlt.ne'
      · rcases hmem' with hlt' | ⟨-, hle'⟩
        · exact absurd heq hlt'.ne'
        · exact le_antisymm hle hle'

/-- Lists of the same groups, one a root, are ranked the same. -/
theorem ranked_eq {groups groups' : List GroupTotals} (h : groups.Perm groups')
    (hroot : ∀ a ∈ groups, ∀ b ∈ groups, a.rootPid = b.rootPid → a = b) :
    groups.insertionSort RankedBefore = groups'.insertionSort RankedBefore := by
  have hperm : (groups.insertionSort RankedBefore).Perm (groups'.insertionSort RankedBefore) :=
    ((List.perm_insertionSort _ groups).trans h).trans (List.perm_insertionSort _ groups').symm
  refine hperm.eq_of_pairwise ?_ (List.pairwise_insertionSort _ _) (List.pairwise_insertionSort _ _)
  intro a b ha hb hab hba
  have ha' : a ∈ groups := (List.mem_insertionSort _).mp ha
  have hb' : b ∈ groups := h.mem_iff.mpr ((List.mem_insertionSort _).mp hb)
  exact hroot a ha' b hb' (rankedBefore_rootPid hab hba)

end Rank

section Totals

/-- The totals kept under a root carry it. -/
theorem foldl_tally_rootPid (root : Pid → Pid) (entries : List (Pid × ProcNode)) {r : Pid}
    {g : GroupTotals} (h : entries.foldl (tally root) (fun _ => none) r = some g) :
    g.rootPid = r := by
  induction entries using List.reverseRecOn generalizing g with
  | nil => cases h
  | append_singleton entries entry ih =>
    rw [List.foldl_concat] at h
    by_cases hr : r = root entry.1
    · subst hr
      rw [tally, Function.update_self, Option.some.injEq] at h
      rw [← h]
      change (((entries.foldl (tally root) fun _ => none) (root entry.1)).getD _).rootPid = _
      cases hold : entries.foldl (tally root) (fun _ => none) (root entry.1) with
      | none => rfl
      | some old => exact ih hold
    · rw [tally, Function.update_of_ne hr] at h
      exact ih h

theorem foldl_tally_isSome (root : Pid → Pid) {entries : List (Pid × ProcNode)}
    {entry : Pid × ProcNode} (h : entry ∈ entries) :
    (entries.foldl (tally root) (fun _ => none) (root entry.1)).isSome := by
  induction entries using List.reverseRecOn with
  | nil => simp at h
  | append_singleton entries last ih =>
    rw [List.foldl_concat]
    by_cases hr : root entry.1 = root last.1
    · rw [tally, hr, Function.update_self]
      rfl
    · rw [tally, Function.update_of_ne hr]
      apply ih
      rcases List.mem_append.mp h with hmem | hlast
      · exact hmem
      · rw [List.mem_singleton.mp hlast] at hr
        exact absurd rfl hr

/-- The roots with totals are those of the processes. -/
theorem mem_groupTotals (order : HashOrder) (table : ProcTable) (root : Pid → Pid) (r : Pid) :
    (∃ g ∈ groupTotals order table root, g.rootPid = r) ↔ ∃ pid ∈ table.keys, root pid = r := by
  rw [groupTotals]
  have hentries := order.entries_perm table.entries
  constructor
  · rintro ⟨g, hg, rfl⟩
    rw [(order.values_perm _).mem_iff, List.mem_filterMap] at hg
    obtain ⟨r, hr, htotal⟩ := hg
    obtain ⟨entry, hentry, heq⟩ := List.mem_map.mp (List.mem_dedup.mp hr)
    have hkey : entry.1 ∈ table.keys := List.mem_map_of_mem (hentries.mem_iff.mp hentry)
    exact ⟨entry.1, hkey, heq.trans (foldl_tally_rootPid root _ htotal).symm⟩
  · rintro ⟨pid, hpid, rfl⟩
    obtain ⟨entry, hentry, rfl⟩ := List.mem_map.mp hpid
    have hentry' := hentries.mem_iff.mpr hentry
    obtain ⟨g, hg⟩ := Option.isSome_iff_exists.mp (foldl_tally_isSome root hentry')
    refine ⟨g, ?_, foldl_tally_rootPid root _ hg⟩
    rw [(order.values_perm _).mem_iff, List.mem_filterMap]
    exact ⟨root entry.1, List.mem_dedup.mpr (List.mem_map_of_mem hentry'), hg⟩

theorem groupTotals_rootPid (order : HashOrder) (table : ProcTable) (root : Pid → Pid)
    {a b : GroupTotals} (ha : a ∈ groupTotals order table root)
    (hb : b ∈ groupTotals order table root) (h : a.rootPid = b.rootPid) : a = b := by
  unfold groupTotals at ha hb
  rw [(order.values_perm _).mem_iff, List.mem_filterMap] at ha hb
  obtain ⟨r, -, hr⟩ := ha
  obtain ⟨r', -, hr'⟩ := hb
  have heq : r = r' := by
    rw [← foldl_tally_rootPid root _ hr, ← foldl_tally_rootPid root _ hr', h]
  rw [heq, hr'] at hr
  exact (Option.some.inj hr).symm

/-- One root for each process gives one list of totals, up to its order. -/
theorem groupTotals_perm (order order' : HashOrder) {table : ProcTable} {root root' : Pid → Pid}
    (h : ∀ pid ∈ table.keys, root pid = root' pid) :
    (groupTotals order table root).Perm (groupTotals order' table root') := by
  have hentries : (order.entries table.entries).Perm (order'.entries table.entries) :=
    (order.entries_perm _).trans (order'.entries_perm _).symm
  have hroot : ∀ entry ∈ order'.entries table.entries, root entry.1 = root' entry.1 := by
    intro entry hentry
    exact h entry.1 (List.mem_map_of_mem ((order'.entries_perm _).mem_iff.mp hentry))
  have htotals : (order.entries table.entries).foldl (tally root) (fun _ => none) =
      (order'.entries table.entries).foldl (tally root') fun _ => none := by
    rw [hentries.foldl_eq' fun a _ b _ totals => tally_right_comm root totals a b]
    apply List.foldl_ext
    intro totals entry hentry
    unfold tally
    rw [hroot entry hentry]
  have hkeys : ((order.entries table.entries).map fun entry => root entry.1).dedup.Perm
      ((order'.entries table.entries).map fun entry => root' entry.1).dedup := by
    rw [← List.map_congr_left hroot]
    exact (hentries.map _).dedup
  simp only [groupTotals, htotals]
  exact ((order.values_perm _).trans (hkeys.filterMap _)).trans (order'.values_perm _).symm

end Totals

/-- The climb from `pid` ends before the path is full. -/
def Settles (table : ProcTable) (pid : Pid) : Prop :=
  (Climb.top table.link (pathLimit - 1) pid).isSome

instance (table : ProcTable) (pid : Pid) : Decidable (Settles table pid) :=
  inferInstanceAs (Decidable (_ = true))

theorem aggregate_eq_of_settled {table : ProcTable} (h : ∀ pid ∈ table.keys, Settles table pid)
    (order order' : HashOrder) (max : ℕ) :
    aggregateProcessGroups order table max = aggregateProcessGroups order' table max := by
  have hroots (order : HashOrder) (pid : Pid) (hpid : pid ∈ table.keys) :
      resolveRoots table (order.keys table.keys) pid = Climb.top table.link (pathLimit - 1) pid := by
    have hperm := order.keys_perm table.keys
    apply Climb.resolve_settled
    · intro a ha
      exact h a (hperm.mem_iff.mp ha)
    · exact hperm.mem_iff.mpr hpid
  have hsame : ∀ pid ∈ table.keys,
      (resolveRoots table (order.keys table.keys) pid).getD pid =
        (resolveRoots table (order'.keys table.keys) pid).getD pid := by
    intro pid hpid
    rw [hroots order pid hpid, hroots order' pid hpid]
  have hperm := groupTotals_perm order order' hsame
  simp only [aggregateProcessGroups]
  rw [ranked_eq hperm fun a ha b hb => groupTotals_rootPid order table _ ha hb]

section Cut

theorem link_mem {table : ProcTable} {pid parent : Pid} (h : table.link pid = some parent) :
    parent ∈ table.keys ∧ parent ≠ pid := by
  obtain ⟨-, hguard⟩ := Option.filter_eq_some_iff.mp h
  simp only [Bool.and_eq_true, bne_iff_ne, ne_eq] at hguard
  obtain ⟨⟨-, hself⟩, hplausible⟩ := hguard
  refine ⟨?_, hself⟩
  rw [isPlausibleParent] at hplausible
  cases hget : table.get parent with
  | none =>
    rw [hget] at hplausible
    cases table.get pid <;> simp at hplausible
  | some node =>
    obtain ⟨before, after, hentries, -⟩ := List.lookup_eq_some_iff.mp hget
    have hmem : (parent, node) ∈ table.entries := by simp [hentries]
    exact List.mem_map_of_mem hmem

theorem up_mem {table : ProcTable} {pid c : Pid} (hpid : pid ∈ table.keys) {k : ℕ}
    (h : Climb.up table.link k pid = some c) : c ∈ table.keys := by
  induction k generalizing pid with
  | zero =>
    rw [← Option.some.inj h]
    exact hpid
  | succ k ih =>
    obtain ⟨parent, hparent, hc⟩ := Option.bind_eq_some_iff.mp h
    exact ih (link_mem hparent).1 hc

/-- The table's own order, with the key `first` moved to the front. -/
def keyFirst (first : Pid) : HashOrder where
  keys := fun l => if first ∈ l then first :: l.erase first else l
  entries := id
  values := id
  keys_perm := by
    intro l
    by_cases h : first ∈ l
    · rw [if_pos h]
      exact (List.perm_cons_erase h).symm
    · rw [if_neg h]
  entries_perm := fun l => List.Perm.refl l
  values_perm := fun l => List.Perm.refl l

theorem keyFirst_keys {first : Pid} {l : List Pid} (h : first ∈ l) :
    (keyFirst first).keys l = first :: l.erase first := if_pos h

/-- The root noted for a process. -/
def rootFor (order : HashOrder) (table : ProcTable) (pid : Pid) : Pid :=
  (resolveRoots table (order.keys table.keys) pid).getD pid

/-- Where there is room for all groups, a root is listed if it is some process's root. -/
theorem aggregate_roots {order : HashOrder} {table : ProcTable} {max : ℕ}
    (hmax : (groupTotals order table (rootFor order table)).length ≤ max) (r : Pid) :
    (∃ g ∈ aggregateProcessGroups order table max, g.rootPid = r) ↔
      ∃ pid ∈ table.keys, rootFor order table pid = r := by
  have hall : aggregateProcessGroups order table max =
      (groupTotals order table (rootFor order table)).insertionSort RankedBefore :=
    List.take_of_length_le (by rwa [List.length_insertionSort])
  rw [← mem_groupTotals order, hall]
  simp only [List.mem_insertionSort]

/-- A process whose climb is cut: there are two orders that find different roots. -/
theorem roots_of_cut {table : ProcTable} {pid : Pid} (hpid : pid ∈ table.keys)
    (h : ¬ Settles table pid) : ∃ order order' c,
      (∃ q ∈ table.keys, rootFor order table q = c) ∧
        ∀ q ∈ table.keys, rootFor order' table q ≠ c := by
  have hcut : Climb.top table.link (510 + 1) pid = none := by
    simpa [Settles, pathLimit] using h
  have hself : ∀ a, table.link a ≠ some a := fun a ha => (link_mem ha).2 rfl
  obtain ⟨b, c, hb, ⟨k, hc⟩, hcut⟩ := Climb.resolve_cut hself hcut
  have hbkey : b ∈ table.keys := (link_mem hb).1
  have hckey : c ∈ table.keys := up_mem hpid hc
  refine ⟨keyFirst pid, keyFirst b, c, ⟨c, hckey, ?_⟩, ?_⟩
  · have hown := (hcut (table.keys.erase pid)).1
    rw [rootFor, keyFirst_keys hpid, resolveRoots, pathLimit, hown]
    rfl
  · intro q hq hroot
    have hother := (hcut (table.keys.erase b)).2
    have hkeys : (keyFirst b).keys table.keys = b :: table.keys.erase b := keyFirst_keys hbkey
    have hqkeys : q ∈ b :: table.keys.erase b := by
      rw [← hkeys]
      exact ((keyFirst b).keys_perm _).mem_iff.mpr hq
    have hsome : (Climb.resolve table.link (510 + 1) (fun _ => none)
        (b :: table.keys.erase b) q).isSome := Climb.resolve_isSome hqkeys
    obtain ⟨r, hr⟩ := Option.isSome_iff_exists.mp hsome
    have hrc : r = c := by
      rw [rootFor, hkeys, resolveRoots, pathLimit, hr] at hroot
      exact hroot
    have hrooted : Climb.Rooted (Climb.resolve table.link (510 + 1) (fun _ => none)
        (b :: table.keys.erase b)) := by
      apply Climb.resolve_rooted
      intro a s hnone
      cases hnone
    rw [hrc] at hr
    exact hother (hrooted q c hr)

end Cut

/-- The groups depend on the table alone exactly when no climb to a root is cut: no cycle of
parents, and no chain of more than 511 links. -/
theorem groups_order_free_iff (table : ProcTable) :
    (∀ max order order',
      aggregateProcessGroups order table max = aggregateProcessGroups order' table max) ↔
    ∀ pid ∈ table.keys, Settles table pid := by
  constructor
  · intro hfree pid hpid
    by_contra hcut
    obtain ⟨order, order', c, hfound, hmissed⟩ := roots_of_cut hpid hcut
    let all := (groupTotals order table (rootFor order table)).length +
      (groupTotals order' table (rootFor order' table)).length
    have hroom : (groupTotals order table (rootFor order table)).length ≤ all :=
      Nat.le_add_right _ _
    have hlisted := (aggregate_roots hroom c).mpr hfound
    rw [hfree all order order'] at hlisted
    obtain ⟨q, hq, hroot⟩ := (aggregate_roots (Nat.le_add_left _ _) c).mp hlisted
    exact hmissed q hq hroot
  · intro h max order order'
    exact aggregate_eq_of_settled h order order' max

/-- A process that uses no cpu and holds no memory. -/
def idleChild (parent : Pid) : ProcNode := ⟨some parent, false, 0, 0, 0, none, none⟩

/-- Two processes that are each other's parent. -/
def twoCycle : ProcTable := ⟨[(10, idleChild 11), (11, idleChild 10)], by decide⟩

/-- The root of a cycle is a matter of which of its processes comes first. -/
theorem twoCycle_flaps :
    (aggregateProcessGroups (keyFirst 10) twoCycle 5).map (·.rootPid) = [11] ∧
    (aggregateProcessGroups (keyFirst 11) twoCycle 5).map (·.rootPid) = [10] := by
  decide +kernel

end Zstats
