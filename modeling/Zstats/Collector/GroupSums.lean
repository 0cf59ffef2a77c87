import Zstats.Collector.GroupOrder
import Zstats.Framework.Grouping
import Zstats.Framework.Ranking

namespace Zstats

section Roots

variable {table : ProcTable} {pid parent root : Pid}

def ProcTable.parentOf (table : ProcTable) (pid : Pid) : Option Pid :=
  (table.get pid).bind (·.parent)

/-- The chain of parents cannot go on from `pid`: no parent is recorded, or the recorded one is
init, a service manager, the process itself, not in the table, or known to have started later. -/
def Stops (table : ProcTable) (pid : Pid) : Prop :=
  ∀ parent, table.parentOf pid = some parent →
    parent = 1 ∨ (∃ node, table.get parent = some node ∧ node.boundary = true) ∨ parent = pid ∨
      table.get parent = none ∨
      ∃ child node, table.get pid = some child ∧ table.get parent = some node ∧
        child.startTimeSecs ≠ 0 ∧ node.startTimeSecs ≠ 0 ∧
        child.startTimeSecs < node.startTimeSecs

/-- The first process of the chain of parents, from `pid` on, that the chain stops at. -/
inductive RootOf (table : ProcTable) : Pid → Pid → Prop
  | stop {pid : Pid} : Stops table pid → RootOf table pid pid
  | climb {pid parent root : Pid} : ¬ Stops table pid → table.parentOf pid = some parent →
      RootOf table parent root → RootOf table pid root

/-- The tests of one turn of the climb. -/
theorem guard_iff (h : table.parentOf pid = some parent) :
    (parent != initPid && !(table.get parent).any (·.boundary) && parent != pid &&
        isPlausibleParent table pid parent) = false ↔
      parent = 1 ∨ (∃ node, table.get parent = some node ∧ node.boundary = true) ∨ parent = pid ∨
        table.get parent = none ∨
        ∃ child node, table.get pid = some child ∧ table.get parent = some node ∧
          child.startTimeSecs ≠ 0 ∧ node.startTimeSecs ≠ 0 ∧
          child.startTimeSecs < node.startTimeSecs := by
  obtain ⟨child, hchild, -⟩ := Option.bind_eq_some_iff.mp h
  cases hparent : table.get parent with
  | none => simp [isPlausibleParent, hparent]
  | some node =>
    cases hboundary : node.boundary with
    | true => simp [isPlausibleParent, hparent, hboundary]
    | false =>
      simp [isPlausibleParent, hchild, hparent, hboundary, initPid]
      tauto

theorem link_eq : table.link pid = (table.parentOf pid).filter fun parent =>
    parent != initPid && !(table.get parent).any (·.boundary) && parent != pid &&
      isPlausibleParent table pid parent := rfl

theorem link_eq_none_iff : table.link pid = none ↔ Stops table pid := by
  rw [link_eq, Option.filter_eq_none_iff]
  constructor
  · intro h parent hparent
    exact (guard_iff hparent).mp ((Bool.not_eq_true _).mp (h parent hparent))
  · intro h parent hparent
    rw [(guard_iff hparent).mpr (h parent hparent)]
    exact Bool.false_ne_true

theorem link_eq_some_iff :
    table.link pid = some parent ↔ ¬ Stops table pid ∧ table.parentOf pid = some parent := by
  constructor
  · intro h
    refine ⟨?_, (Option.filter_eq_some_iff.mp h).1⟩
    rw [← link_eq_none_iff, h]
    nofun
  · intro ⟨hgo, hparent⟩
    rw [← link_eq_none_iff] at hgo
    obtain ⟨parent', h⟩ := Option.ne_none_iff_exists'.mp hgo
    have hsame := (Option.filter_eq_some_iff.mp h).1
    change table.parentOf pid = some parent' at hsame
    rw [h, ← hsame, hparent]

/-- The root of a process is where the climb from it ends. -/
theorem rootOf_iff : RootOf table pid root ↔ ∃ n, Climb.top table.link n pid = some root := by
  constructor
  · intro h
    induction h with
    | stop hstop =>
      refine ⟨0, ?_⟩
      rw [Climb.top, link_eq_none_iff.mpr hstop]
      rfl
    | climb hgo hparent _ ih =>
      obtain ⟨n, hn⟩ := ih
      refine ⟨n + 1, ?_⟩
      rw [Climb.top, link_eq_some_iff.mpr ⟨hgo, hparent⟩]
      exact hn
  · intro htop
    obtain ⟨n, h⟩ := htop
    induction n generalizing pid with
    | zero =>
      cases hlink : table.link pid with
      | none =>
        rw [Climb.top, hlink] at h
        obtain rfl : pid = root := Option.some.inj h
        exact RootOf.stop (link_eq_none_iff.mp hlink)
      | some parent =>
        rw [Climb.top, hlink] at h
        cases h
    | succ n ih =>
      cases hlink : table.link pid with
      | none =>
        rw [Climb.top, hlink] at h
        obtain rfl : pid = root := Option.some.inj h
        exact RootOf.stop (link_eq_none_iff.mp hlink)
      | some parent =>
        rw [Climb.top, hlink] at h
        obtain ⟨hgo, hparent⟩ := link_eq_some_iff.mp hlink
        exact RootOf.climb hgo hparent (ih h)

end Roots

section Figures

def memOf (nodes : List ProcNode) : ℕ := (nodes.map (·.mem)).sum

/-- The footprints, and the resident size of a process that has none. -/
def heldOf (nodes : List ProcNode) : ℕ := (nodes.map fun node => node.footprint.getD node.mem).sum

/-- One of the two byte counts, of the processes that have them. -/
def bytesOf (part : ℕ × ℕ → ℕ) (nodes : List ProcNode) : ℕ :=
  (nodes.map fun node => (node.io.map part).getD 0).sum

def anyIo (nodes : List ProcNode) : Bool := nodes.any fun node => node.io.isSome

/-- What is kept of a byte count: nothing where no process has it. -/
def bytesKept (part : ℕ × ℕ → ℕ) (nodes : List ProcNode) : Option ℕ :=
  if anyIo nodes then some (min (bytesOf part nodes) u64Max) else none

/-- The figures of a group are those of its processes, as far as 64 bits hold them. -/
structure Sums (g : GroupTotals) (nodes : List ProcNode) : Prop where
  processCount : g.processCount = nodes.length
  cpu : g.cpu = (nodes.map (·.cpu)).sum
  mem : g.mem = min (memOf nodes) u64Max
  footprintSum : g.footprintSum = min (heldOf nodes) u64Max
  anyFootprint : g.anyFootprint = nodes.any (·.footprint.isSome)
  readBytes : g.readBytes = bytesKept Prod.fst nodes
  writtenBytes : g.writtenBytes = bytesKept Prod.snd nodes

theorem saturatingAdd_min (a b : ℕ) : saturatingAdd (min a u64Max) b = min (a + b) u64Max := by
  unfold saturatingAdd
  omega

theorem bytesOf_of_none {part : ℕ × ℕ → ℕ} {nodes : List ProcNode} (h : anyIo nodes = false) :
    bytesOf part nodes = 0 := by
  apply List.sum_eq_zero
  intro bytes hbytes
  obtain ⟨node, hnode, rfl⟩ := List.mem_map.mp hbytes
  have hnone := List.any_eq_false.mp h node hnode
  simp only [Option.isSome_iff_ne_none, ne_eq, not_not] at hnone
  rw [hnone]
  rfl

theorem bytesKept_concat (part : ℕ × ℕ → ℕ) (nodes : List ProcNode) (node : ProcNode) :
    bytesKept part (nodes ++ [node]) =
      match node.io with
      | some io => some (saturatingAdd ((bytesKept part nodes).getD 0) (part io))
      | none => bytesKept part nodes := by
  cases hio : node.io with
  | none => simp [bytesKept, anyIo, bytesOf, hio]
  | some io =>
    have hany : anyIo (nodes ++ [node]) = true := by simp [anyIo, hio]
    have hsum : bytesOf part (nodes ++ [node]) = bytesOf part nodes + part io := by
      simp [bytesOf, hio]
    simp only [bytesKept, hany, if_true, hsum]
    cases hbefore : anyIo nodes with
    | false => simp [bytesOf_of_none hbefore, saturatingAdd]
    | true => simp [saturatingAdd_min]

/-- Adding one process to the sum of those before it. -/
theorem Sums.add {g : GroupTotals} {nodes : List ProcNode} (h : Sums g nodes) (node : ProcNode) :
    Sums (g.add node) (nodes ++ [node]) := by
  constructor
  · simp [GroupTotals.add, h.processCount]
  · simp [GroupTotals.add, h.cpu]
  · simp [GroupTotals.add, h.mem, memOf, saturatingAdd_min]
  · simp [GroupTotals.add, h.footprintSum, heldOf, saturatingAdd_min]
  · simp [GroupTotals.add, h.anyFootprint]
  · rw [bytesKept_concat, GroupTotals.add, h.readBytes]
    cases node.io <;> rfl
  · rw [bytesKept_concat, GroupTotals.add, h.writtenBytes]
    cases node.io <;> rfl

theorem sums_foldl (r : Pid) (nodes : List ProcNode) :
    Sums (nodes.foldl GroupTotals.add (.new r)) nodes := by
  induction nodes using List.reverseRecOn with
  | nil => exact ⟨rfl, rfl, rfl, rfl, rfl, rfl, rfl⟩
  | append_singleton nodes node ih =>
    rw [List.foldl_concat]
    exact ih.add node

theorem foldl_add_rootPid (nodes : List ProcNode) (g : GroupTotals) :
    (nodes.foldl GroupTotals.add g).rootPid = g.rootPid := by
  induction nodes generalizing g with
  | nil => rfl
  | cons node nodes ih => rw [List.foldl_cons, ih, GroupTotals.add]

theorem Sums.perm {g : GroupTotals} {nodes nodes' : List ProcNode} (h : Sums g nodes)
    (hperm : nodes.Perm nodes') : Sums g nodes' := by
  have hbytes : ∀ part, bytesKept part nodes = bytesKept part nodes' := by
    intro part
    rw [bytesKept, bytesKept, anyIo, anyIo, hperm.any_eq, bytesOf, bytesOf,
      (hperm.map _).sum_eq]
  constructor
  · rw [h.processCount, hperm.length_eq]
  · rw [h.cpu, (hperm.map _).sum_eq]
  · rw [h.mem, memOf, memOf, (hperm.map _).sum_eq]
  · rw [h.footprintSum, heldOf, heldOf, (hperm.map _).sum_eq]
  · rw [h.anyFootprint, hperm.any_eq]
  · rw [h.readBytes, hbytes]
  · rw [h.writtenBytes, hbytes]

end Figures

section Groups

variable (order : HashOrder) (table : ProcTable) (root : Pid → Pid)

/-- The processes that `root` puts under `r`. -/
def under (entries : List (Pid × ProcNode)) (root : Pid → Pid) (r : Pid) : List ProcNode :=
  (Grouping.members (fun entry : Pid × ProcNode => root entry.1) entries r).map Prod.snd

theorem under_perm {entries entries' : List (Pid × ProcNode)} (h : entries.Perm entries')
    (r : Pid) : (under entries root r).Perm (under entries' root r) :=
  (h.filter _).map _

def rootsFound : List Pid := ((order.entries table.entries).map fun entry => root entry.1).dedup

def groupUnder (r : Pid) : GroupTotals :=
  (under (order.entries table.entries) root r).foldl GroupTotals.add (.new r)

/-- One group for each root, of the processes under it. -/
theorem groupTotals_eq : (groupTotals order table root).Perm
    ((rootsFound order table root).map (groupUnder order table root)) := by
  refine (order.values_perm _).trans (List.Perm.of_eq ?_)
  apply Grouping.filterMap_eq_map
  intro r hr
  obtain ⟨entry, hentry, hroot⟩ := List.mem_map.mp (List.mem_dedup.mp hr)
  have hmember : entry ∈ Grouping.members (fun entry : Pid × ProcNode => root entry.1)
      (order.entries table.entries) r := Grouping.mem_members.mpr ⟨hentry, hroot⟩
  have hput : (order.entries table.entries).foldl (tally root) (fun _ => none) r = _ :=
    Grouping.foldl_put (fun entry : Pid × ProcNode => root entry.1) GroupTotals.new
      (fun g entry => g.add entry.2) (order.entries table.entries) r
  rw [hput, if_neg (List.ne_nil_of_mem hmember), groupUnder, under, List.foldl_map]

theorem groupUnder_rootPid (r : Pid) : (groupUnder order table root r).rootPid = r :=
  foldl_add_rootPid _ _

theorem groupTotals_rootPids : ((groupTotals order table root).map (·.rootPid)).Perm
    (rootsFound order table root) := by
  refine ((groupTotals_eq order table root).map _).trans (List.Perm.of_eq ?_)
  rw [List.map_map]
  exact List.map_id'' (groupUnder_rootPid order table root) _

theorem groupTotals_nodup : ((groupTotals order table root).map (·.rootPid)).Nodup :=
  (groupTotals_rootPids order table root).nodup_iff.mpr (List.nodup_dedup _)

/-- The figures of a group are the sums of the processes under its root. -/
theorem groupTotals_sums {g : GroupTotals} (hg : g ∈ groupTotals order table root) :
    Sums g (under table.entries root g.rootPid) := by
  obtain ⟨r, -, rfl⟩ := List.mem_map.mp ((groupTotals_eq order table root).mem_iff.mp hg)
  rw [groupUnder_rootPid]
  exact (sums_foldl r _).perm (under_perm root (order.entries_perm _) r)

/-- What is summed over the processes under each root is the sum over the table. -/
theorem sum_under {M : Type*} [AddCommMonoid M] (f : ProcNode → M) :
    (((groupTotals order table root).map fun g =>
        ((under table.entries root g.rootPid).map f).sum).sum) =
      ((table.entries.map Prod.snd).map f).sum := by
  have hkeys : ∀ entry ∈ table.entries, root entry.1 ∈ rootsFound order table root := by
    intro entry hentry
    exact List.mem_dedup.mpr
      (List.mem_map_of_mem ((order.entries_perm _).mem_iff.mpr hentry))
  have hroots : ((groupTotals order table root).map fun g =>
      ((under table.entries root g.rootPid).map f).sum).Perm
      ((rootsFound order table root).map fun r => ((under table.entries root r).map f).sum) := by
    have hmap := (groupTotals_rootPids order table root).map fun r =>
      ((under table.entries root r).map f).sum
    rw [List.map_map] at hmap
    exact hmap
  have hsum := Grouping.sum_members (fun entry : Pid × ProcNode => root entry.1)
    (List.nodup_dedup _) hkeys fun entry => f entry.2
  rw [hroots.sum_eq, List.map_map]
  refine Eq.trans ?_ hsum
  simp only [under, List.map_map]
  rfl

end Groups

section Exact

variable {order : HashOrder} {table : ProcTable}

/-- Where no climb is cut, the root noted for a process is the one its chain of parents leads to. -/
theorem rootFor_iff (h : ∀ pid ∈ table.keys, Settles table pid) {pid : Pid} (hpid : pid ∈ table.keys)
    (r : Pid) : rootFor order table pid = r ↔ RootOf table pid r := by
  have hperm := order.keys_perm table.keys
  have hnoted : resolveRoots table (order.keys table.keys) pid =
      Climb.top table.link (pathLimit - 1) pid :=
    Climb.resolve_settled (fun a ha => h a (hperm.mem_iff.mp ha)) (hperm.mem_iff.mpr hpid)
  obtain ⟨top, htop⟩ := Option.isSome_iff_exists.mp (h pid hpid)
  rw [rootFor, hnoted, htop, Option.getD_some, rootOf_iff]
  constructor
  · intro heq
    rw [← heq]
    exact ⟨_, htop⟩
  · intro hclimb
    obtain ⟨n, hn⟩ := hclimb
    exact Climb.top_unique htop hn

open Classical in
/-- The processes whose chain of parents leads to `r`. -/
noncomputable def membersOf (table : ProcTable) (r : Pid) : List ProcNode :=
  (table.entries.filter fun entry => decide (RootOf table entry.1 r)).map Prod.snd

theorem under_eq (h : ∀ pid ∈ table.keys, Settles table pid) (r : Pid) :
    under table.entries (rootFor order table) r = membersOf table r := by
  rw [under, membersOf, Grouping.members]
  congr 1
  apply List.filter_congr
  intro entry hentry
  exact decide_eq_decide.mpr (rootFor_iff h (List.mem_map_of_mem hentry) r)

/-- No sum over the processes overflows. -/
def Unsaturated (nodes : List ProcNode) : Prop :=
  memOf nodes ≤ u64Max ∧ heldOf nodes ≤ u64Max ∧ ∀ part, bytesOf part nodes ≤ u64Max

/-- What the groups come to is what the processes come to. -/
structure Conserved (groups : List GroupTotals) (nodes : List ProcNode) : Prop where
  mem : (groups.map (·.mem)).sum = memOf nodes
  footprintSum : (groups.map (·.footprintSum)).sum = heldOf nodes
  readBytes : (groups.map fun g => g.readBytes.getD 0).sum = bytesOf Prod.fst nodes
  writtenBytes : (groups.map fun g => g.writtenBytes.getD 0).sum = bytesOf Prod.snd nodes

/-- The groups of a table, and the ones of them that are returned. -/
structure ExactGroups (table : ProcTable) (groups out : List GroupTotals) (max : ℕ) : Prop where
  counted : ∀ pid ∈ table.keys, ∃ g ∈ groups, RootOf table pid g.rootPid ∧
    ∀ g' ∈ groups, RootOf table pid g'.rootPid → g' = g
  distinct : (groups.map (·.rootPid)).Nodup
  sums : ∀ g ∈ groups, Sums g (membersOf table g.rootPid)
  processCount : (groups.map (·.processCount)).sum = table.entries.length
  cpu : (groups.map (·.cpu)).sum = (table.entries.map fun entry => entry.2.cpu).sum
  conserved : (∀ g ∈ groups, Unsaturated (membersOf table g.rootPid)) →
    Conserved groups (table.entries.map Prod.snd)
  ranked : out.Pairwise RankedBefore
  once : out.Nodup
  length : out.length = min max groups.length
  first : ∀ g, g ∈ out ↔ g ∈ groups ∧
    (Ranking.ahead (fun a b => decide (RankedBefore a b)) groups g).length < max

theorem getD_bytesKept {part : ℕ × ℕ → ℕ} {nodes : List ProcNode}
    (h : bytesOf part nodes ≤ u64Max) : (bytesKept part nodes).getD 0 = bytesOf part nodes := by
  rw [bytesKept]
  cases hany : anyIo nodes with
  | false => exact (bytesOf_of_none hany).symm
  | true => simp [h]

section Sum

variable (order) (table) (root : Pid → Pid)

/-- A figure that each group sums over its processes sums to that of the table. -/
theorem sum_figures {M : Type*} [AddCommMonoid M] (figure : GroupTotals → M) (f : ProcNode → M)
    (h : ∀ g ∈ groupTotals order table root,
      figure g = ((under table.entries root g.rootPid).map f).sum) :
    ((groupTotals order table root).map figure).sum = ((table.entries.map Prod.snd).map f).sum := by
  rw [← sum_under order table root f, List.map_congr_left h]

theorem conserved (h : ∀ g ∈ groupTotals order table root,
    Unsaturated (under table.entries root g.rootPid)) :
    Conserved (groupTotals order table root) (table.entries.map Prod.snd) := by
  constructor
  · apply sum_figures
    intro g hg
    rw [(groupTotals_sums order table root hg).mem, min_eq_left (h g hg).1, memOf]
  · apply sum_figures
    intro g hg
    rw [(groupTotals_sums order table root hg).footprintSum, min_eq_left (h g hg).2.1, heldOf]
  · apply sum_figures
    intro g hg
    rw [(groupTotals_sums order table root hg).readBytes, getD_bytesKept ((h g hg).2.2 _), bytesOf]
  · apply sum_figures
    intro g hg
    rw [(groupTotals_sums order table root hg).writtenBytes, getD_bytesKept ((h g hg).2.2 _),
      bytesOf]

end Sum

/-- The groups returned are the first of all in their order. -/
theorem mem_aggregate (order : HashOrder) (table : ProcTable) (max : ℕ) (g : GroupTotals) :
    g ∈ aggregateProcessGroups order table max ↔ g ∈ groupTotals order table (rootFor order table) ∧
      (Ranking.ahead (fun a b => decide (RankedBefore a b))
        (groupTotals order table (rootFor order table)) g).length < max := by
  apply Ranking.mem_take_sorted (List.perm_insertionSort _ _)
  · intro a ha b hb hab hba
    exact groupTotals_rootPid order table _ ha hb
      (rankedBefore_rootPid (of_decide_eq_true hab) (of_decide_eq_true hba))
  · exact (List.pairwise_insertionSort RankedBefore _).imp decide_eq_true
  · exact List.Nodup.of_map _ (groupTotals_nodup order table _)

theorem aggregate_exact (h : ∀ pid ∈ table.keys, Settles table pid) (max : ℕ) :
    ExactGroups table (groupTotals order table (rootFor order table))
      (aggregateProcessGroups order table max) max := by
  have hsums : ∀ g ∈ groupTotals order table (rootFor order table),
      Sums g (membersOf table g.rootPid) := by
    intro g hg
    rw [← under_eq h]
    exact groupTotals_sums order table _ hg
  constructor
  · intro pid hpid
    obtain ⟨g, hg, hroot⟩ := (mem_groupTotals order table (rootFor order table) _).mpr
      ⟨pid, hpid, rfl⟩
    refine ⟨g, hg, (rootFor_iff h hpid _).mp hroot.symm, ?_⟩
    intro g' hg' hroot'
    apply groupTotals_rootPid order table _ hg' hg
    rw [hroot]
    exact ((rootFor_iff h hpid _).mpr hroot').symm
  · exact groupTotals_nodup order table _
  · exact hsums
  · have hcount := sum_figures order table (rootFor order table) (·.processCount)
      (fun _ => 1) fun g hg => by
        rw [(groupTotals_sums order table _ hg).processCount]
        simp
    rw [hcount]
    simp [Function.comp_def]
  · have hcpu := sum_figures order table (rootFor order table) (·.cpu) (·.cpu)
      fun g hg => (groupTotals_sums order table _ hg).cpu
    rw [hcpu, List.map_map]
    rfl
  · intro hexact
    apply conserved
    intro g hg
    rw [under_eq h]
    exact hexact g hg
  · exact (List.pairwise_insertionSort RankedBefore _).sublist (List.take_sublist _ _)
  · have hnodup : (groupTotals order table (rootFor order table)).Nodup :=
      List.Nodup.of_map _ (groupTotals_nodup order table _)
    have hsorted := (List.perm_insertionSort RankedBefore _).nodup_iff.mpr hnodup
    exact hsorted.sublist (List.take_sublist _ _)
  · rw [aggregateProcessGroups, List.length_take, List.length_insertionSort]
    rfl
  · exact mem_aggregate order table max

/-- A group has a root in the table that is its own root. -/
theorem root_own {g : GroupTotals} (hg : g ∈ groupTotals order table (rootFor order table)) :
    g.rootPid ∈ table.keys ∧ rootFor order table g.rootPid = g.rootPid := by
  obtain ⟨pid, hpid, hroot⟩ := (mem_groupTotals order table _ _).mp ⟨g, hg, rfl⟩
  have hperm := order.keys_perm table.keys
  have hsome : (resolveRoots table (order.keys table.keys) pid).isSome :=
    Climb.resolve_isSome (hperm.mem_iff.mpr hpid)
  obtain ⟨r, hr⟩ := Option.isSome_iff_exists.mp hsome
  have hrg : r = g.rootPid := by
    rw [← hroot, rootFor, hr, Option.getD_some]
  rw [hrg] at hr
  have hrooted : Climb.Rooted (resolveRoots table (order.keys table.keys)) :=
    Climb.resolve_rooted (fun _ _ hnone => by cases hnone) _
  have hown := hrooted pid _ hr
  constructor
  · exact Climb.resolve_within (P := fun a => a ∈ table.keys) (fun a b _ hb => (link_mem hb).1)
      (fun a ha => hperm.mem_iff.mp ha) (fun _ _ hnone => by cases hnone) _ _ hown
  · rw [rootFor, hown, Option.getD_some]

/-- The groups are exact where no climb is cut; on any table a climb passes 512 processes at most
and a group holds its own root. -/
theorem groups_exact (order : HashOrder) (table : ProcTable) (max : ℕ) :
    ((∀ pid ∈ table.keys, Settles table pid) →
      ExactGroups table (groupTotals order table (rootFor order table))
        (aggregateProcessGroups order table max) max) ∧
    (∀ roots pid, (Climb.walk table.link roots (pathLimit - 1) pid).2.length ≤ 512) ∧
    ∀ g ∈ groupTotals order table (rootFor order table),
      g.rootPid ∈ table.keys ∧ rootFor order table g.rootPid = g.rootPid ∧
        Sums g (under table.entries (rootFor order table) g.rootPid) :=
  ⟨fun h => aggregate_exact h max, fun _ _ => Climb.length_walk, fun _ hg =>
    ⟨(root_own hg).1, (root_own hg).2, groupTotals_sums order table _ hg⟩⟩

/-- A helper under an application, which runs under init. -/
def appWithHelper : ProcTable :=
  ⟨[(20, idleChild 10), (10, idleChild 1)], by decide⟩

theorem groups_exact_helper :
    ExactGroups appWithHelper
      (groupTotals (keyFirst 20) appWithHelper (rootFor (keyFirst 20) appWithHelper))
      (aggregateProcessGroups (keyFirst 20) appWithHelper 5) 5 :=
  (groups_exact (keyFirst 20) appWithHelper 5).1 (by decide)

end Exact

end Zstats
