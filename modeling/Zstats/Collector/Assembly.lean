import Mathlib.Algebra.Order.BigOperators.Group.List
import Zstats.Collector.GroupSums
import Zstats.Collector.Selection
import Zstats.Framework.FloatText
import Zstats.Framework.Throttled

namespace Zstats

open Diffing FloatText Throttled

/-- A process as a refresh finds it, with all that the groups tell of it. -/
structure TableEntry extends ProcessEntry where
  serviceManager : Bool
  /-- Since the refresh before, as the bytes written. -/
  readBytes : ℕ
  writtenBytes : ℕ
  deriving DecidableEq, Repr

/-- `System::processes`, a map by pid. -/
structure SystemTable where
  processes : List TableEntry
  nodup : (processes.map fun p => p.pid).Nodup

namespace SystemTable

def new : SystemTable := ⟨[], List.nodup_nil⟩

def entries (system : SystemTable) : List ProcessEntry :=
  system.processes.map TableEntry.toProcessEntry

theorem entries_pids (system : SystemTable) :
    (system.entries.map fun p => p.pid) = system.processes.map fun p => p.pid := by
  simp [entries, Function.comp_def]

theorem entries_nodup (system : SystemTable) : (system.entries.map fun p => p.pid).Nodup := by
  rw [entries_pids]
  exact system.nodup

end SystemTable

structure TableConfig extends ProcessConfig where
  collectProcessGroups : Bool
  processRefreshInterval : ℕ
  processBoostCpuCores : Option Number

/-- One collect: the load, when the age of the last refresh is asked for, and while what a refresh
would find which table, in which order of its hash maps. -/
structure TableCollect where
  globalCpuUsage : ℚ
  logicalCores : ℕ
  asked : ℕ
  span : Span
  found : SystemTable
  order : HashOrder

structure TableCollector where
  list : ProcessCollector
  cachedProcessGroups : Option (List ProcessGroupSnapshot)
  system : SystemTable

/-- The fields of a `SystemSnapshot` that are made from the process table. -/
structure TableSnapshot where
  processes : Option (List ProcessSnapshot)
  processGroups : Option (List ProcessGroupSnapshot)
  totalProcesses : Option ℕ
  deriving DecidableEq, Repr

/-- `AUTO_PROCESS_BOOST_FRACTION`. -/
def autoProcessBoostFraction : ℚ := 3 / 10

def processBoostActive (thresholdCores : Option Number) (cpuUsagePercent : ℚ)
    (logicalCores : ℕ) : Bool :=
  if logicalCores = 0 then false
  else
    let busyCores := logicalCores * (cpuUsagePercent / 100)
    match thresholdCores with
    | some (.finite t) => if t ≤ 0 then false else decide (t ≤ busyCores)
    | some _ => false
    | none => decide (logicalCores * autoProcessBoostFraction ≤ busyCores)

namespace TableCollector

def new : TableCollector := ⟨.new, none, .new⟩

def nodeOf (config : TableConfig) (channel : ProcessChannel) (p : TableEntry) : ProcNode where
  parent := p.parent
  boundary := p.serviceManager
  startTimeSecs := p.startTime
  cpu := channel.cpuPercentFor p.pid
  mem := p.memory
  footprint := p.footprint
  io := if config.collectProcessDiskIo then some (p.readBytes, p.writtenBytes) else none

theorem nodes_nodup (config : TableConfig) (channel : ProcessChannel) (system : SystemTable) :
    ((system.processes.map fun p => (p.pid, nodeOf config channel p)).map Prod.fst).Nodup := by
  rw [List.map_map]
  exact system.nodup

/-- The table that the groups are made from. -/
def nodes (config : TableConfig) (channel : ProcessChannel) (system : SystemTable) : ProcTable :=
  ⟨system.processes.map fun p => (p.pid, nodeOf config channel p),
    nodes_nodup config channel system⟩

/-- Bytes become a rate only if there is an interval to divide by. -/
def groupRate (elapsed bytes : Option ℕ) : Option ℕ :=
  match bytes, elapsed with
  | some bytes, some elapsed => if elapsed = 0 then none else some (asU64 (bytes / secs elapsed))
  | _, _ => none

def groupSnapshot (elapsed : Option ℕ) (g : GroupTotals) (root : TableEntry) :
    ProcessGroupSnapshot where
  rootPid := g.rootPid
  name := root.name
  displayName := root.displayName
  processCount := g.processCount
  cpuUsagePercent := g.cpu
  memoryBytes := g.mem
  physFootprintBytes := if g.anyFootprint then some g.footprintSum else none
  readBytesPerSec := groupRate elapsed g.readBytes
  writeBytesPerSec := groupRate elapsed g.writtenBytes

def collectProcessGroups (config : TableConfig) (s : TableCollector) (refreshed : Bool)
    (elapsed : Option ℕ) (order : HashOrder) :
    TableCollector × Option (List ProcessGroupSnapshot) :=
  if !(config.collectProcesses && config.collectProcessGroups) then (s, none)
  else if !refreshed then (s, s.cachedProcessGroups)
  else
    let table := nodes config s.list.channel s.system
    let groups := (aggregateProcessGroups order table config.maxProcesses).filterMap fun g =>
      (s.system.processes.find? fun p => p.pid == g.rootPid).map (groupSnapshot elapsed g)
    ({ s with cachedProcessGroups := some groups }, some groups)

/-- `as u32` keeps the low bits. -/
def collectTotalProcesses (config : TableConfig) (s : TableCollector) : Option ℕ :=
  if config.collectProcesses then some (s.system.processes.length % 2 ^ 32) else none

def processesDue (config : TableConfig) (s : TableCollector) (c : TableCollect) : Bool :=
  config.collectProcesses &&
    (processBoostActive config.processBoostCpuCores c.globalCpuUsage c.logicalCores ||
      s.list.channel.lastProcessRefresh.all fun t =>
        decide (config.processRefreshInterval ≤ durationSince c.asked t))

/-- The process part of `collect`. -/
def collect (config : TableConfig) (s : TableCollector) (c : TableCollect) :
    TableCollector × TableSnapshot :=
  let refreshed := processesDue config s c
  let system := if refreshed then c.found else s.system
  let round : ProcessCollect := ⟨refreshed, c.span, system.entries, system.entries_nodup⟩
  let elapsed := (s.list.channel.refreshProcessTable round.round).2
  let list := s.list.collect config.toProcessConfig round
  let groups := collectProcessGroups config ⟨list.1, s.cachedProcessGroups, system⟩ refreshed
    elapsed c.order
  (groups.1, ⟨list.2, groups.2, collectTotalProcesses config groups.1⟩)

end TableCollector

section Refresh

variable {config : TableConfig} {s : TableCollector} {c : TableCollect}

theorem percentBetween_nonneg (prev current : CpuTimeBaseline) (elapsed : ℕ) :
    0 ≤ percentBetween prev current elapsed := by
  unfold percentBetween
  by_cases hother : current.startTimeSecs ≠ prev.startTimeSecs ∨
      current.cpuTimeMs < prev.cpuTimeMs
  · rw [if_pos hother]
  · rw [if_neg hother]
    by_cases hshort : secs elapsed * 1000 < 1
    · simp only [if_pos hshort, le_refl]
    · simp only [if_neg hshort]
      have hpos : 0 ≤ secs elapsed * 1000 := by linarith
      positivity

theorem refreshProcessTable_nonneg {channel : ProcessChannel} {r : ProcessRound}
    (hr : r.refreshProcesses = true) (pid : Pid) :
    0 ≤ (channel.refreshProcessTable r).1.cpuPercentFor pid := by
  simp only [ProcessChannel.refreshProcessTable, hr, Bool.not_true, Bool.false_eq_true, if_false,
    ProcessChannel.updateCpuPercents, ProcessChannel.cpuPercentFor]
  cases hfound : lookupLast _ pid with
  | none => exact le_refl 0
  | some percent =>
    obtain ⟨p, -, hentry⟩ := List.mem_map.mp (mem_of_lookupLast hfound)
    have hpercent := congrArg Prod.snd hentry
    simp only at hpercent
    rw [Option.getD_some, ← hpercent]
    cases hpair : Option.map₂ _ _ _ with
    | none => exact le_refl 0
    | some percent =>
      obtain ⟨elapsed, prev, -, -, rfl⟩ := Option.map₂_eq_some_iff.mp hpair
      exact percentBetween_nonneg _ _ _

/-- The channel that a due collect makes its snapshot with. -/
def refreshedChannel (s : TableCollector) (c : TableCollect) : ProcessChannel :=
  (s.list.channel.refreshProcessTable ⟨true, c.span, c.found.entries.map (·.toProcess)⟩).1

def keysOf (channel : ProcessChannel) (system : SystemTable) : List ProcKey :=
  system.processes.map fun p => ⟨p.pid, channel.cpuPercentFor p.pid, p.memory⟩

theorem collect_due_state (hdue : TableCollector.processesDue config s c = true) :
    (TableCollector.collect config s c).1.list.channel = refreshedChannel s c ∧
      (TableCollector.collect config s c).1.system = c.found := by
  obtain ⟨hon, -⟩ := Bool.and_eq_true_iff.mp hdue
  constructor
  · simp only [TableCollector.collect, hdue, if_true, TableCollector.collectProcessGroups]
    cases config.collectProcessGroups <;>
      simp [hon, ProcessCollector.collect, ProcessCollector.collectProcesses,
        ProcessCollect.round, refreshedChannel]
  · simp only [TableCollector.collect, hdue, if_true, TableCollector.collectProcessGroups]
    cases config.collectProcessGroups <;> simp [hon]

theorem selected_mem {channel : ProcessChannel} {system : SystemTable} {max : ℕ} {pid : Pid}
    (h : pid ∈ selectTopPids (keysOf channel system) max) :
    pid ∈ system.processes.map fun p => p.pid := by
  rw [selectTopPids_eq] at h
  obtain ⟨key, hkey, rfl⟩ := List.mem_map.mp h
  obtain ⟨p, hp, rfl⟩ := List.mem_map.mp (SharedBudget.mem_of_select hkey)
  exact List.mem_map_of_mem hp

/-- The list of a due collect: the processes selected, as the table has them. -/
theorem collect_due_list (hdue : TableCollector.processesDue config s c = true) :
    ∃ list, (TableCollector.collect config s c).2.processes = some list ∧
      list.map (·.pid) =
        selectTopPids (keysOf (refreshedChannel s c) c.found) config.maxProcesses ∧
      ∀ p ∈ list, ∃ e ∈ c.found.processes, p.pid = e.pid ∧ p.memoryBytes = e.memory ∧
        p.cpuUsagePercent = (refreshedChannel s c).cpuPercentFor e.pid := by
  obtain ⟨hon, -⟩ := Bool.and_eq_true_iff.mp hdue
  have hkeys : c.found.entries.map
      (ProcessCollector.rank { s.list with channel := refreshedChannel s c }) =
        keysOf (refreshedChannel s c) c.found := by
    simp [SystemTable.entries, keysOf, ProcessCollector.rank, Function.comp_def]
  have hlist : (TableCollector.collect config s c).2.processes = some
      ((selectTopPids (keysOf (refreshedChannel s c) c.found) config.maxProcesses).filterMap
        fun pid => (c.found.entries.find? fun p => p.pid == pid).map
          (ProcessCollector.snapshotOf config.toProcessConfig
            { s.list with channel := refreshedChannel s c }
            (s.list.channel.lastProcessRefresh.map (durationSince c.span.start))
            c.found.entries)) := by
    rw [← hkeys]
    simp only [TableCollector.collect, hdue, if_true, ProcessCollector.collect,
      ProcessCollector.collectProcesses, hon, Bool.not_true, Bool.false_eq_true, if_false,
      ProcessCollect.round, refreshedChannel, ProcessChannel.refreshProcessTable]
  refine ⟨_, hlist, ?_, ?_⟩
  · refine (Grouping.found_map ?_ _ ?_).trans (List.map_id _)
    · intro pid p hp
      exact hp
    · intro pid hpid
      rw [c.found.entries_pids]
      exact selected_mem hpid
  · intro p hp
    obtain ⟨pid, -, hfound⟩ := List.mem_filterMap.mp hp
    obtain ⟨e, he, rfl⟩ := Option.map_eq_some_iff.mp hfound
    obtain ⟨entry, hentry, rfl⟩ := List.mem_map.mp (List.mem_of_find?_eq_some he)
    exact ⟨entry, hentry, rfl, rfl, rfl⟩

theorem nodes_keys (config : TableConfig) (channel : ProcessChannel) (system : SystemTable) :
    (TableCollector.nodes config channel system).keys = system.processes.map fun p => p.pid := by
  simp [ProcTable.keys, TableCollector.nodes, Function.comp_def]

/-- The groups of a due collect: those of the table found, each with its root's name. -/
theorem collect_due_groups (hdue : TableCollector.processesDue config s c = true)
    (hgroups : config.collectProcessGroups = true) :
    ∃ groups, (TableCollector.collect config s c).2.processGroups = some groups ∧
      groups.map (fun g => (g.rootPid, g.processCount, g.cpuUsagePercent, g.memoryBytes)) =
        (aggregateProcessGroups c.order
          (TableCollector.nodes config (refreshedChannel s c) c.found) config.maxProcesses).map
            fun g => (g.rootPid, g.processCount, g.cpu, g.mem) := by
  obtain ⟨hon, -⟩ := Bool.and_eq_true_iff.mp hdue
  have hchannel : (s.list.collect config.toProcessConfig
      ⟨true, c.span, c.found.entries, c.found.entries_nodup⟩).1.channel =
        refreshedChannel s c := by
    simp [ProcessCollector.collect, ProcessCollector.collectProcesses, hon,
      ProcessCollect.round, refreshedChannel]
  have hmade : (TableCollector.collect config s c).2.processGroups = some
      ((aggregateProcessGroups c.order
        (TableCollector.nodes config (refreshedChannel s c) c.found) config.maxProcesses).filterMap
          fun g => (c.found.processes.find? fun p => p.pid == g.rootPid).map
            (TableCollector.groupSnapshot
              (s.list.channel.lastProcessRefresh.map (durationSince c.span.start)) g)) := by
    simp only [TableCollector.collect, hdue, if_true, TableCollector.collectProcessGroups, hon,
      hgroups, Bool.and_self, Bool.not_true, Bool.false_eq_true, if_false, hchannel,
      ProcessChannel.refreshProcessTable, ProcessCollect.round]
  refine ⟨_, hmade, Grouping.found_map ?_ _ ?_⟩
  · intro g p _
    rfl
  · intro g hg
    obtain ⟨hmem, -⟩ := (mem_aggregate _ _ _ _).mp hg
    rw [← nodes_keys config (refreshedChannel s c)]
    exact (root_own hmem).1

end Refresh

section Aggregate

variable {order : HashOrder} {table : ProcTable} {max : ℕ}

theorem ranked_perm : ((groupTotals order table (rootFor order table)).insertionSort
    RankedBefore).Perm (groupTotals order table (rootFor order table)) :=
  List.perm_insertionSort _ _

theorem aggregate_eq : aggregateProcessGroups order table max =
    ((groupTotals order table (rootFor order table)).insertionSort RankedBefore).take max := rfl

/-- With room left, every group is returned. -/
theorem aggregate_perm (h : (aggregateProcessGroups order table max).length < max) :
    (aggregateProcessGroups order table max).Perm
      (groupTotals order table (rootFor order table)) := by
  rw [aggregate_eq, List.length_take] at h
  have hshort : ((groupTotals order table (rootFor order table)).insertionSort
      RankedBefore).length ≤ max := by omega
  rw [aggregate_eq, List.take_of_length_le hshort]
  exact ranked_perm

theorem groupTotals_count : ((groupTotals order table (rootFor order table)).map
    (·.processCount)).sum = table.entries.length := by
  have hcount := sum_figures order table (rootFor order table) (·.processCount) (fun _ => 1)
    fun g hg => by
      rw [(groupTotals_sums order table _ hg).processCount]
      simp
  rw [hcount]
  simp [Function.comp_def]

/-- No process is counted in two of the groups returned. -/
theorem aggregate_count : ((aggregateProcessGroups order table max).map (·.processCount)).sum ≤
    table.entries.length := by
  have hall := (@ranked_perm order table).map (·.processCount)
  rw [← @groupTotals_count order, ← hall.sum_eq]
  apply List.Sublist.sum_le_sum
  · exact (List.take_sublist _ _).map _
  · simp

theorem aggregate_nodup : ((aggregateProcessGroups order table max).map (·.rootPid)).Nodup := by
  have hnodup := groupTotals_nodup order table (rootFor order table)
  rw [← (ranked_perm.map (·.rootPid)).nodup_iff] at hnodup
  exact hnodup.sublist ((List.take_sublist _ _).map _)

/-- The figures of a process are no larger than those of the group it is counted in. -/
theorem member_le {entry : Pid × ProcNode} (hentry : entry ∈ table.entries)
    (hcpu : ∀ entry ∈ table.entries, 0 ≤ entry.2.cpu) {g : GroupTotals}
    (hg : g ∈ groupTotals order table (rootFor order table))
    (hroot : rootFor order table entry.1 = g.rootPid) :
    entry.2.cpu ≤ g.cpu ∧ min entry.2.mem u64Max ≤ g.mem := by
  have hsums := groupTotals_sums order table (rootFor order table) hg
  have hmem : entry.2 ∈ under table.entries (rootFor order table) g.rootPid :=
    List.mem_map_of_mem (Grouping.mem_members.mpr ⟨hentry, hroot⟩)
  constructor
  · rw [hsums.cpu]
    apply List.single_le_sum _ _ (List.mem_map_of_mem hmem)
    intro cpu hcpu'
    obtain ⟨node, hnode, rfl⟩ := List.mem_map.mp hcpu'
    obtain ⟨entry', hentry', rfl⟩ := List.mem_map.mp hnode
    exact hcpu entry' (Grouping.mem_members.mp hentry').1
  · rw [hsums.mem]
    apply min_le_min_right
    exact List.single_le_sum (by simp) _ (List.mem_map_of_mem hmem)

end Aggregate

section Coherence

/-- Groups of the processes of one table, where `root` says which group a process is counted in. -/
structure GroupsOf (root : Pid → Pid) (pids : List Pid) (max : ℕ)
    (groups : List ProcessGroupSnapshot) : Prop where
  length : groups.length ≤ max
  distinct : (groups.map (·.rootPid)).Nodup
  roots : ∀ g ∈ groups, g.rootPid ∈ pids ∧ root g.rootPid = g.rootPid
  counts : ∀ g ∈ groups, g.processCount = (pids.filter fun pid => root pid = g.rootPid).length
  sum : (groups.map (·.processCount)).sum ≤ pids.length
  whole : groups.length < max → (groups.map (·.processCount)).sum = pids.length ∧
    ∀ pid ∈ pids, ∃ g ∈ groups, root pid = g.rootPid

/-- What a snapshot tells of one table: the count, a list of its processes and groups of them, none
of which has a figure below that of a listed member. -/
structure Coherent (config : TableConfig) (root : Pid → Pid) (pids : List Pid)
    (out : TableSnapshot) : Prop where
  total : out.totalProcesses = some (pids.length % 2 ^ 32)
  listed : ∃ list, out.processes = some list ∧ list.length = min config.maxProcesses pids.length ∧
    (list.map (·.pid)).Nodup ∧ (∀ p ∈ list, p.pid ∈ pids) ∧
    (config.collectProcessGroups = false → out.processGroups = none) ∧
    (config.collectProcessGroups = true → ∃ groups, out.processGroups = some groups ∧
      GroupsOf root pids config.maxProcesses groups ∧
      ∀ p ∈ list, ∀ g ∈ groups, root p.pid = g.rootPid →
        p.cpuUsagePercent ≤ g.cpuUsagePercent ∧ min p.memoryBytes u64Max ≤ g.memoryBytes)

variable {config : TableConfig} {s : TableCollector} {c : TableCollect}

def SystemTable.pids (system : SystemTable) : List Pid := system.processes.map fun p => p.pid

/-- Which group a due collect counts a process in. -/
def rootIn (config : TableConfig) (s : TableCollector) (c : TableCollect) : Pid → Pid :=
  rootFor c.order (TableCollector.nodes config (refreshedChannel s c) c.found)

theorem told_mem {groups : List ProcessGroupSnapshot} {all : List GroupTotals}
    (h : groups.map (fun g => (g.rootPid, g.processCount, g.cpuUsagePercent, g.memoryBytes)) =
      all.map fun g => (g.rootPid, g.processCount, g.cpu, g.mem))
    {g : ProcessGroupSnapshot} (hg : g ∈ groups) : ∃ t ∈ all, g.rootPid = t.rootPid ∧
      g.processCount = t.processCount ∧ g.cpuUsagePercent = t.cpu ∧ g.memoryBytes = t.mem := by
  have hmem := List.mem_map_of_mem
    (f := fun g : ProcessGroupSnapshot =>
      (g.rootPid, g.processCount, g.cpuUsagePercent, g.memoryBytes)) hg
  rw [h] at hmem
  obtain ⟨t, ht, heq⟩ := List.mem_map.mp hmem
  simp only [Prod.mk.injEq] at heq
  exact ⟨t, ht, heq.1.symm, heq.2.1.symm, heq.2.2.1.symm, heq.2.2.2.symm⟩

theorem length_under (config : TableConfig) (channel : ProcessChannel) (system : SystemTable)
    (root : Pid → Pid) (r : Pid) :
    (under (TableCollector.nodes config channel system).entries root r).length =
      (system.pids.filter fun pid => root pid = r).length := by
  simp [under, Grouping.members, TableCollector.nodes, SystemTable.pids, List.filter_map,
    Function.comp_def]

theorem groupsOf_due {groups : List ProcessGroupSnapshot}
    (h : groups.map (fun g => (g.rootPid, g.processCount, g.cpuUsagePercent, g.memoryBytes)) =
      (aggregateProcessGroups c.order
        (TableCollector.nodes config (refreshedChannel s c) c.found) config.maxProcesses).map
          fun g => (g.rootPid, g.processCount, g.cpu, g.mem)) :
    GroupsOf (rootIn config s c) c.found.pids config.maxProcesses groups := by
  have hlength : groups.length = (aggregateProcessGroups c.order
      (TableCollector.nodes config (refreshedChannel s c) c.found) config.maxProcesses).length := by
    simpa using congrArg List.length h
  have hroots := congrArg (List.map Prod.fst) h
  have hcounts := congrArg (List.map fun told => told.2.1) h
  simp only [List.map_map, Function.comp_def] at hroots hcounts
  have hentries : (TableCollector.nodes config (refreshedChannel s c) c.found).entries.length =
      c.found.pids.length := by
    simp [TableCollector.nodes, SystemTable.pids]
  have hkeys := nodes_keys config (refreshedChannel s c) c.found
  constructor
  · rw [hlength, aggregate_eq]
    exact List.length_take_le _ _
  · rw [hroots]
    exact aggregate_nodup
  · intro g hg
    obtain ⟨t, ht, hroot, -⟩ := told_mem h hg
    obtain ⟨hmem, -⟩ := (mem_aggregate _ _ _ _).mp ht
    have hown := root_own hmem
    rw [hkeys] at hown
    rw [hroot]
    exact hown
  · intro g hg
    obtain ⟨t, ht, hroot, hcount, -⟩ := told_mem h hg
    obtain ⟨hmem, -⟩ := (mem_aggregate _ _ _ _).mp ht
    rw [hcount, (groupTotals_sums _ _ _ hmem).processCount, hroot]
    exact length_under _ _ _ _ _
  · rw [hcounts, ← hentries]
    exact aggregate_count
  · intro hroom
    rw [hlength] at hroom
    have hall := aggregate_perm hroom
    constructor
    · rw [hcounts, (hall.map _).sum_eq, groupTotals_count, hentries]
    · intro pid hpid
      have hkey : pid ∈ (TableCollector.nodes config (refreshedChannel s c) c.found).keys := by
        rw [hkeys]
        exact hpid
      obtain ⟨t, ht, hroot⟩ := (mem_groupTotals c.order _ (rootIn config s c) _).mpr
        ⟨pid, hkey, rfl⟩
      have htold : t.rootPid ∈ groups.map (·.rootPid) := by
        rw [hroots]
        exact List.mem_map_of_mem (hall.mem_iff.mpr ht)
      obtain ⟨g, hg, heq⟩ := List.mem_map.mp htold
      exact ⟨g, hg, by rw [heq, hroot]⟩

theorem coherent_due (hdue : TableCollector.processesDue config s c = true) :
    Coherent config (rootIn config s c) c.found.pids (TableCollector.collect config s c).2 := by
  obtain ⟨hon, -⟩ := Bool.and_eq_true_iff.mp hdue
  obtain ⟨hchannel, hsystem⟩ := collect_due_state hdue
  obtain ⟨list, hlist, hpids, hmembers⟩ := collect_due_list hdue
  have hkeys : (keysOf (refreshedChannel s c) c.found).map ProcKey.pid = c.found.pids := by
    simp [keysOf, SystemTable.pids, Function.comp_def]
  have hnodup : ((keysOf (refreshedChannel s c) c.found).map ProcKey.pid).Nodup := by
    rw [hkeys]
    exact c.found.nodup
  have hselection := selection _ hnodup config.maxProcesses
  rw [selectTopPids_eq] at hpids
  constructor
  · have htotal : (TableCollector.collect config s c).2.totalProcesses =
        TableCollector.collectTotalProcesses config (TableCollector.collect config s c).1 := rfl
    rw [htotal, TableCollector.collectTotalProcesses, if_pos hon, hsystem, SystemTable.pids,
      List.length_map]
  · refine ⟨list, hlist, ?_, ?_, ?_, ?_, ?_⟩
    · have hlength := congrArg List.length hpids
      rw [List.length_map, List.length_map, hselection.count] at hlength
      rw [hlength, ← hkeys, List.length_map]
    · rw [hpids]
      exact hselection.distinct
    · intro p hp
      obtain ⟨e, he, hpid, -⟩ := hmembers p hp
      rw [hpid]
      exact List.mem_map_of_mem he
    · intro hoff
      simp [TableCollector.collect, TableCollector.collectProcessGroups, hoff]
    · intro hgroups
      obtain ⟨groups, hmade, htold⟩ := collect_due_groups hdue hgroups
      refine ⟨groups, hmade, groupsOf_due htold, ?_⟩
      intro p hp g hg hroot
      obtain ⟨e, he, hpid, hmemory, hcpu⟩ := hmembers p hp
      obtain ⟨t, ht, htroot, -, htcpu, htmem⟩ := told_mem htold hg
      obtain ⟨hmem, -⟩ := (mem_aggregate _ _ _ _).mp ht
      rw [hpid, htroot] at hroot
      have hentry : (e.pid, TableCollector.nodeOf config (refreshedChannel s c) e) ∈
          (TableCollector.nodes config (refreshedChannel s c) c.found).entries :=
        List.mem_map_of_mem he
      have hle := member_le hentry ?_ hmem hroot
      · rw [hcpu, hmemory, htcpu, htmem]
        exact hle
      · intro entry hentry'
        obtain ⟨e', -, rfl⟩ := List.mem_map.mp hentry'
        exact refreshProcessTable_nonneg rfl e'.pid

end Coherence

section Run

variable (config : TableConfig) (x : ℕ → TableCollect)

def tableAt (n : ℕ) : TableCollector :=
  Machine.stateAt (TableCollector.collect config) TableCollector.new x n

def tableOut : ℕ → TableSnapshot :=
  Machine.outAt (TableCollector.collect config) TableCollector.new x

def TableRefreshed (n : ℕ) : Prop :=
  TableCollector.processesDue config (tableAt config x n) (x n) = true

def BoostedAt (n : ℕ) : Prop :=
  processBoostActive config.processBoostCpuCores (x n).globalCpuUsage (x n).logicalCores = true

/-- Collect `n` tells what the refresh of collect `m` found: the latest one, from this very collect
or less than the interval ago. -/
structure MadeAt (m n : ℕ) : Prop where
  refreshed : TableRefreshed config x m
  latest : m ≤ n ∧ ∀ k, m < k → k ≤ n → ¬ TableRefreshed config x k
  recent : m < n → ¬ BoostedAt config x n ∧
    durationSince (x n).asked (x m).span.finish < config.processRefreshInterval

/-- What is answered from when the table is not refreshed. -/
def tableCache (s : TableCollector) : TableSnapshot where
  processes := s.list.cachedProcesses
  processGroups := if config.collectProcessGroups then s.cachedProcessGroups else none
  totalProcesses := TableCollector.collectTotalProcesses config s

theorem table_channel : Channel (TableCollector.collect config) (tableCache config)
    (fun s => s.list.channel.lastProcessRefresh.isSome) (fun _ _ => config.collectProcesses = true)
    (fun s c => TableCollector.processesDue config s c = true) where
  kept := by
    intro s c hdue
    rw [Bool.not_eq_true] at hdue
    cases hon : config.collectProcesses <;> cases hgroups : config.collectProcessGroups <;>
      simp [TableCollector.collect, hdue, hon, hgroups, TableCollector.collectProcessGroups,
        ProcessCollector.collect, ProcessCollector.collectProcesses, ProcessCollect.round,
        ProcessChannel.refreshProcessTable]
  answer := by
    intro s c hon hdue
    rw [Bool.not_eq_true] at hdue
    constructor
    · cases hlast : s.list.channel.lastProcessRefresh with
      | none => simp [TableCollector.processesDue, hon, hlast] at hdue
      | some t => rfl
    · cases hgroups : config.collectProcessGroups <;>
        simp [TableCollector.collect, hdue, hon, hgroups, TableCollector.collectProcessGroups,
          ProcessCollector.collect, ProcessCollector.collectProcesses, ProcessCollect.round,
          ProcessChannel.refreshProcessTable, tableCache]

theorem collect_caches (s : TableCollector) (c : TableCollect)
    (hdue : TableCollector.processesDue config s c = true) :
    tableCache config (TableCollector.collect config s c).1 =
      (TableCollector.collect config s c).2 := by
  obtain ⟨hon, -⟩ := Bool.and_eq_true_iff.mp hdue
  cases hgroups : config.collectProcessGroups <;>
    simp [TableCollector.collect, hdue, hon, hgroups, TableCollector.collectProcessGroups,
      ProcessCollector.collect, ProcessCollector.collectProcesses, tableCache]

theorem table_presents : PresentsLatest (fun _ => config.collectProcesses = true)
    (TableRefreshed config x) (tableOut config x) := by
  apply (table_channel config).presentsLatest (collect_caches config) (fun s _ => Or.inl rfl)
  simp [TableCollector.new, ProcessCollector.new, ProcessChannel.new]

/-- When the last refresh ended is kept until the next one. -/
theorem refreshes_track : Tracks
    (fun n => (⟨(tableAt config x n).list.channel.lastProcessRefresh, []⟩ : Baseline Pid Unit))
    (TableRefreshed config x) (fun n => (x n).span.finish) fun _ => [] where
  fresh := rfl
  kept := by
    intro n hn
    have hkept : tableAt config x (n + 1) = tableAt config x n := (table_channel config).kept _ _ hn
    rw [hkept]
  replaced := by
    intro n hn
    have hchannel := (collect_due_state hn).1
    have hstate : (tableAt config x (n + 1)).list.channel =
        refreshedChannel (tableAt config x n) (x n) := hchannel
    rw [hstate]
    simp [refreshedChannel, ProcessChannel.refreshProcessTable, ProcessChannel.updateCpuPercents]

variable {config x}

theorem madeAt_self {n : ℕ} (hn : TableRefreshed config x n) : MadeAt config x n n := by
  refine ⟨hn, ⟨le_refl n, ?_⟩, ?_⟩
  · intro k hk hkn
    omega
  · intro hlt
    omega

theorem madeAt_preceding {m n : ℕ} (hon : config.collectProcesses = true)
    (hm : Preceding (TableRefreshed config x) m n) (hn : ¬ TableRefreshed config x n) :
    MadeAt config x m n := by
  refine ⟨hm.ran, ⟨Nat.le_of_lt hm.earlier, ?_⟩, ?_⟩
  · intro k hk hkn
    rcases Nat.lt_or_eq_of_le hkn with hlt | rfl
    · exact hm.nearest k hk hlt
    · exact hn
  · intro _
    have hstamp := congrArg Baseline.taken ((refreshes_track config x).left hm)
    simp only at hstamp
    rw [TableRefreshed, Bool.not_eq_true] at hn
    simp only [TableCollector.processesDue, hon, hstamp, Bool.true_and, Option.all_some,
      Bool.or_eq_false_iff, decide_eq_false_iff_not, not_le] at hn
    exact ⟨by simp [BoostedAt, hn.1], hn.2⟩

variable (config x)

/-- Whatever the load and the clock, all that a snapshot tells of the processes is what the latest
refresh found, of this collect or not older than the interval: no list goes with the groups or the
count of another refresh. -/
theorem snapshot_coherent (n : ℕ) :
    (config.collectProcesses = false → tableOut config x n = ⟨none, none, none⟩) ∧
    (config.collectProcesses = true → ∃ m, MadeAt config x m n ∧
      tableOut config x n = tableOut config x m ∧
      Coherent config (rootIn config (tableAt config x m) (x m)) (x m).found.pids
        (tableOut config x n)) := by
  constructor
  · intro hoff
    have hdue : TableCollector.processesDue config (tableAt config x n) (x n) = false := by
      simp [TableCollector.processesDue, hoff]
    change (TableCollector.collect config (tableAt config x n) (x n)).2 = _
    simp [TableCollector.collect, hdue, hoff, TableCollector.collectProcessGroups,
      ProcessCollector.collect, ProcessCollector.collectProcesses,
      TableCollector.collectTotalProcesses]
  · intro hon
    by_cases hn : TableRefreshed config x n
    · exact ⟨n, madeAt_self hn, rfl, coherent_due hn⟩
    · obtain ⟨m, hm, hout⟩ := table_presents config x n hon hn
      refine ⟨m, madeAt_preceding hon hm hn, hout, ?_⟩
      rw [hout]
      exact coherent_due hm.ran

end Run

end Zstats
