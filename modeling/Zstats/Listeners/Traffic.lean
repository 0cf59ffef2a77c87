import Zstats.Collector.GroupSums
import Zstats.Listeners.Canonical

namespace Zstats

open Grouping Pcblist

/-- One process's sockets, summed. -/
structure ProcessTrafficSnapshot where
  pid : ℕ
  process : Option String
  runTimeSecs : Option ℕ
  receivedBytes : ℕ
  transmittedBytes : ℕ
  deriving DecidableEq, Repr

structure ProcessTraffic where
  processes : List ProcessTrafficSnapshot
  coverage : OwnerCoverage
  deriving DecidableEq, Repr

/-- An entry of the totals, `(received, transmitted)`, with one more flow. -/
def addFlow (entry : ℕ × ℕ) (flow : FlowBytes) : ℕ × ℕ :=
  (saturatingAdd entry.1 flow.receivedBytes, saturatingAdd entry.2 flow.transmittedBytes)

/-- One turn of the loop over the flows. -/
def tallyFlow : (ℕ → Option (ℕ × ℕ)) → FlowBytes → ℕ → Option (ℕ × ℕ) :=
  put FlowBytes.pid (fun _ => (0, 0)) addFlow

/-- The order in which the map of the totals is walked. -/
structure TotalsOrder where
  entries : List (ℕ × ℕ × ℕ) → List (ℕ × ℕ × ℕ)
  perm : ∀ l, (entries l).Perm l

/-- The totals of every pid, in the order of the map. -/
def trafficTotals (order : TotalsOrder) (flows : List FlowBytes) : List (ℕ × ℕ × ℕ) :=
  let totals := flows.foldl tallyFlow fun _ => none
  order.entries ((flows.map FlowBytes.pid).dedup.filterMap fun pid => (totals pid).map (pid, ·))

/-- One entry of the totals as a row. -/
def trafficRow (owners : ℕ → Option Owner) (entry : ℕ × ℕ × ℕ) : ProcessTrafficSnapshot :=
  let owner := owners entry.1
  { pid := entry.1
    process := owner.map Owner.name
    runTimeSecs := owner.bind Owner.runTimeSecs
    receivedBytes := entry.2.1
    transmittedBytes := entry.2.2 }

/-- Name the owners and put the rows in pid order. -/
def finishTraffic (system : ℕ → Option OwnerEntry) (totals : List (ℕ × ℕ × ℕ))
    (coverage : OwnerCoverage) : ProcessTraffic :=
  let owners := processOwners system (totals.map Prod.fst)
  ⟨(totals.map (trafficRow owners)).insertionSort fun a b => a.pid ≤ b.pid, coverage⟩

namespace ProcessTraffic

/-- What one process's flows come to, counted by `bytes`. -/
def bytesOf (bytes : FlowBytes → ℕ) (flows : List FlowBytes) (pid : ℕ) : ℕ :=
  ((members FlowBytes.pid flows pid).map bytes).sum

/-- The rows account for the flows: one for each pid that has any, in order, with what they come
to, capped, and with what the process table says. -/
structure Accounts (system : ℕ → Option OwnerEntry) (flows : List FlowBytes)
    (rows : List ProcessTrafficSnapshot) : Prop where
  sorted : rows.Pairwise fun a b => a.pid < b.pid
  pids : ∀ pid, (∃ row ∈ rows, row.pid = pid) ↔ ∃ flow ∈ flows, flow.pid = pid
  received : ∀ row ∈ rows,
    row.receivedBytes = min (bytesOf FlowBytes.receivedBytes flows row.pid) u64Max
  transmitted : ∀ row ∈ rows,
    row.transmittedBytes = min (bytesOf FlowBytes.transmittedBytes flows row.pid) u64Max
  process : ∀ row ∈ rows, row.process = (system row.pid).map OwnerEntry.name
  runTime : ∀ row ∈ rows,
    row.runTimeSecs = (system row.pid).bind fun entry => entry.owner.runTimeSecs

variable {system : ℕ → Option OwnerEntry} {order : TotalsOrder} {flows : List FlowBytes}

theorem foldl_addFlow (entry : ℕ × ℕ) (flows : List FlowBytes) (h₁ : entry.1 ≤ u64Max)
    (h₂ : entry.2 ≤ u64Max) :
    flows.foldl addFlow entry =
      (min (entry.1 + (flows.map FlowBytes.receivedBytes).sum) u64Max,
        min (entry.2 + (flows.map FlowBytes.transmittedBytes).sum) u64Max) := by
  induction flows using List.reverseRecOn with
  | nil =>
    simp only [List.foldl_nil, List.map_nil, List.sum_nil, Nat.add_zero]
    rw [min_eq_left h₁, min_eq_left h₂]
  | append_singleton flows flow ih =>
    rw [List.foldl_concat, ih, addFlow, saturatingAdd_min, saturatingAdd_min]
    simp only [List.map_append, List.sum_append, List.map_cons, List.map_nil, List.sum_cons,
      List.sum_nil, Nat.add_zero, Nat.add_assoc]

/-- What the map holds for a pid. -/
theorem tally_pid (flows : List FlowBytes) (pid : ℕ) :
    flows.foldl tallyFlow (fun _ => none) pid =
      if members FlowBytes.pid flows pid = [] then none
      else some (min (bytesOf FlowBytes.receivedBytes flows pid) u64Max,
        min (bytesOf FlowBytes.transmittedBytes flows pid) u64Max) := by
  have hfold := foldl_put FlowBytes.pid (fun _ => (0, 0)) addFlow flows pid
  rw [foldl_addFlow (0, 0) _ (Nat.zero_le _) (Nat.zero_le _), Nat.zero_add, Nat.zero_add] at hfold
  exact hfold

/-- An entry of the totals. -/
def entryOf (flows : List FlowBytes) (pid : ℕ) : ℕ × ℕ × ℕ :=
  (pid, min (bytesOf FlowBytes.receivedBytes flows pid) u64Max,
    min (bytesOf FlowBytes.transmittedBytes flows pid) u64Max)

theorem trafficTotals_perm :
    (trafficTotals order flows).Perm ((flows.map FlowBytes.pid).dedup.map (entryOf flows)) := by
  have hentries : (flows.map FlowBytes.pid).dedup.filterMap (fun pid =>
      (flows.foldl tallyFlow (fun _ => none) pid).map (pid, ·)) =
        (flows.map FlowBytes.pid).dedup.map (entryOf flows) := by
    apply filterMap_eq_map
    intro pid hpid
    have hne : members FlowBytes.pid flows pid ≠ [] := by
      obtain ⟨flow, hflow, rfl⟩ := List.mem_map.mp (List.mem_dedup.mp hpid)
      exact List.ne_nil_of_mem (mem_members.mpr ⟨hflow, rfl⟩)
    rw [tally_pid, if_neg hne, Option.map_some, entryOf]
  rw [trafficTotals, hentries]
  exact order.perm _

theorem totals_pids (entry : ℕ × ℕ × ℕ) : entry ∈ trafficTotals order flows ↔
    (∃ flow ∈ flows, flow.pid = entry.1) ∧ entry = entryOf flows entry.1 := by
  rw [trafficTotals_perm.mem_iff, List.mem_map]
  constructor
  · intro h
    obtain ⟨pid, hpid, rfl⟩ := h
    exact ⟨List.mem_map.mp (List.mem_dedup.mp hpid), rfl⟩
  · intro h
    exact ⟨entry.1, List.mem_dedup.mpr (List.mem_map.mpr h.1), h.2.symm⟩

theorem mem_finish {coverage : OwnerCoverage} {totals : List (ℕ × ℕ × ℕ)}
    {row : ProcessTrafficSnapshot} : row ∈ (finishTraffic system totals coverage).processes ↔
      ∃ entry ∈ totals, trafficRow (fun pid => (system pid).map OwnerEntry.owner) entry = row := by
  have hrow : totals.map (trafficRow (processOwners system (totals.map Prod.fst))) =
      totals.map (trafficRow fun pid => (system pid).map OwnerEntry.owner) := by
    apply List.map_congr_left
    intro entry hentry
    have hasked : processOwners system (totals.map Prod.fst) entry.1 =
        (system entry.1).map OwnerEntry.owner := if_pos (List.mem_map_of_mem hentry)
    simp only [trafficRow, hasked]
  rw [finishTraffic]
  simp only [hrow]
  rw [(List.perm_insertionSort _ _).mem_iff, List.mem_map]

/-- The rows of a call account for its flows, in whatever order the map is walked. -/
theorem finish_accounts (coverage : OwnerCoverage) :
    Accounts system flows
      (finishTraffic system (trafficTotals order flows) coverage).processes := by
  have hpids : ((trafficTotals order flows).map Prod.fst).Nodup := by
    have hmap : ((flows.map FlowBytes.pid).dedup.map (entryOf flows)).map Prod.fst =
        (flows.map FlowBytes.pid).dedup := by
      rw [List.map_map]
      exact List.map_id _
    rw [(trafficTotals_perm.map Prod.fst).nodup_iff, hmap]
    exact List.nodup_dedup _
  have hrows : ∀ row ∈ (finishTraffic system (trafficTotals order flows) coverage).processes,
      row = trafficRow (fun pid => (system pid).map OwnerEntry.owner) (entryOf flows row.pid) := by
    intro row hrow
    obtain ⟨entry, hentry, rfl⟩ := mem_finish.mp hrow
    rw [((totals_pids entry).mp hentry).2]
    rfl
  refine ⟨?_, ?_, ?_, ?_, ?_, ?_⟩
  · have hsorted := List.pairwise_insertionSort
      (fun a b : ProcessTrafficSnapshot => a.pid ≤ b.pid)
      ((trafficTotals order flows).map
        (trafficRow (processOwners system ((trafficTotals order flows).map Prod.fst))))
    have hnodup : ((finishTraffic system (trafficTotals order flows) coverage).processes.map
        ProcessTrafficSnapshot.pid).Nodup := by
      have hperm := (List.perm_insertionSort
        (fun a b : ProcessTrafficSnapshot => a.pid ≤ b.pid)
        ((trafficTotals order flows).map (trafficRow
          (processOwners system ((trafficTotals order flows).map Prod.fst))))).map
            ProcessTrafficSnapshot.pid
      rw [List.map_map] at hperm
      exact hperm.nodup_iff.mpr hpids
    have hboth := hsorted.and (List.pairwise_map.mp hnodup)
    exact hboth.imp fun h => lt_of_le_of_ne h.1 h.2
  · intro pid
    constructor
    · intro h
      obtain ⟨row, hrow, rfl⟩ := h
      obtain ⟨entry, hentry, rfl⟩ := mem_finish.mp hrow
      exact ((totals_pids entry).mp hentry).1
    · intro h
      exact ⟨_, mem_finish.mpr ⟨entryOf flows pid, (totals_pids _).mpr ⟨h, rfl⟩, rfl⟩, rfl⟩
  · intro row hrow
    rw [hrows row hrow]
    rfl
  · intro row hrow
    rw [hrows row hrow]
    rfl
  · intro row hrow
    rw [hrows row hrow]
    cases hsystem : system row.pid <;> simp [trafficRow, entryOf, hsystem, OwnerEntry.owner]
  · intro row hrow
    rw [hrows row hrow]
    cases hsystem : system row.pid <;> simp [trafficRow, entryOf, hsystem]

/-- Rows that account for the same flows are the same. -/
theorem Accounts.unique {rows rows' : List ProcessTrafficSnapshot}
    (h : Accounts system flows rows) (h' : Accounts system flows rows') : rows = rows' := by
  have hrow {rows : List ProcessTrafficSnapshot} (h : Accounts system flows rows)
      {row : ProcessTrafficSnapshot} (hmem : row ∈ rows) :
      row = ⟨row.pid, (system row.pid).map OwnerEntry.name,
        (system row.pid).bind fun entry => entry.owner.runTimeSecs,
        min (bytesOf FlowBytes.receivedBytes flows row.pid) u64Max,
        min (bytesOf FlowBytes.transmittedBytes flows row.pid) u64Max⟩ := by
    rw [← h.process row hmem, ← h.runTime row hmem, ← h.received row hmem,
      ← h.transmitted row hmem]
  have hsub {rows rows' : List ProcessTrafficSnapshot} (h : Accounts system flows rows)
      (h' : Accounts system flows rows') : ∀ row ∈ rows, row ∈ rows' := by
    intro row hmem
    obtain ⟨row', hmem', hpid⟩ := (h'.pids row.pid).mpr ((h.pids row.pid).mp ⟨row, hmem, rfl⟩)
    have heq := hrow h' hmem'
    rw [hpid] at heq
    rw [hrow h hmem, ← heq]
    exact hmem'
  have hnodup {rows : List ProcessTrafficSnapshot} (h : Accounts system flows rows) :
      rows.Nodup := h.sorted.imp fun hlt heq => absurd hlt (by rw [heq]; exact lt_irrefl _)
  have hperm : rows.Perm rows' := (List.perm_ext_iff_of_nodup (hnodup h) (hnodup h')).mpr
    fun row => ⟨hsub h h' row, hsub h' h row⟩
  exact hperm.eq_of_pairwise (fun a b _ _ hab hba => absurd hab (lt_asymm hba)) h.sorted h'.sorted

theorem Accounts.nodup_pids {rows : List ProcessTrafficSnapshot} (h : Accounts system flows rows) :
    (rows.map ProcessTrafficSnapshot.pid).Nodup :=
  List.pairwise_map.mpr (h.sorted.imp fun hlt => ne_of_lt hlt)

/-- No byte of a flow is lost or counted twice, as long as no counter is at its cap. -/
theorem Accounts.conserved {rows : List ProcessTrafficSnapshot} (h : Accounts system flows rows)
    {bytes : FlowBytes → ℕ} {figure : ProcessTrafficSnapshot → ℕ}
    (hfigure : ∀ row ∈ rows, figure row = min (bytesOf bytes flows row.pid) u64Max)
    (hcap : ∀ pid, bytesOf bytes flows pid ≤ u64Max) :
    (rows.map figure).sum = (flows.map bytes).sum := by
  have hrows : rows.map figure =
      (rows.map ProcessTrafficSnapshot.pid).map (bytesOf bytes flows) := by
    rw [List.map_map]
    apply List.map_congr_left
    intro row hrow
    rw [hfigure row hrow, min_eq_left (hcap row.pid)]
    rfl
  have hkeys : ∀ flow ∈ flows, flow.pid ∈ rows.map ProcessTrafficSnapshot.pid := by
    intro flow hflow
    obtain ⟨row, hrow, hpid⟩ := (h.pids flow.pid).mpr ⟨flow, hflow, rfl⟩
    exact hpid ▸ List.mem_map_of_mem hrow
  rw [hrows]
  exact sum_members FlowBytes.pid h.nodup_pids hkeys bytes

theorem bytesOf_perm {flows' : List FlowBytes} (hperm : flows.Perm flows') (bytes : FlowBytes → ℕ)
    (pid : ℕ) : bytesOf bytes flows pid = bytesOf bytes flows' pid :=
  ((hperm.filter _).map bytes).sum_eq

theorem Accounts.perm {flows' : List FlowBytes} {rows : List ProcessTrafficSnapshot}
    (h : Accounts system flows rows) (hperm : flows.Perm flows') : Accounts system flows' rows := by
  refine ⟨h.sorted, ?_, ?_, ?_, h.process, h.runTime⟩
  · intro pid
    rw [h.pids pid]
    simp only [hperm.mem_iff]
  · intro row hrow
    rw [h.received row hrow, bytesOf_perm hperm]
  · intro row hrow
    rw [h.transmitted row hrow, bytesOf_perm hperm]

end ProcessTraffic

end Zstats
