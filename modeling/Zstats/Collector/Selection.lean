import Mathlib.Data.Prod.Lex
import Zstats.Collector.ProcessList
import Zstats.Framework.SharedBudget

namespace Zstats

open SharedBudget (select)

/-- The order of `sort_by_key(|k| Reverse(k.mem))`. -/
def HeavierMemory (a b : ProcKey) : Prop := b.mem ≤ a.mem

instance : DecidableRel HeavierMemory := fun a b => inferInstanceAs (Decidable (b.mem ≤ a.mem))

instance : Std.Total HeavierMemory := ⟨fun a b => Nat.le_total b.mem a.mem⟩

instance : IsTrans ProcKey HeavierMemory := ⟨fun _ _ _ hab hbc => Nat.le_trans hbc hab⟩

/-- The place of a key in the order of `by_cpu_then_memory`. -/
def ProcKey.place (k : ProcKey) : Lex (ℚᵒᵈ × Lex (ℕᵒᵈ × Pid)) :=
  toLex (OrderDual.toDual k.cpu, toLex (OrderDual.toDual k.mem, k.pid))

theorem byCpuThenMemory_iff {a b : ProcKey} : ByCpuThenMemory a b ↔ a.place ≤ b.place := by
  simp [ByCpuThenMemory, ProcKey.place, Prod.Lex.toLex_le_toLex, eq_comm]

theorem ProcKey.place_injective {a b : ProcKey} (h : a.place = b.place) : a = b := by
  cases a
  cases b
  simp only [ProcKey.place, EmbeddingLike.apply_eq_iff_eq, Prod.mk.injEq] at h
  obtain ⟨rfl, rfl, rfl⟩ := h
  rfl

instance : Std.Total ByCpuThenMemory :=
  ⟨fun a b => by simpa only [byCpuThenMemory_iff] using le_total a.place b.place⟩

instance : IsTrans ProcKey ByCpuThenMemory :=
  ⟨fun _ _ _ hab hbc => byCpuThenMemory_iff.mpr
    ((byCpuThenMemory_iff.mp hab).trans (byCpuThenMemory_iff.mp hbc))⟩

theorem byCpuThenMemory_antisymm (a b : ProcKey) (hab : ByCpuThenMemory a b)
    (hba : ByCpuThenMemory b a) : a = b :=
  ProcKey.place_injective (le_antisymm (byCpuThenMemory_iff.mp hab) (byCpuThenMemory_iff.mp hba))

/-- The keys whose pids `select_top_pids` returns. -/
def selectedKeys (keys : List ProcKey) (max : ℕ) : List ProcKey :=
  select ByCpuThenMemory HeavierMemory keys max

theorem selectTopPids_eq (keys : List ProcKey) (max : ℕ) :
    selectTopPids keys max = (selectedKeys keys max).map ProcKey.pid := rfl

/-- What a selection is: within the budget, with the first by cpu, and with nothing left out that is
larger than what memory brought in. -/
structure Selection (keys kept : List ProcKey) (max : ℕ) : Prop where
  count : kept.length = min max keys.length
  distinct : (kept.map ProcKey.pid).Nodup
  subset : ∀ k ∈ kept, k ∈ keys
  byCpu : ∀ ranked : List ProcKey, ranked.Perm keys → ranked.Pairwise ByCpuThenMemory →
    ∀ k ∈ ranked.take (max / 2), k ∈ kept
  byMemory : ∀ ranked : List ProcKey, ranked.Perm keys → ranked.Pairwise ByCpuThenMemory →
    ∀ k ∈ kept, k ∉ ranked.take (max / 2) → ∀ out ∈ keys, out ∉ kept → out.mem ≤ k.mem
  largest : ∀ out ∈ keys, out ∉ kept →
    max - max / 2 ≤ (kept.filter fun k => decide (out.mem ≤ k.mem)).length
  sorted : kept.Pairwise ByCpuThenMemory

theorem ranked_eq_insertionSort {keys ranked : List ProcKey} (hperm : ranked.Perm keys)
    (hsorted : ranked.Pairwise ByCpuThenMemory) : ranked = keys.insertionSort ByCpuThenMemory := by
  have hinsert := SharedBudget.insertionSort_perm byCpuThenMemory_antisymm hperm
  rw [← hinsert, hsorted.insertionSort_eq]

theorem selection (keys : List ProcKey) (hpids : (keys.map ProcKey.pid).Nodup) (max : ℕ) :
    Selection keys (selectedKeys keys max) max where
  count := SharedBudget.length_select
  distinct := by
    obtain ⟨out, hperm⟩ := SharedBudget.select_perm_append (r := ByCpuThenMemory)
      (s := HeavierMemory) keys max
    have hmap := (hperm.map ProcKey.pid).nodup_iff.mpr hpids
    rw [List.map_append] at hmap
    exact (List.nodup_append.mp hmap).1
  subset := fun k hk => SharedBudget.mem_of_select hk
  byCpu := by
    intro ranked hperm hsorted k hk
    rw [ranked_eq_insertionSort hperm hsorted] at hk
    exact SharedBudget.take_subset_select hk
  byMemory := by
    intro ranked hperm hsorted k hk hfirst out hmem hout
    rw [ranked_eq_insertionSort hperm hsorted] at hfirst
    exact SharedBudget.select_heavier (s := HeavierMemory) hk hfirst hmem hout
  largest := fun out hmem hout => SharedBudget.heavier_count (s := HeavierMemory) hmem hout
  sorted := SharedBudget.pairwise_select

/-- The processes of a list of keys are a selection of it, and the order of the list does not
matter. -/
theorem selectTopPids_selection (keys : List ProcKey) (hpids : (keys.map ProcKey.pid).Nodup) (max : ℕ) :
    ∃ kept, selectTopPids keys max = kept.map ProcKey.pid ∧ Selection keys kept max ∧
      ∀ keys', keys'.Perm keys → selectTopPids keys' max = selectTopPids keys max := by
  refine ⟨selectedKeys keys max, selectTopPids_eq keys max, selection keys hpids max, ?_⟩
  intro keys' hperm
  rw [selectTopPids_eq, selectTopPids_eq, selectedKeys,
    SharedBudget.select_perm byCpuThenMemory_antisymm hperm, ← selectedKeys]

/-- The idle process that holds the memory stays, within a budget of two. -/
theorem selectTopPids_selection_hog :
    ∃ kept, selectTopPids [⟨1, 50, 10⟩, ⟨99, 0, 1000⟩, ⟨2, 60, 10⟩] 2 = kept.map ProcKey.pid ∧
      Selection [⟨1, 50, 10⟩, ⟨99, 0, 1000⟩, ⟨2, 60, 10⟩] kept 2 ∧
      ∀ keys', keys'.Perm [⟨1, 50, 10⟩, ⟨99, 0, 1000⟩, ⟨2, 60, 10⟩] →
        selectTopPids keys' 2 = selectTopPids [⟨1, 50, 10⟩, ⟨99, 0, 1000⟩, ⟨2, 60, 10⟩] 2 :=
  selectTopPids_selection _ (by decide) 2

end Zstats
