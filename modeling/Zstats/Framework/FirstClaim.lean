import Mathlib.Data.Finset.Card
import Mathlib.Data.List.AList

namespace FirstClaim

variable {κ ν : Type*} [DecidableEq κ]

/-- A key and who holds it. -/
abbrev Claims (κ ν : Type*) := AList fun _ : κ => ν

/-- A key goes to a claimant unless it is held. -/
def claim (m : Claims κ ν) (k : κ) (v : ν) : Claims κ ν := if k ∈ m then m else m.insert k v

def claimAll (m : Claims κ ν) (keys : List κ) (v : ν) : Claims κ ν :=
  keys.foldl (fun m k => claim m k v) m

/-- Claimants in turn, each with all its offers. -/
def claimants (offers : ν → List κ) (m : Claims κ ν) (turns : List ν) : Claims κ ν :=
  turns.foldl (fun m v => claimAll m (offers v) v) m

variable {m : Claims κ ν} {k : κ} {v : ν}

theorem lookup_claim (k' : κ) :
    (claim m k v).lookup k' = (m.lookup k').or (if k' = k then some v else none) := by
  rw [claim]
  by_cases hk : k' = k
  · subst hk
    by_cases hm : k' ∈ m
    · obtain ⟨held, hheld⟩ := Option.isSome_iff_exists.mp (AList.lookup_isSome.mpr hm)
      rw [if_pos hm, hheld, Option.some_or]
    · rw [if_neg hm, AList.lookup_insert, AList.lookup_eq_none.mpr hm, if_pos rfl, Option.none_or]
  · rw [if_neg hk, Option.or_none]
    by_cases hm : k ∈ m
    · rw [if_pos hm]
    · rw [if_neg hm, AList.lookup_insert_ne hk]

theorem lookup_claimAll (keys : List κ) (k : κ) :
    (claimAll m keys v).lookup k = (m.lookup k).or (if k ∈ keys then some v else none) := by
  induction keys generalizing m with
  | nil => simp [claimAll]
  | cons key keys ih =>
    have hstep : claimAll m (key :: keys) v = claimAll (claim m key v) keys v := rfl
    rw [hstep, ih, lookup_claim, Option.or_assoc]
    by_cases hkey : k = key <;> by_cases hkeys : k ∈ keys <;> simp [hkey, hkeys]

/-- Each key goes to the first who offers for it. -/
theorem lookup_claimants (offers : ν → List κ) (turns : List ν) (k : κ) :
    (claimants offers m turns).lookup k =
      (m.lookup k).or (turns.find? fun v => decide (k ∈ offers v)) := by
  induction turns generalizing m with
  | nil => simp [claimants]
  | cons v turns ih =>
    have hstep : claimants offers m (v :: turns) =
        claimants offers (claimAll m (offers v) v) turns := rfl
    rw [hstep, ih, lookup_claimAll, Option.or_assoc, List.find?_cons]
    by_cases hoffer : k ∈ offers v <;> simp [hoffer]

theorem mem_claimAll {keys : List κ} : k ∈ claimAll m keys v ↔ k ∈ m ∨ k ∈ keys := by
  rw [← AList.lookup_isSome, ← AList.lookup_isSome, lookup_claimAll, Option.isSome_or,
    Bool.or_eq_true]
  by_cases hkeys : k ∈ keys <;> simp [hkeys]

/-- With as many keys held as there are to be had, every one is held. -/
theorem mem_of_full {wanted : Finset κ} (hsub : ∀ k ∈ m, k ∈ wanted)
    (hfull : wanted.card ≤ m.keys.length) (hk : k ∈ wanted) : k ∈ m := by
  have hsubset : m.keys.toFinset ⊆ wanted := fun k hk => hsub k (List.mem_toFinset.mp hk)
  have hcard : wanted.card ≤ m.keys.toFinset.card := by
    rwa [List.toFinset_card_of_nodup m.keys_nodup]
  have heq := Finset.eq_of_subset_of_card_le hsubset hcard
  exact List.mem_toFinset.mp (heq ▸ hk)

theorem length_le {wanted : Finset κ} (hsub : ∀ k ∈ m, k ∈ wanted) :
    m.keys.length ≤ wanted.card := by
  have hsubset : m.keys.toFinset ⊆ wanted := fun k hk => hsub k (List.mem_toFinset.mp hk)
  rw [← List.toFinset_card_of_nodup m.keys_nodup]
  exact Finset.card_le_card hsubset

theorem le_length {wanted : Finset κ} (h : ∀ k ∈ wanted, k ∈ m) : wanted.card ≤ m.keys.length := by
  have hsubset : wanted ⊆ m.keys.toFinset := fun k hk => List.mem_toFinset.mpr (h k hk)
  rw [← List.toFinset_card_of_nodup m.keys_nodup]
  exact Finset.card_le_card hsubset

/-- The first of a sorted list with a property is the least. -/
theorem find_least {α : Type*} [LinearOrder α] {l : List α} (h : l.Pairwise (· ≤ ·))
    {p : α → Bool} {a : α} (hfind : l.find? p = some a) :
    a ∈ l ∧ p a = true ∧ ∀ b ∈ l, p b = true → a ≤ b := by
  obtain ⟨hp, before, after, rfl, hbefore⟩ := List.find?_eq_some_iff_append.mp hfind
  refine ⟨by simp, hp, ?_⟩
  intro b hb hpb
  obtain hb | hb := List.mem_append.mp hb
  · have hnot := hbefore b hb
    rw [hpb] at hnot
    cases hnot
  · obtain rfl | hb := List.mem_cons.mp hb
    · exact le_refl b
    · exact List.rel_of_pairwise_cons (List.pairwise_append.mp h).2.1 hb

end FirstClaim
