import Mathlib.Algebra.BigOperators.Group.List.Basic
import Mathlib.Data.List.Induction
import Mathlib.Logic.Function.Basic

namespace Grouping

variable {α κ σ : Type*} [DecidableEq κ] (key : α → κ) (start : κ → σ) (add : σ → α → σ)

/-- The items of one key. -/
def members (l : List α) (k : κ) : List α := l.filter fun a => decide (key a = k)

/-- Add an item to what is kept under its key. -/
def put (kept : κ → Option σ) (a : α) : κ → Option σ :=
  Function.update kept (key a) (some (add ((kept (key a)).getD (start (key a))) a))

variable {key start add} {l : List α} {k : κ}

theorem members_concat (l : List α) (a : α) :
    members key (l ++ [a]) k = if key a = k then members key l k ++ [a] else members key l k := by
  rw [members, List.filter_append]
  by_cases h : key a = k
  · rw [if_pos h, List.filter_cons_of_pos (by simpa using h)]
    rfl
  · rw [if_neg h, List.filter_cons_of_neg (by simpa using h), List.filter_nil, List.append_nil]
    rfl

theorem mem_members {a : α} : a ∈ members key l k ↔ a ∈ l ∧ key a = k := by
  simp [members]

variable (key start add) in
/-- What is kept under a key is the fold over its items, where it has any. -/
theorem foldl_put (l : List α) (k : κ) :
    l.foldl (put key start add) (fun _ => none) k =
      if members key l k = [] then none else some ((members key l k).foldl add (start k)) := by
  induction l using List.reverseRecOn with
  | nil => rfl
  | append_singleton l a ih =>
    rw [List.foldl_concat, members_concat]
    by_cases h : key a = k
    · subst h
      rw [if_pos rfl, put, Function.update_self, ih, List.foldl_concat,
        if_neg (List.append_ne_nil_of_right_ne_nil _ (List.cons_ne_nil a []))]
      by_cases hnew : members key l (key a) = []
      · rw [if_pos hnew, hnew]
        rfl
      · rw [if_neg hnew]
        rfl
    · rw [if_neg h, put, Function.update_of_ne (Ne.symm h), ih]

theorem filterMap_eq_map {β : Type*} {f : α → Option β} {g : α → β} {l : List α}
    (h : ∀ a ∈ l, f a = some (g a)) : l.filterMap f = l.map g :=
  (List.filterMap_congr h).trans (congrFun List.filterMap_eq_map l)

omit [DecidableEq κ] in
/-- Items made of others, with their keys, have no more keys than those. -/
theorem filterMap_keys_sublist {β : Type*} {f : α → Option β} {key' : β → κ}
    (h : ∀ a b, f a = some b → key' b = key a) (l : List α) :
    ((l.filterMap f).map key').Sublist (l.map key) := by
  induction l with
  | nil => exact List.Sublist.refl []
  | cons a l ih =>
    cases ha : f a with
    | none =>
      rw [List.filterMap_cons_none ha]
      exact ih.cons _
    | some b =>
      rw [List.filterMap_cons_some ha, List.map_cons, List.map_cons, h a b ha]
      exact ih.cons_cons _

/-- Items looked up by the keys wanted are found where the list has an item for each, and what
they tell of the key is what was wanted. -/
theorem found_map {γ β δ : Type*} {want : γ → κ} {f : γ → α → β} {told : β → δ} {wanted : γ → δ}
    (h : ∀ g a, key a = want g → told (f g a) = wanted g) {l : List α} (gs : List γ)
    (hfound : ∀ g ∈ gs, want g ∈ l.map key) :
    (gs.filterMap fun g => (l.find? fun a => key a == want g).map (f g)).map told =
      gs.map wanted := by
  induction gs with
  | nil => rfl
  | cons g gs ih =>
    obtain ⟨hg, hgs⟩ := List.forall_mem_cons.mp hfound
    obtain ⟨a, ha, hkey⟩ := List.mem_map.mp hg
    have hsome : (l.find? fun a => key a == want g).isSome :=
      List.find?_isSome.mpr ⟨a, ha, by simp [hkey]⟩
    obtain ⟨b, hb⟩ := Option.isSome_iff_exists.mp hsome
    have hwant : key b = want g := by simpa using List.find?_some hb
    simp [hb, h g b hwant, ih hgs]

section Conserved

variable {M : Type*} [AddCommMonoid M]

theorem sum_indicator {keys : List κ} (hnodup : keys.Nodup) (hk : k ∈ keys) (m : M) :
    (keys.map fun k' => if k = k' then m else 0).sum = m := by
  induction keys with
  | nil => cases hk
  | cons k' keys ih =>
    obtain ⟨hnew, hrest⟩ := List.nodup_cons.mp hnodup
    rw [List.map_cons, List.sum_cons]
    by_cases h : k = k'
    · subst h
      have hzero : (keys.map fun k' => if k = k' then m else 0).sum = 0 := by
        apply List.sum_eq_zero
        intro x hx
        obtain ⟨k', hk', rfl⟩ := List.mem_map.mp hx
        rw [if_neg]
        intro heq
        rw [heq] at hnew
        exact hnew hk'
      rw [if_pos rfl, hzero, add_zero]
    · rw [if_neg h, zero_add]
      apply ih hrest
      rcases List.mem_cons.mp hk with heq | hmem
      · exact absurd heq h
      · exact hmem

variable (key) in
/-- What is summed over the members of every key is what the whole list sums to. -/
theorem sum_members {keys : List κ} (hnodup : keys.Nodup) (hkeys : ∀ a ∈ l, key a ∈ keys)
    (f : α → M) : (keys.map fun k => ((members key l k).map f).sum).sum = (l.map f).sum := by
  induction l using List.reverseRecOn with
  | nil => simp [members]
  | append_singleton l a ih =>
    have hsplit : ∀ k, ((members key (l ++ [a]) k).map f).sum =
        ((members key l k).map f).sum + if key a = k then f a else 0 := by
      intro k
      rw [members_concat]
      by_cases h : key a = k
      · simp [h]
      · simp [h]
    simp only [hsplit]
    rw [List.sum_map_add, ih fun b hb => hkeys b (List.mem_append_left _ hb),
      sum_indicator hnodup (hkeys a (by simp))]
    simp

end Conserved

end Grouping
