import Mathlib.Data.List.Basic
import Mathlib.Tactic.TypeStar

namespace Unwinding

variable {σ ι ω : Type*}

/-- Which items concern the observer of `view`, and that of these the view tells all that the next
view depends on. -/
structure Secure (step : σ → ι → σ) (view : σ → ω) (concerns : ι → Bool) (l : List ι) : Prop where
  unseen : ∀ i ∈ l, concerns i = false → ∀ s, view (step s i) = view s
  seen : ∀ i ∈ l, concerns i = true → ∀ s s', view s = view s' → view (step s i) = view (step s' i)

variable {step : σ → ι → σ} {view : σ → ω} {concerns : ι → Bool} {l l' : List ι} {s s' : σ}

/-- The view of a fold is that of the fold over the items that concern the observer. -/
theorem foldl_filter (hsecure : Secure step view concerns l) (h : view s = view s') :
    view (l.foldl step s) = view ((l.filter concerns).foldl step s') := by
  induction l generalizing s s' with
  | nil => exact h
  | cons i l ih =>
    have hrest : Secure step view concerns l :=
      ⟨fun j hj => hsecure.unseen j (List.mem_cons_of_mem i hj),
        fun j hj => hsecure.seen j (List.mem_cons_of_mem i hj)⟩
    rw [List.foldl_cons]
    cases hi : concerns i with
    | false =>
      rw [List.filter_cons_of_neg (by simp [hi])]
      apply ih hrest
      rw [hsecure.unseen i List.mem_cons_self hi, h]
    | true =>
      rw [List.filter_cons_of_pos hi, List.foldl_cons]
      exact ih hrest (hsecure.seen i List.mem_cons_self hi s s' h)

/-- Two folds look alike to an observer whom the same items concern in both. -/
theorem foldl_view (hsame : l.filter concerns = l'.filter concerns)
    (hsecure : Secure step view concerns l) (hsecure' : Secure step view concerns l')
    (h : view s = view s') : view (l.foldl step s) = view (l'.foldl step s') := by
  rw [foldl_filter hsecure h, foldl_filter hsecure' (rfl : view s' = view s'), hsame]

/-- Where no two items have one owner, those of an owner are the one that a search finds. -/
theorem filter_eq_find {κ : Type*} [DecidableEq κ] {owner : ι → κ} (h : (l.map owner).Nodup)
    (k : κ) : (l.filter fun a => decide (owner a = k)) =
      (l.find? fun a => decide (owner a = k)).toList := by
  induction l with
  | nil => rfl
  | cons a l ih =>
    obtain ⟨hnew, hrest⟩ := List.nodup_cons.mp h
    by_cases ha : owner a = k
    · rw [List.filter_cons_of_pos (by simpa using ha), List.find?_cons_of_pos (by simpa using ha),
        List.filter_eq_nil_iff.mpr]
      · rfl
      · intro b hb hpid
        apply hnew
        rw [ha, ← of_decide_eq_true hpid]
        exact List.mem_map_of_mem hb
    · rw [List.filter_cons_of_neg (by simpa using ha), List.find?_cons_of_neg (by simpa using ha)]
      exact ih hrest

/-- Where no two items have one owner, what the owner sees of a fold is what it sees of the step
at its own item. -/
theorem foldl_find {κ : Type*} [DecidableEq κ] {owner : ι → κ} (h : (l.map owner).Nodup) {k : κ}
    (hsecure : Secure step view (fun a => decide (owner a = k)) l) (s : σ) :
    view (l.foldl step s) =
      view ((l.find? fun a => decide (owner a = k)).toList.foldl step s) := by
  rw [foldl_filter hsecure rfl, filter_eq_find h]

end Unwinding
