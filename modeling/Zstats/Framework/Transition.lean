import Mathlib.Data.List.Infix

namespace Transition

variable {σ α : Type*} (step : σ → α → Option σ)

/-- Take the actions in order; `none` as soon as one of them is not enabled. -/
def exec (s : σ) : List α → Option σ
  | [] => some s
  | a :: as => (step s a).bind fun t => exec t as

/-- `P` holds in every state the run visits, the first and the last included. -/
def EachState (P : σ → Prop) (s : σ) (as : List α) : Prop :=
  ∀ pre t, pre <+: as → exec step s pre = some t → P t

/-- `C` holds of every state the run leaves together with the action it takes there. -/
def EachStep (C : σ → α → Prop) (s : σ) (as : List α) : Prop :=
  ∀ pre a t, pre ++ [a] <+: as → exec step s pre = some t → C t a

variable {step}

@[simp] theorem exec_nil (s : σ) : exec step s [] = some s := rfl

theorem exec_append (s : σ) (as bs : List α) :
    exec step s (as ++ bs) = (exec step s as).bind fun t => exec step t bs := by
  induction as generalizing s with
  | nil => rfl
  | cons a as ih =>
    cases h : step s a with
    | none => simp [exec, h]
    | some t => simpa [exec, h] using ih t

theorem exec_concat_iff (s u : σ) (as : List α) (a : α) :
    exec step s (as ++ [a]) = some u ↔ ∃ t, exec step s as = some t ∧ step t a = some u := by
  cases h : exec step s as with
  | none => simp [exec_append, h]
  | some t => simp [exec_append, h, exec]

/-- A prefix of a run that goes through goes through. -/
theorem exec_prefix {s u : σ} {pre as : List α} (hp : pre <+: as)
    (hs : exec step s as = some u) : ∃ t, exec step s pre = some t := by
  obtain ⟨suf, rfl⟩ := hp
  rw [exec_append] at hs
  cases h : exec step s pre with
  | none => simp [h] at hs
  | some t => exact ⟨t, rfl⟩

theorem eachState_mono {P Q : σ → Prop} (hpq : ∀ t, P t → Q t) {s : σ} {as : List α}
    (h : EachState step P s as) : EachState step Q s as :=
  fun pre t hp ht => hpq t (h pre t hp ht)

theorem eachStep_nil (C : σ → α → Prop) (s : σ) : EachStep step C s [] := by
  intro pre a t hp
  have hlen := hp.length_le
  simp at hlen

/-- The condition on a run is one on its first step and one on the rest. -/
theorem eachStep_cons {C : σ → α → Prop} {s t : σ} {a : α} {as : List α}
    (ha : step s a = some t) :
    EachStep step C s (a :: as) ↔ C s a ∧ EachStep step C t as := by
  constructor
  · intro h
    constructor
    · exact h [] a s ⟨as, rfl⟩ rfl
    · intro pre b u hp hu
      apply h (a :: pre) b u
      · exact List.cons_prefix_cons.mpr ⟨rfl, hp⟩
      · rw [exec, ha]
        exact hu
  · rintro ⟨hfirst, hrest⟩ pre b u hp hu
    cases pre with
    | nil =>
      have hb : b = a := (List.cons_prefix_cons.mp hp).1
      have hu' : s = u := Option.some.inj hu
      rw [hb, ← hu']
      exact hfirst
    | cons c pre =>
      obtain ⟨hc, hp⟩ := List.cons_prefix_cons.mp hp
      rw [hc, exec, ha] at hu
      exact hrest pre b u hp hu

/-- An invariant that survives the steps meeting `C` holds all along a run of such steps. -/
theorem eachState_of_eachStep {P : σ → Prop} {C : σ → α → Prop}
    (hstep : ∀ t a u, P t → C t a → step t a = some u → P u)
    {s : σ} {as : List α} (h0 : P s) (h : EachStep step C s as) : EachState step P s as := by
  intro pre
  induction pre using List.reverseRecOn with
  | nil =>
    intro t _ ht
    cases ht
    exact h0
  | append_singleton pre a ih =>
    intro u hp hu
    obtain ⟨t, ht, ha⟩ := (exec_concat_iff s u pre a).mp hu
    have hpre : pre <+: as := (List.prefix_append pre [a]).trans hp
    exact hstep t a u (ih t hpre ht) (h pre a t hp ht) ha

/-- In a run that goes through, a condition forced by the states around a step holds of it. -/
theorem eachStep_of_eachState {P : σ → Prop} {C : σ → α → Prop}
    (hstep : ∀ t a u, P t → P u → step t a = some u → C t a)
    {s v : σ} {as : List α} (hs : exec step s as = some v) (h : EachState step P s as) :
    EachStep step C s as := by
  intro pre a t hp ht
  obtain ⟨u, hu⟩ := exec_prefix hp hs
  have ha : step t a = some u := by
    obtain ⟨t', ht', ha⟩ := (exec_concat_iff s u pre a).mp hu
    cases ht.symm.trans ht'
    exact ha
  have hpre : pre <+: as := (List.prefix_append pre [a]).trans hp
  exact hstep t a u (h pre t hpre ht) (h _ u hp hu) ha

end Transition
