import Zstats.Framework.Machine

namespace Switchable

variable {σ ι V : Type*}

/-- What the owner calls. `other` is a call that does not concern the part. -/
inductive Call (ι : Type*) where
  | set (on : Bool)
  | collect (i : ι)
  | other

/-- A part that its owner switches on and off while it runs. -/
structure Part (σ ι V : Type*) where
  fresh : Bool → σ
  on : σ → Bool
  set : σ → Bool → σ
  collect : σ → ι → σ × Option V

def Part.step (c : Part σ ι V) (s : σ) : Call ι → σ × Option V
  | .set on => (c.set s on, none)
  | .collect i => c.collect s i
  | .other => (s, none)

/-- Setting what is set already does nothing, setting the other state starts afresh, and a
part that is off neither answers nor changes. -/
structure Part.Lawful (c : Part σ ι V) : Prop where
  on_fresh : ∀ b, c.on (c.fresh b) = b
  set_same : ∀ s, c.set s (c.on s) = s
  set_other : ∀ s b, c.on s ≠ b → c.set s b = c.fresh b
  on_collect : ∀ s i, c.on (c.collect s i).1 = c.on s
  collect_off : ∀ s i, c.on s = false → c.collect s i = (s, none)

/-- What the part was last set to before call `n`. -/
def setting (b : Bool) (x : ℕ → Call ι) : ℕ → Bool
  | 0 => b
  | n + 1 =>
    match x n with
    | .set on => on
    | .collect _ => setting b x n
    | .other => setting b x n

/-- Call `i` is one that changes the setting. -/
structure SwitchAt (b : Bool) (x : ℕ → Call ι) (i : ℕ) (on : Bool) : Prop where
  call : x i = .set on
  changed : setting b x i ≠ on

/-- What an owner may rely on: an answer only while on, a read at the first call after the
part was off, and after a switch the answers of a new part. -/
structure Switches (c : Part σ ι V) (reads : σ → ι → Prop) (b : Bool) (x : ℕ → Call ι)
    (state : ℕ → σ) (out : ℕ → Option V) : Prop where
  off : ∀ n r, x n = .collect r → setting b x n = false → out n = none
  due : ∀ i n r, i ≤ n → setting b x i = false → (∀ k s, i ≤ k → k < n → x k ≠ .collect s) →
    setting b x n = true → x n = .collect r → reads (state n) r
  forgets : ∀ i on k, SwitchAt b x i on →
    out (i + 1 + k) = Machine.outAt c.step (c.fresh on) (fun n => x (i + 1 + n)) k

/-- Call `n` reads, and the read gives `a`. -/
def FetchedAt {A : Type*} (reads : σ → ι → Prop) (answer : ι → Option A) (x : ℕ → Call ι)
    (state : ℕ → σ) (n : ℕ) (a : A) : Prop :=
  ∃ r, x n = .collect r ∧ reads (state n) r ∧ answer r = some a

variable {c : Part σ ι V} {b : Bool} {x : ℕ → Call ι}

theorem setting_succ_set {n : ℕ} {on : Bool} (h : x n = .set on) : setting b x (n + 1) = on := by
  simp only [setting, h]

theorem setting_succ_of_ne {n : ℕ} (h : ∀ on, x n ≠ .set on) :
    setting b x (n + 1) = setting b x n := by
  rw [setting]
  cases hx : x n with
  | set on => exact absurd hx (h on)
  | collect i => rfl
  | other => rfl

namespace Part.Lawful

variable (h : c.Lawful)
include h

/-- The part's own flag is what it was last set to. -/
theorem on_stateAt (n : ℕ) : c.on (Machine.stateAt c.step (c.fresh b) x n) = setting b x n := by
  induction n with
  | zero => exact h.on_fresh b
  | succ n ih =>
    rw [Machine.stateAt_succ]
    cases hx : x n with
    | set on =>
      rw [setting_succ_set hx]
      by_cases hon : c.on (Machine.stateAt c.step (c.fresh b) x n) = on
      · have hsame := h.set_same (Machine.stateAt c.step (c.fresh b) x n)
        rw [hon] at hsame
        rw [step, hsame]
        exact hon
      · rw [step, h.set_other _ on hon]
        exact h.on_fresh on
    | collect i =>
      have hkept : setting b x (n + 1) = setting b x n :=
        setting_succ_of_ne fun on => by simp [hx]
      rw [hkept, step, h.on_collect]
      exact ih
    | other =>
      have hkept : setting b x (n + 1) = setting b x n :=
        setting_succ_of_ne fun on => by simp [hx]
      rw [hkept]
      exact ih

theorem stateAt_switch {i : ℕ} {on : Bool} (hi : SwitchAt b x i on) :
    Machine.stateAt c.step (c.fresh b) x (i + 1) = c.fresh on := by
  have hne : c.on (Machine.stateAt c.step (c.fresh b) x i) ≠ on := by
    rw [h.on_stateAt]
    exact hi.changed
  rw [Machine.stateAt_succ, hi.call, step]
  exact h.set_other _ on hne

/-- A call that does not collect leaves a fresh part fresh. -/
theorem step_fresh {n : ℕ} (hn : ∀ r, x n ≠ .collect r) :
    (c.step (c.fresh (setting b x n)) (x n)).1 = c.fresh (setting b x (n + 1)) := by
  cases hx : x n with
  | set on =>
    rw [setting_succ_set hx, step]
    by_cases hon : setting b x n = on
    · have hsame := h.set_same (c.fresh (setting b x n))
      rw [h.on_fresh] at hsame
      rw [← hon]
      exact hsame
    · have hne : c.on (c.fresh (setting b x n)) ≠ on := by
        rw [h.on_fresh]
        exact hon
      exact h.set_other _ on hne
  | collect i => exact absurd hx (hn i)
  | other =>
    have hkept : setting b x (n + 1) = setting b x n :=
      setting_succ_of_ne fun on => by simp [hx]
    rw [hkept]
    rfl

theorem stateAt_off {n : ℕ} (hn : setting b x n = false) :
    Machine.stateAt c.step (c.fresh b) x n = c.fresh false := by
  induction n with
  | zero =>
    have hb : b = false := hn
    rw [hb]
    rfl
  | succ n ih =>
    rw [Machine.stateAt_succ]
    by_cases hoff : setting b x n = false
    · rw [ih hoff]
      by_cases hcollect : ∃ r, x n = .collect r
      · obtain ⟨r, hr⟩ := hcollect
        rw [hr, step, h.collect_off _ r (h.on_fresh false)]
      · have hfresh := h.step_fresh (b := b) (x := x) fun r hr => hcollect ⟨r, hr⟩
        rw [hoff, hn] at hfresh
        exact hfresh
    · have hset : x n = .set false := by
        cases hx : x n with
        | set on =>
          rw [setting_succ_set hx] at hn
          rw [hn]
        | collect r =>
          rw [setting_succ_of_ne fun on => by simp [hx]] at hn
          exact absurd hn hoff
        | other =>
          rw [setting_succ_of_ne fun on => by simp [hx]] at hn
          exact absurd hn hoff
      rw [← Machine.stateAt_succ]
      exact h.stateAt_switch ⟨hset, hoff⟩

/-- Since it was off, nothing but switches: whatever it is set to, it is fresh. -/
theorem stateAt_since_off {i n : ℕ} (hin : i ≤ n) (hi : setting b x i = false)
    (hquiet : ∀ k r, i ≤ k → k < n → x k ≠ .collect r) :
    Machine.stateAt c.step (c.fresh b) x n = c.fresh (setting b x n) := by
  induction n, hin using Nat.le_induction with
  | base =>
    rw [hi]
    exact h.stateAt_off hi
  | succ n hin ih =>
    have hfresh := ih fun k r hik hkn => hquiet k r hik (Nat.lt_succ_of_lt hkn)
    rw [Machine.stateAt_succ, hfresh]
    exact h.step_fresh fun r => hquiet n r hin n.lt_succ_self

/-- What a part holds that was fresh at call `i`, a collect since then made. -/
theorem held_since_fresh {A : Type*} {holds : σ → A → Prop} {made : ℕ → A → Prop}
    (hfresh : ∀ on a, ¬ holds (c.fresh on) a)
    (hcollect : ∀ n r a, x n = .collect r →
      holds (c.collect (Machine.stateAt c.step (c.fresh b) x n) r).1 a →
        made n a ∨ holds (Machine.stateAt c.step (c.fresh b) x n) a)
    {i n : ℕ} {on : Bool} {a : A} (hi : Machine.stateAt c.step (c.fresh b) x i = c.fresh on)
    (hin : i ≤ n) (ha : holds (Machine.stateAt c.step (c.fresh b) x n) a) :
    ∃ m, i ≤ m ∧ m < n ∧ made m a := by
  induction n, hin using Nat.le_induction with
  | base =>
    rw [hi] at ha
    exact absurd ha (hfresh on a)
  | succ n hin ih =>
    have hnow : made n a ∨ holds (Machine.stateAt c.step (c.fresh b) x n) a := by
      rw [Machine.stateAt_succ] at ha
      cases hx : x n with
      | set now =>
        right
        rw [hx, step] at ha
        by_cases hset : c.on (Machine.stateAt c.step (c.fresh b) x n) = now
        · have hsame := h.set_same (Machine.stateAt c.step (c.fresh b) x n)
          rw [hset] at hsame
          rw [hsame] at ha
          exact ha
        · rw [h.set_other _ now hset] at ha
          exact absurd ha (hfresh now a)
      | collect r =>
        rw [hx] at ha
        exact hcollect n r a hx ha
      | other =>
        rw [hx] at ha
        exact Or.inr ha
    rcases hnow with hmade | hheld
    · exact ⟨n, hin, n.lt_succ_self, hmade⟩
    · obtain ⟨m, him, hmn, hmade⟩ := ih hheld
      exact ⟨m, him, Nat.lt_succ_of_lt hmn, hmade⟩

/-- What a part answers after a switch, from what it holds or not, a collect since then made. -/
theorem answered_since {holds : σ → V → Prop} {made : ℕ → V → Prop}
    (hfresh : ∀ on v, ¬ holds (c.fresh on) v)
    (hcollect : ∀ n r v, x n = .collect r →
      (holds (c.collect (Machine.stateAt c.step (c.fresh b) x n) r).1 v ∨
        (c.collect (Machine.stateAt c.step (c.fresh b) x n) r).2 = some v) →
      made n v ∨ holds (Machine.stateAt c.step (c.fresh b) x n) v)
    {i n : ℕ} {on : Bool} {v : V} (hi : SwitchAt b x i on) (hin : i < n)
    (hv : Machine.outAt c.step (c.fresh b) x n = some v) : ∃ m, i < m ∧ m ≤ n ∧ made m v := by
  rw [Machine.outAt] at hv
  cases hx : x n with
  | set on =>
    rw [hx] at hv
    cases hv
  | other =>
    rw [hx] at hv
    cases hv
  | collect r =>
    rw [hx] at hv
    rcases hcollect n r v hx (Or.inr hv) with hmade | hheld
    · exact ⟨n, hin, n.le_refl, hmade⟩
    · obtain ⟨m, him, hmn, hmade⟩ := h.held_since_fresh hfresh
        (fun n r v hx hheld => hcollect n r v hx (Or.inl hheld)) (h.stateAt_switch hi) hin hheld
      exact ⟨m, him, Nat.le_of_lt hmn, hmade⟩

/-- The run of a lawful part that reads whenever it is on and new. -/
theorem switches {reads : σ → ι → Prop} (hreads : ∀ r, reads (c.fresh true) r) :
    Switches c reads b x (Machine.stateAt c.step (c.fresh b) x)
      (Machine.outAt c.step (c.fresh b) x) where
  off := by
    intro n r hn hoff
    have hon : c.on (Machine.stateAt c.step (c.fresh b) x n) = false := by
      rw [h.on_stateAt]
      exact hoff
    rw [Machine.outAt, hn, step, h.collect_off _ r hon]
  due := by
    intro i n r hin hi hquiet hon hn
    rw [h.stateAt_since_off hin hi hquiet, hon]
    exact hreads r
  forgets := by
    intro i on k hi
    rw [Machine.outAt_add, h.stateAt_switch hi]

end Part.Lawful

end Switchable
