import Mathlib.Data.List.Basic
import Mathlib.Data.Nat.Init
import Mathlib.Order.Basic
import Mathlib.Tactic.TypeStar

namespace Climb

variable {α : Type*} (next : α → Option α)

/-- Where the climb from `a` ends, if it does within `n` steps. -/
def top : ℕ → α → Option α
  | 0, a => if (next a).isNone then some a else none
  | n + 1, a =>
    match next a with
    | none => some a
    | some b => top n b

/-- What `k` steps lead to, if there are as many. -/
def up : ℕ → α → Option α
  | 0, a => some a
  | k + 1, a => (next a).bind (up k)

/-- Climb until the memo knows, the map ends or `n` steps are done: the end, and the path. -/
def walk (memo : α → Option α) : ℕ → α → α × List α
  | 0, a =>
    match memo a with
    | some r => (r, [])
    | none => (a, [a])
  | n + 1, a =>
    match memo a with
    | some r => (r, [])
    | none =>
      match next a with
      | none => (a, [a])
      | some b => ((walk memo n b).1, a :: (walk memo n b).2)

variable {next} {memo : α → Option α} {n : ℕ} {a : α}

theorem walk_known {r : α} (h : memo a = some r) : walk next memo n a = (r, []) := by
  cases n <;> simp [walk, h]

theorem walk_end (h : memo a = none) (hn : next a = none) : walk next memo n a = (a, [a]) := by
  cases n <;> simp [walk, h, hn]

theorem walk_limit (h : memo a = none) : walk next memo 0 a = (a, [a]) := by
  simp [walk, h]

theorem walk_step {b : α} (h : memo a = none) (hn : next a = some b) :
    walk next memo (n + 1) a = ((walk next memo n b).1, a :: (walk next memo n b).2) := by
  simp [walk, h, hn]

theorem mem_walk (h : memo a = none) : a ∈ (walk next memo n a).2 := by
  cases n with
  | zero => simp [walk_limit h]
  | succ n =>
    cases hn : next a with
    | none => simp [walk_end h hn]
    | some b => simp [walk_step h hn]

theorem length_walk : (walk next memo n a).2.length ≤ n + 1 := by
  induction n generalizing a with
  | zero =>
    cases hm : memo a with
    | some r => simp [walk_known hm]
    | none => simp [walk_limit hm]
  | succ n ih =>
    cases hm : memo a with
    | some r => simp [walk_known hm]
    | none =>
      cases hn : next a with
      | none => simp [walk_end hm hn]
      | some b =>
        rw [walk_step hm hn, List.length_cons]
        exact Nat.succ_le_succ ih

/-- A walk passes only what the memo does not know yet. -/
theorem unknown_of_mem_walk {c : α} (h : c ∈ (walk next memo n a).2) : memo c = none := by
  induction n generalizing a with
  | zero =>
    cases hm : memo a with
    | some r => simp [walk_known hm] at h
    | none =>
      rw [walk_limit hm, List.mem_singleton] at h
      rw [h, hm]
  | succ n ih =>
    cases hm : memo a with
    | some r => simp [walk_known hm] at h
    | none =>
      cases hn : next a with
      | none =>
        rw [walk_end hm hn, List.mem_singleton] at h
        rw [h, hm]
      | some b =>
        rw [walk_step hm hn] at h
        rcases List.mem_cons.mp h with heq | hmem
        · rw [heq, hm]
        · exact ih hmem

theorem top_succ {r : α} (h : top next n a = some r) : top next (n + 1) a = some r := by
  induction n generalizing a with
  | zero =>
    cases hn : next a with
    | none => simpa [top, hn] using h
    | some b => simp [top, hn] at h
  | succ n ih =>
    cases hn : next a with
    | none => simpa [top, hn] using h
    | some b =>
      have hb : top next n b = some r := by simpa [top, hn] using h
      have hstep : top next (n + 1 + 1) a = top next (n + 1) b := by simp [top, hn]
      rw [hstep]
      exact ih hb

theorem top_mono {m : ℕ} {r : α} (hnm : n ≤ m) (h : top next n a = some r) :
    top next m a = some r := by
  induction m, hnm using Nat.le_induction with
  | base => exact h
  | succ m _ ih => exact top_succ ih

theorem top_unique {m : ℕ} {r r' : α} (h : top next n a = some r)
    (h' : top next m a = some r') : r = r' := by
  have hleft := top_mono (Nat.le_max_left n m) h
  have hright := top_mono (Nat.le_max_right n m) h'
  exact Option.some.inj (hleft.symm.trans hright)

/-- A climb that does not end within the limit can go on for one step more. -/
theorem up_of_cut (h : top next n a = none) : ∃ c d, up next n a = some c ∧ next c = some d := by
  induction n generalizing a with
  | zero =>
    cases hn : next a with
    | none => simp [top, hn] at h
    | some d => exact ⟨a, d, rfl, hn⟩
  | succ n ih =>
    cases hn : next a with
    | none => simp [top, hn] at h
    | some b =>
      have hb : top next n b = none := by simpa [top, hn] using h
      obtain ⟨c, d, hc, hd⟩ := ih hb
      exact ⟨c, d, by simp [up, hn, hc], hd⟩

theorem up_succ {k : ℕ} {c d : α} (h : up next k a = some c) (hd : next c = some d) :
    up next (k + 1) a = some d := by
  induction k generalizing a with
  | zero =>
    have hac : a = c := Option.some.inj h
    simp [up, hac, hd]
  | succ k ih =>
    obtain ⟨b, hb, hc⟩ := Option.bind_eq_some_iff.mp h
    have hstep : up next (k + 1 + 1) a = up next (k + 1) b := by
      rw [up, hb]
      rfl
    rw [hstep]
    exact ih hc

/-- With nothing noted a walk goes as far as it may, and passes everything up to there. -/
theorem walk_far {c : α} (h : up next n a = some c) :
    (walk next (fun _ => none) n a).1 = c ∧
      ∀ k ≤ n, ∀ b, up next k a = some b → b ∈ (walk next (fun _ => none) n a).2 := by
  induction n generalizing a with
  | zero =>
    have hac : a = c := Option.some.inj h
    rw [walk_limit rfl]
    refine ⟨hac, ?_⟩
    intro k hk b hb
    obtain rfl : k = 0 := by omega
    rw [← Option.some.inj hb]
    exact List.mem_singleton_self a
  | succ n ih =>
    obtain ⟨b, hb, hc⟩ := Option.bind_eq_some_iff.mp h
    obtain ⟨hend, hpath⟩ := ih hc
    rw [walk_step rfl hb]
    refine ⟨hend, ?_⟩
    intro k hk e he
    cases k with
    | zero =>
      rw [← Option.some.inj he]
      exact List.mem_cons_self
    | succ k =>
      rw [up, hb] at he
      exact List.mem_cons_of_mem a (hpath k (by omega) e he)

/-- What the memo notes is where the climb ends. -/
def Sound (next : α → Option α) (memo : α → Option α) : Prop :=
  ∀ a r, memo a = some r → ∃ n, top next n a = some r

/-- From a sound memo a walk finds the end, and everything it has passed ends there too. -/
theorem walk_sound {r : α} (hs : Sound next memo) (h : top next n a = some r) :
    (walk next memo n a).1 = r ∧ ∀ c ∈ (walk next memo n a).2, ∃ m, top next m c = some r := by
  induction n generalizing a with
  | zero =>
    cases hm : memo a with
    | some r' =>
      obtain ⟨m, hr'⟩ := hs a r' hm
      rw [walk_known hm]
      exact ⟨top_unique hr' h, by simp⟩
    | none =>
      have hr : a = r := by
        cases hn : next a with
        | none => simpa [top, hn] using h
        | some b => simp [top, hn] at h
      rw [walk_limit hm]
      refine ⟨hr, ?_⟩
      intro c hc
      rw [List.mem_singleton.mp hc]
      exact ⟨0, h⟩
  | succ n ih =>
    cases hm : memo a with
    | some r' =>
      obtain ⟨m, hr'⟩ := hs a r' hm
      rw [walk_known hm]
      exact ⟨top_unique hr' h, by simp⟩
    | none =>
      cases hn : next a with
      | none =>
        have hr : a = r := by simpa [top, hn] using h
        rw [walk_end hm hn]
        refine ⟨hr, ?_⟩
        intro c hc
        rw [List.mem_singleton.mp hc]
        exact ⟨n + 1, h⟩
      | some b =>
        have hb : top next n b = some r := by simpa [top, hn] using h
        obtain ⟨hend, hpath⟩ := ih hb
        rw [walk_step hm hn]
        refine ⟨hend, ?_⟩
        intro c hc
        rcases List.mem_cons.mp hc with heq | hmem
        · rw [heq]
          exact ⟨n + 1, h⟩
        · exact hpath c hmem

/-- Whatever is noted as an end is noted as its own end. -/
def Rooted (memo : α → Option α) : Prop := ∀ a r, memo a = some r → memo r = some r

/-- A walk ends at an end noted before or on its own path. -/
theorem walk_end_mem (hr : Rooted memo) :
    (walk next memo n a).1 ∈ (walk next memo n a).2 ∨
      memo (walk next memo n a).1 = some (walk next memo n a).1 := by
  induction n generalizing a with
  | zero =>
    cases hm : memo a with
    | some r =>
      rw [walk_known hm]
      exact Or.inr (hr a r hm)
    | none => simp [walk_limit hm]
  | succ n ih =>
    cases hm : memo a with
    | some r =>
      rw [walk_known hm]
      exact Or.inr (hr a r hm)
    | none =>
      cases hn : next a with
      | none => simp [walk_end hm hn]
      | some b =>
        rw [walk_step hm hn]
        exact (ih (a := b)).imp_left (List.mem_cons_of_mem a)

/-- A walk stays where the map leads. -/
theorem walk_within {P : α → Prop} (hnext : ∀ a b, P a → next a = some b → P b) (ha : P a) :
    ∀ c ∈ (walk next memo n a).2, P c := by
  induction n generalizing a with
  | zero =>
    cases hm : memo a with
    | some r => simp [walk_known hm]
    | none => simpa [walk_limit hm] using ha
  | succ n ih =>
    cases hm : memo a with
    | some r => simp [walk_known hm]
    | none =>
      cases hn : next a with
      | none => simpa [walk_end hm hn] using ha
      | some b =>
        rw [walk_step hm hn]
        intro c hc
        rcases List.mem_cons.mp hc with heq | hmem
        · rw [heq]
          exact ha
        · exact ih (hnext a b ha hn) c hmem

section Memo

variable [DecidableEq α]

/-- The memo once a walk's end is noted for its path. -/
def record (memo : α → Option α) (w : α × List α) : α → Option α :=
  fun a => if a ∈ w.2 then some w.1 else memo a

variable (next) in
/-- One climb after the other, each with what the ones before have noted. -/
def resolve (n : ℕ) (memo : α → Option α) (keys : List α) : α → Option α :=
  keys.foldl (fun memo a => record memo (walk next memo n a)) memo

theorem resolve_cons (keys : List α) :
    resolve next n memo (a :: keys) = resolve next n (record memo (walk next memo n a)) keys := rfl

theorem record_kept {r : α} (h : memo a = some r) (c : α) :
    record memo (walk next memo n c) a = some r := by
  have hnot : a ∉ (walk next memo n c).2 := by
    intro hmem
    rw [unknown_of_mem_walk hmem] at h
    cases h
  simp [record, hnot, h]

/-- What has been noted stays. -/
theorem resolve_kept {r : α} (h : memo a = some r) (keys : List α) :
    resolve next n memo keys a = some r := by
  induction keys generalizing memo with
  | nil => exact h
  | cons c keys ih =>
    rw [resolve_cons]
    exact ih (record_kept h c)

theorem record_walk_isSome (memo : α → Option α) (n : ℕ) (a : α) :
    (record memo (walk next memo n a) a).isSome := by
  cases hm : memo a with
  | some r => simp [record_kept hm]
  | none => simp [record, mem_walk hm]

theorem resolve_isSome {keys : List α} (h : a ∈ keys) :
    (resolve next n memo keys a).isSome := by
  induction keys generalizing memo with
  | nil => simp at h
  | cons c keys ih =>
    rw [resolve_cons]
    rcases List.mem_cons.mp h with heq | hmem
    · have hsome : (record memo (walk next memo n a) a).isSome := record_walk_isSome memo n a
      obtain ⟨r, hr⟩ := Option.isSome_iff_exists.mp hsome
      rw [← heq, resolve_kept hr]
      rfl
    · exact ih hmem

theorem record_sound {r : α} (hs : Sound next memo) (h : top next n a = some r) :
    Sound next (record memo (walk next memo n a)) := by
  obtain ⟨hend, hpath⟩ := walk_sound hs h
  intro c r' hc
  by_cases hmem : c ∈ (walk next memo n a).2
  · have hr' : (walk next memo n a).1 = r' := by simpa [record, hmem] using hc
    rw [← hr', hend]
    exact hpath c hmem
  · exact hs c r' (by simpa [record, hmem] using hc)

theorem resolve_sound {keys : List α} (hs : Sound next memo)
    (h : ∀ a ∈ keys, (top next n a).isSome) : Sound next (resolve next n memo keys) := by
  induction keys generalizing memo with
  | nil => exact hs
  | cons c keys ih =>
    obtain ⟨r, hr⟩ := Option.isSome_iff_exists.mp (h c List.mem_cons_self)
    rw [resolve_cons]
    exact ih (record_sound hs hr) fun a ha => h a (List.mem_cons_of_mem c ha)

/-- Where every climb ends within the limit, each key gets its end, in whatever order. -/
theorem resolve_settled {keys : List α} (h : ∀ a ∈ keys, (top next n a).isSome) (ha : a ∈ keys) :
    resolve next n (fun _ => none) keys a = top next n a := by
  have hs : Sound next (resolve next n (fun _ => none) keys) :=
    resolve_sound (fun a r hr => by cases hr) h
  have hsome : (resolve next n (fun _ => none) keys a).isSome := resolve_isSome ha
  obtain ⟨r, hr⟩ := Option.isSome_iff_exists.mp hsome
  obtain ⟨t, ht⟩ := Option.isSome_iff_exists.mp (h a ha)
  obtain ⟨m, hm⟩ := hs a r hr
  rw [hr, ht, top_unique hm ht]

theorem record_rooted (hr : Rooted memo) : Rooted (record memo (walk next memo n a)) := by
  intro c r hc
  by_cases hmem : c ∈ (walk next memo n a).2
  · have hend : (walk next memo n a).1 = r := by simpa [record, hmem] using hc
    rw [← hend]
    have hends : (walk next memo n a).1 ∈ (walk next memo n a).2 ∨
        memo (walk next memo n a).1 = some (walk next memo n a).1 := walk_end_mem hr
    rcases hends with hin | hknown
    · simp [record, hin]
    · exact record_kept hknown a
  · have hold : memo c = some r := by simpa [record, hmem] using hc
    exact record_kept (hr c r hold) a

theorem resolve_rooted (hr : Rooted memo) (keys : List α) :
    Rooted (resolve next n memo keys) := by
  induction keys generalizing memo with
  | nil => exact hr
  | cons c keys ih =>
    rw [resolve_cons]
    exact ih (record_rooted hr)

/-- Only what the map leads to from the keys is noted, be it as an end or as having one. -/
theorem resolve_within {P : α → Prop} (hnext : ∀ a b, P a → next a = some b → P b)
    {keys : List α} (hkeys : ∀ a ∈ keys, P a) (hmemo : ∀ a r, memo a = some r → P a) :
    ∀ a r, resolve next n memo keys a = some r → P a := by
  induction keys generalizing memo with
  | nil => exact hmemo
  | cons c keys ih =>
    rw [resolve_cons]
    apply ih fun a ha => hkeys a (List.mem_cons_of_mem c ha)
    intro a r ha
    by_cases hmem : a ∈ (walk next memo n c).2
    · exact walk_within hnext (hkeys c List.mem_cons_self) a hmem
    · exact hmemo a r (by simpa [record, hmem] using ha)

/-- A climb cut at the limit: what it takes for the end is noted as an end when the climb comes
first, and not when the climb from the next point does. -/
theorem resolve_cut (hself : ∀ a, next a ≠ some a) (h : top next (n + 1) a = none) :
    ∃ b c, next a = some b ∧ (∃ k, up next k a = some c) ∧
      ∀ keys, resolve next (n + 1) (fun _ => none) (a :: keys) c = some c ∧
        resolve next (n + 1) (fun _ => none) (b :: keys) c ≠ some c := by
  obtain ⟨c, d, hc, hd⟩ := up_of_cut h
  obtain ⟨b, hb, hbc⟩ := Option.bind_eq_some_iff.mp hc
  refine ⟨b, c, hb, ⟨n + 1, hc⟩, ?_⟩
  intro keys
  constructor
  · obtain ⟨hend, hpath⟩ := walk_far hc
    have hmem := hpath (n + 1) (Nat.le_refl _) c hc
    rw [resolve_cons]
    apply resolve_kept
    simp [record, hmem, hend]
  · obtain ⟨hend, hpath⟩ := walk_far (up_succ hbc hd)
    have hmem := hpath n (Nat.le_succ n) c hbc
    have hnoted : record (fun _ => none) (walk next (fun _ => none) (n + 1) b) c = some d := by
      simp [record, hmem, hend]
    rw [resolve_cons, resolve_kept hnoted]
    intro heq
    have hdc : d = c := Option.some.inj heq
    rw [hdc] at hd
    exact hself c hd

end Memo

end Climb
