import Mathlib.Tactic.Tauto
import Zstats.Alerts.Episodes
import Zstats.Framework.Machine

namespace Zstats.EpisodeState

/-- A call on the bookkeeping. -/
inductive Op where
  | notify (key : Key) (now cooldown : ℕ)
  | clear (key : Key)
  | retain (keep : Key → Bool)

def apply (e : EpisodeState) : Op → EpisodeState × Option Notify
  | .notify key now cooldown => e.notify key now cooldown
  | .clear key => (e.clear key, none)
  | .retain keep => (e.retain keep, none)

/-- What an operation is to one key. -/
inductive KeyOp where
  | notify (now cooldown : ℕ)
  | clear
  | drop

def Op.on (key : Key) : Op → Option KeyOp
  | .notify k now cooldown => if k = key then some (.notify now cooldown) else none
  | .clear k => if k = key then some .clear else none
  | .retain keep => if keep key then none else some .drop

/-- The bookkeeping of a single key: its episode, and when it last notified. -/
abbrev Ledger := Option Episode × Option ℕ

def Ledger.notify (l : Ledger) (now cooldown : ℕ) : Ledger × Option Notify :=
  match l.1 with
  | some episode =>
    if episode.reminded = true ∨ now - episode.started < persistReminder then (l, none)
    else ((some ⟨episode.started, true⟩, some now), some (.reminder (now - episode.started)))
  | none =>
    if ∃ last ∈ l.2, now - last < cooldown then (l, none)
    else ((some ⟨now, false⟩, some now), some .new)

theorem Ledger.notify_open {episode : Episode} {last : Option ℕ} {now cooldown : ℕ} :
    Ledger.notify (some episode, last) now cooldown =
      if episode.reminded = true ∨ now - episode.started < persistReminder then
        ((some episode, last), none)
      else ((some ⟨episode.started, true⟩, some now), some (.reminder (now - episode.started))) :=
  rfl

theorem Ledger.notify_closed {last : Option ℕ} {now cooldown : ℕ} :
    Ledger.notify (none, last) now cooldown =
      if ∃ previous ∈ last, now - previous < cooldown then ((none, last), none)
      else ((some ⟨now, false⟩, some now), some .new) := rfl

/-- What a notification can do: nothing, open an episode, or remind of the one that is open. -/
theorem Ledger.notify_cases (l : Ledger) (now cooldown : ℕ) :
    l.notify now cooldown = (l, none) ∨
    (l.1 = none ∧ (∀ last ∈ l.2, cooldown ≤ now - last) ∧
      l.notify now cooldown = ((some ⟨now, false⟩, some now), some .new)) ∨
    ∃ started, l.1 = some ⟨started, false⟩ ∧ persistReminder ≤ now - started ∧
      l.notify now cooldown =
        ((some ⟨started, true⟩, some now), some (.reminder (now - started))) := by
  obtain ⟨active, last⟩ := l
  cases active with
  | some episode =>
    rw [notify_open]
    by_cases hquiet : episode.reminded = true ∨ now - episode.started < persistReminder
    · left
      rw [if_pos hquiet]
    · right; right
      obtain ⟨hfresh, hlong⟩ := not_or.mp hquiet
      refine ⟨episode.started, ?_, not_lt.mp hlong, if_neg hquiet⟩
      rw [← (Bool.not_eq_true _).mp hfresh]
  | none =>
    rw [notify_closed]
    by_cases hsoon : ∃ previous ∈ last, now - previous < cooldown
    · left
      rw [if_pos hsoon]
    · right; left
      refine ⟨rfl, ?_, if_neg hsoon⟩
      intro previous hprevious
      by_contra hlt
      exact hsoon ⟨previous, hprevious, not_le.mp hlt⟩

def Ledger.step (l : Ledger) : Option KeyOp → Ledger × Option Notify
  | some (.notify now cooldown) => l.notify now cooldown
  | some .clear => ((none, l.2), none)
  | some .drop => ((none, none), none)
  | none => (l, none)

def ledger (e : EpisodeState) (key : Key) : Ledger := e.entry key

section Refinement

variable {e : EpisodeState} {key : Key} {now cooldown : ℕ}

/-- To its own key a notification is one on the key's ledger. -/
theorem notify_own :
    (e.notify key now cooldown).1.ledger key = ((e.ledger key).notify now cooldown).1 ∧
      (e.notify key now cooldown).2 = ((e.ledger key).notify now cooldown).2 := by
  cases hactive : e.active key with
  | some episode =>
    cases hreminded : episode.reminded with
    | true => simp [notify, decision, Ledger.notify, ledger, entry, hactive, hreminded]
    | false =>
      by_cases hshort : now - episode.started < persistReminder
      · simp [notify, decision, Ledger.notify, ledger, entry, hactive, hreminded, durationSince,
          hshort]
      · simp [notify, decision, Ledger.notify, ledger, entry, hactive, hreminded, durationSince,
          hshort]
  | none =>
    cases hlast : e.lastAlert key with
    | none => simp [notify, decision, Ledger.notify, ledger, entry, hactive, hlast]
    | some last =>
      by_cases hsoon : now - last < cooldown
      · simp [notify, decision, Ledger.notify, ledger, entry, hactive, hlast, durationSince, hsoon]
      · simp [notify, decision, Ledger.notify, ledger, entry, hactive, hlast, durationSince, hsoon]

theorem notify_other {k : Key} (hk : k ≠ key) :
    (e.notify key now cooldown).1.ledger k = e.ledger k := by
  rw [notify]
  split
  · simp [ledger, entry, hk]
  · rfl

theorem clear_ledger {k : Key} :
    (e.clear key).ledger k = if k = key then (none, (e.ledger k).2) else e.ledger k := by
  by_cases hk : k = key
  · simp [clear, ledger, entry, hk]
  · simp [clear, ledger, entry, hk]

/-- Each key has a ledger of its own, on which the operations act one key at a time. -/
theorem apply_refines (op : Op) :
    (e.apply op).1.ledger key = ((e.ledger key).step (op.on key)).1 ∧
      ((op.on key).isSome → (e.apply op).2 = ((e.ledger key).step (op.on key)).2) := by
  cases op with
  | notify k now cooldown =>
    by_cases hk : k = key
    · subst hk
      simp only [Op.on, if_true, Ledger.step, apply]
      exact ⟨notify_own.1, fun _ => notify_own.2⟩
    · simp only [Op.on, if_neg hk, Ledger.step, apply]
      exact ⟨notify_other (Ne.symm hk), nofun⟩
  | clear k =>
    by_cases hk : k = key
    · subst hk
      simp [Op.on, Ledger.step, apply, clear_ledger]
    · simp [Op.on, Ledger.step, apply, clear_ledger, hk, Ne.symm hk]
  | retain keep =>
    cases hkeep : keep key with
    | true => simp [Op.on, Ledger.step, apply, ledger, retain_entry, hkeep]
    | false => simp [Op.on, Ledger.step, apply, ledger, retain_entry, hkeep]

end Refinement

/-! Runs, and what they have done to one key. -/

section Runs

variable (ops : ℕ → Op) (key : Key)

def stateBefore (n : ℕ) : EpisodeState := Machine.stateAt apply empty ops n

def returned (n : ℕ) : Option Notify := Machine.outAt apply empty ops n

def NotifiedAt (m t : ℕ) : Prop :=
  (∃ cooldown, ops m = .notify key t cooldown) ∧ (returned ops m).isSome

def NewAt (m t cooldown : ℕ) : Prop :=
  ops m = .notify key t cooldown ∧ returned ops m = some .new

/-- Between `m` and `n` the key was dropped. -/
def Dropped (m n : ℕ) : Prop := ∃ j, m < j ∧ j < n ∧ (ops j).on key = some .drop

def Cleared (m n : ℕ) : Prop := ∃ j, m < j ∧ j < n ∧ (ops j).on key = some .clear

/-- The notification at `m`, at the time `t`, is the last one before `n`. -/
def LastNotified (m n t : ℕ) : Prop :=
  m < n ∧ NotifiedAt ops key m t ∧ ∀ j, m < j → j < n → ∀ t', ¬ NotifiedAt ops key j t'

/-- The notification of the key at `n` is the first so long after `t`. -/
def FirstLate (m n t now : ℕ) : Prop :=
  persistReminder ≤ now - t ∧ ∀ j t' cooldown, m < j → j < n → ops j = .notify key t' cooldown →
    t' - t < persistReminder

/-- Calls come in the order of the clock. -/
def InOrder : Prop :=
  ∀ m n k k' t t' c c', m ≤ n → ops m = .notify k t c → ops n = .notify k' t' c' → t ≤ t'

variable {ops key}

theorem on_notify {n t cooldown : ℕ} :
    (ops n).on key = some (.notify t cooldown) ↔ ops n = .notify key t cooldown := by
  cases hop : ops n with
  | notify k now c =>
    by_cases hk : k = key
    · simp [Op.on, hk]
    · simp [Op.on, hk]
  | clear k => by_cases hk : k = key <;> simp [Op.on, hk]
  | retain keep => cases hkeep : keep key <;> simp [Op.on, hkeep]

theorem ledger_succ (n : ℕ) :
    (stateBefore ops (n + 1)).ledger key =
      (((stateBefore ops n).ledger key).step ((ops n).on key)).1 :=
  (apply_refines (ops n)).1

/-- What a call returns is a matter of the key's ledger. -/
theorem returned_eq {n t cooldown : ℕ} (h : ops n = .notify key t cooldown) :
    returned ops n = (((stateBefore ops n).ledger key).notify t cooldown).2 := by
  have hon := on_notify.mpr h
  have hreturned := (@apply_refines (stateBefore ops n) key (ops n)).2
    (by rw [hon]; rfl)
  rw [hon] at hreturned
  exact hreturned

variable (ops key) in
/-- What a step does to a key's ledger. -/
theorem ledger_cases (n : ℕ) :
    ((ops n).on key = some .drop ∧ (stateBefore ops (n + 1)).ledger key = (none, none)) ∨
    ((ops n).on key = some .clear ∧
      (stateBefore ops (n + 1)).ledger key = (none, ((stateBefore ops n).ledger key).2)) ∨
    ((∀ t, ¬ NotifiedAt ops key n t) ∧ (ops n).on key ≠ some .drop ∧
      (ops n).on key ≠ some .clear ∧
      (stateBefore ops (n + 1)).ledger key = (stateBefore ops n).ledger key) ∨
    (∃ t cooldown, NewAt ops key n t cooldown ∧ ((stateBefore ops n).ledger key).1 = none ∧
      (∀ last ∈ ((stateBefore ops n).ledger key).2, cooldown ≤ t - last) ∧
      (stateBefore ops (n + 1)).ledger key = (some ⟨t, false⟩, some t)) ∨
    ∃ t cooldown started, ops n = .notify key t cooldown ∧
      returned ops n = some (.reminder (t - started)) ∧
      ((stateBefore ops n).ledger key).1 = some ⟨started, false⟩ ∧
      persistReminder ≤ t - started ∧
      (stateBefore ops (n + 1)).ledger key = (some ⟨started, true⟩, some t) := by
  rw [ledger_succ]
  cases hon : (ops n).on key with
  | none =>
    have hquiet : ∀ t, ¬ NotifiedAt ops key n t := by
      intro t ⟨⟨cooldown, hop⟩, _⟩
      rw [on_notify.mpr hop] at hon
      cases hon
    exact Or.inr (Or.inr (Or.inl ⟨hquiet, nofun, nofun, rfl⟩))
  | some op =>
    cases op with
    | drop => exact Or.inl ⟨rfl, rfl⟩
    | clear => exact Or.inr (Or.inl ⟨rfl, rfl⟩)
    | notify t cooldown =>
      have hop := on_notify.mp hon
      have hreturned := returned_eq hop
      right; right
      rcases ((stateBefore ops n).ledger key).notify_cases t cooldown with
        hnone | ⟨hclosed, hold, hnew⟩ | ⟨started, hopen, hlong, hreminder⟩
      · left
        rw [hnone] at hreturned
        refine ⟨?_, nofun, nofun, congrArg Prod.fst hnone⟩
        intro t' hnotified
        have hsome := hnotified.2
        rw [hreturned] at hsome
        cases hsome
      · right; left
        rw [hnew] at hreturned
        exact ⟨t, cooldown, ⟨hop, hreturned⟩, hclosed, hold, congrArg Prod.fst hnew⟩
      · right; right
        rw [hreminder] at hreturned
        exact ⟨t, cooldown, started, hop, hreturned, hopen, hlong, congrArg Prod.fst hreminder⟩

theorem notifiedAt_of_new {n t cooldown : ℕ} (h : NewAt ops key n t cooldown) :
    NotifiedAt ops key n t :=
  ⟨⟨cooldown, h.1⟩, by rw [h.2]; rfl⟩

theorem not_notified {n : ℕ} (h : ∀ t cooldown, (ops n).on key ≠ some (.notify t cooldown)) :
    ∀ t, ¬ NotifiedAt ops key n t := by
  intro t hnotified
  obtain ⟨cooldown, hop⟩ := hnotified.1
  exact h t cooldown (on_notify.mpr hop)

/-- A new notification found the key closed and its cooldown over, and opens an episode. -/
theorem newAt_ledger {n t cooldown : ℕ} (h : NewAt ops key n t cooldown) :
    ((stateBefore ops n).ledger key).1 = none ∧
      (∀ last ∈ ((stateBefore ops n).ledger key).2, cooldown ≤ t - last) ∧
      (stateBefore ops (n + 1)).ledger key = (some ⟨t, false⟩, some t) := by
  have hreturned := returned_eq h.1
  rw [h.2] at hreturned
  rw [ledger_succ, on_notify.mpr h.1]
  rcases ((stateBefore ops n).ledger key).notify_cases t cooldown with
    hnone | ⟨hclosed, hold, hnew⟩ | ⟨started, -, -, hreminder⟩
  · rw [hnone] at hreturned
    cases hreturned
  · exact ⟨hclosed, hold, congrArg Prod.fst hnew⟩
  · rw [hreminder] at hreturned
    cases hreturned

/-- What the ledger has for the last notification is the last one, and the key was not dropped
since. -/
theorem last_of_ledger {n t : ℕ} (h : ((stateBefore ops n).ledger key).2 = some t) :
    ∃ m, LastNotified ops key m n t ∧ ¬ Dropped ops key m n := by
  have hsince : ∃ m < n, NotifiedAt ops key m t ∧ ∀ j, m < j → j < n →
      (ops j).on key ≠ some .drop ∧ ∀ t', ¬ NotifiedAt ops key j t' := by
    refine Machine.stateAt_since (Q := fun e : EpisodeState => (e.ledger key).2 = some t)
      (by simp [empty, ledger, entry]) ?_ h
    intro j hj
    rcases ledger_cases ops key j with
      ⟨-, hafter⟩ | ⟨hclear, hafter⟩ | ⟨hquiet, hdrop, -, hafter⟩ | ⟨t', c, hnew, -, -, hafter⟩ |
      ⟨t', c, started, hop, hreturned, -, -, hafter⟩
    · rw [stateBefore] at hafter
      rw [hafter] at hj
      cases hj
    · right
      rw [stateBefore] at hafter
      rw [hafter] at hj
      refine ⟨hj, ?_, not_notified ?_⟩
      · rw [hclear]
        intro hop
        cases hop
      · rw [hclear]
        intro t' cooldown hop
        cases hop
    · right
      rw [stateBefore] at hafter
      rw [hafter] at hj
      exact ⟨hj, hdrop, hquiet⟩
    · left
      rw [stateBefore] at hafter
      rw [hafter] at hj
      rw [← Option.some.inj hj]
      exact notifiedAt_of_new hnew
    · left
      rw [stateBefore] at hafter
      rw [hafter] at hj
      rw [← Option.some.inj hj]
      exact ⟨⟨c, hop⟩, by rw [hreturned]; rfl⟩
  obtain ⟨m, hm, hnotified, hkept⟩ := hsince
  refine ⟨m, ⟨hm, hnotified, fun j hmj hjn => (hkept j hmj hjn).2⟩, ?_⟩
  intro hdropped
  obtain ⟨j, hmj, hjn, hdrop⟩ := hdropped
  exact (hkept j hmj hjn).1 hdrop

/-- A notification leaves its time in the ledger. -/
theorem ledger_notified {m t : ℕ} (h : NotifiedAt ops key m t) :
    ((stateBefore ops (m + 1)).ledger key).2 = some t := by
  obtain ⟨⟨cooldown, hop⟩, hsome⟩ := h
  rw [returned_eq hop] at hsome
  rw [ledger_succ, on_notify.mpr hop, Ledger.step]
  rcases ((stateBefore ops m).ledger key).notify_cases t cooldown with
    hnone | ⟨-, -, hnew⟩ | ⟨started, -, -, hreminder⟩
  · rw [hnone] at hsome
    cases hsome
  · rw [hnew]
  · rw [hreminder]

/-- Until the key is dropped the ledger holds a notification no older than any made. -/
theorem ledger_recent (hmono : InOrder ops) {m n t : ℕ} (h : NotifiedAt ops key m t) (hmn : m < n)
    (hdrop : ¬ Dropped ops key m n) :
    ∃ last ∈ ((stateBefore ops n).ledger key).2, t ≤ last := by
  induction n, hmn using Nat.le_induction with
  | base => exact ⟨t, ledger_notified h, le_rfl⟩
  | succ n hmn ih =>
    obtain ⟨last, hlast, hle⟩ := ih fun ⟨j, hmj, hjn, hj⟩ => hdrop ⟨j, hmj, by omega, hj⟩
    obtain ⟨⟨c, hm⟩, -⟩ := h
    rcases ledger_cases ops key n with
      ⟨hdropped, -⟩ | ⟨-, hafter⟩ | ⟨-, -, -, hafter⟩ | ⟨t', c', hnew, -, -, hafter⟩ |
      ⟨t', c', started, hop, -, -, -, hafter⟩
    · exact absurd ⟨n, hmn, n.lt_succ_self, hdropped⟩ hdrop
    · rw [hafter]
      exact ⟨last, hlast, hle⟩
    · rw [hafter]
      exact ⟨last, hlast, hle⟩
    · rw [hafter]
      exact ⟨t', rfl, hmono m n key key t t' c c' (Nat.le_of_lt hmn) hm hnew.1⟩
    · rw [hafter]
      exact ⟨t', rfl, hmono m n key key t t' c c' (Nat.le_of_lt hmn) hm hop⟩

/-- The last notification stays in the ledger until the key is dropped. -/
theorem ledger_of_last {m n t : ℕ} (h : LastNotified ops key m n t)
    (hdrop : ¬ Dropped ops key m n) : ((stateBefore ops n).ledger key).2 = some t := by
  obtain ⟨hmn, hnotified, hlast⟩ := h
  induction n, hmn using Nat.le_induction with
  | base => exact ledger_notified hnotified
  | succ n hmn ih =>
    have hbefore := ih (fun ⟨j, hmj, hjn, hj⟩ => hdrop ⟨j, hmj, by omega, hj⟩)
      fun j hmj hjn => hlast j hmj (by omega)
    have hquiet := hlast n hmn n.lt_succ_self
    rcases ledger_cases ops key n with
      ⟨hdropped, -⟩ | ⟨-, hafter⟩ | ⟨-, -, -, hafter⟩ | ⟨t', c, hnew, -, -, -⟩ |
      ⟨t', c, started, hop, hreturned, -, -, -⟩
    · exact absurd ⟨n, hmn, n.lt_succ_self, hdropped⟩ hdrop
    · rw [hafter]
      exact hbefore
    · rw [hafter]
      exact hbefore
    · exact absurd (notifiedAt_of_new hnew) (hquiet t')
    · exact absurd ⟨⟨c, hop⟩, by rw [hreturned]; rfl⟩ (hquiet t')

variable (ops key) in
/-- Between `m` and `n` a notification of the key came late enough after `t`. -/
def LateBetween (m n t : ℕ) : Prop :=
  ∃ j t' c, m < j ∧ j < n ∧ ops j = .notify key t' c ∧ persistReminder ≤ t' - t

theorem not_lateBetween_next (m t : ℕ) : ¬ LateBetween ops key m (m + 1) t := by
  intro ⟨j, t', c, hmj, hjn, _, _⟩
  omega

theorem lateBetween_succ {m n t : ℕ} (hmn : m < n) : LateBetween ops key m (n + 1) t ↔
    LateBetween ops key m n t ∨
      ∃ t' c, ops n = .notify key t' c ∧ persistReminder ≤ t' - t := by
  constructor
  · intro ⟨j, t', c, hmj, hjn, hop, hlong⟩
    rcases Nat.lt_succ_iff_lt_or_eq.mp hjn with hlt | rfl
    · exact Or.inl ⟨j, t', c, hmj, hlt, hop, hlong⟩
    · exact Or.inr ⟨t', c, hop, hlong⟩
  · rintro (⟨j, t', c, hmj, hjn, hop, hlong⟩ | ⟨t', c, hop, hlong⟩)
    · exact ⟨j, t', c, hmj, by omega, hop, hlong⟩
    · exact ⟨n, t', c, hmn, n.lt_succ_self, hop, hlong⟩

theorem lateBetween_notify {m n t t' c : ℕ} (hmn : m < n) (hop : ops n = .notify key t' c) :
    LateBetween ops key m (n + 1) t ↔
      LateBetween ops key m n t ∨ persistReminder ≤ t' - t := by
  rw [lateBetween_succ hmn]
  apply or_congr_right
  constructor
  · intro ⟨t'', c', hop', hlong⟩
    rw [hop] at hop'
    cases hop'
    exact hlong
  · intro hlong
    exact ⟨t', c, hop, hlong⟩

/-- Until it is cleared or dropped, a new episode stays open, and it has been reminded of once a
notification came late enough. -/
theorem ledger_after_new {m n t cooldown : ℕ} (h : NewAt ops key m t cooldown) (hmn : m < n)
    (hclear : ¬ Cleared ops key m n) (hdrop : ¬ Dropped ops key m n) :
    ∃ reminded, ((stateBefore ops n).ledger key).1 = some ⟨t, reminded⟩ ∧
      (reminded = true ↔ LateBetween ops key m n t) := by
  induction n, hmn using Nat.le_induction with
  | base =>
    refine ⟨false, (by rw [(newAt_ledger h).2.2]), ?_⟩
    simp [not_lateBetween_next]
  | succ n hmn ih =>
    obtain ⟨reminded, hopen, hiff⟩ := ih
      (fun ⟨j, hmj, hjn, hj⟩ => hclear ⟨j, hmj, by omega, hj⟩)
      fun ⟨j, hmj, hjn, hj⟩ => hdrop ⟨j, hmj, by omega, hj⟩
    rw [ledger_succ]
    generalize hl : (stateBefore ops n).ledger key = l at hopen
    obtain ⟨active, last⟩ := l
    simp only at hopen
    subst hopen
    cases hon : (ops n).on key with
    | none =>
      refine ⟨reminded, rfl, ?_⟩
      rw [lateBetween_succ hmn, hiff, or_iff_left]
      intro ⟨t', c, hop, _⟩
      rw [on_notify.mpr hop] at hon
      cases hon
    | some op =>
      cases op with
      | clear => exact absurd ⟨n, hmn, n.lt_succ_self, hon⟩ hclear
      | drop => exact absurd ⟨n, hmn, n.lt_succ_self, hon⟩ hdrop
      | notify t' c =>
        -- only a notification that comes late enough makes a difference
        rw [lateBetween_notify hmn (on_notify.mp hon), ← hiff, Ledger.step, Ledger.notify_open]
        by_cases hquiet : reminded = true ∨ t' - t < persistReminder
        · rw [if_pos hquiet]
          refine ⟨reminded, rfl, ?_⟩
          rw [or_iff_left_of_imp]
          intro hlong
          exact hquiet.resolve_right (not_lt.mpr hlong)
        · rw [if_neg hquiet]
          refine ⟨true, rfl, ?_⟩
          exact iff_of_true rfl (Or.inr (not_lt.mp (not_or.mp hquiet).2))

/-- In an open episode the one reminder is due at the first notification that comes late enough. -/
theorem reminder_iff {m n t t' cooldown c : ℕ} (h : NewAt ops key m t cooldown) (hmn : m < n)
    (hclear : ¬ Cleared ops key m n) (hdrop : ¬ Dropped ops key m n)
    (hop : ops n = .notify key t' c) (r : Notify) :
    returned ops n = some r ↔ r = .reminder (t' - t) ∧ FirstLate ops key m n t t' := by
  obtain ⟨reminded, hopen, hiff⟩ := ledger_after_new h hmn hclear hdrop
  have hfirst : FirstLate ops key m n t t' ↔ ¬ (reminded = true ∨ t' - t < persistReminder) := by
    rw [not_or, hiff, not_lt]
    constructor
    · intro ⟨hlong, hearly⟩
      refine ⟨?_, hlong⟩
      intro ⟨j, s, c', hmj, hjn, hj, hlate⟩
      exact absurd (hearly j s c' hmj hjn hj) (not_lt.mpr hlate)
    · intro ⟨hnone, hlong⟩
      refine ⟨hlong, ?_⟩
      intro j s c' hmj hjn hj
      by_contra hlate
      exact hnone ⟨j, s, c', hmj, hjn, hj, not_lt.mp hlate⟩
  rw [returned_eq hop, hfirst]
  generalize (stateBefore ops n).ledger key = l at hopen
  obtain ⟨active, last⟩ := l
  simp only at hopen
  subst hopen
  rw [Ledger.notify_open]
  by_cases hquiet : reminded = true ∨ t' - t < persistReminder
  · rw [if_pos hquiet]
    simp [hquiet]
  · rw [if_neg hquiet]
    simp [hquiet, eq_comm]

/-- A closed key stays closed until it notifies. -/
theorem closed_until_notified {m n : ℕ} (h : ((stateBefore ops m).ledger key).1 = none)
    (hmn : m ≤ n) (hquiet : ∀ j, m ≤ j → j < n → ∀ t, ¬ NotifiedAt ops key j t) :
    ((stateBefore ops n).ledger key).1 = none := by
  induction n, hmn using Nat.le_induction with
  | base => exact h
  | succ n hmn ih =>
    have hclosed := ih fun j hmj hjn => hquiet j hmj (by omega)
    rcases ledger_cases ops key n with
      ⟨-, hafter⟩ | ⟨-, hafter⟩ | ⟨-, -, -, hafter⟩ | ⟨t, c, hnew, -, -, -⟩ |
      ⟨t, c, started, -, -, hopen, -, -⟩
    · rw [hafter]
    · rw [hafter]
    · rw [hafter]
      exact hclosed
    · exact absurd (notifiedAt_of_new hnew) (hquiet n hmn n.lt_succ_self t)
    · rw [hclosed] at hopen
      cases hopen

/-- An open episode was notified of. -/
theorem open_notified (n : ℕ) (h : ((stateBefore ops n).ledger key).1.isSome) :
    ((stateBefore ops n).ledger key).2.isSome := by
  induction n with
  | zero => cases h
  | succ n ih =>
    rcases ledger_cases ops key n with
      ⟨-, hafter⟩ | ⟨-, hafter⟩ | ⟨-, -, -, hafter⟩ | ⟨t, c, -, -, -, hafter⟩ |
      ⟨t, c, started, -, -, -, -, hafter⟩
    · rw [hafter] at h
      cases h
    · rw [hafter] at h
      cases h
    · rw [hafter] at h ⊢
      exact ih h
    · rw [hafter]
      rfl
    · rw [hafter]
      rfl

theorem not_cleared_closed {m n t cooldown : ℕ} (h : NewAt ops key m t cooldown) (hmn : m < n)
    (hdrop : ¬ Dropped ops key m n) (hclosed : ((stateBefore ops n).ledger key).1 = none) :
    Cleared ops key m n := by
  by_contra hclear
  obtain ⟨reminded, hopen, -⟩ := ledger_after_new h hmn hclear hdrop
  rw [hclosed] at hopen
  cases hopen

/-- A notification of a closed key is let through by the cooldown alone. -/
theorem new_iff_ledger {n t cooldown : ℕ} (hop : ops n = .notify key t cooldown)
    (hclosed : ((stateBefore ops n).ledger key).1 = none) :
    returned ops n = some .new ↔
      ∀ last ∈ ((stateBefore ops n).ledger key).2, cooldown ≤ t - last := by
  rw [returned_eq hop]
  generalize (stateBefore ops n).ledger key = l at hclosed
  obtain ⟨active, last⟩ := l
  simp only at hclosed
  subst hclosed
  rw [Ledger.notify_closed]
  by_cases hsoon : ∃ previous ∈ last, t - previous < cooldown
  · rw [if_pos hsoon]
    obtain ⟨previous, hprevious, hlt⟩ := hsoon
    refine iff_of_false nofun ?_
    intro hold
    exact absurd (hold previous hprevious) (not_le.mpr hlt)
  · rw [if_neg hsoon]
    refine iff_of_true rfl ?_
    intro previous hprevious
    by_contra hlt
    exact hsoon ⟨previous, hprevious, not_le.mp hlt⟩

theorem last_unique {m m' n t t' : ℕ} (h : LastNotified ops key m n t)
    (h' : LastNotified ops key m' n t') : m = m' := by
  rcases Nat.lt_trichotomy m m' with hlt | heq | hgt
  · exact absurd h'.2.1 (h.2.2 m' hlt h'.1 t')
  · exact heq
  · exact absurd h.2.1 (h'.2.2 m hgt h.1 t)

/-- The ledger's last time is the one of the last notification that no drop came after. -/
theorem mem_ledger_iff {n last : ℕ} : last ∈ ((stateBefore ops n).ledger key).2 ↔
    ∃ m, LastNotified ops key m n last ∧ ¬ Dropped ops key m n := by
  constructor
  · exact last_of_ledger
  · intro ⟨m, hlast, hdrop⟩
    exact ledger_of_last hlast hdrop

theorem notified_before (hmono : InOrder ops) {m n t t' cooldown : ℕ}
    (h : NotifiedAt ops key m t) (hmn : m ≤ n) (hop : ops n = .notify key t' cooldown) : t ≤ t' := by
  obtain ⟨⟨c, hm⟩, _⟩ := h
  exact hmono m n key key t t' c cooldown hmn hm hop

/-- A last notification stays the last while none is made. -/
theorem LastNotified.extend {m n n' t : ℕ} (h : LastNotified ops key m n t) (hn : n ≤ n')
    (hquiet : ∀ j, n ≤ j → j < n' → ∀ t', ¬ NotifiedAt ops key j t') :
    LastNotified ops key m n' t := by
  refine ⟨lt_of_lt_of_le h.1 hn, h.2.1, ?_⟩
  intro j hmj hjn
  by_cases hj : j < n
  · exact h.2.2 j hmj hj
  · exact hquiet j (not_lt.mp hj) hjn

variable (ops key) in
/-- The law of the bookkeeping, for the key of one episode. -/
structure BookkeepingLaw : Prop where
  active_notified : ∀ n, ((stateBefore ops n).active key).isSome →
    ((stateBefore ops n).lastAlert key).isSome
  new_spaced : ∀ m n t t' cooldown, NotifiedAt ops key m t → NewAt ops key n t' cooldown →
    m < n → ¬ Dropped ops key m n → t + cooldown ≤ t'
  new_cleared : ∀ m n t t' c c', NewAt ops key m t c → NewAt ops key n t' c' →
    m < n → ¬ Dropped ops key m n → Cleared ops key m n
  reminder : ∀ m n t t' c c' r, NewAt ops key m t c → ops n = .notify key t' c' →
    m < n → ¬ Cleared ops key m n → ¬ Dropped ops key m n →
    (returned ops n = some r ↔ r = .reminder (t' - t) ∧ FirstLate ops key m n t t')
  one_reminder : ∀ m n n' t t₁ t₂ c c₁ c₂, NewAt ops key m t c →
    ops n = .notify key t₁ c₁ → ops n' = .notify key t₂ c₂ →
    (returned ops n).isSome → (returned ops n').isSome → m < n → n ≤ n' →
    ¬ Cleared ops key m n' → ¬ Dropped ops key m n' → n = n'
  new_iff : ∀ n t cooldown, ops n = .notify key t cooldown →
    (stateBefore ops n).active key = none →
    (returned ops n = some .new ↔
      ∀ m last, LastNotified ops key m n last → ¬ Dropped ops key m n → last + cooldown ≤ t)
  suppressed : ∀ n t cooldown, ops n = .notify key t cooldown →
    (stateBefore ops n).active key = none → returned ops n = none →
    ∃ m last, LastNotified ops key m n last ∧ t < last + cooldown ∧
      ∀ n' t' c', n < n' → ops n' = .notify key t' c' → ¬ Dropped ops key m n' →
        (∀ j, n < j → j < n' → ∀ s, ¬ NotifiedAt ops key j s) →
        (returned ops n' = some .new ↔ last + c' ≤ t')

theorem new_iff (hmono : InOrder ops) {n t cooldown : ℕ} (hop : ops n = .notify key t cooldown)
    (hclosed : ((stateBefore ops n).ledger key).1 = none) :
    returned ops n = some .new ↔
      ∀ m last, LastNotified ops key m n last → ¬ Dropped ops key m n → last + cooldown ≤ t := by
  rw [new_iff_ledger hop hclosed]
  constructor
  · intro hold m last hlast hdrop
    have hlong := hold last (mem_ledger_iff.mpr ⟨m, hlast, hdrop⟩)
    have hbefore := notified_before hmono hlast.2.1 (Nat.le_of_lt hlast.1) hop
    omega
  · intro hold last hmem
    obtain ⟨m, hlast, hdrop⟩ := mem_ledger_iff.mp hmem
    have hlong := hold m last hlast hdrop
    omega

theorem new_spaced (hmono : InOrder ops) {m n t t' cooldown : ℕ} (h : NotifiedAt ops key m t)
    (hnew : NewAt ops key n t' cooldown) (hmn : m < n) (hdrop : ¬ Dropped ops key m n) :
    t + cooldown ≤ t' := by
  obtain ⟨last, hlast, hle⟩ := ledger_recent hmono h hmn hdrop
  have hlong := (newAt_ledger hnew).2.1 last hlast
  obtain ⟨m', hm', -⟩ := mem_ledger_iff.mp hlast
  have hbefore := notified_before hmono hm'.2.1 (Nat.le_of_lt hm'.1) hnew.1
  omega

theorem one_reminder {m n n' t t₁ t₂ c c₁ c₂ : ℕ} (h : NewAt ops key m t c)
    (hop : ops n = .notify key t₁ c₁) (hop' : ops n' = .notify key t₂ c₂)
    (hsome : (returned ops n).isSome) (hsome' : (returned ops n').isSome) (hmn : m < n)
    (hnn : n ≤ n') (hclear : ¬ Cleared ops key m n') (hdrop : ¬ Dropped ops key m n') :
    n = n' := by
  by_contra hne
  have hlt : n < n' := lt_of_le_of_ne hnn hne
  have hclear₁ : ¬ Cleared ops key m n := by
    intro ⟨j, hmj, hjn, hj⟩
    exact hclear ⟨j, hmj, hjn.trans hlt, hj⟩
  have hdrop₁ : ¬ Dropped ops key m n := by
    intro ⟨j, hmj, hjn, hj⟩
    exact hdrop ⟨j, hmj, hjn.trans hlt, hj⟩
  obtain ⟨r, hr⟩ := Option.isSome_iff_exists.mp hsome
  obtain ⟨r', hr'⟩ := Option.isSome_iff_exists.mp hsome'
  have hlate := ((reminder_iff h hmn hclear₁ hdrop₁ hop r).mp hr).2.1
  have hfirst := ((reminder_iff h (hmn.trans hlt) hclear hdrop hop' r').mp hr').2.2
  exact absurd (hfirst n t₁ c₁ hmn hlt hop) (not_lt.mpr hlate)

/-- What the cooldown held back comes with the first notification after it. -/
theorem suppressed (hmono : InOrder ops) {n t cooldown : ℕ} (hop : ops n = .notify key t cooldown)
    (hclosed : ((stateBefore ops n).ledger key).1 = none) (hnone : returned ops n = none) :
    ∃ m last, LastNotified ops key m n last ∧ t < last + cooldown ∧
      ∀ n' t' c', n < n' → ops n' = .notify key t' c' → ¬ Dropped ops key m n' →
        (∀ j, n < j → j < n' → ∀ s, ¬ NotifiedAt ops key j s) →
        (returned ops n' = some .new ↔ last + c' ≤ t') := by
  have hsoon : ¬ ∀ m last, LastNotified ops key m n last → ¬ Dropped ops key m n →
      last + cooldown ≤ t := by
    rw [← new_iff hmono hop hclosed, hnone]
    nofun
  push Not at hsoon
  obtain ⟨m, last, hlast, hdrop, hlt⟩ := hsoon
  refine ⟨m, last, hlast, hlt, ?_⟩
  intro n' t' c' hnn hop' hdrop' hquiet
  have hquiet' : ∀ j, n ≤ j → j < n' → ∀ s, ¬ NotifiedAt ops key j s := by
    intro j hnj hjn s hs
    rcases Nat.eq_or_lt_of_le hnj with rfl | hlt
    · have hsome := hs.2
      rw [hnone] at hsome
      cases hsome
    · exact hquiet j hlt hjn s hs
  have hlast' := hlast.extend (Nat.le_of_lt hnn) hquiet'
  rw [new_iff hmono hop' (closed_until_notified hclosed (Nat.le_of_lt hnn) hquiet')]
  constructor
  · intro hold
    exact hold m last hlast' hdrop'
  · intro hold m₂ last₂ hlast₂ _
    have hsame := last_unique hlast₂ hlast'
    subst hsame
    obtain ⟨⟨c₁, h₁⟩, -⟩ := hlast'.2.1
    obtain ⟨⟨c₂, h₂⟩, -⟩ := hlast₂.2.1
    rw [h₁] at h₂
    cases h₂
    exact hold

/-- A key's ledger is the same in two runs that do the same to it. -/
theorem ledger_eq_of_on {ops' : ℕ → Op} (h : ∀ n, (ops' n).on key = (ops n).on key) (n : ℕ) :
    (stateBefore ops' n).ledger key = (stateBefore ops n).ledger key := by
  refine Machine.stateAt_related
    (R := fun e e' : EpisodeState => e.ledger key = e'.ledger key) rfl ?_ n
  intro n e e' heq
  rw [(apply_refines (ops' n)).1, (apply_refines (ops n)).1, heq, h n]

/-- In calls that come in the order of the clock every key keeps the law, whatever is done to the
other keys. -/
theorem bookkeeping_law (h : InOrder ops) (key : Key) :
    BookkeepingLaw ops key ∧ ∀ ops' : ℕ → Op, (∀ n, (ops' n).on key = (ops n).on key) →
      ∀ n t cooldown, ops n = .notify key t cooldown → returned ops' n = returned ops n := by
  constructor
  · exact {
      active_notified := open_notified
      new_spaced := fun _ _ _ _ _ hm hn => new_spaced h hm hn
      new_cleared := fun _ _ _ _ _ _ hm hn hmn hdrop =>
        not_cleared_closed hm hmn hdrop (newAt_ledger hn).1
      reminder := fun _ _ _ _ _ _ r hm hop hmn hclear hdrop =>
        reminder_iff hm hmn hclear hdrop hop r
      one_reminder := fun _ _ _ _ _ _ _ _ _ hm => one_reminder hm
      new_iff := fun _ _ _ hop hclosed => new_iff h hop hclosed
      suppressed := fun _ _ _ hop hclosed hnone => suppressed h hop hclosed hnone }
  · intro ops' hsame n t cooldown hop
    have hop' : ops' n = .notify key t cooldown := by
      rw [← on_notify, hsame n, on_notify]
      exact hop
    rw [returned_eq hop', returned_eq hop, ledger_eq_of_on hsame]

/-- The law for a key that is notified of each minute. -/
theorem bookkeeping_law_minutely :
    BookkeepingLaw (fun n => .notify (1, .cpu) (n * 60_000_000_000) 600_000_000_000) (1, .cpu) ∧
      ∀ ops' : ℕ → Op,
        (∀ n, (ops' n).on (1, .cpu) =
          (Op.notify (1, .cpu) (n * 60_000_000_000) 600_000_000_000).on (1, .cpu)) →
        ∀ n t cooldown,
          Op.notify (1, .cpu) (n * 60_000_000_000) 600_000_000_000 = .notify (1, .cpu) t cooldown →
          returned ops' n =
            returned (fun n => .notify (1, .cpu) (n * 60_000_000_000) 600_000_000_000) n :=
  @bookkeeping_law (fun n => .notify (1, .cpu) (n * 60_000_000_000) 600_000_000_000)
    (by
      intro m n k k' t t' c c' hmn hm hn
      cases hm
      cases hn
      exact Nat.mul_le_mul_right _ hmn) (1, .cpu)

def renewed : ℕ → Op
  | 0 => .notify (1, .cpu) 0 600_000_000_000
  | 1 => .retain fun _ => false
  | _ + 2 => .notify (1, .cpu) 1_000_000_000 600_000_000_000

/-- A key that was dropped notifies again a second after it did: its last notification is
forgotten with it. -/
theorem renewed_after_drop : ¬ ∀ ops key, InOrder ops → ∀ n t cooldown,
    ops n = .notify key t cooldown → (stateBefore ops n).active key = none →
    (returned ops n = some .new ↔ ∀ m last, LastNotified ops key m n last → last + cooldown ≤ t) := by
  intro h
  have horder : InOrder renewed := by
    intro m n k k' t t' c c' hmn hm hn
    match m, n with
    | 0, _ =>
      cases hm
      exact Nat.zero_le _
    | 1, _ => cases hm
    | _ + 2, 0 => omega
    | _ + 2, 1 => cases hn
    | _ + 2, _ + 2 =>
      cases hm
      cases hn
      exact le_rfl
  have hlast : LastNotified renewed (1, .cpu) 0 2 0 := by
    refine ⟨by decide, ⟨⟨_, rfl⟩, by decide⟩, ?_⟩
    intro j hj hj2 t ⟨⟨cooldown, hop⟩, _⟩
    obtain rfl : j = 1 := by omega
    cases hop
  have hnew := (h renewed (1, .cpu) horder 2 1_000_000_000 600_000_000_000 rfl (by decide)).mp
    (by decide)
  exact absurd (hnew 0 0 hlast) (by decide)

end Runs

end Zstats.EpisodeState
