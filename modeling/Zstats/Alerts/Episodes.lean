import Zstats.Alerts.Thresholds
import Mathlib.Logic.Function.Basic

namespace Zstats

inductive AlertKind where
  | cpu
  | memory
  | appCpu
  | appMemory
  | disk
  | pressure
  deriving DecidableEq, Repr

/-- The `(u32, AlertKind)` keys of `EpisodeState`. -/
abbrev Key := Pid × AlertKind

structure Episode where
  started : Nat
  reminded : Bool
  deriving DecidableEq, Repr

inductive Notify where
  | new
  | reminder (elapsed : Nat)
  deriving DecidableEq, Repr

def Notify.elapsed : Notify → Option Nat
  | new => none
  | reminder elapsed => some elapsed

structure EpisodeState where
  active : Key → Option Episode
  lastAlert : Key → Option Nat

namespace EpisodeState

def empty : EpisodeState := ⟨fun _ => none, fun _ => none⟩

/-- What `EpisodeState::notify` decides, with the episode it leaves behind. -/
def decision (e : EpisodeState) (key : Key) (now : Nat) (cooldown : Nat) :
    Option (Notify × Episode) :=
  match e.active key with
  | some episode =>
    let elapsed := durationSince now episode.started
    if episode.reminded || decide (elapsed < persistReminder) then none
    else some (.reminder elapsed, ⟨episode.started, true⟩)
  | none =>
    let tooSoon := (e.lastAlert key).any fun previous =>
      decide (durationSince now previous < cooldown)
    if tooSoon then none else some (.new, ⟨now, false⟩)

/-- `EpisodeState::notify`. -/
def notify (e : EpisodeState) (key : Key) (now : Nat) (cooldown : Nat) :
    EpisodeState × Option Notify :=
  match e.decision key now cooldown with
  | some (n, episode) =>
    (⟨Function.update e.active key (some episode), Function.update e.lastAlert key (some now)⟩,
      some n)
  | none => (e, none)

def clear (e : EpisodeState) (key : Key) : EpisodeState :=
  ⟨Function.update e.active key none, e.lastAlert⟩

def retain (e : EpisodeState) (keep : Key → Bool) : EpisodeState :=
  ⟨fun k => if keep k then e.active k else none, fun k => if keep k then e.lastAlert k else none⟩

/-- All that is kept of a key. -/
def entry (e : EpisodeState) (key : Key) : Option Episode × Option Nat :=
  (e.active key, e.lastAlert key)

theorem retain_entry (e : EpisodeState) (keep : Key → Bool) (key : Key) :
    (e.retain keep).entry key = if keep key then e.entry key else (none, none) := by
  by_cases h : keep key = true <;> simp [retain, entry, h]

/-- The two ways a notification is decided. -/
theorem decision_cases {e : EpisodeState} {key : Key} {now : Nat} {cooldown : Nat}
    {n : Notify} {episode : Episode}
    (h : e.decision key now cooldown = some (n, episode)) :
    (n = .new ∧ episode = ⟨now, false⟩ ∧ e.active key = none) ∨
    ∃ started, e.active key = some ⟨started, false⟩ ∧ episode = ⟨started, true⟩ ∧
      n = .reminder (durationSince now started) ∧
      persistReminder ≤ durationSince now started := by
  unfold decision at h
  cases ha : e.active key with
  | none =>
    simp only [ha] at h
    split_ifs at h
    obtain ⟨rfl, rfl⟩ := Prod.mk.inj (Option.some.inj h)
    exact Or.inl ⟨rfl, rfl, rfl⟩
  | some old =>
    obtain ⟨started, reminded⟩ := old
    simp only [ha] at h
    split_ifs at h with hskip
    simp only [Bool.or_eq_true, decide_eq_true_eq, not_or, Bool.not_eq_true, not_lt] at hskip
    obtain ⟨rfl, hlong⟩ := hskip
    obtain ⟨rfl, rfl⟩ := Prod.mk.inj (Option.some.inj h)
    exact Or.inr ⟨started, rfl, rfl, rfl, hlong⟩

theorem notify_none {e : EpisodeState} {key : Key} {now : Nat} {cooldown : Nat}
    (h : (e.notify key now cooldown).2 = none) : (e.notify key now cooldown).1 = e := by
  unfold notify at h ⊢
  cases hd : e.decision key now cooldown with
  | none => rfl
  | some d => simp [hd] at h

/-- A notification sets the key's episode and stamps it with `now`. -/
theorem notify_some {e : EpisodeState} {key : Key} {now : Nat} {cooldown : Nat}
    {n : Notify} (h : (e.notify key now cooldown).2 = some n) :
    ∃ episode, e.decision key now cooldown = some (n, episode) ∧
      (e.notify key now cooldown).1 = ⟨Function.update e.active key (some episode),
        Function.update e.lastAlert key (some now)⟩ := by
  unfold notify at h ⊢
  cases hd : e.decision key now cooldown with
  | none => simp [hd] at h
  | some d =>
    obtain ⟨m, episode⟩ := d
    simp only [hd, Option.some.injEq] at h
    subst h
    exact ⟨episode, rfl, rfl⟩

/-- A key that has never notified does so at once. -/
theorem notify_fresh {e : EpisodeState} {key : Key} (now : Nat) (cooldown : Nat)
    (h : e.entry key = (none, none)) : (e.notify key now cooldown).2 = some .new := by
  obtain ⟨ha, hl⟩ := Prod.mk.inj h
  simp [notify, decision, ha, hl]

end EpisodeState

end Zstats
