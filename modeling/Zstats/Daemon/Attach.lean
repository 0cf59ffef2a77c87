import Zstats.Daemon.Serve
import Zstats.Framework.Segment
import Zstats.Framework.Transition

namespace Zstats

open Segment Transition

namespace HistoryBuffer

variable {retentionSecs : ℤ}

/-- The buffer drops from the front and keeps the back. -/
theorem prune_eq_drop (queue : List SystemSnapshot) :
    ∃ k, prune retentionSecs queue = queue.drop k ∧ (queue ≠ [] → k < queue.length) := by
  induction queue with
  | nil => exact ⟨0, rfl, fun h => absurd rfl h⟩
  | cons front queue ih =>
    cases queue with
    | nil => exact ⟨0, rfl, fun _ => Nat.zero_lt_one⟩
    | cons next rest =>
      rw [prune]
      split
      · obtain ⟨k, hk, hlen⟩ := ih
        refine ⟨k + 1, hk, fun _ => ?_⟩
        have hlt := hlen (List.cons_ne_nil next rest)
        simp only [List.length_cons] at hlt ⊢
        omega
      · exact ⟨0, rfl, fun _ => Nat.zero_lt_succ _⟩

theorem push_segment {published : ℕ → SystemSnapshot} {a n : ℕ} (h : a ≤ n) :
    ∃ a' < n + 1, push retentionSecs (segment published a n) (published n) =
      segment published a' (n + 1) := by
  have hdrop : ∃ k, prune retentionSecs (segment published a (n + 1)) =
      (segment published a (n + 1)).drop k ∧
        (segment published a (n + 1) ≠ [] → k < (segment published a (n + 1)).length) :=
    prune_eq_drop _
  obtain ⟨k, hk, hlen⟩ := hdrop
  rw [drop_segment] at hk
  have hne : segment published a (n + 1) ≠ [] := by
    rw [segment_concat published h]
    simp
  have hlt := hlen hne
  rw [length_segment] at hlt
  refine ⟨a + k, by omega, ?_⟩
  rw [push, ← segment_concat published h, hk]

end HistoryBuffer

section Run

variable {ι : Type*} [DecidableEq ι] (toJson : SystemSnapshot → String) (retentionSecs : ℤ)
  (published : ℕ → SystemSnapshot)

/-- The sink is at most one send behind, the history ends with the last snapshot pushed, and a
receiver has what has been sent since it was made. -/
structure Daemon.Ordered (d : Daemon ι) : Prop where
  sent_le : d.sent ≤ d.pushed
  pushed_le : d.pushed ≤ d.sent + 1
  history : ∃ a ≤ d.pushed, (d.pushed = 0 ∨ a < d.pushed) ∧
    d.history = segment published a d.pushed
  rx : ∀ c rx, d.handlers c = .subscribed rx → ∃ b ≤ d.sent, rx = segment published b d.sent

/-- A session that copied the snapshots from `a` on and below `p`, and has received those from `b`
on: nothing lies between the two. -/
structure Session.NoHole (a b p sent : ℕ) (s : Session) : Prop where
  history : s.buffered = (segment published a p).map toJson
  nonempty : p = 0 ∨ a < p
  written : s.written ≤ s.buffered.length
  before_live : s.live ≠ [] → s.written = s.buffered.length
  live : ∃ e, b ≤ e ∧ e ≤ sent ∧ s.live = (segment published b e).map toJson ∧
    s.rx = segment published e sent
  overlap : b ≤ p
  reached : p ≤ sent + 1

variable {toJson retentionSecs published}

variable (toJson retentionSecs published) in
/-- What each action takes, and what it leaves. -/
inductive Daemon.Took (d : Daemon ι) : DaemonAction ι → Daemon ι → Prop
  | push (hidle : d.pushed = d.sent) : Took d .push { d with
      history := HistoryBuffer.push retentionSecs d.history (published d.pushed)
      pushed := d.pushed + 1 }
  | send (hpushed : d.pushed = d.sent + 1) : Took d .send { d with
      sent := d.sent + 1
      handlers := fun c => (d.handlers c).receive (published d.sent) }
  | subscribe (c : ι) (hc : d.handlers c = .waiting) :
      Took d (.subscribe c) (d.setHandler c (.subscribed []))
  | copy (c : ι) (rx : List SystemSnapshot) (hc : d.handlers c = .subscribed rx) :
      Took d (.copy c) (d.setHandler c (.attached ⟨d.history.map toJson, 0, [], rx⟩))
  | writeLine (c : ι) (s : Session) (hc : d.handlers c = .attached s)
      (hw : s.written < s.buffered.length) :
      Took d (.writeLine c) (d.setHandler c (.attached { s with written := s.written + 1 }))
  | recv (c : ι) (s : Session) (snapshot : SystemSnapshot) (rx : List SystemSnapshot)
      (hc : d.handlers c = .attached s) (hrx : s.rx = snapshot :: rx)
      (hw : s.written = s.buffered.length) : Took d (.recv c) (d.setHandler c
        (.attached { s with live := s.live ++ [toJson snapshot], rx := rx }))

theorem took_of_step {d d' : Daemon ι} {action : DaemonAction ι}
    (h : d.step toJson retentionSecs published action = some d') :
    d.Took toJson retentionSecs published action d' := by
  cases action with
  | push =>
    by_cases hidle : d.pushed = d.sent
    · rw [Daemon.step, if_pos hidle] at h
      cases h
      exact .push hidle
    · simp [Daemon.step, hidle] at h
  | send =>
    by_cases hpushed : d.pushed = d.sent + 1
    · rw [Daemon.step, if_pos hpushed] at h
      cases h
      exact .send hpushed
    · simp [Daemon.step, hpushed] at h
  | subscribe c =>
    cases hc : d.handlers c with
    | waiting =>
      have hd : d.setHandler c (.subscribed []) = d' := by simpa [Daemon.step, hc] using h
      rw [← hd]
      exact .subscribe c hc
    | subscribed rx => simp [Daemon.step, hc] at h
    | attached s => simp [Daemon.step, hc] at h
  | copy c =>
    cases hc : d.handlers c with
    | waiting => simp [Daemon.step, hc] at h
    | subscribed rx =>
      have hd : d.setHandler c (.attached ⟨d.history.map toJson, 0, [], rx⟩) = d' := by
        simpa [Daemon.step, hc] using h
      rw [← hd]
      exact .copy c rx hc
    | attached s => simp [Daemon.step, hc] at h
  | writeLine c =>
    cases hc : d.handlers c with
    | waiting => simp [Daemon.step, hc] at h
    | subscribed rx => simp [Daemon.step, hc] at h
    | attached s =>
      by_cases hw : s.written < s.buffered.length
      · have hd : d.setHandler c (.attached { s with written := s.written + 1 }) = d' := by
          simpa [Daemon.step, hc, hw] using h
        rw [← hd]
        exact .writeLine c s hc hw
      · simp [Daemon.step, hc, hw] at h
  | recv c =>
    cases hc : d.handlers c with
    | waiting => simp [Daemon.step, hc] at h
    | subscribed rx => simp [Daemon.step, hc] at h
    | attached s =>
      cases hrx : s.rx with
      | nil => simp [Daemon.step, hc, hrx] at h
      | cons snapshot rx =>
        by_cases hw : s.written = s.buffered.length
        · have hd : d.setHandler c (.attached
              { s with live := s.live ++ [toJson snapshot], rx := rx }) = d' := by
            simpa [Daemon.step, hc, hrx, hw] using h
          rw [← hd]
          exact .recv c s snapshot rx hc hrx hw
        · simp [Daemon.step, hc, hrx, hw] at h

theorem step_of_took {d d' : Daemon ι} {action : DaemonAction ι}
    (h : d.Took toJson retentionSecs published action d') :
    d.step toJson retentionSecs published action = some d' := by
  cases h with
  | push hidle => simp [Daemon.step, hidle]
  | send hpushed => simp [Daemon.step, hpushed]
  | subscribe c hc => simp [Daemon.step, hc]
  | copy c rx hc => simp [Daemon.step, hc]
  | writeLine c s hc hw => simp [Daemon.step, hc, hw]
  | recv c s snapshot rx hc hrx hw => simp [Daemon.step, hc, hrx, hw]

theorem took_iff {d d' : Daemon ι} {action : DaemonAction ι} :
    d.step toJson retentionSecs published action = some d' ↔
      d.Took toJson retentionSecs published action d' :=
  ⟨took_of_step, step_of_took⟩

omit [DecidableEq ι] in
theorem ordered_new : (Daemon.new : Daemon ι).Ordered published where
  sent_le := le_rfl
  pushed_le := Nat.zero_le _
  history := ⟨0, le_rfl, Or.inl rfl, rfl⟩
  rx := by
    intro c rx h
    cases h

theorem setHandler_self (d : Daemon ι) (c : ι) (h : Handler) :
    (d.setHandler c h).handlers c = h := Function.update_self ..

theorem setHandler_of_ne (d : Daemon ι) {c c' : ι} (hne : c' ≠ c) (h : Handler) :
    (d.setHandler c h).handlers c' = d.handlers c' := Function.update_of_ne hne ..

theorem ordered_setHandler {d : Daemon ι} (h : d.Ordered published) {c : ι} {handler : Handler}
    (hrx : ∀ rx, handler = .subscribed rx → ∃ b ≤ d.sent, rx = segment published b d.sent) :
    (d.setHandler c handler).Ordered published where
  sent_le := h.sent_le
  pushed_le := h.pushed_le
  history := h.history
  rx := by
    intro c' rx hc'
    by_cases hself : c' = c
    · rw [hself, setHandler_self] at hc'
      exact hrx rx hc'
    · rw [setHandler_of_ne d hself] at hc'
      exact h.rx c' rx hc'

theorem ordered_step {d d' : Daemon ι} {action : DaemonAction ι} (h : d.Ordered published)
    (hstep : d.step toJson retentionSecs published action = some d') : d'.Ordered published := by
  cases took_iff.mp hstep with
  | push hidle =>
    obtain ⟨a, hle, -, hhistory⟩ := h.history
    have hpush : ∃ a' < d.pushed + 1, HistoryBuffer.push retentionSecs
        (segment published a d.pushed) (published d.pushed) =
          segment published a' (d.pushed + 1) := HistoryBuffer.push_segment hle
    obtain ⟨a', ha', hqueue⟩ := hpush
    rw [← hhistory] at hqueue
    have hidle' : d.pushed + 1 ≤ d.sent + 1 := by omega
    exact ⟨Nat.le_succ_of_le h.sent_le, hidle', ⟨a', ha'.le, Or.inr ha', hqueue⟩, h.rx⟩
  | send hpushed =>
    have hsent : d.sent + 1 ≤ d.pushed := by omega
    have hlate : d.pushed ≤ d.sent + 1 + 1 := by omega
    refine ⟨hsent, hlate, h.history, ?_⟩
    intro c rx hc
    change (d.handlers c).receive (published d.sent) = .subscribed rx at hc
    cases hold : d.handlers c with
    | waiting =>
      rw [hold] at hc
      cases hc
    | subscribed old =>
      rw [hold] at hc
      obtain ⟨b, hb, hseg⟩ := h.rx c old hold
      refine ⟨b, Nat.le_succ_of_le hb, ?_⟩
      rw [segment_concat published hb, ← hseg]
      cases hc
      rfl
    | attached s =>
      rw [hold] at hc
      cases hc
  | subscribe c hc =>
    apply ordered_setHandler h
    intro rx hrx
    cases hrx
    exact ⟨d.sent, le_rfl, (segment_empty published le_rfl).symm⟩
  | copy c rx hc => exact ordered_setHandler h nofun
  | writeLine c s hc hw => exact ordered_setHandler h nofun
  | recv c s snapshot rx hc hrx hw => exact ordered_setHandler h nofun

/-- The copy: the history ends with the last snapshot pushed, and the receiver was there before. -/
theorem noHole_copy {d d' : Daemon ι} {c : ι} (h : d.Ordered published)
    (hstep : d.step toJson retentionSecs published (.copy c) = some d') :
    ∃ a b s, d'.handlers c = .attached s ∧ s.NoHole toJson published a b d.pushed d'.sent := by
  cases took_iff.mp hstep with
  | copy c rx hc =>
    obtain ⟨a, hle, hnonempty, hhistory⟩ := h.history
    obtain ⟨b, hb, hrx⟩ := h.rx c rx hc
    refine ⟨a, b, _, setHandler_self .., ?_⟩
    exact {
      history := by rw [hhistory]
      nonempty := hnonempty
      written := Nat.zero_le _
      before_live := fun hne => absurd rfl hne
      live := ⟨b, le_rfl, hb, by rw [segment_empty published le_rfl]; rfl, hrx⟩
      overlap := hb.trans h.sent_le
      reached := h.pushed_le }

section NoHole

variable {a b p sent : ℕ} {s : Session}

omit [DecidableEq ι]

theorem Session.NoHole.receive (h : s.NoHole toJson published a b p sent) :
    Session.NoHole toJson published a b p (sent + 1)
      { s with rx := s.rx ++ [published sent] } := by
  obtain ⟨e, hbe, hle, hlive, hrx⟩ := h.live
  have hrx' : s.rx ++ [published sent] = segment published e (sent + 1) := by
    rw [hrx, segment_concat published hle]
  exact {
    history := h.history
    nonempty := h.nonempty
    written := h.written
    before_live := h.before_live
    live := ⟨e, hbe, Nat.le_succ_of_le hle, hlive, hrx'⟩
    overlap := h.overlap
    reached := Nat.le_succ_of_le h.reached }

theorem Session.NoHole.writeLine (h : s.NoHole toJson published a b p sent)
    (hw : s.written < s.buffered.length) :
    Session.NoHole toJson published a b p sent { s with written := s.written + 1 } :=
  { h with
    written := hw
    before_live := fun hne => absurd (h.before_live hne) hw.ne }

theorem Session.NoHole.recv {snapshot : SystemSnapshot} {rx : List SystemSnapshot}
    (h : s.NoHole toJson published a b p sent) (hrx : s.rx = snapshot :: rx)
    (hw : s.written = s.buffered.length) :
    Session.NoHole toJson published a b p sent
      { s with live := s.live ++ [toJson snapshot], rx := rx } := by
  obtain ⟨e, hbe, -, hlive, hrest⟩ := h.live
  rw [hrx] at hrest
  obtain ⟨hlt, hsnapshot, hrest⟩ := segment_eq_cons hrest.symm
  have hlive' : s.live ++ [toJson snapshot] = (segment published b (e + 1)).map toJson := by
    rw [segment_concat published hbe, List.map_append, hlive, hsnapshot]
    rfl
  exact {
    history := h.history
    nonempty := h.nonempty
    written := h.written
    before_live := fun _ => hw
    live := ⟨e + 1, Nat.le_succ_of_le hbe, hlt, hlive', hrest⟩
    overlap := h.overlap
    reached := h.reached }

end NoHole

/-- The steps of the handler of `c` that write a line. -/
def DaemonAction.writes (c : ι) (action : DaemonAction ι) : Bool :=
  decide (action = .writeLine c) || decide (action = .recv c)

/-- A session without a hole stays one; each step of its handler writes one line. -/
theorem noHole_step {d d' : Daemon ι} {action : DaemonAction ι} {c : ι} {s : Session}
    {a b p : ℕ} (hs : d.handlers c = .attached s) (h : s.NoHole toJson published a b p d.sent)
    (hstep : d.step toJson retentionSecs published action = some d') :
    ∃ s', d'.handlers c = .attached s' ∧ s'.buffered = s.buffered ∧
      s'.NoHole toJson published a b p d'.sent ∧ d.sent ≤ d'.sent ∧
      s'.written + s'.live.length = s.written + s.live.length + (action.writes c).toNat := by
  have hother : ∀ {c' : ι} {handler : Handler}, c ≠ c' →
      (d.setHandler c' handler).handlers c = .attached s := by
    intro c' handler hne
    rw [setHandler_of_ne d hne, hs]
  have hapart : ∀ {c' : ι}, d.handlers c' ≠ .attached s → c ≠ c' := by
    rintro c' hc rfl
    exact hc hs
  cases took_iff.mp hstep with
  | push hidle => exact ⟨s, hs, rfl, h, le_rfl, rfl⟩
  | send hpushed =>
    have hreceive : (d.handlers c).receive (published d.sent) =
        .attached { s with rx := s.rx ++ [published d.sent] } := by
      rw [hs]
      rfl
    exact ⟨_, hreceive, rfl, h.receive, Nat.le_succ _, rfl⟩
  | subscribe c' hc =>
    exact ⟨s, hother (hapart (by rw [hc]; nofun)), rfl, h, le_rfl, rfl⟩
  | copy c' rx hc =>
    exact ⟨s, hother (hapart (by rw [hc]; nofun)), rfl, h, le_rfl, rfl⟩
  | writeLine c' s' hc hw =>
    by_cases hself : c' = c
    · subst hself
      cases hs.symm.trans hc
      have hwrites : (DaemonAction.writeLine c').writes c' = true := by
        simp [DaemonAction.writes]
      refine ⟨_, setHandler_self .., rfl, h.writeLine hw, le_rfl, ?_⟩
      rw [hwrites]
      show s.written + 1 + s.live.length = s.written + s.live.length + 1
      omega
    · have hwrites : (DaemonAction.writeLine c').writes c = false := by
        simp [DaemonAction.writes, hself]
      rw [hwrites]
      exact ⟨s, hother (Ne.symm hself), rfl, h, le_rfl, rfl⟩
  | recv c' s' snapshot rx hc hrx hw =>
    by_cases hself : c' = c
    · subst hself
      cases hs.symm.trans hc
      have hwrites : (DaemonAction.recv c').writes c' = true := by
        simp [DaemonAction.writes]
      refine ⟨_, setHandler_self .., rfl, h.recv hrx hw, le_rfl, ?_⟩
      rw [hwrites, List.length_append]
      rfl
    · have hwrites : (DaemonAction.recv c').writes c = false := by
        simp [DaemonAction.writes, hself]
      rw [hwrites]
      exact ⟨s, hother (Ne.symm hself), rfl, h, le_rfl, rfl⟩

theorem noHole_run {actions : List (DaemonAction ι)} {d d' : Daemon ι} {c : ι} {s : Session}
    {a b p : ℕ} (hs : d.handlers c = .attached s) (h : s.NoHole toJson published a b p d.sent)
    (hrun : exec (Daemon.step toJson retentionSecs published) d actions = some d') :
    ∃ s', d'.handlers c = .attached s' ∧ s'.buffered = s.buffered ∧
      s'.NoHole toJson published a b p d'.sent ∧ d.sent ≤ d'.sent ∧
      s'.written + s'.live.length =
        s.written + s.live.length + actions.countP (DaemonAction.writes c) := by
  induction actions generalizing d s with
  | nil =>
    cases hrun
    exact ⟨s, hs, rfl, h, le_rfl, rfl⟩
  | cons action actions ih =>
    obtain ⟨d₁, hstep, hrest⟩ := Option.bind_eq_some_iff.mp hrun
    obtain ⟨s₁, hs₁, hbuffered₁, h₁, hsent₁, hlines₁⟩ := noHole_step hs h hstep
    obtain ⟨s₂, hs₂, hbuffered₂, h₂, hsent₂, hlines₂⟩ := ih hs₁ h₁ hrest
    refine ⟨s₂, hs₂, hbuffered₂.trans hbuffered₁, h₂, hsent₁.trans hsent₂, ?_⟩
    rw [hlines₂, hlines₁, List.countP_cons]
    cases action.writes c with
    | true =>
      simp only [Bool.toNat_true, if_true]
      omega
    | false =>
      simp only [Bool.toNat_false, Bool.false_eq_true, if_false]
      omega

theorem ordered_run {actions : List (DaemonAction ι)} {d d' : Daemon ι} (h : d.Ordered published)
    (hrun : exec (Daemon.step toJson retentionSecs published) d actions = some d') :
    d'.Ordered published := by
  induction actions generalizing d with
  | nil =>
    cases hrun
    exact h
  | cons action actions ih =>
    obtain ⟨d₁, hstep, hrest⟩ := Option.bind_eq_some_iff.mp hrun
    exact ih (ordered_step h hstep) hrest

section NoHole

variable {a b p sent : ℕ} {s : Session} (h : s.NoHole toJson published a b p sent)
include h

omit [DecidableEq ι]

/-- The history and what the receiver yields make one range. -/
theorem Session.NoHole.union {k : ℕ} (hk : min a b ≤ k) (hlt : k < max p sent) :
    (a ≤ k ∧ k < p) ∨ (b ≤ k ∧ k < sent) := by
  have hnonempty := h.nonempty
  have hoverlap := h.overlap
  have hreached := h.reached
  omega

theorem Session.NoHole.rx_length : ∃ e, s.live.length + b = e ∧ s.rx.length + e = sent ∧
    s.live = (segment published b e).map toJson := by
  obtain ⟨e, hbe, hle, hlive, hrx⟩ := h.live
  refine ⟨e, ?_, ?_, hlive⟩
  · rw [hlive, List.length_map, length_segment]
    omega
  · rw [hrx, length_segment]
    omega

end NoHole

/-- As long as a line is left to write, the handler can write one. -/
theorem writes_enabled {d : Daemon ι} {c : ι} {s : Session} (hs : d.handlers c = .attached s)
    (hwritten : s.written ≤ s.buffered.length)
    (hleft : 0 < s.buffered.length - s.written + s.rx.length) :
    ∃ action d', action.writes c = true ∧
      d.step toJson retentionSecs published action = some d' := by
  by_cases hw : s.written < s.buffered.length
  · exact ⟨.writeLine c, _, by simp [DaemonAction.writes], took_iff.mpr (.writeLine c s hs hw)⟩
  · have hall : s.written = s.buffered.length := by omega
    have hne : s.rx ≠ [] := by
      intro hnil
      rw [hnil, List.length_nil] at hleft
      omega
    obtain ⟨snapshot, rx, hrx⟩ := List.exists_cons_of_ne_nil hne
    exact ⟨.recv c, _, by simp [DaemonAction.writes],
      took_iff.mpr (.recv c s snapshot rx hs hrx hall)⟩

/-- Once the handler has written as many lines as were left, all that had been sent is written. -/
theorem delivered_run {actions : List (DaemonAction ι)} {d d' : Daemon ι} {c : ι} {s : Session}
    {a b p : ℕ} (hs : d.handlers c = .attached s) (h : s.NoHole toJson published a b p d.sent)
    (hrun : exec (Daemon.step toJson retentionSecs published) d actions = some d')
    (hcount : s.buffered.length - s.written + s.rx.length ≤
      actions.countP (DaemonAction.writes c)) :
    ∃ s' e, d'.handlers c = .attached s' ∧ s'.buffered = s.buffered ∧
      s'.written = s.buffered.length ∧ d.sent ≤ e ∧
      s'.live = (segment published b e).map toJson := by
  obtain ⟨s', hs', hbuffered, h', -, hlines⟩ := noHole_run hs h hrun
  obtain ⟨e, hlive, hrx, -⟩ := h.rx_length
  obtain ⟨e', hlive', -, hsegment⟩ := h'.rx_length
  have hwritten := h.written
  have hwritten' := h'.written
  rw [hbuffered] at hwritten'
  have hsent : d.sent ≤ e' := by omega
  have hall : s'.written = s.buffered.length := by
    by_cases hnone : s'.live = []
    · rw [hnone, List.length_nil] at hlines hlive'
      omega
    · rw [h'.before_live hnone, hbuffered]
  exact ⟨s', e', hs', hbuffered, hall, hsent, hsegment⟩

/-- From the copy on: the history and the live lines are two ranges without a hole between them,
and all of it is written in time. -/
theorem attach_covers {before : List (DaemonAction ι)} {c : ι} {d d₁ : Daemon ι}
    (hbefore : exec (Daemon.step toJson retentionSecs published) .new before = some d)
    (hcopy : d.step toJson retentionSecs published (.copy c) = some d₁) :
    ∃ a b, ∀ after d₂, exec (Daemon.step toJson retentionSecs published) d₁ after = some d₂ →
      ∃ s, d₂.handlers c = .attached s ∧ s.NoHole toJson published a b d.pushed d₂.sent := by
  obtain ⟨a, b, s, hs, h⟩ := noHole_copy (ordered_run ordered_new hbefore) hcopy
  refine ⟨a, b, ?_⟩
  intro after d₂ hafter
  obtain ⟨s', hs', -, h', -, -⟩ := noHole_run hs h hafter
  exact ⟨s', hs', h'⟩

end Run

end Zstats
