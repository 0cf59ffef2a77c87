import Zstats.Daemon.Attach
import Zstats.Daemon.Client
import Zstats.Framework.Broadcast
import Zstats.Framework.Text

namespace Zstats

open Broadcast Segment Transition

/-- The capacity of the live channel. -/
def liveCapacity : ℕ := 64

/-- A client that is attached: its history as lines, how many of them are written, the lines after
them, and the number of the snapshot its receiver takes next. -/
structure LiveSession where
  buffered : List String
  written : ℕ
  live : List String
  next : ℕ

/-- `handle_client` between its steps. -/
inductive LiveClient where
  | waiting
  | subscribed (next : ℕ)
  | attached (s : LiveSession)
  | stopping
  | closed

inductive Command where
  | stop
  | attach
  | other
  deriving DecidableEq

def Command.parse (line : String) : Command :=
  match String.ofList (Text.trim line.toList) with
  | "STOP" => .stop
  | "ATTACH" => .attach
  | _ => .other

/-- The daemon: a client that asked it to stop has left a permit. -/
structure LiveDaemon (ι : Type*) where
  history : List SystemSnapshot
  pushed : ℕ
  sent : ℕ
  shutdown : Bool
  clients : ι → LiveClient

/-- A client that says nothing reads as the empty line; one whose connection fails, or whose command
does not come in time, is dropped. -/
inductive LiveAction (ι : Type*) where
  | push
  | send
  | command (c : ι) (line : String)
  | copy (c : ι)
  | writeLine (c : ι)
  | recv (c : ι)
  | drop (c : ι)

namespace LiveDaemon

variable {ι : Type*} [DecidableEq ι]

def new : LiveDaemon ι := ⟨[], 0, 0, false, fun _ => .waiting⟩

def setClient (d : LiveDaemon ι) (c : ι) (client : LiveClient) : LiveDaemon ι :=
  { d with clients := Function.update d.clients c client }

/-- `receiver` is how a receiver of the live channel goes on. -/
def step (receiver : Receiver) (toJson : SystemSnapshot → String) (retentionSecs : ℤ)
    (published : ℕ → SystemSnapshot) (d : LiveDaemon ι) : LiveAction ι → Option (LiveDaemon ι)
  | .push =>
    if d.pushed = d.sent then
      some { d with
        history := HistoryBuffer.push retentionSecs d.history (published d.pushed)
        pushed := d.pushed + 1 }
    else none
  | .send => if d.pushed = d.sent + 1 then some { d with sent := d.sent + 1 } else none
  | .command c line =>
    match d.clients c with
    | .waiting =>
      match Command.parse line with
      | .stop => some { d.setClient c .stopping with shutdown := true }
      | .attach => some (d.setClient c (.subscribed d.sent))
      | .other => some (d.setClient c .closed)
    | _ => none
  | .copy c =>
    match d.clients c with
    | .subscribed next => some (d.setClient c (.attached ⟨d.history.map toJson, 0, [], next⟩))
    | _ => none
  | .writeLine c =>
    match d.clients c with
    | .attached s =>
      if s.written < s.buffered.length then
        some (d.setClient c (.attached { s with written := s.written + 1 }))
      else none
    | _ => none
  | .recv c =>
    match d.clients c with
    | .attached s =>
      if s.written = s.buffered.length then
        match receiver d.sent s.next with
        | some (item, next) => some (d.setClient c (.attached { s with
            live := s.live ++ item.toList.map (fun i => toJson (published i))
            next := next }))
        | none => none
      else none
    | _ => none
  | .drop c =>
    match d.clients c with
    | .stopping | .closed => none
    | _ => some (d.setClient c .closed)

end LiveDaemon

section Run

variable {ι : Type*} [DecidableEq ι] (receiver : Receiver) (toJson : SystemSnapshot → String)
  (retentionSecs : ℤ) (published : ℕ → SystemSnapshot)

/-- A session that copied the snapshots from `a` on and below `p`, and has taken those in `seen`
since it subscribed after `b`. -/
structure LiveSession.Fed (a b p sent : ℕ) (seen : List ℕ) (s : LiveSession) : Prop where
  history : s.buffered = (segment published a p).map toJson
  written : s.written ≤ s.buffered.length
  before_live : s.live ≠ [] → s.written = s.buffered.length
  live : s.live = seen.map fun i => toJson (published i)
  follows : Follows liveCapacity b sent s.next seen
  overlap : b ≤ p
  nonempty : p = 0 ∨ a < p

/-- What every reachable state of the daemon is like. -/
structure LiveDaemon.Sound (d : LiveDaemon ι) : Prop where
  sent_le : d.sent ≤ d.pushed
  pushed_le : d.pushed ≤ d.sent + 1
  history : ∃ a ≤ d.pushed, (d.pushed = 0 ∨ a < d.pushed) ∧
    d.history = segment published a d.pushed
  subscribed : ∀ c next, d.clients c = .subscribed next → next ≤ d.sent
  attached : ∀ c s, d.clients c = .attached s →
    ∃ a b p seen, p ≤ d.pushed ∧ s.Fed toJson published a b p d.sent seen
  asked : d.shutdown = true ↔ ∃ c, d.clients c = .stopping

variable {receiver toJson retentionSecs published}

variable (receiver toJson retentionSecs published) in
/-- What each action takes, and what it leaves. -/
inductive LiveDaemon.Took (d : LiveDaemon ι) : LiveAction ι → LiveDaemon ι → Prop
  | push (hidle : d.pushed = d.sent) : Took d .push { d with
      history := HistoryBuffer.push retentionSecs d.history (published d.pushed)
      pushed := d.pushed + 1 }
  | send (hpushed : d.pushed = d.sent + 1) : Took d .send { d with sent := d.sent + 1 }
  | stop (c : ι) (line : String) (hc : d.clients c = .waiting) (hline : Command.parse line = .stop) :
      Took d (.command c line) { d.setClient c .stopping with shutdown := true }
  | attach (c : ι) (line : String) (hc : d.clients c = .waiting)
      (hline : Command.parse line = .attach) :
      Took d (.command c line) (d.setClient c (.subscribed d.sent))
  | other (c : ι) (line : String) (hc : d.clients c = .waiting)
      (hline : Command.parse line = .other) :
      Took d (.command c line) (d.setClient c .closed)
  | copy (c : ι) (next : ℕ) (hc : d.clients c = .subscribed next) :
      Took d (.copy c) (d.setClient c (.attached ⟨d.history.map toJson, 0, [], next⟩))
  | writeLine (c : ι) (s : LiveSession) (hc : d.clients c = .attached s)
      (hw : s.written < s.buffered.length) :
      Took d (.writeLine c) (d.setClient c (.attached { s with written := s.written + 1 }))
  | recv (c : ι) (s : LiveSession) (item : Option ℕ) (next : ℕ) (hc : d.clients c = .attached s)
      (hw : s.written = s.buffered.length)
      (htaken : receiver d.sent s.next = some (item, next)) :
      Took d (.recv c) (d.setClient c (.attached { s with
        live := s.live ++ item.toList.map (fun i => toJson (published i))
        next := next }))
  | drop (c : ι) (hc : d.clients c ≠ .stopping ∧ d.clients c ≠ .closed) :
      Took d (.drop c) (d.setClient c .closed)

theorem LiveDaemon.took_of_step {d d' : LiveDaemon ι} {action : LiveAction ι}
    (h : d.step receiver toJson retentionSecs published action = some d') :
    d.Took receiver toJson retentionSecs published action d' := by
  cases action with
  | push =>
    by_cases hidle : d.pushed = d.sent
    · rw [step, if_pos hidle] at h
      rw [← Option.some.inj h]
      exact .push hidle
    · rw [step, if_neg hidle] at h
      cases h
  | send =>
    by_cases hpushed : d.pushed = d.sent + 1
    · rw [step, if_pos hpushed] at h
      rw [← Option.some.inj h]
      exact .send hpushed
    · rw [step, if_neg hpushed] at h
      cases h
  | command c line =>
    rw [step] at h
    cases hc : d.clients c with
    | waiting =>
      rw [hc] at h
      dsimp only at h
      cases hline : Command.parse line with
      | stop =>
        rw [hline] at h
        rw [← Option.some.inj h]
        exact .stop c line hc hline
      | attach =>
        rw [hline] at h
        rw [← Option.some.inj h]
        exact .attach c line hc hline
      | other =>
        rw [hline] at h
        rw [← Option.some.inj h]
        exact .other c line hc hline
    | subscribed _ | attached _ | stopping | closed =>
      rw [hc] at h
      cases h
  | copy c =>
    rw [step] at h
    cases hc : d.clients c with
    | subscribed next =>
      rw [hc] at h
      rw [← Option.some.inj h]
      exact .copy c next hc
    | waiting | attached _ | stopping | closed =>
      rw [hc] at h
      cases h
  | writeLine c =>
    rw [step] at h
    cases hc : d.clients c with
    | attached s =>
      rw [hc] at h
      dsimp only at h
      by_cases hw : s.written < s.buffered.length
      · rw [if_pos hw] at h
        rw [← Option.some.inj h]
        exact .writeLine c s hc hw
      · rw [if_neg hw] at h
        cases h
    | waiting | subscribed _ | stopping | closed =>
      rw [hc] at h
      cases h
  | recv c =>
    rw [step] at h
    cases hc : d.clients c with
    | attached s =>
      rw [hc] at h
      dsimp only at h
      by_cases hw : s.written = s.buffered.length
      · rw [if_pos hw] at h
        cases htaken : receiver d.sent s.next with
        | some taken =>
          rw [htaken] at h
          rw [← Option.some.inj h]
          exact .recv c s taken.1 taken.2 hc hw htaken
        | none =>
          rw [htaken] at h
          cases h
      · rw [if_neg hw] at h
        cases h
    | waiting | subscribed _ | stopping | closed =>
      rw [hc] at h
      cases h
  | drop c =>
    rw [step] at h
    cases hc : d.clients c with
    | waiting | subscribed _ | attached _ =>
      rw [hc] at h
      rw [← Option.some.inj h]
      exact .drop c (by rw [hc]; exact ⟨nofun, nofun⟩)
    | stopping | closed =>
      rw [hc] at h
      cases h

omit [DecidableEq ι] in
theorem LiveDaemon.sound_new : (LiveDaemon.new : LiveDaemon ι).Sound toJson published where
  sent_le := le_rfl
  pushed_le := Nat.zero_le _
  history := ⟨0, le_rfl, Or.inl rfl, rfl⟩
  subscribed := by
    intro c next hc
    cases hc
  attached := by
    intro c s hc
    cases hc
  asked := by simp [LiveDaemon.new]

theorem LiveDaemon.setClient_self (d : LiveDaemon ι) (c : ι) (client : LiveClient) :
    (d.setClient c client).clients c = client := Function.update_self ..

theorem LiveDaemon.setClient_of_ne (d : LiveDaemon ι) {c c' : ι} (hne : c' ≠ c)
    (client : LiveClient) : (d.setClient c client).clients c' = d.clients c' :=
  Function.update_of_ne hne ..

/-- A step of one client's handler changes no other client. -/
theorem LiveDaemon.Sound.setClient {d : LiveDaemon ι} (h : d.Sound toJson published) {c : ι}
    {client : LiveClient} (hold : d.clients c ≠ .stopping) (hnew : client ≠ .stopping)
    (hsubscribed : ∀ next, client = .subscribed next → next ≤ d.sent)
    (hattached : ∀ s, client = .attached s →
      ∃ a b p seen, p ≤ d.pushed ∧ s.Fed toJson published a b p d.sent seen) :
    (d.setClient c client).Sound toJson published where
  sent_le := h.sent_le
  pushed_le := h.pushed_le
  history := h.history
  subscribed := by
    intro c' next hc'
    by_cases hself : c' = c
    · rw [hself, setClient_self] at hc'
      exact hsubscribed next hc'
    · rw [setClient_of_ne d hself] at hc'
      exact h.subscribed c' next hc'
  attached := by
    intro c' s hc'
    by_cases hself : c' = c
    · rw [hself, setClient_self] at hc'
      exact hattached s hc'
    · rw [setClient_of_ne d hself] at hc'
      exact h.attached c' s hc'
  asked := by
    have hsame : ∀ c', (d.setClient c client).clients c' = .stopping ↔
        d.clients c' = .stopping := by
      intro c'
      by_cases hself : c' = c
      · rw [hself, setClient_self]
        exact ⟨fun h => absurd h hnew, fun h => absurd h hold⟩
      · rw [setClient_of_ne d hself]
    rw [exists_congr hsame]
    exact h.asked

section Fed

variable {a b p sent : ℕ} {seen : List ℕ} {s : LiveSession}

omit [DecidableEq ι]

theorem LiveSession.Fed.send (h : s.Fed toJson published a b p sent seen) :
    s.Fed toJson published a b p (sent + 1) seen :=
  { h with follows := h.follows.send }

theorem LiveSession.Fed.writeLine (h : s.Fed toJson published a b p sent seen)
    (hw : s.written < s.buffered.length) :
    LiveSession.Fed toJson published a b p sent seen { s with written := s.written + 1 } :=
  { h with
    written := hw
    before_live := fun hne => absurd (h.before_live hne) hw.ne }

theorem LiveSession.Fed.recv (h : s.Fed toJson published a b p sent seen)
    (hlawful : Lawful liveCapacity receiver) (hw : s.written = s.buffered.length) {item : Option ℕ}
    {next : ℕ} (htaken : receiver sent s.next = some (item, next)) :
    LiveSession.Fed toJson published a b p sent (seen ++ item.toList) { s with
      live := s.live ++ item.toList.map (fun i => toJson (published i))
      next := next } :=
  { h with
    before_live := fun _ => hw
    live := by rw [List.map_append, ← h.live]
    follows := h.follows.recv hlawful htaken }

end Fed

theorem LiveDaemon.sound_step (hlawful : Lawful liveCapacity receiver) {d d' : LiveDaemon ι}
    {action : LiveAction ι} (h : d.Sound toJson published)
    (hstep : d.step receiver toJson retentionSecs published action = some d') :
    d'.Sound toJson published := by
  cases took_of_step hstep with
  | push hidle =>
    obtain ⟨a, hle, -, hhistory⟩ := h.history
    have hpush : ∃ a' < d.pushed + 1, HistoryBuffer.push retentionSecs
        (segment published a d.pushed) (published d.pushed) =
          segment published a' (d.pushed + 1) := HistoryBuffer.push_segment hle
    obtain ⟨a', ha', hqueue⟩ := hpush
    rw [← hhistory] at hqueue
    have hidle' : d.pushed + 1 ≤ d.sent + 1 := by omega
    refine ⟨Nat.le_succ_of_le h.sent_le, hidle', ⟨a', ha'.le, Or.inr ha', hqueue⟩, h.subscribed, ?_,
      h.asked⟩
    intro c s hc
    obtain ⟨a, b, p, seen, hp, hfed⟩ := h.attached c s hc
    exact ⟨a, b, p, seen, Nat.le_succ_of_le hp, hfed⟩
  | send hpushed =>
    have hsent : d.sent + 1 ≤ d.pushed := by omega
    have hlate : d.pushed ≤ d.sent + 1 + 1 := by omega
    refine ⟨hsent, hlate, h.history, ?_, ?_, h.asked⟩
    · intro c next hc
      exact Nat.le_succ_of_le (h.subscribed c next hc)
    · intro c s hc
      obtain ⟨a, b, p, seen, hp, hfed⟩ := h.attached c s hc
      exact ⟨a, b, p, seen, hp, hfed.send⟩
  | stop c line hc hline =>
    refine ⟨h.sent_le, h.pushed_le, h.history, ?_, ?_, ?_⟩
    · intro c' next hc'
      by_cases hself : c' = c
      · rw [hself] at hc'
        cases (setClient_self d c .stopping).symm.trans hc'
      · exact h.subscribed c' next ((setClient_of_ne d hself .stopping).symm.trans hc')
    · intro c' s hc'
      by_cases hself : c' = c
      · rw [hself] at hc'
        cases (setClient_self d c .stopping).symm.trans hc'
      · exact h.attached c' s ((setClient_of_ne d hself .stopping).symm.trans hc')
    · exact ⟨fun _ => ⟨c, setClient_self d c .stopping⟩, fun _ => rfl⟩
  | attach c line hc hline =>
    refine h.setClient (by simp [hc]) nofun ?_ ?_
    · intro next hnext
      cases hnext
      exact le_rfl
    · nofun
  | other c line hc hline => exact h.setClient (by simp [hc]) nofun nofun nofun
  | copy c next hc =>
    refine h.setClient (by simp [hc]) nofun ?_ ?_
    · nofun
    · intro s hs
      cases hs
      obtain ⟨a, hle, hnonempty, hhistory⟩ := h.history
      have hnext := h.subscribed c next hc
      refine ⟨a, next, d.pushed, [], le_rfl, ?_⟩
      exact {
        history := by rw [hhistory]
        written := Nat.zero_le _
        before_live := fun hne => absurd rfl hne
        live := rfl
        follows := follows_new hnext
        overlap := hnext.trans h.sent_le
        nonempty := hnonempty }
  | writeLine c s hc hw =>
    obtain ⟨a, b, p, seen, hp, hfed⟩ := h.attached c s hc
    refine h.setClient (by simp [hc]) nofun ?_ ?_
    · nofun
    · intro s' hs'
      cases hs'
      exact ⟨a, b, p, seen, hp, hfed.writeLine hw⟩
  | recv c s item next hc hw htaken =>
    obtain ⟨a, b, p, seen, hp, hfed⟩ := h.attached c s hc
    refine h.setClient (by simp [hc]) nofun ?_ ?_
    · nofun
    · intro s' hs'
      cases hs'
      exact ⟨a, b, p, _, hp, hfed.recv hlawful hw htaken⟩
  | drop c hc => exact h.setClient hc.1 nofun nofun nofun

theorem LiveDaemon.sound_run (hlawful : Lawful liveCapacity receiver)
    {actions : List (LiveAction ι)} {d d' : LiveDaemon ι} (h : d.Sound toJson published)
    (hrun : exec (LiveDaemon.step receiver toJson retentionSecs published) d actions = some d') :
    d'.Sound toJson published := by
  induction actions generalizing d with
  | nil =>
    cases hrun
    exact h
  | cons action actions ih =>
    obtain ⟨d₁, hstep, hrest⟩ := Option.bind_eq_some_iff.mp hrun
    exact ih (sound_step hlawful h hstep) hrest

/-- In every run of the daemon, however slow its clients are, a client that is attached has been
sent the history and then snapshots in the order they were published, each once. Of those
published since the history begins it loses none that is among the newest of the channel's
capacity; and only a client that asked for it makes the daemon stop. -/
theorem LiveDaemon.clients_fed (hlawful : Lawful liveCapacity receiver)
    {actions : List (LiveAction ι)} {d : LiveDaemon ι}
    (hrun : exec (LiveDaemon.step receiver toJson retentionSecs published) .new actions = some d) :
    (∀ c s, d.clients c = .attached s → ∃ a b p seen,
      s.Fed toJson published a b p d.sent seen ∧
        ∀ k, a ≤ k → k < d.sent → d.sent ≤ k + liveCapacity →
          k < p ∨ k ∈ seen ∨ s.next ≤ k) ∧
      (d.shutdown = true ↔ ∃ c, d.clients c = .stopping) := by
  have hsound := sound_run hlawful sound_new hrun
  refine ⟨?_, hsound.asked⟩
  intro c s hc
  obtain ⟨a, b, p, seen, -, hfed⟩ := hsound.attached c s hc
  refine ⟨a, b, p, seen, hfed, ?_⟩
  intro k _ _ hrecent
  by_contra hlost
  rw [not_or, not_or, Nat.not_lt, Nat.not_le] at hlost
  obtain ⟨hp, hseen, hnext⟩ := hlost
  have hmissed := hfed.follows.missed k (hfed.overlap.trans hp) hnext hseen
  omega

end Run

/-- One client says something else; the other attaches and reads the history and a snapshot. -/
def twoClients : List (LiveAction Bool) :=
  [.push, .send, .command false "STATUS", .command true " ATTACH", .copy true, .push,
    .writeLine true, .send, .recv true]

theorem LiveDaemon.clients_fed_two : ∃ (d : LiveDaemon Bool) (s : LiveSession) (a b p : ℕ)
    (seen : List ℕ),
      exec (LiveDaemon.step (cursor liveCapacity) sizeLine 300 numbered) .new twoClients = some d ∧
      d.clients true = .attached s ∧ s.live.length = 1 ∧ s.next = 2 ∧
      s.Fed sizeLine numbered a b p d.sent seen := by
  have hrun : exec (LiveDaemon.step (cursor liveCapacity) sizeLine 300 numbered) .new twoClients =
      some ((exec (LiveDaemon.step (cursor liveCapacity) sizeLine 300 numbered) .new
        twoClients).getD .new) := rfl
  obtain ⟨hfed, -⟩ := LiveDaemon.clients_fed (cursor_lawful liveCapacity) hrun
  obtain ⟨a, b, p, seen, h, -⟩ := hfed true _ rfl
  exact ⟨_, _, a, b, p, seen, hrun, rfl, rfl, rfl, h⟩

end Zstats
