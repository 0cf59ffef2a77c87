import Zstats.Daemon.Client
import Zstats.Daemon.Lagging

namespace Zstats

open Broadcast Segment Transition

section Run

variable {ι : Type*} [DecidableEq ι] (published : ℕ → SystemSnapshot)

/-- What the handler of a client is with a channel that never drops anything. -/
def LiveClient.unbounded (sent : ℕ) : LiveClient → Option Handler
  | .waiting => some .waiting
  | .subscribed next => some (.subscribed (segment published next sent))
  | .attached s =>
    some (.attached ⟨s.buffered, s.written, s.live, segment published s.next sent⟩)
  | .stopping | .closed => none

/-- What an action is to the clients that attach. -/
def LiveAction.unbounded : LiveAction ι → Option (DaemonAction ι)
  | .push => some .push
  | .send => some .send
  | .command c line =>
    match Command.parse line with
    | .attach => some (.subscribe c)
    | .stop | .other => none
  | .copy c => some (.copy c)
  | .writeLine c => some (.writeLine c)
  | .recv c => some (.recv c)
  | .drop _ => none

/-- A client that is read from has not fallen behind. -/
def LiveDaemon.Prompt (d : LiveDaemon ι) (action : LiveAction ι) : Prop :=
  ∀ c s, action = .recv c → d.clients c = .attached s → d.sent ≤ s.next + liveCapacity

/-- The two daemons agree, but for the clients that are gone. -/
structure LiveDaemon.Refines (d : LiveDaemon ι) (u : Daemon ι) : Prop where
  history : u.history = d.history
  pushed : u.pushed = d.pushed
  sent : u.sent = d.sent
  handlers : ∀ c h, (d.clients c).unbounded published d.sent = some h → u.handlers c = h

variable {receiver : Receiver} {toJson : SystemSnapshot → String} {retentionSecs : ℤ} {published}
  {d d' : LiveDaemon ι} {u : Daemon ι}

theorem LiveDaemon.Refines.setBoth (h : d.Refines published u) {c : ι} {client : LiveClient}
    {handler : Handler} (hclient : client.unbounded published d.sent = some handler) :
    (d.setClient c client).Refines published (u.setHandler c handler) where
  history := h.history
  pushed := h.pushed
  sent := h.sent
  handlers := by
    intro c' handler' hc'
    by_cases hself : c' = c
    · subst hself
      rw [setClient_self] at hc'
      rw [setHandler_self]
      exact Option.some.inj (hclient.symm.trans hc')
    · rw [setClient_of_ne d hself] at hc'
      rw [setHandler_of_ne u hself]
      exact h.handlers c' handler' hc'

/-- A client that is gone agrees with whatever handler it had. -/
theorem LiveDaemon.Refines.setGone (h : d.Refines published u) {c : ι} {client : LiveClient}
    (hclient : client.unbounded published d.sent = none) :
    (d.setClient c client).Refines published u where
  history := h.history
  pushed := h.pushed
  sent := h.sent
  handlers := by
    intro c' handler hc'
    by_cases hself : c' = c
    · subst hself
      rw [setClient_self] at hc'
      cases hclient.symm.trans hc'
    · rw [setClient_of_ne d hself] at hc'
      exact h.handlers c' handler hc'

omit [DecidableEq ι] in
/-- A send reaches each receiver. -/
theorem unbounded_send {client : LiveClient} {sent : ℕ} {old handler : Handler}
    (hsubscribed : ∀ next, client = .subscribed next → next ≤ sent)
    (hattached : ∀ s, client = .attached s → s.next ≤ sent)
    (hold : ∀ h, client.unbounded published sent = some h → old = h)
    (hnew : client.unbounded published (sent + 1) = some handler) :
    old.receive (published sent) = handler := by
  cases client with
  | waiting =>
    rw [hold .waiting rfl]
    exact Option.some.inj hnew
  | subscribed next =>
    rw [hold _ rfl, ← Option.some.inj hnew, segment_concat published (hsubscribed next rfl)]
    rfl
  | attached s =>
    rw [hold _ rfl, ← Option.some.inj hnew, segment_concat published (hattached s rfl)]
    rfl
  | stopping => cases hnew
  | closed => cases hnew

/-- A step is one of the daemon that drops nothing, or none. -/
theorem LiveDaemon.Refines.step (hlawful : Lawful liveCapacity receiver) (h : d.Refines published u)
    (hsound : d.Sound toJson published) {action : LiveAction ι} (hprompt : d.Prompt action)
    (hstep : d.step receiver toJson retentionSecs published action = some d') :
    ∃ u', exec (Daemon.step toJson retentionSecs published) u action.unbounded.toList = some u' ∧
      d'.Refines published u' := by
  have htook : ∀ {a : DaemonAction ι} {u' : Daemon ι},
      u.Took toJson retentionSecs published a u' →
      exec (Daemon.step toJson retentionSecs published) u [a] = some u' := by
    intro a u' ha
    rw [exec, step_of_took ha]
    rfl
  cases took_of_step hstep with
  | push hidle =>
    have hidle' : u.pushed = u.sent := by rw [h.pushed, h.sent, hidle]
    refine ⟨_, htook (.push hidle'), ?_⟩
    exact ⟨by rw [h.history, h.pushed], by rw [h.pushed], h.sent, h.handlers⟩
  | send hpushed =>
    have hpushed' : u.pushed = u.sent + 1 := by rw [h.pushed, h.sent, hpushed]
    refine ⟨_, htook (.send hpushed'), h.history, h.pushed, by rw [h.sent], ?_⟩
    intro c handler hc
    rw [h.sent]
    refine unbounded_send (hsound.subscribed c) ?_ (h.handlers c) hc
    intro s hs
    obtain ⟨a, b, p, seen, -, hfed⟩ := hsound.attached c s hs
    exact hfed.follows.next_le
  | stop c line hc hline =>
    have hnone : (LiveAction.command c line).unbounded = none := by rw [LiveAction.unbounded, hline]
    rw [hnone]
    have hgone : (d.setClient c .stopping).Refines published u := h.setGone rfl
    exact ⟨u, rfl, hgone.history, hgone.pushed, hgone.sent, hgone.handlers⟩
  | attach c line hc hline =>
    have hsome : (LiveAction.command c line).unbounded = some (.subscribe c) := by
      rw [LiveAction.unbounded, hline]
    rw [hsome]
    have hwaiting : u.handlers c = .waiting := h.handlers c .waiting (by rw [hc]; rfl)
    refine ⟨_, htook (.subscribe c hwaiting), h.setBoth ?_⟩
    rw [LiveClient.unbounded, segment_empty published le_rfl]
  | other c line hc hline =>
    have hnone : (LiveAction.command c line).unbounded = none := by rw [LiveAction.unbounded, hline]
    rw [hnone]
    exact ⟨u, rfl, h.setGone rfl⟩
  | copy c next hc =>
    have hsubscribed := h.handlers c _ (by rw [hc]; rfl)
    refine ⟨_, htook (.copy c _ hsubscribed), h.setBoth ?_⟩
    rw [h.history]
    rfl
  | writeLine c s hc hw =>
    have hattached := h.handlers c _ (by rw [hc]; rfl)
    exact ⟨_, htook (.writeLine c _ hattached hw), h.setBoth rfl⟩
  | recv c s item next hc hw htaken =>
    have hattached := h.handlers c _ (by rw [hc]; rfl)
    obtain ⟨a, b, p, seen, -, hfed⟩ := hsound.attached c s hc
    obtain ⟨hlt, rfl, rfl⟩ := hlawful.recv_prompt hfed.follows.next_le (hprompt c s rfl hc) htaken
    have hrx := segment_cons published hlt
    exact ⟨_, htook (.recv c _ _ _ hattached hrx hw), h.setBoth rfl⟩
  | drop c hc => exact ⟨u, rfl, h.setGone rfl⟩

theorem LiveDaemon.refines_run (hlawful : Lawful liveCapacity receiver)
    {actions : List (LiveAction ι)} (h : d.Refines published u) (hsound : d.Sound toJson published)
    (hprompt : EachStep (LiveDaemon.step receiver toJson retentionSecs published)
      LiveDaemon.Prompt d actions)
    (hrun : exec (LiveDaemon.step receiver toJson retentionSecs published) d actions = some d') :
    ∃ u', exec (Daemon.step toJson retentionSecs published) u
        (actions.filterMap LiveAction.unbounded) = some u' ∧ d'.Refines published u' := by
  induction actions generalizing d u with
  | nil =>
    cases hrun
    exact ⟨u, rfl, h⟩
  | cons action actions ih =>
    obtain ⟨d₁, hstep, hrest⟩ := Option.bind_eq_some_iff.mp hrun
    obtain ⟨hfirst, hothers⟩ := (eachStep_cons hstep).mp hprompt
    obtain ⟨u₁, hu₁, hrefines₁⟩ := h.step hlawful hsound hfirst hstep
    obtain ⟨u₂, hu₂, hrefines₂⟩ := ih hrefines₁ (sound_step hlawful hsound hstep) hothers hrest
    have hactions : (action :: actions).filterMap LiveAction.unbounded =
        action.unbounded.toList ++ actions.filterMap LiveAction.unbounded := by
      rw [List.filterMap_cons]
      cases action.unbounded <;> rfl
    refine ⟨u₂, ?_, hrefines₂⟩
    rw [hactions, exec_append, hu₁]
    exact hu₂

/-- Each attached handler of a daemon that drops nothing has a session without a hole. -/
def Daemon.NoHoles (toJson : SystemSnapshot → String) (published : ℕ → SystemSnapshot)
    (u : Daemon ι) : Prop :=
  ∀ c s, u.handlers c = .attached s → ∃ a b p, s.NoHole toJson published a b p u.sent

/-- A handler becomes attached by its own copy only. -/
theorem copy_of_attached {u u' : Daemon ι} {action : DaemonAction ι} {c : ι} {s : Session}
    (hstep : u.step toJson retentionSecs published action = some u')
    (hold : ∀ s, u.handlers c ≠ .attached s) (hs : u'.handlers c = .attached s) :
    action = .copy c := by
  -- a step of another handler leaves this one as it was
  have hother (c' : ι) (handler : Handler) (hne : c ≠ c') :
      (u.setHandler c' handler).handlers c ≠ .attached s := by
    rw [setHandler_of_ne u hne]
    exact hold s
  have hne {c' : ι} {s' : Session} (hc' : u.handlers c' = .attached s') : c ≠ c' := by
    rintro rfl
    exact hold s' hc'
  cases took_iff.mp hstep with
  | push hidle => exact absurd hs (hold s)
  | send hpushed =>
    have hreceive : (u.handlers c).receive (published u.sent) = .attached s := hs
    cases hc : u.handlers c with
    | attached s₀ => exact absurd hc (hold s₀)
    | waiting | subscribed _ =>
      rw [hc] at hreceive
      cases hreceive
  | subscribe c' hc' =>
    by_cases hself : c = c'
    · subst hself
      cases (setHandler_self u c _).symm.trans hs
    · exact absurd hs (hother c' _ hself)
  | copy c' rx hc' =>
    by_cases hself : c = c'
    · rw [hself]
    · exact absurd hs (hother c' _ hself)
  | writeLine c' s' hc' hw => exact absurd hs (hother c' _ (hne hc'))
  | recv c' s' snapshot rx hc' hrx hw => exact absurd hs (hother c' _ (hne hc'))

theorem noHoles_step {u u' : Daemon ι} {action : DaemonAction ι} (hordered : u.Ordered published)
    (h : u.NoHoles toJson published)
    (hstep : u.step toJson retentionSecs published action = some u') :
    u'.NoHoles toJson published := by
  intro c s hs
  by_cases hold : ∃ s₀, u.handlers c = .attached s₀
  · obtain ⟨s₀, hs₀⟩ := hold
    obtain ⟨a, b, p, hnohole⟩ := h c s₀ hs₀
    obtain ⟨s', hs', -, hnohole', -⟩ := noHole_step hs₀ hnohole hstep
    obtain rfl : s = s' := Handler.attached.inj (hs.symm.trans hs')
    exact ⟨a, b, p, hnohole'⟩
  · obtain rfl := copy_of_attached hstep (not_exists.mp hold) hs
    obtain ⟨a, b, s', hs', hnohole⟩ := noHole_copy hordered hstep
    obtain rfl : s = s' := Handler.attached.inj (hs.symm.trans hs')
    exact ⟨a, b, u.pushed, hnohole⟩

theorem noHoles_run {actions : List (DaemonAction ι)} {u u' : Daemon ι}
    (hordered : u.Ordered published) (h : u.NoHoles toJson published)
    (hrun : exec (Daemon.step toJson retentionSecs published) u actions = some u') :
    u'.NoHoles toJson published := by
  induction actions generalizing u with
  | nil =>
    cases hrun
    exact h
  | cons action actions ih =>
    obtain ⟨u₁, hstep, hrest⟩ := Option.bind_eq_some_iff.mp hrun
    exact ih (ordered_step hordered hstep) (noHoles_step hordered h hstep) hrest

/-- In a run in which no client that is read from has fallen behind by more than the capacity, the
daemon refines one whose channel drops nothing, and every client that is attached gets the history
and all that follows it without a hole. -/
theorem LiveDaemon.prompt_refines (hlawful : Lawful liveCapacity receiver)
    {actions : List (LiveAction ι)}
    (hrun : exec (LiveDaemon.step receiver toJson retentionSecs published) .new actions = some d)
    (hprompt : EachStep (LiveDaemon.step receiver toJson retentionSecs published)
      LiveDaemon.Prompt .new actions) :
    ∃ u, exec (Daemon.step toJson retentionSecs published) .new
        (actions.filterMap LiveAction.unbounded) = some u ∧ d.Refines published u ∧
      ∀ c s, d.clients c = .attached s → ∃ a b p, Session.NoHole toJson published a b p d.sent
        ⟨s.buffered, s.written, s.live, segment published s.next d.sent⟩ := by
  have hnew : (LiveDaemon.new : LiveDaemon ι).Refines published Daemon.new := by
    refine ⟨rfl, rfl, rfl, ?_⟩
    intro c h hc
    exact Option.some.inj hc
  obtain ⟨u, hu, hrefines⟩ := refines_run hlawful hnew sound_new hprompt hrun
  have hnoholes : u.NoHoles toJson published :=
    noHoles_run ordered_new (fun c s hs => Handler.noConfusion hs) hu
  refine ⟨u, hu, hrefines, ?_⟩
  intro c s hs
  have hhandler := hrefines.handlers c _ (by rw [hs]; rfl)
  rw [← hrefines.sent]
  rw [← hrefines.sent] at hhandler
  exact hnoholes c _ hhandler

end Run

theorem LiveDaemon.prompt_refines_two : ∃ (d : LiveDaemon Bool) (u : Daemon Bool) (s : LiveSession),
    exec (LiveDaemon.step (cursor liveCapacity) sizeLine 300 numbered) .new twoClients = some d ∧
    exec (Daemon.step sizeLine 300 numbered) .new
      [.push, .send, .subscribe true, .copy true, .push, .writeLine true, .send, .recv true] =
        some u ∧ d.Refines numbered u ∧ d.clients true = .attached s ∧ s.live.length = 1 := by
  have hprompt : EachStep (LiveDaemon.step (cursor liveCapacity) sizeLine 300 numbered)
      LiveDaemon.Prompt .new twoClients := by
    refine (eachStep_cons rfl).mpr ⟨nofun, ?_⟩
    refine (eachStep_cons rfl).mpr ⟨nofun, ?_⟩
    refine (eachStep_cons rfl).mpr ⟨nofun, ?_⟩
    refine (eachStep_cons rfl).mpr ⟨nofun, ?_⟩
    refine (eachStep_cons rfl).mpr ⟨nofun, ?_⟩
    refine (eachStep_cons rfl).mpr ⟨nofun, ?_⟩
    refine (eachStep_cons rfl).mpr ⟨nofun, ?_⟩
    refine (eachStep_cons rfl).mpr ⟨nofun, ?_⟩
    refine (eachStep_cons rfl).mpr ⟨?_, eachStep_nil _ _⟩
    intro c s _ _
    have hsent : 2 ≤ liveCapacity := by decide
    exact hsent.trans (Nat.le_add_left _ _)
  have hrun : exec (LiveDaemon.step (cursor liveCapacity) sizeLine 300 numbered) .new twoClients =
      some ((exec (LiveDaemon.step (cursor liveCapacity) sizeLine 300 numbered) .new
        twoClients).getD .new) := rfl
  obtain ⟨u, hu, hrefines, -⟩ := LiveDaemon.prompt_refines (cursor_lawful liveCapacity) hrun hprompt
  exact ⟨_, u, _, hrun, hu, hrefines, rfl, rfl⟩

end Zstats
