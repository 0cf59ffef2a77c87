import Zstats.Scheduler.InFlight

namespace Zstats.Scheduler

open Transition

/-- No blocking collect is alive and no `collect_snapshot` call is pending. -/
def Idle (s : State) : Prop := ∀ c ∈ s.calls, c.alive = false ∧ c.pending = false

/-- An idle scheduler has the flag down, and its next tick collects. -/
def Ready (s : State) : Prop :=
  Idle s → s.inFlight = false ∧ step s .tick = some ⟨true, s.calls ++ [enter .loop]⟩

/-- The step after which a panic is seen by no waiter: the task panics with its waiter gone, or
the waiter goes before it has seen the panic. -/
def abandons : Op → Call → Bool
  | .panic, ⟨_, .spawned false .running⟩ => true
  | .timeout, ⟨_, .spawned true .panicked⟩ => true
  | .cancel, ⟨_, .spawned true .panicked⟩ => true
  | _, _ => false

/-- A panic goes unseen only where the flag is down already or another call will still take it
down. -/
def Attended (s : State) : Action → Prop
  | .call i op => ∀ c, s.calls[i]? = some c → abandons op c = true →
      s.inFlight = false ∨ ∃ j d, j ≠ i ∧ s.calls[j]? = some d ∧ d.owing = true
  | _ => True

/-- Where the flag is up, some call still owes taking it down. -/
def Owed (s : State) : Prop := s.inFlight = true → ∃ c ∈ s.calls, c.owing = true

theorem owed_init : Owed init := by
  intro h
  cases h

theorem abandons_iff {op : Op} {c c' : Call} {w : Option Bool}
    (h : advance op c = some (c', w)) :
    abandons op c = true ↔ w = none ∧ c.owing = true ∧ c'.owing = false := by
  unfold advance at h
  split at h <;> simp only [Option.some.injEq, Prod.mk.injEq, reduceCtorEq] at h
  all_goals
    obtain ⟨rfl, rfl⟩ := h
    simp [abandons, Call.owing, Call.alive, Call.collecting, Call.task?]
  all_goals
    rename_i k w
    cases w <;> simp

/-- One step decides whether the flag stays owed: exactly when no panic is left unattended. -/
theorem owed_step_iff {s u : State} {a : Action} (hs : Owed s) (h : step s a = some u) :
    Owed u ↔ Attended s a := by
  obtain ⟨rfl, hf, rfl⟩ | ⟨rfl, hf, rfl⟩ | ⟨rfl, rfl⟩ | ⟨i, op, c, c', w, rfl, hi, ha, rfl⟩ :=
    step_cases h
  · exact ⟨fun _ => trivial, fun _ => hs⟩
  · exact ⟨fun _ => trivial, fun _ _ => ⟨enter .loop, by simp, rfl⟩⟩
  · exact ⟨fun _ => trivial, fun _ _ => ⟨enter .onDemand, by simp, rfl⟩⟩
  · have hab := abandons_iff ha
    have hself : c' ∈ s.calls.set i c' := mem_set_self hi c'
    have hother (j : Nat) (d : Call) (hj : j ≠ i) (hd : s.calls[j]? = some d) :
        d ∈ s.calls.set i c' :=
      List.mem_iff_getElem?.mpr ⟨j, by rw [List.getElem?_set_ne (Ne.symm hj), hd]⟩
    constructor
    · intro hu d hd hdrop
      obtain rfl : d = c := Option.some.inj (hd.symm.trans hi)
      obtain ⟨rfl, -, hc'⟩ := hab.mp hdrop
      cases hf : s.inFlight
      · exact Or.inl rfl
      · right
        obtain ⟨e, he, hoe⟩ := hu hf
        obtain ⟨j, hj⟩ := List.mem_iff_getElem?.mp he
        have hji : j ≠ i := by
          rintro rfl
          obtain ⟨hlt, -⟩ := List.getElem?_eq_some_iff.mp hi
          rw [List.getElem?_set_self hlt] at hj
          rw [← Option.some.inj hj, hc'] at hoe
          cases hoe
        exact ⟨j, e, hji, by rwa [List.getElem?_set_ne (Ne.symm hji)] at hj, hoe⟩
    · intro hatt hf
      cases hdrop : abandons op c
      · match w with
        | some true => exact ⟨c', hself, (advance_true ha).2.1⟩
        | some false => cases hf
        | none =>
          obtain ⟨d, hd, hod⟩ := hs hf
          obtain ⟨j, hj⟩ := List.mem_iff_getElem?.mp hd
          by_cases hji : j = i
          · obtain rfl : d = c := Option.some.inj (hj.symm.trans (hji ▸ hi))
            refine ⟨c', hself, ?_⟩
            by_contra hc'
            have := hab.mpr ⟨rfl, hod, by simpa using hc'⟩
            simp [hdrop] at this
          · exact ⟨d, hother j d hji hj, hod⟩
      · obtain ⟨rfl, -, -⟩ := hab.mp hdrop
        rcases hatt c hi hdrop with hdown | ⟨j, d, hji, hd, hod⟩
        · exact absurd hf (by simp [hdown])
        · exact ⟨d, hother j d hji hd, hod⟩

theorem idle_not_owing {c : Call} (h : c.alive = false ∧ c.pending = false) :
    c.owing = false := by
  obtain ⟨k, stage⟩ := c
  obtain ⟨ha, hp⟩ := h
  cases stage with
  | entered => cases hp
  | stored => cases hp
  | spawned w t =>
    obtain rfl : w = false := hp
    simp [Call.owing, ha]

theorem ready_of_owed {s : State} (h : Owed s) : Ready s := by
  intro hidle
  have hf : s.inFlight = false := by
    by_contra hf
    obtain ⟨c, hc, ho⟩ := h (by simpa using hf)
    rw [idle_not_owing (hidle c hc)] at ho
    cases ho
  have hb : s.loopBusy = false := by
    simp only [State.loopBusy, List.any_eq_false]
    intro c hc
    simp [(hidle c hc).2]
  exact ⟨hf, by simp [step, hb, hf]⟩

theorem timeout_pending {s : State} {i : Nat} {c : Call} (hi : s.calls[i]? = some c)
    (hp : c.pending = true) (ho : c.owing = false) :
    ∃ c', step s (.call i .timeout) = some ⟨s.inFlight, s.calls.set i c'⟩ ∧
      c'.pending = false ∧ c'.owing = false := by
  obtain ⟨k, stage⟩ := c
  cases stage with
  | entered => cases ho
  | stored => cases ho
  | spawned w t =>
    obtain rfl : w = true := hp
    refine ⟨⟨k, .spawned false t⟩, by simp [step, hi, advance], rfl, ?_⟩
    cases t <;> simp_all [Call.owing, Call.alive, Call.collecting, Call.task?]

/-- With nothing owed, the waiters still there can only leave, and the flag stays as it is. -/
theorem settles_idle (s : State) (h : ∀ c ∈ s.calls, c.owing = false) :
    ∃ rest v, exec step s rest = some v ∧ Idle v ∧ v.inFlight = s.inFlight := by
  induction hn : s.calls.countP Call.pending generalizing s with
  | zero =>
    refine ⟨[], s, rfl, fun c hc => ?_, rfl⟩
    have hp : c.pending = false := by
      simpa using List.countP_eq_zero.mp hn c hc
    have ho := h c hc
    obtain ⟨k, stage⟩ := c
    cases stage <;> simp_all [Call.pending, Call.owing]
  | succ n ih =>
    obtain ⟨c, hc, hp⟩ := List.countP_pos_iff.mp (by omega : 0 < s.calls.countP Call.pending)
    obtain ⟨i, hi⟩ := List.mem_iff_getElem?.mp hc
    obtain ⟨c', hstep, hp', ho'⟩ := timeout_pending hi hp (h c hc)
    obtain ⟨hlt, hget⟩ := List.getElem?_eq_some_iff.mp hi
    have hcount := List.countP_set (p := Call.pending) (a := c') hlt
    simp only [hget, hp, hp', if_true, Bool.false_eq_true, if_false] at hcount
    have hleft : ∀ d ∈ s.calls.set i c', d.owing = false := by
      intro d hd
      rcases List.mem_or_eq_of_mem_set hd with hd | rfl
      · exact h d hd
      · exact ho'
    obtain ⟨rest, v, hv, hidle, hflag⟩ := ih ⟨s.inFlight, s.calls.set i c'⟩ hleft
      (by simp only [hcount]; omega)
    exact ⟨.call i .timeout :: rest, v, by simp [exec, hstep, hv], hidle, hflag⟩

/-- Every idle state of a run has the flag down and a tick that collects, as long as each panic
is attended; from the first step that leaves one unattended, the run can end idle with the flag up
for good. -/
theorem in_flight_released (acts : List Action) (s : State)
    (h : exec step init acts = some s) :
    (EachStep step Attended init acts → EachState step Ready init acts) ∧
    ∀ pre a t, pre ++ [a] <+: acts → exec step init pre = some t →
      EachStep step Attended init pre → ¬ Attended t a →
        ∃ rest v, exec step t (a :: rest) = some v ∧ Idle v ∧ v.inFlight = true := by
  have howed (acts : List Action) (hatt : EachStep step Attended init acts) :
      EachState step Owed init acts :=
    eachState_of_eachStep (fun t a u ht hC hu => (owed_step_iff ht hu).mpr hC) owed_init hatt
  constructor
  · intro hatt
    exact eachState_mono (fun t => ready_of_owed) (howed acts hatt)
  · intro pre a t hp ht hatt hnot
    obtain ⟨u, hu⟩ := exec_prefix hp h
    have hstep : step t a = some u := by
      obtain ⟨t', ht', hstep⟩ := (exec_concat_iff init u pre a).mp hu
      cases ht.symm.trans ht'
      exact hstep
    have hbreak : ¬ Owed u :=
      fun hu => hnot ((owed_step_iff (howed pre hatt pre t List.prefix_rfl ht) hstep).mp hu)
    simp only [Owed, not_forall, not_exists, not_and] at hbreak
    obtain ⟨hf, hnone⟩ := hbreak
    obtain ⟨rest, v, hv, hidle, hflag⟩ := settles_idle u (fun c hc => by simpa using hnone c hc)
    exact ⟨rest, v, by simp [exec, hstep, hv], hidle, hflag.trans hf⟩

/-- The loop's collect panics while its waiter is still there to see it. -/
def seenPanic : List Action :=
  [.tick, .call 0 .store, .call 0 .spawn, .call 0 .acquire, .call 0 .panic, .call 0 .reap, .tick]

theorem in_flight_released_seenPanic :
    ∃ s, exec step init seenPanic = some s ∧
      (EachStep step Attended init seenPanic → EachState step Ready init seenPanic) ∧
      ∀ pre a t, pre ++ [a] <+: seenPanic → exec step init pre = some t →
        EachStep step Attended init pre → ¬ Attended t a →
          ∃ rest v, exec step t (a :: rest) = some v ∧ Idle v ∧ v.inFlight = true :=
  ⟨⟨true, [⟨.loop, .spawned false .panicked⟩, enter .loop]⟩, by decide,
    in_flight_released seenPanic ⟨true, [⟨.loop, .spawned false .panicked⟩, enter .loop]⟩
      (by decide)⟩

/-- The collect outlives `collect_timeout` and panics afterwards. -/
def latePanic : List Action :=
  [.tick, .call 0 .store, .call 0 .spawn, .call 0 .acquire, .call 0 .timeout, .call 0 .panic]

/-- Nothing is alive or pending any more, yet every further tick is skipped. -/
theorem latePanic_wedged :
    ∃ s, exec step init latePanic = some s ∧ Idle s ∧ s.inFlight = true ∧
      step s .tick = some s := by
  refine ⟨⟨true, [⟨.loop, .spawned false .panicked⟩]⟩, by decide, ?_, rfl, by decide⟩
  intro c hc
  rw [List.mem_singleton.mp hc]
  exact ⟨rfl, rfl⟩

end Zstats.Scheduler
