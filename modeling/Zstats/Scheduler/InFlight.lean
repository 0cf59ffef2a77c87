import Zstats.Scheduler.Model

namespace Zstats.Scheduler

open Transition

/-- `in_flight` is set whenever some blocking collect is queued or running. -/
def Covered (s : State) : Prop :=
  ∀ c ∈ s.calls, c.collecting = true → s.inFlight = true

/-- No store of `false` while a blocking collect is queued or running, and no `spawn_blocking`
after somebody else has undone the call's own store of `true`. -/
def Exclusive (s : State) : Action → Prop
  | .call _ .finish | .call _ .reap => ∀ c ∈ s.calls, c.collecting = false
  | .call _ .spawn => s.inFlight = true
  | _ => True

/-- A tick that collects finds no blocking collect queued or running. -/
def TickAlone (s : State) (a : Action) : Prop :=
  a = .tick → s.inFlight = false → ∀ c ∈ s.calls, c.collecting = false

theorem covered_init : Covered init := by
  intro c hc
  simp [init] at hc

theorem mem_set_of_ne {l : List Call} {i : Nat} {c c' d : Call} (hi : l[i]? = some c)
    (hd : d ∈ l) (hne : d ≠ c) : d ∈ l.set i c' := by
  obtain ⟨j, hj⟩ := List.mem_iff_getElem?.mp hd
  have hij : i ≠ j := by
    rintro rfl
    exact hne (Option.some.inj (hj.symm.trans hi))
  exact List.mem_iff_getElem?.mpr ⟨j, by rw [List.getElem?_set_ne hij, hj]⟩

theorem mem_set_self {l : List Call} {i : Nat} {c : Call} (hi : l[i]? = some c) (c' : Call) :
    c' ∈ l.set i c' := by
  obtain ⟨hlt, -⟩ := List.getElem?_eq_some_iff.mp hi
  exact List.mem_set hlt c'

/-- One step decides coverage by itself: from a covered state it leads to a covered one exactly
when it is exclusive. -/
theorem covered_step_iff {s u : State} {a : Action} (hs : Covered s) (h : step s a = some u) :
    Covered u ↔ Exclusive s a := by
  obtain ⟨rfl, hf, rfl⟩ | ⟨rfl, hf, rfl⟩ | ⟨rfl, rfl⟩ | ⟨i, op, c, c', w, rfl, hi, ha, rfl⟩ :=
    step_cases h
  · exact ⟨fun _ => trivial, fun _ => hs⟩
  · exact ⟨fun _ => trivial, fun _ _ _ _ => rfl⟩
  · refine ⟨fun _ => trivial, fun _ c hc hcol => ?_⟩
    rcases List.mem_append.mp hc with hc | hc
    · exact hs c hc hcol
    · rw [List.mem_singleton.mp hc] at hcol
      cases hcol
  · have hmem : c ∈ s.calls := List.mem_of_getElem? hi
    match w with
    | some true =>
      have hop : Exclusive s (.call i op) := by
        unfold advance at ha
        split at ha <;> first | exact trivial | simp at ha
      exact ⟨fun _ => hop, fun _ _ _ _ => rfl⟩
    | some false =>
      obtain ⟨hop, -, -, hc, hc'⟩ := advance_false ha
      have hiff : Exclusive s (.call i op) ↔ ∀ d ∈ s.calls, d.collecting = false := by
        rcases hop with rfl | rfl <;> exact Iff.rfl
      rw [hiff]
      constructor
      · intro hu d hd
        by_cases hdc : d = c
        · rw [hdc, hc]
        · by_contra hcol
          have hfalse := hu d (mem_set_of_ne hi hd hdc) (by simpa using hcol)
          simp at hfalse
      · intro hall d hd hcol
        rcases List.mem_or_eq_of_mem_set hd with hd | rfl
        · rw [hall d hd] at hcol
          cases hcol
        · rw [hc'] at hcol
          cases hcol
    | none =>
      obtain ⟨hfin, hreap, -, hspawn, hkeep⟩ := advance_none ha
      by_cases hop : op = .spawn
      · subst hop
        change Covered _ ↔ s.inFlight = true
        refine ⟨fun hu => hu c' (mem_set_self hi c') (hspawn rfl), fun hf _ _ _ => hf⟩
      · have hex : Exclusive s (.call i op) := by
          cases op <;> first | exact trivial | simp_all
        refine ⟨fun _ => hex, fun _ d hd hcol => ?_⟩
        rcases List.mem_or_eq_of_mem_set hd with hd | rfl
        · exact hs d hd hcol
        · exact hs c hmem (hkeep hop hcol)

/-- The calls that still owe a store of `false`, and one more where the flag is down. -/
def State.load (s : State) : Nat := s.calls.countP Call.owing + if s.inFlight then 0 else 1

/-- A tick collects only where the flag is down, so only `collect_once` adds to the load. -/
theorem load_step {s u : State} {a : Action} (h : step s a = some u) :
    u.load ≤ s.load + if a = .collectOnce then 1 else 0 := by
  obtain ⟨rfl, hf, rfl⟩ | ⟨rfl, hf, rfl⟩ | ⟨rfl, rfl⟩ | ⟨i, op, c, c', w, rfl, hi, ha, rfl⟩ :=
    step_cases h
  · simp
  · simp [State.load, hf, enter, Call.owing]
  · simp [State.load, enter, Call.owing]
    omega
  · obtain ⟨hlt, hget⟩ := List.getElem?_eq_some_iff.mp hi
    have hset := List.countP_set (p := Call.owing) (a := c') hlt
    rw [hget] at hset
    have hpos : c.owing = true → 0 < s.calls.countP Call.owing := fun ho =>
      List.countP_pos_iff.mpr ⟨c, List.mem_of_getElem? hi, ho⟩
    simp only [State.load, hset, reduceCtorEq, if_false, Nat.add_zero]
    cases w with
    | some written =>
      cases written with
      | true =>
        obtain ⟨ho, ho', -⟩ := advance_true ha
        have := hpos ho
        simp only [ho, ho', Option.getD_some, if_true]
        omega
      | false =>
        obtain ⟨-, ho, ho', -⟩ := advance_false ha
        have := hpos ho
        simp only [ho, ho', Option.getD_some, if_true, Bool.false_eq_true, if_false]
        split_ifs <;> omega
    | none =>
      obtain ⟨-, -, hkeep, -⟩ := advance_none ha
      simp only [Option.getD_none]
      cases ho' : c'.owing
      · simp only [Bool.false_eq_true, if_false]
        split_ifs <;> omega
      · have ho := hkeep ho'
        have := hpos ho
        simp only [ho, if_true]
        omega

theorem load_run {s u : State} {acts : List Action} (h : exec step s acts = some u) :
    u.load ≤ s.load + acts.count .collectOnce := by
  induction acts generalizing s with
  | nil =>
    cases h
    simp
  | cons a acts ih =>
    obtain ⟨t, ha, ht⟩ := Option.bind_eq_some_iff.mp h
    have hstep := load_step ha
    have hrest := ih ht
    by_cases hc : a = .collectOnce
    · subst hc
      simp only [if_true, List.count_cons_self] at *
      omega
    · rw [List.count_cons_of_ne hc]
      simp only [hc, if_false] at hstep
      omega

theorem collecting_le_load (s : State) : s.calls.countP Call.collecting ≤ s.load := by
  have hmono : s.calls.countP Call.collecting ≤ s.calls.countP Call.owing := by
    apply List.countP_mono_left
    rintro ⟨k, stage⟩ - hcol
    cases stage <;> simp_all [Call.collecting, Call.owing, Call.alive, Call.task?]
  exact hmono.trans (Nat.le_add_right _ _)

/-- `in_flight` covers every collect of a run exactly when each step is exclusive; the loop then
never collects beside another collect, and in any run the collects queued or running number at
most one more than the calls of `collect_once`, however many ticks there were. -/
theorem in_flight_covers_iff (acts : List Action) (s : State)
    (h : exec step init acts = some s) :
    (EachState step Covered init acts ↔ EachStep step Exclusive init acts) ∧
    (EachStep step Exclusive init acts → EachStep step TickAlone init acts) ∧
    s.calls.countP Call.collecting ≤ 1 + acts.count .collectOnce := by
  have hforward : EachStep step Exclusive init acts → EachState step Covered init acts :=
    eachState_of_eachStep (fun t a u ht hex hu => (covered_step_iff ht hu).mpr hex) covered_init
  have hback : EachState step Covered init acts → EachStep step Exclusive init acts :=
    eachStep_of_eachState (fun t a u ht hu hstep => (covered_step_iff ht hstep).mp hu) h
  have halone : EachState step Covered init acts → EachStep step TickAlone init acts :=
    eachStep_of_eachState (fun t a u ht _ _ _ hf c hc => by
      by_contra hcol
      have := ht c hc (by simpa using hcol)
      simp [hf] at this) h
  refine ⟨⟨hback, hforward⟩, fun hex => halone (hforward hex), ?_⟩
  have hload := load_run h
  have hinit : init.load = 1 := rfl
  have := collecting_le_load s
  omega

/-- A `collect_once` that comes before the loop's task has lowered the flag, and spawns its own
when it has. -/
def inTurn : List Action :=
  [.tick, .call 0 .store, .call 0 .spawn, .call 0 .acquire, .call 0 .collected, .collectOnce,
    .call 0 .finish, .call 1 .store, .call 0 .join, .call 1 .spawn, .tick]

theorem in_flight_covers_inTurn :
    ∃ s, exec step init inTurn = some s ∧
      (EachState step Covered init inTurn ↔ EachStep step Exclusive init inTurn) ∧
      (EachStep step Exclusive init inTurn → EachStep step TickAlone init inTurn) ∧
      s.calls.countP Call.collecting ≤ 1 + inTurn.count .collectOnce :=
  ⟨⟨true, [⟨.loop, .spawned false .ended⟩, ⟨.onDemand, .spawned true .queued⟩]⟩, by decide,
    in_flight_covers_iff inTurn _ (by decide)⟩

/-- `collect_once` slips in before the loop's task takes the lock; that task then clears the
flag over the second one, and the next tick starts a third. -/
def overlap : List Action :=
  [.tick, .call 0 .store, .call 0 .spawn, .collectOnce, .call 1 .store, .call 1 .spawn,
    .call 0 .acquire, .call 0 .collected, .call 0 .finish, .call 0 .join]

theorem overlap_uncovered :
    ∃ s, exec step init overlap = some s ∧ ¬ Covered s ∧ ¬ TickAlone s .tick ∧
      ∃ u, step s .tick = some u ∧ u.calls.length = 3 ∧ u.calls.countP Call.collecting = 1 := by
  refine ⟨⟨false, [⟨.loop, .spawned false .ended⟩, ⟨.onDemand, .spawned true .queued⟩]⟩,
    by decide, ?_, ?_, ⟨true, [⟨.loop, .spawned false .ended⟩,
      ⟨.onDemand, .spawned true .queued⟩, enter .loop]⟩, by decide, by decide, by decide⟩
  · intro hcov
    exact absurd (hcov ⟨.onDemand, .spawned true .queued⟩ (by decide) (by decide)) (by decide)
  · intro halone
    exact absurd (halone rfl rfl ⟨.onDemand, .spawned true .queued⟩ (by decide)) (by decide)

end Zstats.Scheduler
