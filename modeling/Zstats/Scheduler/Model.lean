import Zstats.Framework.Transition
import Mathlib.Data.List.Count

namespace Zstats.Scheduler

/-- Who calls `collect_snapshot`: the loop of `Scheduler::start`, or `collect_once`. -/
inductive Caller where
  | loop
  | onDemand
  deriving DecidableEq, Repr

/-- Where a spawned blocking task stands. -/
inductive Task where
  /-- In `lock_collector`. -/
  | queued
  /-- In `collect`, holding the collector lock. -/
  | running
  /-- The guard is dropped, `done.store(false)` comes next. -/
  | released
  | ended
  /-- Unwound out of `collect`, which drops the guard but stores nothing. -/
  | panicked
  deriving DecidableEq, Repr

/-- Where a `collect_snapshot` call stands. Nothing is awaited before `spawn_blocking`, so a
call can be dropped only once it is `spawned`. -/
inductive Stage where
  /-- `in_flight.store(true)` comes next. -/
  | entered
  /-- `spawn_blocking` comes next. -/
  | stored
  /-- `waiting` until the call returns, times out or is dropped, and the join handle with it;
  the task goes on by itself. -/
  | spawned (waiting : Bool) (task : Task)
  deriving DecidableEq, Repr

structure Call where
  caller : Caller
  stage : Stage
  deriving DecidableEq, Repr

/-- `Scheduler::in_flight` and every `collect_snapshot` call so far, oldest first. -/
structure State where
  inFlight : Bool
  calls : List Call
  deriving DecidableEq, Repr

/-- `Scheduler::new`. -/
def init : State := ⟨false, []⟩

/-- One atomic step of one call: of the waiter (`store`, `spawn`, `join`, `reap`, `timeout`,
`cancel`) or of its blocking task (`acquire`, `collected`, `finish`, `panic`). -/
inductive Op where
  | store
  | spawn
  | acquire
  | collected
  | finish
  | panic
  /-- The waiter sees `Ok(Ok(result))`. -/
  | join
  /-- The waiter sees `Ok(Err(join_err))` and stores `false` itself. -/
  | reap
  | timeout
  /-- The future of `collect_once` is dropped. -/
  | cancel
  deriving DecidableEq, Repr

inductive Action where
  | tick
  | collectOnce
  | call (i : Nat) (op : Op)
  deriving DecidableEq, Repr

/-- The call after `op`, with the value `op` stores into `in_flight`, if any. -/
def advance : Op → Call → Option (Call × Option Bool)
  | .store, ⟨k, .entered⟩ => some (⟨k, .stored⟩, some true)
  | .spawn, ⟨k, .stored⟩ => some (⟨k, .spawned true .queued⟩, none)
  | .acquire, ⟨k, .spawned w .queued⟩ => some (⟨k, .spawned w .running⟩, none)
  | .collected, ⟨k, .spawned w .running⟩ => some (⟨k, .spawned w .released⟩, none)
  | .finish, ⟨k, .spawned w .released⟩ => some (⟨k, .spawned w .ended⟩, some false)
  | .panic, ⟨k, .spawned w .running⟩ => some (⟨k, .spawned w .panicked⟩, none)
  | .join, ⟨k, .spawned true .ended⟩ => some (⟨k, .spawned false .ended⟩, none)
  | .reap, ⟨k, .spawned true .panicked⟩ => some (⟨k, .spawned false .panicked⟩, some false)
  | .timeout, ⟨k, .spawned true t⟩ => some (⟨k, .spawned false t⟩, none)
  | .cancel, ⟨.onDemand, .spawned true t⟩ => some (⟨.onDemand, .spawned false t⟩, none)
  | _, _ => none

namespace Call

def task? (c : Call) : Option Task :=
  match c.stage with
  | .spawned _ t => some t
  | _ => none

/-- The `collect_snapshot` call has not returned, timed out or been dropped. -/
def pending (c : Call) : Bool :=
  match c.stage with
  | .spawned w _ => w
  | _ => true

/-- The blocking collect is queued on the collector lock or running. -/
def collecting (c : Call) : Bool := c.task? = some .queued || c.task? = some .running

/-- The blocking task has been spawned and has neither returned nor panicked. -/
def alive (c : Call) : Bool := c.collecting || c.task? = some .released

/-- A store of `false` is still to come from this call: from its task, or from its waiter
after a panic. -/
def owing (c : Call) : Bool :=
  match c.stage with
  | .entered | .stored => true
  | .spawned w t => c.alive || (w && t = .panicked)

end Call

def enter (k : Caller) : Call := ⟨k, .entered⟩

/-- Some blocking task holds the collector lock. -/
def State.locked (s : State) : Bool := s.calls.any fun c => c.task? = some .running

/-- The loop awaits its own call, so its `select!` polls no ticker. -/
def State.loopBusy (s : State) : Bool :=
  s.calls.any fun c => c.caller = .loop && c.pending

/-- One atomic step of the system; `none` where the action is not enabled.

`tick` is `in_flight.swap(true)` and the branch on its result. `collectOnce` takes the
collector lock for a moment to read `collect_timeout`, so it needs the lock free. That
`&mut self` lets one `collect_once` run at a time is not relied on. -/
def step (s : State) : Action → Option State
  | .tick =>
    if s.loopBusy then none
    else if s.inFlight then some s
    else some ⟨true, s.calls ++ [enter .loop]⟩
  | .collectOnce =>
    if s.locked then none else some ⟨s.inFlight, s.calls ++ [enter .onDemand]⟩
  | .call i op =>
    if op = .acquire ∧ s.locked then none
    else (s.calls[i]?).bind fun c => (advance op c).map fun (c', w) =>
      ⟨w.getD s.inFlight, s.calls.set i c'⟩

/-- What `step` can do, less the guards on the lock and on the loop. -/
theorem step_cases {s u : State} {a : Action} (h : step s a = some u) :
    (a = .tick ∧ s.inFlight = true ∧ u = s) ∨
    (a = .tick ∧ s.inFlight = false ∧ u = ⟨true, s.calls ++ [enter .loop]⟩) ∨
    (a = .collectOnce ∧ u = ⟨s.inFlight, s.calls ++ [enter .onDemand]⟩) ∨
    ∃ i op c c' w, a = .call i op ∧ s.calls[i]? = some c ∧ advance op c = some (c', w) ∧
      u = ⟨w.getD s.inFlight, s.calls.set i c'⟩ := by
  cases a with
  | tick =>
    simp only [step] at h
    split_ifs at h with hb hf
    · left
      exact ⟨rfl, hf, (Option.some.inj h).symm⟩
    · right; left
      exact ⟨rfl, by simpa using hf, (Option.some.inj h).symm⟩
  | collectOnce =>
    simp only [step] at h
    split_ifs at h
    right; right; left
    exact ⟨rfl, (Option.some.inj h).symm⟩
  | call i op =>
    simp only [step] at h
    split_ifs at h
    obtain ⟨c, hc, hm⟩ := Option.bind_eq_some_iff.mp h
    obtain ⟨⟨c', w⟩, ha, hu⟩ := Option.map_eq_some_iff.mp hm
    right; right; right
    exact ⟨i, op, c, c', w, rfl, hc, ha, hu.symm⟩

section Advance

variable {op : Op} {c c' : Call} {w : Option Bool}

/-- The only store of `true` comes first thing, before the task exists. -/
theorem advance_true (h : advance op c = some (c', some true)) :
    c.owing = true ∧ c'.owing = true ∧ c.collecting = false ∧ c'.collecting = false := by
  unfold advance at h
  split at h <;> simp only [Option.some.injEq, Prod.mk.injEq, reduceCtorEq, and_false,
    Bool.false_eq_true] at h
  obtain ⟨rfl, -⟩ := h
  exact ⟨rfl, rfl, rfl, rfl⟩

/-- A store of `false` settles what the call owed, and its own task is over by then. -/
theorem advance_false (h : advance op c = some (c', some false)) :
    (op = .finish ∨ op = .reap) ∧ c.owing = true ∧ c'.owing = false ∧
      c.collecting = false ∧ c'.collecting = false := by
  unfold advance at h
  split at h <;> simp only [Option.some.injEq, Prod.mk.injEq, reduceCtorEq, and_false,
    Bool.true_eq_false] at h
  all_goals
    obtain ⟨rfl, -⟩ := h
    simp [Call.owing, Call.alive, Call.collecting, Call.task?]

/-- A step that stores nothing makes no call owe anew, and makes a collect only by `spawn`. -/
theorem advance_none (h : advance op c = some (c', none)) :
    op ≠ .finish ∧ op ≠ .reap ∧ (c'.owing = true → c.owing = true) ∧
      (op = .spawn → c'.collecting = true) ∧
      (op ≠ .spawn → c'.collecting = true → c.collecting = true) := by
  unfold advance at h
  split at h <;> simp only [Option.some.injEq, Prod.mk.injEq, reduceCtorEq, and_false,
    and_true] at h
  all_goals
    subst h
    simp_all [Call.owing, Call.alive, Call.collecting, Call.task?]

end Advance

end Zstats.Scheduler
