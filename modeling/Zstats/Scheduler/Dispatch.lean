import Mathlib.Logic.Function.Basic
import Mathlib.Data.List.Nodup
import Zstats.Framework.Transition
import Zstats.Scheduler.Model

namespace Zstats.Dispatch

open Scheduler (Caller)
open Transition

/-- Where a loop, or the future of a `collect_once`, stands. -/
inductive Stage where
  /-- In `select!`. -/
  | idle
  | collecting
  /-- `dispatch` comes next. -/
  | holding (snapshot : ℕ)
  /-- Awaiting the handles of a round. -/
  | dispatching (round : ℕ)
  | ended
  deriving DecidableEq, Repr

structure Worker where
  caller : Caller
  stage : Stage
  /-- `shutdown_rx` resolves. -/
  signalled : Bool
  deriving DecidableEq, Repr

/-- Where the task of one sink stands: a snapshot is taken once, if at all, before the write has
returned, failed or timed out. -/
inductive Write where
  | spawned
  | taken
  | ended
  deriving DecidableEq, Repr

/-- One call of `dispatch`. -/
structure Round where
  worker : ℕ
  snapshot : ℕ
  writes : ℕ → Write

def Round.set (round : Round) (i : ℕ) (write : Write) : Round :=
  { round with writes := Function.update round.writes i write }

/-- The call that has borrowed the scheduler, and the worker it waits for. -/
inductive Borrow where
  | stop (worker : ℕ)
  | collectOnce (worker : ℕ)
  deriving DecidableEq, Repr

/-- Snapshots are numbered in the order in which they were collected, workers and rounds in that in
which they began. `running` is `shutdown_tx`, with `loop_handle`. -/
structure State where
  collected : ℕ
  workers : ℕ → Worker
  spawned : ℕ
  rounds : ℕ → Round
  dispatched : ℕ
  running : Option ℕ
  borrow : Option Borrow
  gone : Bool
  /-- The rounds and sinks whose snapshots were taken, in order. -/
  deliveries : List (ℕ × ℕ)

/-- `Scheduler::new`. -/
def init : State where
  collected := 0
  workers _ := ⟨.loop, .ended, false⟩
  spawned := 0
  rounds _ := ⟨0, 0, fun _ => .ended⟩
  dispatched := 0
  running := none
  borrow := none
  gone := false
  deliveries := []

inductive WorkerOp where
  /-- A tick that is not skipped. -/
  | tick
  | exit
  | collected
  /-- The collect failed, timed out or panicked. -/
  | failed
  | dispatch
  | dispatched
  deriving DecidableEq, Repr

inductive WriteOp where
  | take
  /-- It returned, failed, panicked or timed out. -/
  | finish
  deriving DecidableEq, Repr

inductive Action where
  | start
  | stop
  | collectOnce
  /-- What the borrowing call waits for is there. -/
  | resume
  /-- The future of the borrowing call is dropped. -/
  | forget
  | drop
  | worker (k : ℕ) (op : WorkerOp)
  | write (r i : ℕ) (op : WriteOp)
  deriving DecidableEq, Repr

namespace State

/-- No call may be made: the scheduler is borrowed, or was dropped. -/
def busy (s : State) : Bool := s.gone || s.borrow.isSome

def setWorker (s : State) (k : ℕ) (w : Worker) : State :=
  { s with workers := Function.update s.workers k w }

def setStage (s : State) (k : ℕ) (stage : Stage) : State :=
  s.setWorker k { s.workers k with stage := stage }

/-- The sender is used or dropped. -/
def signal (s : State) (k : ℕ) : State := s.setWorker k { s.workers k with signalled := true }

def spawn (s : State) (caller : Caller) (stage : Stage) : State :=
  { s.setWorker s.spawned ⟨caller, stage, false⟩ with spawned := s.spawned + 1 }

def setWrite (s : State) (r i : ℕ) (write : Write) : State :=
  { s with rounds := Function.update s.rounds r ((s.rounds r).set i write) }

/-- Every write of the round has ended. -/
def Closed (s : State) (sinks r : ℕ) : Prop := ∀ i < sinks, (s.rounds r).writes i = .ended

instance (s : State) (sinks r : ℕ) : Decidable (s.Closed sinks r) :=
  inferInstanceAs (Decidable (∀ i < sinks, _))

end State

/-- Where a worker goes on after a collect or a round. -/
def rest : Caller → Stage
  | .loop => .idle
  | .onDemand => .ended

section

variable (sinks : ℕ)

def workerStep (s : State) (k : ℕ) : WorkerOp → Option State
  | .tick =>
    if (s.workers k).caller = .loop ∧ (s.workers k).stage = .idle then
      some (s.setStage k .collecting)
    else none
  | .exit =>
    if (s.workers k).caller = .loop ∧ (s.workers k).stage = .idle ∧ (s.workers k).signalled then
      some (s.setStage k .ended)
    else none
  | .collected =>
    if (s.workers k).stage = .collecting then
      some { s.setStage k (.holding s.collected) with collected := s.collected + 1 }
    else none
  | .failed =>
    if (s.workers k).stage = .collecting then some (s.setStage k (rest (s.workers k).caller))
    else none
  | .dispatch =>
    match (s.workers k).stage with
    | .holding snapshot =>
      some { s.setStage k (.dispatching s.dispatched) with
        rounds := Function.update s.rounds s.dispatched ⟨k, snapshot, fun _ => .spawned⟩
        dispatched := s.dispatched + 1 }
    | _ => none
  | .dispatched =>
    match (s.workers k).stage with
    | .dispatching r =>
      if s.Closed sinks r then some (s.setStage k (rest (s.workers k).caller)) else none
    | _ => none

def writeStep (s : State) (r i : ℕ) : WriteOp → Option State
  | .take =>
    if (s.rounds r).writes i = .spawned then
      some { s.setWrite r i .taken with deliveries := s.deliveries ++ [(r, i)] }
    else none
  | .finish =>
    if (s.rounds r).writes i = .ended then none else some (s.setWrite r i .ended)

/-- One atomic step of the system; `none` where the action is not enabled. A `start` on a running
scheduler is `AlreadyRunning`, a `stop` on one that is not returns at once. -/
def step (s : State) : Action → Option State
  | .start =>
    if s.busy then none
    else if s.running.isSome then some s
    else some { s.spawn .loop .idle with running := some s.spawned }
  | .stop =>
    if s.busy then none
    else
      match s.running with
      | none => some s
      | some k => some { s.signal k with running := none, borrow := some (.stop k) }
  | .collectOnce =>
    if s.busy then none
    else some { s.spawn .onDemand .collecting with borrow := some (.collectOnce s.spawned) }
  | .resume =>
    match s.borrow with
    | none => none
    | some (.stop k) | some (.collectOnce k) =>
      if (s.workers k).stage = .ended then some { s with borrow := none } else none
  | .forget =>
    match s.borrow with
    | none => none
    | some (.stop _) => some { s with borrow := none }
    | some (.collectOnce k) => some { s.setStage k .ended with borrow := none }
  | .drop =>
    if s.busy then none
    else
      match s.running with
      | none => some { s with gone := true }
      | some k => some { s.signal k with running := none, gone := true }
  | .worker k op => if k < s.spawned then workerStep sinks s k op else none
  | .write r i op => if r < s.dispatched ∧ i < sinks then writeStep s r i op else none

/-- Every round of the worker is closed. -/
def AllClosed (s : State) (k : ℕ) : Prop :=
  ∀ r < s.dispatched, (s.rounds r).worker = k → s.Closed sinks r

/-- What the stage of a worker says about its rounds. -/
def Fits (s : State) (k : ℕ) (caller : Caller) : Stage → Prop
  | .idle | .collecting => AllClosed sinks s k
  | .holding snapshot => AllClosed sinks s k ∧ snapshot < s.collected ∧
    ∀ r < s.dispatched, (s.rounds r).worker = k → (s.rounds r).snapshot < snapshot
  | .dispatching r => r < s.dispatched ∧ (s.rounds r).worker = k ∧
    ∀ r' < s.dispatched, (s.rounds r').worker = k → r' ≤ r
  | .ended => caller = .loop → AllClosed sinks s k

structure Inv (s : State) : Prop where
  owner : ∀ r < s.dispatched, (s.rounds r).worker < s.spawned
  /-- An open round is the last one of its worker. -/
  last : ∀ r < s.dispatched, ¬ s.Closed sinks r →
    ∀ r' < s.dispatched, (s.rounds r').worker = (s.rounds r).worker → r' ≤ r
  fits : ∀ k < s.spawned, Fits sinks s k (s.workers k).caller (s.workers k).stage
  rising : ∀ r r', r < r' → r' < s.dispatched → (s.rounds r).worker = (s.rounds r').worker →
    (s.rounds r).snapshot < (s.rounds r').snapshot
  below : ∀ r < s.dispatched, (s.rounds r).snapshot < s.collected
  taken : ∀ d ∈ s.deliveries, d.1 < s.dispatched ∧ (s.rounds d.1).writes d.2 ≠ .spawned
  nodup : s.deliveries.Nodup
  ordered : s.deliveries.Pairwise fun a b =>
    a.2 = b.2 → (s.rounds a.1).worker = (s.rounds b.1).worker → a.1 < b.1
  borrowed : ∀ k, s.borrow = some (.collectOnce k) →
    k < s.spawned ∧ (s.workers k).caller = .onDemand

end

section Invariant

variable {sinks : ℕ} {s : State} {k : ℕ}

theorem inv_init : Inv sinks init := by
  refine ⟨?_, ?_, ?_, ?_, ?_, ?_, List.nodup_nil, List.Pairwise.nil, ?_⟩
  · intro r hr
    exact absurd hr (Nat.not_lt_zero r)
  · intro r hr
    exact absurd hr (Nat.not_lt_zero r)
  · intro k hk
    exact absurd hk (Nat.not_lt_zero k)
  · intro r r' _ hr'
    exact absurd hr' (Nat.not_lt_zero r')
  · intro r hr
    exact absurd hr (Nat.not_lt_zero r)
  · intro d hd
    cases hd
  · intro k hk
    cases hk

/-- A step that leaves the rounds and the deliveries alone. -/
structure Quiet (s s' : State) : Prop where
  rounds : s'.rounds = s.rounds
  dispatched : s'.dispatched = s.dispatched
  deliveries : s'.deliveries = s.deliveries
  collected : s.collected ≤ s'.collected
  spawned : s.spawned ≤ s'.spawned

theorem Quiet.allClosed {s' : State} (h : Quiet s s') :
    AllClosed sinks s' k ↔ AllClosed sinks s k := by
  simp only [AllClosed, State.Closed, h.rounds, h.dispatched]

theorem Quiet.fits {s' : State} (h : Quiet s s') {caller : Caller} {stage : Stage}
    (hfits : Fits sinks s k caller stage) : Fits sinks s' k caller stage := by
  cases stage with
  | idle => exact h.allClosed.mpr hfits
  | collecting => exact h.allClosed.mpr hfits
  | holding snapshot =>
    obtain ⟨hclosed, hlt, hbelow⟩ := hfits
    refine ⟨h.allClosed.mpr hclosed, lt_of_lt_of_le hlt h.collected, ?_⟩
    rw [h.dispatched, h.rounds]
    exact hbelow
  | dispatching r =>
    rw [Fits, h.dispatched, h.rounds]
    exact hfits
  | ended => exact fun hloop => h.allClosed.mpr (hfits hloop)

theorem inv_quiet {s' : State} (h : Inv sinks s) (hquiet : Quiet s s')
    (hfits : ∀ k < s'.spawned, Fits sinks s' k (s'.workers k).caller (s'.workers k).stage)
    (hborrow : ∀ k, s'.borrow = some (.collectOnce k) →
      k < s'.spawned ∧ (s'.workers k).caller = .onDemand) : Inv sinks s' := by
  refine ⟨?_, ?_, hfits, ?_, ?_, ?_, ?_, ?_, hborrow⟩
  · rw [hquiet.dispatched, hquiet.rounds]
    intro r hr
    exact lt_of_lt_of_le (h.owner r hr) hquiet.spawned
  · simp only [State.Closed, hquiet.dispatched, hquiet.rounds]
    exact h.last
  · rw [hquiet.dispatched, hquiet.rounds]
    exact h.rising
  · rw [hquiet.dispatched, hquiet.rounds]
    intro r hr
    exact lt_of_lt_of_le (h.below r hr) hquiet.collected
  · rw [hquiet.deliveries, hquiet.dispatched, hquiet.rounds]
    exact h.taken
  · rw [hquiet.deliveries]
    exact h.nodup
  · rw [hquiet.deliveries, hquiet.rounds]
    exact h.ordered

/-- One worker changes, and stays of its kind. -/
theorem inv_worker {s' : State} (h : Inv sinks s) (hquiet : Quiet s s') {w : Worker}
    (hspawned : s'.spawned = s.spawned) (hworkers : s'.workers = Function.update s.workers k w)
    (hcaller : w.caller = (s.workers k).caller) (hfits : Fits sinks s' k w.caller w.stage)
    (hborrow : s'.borrow = none ∨ s'.borrow = s.borrow ∨
      ∃ stopped, s'.borrow = some (.stop stopped)) : Inv sinks s' := by
  have hkind (k' : ℕ) : (s'.workers k').caller = (s.workers k').caller := by
    rw [hworkers]
    by_cases hk : k' = k
    · rw [hk, Function.update_self, hcaller]
    · rw [Function.update_of_ne hk]
  apply inv_quiet h hquiet
  · intro k' hk'
    rw [hworkers]
    by_cases hk : k' = k
    · rw [hk, Function.update_self]
      exact hfits
    · rw [Function.update_of_ne hk]
      exact hquiet.fits (h.fits k' (hspawned ▸ hk'))
  · intro k' hk'
    rcases hborrow with hnone | hsame | hstop
    · rw [hnone] at hk'
      cases hk'
    · rw [hsame] at hk'
      rw [hspawned, hkind]
      exact h.borrowed k' hk'
    · obtain ⟨stopped, hstop⟩ := hstop
      rw [hstop] at hk'
      cases hk'

/-- A new worker has no rounds. -/
theorem inv_spawn {s' : State} (h : Inv sinks s) (hquiet : Quiet s s') {w : Worker}
    (hspawned : s'.spawned = s.spawned + 1)
    (hworkers : s'.workers = Function.update s.workers s.spawned w)
    (hfits : AllClosed sinks s s.spawned → Fits sinks s' s.spawned w.caller w.stage)
    (hborrow : s'.borrow = none ∨
      w.caller = .onDemand ∧ s'.borrow = some (.collectOnce s.spawned)) : Inv sinks s' := by
  have hnone : AllClosed sinks s s.spawned := by
    intro r hr howner
    exact absurd (h.owner r hr) (by rw [howner]; exact lt_irrefl _)
  apply inv_quiet h hquiet
  · intro k' hk'
    rw [hworkers]
    by_cases hk : k' = s.spawned
    · rw [hk, Function.update_self]
      exact hfits hnone
    · rw [Function.update_of_ne hk]
      rw [hspawned] at hk'
      exact hquiet.fits (h.fits k' (by omega))
  · intro k' hk'
    rcases hborrow with hfree | honce
    · rw [hfree] at hk'
      cases hk'
    · obtain ⟨hcaller, honce⟩ := honce
      rw [honce] at hk'
      cases hk'
      rw [hspawned, hworkers, Function.update_self]
      exact ⟨Nat.lt_succ_self _, hcaller⟩

/-- The state after `dispatch` has spawned the tasks of a round. -/
def State.begin (s : State) (k snapshot : ℕ) : State :=
  { s.setStage k (.dispatching s.dispatched) with
    rounds := Function.update s.rounds s.dispatched ⟨k, snapshot, fun _ => .spawned⟩
    dispatched := s.dispatched + 1 }

theorem begin_round (snapshot : ℕ) {r : ℕ} (h : r < s.dispatched) :
    (s.begin k snapshot).rounds r = s.rounds r :=
  Function.update_of_ne (ne_of_lt h) _ _

theorem begin_last (snapshot : ℕ) :
    (s.begin k snapshot).rounds s.dispatched = ⟨k, snapshot, fun _ => .spawned⟩ :=
  Function.update_self _ _ _

theorem begin_closed (snapshot : ℕ) {r : ℕ} (h : r < s.dispatched) :
    (s.begin k snapshot).Closed sinks r ↔ s.Closed sinks r := by
  rw [State.Closed, begin_round snapshot h, State.Closed]

theorem begin_allClosed (snapshot : ℕ) {k' : ℕ} (hk : k' ≠ k) :
    AllClosed sinks (s.begin k snapshot) k' ↔ AllClosed sinks s k' := by
  constructor
  · intro h r hr howner
    have hnew := h r (Nat.lt_succ_of_lt hr) (by rw [begin_round snapshot hr]; exact howner)
    exact (begin_closed snapshot hr).mp hnew
  · intro h r hr howner
    rcases Nat.lt_succ_iff_lt_or_eq.mp hr with hlt | rfl
    · rw [begin_round snapshot hlt] at howner
      exact (begin_closed snapshot hlt).mpr (h r hlt howner)
    · rw [begin_last] at howner
      exact absurd howner.symm hk

/-- What another worker's stage says is not touched by a new round. -/
theorem begin_fits (snapshot : ℕ) {k' : ℕ} (hk : k' ≠ k) {caller : Caller} {stage : Stage}
    (h : Fits sinks s k' caller stage) : Fits sinks (s.begin k snapshot) k' caller stage := by
  have hold {r : ℕ} (hr : r < s.dispatched + 1)
      (howner : ((s.begin k snapshot).rounds r).worker = k') : r < s.dispatched := by
    rcases Nat.lt_succ_iff_lt_or_eq.mp hr with hlt | rfl
    · exact hlt
    · rw [begin_last] at howner
      exact absurd howner.symm hk
  cases stage with
  | idle => exact (begin_allClosed snapshot hk).mpr h
  | collecting => exact (begin_allClosed snapshot hk).mpr h
  | holding held =>
    obtain ⟨hclosed, hlt, hbelow⟩ := h
    refine ⟨(begin_allClosed snapshot hk).mpr hclosed, hlt, ?_⟩
    intro r hr howner
    have hlt := hold hr howner
    rw [begin_round snapshot hlt] at howner ⊢
    exact hbelow r hlt howner
  | dispatching r =>
    obtain ⟨hlt, howner, hlast⟩ := h
    refine ⟨Nat.lt_succ_of_lt hlt, ?_, ?_⟩
    · rw [begin_round snapshot hlt]
      exact howner
    · intro r' hr' howner'
      have hlt' := hold hr' howner'
      rw [begin_round snapshot hlt'] at howner'
      exact hlast r' hlt' howner'
  | ended => exact fun hloop => (begin_allClosed snapshot hk).mpr (h hloop)

/-- A new round is the last of its worker, whose other rounds are closed. -/
theorem inv_begin (h : Inv sinks s) (hk : k < s.spawned) {snapshot : ℕ}
    (hstage : (s.workers k).stage = .holding snapshot) : Inv sinks (s.begin k snapshot) := by
  have hfits := h.fits k hk
  rw [hstage] at hfits
  obtain ⟨hclosed, hcollected, hbelow⟩ := hfits
  have hcase {r : ℕ} (hr : r < (s.begin k snapshot).dispatched) :
      r < s.dispatched ∨ r = s.dispatched := Nat.lt_succ_iff_lt_or_eq.mp hr
  refine ⟨?_, ?_, ?_, ?_, ?_, ?_, h.nodup, ?_, ?_⟩
  · intro r hr
    rcases hcase hr with hlt | rfl
    · rw [begin_round snapshot hlt]
      exact h.owner r hlt
    · rw [begin_last]
      exact hk
  · intro r hr hopen r' hr' howner
    rcases hcase hr with hlt | rfl
    · rw [begin_closed snapshot hlt] at hopen
      rw [begin_round snapshot hlt] at howner
      rcases hcase hr' with hlt' | rfl
      · rw [begin_round snapshot hlt'] at howner
        exact h.last r hlt hopen r' hlt' howner
      · rw [begin_last] at howner
        exact absurd (hclosed r hlt howner.symm) hopen
    · exact Nat.lt_succ_iff.mp hr'
  · intro k' hk'
    by_cases hsame : k' = k
    · rw [hsame]
      have hworker : (s.begin k snapshot).workers k =
          { s.workers k with stage := .dispatching s.dispatched } := Function.update_self _ _ _
      rw [hworker]
      refine ⟨Nat.lt_succ_self _, ?_, ?_⟩
      · rw [begin_last]
      · intro r' hr' _
        exact Nat.lt_succ_iff.mp hr'
    · have hworker : (s.begin k snapshot).workers k' = s.workers k' :=
        Function.update_of_ne hsame _ _
      rw [hworker]
      exact begin_fits snapshot hsame (h.fits k' hk')
  · intro r r' hlt hr' howner
    rcases hcase hr' with hlt' | rfl
    · rw [begin_round snapshot (hlt.trans hlt'), begin_round snapshot hlt'] at howner ⊢
      exact h.rising r r' hlt hlt' howner
    · rw [begin_round snapshot hlt, begin_last] at howner ⊢
      exact hbelow r hlt howner
  · intro r hr
    rcases hcase hr with hlt | rfl
    · rw [begin_round snapshot hlt]
      exact h.below r hlt
    · rw [begin_last]
      exact hcollected
  · intro d hd
    obtain ⟨hlt, hwrite⟩ := h.taken d hd
    refine ⟨Nat.lt_succ_of_lt hlt, ?_⟩
    rw [begin_round snapshot hlt]
    exact hwrite
  · apply h.ordered.imp_of_mem
    intro a b ha hb hab
    rw [begin_round snapshot (h.taken a ha).1, begin_round snapshot (h.taken b hb).1]
    exact hab
  · intro k' hk'
    obtain ⟨hlt, hcaller⟩ := h.borrowed k' hk'
    refine ⟨hlt, ?_⟩
    by_cases hsame : k' = k
    · have hworker : (s.begin k snapshot).workers k =
          { s.workers k with stage := .dispatching s.dispatched } := Function.update_self _ _ _
      rw [hsame] at hcaller ⊢
      rw [hworker]
      exact hcaller
    · have hworker : (s.begin k snapshot).workers k' = s.workers k' :=
        Function.update_of_ne hsame _ _
      rw [hworker]
      exact hcaller

section Writing

variable {r i : ℕ} {write : Write}

@[simp] theorem setWrite_worker (r₀ : ℕ) :
    ((s.setWrite r i write).rounds r₀).worker = (s.rounds r₀).worker := by
  rw [State.setWrite]
  by_cases h : r₀ = r
  · rw [h]
    simp only [Function.update_self]
    rfl
  · simp only [Function.update_of_ne h]

@[simp] theorem setWrite_snapshot (r₀ : ℕ) :
    ((s.setWrite r i write).rounds r₀).snapshot = (s.rounds r₀).snapshot := by
  rw [State.setWrite]
  by_cases h : r₀ = r
  · rw [h]
    simp only [Function.update_self]
    rfl
  · simp only [Function.update_of_ne h]

theorem setWrite_self : ((s.setWrite r i write).rounds r).writes i = write := by
  simp only [State.setWrite, Function.update_self, Round.set]

theorem setWrite_other {r₀ i₀ : ℕ} (h : (r₀, i₀) ≠ (r, i)) :
    ((s.setWrite r i write).rounds r₀).writes i₀ = (s.rounds r₀).writes i₀ := by
  rw [State.setWrite]
  by_cases hr : r₀ = r
  · have hi : i₀ ≠ i := by
      intro hi
      rw [hr, hi] at h
      exact h rfl
    rw [hr]
    simp only [Function.update_self, Round.set, Function.update_of_ne hi]
  · simp only [Function.update_of_ne hr]

/-- A write that was not over, or is now, closes no round again. -/
theorem setWrite_closed {r₀ : ℕ} (h : (s.rounds r).writes i ≠ .ended ∨ write = .ended)
    (hi : i < sinks) (hclosed : s.Closed sinks r₀) : (s.setWrite r i write).Closed sinks r₀ := by
  intro i₀ hi₀
  by_cases hsame : (r₀, i₀) = (r, i)
  · obtain ⟨rfl, rfl⟩ := Prod.mk.inj hsame
    rw [setWrite_self]
    rcases h with hopen | hended
    · exact absurd (hclosed i₀ hi) hopen
    · exact hended
  · rw [setWrite_other hsame]
    exact hclosed i₀ hi₀

theorem setWrite_fits (hmono : ∀ r₀, s.Closed sinks r₀ → (s.setWrite r i write).Closed sinks r₀)
    {caller : Caller} {stage : Stage} (h : Fits sinks s k caller stage) :
    Fits sinks (s.setWrite r i write) k caller stage := by
  have hall (h : AllClosed sinks s k) : AllClosed sinks (s.setWrite r i write) k := by
    intro r₀ hr₀ howner
    rw [setWrite_worker] at howner
    exact hmono r₀ (h r₀ hr₀ howner)
  cases stage with
  | idle => exact hall h
  | collecting => exact hall h
  | holding snapshot =>
    obtain ⟨hclosed, hlt, hbelow⟩ := h
    refine ⟨hall hclosed, hlt, ?_⟩
    intro r₀ hr₀ howner
    rw [setWrite_worker] at howner
    rw [setWrite_snapshot]
    exact hbelow r₀ hr₀ howner
  | dispatching r₁ =>
    obtain ⟨hlt, howner, hlast⟩ := h
    refine ⟨hlt, ?_, ?_⟩
    · rw [setWrite_worker]
      exact howner
    · intro r₀ hr₀ howner₀
      rw [setWrite_worker] at howner₀
      exact hlast r₀ hr₀ howner₀
  | ended => exact fun hloop => hall (h hloop)

/-- What a write needs to keep of the deliveries. -/
theorem inv_write (h : Inv sinks s)
    (hmono : ∀ r₀, s.Closed sinks r₀ → (s.setWrite r i write).Closed sinks r₀)
    {deliveries : List (ℕ × ℕ)}
    (htaken : ∀ d ∈ deliveries, d.1 < s.dispatched ∧
      ((s.setWrite r i write).rounds d.1).writes d.2 ≠ .spawned)
    (hnodup : deliveries.Nodup)
    (hordered : deliveries.Pairwise fun a b =>
      a.2 = b.2 → (s.rounds a.1).worker = (s.rounds b.1).worker → a.1 < b.1) :
    Inv sinks { s.setWrite r i write with deliveries := deliveries } := by
  refine ⟨?_, ?_, ?_, ?_, ?_, htaken, hnodup, ?_, h.borrowed⟩
  · intro r₀ hr₀
    simp only [setWrite_worker]
    exact h.owner r₀ hr₀
  · intro r₀ hr₀ hopen r₁ hr₁ howner
    simp only [setWrite_worker] at howner
    exact h.last r₀ hr₀ (fun hclosed => hopen (hmono r₀ hclosed)) r₁ hr₁ howner
  · intro k hk
    exact setWrite_fits hmono (h.fits k hk)
  · intro r₀ r₁ hlt hr₁ howner
    simp only [setWrite_worker, setWrite_snapshot] at howner ⊢
    exact h.rising r₀ r₁ hlt hr₁ howner
  · intro r₀ hr₀
    simp only [setWrite_snapshot]
    exact h.below r₀ hr₀
  · simp only [setWrite_worker]
    exact hordered

/-- The snapshot of an open round comes after all that its worker has delivered. -/
theorem inv_take (h : Inv sinks s) (hr : r < s.dispatched) (hi : i < sinks)
    (hwrite : (s.rounds r).writes i = .spawned) :
    Inv sinks { s.setWrite r i .taken with deliveries := s.deliveries ++ [(r, i)] } := by
  have hopen : ¬ s.Closed sinks r := by
    intro hclosed
    rw [hclosed i hi] at hwrite
    cases hwrite
  have hnew : ∀ d ∈ s.deliveries, d ≠ (r, i) := by
    intro d hd heq
    rw [heq] at hd
    exact (h.taken (r, i) hd).2 hwrite
  apply inv_write h
  · intro r₀
    exact setWrite_closed (Or.inl (by rw [hwrite]; decide)) hi
  · intro d hd
    rcases List.mem_append.mp hd with hold | hlast
    · rw [setWrite_other (hnew d hold)]
      exact h.taken d hold
    · rw [List.mem_singleton.mp hlast, setWrite_self]
      exact ⟨hr, by decide⟩
  · rw [List.nodup_append]
    refine ⟨h.nodup, List.nodup_singleton _, ?_⟩
    intro d hd d' hd'
    rw [List.mem_singleton.mp hd']
    exact hnew d hd
  · rw [List.pairwise_append]
    refine ⟨h.ordered, List.pairwise_singleton _ _, ?_⟩
    intro a ha b hb hsink howner
    rw [List.mem_singleton.mp hb] at hsink howner ⊢
    have hle := h.last r hr hopen a.1 (h.taken a ha).1 howner
    apply lt_of_le_of_ne hle
    intro heq
    exact hnew a ha (Prod.ext heq hsink)

theorem inv_finish (h : Inv sinks s) (hi : i < sinks) :
    Inv sinks (s.setWrite r i .ended) := by
  apply inv_write h
  · intro r₀
    exact setWrite_closed (Or.inr rfl) hi
  · intro d hd
    by_cases hsame : d = (r, i)
    · rw [hsame, setWrite_self]
      have htaken := h.taken d hd
      rw [hsame] at htaken
      exact ⟨htaken.1, by decide⟩
    · rw [setWrite_other hsame]
      exact h.taken d hd
  · exact h.nodup
  · exact h.ordered

end Writing

theorem quiet_setStage (stage : Stage) : Quiet s (s.setStage k stage) :=
  ⟨rfl, rfl, rfl, le_refl _, le_refl _⟩

theorem inv_stage (h : Inv sinks s) {stage : Stage}
    (hfits : Fits sinks s k (s.workers k).caller stage) : Inv sinks (s.setStage k stage) :=
  inv_worker h (quiet_setStage stage) rfl rfl rfl ((quiet_setStage stage).fits hfits)
    (Or.inr (Or.inl rfl))

theorem fits_rest (hclosed : AllClosed sinks s k) (caller : Caller) :
    Fits sinks s k caller (rest caller) := by
  cases caller with
  | loop => exact hclosed
  | onDemand => exact fun h => by cases h

/-- A worker whose last round is closed has none open. -/
theorem allClosed_of_last (h : Inv sinks s) {r : ℕ} (hclosed : s.Closed sinks r)
    (hfits : Fits sinks s k (s.workers k).caller (.dispatching r)) : AllClosed sinks s k := by
  obtain ⟨hr, howner, hlast⟩ := hfits
  intro r' hr' howner'
  by_contra hopen
  have hle := h.last r' hr' hopen r hr (howner.trans howner'.symm)
  have heq : r = r' := le_antisymm hle (hlast r' hr' howner')
  rw [heq] at hclosed
  exact hopen hclosed

theorem inv_workerStep {s' : State} {op : WorkerOp} (h : Inv sinks s) (hk : k < s.spawned)
    (hstep : workerStep sinks s k op = some s') : Inv sinks s' := by
  have hfits := h.fits k hk
  cases op with
  | tick =>
    simp only [workerStep] at hstep
    split_ifs at hstep with hguard
    obtain rfl := Option.some.inj hstep
    rw [hguard.2] at hfits
    exact inv_stage h hfits
  | exit =>
    simp only [workerStep] at hstep
    split_ifs at hstep with hguard
    obtain rfl := Option.some.inj hstep
    rw [hguard.2.1] at hfits
    exact inv_stage h fun _ => hfits
  | collected =>
    simp only [workerStep] at hstep
    split_ifs at hstep with hguard
    obtain rfl := Option.some.inj hstep
    rw [hguard] at hfits
    have hquiet : Quiet s { s.setStage k (.holding s.collected) with
        collected := s.collected + 1 } := ⟨rfl, rfl, rfl, Nat.le_succ _, le_refl _⟩
    refine inv_worker h hquiet rfl rfl rfl ?_ (Or.inr (Or.inl rfl))
    exact ⟨hquiet.allClosed.mpr hfits, Nat.lt_succ_self _, fun r hr _ => h.below r hr⟩
  | failed =>
    simp only [workerStep] at hstep
    split_ifs at hstep with hguard
    obtain rfl := Option.some.inj hstep
    rw [hguard] at hfits
    exact inv_stage h (fits_rest hfits _)
  | dispatch =>
    cases hstage : (s.workers k).stage with
    | holding snapshot =>
      simp only [workerStep, hstage] at hstep
      obtain rfl := Option.some.inj hstep
      exact inv_begin h hk hstage
    | idle => simp [workerStep, hstage] at hstep
    | collecting => simp [workerStep, hstage] at hstep
    | dispatching r => simp [workerStep, hstage] at hstep
    | ended => simp [workerStep, hstage] at hstep
  | dispatched =>
    cases hstage : (s.workers k).stage with
    | dispatching r =>
      simp only [workerStep, hstage] at hstep
      split_ifs at hstep with hclosed
      obtain rfl := Option.some.inj hstep
      rw [hstage] at hfits
      exact inv_stage h (fits_rest (allClosed_of_last h hclosed hfits) _)
    | idle => simp [workerStep, hstage] at hstep
    | collecting => simp [workerStep, hstage] at hstep
    | holding snapshot => simp [workerStep, hstage] at hstep
    | ended => simp [workerStep, hstage] at hstep

/-- The fields that the invariant does not speak of. -/
theorem inv_fields (h : Inv sinks s) {running : Option ℕ} {borrow : Option Borrow} {gone : Bool}
    (hborrow : borrow = none ∨ borrow = s.borrow ∨ ∃ stopped, borrow = some (.stop stopped)) :
    Inv sinks { s with running := running, borrow := borrow, gone := gone } := by
  refine inv_quiet h ⟨rfl, rfl, rfl, le_refl _, le_refl _⟩ ?_ ?_
  · intro k hk
    have hquiet : Quiet s { s with running := running, borrow := borrow, gone := gone } :=
      ⟨rfl, rfl, rfl, le_refl _, le_refl _⟩
    exact hquiet.fits (h.fits k hk)
  · intro k hk
    rcases hborrow with hnone | hsame | hstop
    · rw [hnone] at hk
      cases hk
    · rw [hsame] at hk
      exact h.borrowed k hk
    · obtain ⟨stopped, hstop⟩ := hstop
      rw [hstop] at hk
      cases hk

theorem inv_signal (h : Inv sinks s) (k : ℕ) : Inv sinks (s.signal k) := by
  have hworker (k' : ℕ) : ((s.signal k).workers k').caller = (s.workers k').caller ∧
      ((s.signal k).workers k').stage = (s.workers k').stage := by
    by_cases hk : k' = k
    · rw [hk]
      have hself : (s.signal k).workers k = { s.workers k with signalled := true } :=
        Function.update_self _ _ _
      rw [hself]
      exact ⟨rfl, rfl⟩
    · have hother : (s.signal k).workers k' = s.workers k' := Function.update_of_ne hk _ _
      rw [hother]
      exact ⟨rfl, rfl⟩
  have hquiet : Quiet s (s.signal k) := ⟨rfl, rfl, rfl, le_refl _, le_refl _⟩
  apply inv_quiet h hquiet
  · intro k' hk'
    rw [(hworker k').1, (hworker k').2]
    exact hquiet.fits (h.fits k' hk')
  · intro k' hk'
    rw [(hworker k').1]
    exact h.borrowed k' hk'

theorem inv_step {s' : State} {a : Action} (h : Inv sinks s) (hstep : step sinks s a = some s') :
    Inv sinks s' := by
  cases a with
  | start =>
    simp only [step] at hstep
    split_ifs at hstep with hbusy hrunning
    · obtain rfl := Option.some.inj hstep
      exact h
    · obtain rfl := Option.some.inj hstep
      have hspawned : Inv sinks (s.spawn .loop .idle) := by
        refine inv_spawn h ⟨rfl, rfl, rfl, le_refl _, Nat.le_succ _⟩ rfl rfl (fun h => h) ?_
        have hfree : s.borrow = none := by
          simp only [State.busy, Bool.or_eq_true, not_or] at hbusy
          simpa using hbusy.2
        exact Or.inl hfree
      exact inv_fields hspawned (Or.inr (Or.inl rfl))
  | stop =>
    simp only [step] at hstep
    split_ifs at hstep with hbusy
    cases hrunning : s.running with
    | none =>
      rw [hrunning] at hstep
      obtain rfl := Option.some.inj hstep
      exact h
    | some k =>
      rw [hrunning] at hstep
      obtain rfl := Option.some.inj hstep
      exact inv_fields (inv_signal h k) (Or.inr (Or.inr ⟨k, rfl⟩))
  | collectOnce =>
    simp only [step] at hstep
    split_ifs at hstep with hbusy
    obtain rfl := Option.some.inj hstep
    exact inv_spawn h ⟨rfl, rfl, rfl, le_refl _, Nat.le_succ _⟩ rfl rfl (fun h => h)
      (Or.inr ⟨rfl, rfl⟩)
  | resume =>
    cases hborrow : s.borrow with
    | none => simp [step, hborrow] at hstep
    | some borrow =>
      cases borrow with
      | stop k =>
        simp only [step, hborrow] at hstep
        split_ifs at hstep
        obtain rfl := Option.some.inj hstep
        exact inv_fields h (Or.inl rfl)
      | collectOnce k =>
        simp only [step, hborrow] at hstep
        split_ifs at hstep
        obtain rfl := Option.some.inj hstep
        exact inv_fields h (Or.inl rfl)
  | forget =>
    cases hborrow : s.borrow with
    | none => simp [step, hborrow] at hstep
    | some borrow =>
      cases borrow with
      | stop k =>
        simp only [step, hborrow] at hstep
        obtain rfl := Option.some.inj hstep
        exact inv_fields h (Or.inl rfl)
      | collectOnce k =>
        simp only [step, hborrow] at hstep
        obtain rfl := Option.some.inj hstep
        obtain ⟨hk, hcaller⟩ := h.borrowed k hborrow
        have hended : Fits sinks s k (s.workers k).caller .ended := by
          intro hloop
          rw [hcaller] at hloop
          cases hloop
        exact inv_fields (inv_stage h hended) (Or.inl rfl)
  | drop =>
    simp only [step] at hstep
    split_ifs at hstep with hbusy
    cases hrunning : s.running with
    | none =>
      rw [hrunning] at hstep
      obtain rfl := Option.some.inj hstep
      exact inv_fields h (Or.inr (Or.inl rfl))
    | some k =>
      rw [hrunning] at hstep
      obtain rfl := Option.some.inj hstep
      exact inv_fields (inv_signal h k) (Or.inr (Or.inl rfl))
  | worker k op =>
    simp only [step] at hstep
    split_ifs at hstep with hk
    exact inv_workerStep h hk hstep
  | write r i op =>
    simp only [step] at hstep
    split_ifs at hstep with hguard
    cases op with
    | take =>
      simp only [writeStep] at hstep
      split_ifs at hstep with hwrite
      obtain rfl := Option.some.inj hstep
      exact inv_take h hguard.1 hguard.2 hwrite
    | finish =>
      simp only [writeStep] at hstep
      split_ifs at hstep with hended
      obtain rfl := Option.some.inj hstep
      exact inv_finish h hguard.2

end Invariant

section Runs

variable {sinks : ℕ} {s : State}

/-- The snapshots that the sink took from the worker, in order. -/
def heard (s : State) (i k : ℕ) : List ℕ :=
  (s.deliveries.filter fun d => d.2 == i && (s.rounds d.1).worker == k).map fun d =>
    (s.rounds d.1).snapshot

theorem heard_rising (h : Inv sinks s) (i k : ℕ) : (heard s i k).Pairwise (· < ·) := by
  rw [heard, List.pairwise_map]
  have hpairs := h.ordered.filter fun d => d.2 == i && (s.rounds d.1).worker == k
  apply hpairs.imp_of_mem
  intro a b ha hb hab
  simp only [List.mem_filter, Bool.and_eq_true, beq_iff_eq] at ha hb
  obtain ⟨-, hai, hak⟩ := ha
  obtain ⟨hb, hbi, hbk⟩ := hb
  have howner : (s.rounds a.1).worker = (s.rounds b.1).worker := hak.trans hbk.symm
  exact h.rising a.1 b.1 (hab (hai.trans hbi.symm) howner) (h.taken b hb).1 howner

theorem inv_run {as : List Action} (h : exec (step sinks) init as = some s) : Inv sinks s := by
  have hall : EachState (step sinks) (Inv sinks) init as :=
    eachState_of_eachStep (C := fun _ _ => True) (fun _ _ _ ht _ hu => inv_step ht hu) inv_init
      fun _ _ _ _ _ => trivial
  exact hall as s (List.prefix_refl as) h

/-- In every run a sink takes no snapshot twice and those of one loop, or of one `collect_once`, in
the order of their collection; and no worker begins a round before its last one is closed. -/
theorem deliveries_lawful {as : List Action} {s : State}
    (h : exec (step sinks) init as = some s) :
    s.deliveries.Nodup ∧ (∀ i k, (heard s i k).Pairwise (· < ·)) ∧
    ∀ r < s.dispatched, ∀ r' < s.dispatched, (s.rounds r).worker = (s.rounds r').worker →
      ¬ s.Closed sinks r → ¬ s.Closed sinks r' → r = r' := by
  have hinv := inv_run h
  refine ⟨hinv.nodup, heard_rising hinv, ?_⟩
  intro r hr r' hr' howner hopen hopen'
  exact le_antisymm (hinv.last r' hr' hopen' r hr howner) (hinv.last r hr hopen r' hr' howner.symm)

/-- Two rounds of a loop with a `collect_once` between them, for two sinks. -/
def interleaved : List Action :=
  [.start, .worker 0 .tick, .worker 0 .collected, .worker 0 .dispatch, .collectOnce,
    .worker 1 .collected, .worker 1 .dispatch, .write 1 0 .take, .write 0 0 .take,
    .write 0 0 .finish, .write 0 1 .finish, .worker 0 .dispatched, .worker 0 .tick,
    .worker 0 .collected, .worker 0 .dispatch, .write 2 0 .take, .write 1 1 .take]

theorem deliveries_lawful_interleaved : ∃ s, exec (step 2) init interleaved = some s ∧
    s.deliveries = [(1, 0), (0, 0), (2, 0), (1, 1)] ∧ s.deliveries.Nodup ∧
    (heard s 0 0).Pairwise (· < ·) := by
  have hrun : ∃ s, exec (step 2) init interleaved = some s ∧
      s.deliveries = [(1, 0), (0, 0), (2, 0), (1, 1)] := ⟨_, rfl, rfl⟩
  obtain ⟨s, hs, htaken⟩ := hrun
  obtain ⟨hnodup, hheard, -⟩ := deliveries_lawful hs
  exact ⟨s, hs, htaken, hnodup, hheard 0 0⟩

end Runs

section Stopping

variable {sinks : ℕ} {s : State}

/-- A loop that has not ended. -/
def Live (s : State) (k : ℕ) : Prop :=
  k < s.spawned ∧ (s.workers k).caller = .loop ∧ (s.workers k).stage ≠ .ended

instance (s : State) (k : ℕ) : Decidable (Live s k) := inferInstanceAs (Decidable (_ ∧ _ ∧ _))

/-- No call of `stop` is dropped before it has returned. -/
def Awaited (s : State) (a : Action) : Prop := a = .forget → ∀ k, s.borrow ≠ some (.stop k)

/-- A loop of a scheduler that is still there is the running one, or awaited by `stop`. -/
structure Held (s : State) : Prop where
  live : s.gone = false → ∀ k, Live s k → s.running = some k ∨ s.borrow = some (.stop k)
  stopped : ∀ k, s.borrow = some (.stop k) → s.running = none

theorem held_init : Held init := by
  refine ⟨?_, ?_⟩
  · intro _ k hk
    exact absurd hk.1 (Nat.not_lt_zero k)
  · intro k hk
    cases hk

/-- What a step of a worker does to the calls and to the loops: none is born or comes back. -/
structure Ebbing (s s' : State) : Prop where
  running : s'.running = s.running
  borrow : s'.borrow = s.borrow
  gone : s'.gone = s.gone
  live : ∀ k, Live s' k → Live s k

theorem Ebbing.held {s' : State} (h : Ebbing s s') (hheld : Held s) : Held s' := by
  refine ⟨?_, ?_⟩
  · rw [h.running, h.borrow, h.gone]
    intro hgone k hk
    exact hheld.live hgone k (h.live k hk)
  · rw [h.running, h.borrow]
    exact hheld.stopped

theorem live_setStage {k k' : ℕ} {stage : Stage} (hstage : (s.workers k).stage ≠ .ended)
    (h : Live (s.setStage k stage) k') : Live s k' := by
  obtain ⟨hlt, hcaller, hlive⟩ := h
  by_cases hk : k' = k
  · have hworker : (s.setStage k stage).workers k = { s.workers k with stage := stage } :=
      Function.update_self _ _ _
    rw [hk] at hlt hcaller ⊢
    rw [hworker] at hcaller
    exact ⟨hlt, hcaller, hstage⟩
  · have hworker : (s.setStage k stage).workers k' = s.workers k' := Function.update_of_ne hk _ _
    rw [hworker] at hcaller hlive
    exact ⟨hlt, hcaller, hlive⟩

theorem ebbing_setStage {k : ℕ} {stage : Stage} (hstage : (s.workers k).stage ≠ .ended) :
    Ebbing s (s.setStage k stage) :=
  ⟨rfl, rfl, rfl, fun _ => live_setStage hstage⟩

theorem ebbing_workerStep {s' : State} {k : ℕ} {op : WorkerOp}
    (hstep : workerStep sinks s k op = some s') : Ebbing s s' := by
  cases hstage : (s.workers k).stage with
  | idle =>
    have hlive : (s.workers k).stage ≠ .ended := by rw [hstage]; decide
    cases op with
    | tick | exit =>
      simp only [workerStep] at hstep
      split_ifs at hstep
      obtain rfl := Option.some.inj hstep
      exact ebbing_setStage hlive
    | collected | failed | dispatch | dispatched => simp [workerStep, hstage] at hstep
  | collecting =>
    have hlive : (s.workers k).stage ≠ .ended := by rw [hstage]; decide
    cases op with
    | collected | failed =>
      simp only [workerStep] at hstep
      split_ifs at hstep
      obtain rfl := Option.some.inj hstep
      exact ⟨rfl, rfl, rfl, fun _ => live_setStage hlive⟩
    | tick | exit | dispatch | dispatched => simp [workerStep, hstage] at hstep
  | holding snapshot =>
    have hlive : (s.workers k).stage ≠ .ended := by rw [hstage]; exact Stage.noConfusion
    cases op with
    | dispatch =>
      simp only [workerStep, hstage] at hstep
      obtain rfl := Option.some.inj hstep
      exact ⟨rfl, rfl, rfl, fun _ => live_setStage hlive⟩
    | tick | exit | collected | failed | dispatched => simp [workerStep, hstage] at hstep
  | dispatching r =>
    have hlive : (s.workers k).stage ≠ .ended := by rw [hstage]; exact Stage.noConfusion
    cases op with
    | dispatched =>
      simp only [workerStep, hstage] at hstep
      split_ifs at hstep
      obtain rfl := Option.some.inj hstep
      exact ebbing_setStage hlive
    | tick | exit | collected | failed | dispatch => simp [workerStep, hstage] at hstep
  | ended => cases op <;> simp [workerStep, hstage] at hstep

theorem ebbing_writeStep {s' : State} {r i : ℕ} {op : WriteOp}
    (hstep : writeStep s r i op = some s') : Ebbing s s' := by
  cases op with
  | take =>
    simp only [writeStep] at hstep
    split_ifs at hstep
    obtain rfl := Option.some.inj hstep
    exact ⟨rfl, rfl, rfl, fun _ h => h⟩
  | finish =>
    simp only [writeStep] at hstep
    split_ifs at hstep
    obtain rfl := Option.some.inj hstep
    exact ⟨rfl, rfl, rfl, fun _ h => h⟩

theorem not_busy (h : ¬ s.busy = true) : s.gone = false ∧ s.borrow = none := by
  simp only [State.busy, Bool.or_eq_true, not_or] at h
  exact ⟨by simpa using h.1, by simpa using h.2⟩

theorem live_spawn {caller : Caller} {stage : Stage} {k : ℕ} (h : Live (s.spawn caller stage) k) :
    Live s k ∨ k = s.spawned ∧ caller = .loop := by
  obtain ⟨hlt, hcaller, hlive⟩ := h
  rcases Nat.lt_succ_iff_lt_or_eq.mp hlt with hold | hnew
  · have hworker : (s.spawn caller stage).workers k = s.workers k :=
      Function.update_of_ne (ne_of_lt hold) _ _
    rw [hworker] at hcaller hlive
    exact Or.inl ⟨hold, hcaller, hlive⟩
  · have hworker : (s.spawn caller stage).workers s.spawned = ⟨caller, stage, false⟩ :=
      Function.update_self _ _ _
    rw [hnew, hworker] at hcaller
    exact Or.inr ⟨hnew, hcaller⟩

theorem live_signal {k k' : ℕ} (h : Live (s.signal k) k') : Live s k' := by
  obtain ⟨hlt, hcaller, hlive⟩ := h
  by_cases hk : k' = k
  · have hworker : (s.signal k).workers k = { s.workers k with signalled := true } :=
      Function.update_self _ _ _
    rw [hk] at hlt hcaller hlive ⊢
    rw [hworker] at hcaller hlive
    exact ⟨hlt, hcaller, hlive⟩
  · have hworker : (s.signal k).workers k' = s.workers k' := Function.update_of_ne hk _ _
    rw [hworker] at hcaller hlive
    exact ⟨hlt, hcaller, hlive⟩

/-- A scheduler that runs no loop and awaits none has none. -/
theorem Held.none_live (h : Held s) (hgone : s.gone = false) (hrunning : s.running = none)
    (hborrow : ∀ k, s.borrow ≠ some (.stop k)) (k : ℕ) : ¬ Live s k := by
  intro hk
  rcases h.live hgone k hk with hrun | hstop
  · rw [hrunning] at hrun
    cases hrun
  · exact hborrow k hstop

theorem held_start {s' : State} (h : Held s) (hstep : step sinks s .start = some s') :
    Held s' := by
  simp only [step] at hstep
  split_ifs at hstep with hbusy hrunning
  · obtain rfl := Option.some.inj hstep
    exact h
  · obtain rfl := Option.some.inj hstep
    obtain ⟨hgone, hfree⟩ := not_busy hbusy
    refine ⟨?_, ?_⟩
    · intro _ k hk
      rcases live_spawn hk with hold | ⟨hnew, -⟩
      · have hnone : s.running = none := by simpa using hrunning
        refine absurd hold (h.none_live hgone hnone ?_ k)
        rw [hfree]
        intro _ hstop
        cases hstop
      · rw [hnew]
        exact Or.inl rfl
    · intro k hk
      have hborrow : s.borrow = some (.stop k) := hk
      rw [hfree] at hborrow
      cases hborrow

theorem held_stop {s' : State} (h : Held s) (hstep : step sinks s .stop = some s') :
    Held s' := by
  simp only [step] at hstep
  split_ifs at hstep with hbusy
  obtain ⟨hgone, hfree⟩ := not_busy hbusy
  cases hrunning : s.running with
  | none =>
    rw [hrunning] at hstep
    obtain rfl := Option.some.inj hstep
    exact h
  | some k =>
    rw [hrunning] at hstep
    obtain rfl := Option.some.inj hstep
    refine ⟨?_, fun _ _ => rfl⟩
    intro _ k' hk'
    rcases h.live hgone k' (live_signal hk') with hrun | hstop
    · rw [hrunning] at hrun
      rw [Option.some.inj hrun]
      exact Or.inr rfl
    · rw [hfree] at hstop
      cases hstop

theorem held_resume {s' : State} (h : Held s) (hstep : step sinks s .resume = some s') :
    Held s' := by
  cases hborrow : s.borrow with
  | none => simp [step, hborrow] at hstep
  | some borrow =>
    cases borrow with
    | stop k =>
      simp only [step, hborrow] at hstep
      split_ifs at hstep with hended
      obtain rfl := Option.some.inj hstep
      refine ⟨?_, fun _ hk => by cases hk⟩
      intro hgone k' hk'
      rcases h.live hgone k' hk' with hrun | hstop
      · exact Or.inl hrun
      · rw [hborrow] at hstop
        cases hstop
        exact absurd hended hk'.2.2
    | collectOnce k =>
      simp only [step, hborrow] at hstep
      split_ifs at hstep
      obtain rfl := Option.some.inj hstep
      refine ⟨?_, fun _ hk => by cases hk⟩
      intro hgone k' hk'
      rcases h.live hgone k' hk' with hrun | hstop
      · exact Or.inl hrun
      · rw [hborrow] at hstop
        cases hstop

theorem held_forget {s' : State} {onDemand : ℕ} (h : Held s)
    (hborrow : s.borrow = some (.collectOnce onDemand))
    (hstep : step sinks s .forget = some s') : Held s' := by
  simp only [step, hborrow] at hstep
  obtain rfl := Option.some.inj hstep
  refine ⟨?_, fun _ hk => by cases hk⟩
  intro hgone k hk
  obtain ⟨hlt, hcaller, hlive⟩ := hk
  have hother : k ≠ onDemand := by
    intro hsame
    have hself : (s.setStage onDemand .ended).workers onDemand =
        { s.workers onDemand with stage := .ended } := Function.update_self _ _ _
    rw [hsame] at hlive
    exact hlive (congrArg Worker.stage hself)
  have hworker : (s.setStage onDemand .ended).workers k = s.workers k :=
    Function.update_of_ne hother _ _
  have hcaller' : (s.workers k).caller = .loop := by
    rw [← hworker]
    exact hcaller
  have hlive' : (s.workers k).stage ≠ .ended := by
    rw [← hworker]
    exact hlive
  rcases h.live hgone k ⟨hlt, hcaller', hlive'⟩ with hrun | hstop
  · exact Or.inl hrun
  · rw [hborrow] at hstop
    cases hstop

theorem held_step {s' : State} {a : Action} (hheld : Held s) (hawaited : Awaited s a)
    (hstep : step sinks s a = some s') : Held s' := by
  cases a with
  | start => exact held_start hheld hstep
  | stop => exact held_stop hheld hstep
  | collectOnce =>
    simp only [step] at hstep
    split_ifs at hstep with hbusy
    obtain rfl := Option.some.inj hstep
    obtain ⟨hgone, hfree⟩ := not_busy hbusy
    refine ⟨?_, fun _ hk => by cases hk⟩
    intro _ k hk
    rcases live_spawn hk with hold | ⟨-, hcaller⟩
    · rcases hheld.live hgone k hold with hrun | hstop
      · exact Or.inl hrun
      · rw [hfree] at hstop
        cases hstop
    · cases hcaller
  | resume => exact held_resume hheld hstep
  | forget =>
    cases hborrow : s.borrow with
    | none => simp [step, hborrow] at hstep
    | some borrow =>
      cases borrow with
      | stop k => exact absurd hborrow (hawaited rfl k)
      | collectOnce k => exact held_forget hheld hborrow hstep
  | drop =>
    simp only [step] at hstep
    split_ifs at hstep with hbusy
    obtain ⟨-, hfree⟩ := not_busy hbusy
    have hgone {s' : State} (hgone : s'.gone = true) (hborrow : s'.borrow = s.borrow) :
        Held s' := by
      refine ⟨?_, ?_⟩
      · rw [hgone]
        intro hfalse
        cases hfalse
      · rw [hborrow, hfree]
        intro _ hstop
        cases hstop
    cases hrunning : s.running with
    | none =>
      rw [hrunning] at hstep
      obtain rfl := Option.some.inj hstep
      exact hgone rfl rfl
    | some k =>
      rw [hrunning] at hstep
      obtain rfl := Option.some.inj hstep
      exact hgone rfl rfl
  | worker k op =>
    simp only [step] at hstep
    split_ifs at hstep
    exact (ebbing_workerStep hstep).held hheld
  | write r i op =>
    simp only [step] at hstep
    split_ifs at hstep
    exact (ebbing_writeStep hstep).held hheld

theorem held_run {as : List Action} (h : exec (step sinks) init as = some s)
    (hawaited : EachStep (step sinks) Awaited init as) : Held s := by
  have hall : EachState (step sinks) Held init as :=
    eachState_of_eachStep (fun _ _ _ => held_step) held_init hawaited
  exact hall as s (List.prefix_refl as) h

/-- Where no `stop` is dropped before it has returned, a scheduler has at most one loop alive, and
once `stop` has returned none: no write of any of its loops is outstanding then. -/
theorem stop_final {as : List Action} {s : State} (h : exec (step sinks) init as = some s)
    (hawaited : EachStep (step sinks) Awaited init as) (hgone : s.gone = false) :
    (∀ k k', Live s k → Live s k' → k = k') ∧
    (s.running = none → (∀ k, s.borrow ≠ some (.stop k)) →
      ∀ k < s.spawned, (s.workers k).caller = .loop →
        (s.workers k).stage = .ended ∧ AllClosed sinks s k) := by
  have hheld := held_run h hawaited
  constructor
  · intro k k' hk hk'
    rcases hheld.live hgone k hk with hrun | hstop
    · rcases hheld.live hgone k' hk' with hrun' | hstop'
      · exact Option.some.inj (hrun.symm.trans hrun')
      · rw [hheld.stopped k' hstop'] at hrun
        cases hrun
    · rcases hheld.live hgone k' hk' with hrun' | hstop'
      · rw [hheld.stopped k hstop] at hrun'
        cases hrun'
      · have hsame := Option.some.inj (hstop.symm.trans hstop')
        cases hsame
        rfl
  · intro hrunning hborrow k hk hcaller
    have hended : (s.workers k).stage = .ended := by
      by_contra hlive
      exact hheld.none_live hgone hrunning hborrow k ⟨hk, hcaller, hlive⟩
    have hfits := (inv_run h).fits k hk
    rw [hended] at hfits
    exact ⟨hended, hfits hcaller⟩

/-- A loop that is stopped in its first round. -/
def stopped : List Action :=
  [.start, .worker 0 .tick, .worker 0 .collected, .worker 0 .dispatch, .stop, .write 0 0 .take,
    .write 0 0 .finish, .worker 0 .dispatched, .worker 0 .exit, .resume]

theorem stop_final_stopped : ∃ s, exec (step 1) init stopped = some s ∧ s.spawned = 1 ∧
    (s.workers 0).stage = .ended ∧ AllClosed 1 s 0 := by
  have hrun : ∃ s, exec (step 1) init stopped = some s ∧ s.spawned = 1 ∧ s.gone = false ∧
      s.running = none ∧ s.borrow = none ∧ (s.workers 0).caller = .loop :=
    ⟨_, rfl, rfl, rfl, rfl, rfl, rfl⟩
  obtain ⟨s, hs, hspawned, hgone, hrunning, hborrow, hcaller⟩ := hrun
  have hawaited : EachStep (step 1) Awaited init stopped := by
    intro pre a t hp _ hforget
    have hmem := hp.subset (List.mem_append_right pre (List.mem_singleton_self a))
    rw [hforget] at hmem
    exact absurd hmem (by decide)
  have hnone (k : ℕ) : s.borrow ≠ some (.stop k) := by
    rw [hborrow]
    intro hstop
    cases hstop
  have hlt : 0 < s.spawned := by
    rw [hspawned]
    exact Nat.one_pos
  exact ⟨s, hs, hspawned, (stop_final hs hawaited hgone).2 hrunning hnone 0 hlt hcaller⟩

/-- Without the condition two loops live: the second is started while the first still dispatches. -/
example : ∃ s, exec (step 1) init
    [.start, .worker 0 .tick, .worker 0 .collected, .worker 0 .dispatch, .stop, .forget, .start] =
      some s ∧ Live s 0 ∧ Live s 1 :=
  ⟨_, rfl, by decide, by decide⟩

end Stopping

end Zstats.Dispatch
