import Mathlib.Logic.Function.Basic
import Zstats.Snapshot

namespace Zstats

/-- `Timestamp::as_second`, which truncates towards zero. -/
def SystemSnapshot.second (s : SystemSnapshot) : ℤ := s.timestamp.tdiv 1000000000

namespace HistoryBuffer

/-- Drop from the front what is further than the retention from the back, but for the back. -/
def prune (retentionSecs : ℤ) : List SystemSnapshot → List SystemSnapshot
  | [] => []
  | [last] => [last]
  | front :: next :: rest =>
    let back := (next :: rest).getLast (List.cons_ne_nil next rest)
    if retentionSecs < back.second - front.second then prune retentionSecs (next :: rest)
    else front :: next :: rest

def push (retentionSecs : ℤ) (queue : List SystemSnapshot) (snapshot : SystemSnapshot) :
    List SystemSnapshot :=
  prune retentionSecs (queue ++ [snapshot])

end HistoryBuffer

/-- What a handler has for the client that attached: the copy of the history as lines, how many of
them are written, the lines written after them, and what its receiver has yet to yield. -/
structure Session where
  buffered : List String
  written : ℕ
  live : List String
  rx : List SystemSnapshot

/-- The reply to `ATTACH`. -/
def historyHeader (announced : ℕ) : String := "HISTORY " ++ toString announced

/-- The lines that the client has been sent. -/
def Session.reply (s : Session) : List String :=
  historyHeader s.buffered.length :: s.buffered.take s.written ++ s.live

/-- `handle_client` between its steps. -/
inductive Handler where
  | waiting
  | subscribed (rx : List SystemSnapshot)
  | attached (session : Session)

/-- The broadcast hands each send to every receiver that has been made before. -/
def Handler.receive (snapshot : SystemSnapshot) : Handler → Handler
  | .waiting => .waiting
  | .subscribed rx => .subscribed (rx ++ [snapshot])
  | .attached s => .attached { s with rx := s.rx ++ [snapshot] }

/-- The history, how many snapshots have been pushed to it and how many sent, and the handlers. -/
structure Daemon (ι : Type*) where
  history : List SystemSnapshot
  pushed : ℕ
  sent : ℕ
  handlers : ι → Handler

inductive DaemonAction (ι : Type*) where
  | push
  | send
  | subscribe (c : ι)
  | copy (c : ι)
  | writeLine (c : ι)
  | recv (c : ι)
  deriving DecidableEq

namespace Daemon

variable {ι : Type*} [DecidableEq ι]

def new : Daemon ι := ⟨[], 0, 0, fun _ => .waiting⟩

def setHandler (d : Daemon ι) (c : ι) (h : Handler) : Daemon ι :=
  { d with handlers := Function.update d.handlers c h }

/-- `ServeSink::write` pushes the next snapshot and then sends it. A handler that reads `ATTACH`
subscribes, copies the history, writes its lines and then whatever its receiver yields. -/
def step (toJson : SystemSnapshot → String) (retentionSecs : ℤ) (published : ℕ → SystemSnapshot)
    (d : Daemon ι) : DaemonAction ι → Option (Daemon ι)
  | .push =>
    if d.pushed = d.sent then
      some { d with
        history := HistoryBuffer.push retentionSecs d.history (published d.pushed)
        pushed := d.pushed + 1 }
    else none
  | .send =>
    if d.pushed = d.sent + 1 then
      some { d with
        sent := d.sent + 1
        handlers := fun c => (d.handlers c).receive (published d.sent) }
    else none
  | .subscribe c =>
    match d.handlers c with
    | .waiting => some (d.setHandler c (.subscribed []))
    | _ => none
  | .copy c =>
    match d.handlers c with
    | .subscribed rx => some (d.setHandler c (.attached ⟨d.history.map toJson, 0, [], rx⟩))
    | _ => none
  | .writeLine c =>
    match d.handlers c with
    | .attached s =>
      if s.written < s.buffered.length then
        some (d.setHandler c (.attached { s with written := s.written + 1 }))
      else none
    | _ => none
  | .recv c =>
    match d.handlers c with
    | .attached s =>
      match s.rx with
      | [] => none
      | snapshot :: rx =>
        if s.written = s.buffered.length then
          some (d.setHandler c
            (.attached { s with live := s.live ++ [toJson snapshot], rx := rx }))
        else none
    | _ => none

end Daemon

end Zstats
