import Zstats.Listeners.Fields

namespace Zstats.Pcblist

open Bytes Failing

def Sock.attached? (s : Sock) : Option Attached :=
  match s.contents with
  | .detached .. => none
  | .attached a => some a

section

variable (e : Endian) (protocol : Protocol) (parsed : Parsed)

/-- What sockets add to a table's result. -/
def Parsed.adding (socks : List Sock) : Parsed :=
  let attached := socks.filterMap Sock.attached?
  { headerCount := parsed.headerCount
    sockets := parsed.sockets + socks.length
    owners := parsed.owners ∪ (attached.filterMap Attached.owner).toFinset
    flows := parsed.flows ++ attached.filterMap Attached.flow
    listeners := parsed.listeners ++ attached.filterMap (Attached.listener protocol) }

theorem whole_eq (s : Sock) :
    s.whole e protocol = s.partRun e protocol (some ((s.statsFrame e).record e))
      (if protocol = .tcp then some ((s.tcpcbFrame e).record e) else none) := by
  cases protocol <;> rfl

/-- A complete socket adds what its layout says. -/
theorem take_whole (s : Sock) :
    parsed.take e (s.whole e protocol) protocol = .ok (parsed.adding protocol [s]) := by
  rw [whole_eq]
  cases hcontents : s.contents with
  | detached inpcb stats tcpcb =>
    rw [take_detached e protocol _ _ _ hcontents]
    simp [Parsed.adding, Sock.attached?, hcontents]
  | attached a =>
    rw [take_attached e protocol _ _ hcontents
      (classify_complete e protocol _ _ hcontents (fun htcp => if_pos htcp))]
    cases howner : a.owner with
    | none => cases hl : a.listener protocol <;>
        simp [Parsed.adding, Sock.attached?, hcontents, howner, hl, Attached.flow]
    | some pid => cases hl : a.listener protocol <;>
        simp [Parsed.adding, Sock.attached?, hcontents, howner, hl, Attached.flow]

theorem adding_append (socks others : List Sock) :
    (parsed.adding protocol socks).adding protocol others =
      parsed.adding protocol (socks ++ others) := by
  simp only [Parsed.adding, List.filterMap_append, List.toFinset_append, Finset.union_assoc,
    List.append_assoc, List.length_append, Nat.add_assoc]

theorem takeAll_eq (socks : List Sock) :
    takeAll e protocol socks parsed = .ok (parsed.adding protocol socks) := by
  induction socks generalizing parsed with
  | nil => simp [takeAll, Parsed.adding]
  | cons s socks ih => rw [takeAll, take_whole, ok_bind, ih, adding_append, List.singleton_append]

end

theorem socksFrames_walked (e : Endian) (protocol : Protocol) (socks : List Sock) :
    ∀ f ∈ socksFrames e protocol socks, f.Walked := by
  intro f hf
  obtain ⟨s, -, hs⟩ := List.mem_flatMap.mp hf
  exact (s.known f hs).walked

theorem parse_whole {e : Endian} {protocol : Protocol} {opening closing : Header}
    (socks : List Sock) :
    parse e (table e opening (socksFrames e protocol socks) closing) protocol =
      .ok (Parsed.adding protocol { headerCount := opening.count.toNat } socks) := by
  rw [parse_table (socksFrames_walked e protocol socks), absorb_socks, finish, ok_bind, takeAll_eq]

theorem Attached.owner_eq_some {a : Attached} {pid : ℕ} :
    a.owner = some pid ↔ a.lastPid.toInt = (pid : ℤ) := by
  rw [owner]
  by_cases h : 0 ≤ a.lastPid.toInt
  · rw [if_pos h, Option.some.injEq]
    omega
  · rw [if_neg h]
    constructor
    · intro hnone
      cases hnone
    · intro hpid
      omega

/-- The table of any sockets is read back: every socket counted, every owner known, a flow with the
saturating sums for each owned socket and the listening sockets' entries, in order. -/
theorem parse_inverts_layout (e : Endian) (protocol : Protocol) (opening closing : Header)
    (socks : List Sock) :
    ∃ parsed, parse e (table e opening (socksFrames e protocol socks) closing) protocol =
        .ok parsed ∧
      parsed.headerCount = opening.count.toNat ∧ parsed.sockets = socks.length ∧
      (∀ pid, pid ∈ parsed.owners ↔
        ∃ a ∈ socks.filterMap Sock.attached?, a.lastPid.toInt = (pid : ℤ)) ∧
      parsed.flows = (socks.filterMap Sock.attached?).filterMap Attached.flow ∧
      parsed.listeners =
        (socks.filterMap Sock.attached?).filterMap (Attached.listener protocol) := by
  refine ⟨_, parse_whole socks, rfl, ?_, ?_, rfl, rfl⟩
  · simp [Parsed.adding]
  · intro pid
    rw [Parsed.adding, Finset.empty_union, List.mem_toFinset, List.mem_filterMap]
    simp only [Attached.owner_eq_some]

end Zstats.Pcblist
