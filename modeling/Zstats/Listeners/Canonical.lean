import Mathlib.Data.Prod.Lex
import Mathlib.Data.Sum.Order
import Mathlib.Order.WithBot
import Zstats.Framework.Collapse
import Zstats.Listeners.Pcblist
import Zstats.Listeners.Procnet

namespace Zstats

structure Listeners where
  sockets : List ListenerSnapshot
  coverage : OwnerCoverage
  deriving DecidableEq, Repr

/-- What one process entry says about a listener's owner. -/
structure Owner where
  name : String
  runTimeSecs : Option ℕ

/-- A process entry of sysinfo. -/
structure OwnerEntry where
  name : String
  startTime : ℕ
  runTime : ℕ

/-- A start time of zero is one that could not be read. -/
def OwnerEntry.owner (process : OwnerEntry) : Owner where
  name := process.name
  runTimeSecs := if 0 < process.startTime then some process.runTime else none

/-- The owners among exactly these pids. -/
def processOwners (system : ℕ → Option OwnerEntry) (pids : List ℕ) (pid : ℕ) : Option Owner :=
  if pid ∈ pids then (system pid).map OwnerEntry.owner else none

/-- `Tcp < Udp`. -/
def Protocol.rank : Protocol → ℕ
  | .tcp => 0
  | .udp => 1

/-- Every IPv4 address comes before every IPv6 address. -/
def IpAddr.rank : IpAddr → Lex (ℕ ⊕ ℕ)
  | .v4 bits => toLex (.inl bits.toNat)
  | .v6 bits => toLex (.inr bits.toNat)

namespace ListenerSnapshot

/-- The tuple `(protocol, port, address, pid)`; an unknown pid comes first. -/
def sortKey (s : ListenerSnapshot) : ℕ ×ₗ ℕ ×ₗ Lex (ℕ ⊕ ℕ) ×ₗ WithBot ℕ :=
  toLex (s.protocol.rank, toLex (s.port, toLex (s.address.rank, s.pid)))

def name (owners : ℕ → Option Owner) (socket : ListenerSnapshot) : ListenerSnapshot :=
  let owner := socket.pid.bind owners
  { socket with
    process := owner.map Owner.name
    runTimeSecs := owner.bind Owner.runTimeSecs }

end ListenerSnapshot

/-- Name the owners, then put the list in its documented order. -/
def Listeners.finish (system : ℕ → Option OwnerEntry) (sockets : List ListenerSnapshot)
    (coverage : OwnerCoverage) : Listeners :=
  let owners := processOwners system (sockets.filterMap ListenerSnapshot.pid)
  let sockets := sockets.map (ListenerSnapshot.name owners)
  let sockets := sockets.insertionSort fun a b => a.sortKey ≤ b.sortKey
  ⟨sockets.destutter (· ≠ ·), coverage⟩

/-- The row as it is listed: with the name of its owner, and how long that has run if it is known
when it started. -/
def ListenerSnapshot.named (system : ℕ → Option OwnerEntry) (socket : ListenerSnapshot) :
    ListenerSnapshot where
  protocol := socket.protocol
  address := socket.address
  port := socket.port
  pid := socket.pid
  process := (socket.pid.bind system).map fun entry => entry.name
  runTimeSecs := (socket.pid.bind system).bind fun entry =>
    if 0 < entry.startTime then some entry.runTime else none
  uid := socket.uid

namespace Listeners

/-- In order, without duplicates, and with the rows of all sockets and no others. -/
structure Canonical (system : ℕ → Option OwnerEntry) (sockets out : List ListenerSnapshot) :
    Prop where
  sorted : out.Pairwise fun a b => a.sortKey ≤ b.sortKey
  nodup : out.Nodup
  rows : ∀ row, row ∈ out ↔ ∃ socket ∈ sockets, row = socket.named system

/-- The same rows, and as many. -/
structure SameRows (out out' : List ListenerSnapshot) : Prop where
  rows : ∀ row, row ∈ out ↔ row ∈ out'
  count : out.length = out'.length

/-- One protocol, port, address and pid. -/
structure SameHolder (a b : ListenerSnapshot) : Prop where
  protocol : a.protocol = b.protocol
  port : a.port = b.port
  address : a.address = b.address
  pid : a.pid = b.pid

/-- Of three sockets of one endpoint and owner, the second is another user's than the others. -/
structure Straddled (a b c : ListenerSnapshot) : Prop where
  first : SameHolder a b
  last : SameHolder b c
  outer : a.uid = c.uid
  inner : a.uid ≠ b.uid

/-- Two sockets that make equal rows have one between them that differs in the uid alone. -/
def Interleaved (sockets : List ListenerSnapshot) : Prop :=
  ∃ a b c, List.Sublist [a, b, c] sockets ∧ Straddled a b c

/-- Among the sockets, in any order, are two that make equal rows and one that differs from them
in the uid alone. -/
def Mixed (sockets : List ListenerSnapshot) : Prop :=
  ∃ a b c, List.Subperm [a, b, c] sockets ∧ Straddled a b c

variable {system : ℕ → Option OwnerEntry} {sockets : List ListenerSnapshot}

theorem rank_injective_protocol : Function.Injective Protocol.rank := by
  intro p q h
  cases p <;> cases q <;> first | rfl | cases h

theorem rank_injective_address : Function.Injective IpAddr.rank := by
  intro a b h
  cases a with
  | v4 bits =>
    cases b with
    | v4 bits' =>
      have hnat : bits.toNat = bits'.toNat := Sum.inl.inj h
      rw [BitVec.eq_of_toNat_eq hnat]
    | v6 bits' => cases h
  | v6 bits =>
    cases b with
    | v4 bits' => cases h
    | v6 bits' =>
      have hnat : bits.toNat = bits'.toNat := Sum.inr.inj h
      rw [BitVec.eq_of_toNat_eq hnat]

theorem sortKey_eq_iff {a b : ListenerSnapshot} : a.sortKey = b.sortKey ↔ SameHolder a b := by
  constructor
  · intro h
    have hpair := toLex_inj.mp h
    obtain ⟨hprotocol, hrest⟩ := Prod.mk.inj hpair
    obtain ⟨hport, hrest⟩ := Prod.mk.inj (toLex_inj.mp hrest)
    obtain ⟨haddress, hpid⟩ := Prod.mk.inj (toLex_inj.mp hrest)
    exact ⟨rank_injective_protocol hprotocol, hport, rank_injective_address haddress, hpid⟩
  · intro ⟨hprotocol, hport, haddress, hpid⟩
    rw [ListenerSnapshot.sortKey, ListenerSnapshot.sortKey, hprotocol, hport, haddress, hpid]

theorem name_owner (socket : ListenerSnapshot) :
    (socket.name fun pid => (system pid).map OwnerEntry.owner) = socket.named system := by
  rw [ListenerSnapshot.name, ListenerSnapshot.named]
  cases socket.pid with
  | none => rfl
  | some pid =>
    rw [Option.bind_some, Option.bind_some]
    cases system pid with
    | none => rfl
    | some entry => rfl

@[simp] theorem sortKey_named (s : ListenerSnapshot) : (s.named system).sortKey = s.sortKey := rfl

@[simp] theorem uid_named (s : ListenerSnapshot) : (s.named system).uid = s.uid := rfl

/-- Nothing but the endpoint, the owner and the user tells two rows apart. -/
theorem named_eq_iff {a b : ListenerSnapshot} :
    a.named system = b.named system ↔ SameHolder a b ∧ a.uid = b.uid := by
  constructor
  · intro h
    have hkey := congrArg ListenerSnapshot.sortKey h
    have huid := congrArg ListenerSnapshot.uid h
    rw [sortKey_named, sortKey_named] at hkey
    exact ⟨sortKey_eq_iff.mp hkey, huid⟩
  · intro ⟨hholder, huid⟩
    obtain ⟨hprotocol, hport, haddress, hpid⟩ := hholder
    simp only [ListenerSnapshot.named, hprotocol, hport, haddress, hpid, huid]

theorem returns_iff :
    Collapse.Returns ListenerSnapshot.sortKey (sockets.map (·.named system)) ↔
      Interleaved sockets := by
  constructor
  · intro h
    obtain ⟨row, row', hsub, hkey, hne⟩ := h
    obtain ⟨origin, horigin, hmap⟩ := List.sublist_map_iff.mp hsub
    obtain ⟨a, rest, rfl, ha, hrest⟩ := List.map_eq_cons_iff.mp hmap.symm
    obtain ⟨b, rest, rfl, hb, hrest⟩ := List.map_eq_cons_iff.mp hrest
    obtain ⟨c, rest, rfl, hc, hrest⟩ := List.map_eq_cons_iff.mp hrest
    rw [List.map_eq_nil_iff.mp hrest] at horigin
    have hac := named_eq_iff.mp (ha.trans hc.symm)
    rw [← ha, ← hb, sortKey_named, sortKey_named] at hkey
    have hab := sortKey_eq_iff.mp hkey
    have hbc := sortKey_eq_iff.mp (hkey.symm.trans (sortKey_eq_iff.mpr hac.1))
    refine ⟨a, b, c, horigin, hab, hbc, hac.2, ?_⟩
    intro huid
    exact hne (ha.symm.trans ((named_eq_iff.mpr ⟨hab, huid⟩).trans hb))
  · intro h
    obtain ⟨a, b, c, hsub, hstraddled⟩ := h
    have hab := sortKey_eq_iff.mpr hstraddled.first
    have hbc := sortKey_eq_iff.mpr hstraddled.last
    have hca : c.named system = a.named system :=
      named_eq_iff.mpr ⟨sortKey_eq_iff.mp (hab.trans hbc).symm, hstraddled.outer.symm⟩
    have hmap := hsub.map (·.named system)
    simp only [List.map_cons, List.map_nil, hca] at hmap
    refine ⟨a.named system, b.named system, hmap, hab, ?_⟩
    intro hsame
    exact hstraddled.inner (named_eq_iff.mp hsame).2

/-- A lookup of the owners that are asked for is as good as the process table. -/
theorem finish_sockets (coverage : OwnerCoverage) :
    (finish system sockets coverage).sockets =
      Collapse.collapse ListenerSnapshot.sortKey (sockets.map (·.named system)) := by
  have hnamed : sockets.map
      (ListenerSnapshot.name (processOwners system (sockets.filterMap ListenerSnapshot.pid))) =
        sockets.map (·.named system) := by
    apply List.map_congr_left
    intro socket hsocket
    have howner : socket.pid.bind
        (processOwners system (sockets.filterMap ListenerSnapshot.pid)) =
          socket.pid.bind fun pid => (system pid).map OwnerEntry.owner := by
      cases hpid : socket.pid with
      | none => rfl
      | some pid =>
        have hasked : pid ∈ sockets.filterMap ListenerSnapshot.pid :=
          List.mem_filterMap.mpr ⟨socket, hsocket, hpid⟩
        exact if_pos hasked
    rw [← name_owner, ListenerSnapshot.name, ListenerSnapshot.name, howner]
  rw [finish]
  simp only [hnamed]
  rfl

theorem mem_finish (coverage : OwnerCoverage) (row : ListenerSnapshot) :
    row ∈ (finish system sockets coverage).sockets ↔
      ∃ socket ∈ sockets, row = socket.named system := by
  rw [finish_sockets, Collapse.mem_collapse, List.mem_map]
  constructor
  · intro ⟨socket, hsocket, hrow⟩
    exact ⟨socket, hsocket, hrow.symm⟩
  · intro ⟨socket, hsocket, hrow⟩
    exact ⟨socket, hsocket, hrow.symm⟩

theorem finish_canonical (coverage : OwnerCoverage) :
    Canonical system sockets (finish system sockets coverage).sockets ↔
      ¬ Interleaved sockets := by
  have hnodup : (finish system sockets coverage).sockets.Nodup ↔
      ¬ Interleaved sockets := by
    rw [finish_sockets, Collapse.nodup_collapse_iff, returns_iff]
  constructor
  · intro h
    exact hnodup.mp h.nodup
  · intro h
    refine ⟨?_, hnodup.mpr h, mem_finish coverage⟩
    rw [finish_sockets]
    exact Collapse.pairwise_collapse _ _

theorem mixed_iff :
    Mixed sockets ↔ ∃ sockets' : List ListenerSnapshot, sockets'.Perm sockets ∧
      Interleaved sockets' := by
  constructor
  · intro ⟨a, b, c, hsub, hstraddled⟩
    obtain ⟨sockets', hperm, hsub⟩ := List.subperm_iff.mp hsub
    exact ⟨sockets', hperm, a, b, c, hsub, hstraddled⟩
  · intro ⟨sockets', hperm, a, b, c, hsub, hstraddled⟩
    exact ⟨a, b, c, List.subperm_iff.mpr ⟨sockets', hperm, hsub⟩, hstraddled⟩

theorem finish_sameRows (coverage : OwnerCoverage) :
    (∀ sockets' : List ListenerSnapshot, sockets'.Perm sockets →
      SameRows (finish system sockets' coverage).sockets
        (finish system sockets coverage).sockets) ↔ ¬ Mixed sockets := by
  have hcount : (∀ m : List ListenerSnapshot, m.Perm sockets →
      (Collapse.collapse ListenerSnapshot.sortKey (m.map (·.named system))).length =
        (Collapse.collapse ListenerSnapshot.sortKey (sockets.map (·.named system))).length) ↔
      ∀ m : List ListenerSnapshot, m.Perm sockets →
        ¬ Collapse.Returns ListenerSnapshot.sortKey (m.map (·.named system)) :=
    Collapse.length_collapse_perm_iff _ sockets
  simp only [returns_iff, ← finish_sockets coverage] at hcount
  rw [mixed_iff, not_exists]
  constructor
  · intro h sockets' hinter
    exact hcount.mp (fun m hm => (h m hm).count) sockets' hinter.1 hinter.2
  · intro h sockets' hperm
    constructor
    · intro row
      simp only [mem_finish, hperm.mem_iff]
    · exact hcount.mpr (fun m hm hinter => h m ⟨hm, hinter⟩) sockets' hperm

/-- The list is canonical if and only if no socket stands between two that make equal rows and
differs from them in the uid alone; and it is the same in every order of the sockets if and only
if no such three are there. -/
theorem finish_canonical_iff (system : ℕ → Option OwnerEntry) (sockets : List ListenerSnapshot)
    (coverage : OwnerCoverage) :
    (Canonical system sockets (finish system sockets coverage).sockets ↔
      ¬ Interleaved sockets) ∧
    ((∀ sockets' : List ListenerSnapshot, sockets'.Perm sockets →
      SameRows (finish system sockets' coverage).sockets
        (finish system sockets coverage).sockets) ↔ ¬ Mixed sockets) :=
  ⟨finish_canonical coverage, finish_sameRows coverage⟩

/-- A socket of one user on the port of multicast DNS, its process unknown. -/
def mdns (uid : ℕ) : ListenerSnapshot := ⟨.udp, .v4 0, 5353, none, none, none, some uid⟩

/-- Three sockets in one order make three rows, two of them equal, and in another order two. -/
theorem finish_canonical_fails :
    ¬ Canonical (fun _ => none) [mdns 501, mdns 65, mdns 501]
      (finish (fun _ => none) [mdns 501, mdns 65, mdns 501] .ownProcessesOnly).sockets ∧
    (finish (fun _ => none) [mdns 501, mdns 65, mdns 501] .ownProcessesOnly).sockets =
      [mdns 501, mdns 65, mdns 501] ∧
    (finish (fun _ => none) [mdns 501, mdns 501, mdns 65] .ownProcessesOnly).sockets =
      [mdns 501, mdns 65] := by
  refine ⟨?_, by decide, by decide⟩
  intro h
  exact absurd h.nodup (by decide)

end Listeners

end Zstats
