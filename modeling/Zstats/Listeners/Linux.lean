import Zstats.Listeners.Owners
import Zstats.Listeners.ProcPrinted
import Zstats.Listeners.Torn
import Zstats.Listeners.Traffic

namespace Zstats.Linux

open Bytes Diag Failing Grouping Procnet Sockdiag
open Pcblist (FlowBytes)

/-- Each table with its protocol, and whether it is IPv6's. -/
def tables : List (String × Protocol × Bool) :=
  [("/proc/net/tcp", .tcp, false), ("/proc/net/tcp6", .tcp, true), ("/proc/net/udp", .udp, false),
    ("/proc/net/udp6", .udp, true)]

section Listeners

variable (debug : List Char → String) (e : Endian) (errorText : ErrorKind → String)
  (files : String → Except ErrorKind (List Char))

/-- The rows of one table. A kernel built without IPv6 has no table of it. -/
def readTable (path : String) (protocol : Protocol) (v6 : Bool) : Except CollectError (List Row) :=
  match files path with
  | .ok text => (Procnet.parse debug e text protocol v6).mapError fun message =>
    .system (path ++ ": " ++ message)
  | .error kind =>
    if v6 ∧ kind = .notFound then .ok [] else .error (.system (path ++ ": " ++ errorText kind))

def readRows : Except CollectError (List Row) :=
  tables.foldlM (fun rows entry => do
    return rows ++ (← readTable debug e errorText files entry.1 entry.2.1 entry.2.2)) []

/-- Inode 0 is a socket with no file behind it. -/
def wantedRows (rows : List Row) : Finset ℕ := ((rows.map Row.inode).filter (· ≠ 0)).toFinset

def rowSnapshot (owners : ℕ → Option ℕ) (row : Row) : ListenerSnapshot where
  protocol := row.protocol
  address := row.address
  port := row.port
  pid := owners row.inode
  process := none
  runTimeSecs := none
  uid := some row.uid

def listeners (proc : Procfs) (system : ℕ → Option OwnerEntry) :
    Except CollectError Listeners := do
  let rows ← readRows debug e errorText files
  let (owners, coverage) := proc.owners (wantedRows rows)
  return Listeners.finish system (rows.map (rowSnapshot owners.lookup)) coverage

end Listeners

section Traffic

/-- What the calls that open the netlink socket return: the socket, and an errno for each of the
later ones that fails. -/
structure Opening where
  socket : Except ℤ Diag.Socket
  bind : Option ℤ
  rcvBuf : Option ℤ
  rcvTimeout : Option ℤ

variable (e : Endian) (errnoText : ℤ → String)

def openSocket (opening : Opening) : Except Fault Diag.Socket :=
  match opening.socket with
  | .error errno => .error (diagErr s!"socket: {errnoText errno}")
  | .ok fd =>
    match opening.bind, opening.rcvBuf, opening.rcvTimeout with
    | some errno, _, _ => .error (diagErr s!"bind: {errnoText errno}")
    | none, some errno, _ => .error (diagErr s!"SO_RCVBUF: {errnoText errno}")
    | none, none, some errno => .error (diagErr s!"SO_RCVTIMEO: {errnoText errno}")
    | none, none, none => .ok fd

/-- Every TCP socket's counters under its inode: `AF_INET`, then `AF_INET6`. -/
def tcpFlows (opening : Opening) : Except Fault (ℕ → Option TcpFlow) := do
  let fd ← openSocket errnoText opening
  let (found, fd) ← dumpFamily e errnoText 2 1 false fd fun _ => none
  let (found, _) ← dumpFamily e errnoText 10 2 true fd found
  return found

/-- The values of the map of flows, in its order. -/
structure Values (found : ℕ → Option TcpFlow) where
  flows : List TcpFlow
  nodup : (flows.map TcpFlow.inode).Nodup
  mem : ∀ flow, flow ∈ flows ↔ found flow.inode = some flow

/-- A flow under its owner, if it has one. -/
def ownedFlow (owners : ℕ → Option ℕ) (flow : TcpFlow) : Option FlowBytes :=
  (owners flow.inode).map fun pid => ⟨pid, flow.receivedBytes, flow.transmittedBytes⟩

/-- What follows the dump. -/
def trafficOf (proc : Procfs) (system : ℕ → Option OwnerEntry) (order : TotalsOrder)
    (flows : List TcpFlow) : ProcessTraffic :=
  let (owners, coverage) := proc.owners (flows.map TcpFlow.inode).toFinset
  finishTraffic system (trafficTotals order (flows.filterMap (ownedFlow owners.lookup))) coverage

/-- What a call can answer; the maps may be walked in any order. -/
def ProcessTrafficAnswers (proc : Procfs) (system : ℕ → Option OwnerEntry) (opening : Opening) :
    Except Fault ProcessTraffic → Prop
  | .error fault => tcpFlows e errnoText opening = .error fault
  | .ok traffic => ∃ found, tcpFlows e errnoText opening = .ok found ∧
    ∃ (values : Values found) (order : TotalsOrder),
      traffic = trafficOf proc system order values.flows

end Traffic

section Owning

variable {proc : Procfs} (world : Processes proc)

/-- The lowest listed process that could be read and holds the socket, or there is none. -/
def OwnerIs (inode : ℕ) : Option ℕ → Prop
  | some pid => world.Shows inode pid ∧ ∀ other, world.Shows inode other → pid ≤ other
  | none => ∀ pid, ¬ world.Shows inode pid

variable {world} {inode : ℕ} {wanted : Finset ℕ}

theorem OwnerIs.unique {owner owner' : Option ℕ} (h : OwnerIs world inode owner)
    (h' : OwnerIs world inode owner') : owner = owner' := by
  cases owner with
  | none =>
    cases owner' with
    | none => rfl
    | some pid => exact absurd h'.1 (h pid)
  | some pid =>
    cases owner' with
    | none => exact absurd h.1 (h' pid)
    | some pid' => exact congrArg some (le_antisymm (h.2 pid' h'.1) (h'.2 pid h.1))

/-- What the lookup says of a socket that is asked for does not depend on the other ones. -/
theorem ownerIs_lookup (h : inode ∈ wanted) :
    OwnerIs world inode ((proc.owners wanted).1.lookup inode) := by
  cases hfound : (proc.owners wanted).1.lookup inode with
  | none =>
    intro pid hpid
    obtain ⟨owner, howner⟩ := (owner_isSome world h).mpr ⟨pid, hpid⟩
    rw [hfound] at howner
    cases howner
  | some pid =>
    obtain ⟨-, hshows, hleast⟩ := owner_lowest world hfound
    exact ⟨hshows, hleast⟩

variable (world) in
/-- Some socket asked for has no owner, and some process denied its descriptors. -/
def Partial (wanted : Finset ℕ) : Prop :=
  (∃ inode ∈ wanted, ∀ pid, ¬ world.Shows inode pid) ∧
    ∃ pid, proc.Lists pid ∧ proc.fds pid = .error .permissionDenied

theorem coverage_own_iff :
    (proc.owners wanted).2 = .ownProcessesOnly ↔ Partial world wanted := by
  have hall := @coverage_all_iff proc wanted world
  have hother : (proc.owners wanted).2 = .ownProcessesOnly ↔
      ¬ (proc.owners wanted).2 = .allProcesses := by
    cases (proc.owners wanted).2 <;> simp
  rw [hother, hall, not_or, Partial]
  apply and_congr
  · push Not
    constructor
    · intro h
      obtain ⟨inode, hinode, hnone⟩ := h
      refine ⟨inode, hinode, ?_⟩
      intro pid hpid
      obtain ⟨owner, howner⟩ := (owner_isSome world hinode).mpr ⟨pid, hpid⟩
      exact hnone owner howner
    · intro h
      obtain ⟨inode, hinode, hnone⟩ := h
      refine ⟨inode, hinode, ?_⟩
      intro owner howner
      obtain ⟨pid, hpid⟩ := (owner_isSome world hinode).mp ⟨owner, howner⟩
      exact hnone pid hpid
  · push Not
    rfl

end Owning

section Flows

theorem lookupLast_append (flows later : List TcpFlow) (inode : ℕ) :
    byInode (flows ++ later) inode = (byInode later inode).or (byInode flows inode) := by
  induction later using List.reverseRecOn with
  | nil =>
    rw [List.append_nil]
    rfl
  | append_singleton later flow ih =>
    have hconcat (flows : List TcpFlow) : byInode (flows ++ [flow]) inode =
        if flow.inode = inode then some flow else byInode flows inode := by
      rw [byInode, List.map_append]
      exact Diffing.lookupLast_concat _ _ _
    rw [← List.append_assoc, hconcat, hconcat, ih]
    by_cases hinode : flow.inode = inode
    · rw [if_pos hinode, if_pos hinode, Option.some_or]
    · rw [if_neg hinode, if_neg hinode]

/-- The second family's flows are added to the first's. -/
theorem extend_byInode (flows later : List TcpFlow) :
    extend (extend (fun _ => none) (byInode flows)) (byInode later) = byInode (flows ++ later) := by
  funext inode
  rw [lookupLast_append, extend, extend, Option.or_none]

theorem byInode_mem {flows : List TcpFlow} {inode : ℕ} {flow : TcpFlow}
    (h : byInode flows inode = some flow) : flow ∈ flows ∧ flow.inode = inode := by
  obtain ⟨found, hfound, heq⟩ := List.mem_map.mp (Diffing.mem_of_lookupLast h)
  obtain ⟨hinode, hflow⟩ := Prod.mk.inj heq
  rw [← hflow]
  exact ⟨hfound, hinode⟩

/-- One value for each inode. -/
def kept (flows : List TcpFlow) : List TcpFlow :=
  (flows.map TcpFlow.inode).dedup.filterMap (byInode flows)

theorem kept_nodup (flows : List TcpFlow) : ((kept flows).map TcpFlow.inode).Nodup := by
  have hkey : ∀ inode flow, byInode flows inode = some flow → flow.inode = id inode :=
    fun inode flow h => (byInode_mem h).2
  have hsub := filterMap_keys_sublist hkey (flows.map TcpFlow.inode).dedup
  rw [List.map_id] at hsub
  exact hsub.nodup (List.nodup_dedup _)

theorem mem_kept {flows : List TcpFlow} (flow : TcpFlow) :
    flow ∈ kept flows ↔ byInode flows flow.inode = some flow := by
  rw [kept, List.mem_filterMap]
  constructor
  · intro h
    obtain ⟨inode, -, hflow⟩ := h
    rw [(byInode_mem hflow).2]
    exact hflow
  · intro h
    exact ⟨flow.inode, List.mem_dedup.mpr (List.mem_map_of_mem (byInode_mem h).1), h⟩

/-- A map made of flows has values. -/
def valuesOf (flows : List TcpFlow) : Values (byInode flows) where
  flows := kept flows
  nodup := kept_nodup flows
  mem := mem_kept

end Flows

section Accounting

open ProcessTraffic

variable {e : Endian} {errnoText : ℤ → String} {proc : Procfs} {world : Processes proc}
  {system : ℕ → Option OwnerEntry}

theorem Values.perm {flows : List TcpFlow} (values : Values (byInode flows)) :
    values.flows.Perm (kept flows) := by
  refine (List.perm_ext_iff_of_nodup values.nodup.of_map (kept_nodup flows).of_map).mpr ?_
  intro flow
  rw [values.mem, mem_kept]

/-- The owners that the lookup gives are those that hold the sockets. -/
theorem filterMap_ownedFlow {owner : ℕ → Option ℕ} (hown : ∀ inode, OwnerIs world inode (owner inode))
    (flows : List TcpFlow) :
    flows.filterMap (ownedFlow (proc.owners (flows.map TcpFlow.inode).toFinset).1.lookup) =
      flows.filterMap (ownedFlow owner) := by
  apply List.filterMap_congr
  intro flow hflow
  have hwanted : flow.inode ∈ (flows.map TcpFlow.inode).toFinset :=
    List.mem_toFinset.mpr (List.mem_map_of_mem hflow)
  have hlookup := @ownerIs_lookup proc world flow.inode (flows.map TcpFlow.inode).toFinset hwanted
  rw [ownedFlow, ownedFlow, hlookup.unique (hown flow.inode)]

theorem trafficOf_accounts (order : TotalsOrder) {flows : List TcpFlow}
    (values : Values (byInode flows)) {owner : ℕ → Option ℕ}
    (hown : ∀ inode, OwnerIs world inode (owner inode)) :
    Accounts system ((kept flows).filterMap (ownedFlow owner))
      (trafficOf proc system order values.flows).processes := by
  have haccounts : Accounts system (values.flows.filterMap (ownedFlow owner))
      (trafficOf proc system order values.flows).processes := by
    have hfinish := @finish_accounts system order (values.flows.filterMap
      (ownedFlow (proc.owners (values.flows.map TcpFlow.inode).toFinset).1.lookup))
      (proc.owners (values.flows.map TcpFlow.inode).toFinset).2
    rw [filterMap_ownedFlow hown values.flows] at hfinish
    rw [trafficOf]
    simp only [filterMap_ownedFlow hown values.flows]
    exact hfinish
  exact haccounts.perm (values.perm.filterMap _)

theorem trafficOf_coverage (order : TotalsOrder) {flows : List TcpFlow}
    (values : Values (byInode flows)) :
    (trafficOf proc system order values.flows).coverage = .ownProcessesOnly ↔
      Partial world ((kept flows).map TcpFlow.inode).toFinset := by
  have hwanted : (values.flows.map TcpFlow.inode).toFinset =
      ((kept flows).map TcpFlow.inode).toFinset :=
    List.toFinset_eq_of_perm _ _ (values.perm.map TcpFlow.inode)
  rw [← hwanted]
  exact coverage_own_iff

/-- The dump fits, and the kernel did not mark its end. -/
structure Whole (w : Walk e) : Prop where
  fits : w.Fits
  unmarked : ¬ w.EndMarked

/-- All the calls that open the socket succeed. -/
def opened (fd : Diag.Socket) : Opening := ⟨.ok fd, none, none, none⟩

theorem dumpFamily_whole {family : UInt8} {seq : UInt32} (x : Exchange e family seq)
    (h : Whole x.walk) (ipv6 : Bool) (fd : Diag.Socket) (into : ℕ → Option TcpFlow) :
    dumpFamily e errnoText family seq ipv6 (x.before fd) into =
      .ok (extend into (byInode x.walk.flows), fd) := by
  have hwalk := @dumpWalks_readable e seq family errnoText ipv6 x fd into (fun _ => none) 2
    h.fits.readable
  rw [if_neg h.unmarked, h.fits.copiedFlows] at hwalk
  exact hwalk

theorem tcpFlows_whole {x₄ : Exchange e 2 1} {x₆ : Exchange e 10 2} (h₄ : Whole x₄.walk)
    (h₆ : Whole x₆.walk) (rest : Diag.Socket) :
    tcpFlows e errnoText (opened (x₄.before (x₆.before rest))) =
      .ok (byInode (x₄.walk.flows ++ x₆.walk.flows)) := by
  have hopen : openSocket errnoText (opened (x₄.before (x₆.before rest))) =
      .ok (x₄.before (x₆.before rest)) := rfl
  rw [tcpFlows, hopen, ok_bind, dumpFamily_whole x₄ h₄, ok_bind]
  simp only [dumpFamily_whole x₆ h₆, ok_bind, extend_byInode]
  rfl

/-- The order in which the pids were first seen. -/
def inTurn : TotalsOrder := ⟨id, List.Perm.refl⟩

end Accounting

/-- Two dumps that the kernel did not mark are always answered, and always with the same rows: one
for each process that is the lowest to hold some socket of them, with the sums of the counters of
just those sockets. The coverage tells whether a denial may have hidden an owner. -/
theorem traffic_exact {e : Endian} (errnoText : ℤ → String) (proc : Procfs)
    (world : Processes proc) (system : ℕ → Option OwnerEntry) (x₄ : Exchange e 2 1)
    (x₆ : Exchange e 10 2) (rest : Diag.Socket) (h₄ : Whole x₄.walk) (h₆ : Whole x₆.walk) :
    (∃ traffic, ProcessTrafficAnswers e errnoText proc system
      (opened (x₄.before (x₆.before rest))) (.ok traffic)) ∧
    ∀ answer, ProcessTrafficAnswers e errnoText proc system
        (opened (x₄.before (x₆.before rest))) answer →
      ∃ traffic, answer = .ok traffic ∧
        (∀ owner : ℕ → Option ℕ, (∀ inode, OwnerIs world inode (owner inode)) →
          ProcessTraffic.Accounts system
            ((kept (x₄.walk.flows ++ x₆.walk.flows)).filterMap (ownedFlow owner))
            traffic.processes) ∧
        (traffic.coverage = .ownProcessesOnly ↔
          Partial world ((kept (x₄.walk.flows ++ x₆.walk.flows)).map TcpFlow.inode).toFinset) := by
  have hflows := @tcpFlows_whole e errnoText x₄ x₆ h₄ h₆ rest
  constructor
  · exact ⟨_, _, hflows, valuesOf _, inTurn, rfl⟩
  · intro answer h
    cases answer with
    | error fault => cases hflows.symm.trans h
    | ok traffic =>
      obtain ⟨found, hfound, values, order, rfl⟩ := h
      obtain rfl := Except.ok.inj (hfound.symm.trans hflows)
      exact ⟨_, rfl, fun owner hown => trafficOf_accounts order values hown,
        trafficOf_coverage order values⟩

/-- Process 7 holds socket 9. -/
def shell : Procfs where
  names := some [some "7".toList]
  fds _ := .ok [some "socket:[9]".toList]

theorem shell_links {pid : ℕ} {links : List (Option (List Char))} (h : shell.fds pid = .ok links) :
    links = [some (socketLink 9)] := (Except.ok.inj h).symm

def shellWorld : Processes shell where
  held _ := {9}
  alive := {7}
  names := by
    intro name hname
    obtain rfl := Option.some.inj (List.mem_singleton.mp hname)
    exact Or.inl ⟨7, by decide, rfl⟩
  links := by
    intro pid links h link hlink
    obtain rfl := shell_links h
    obtain rfl := Option.some.inj (List.mem_singleton.mp hlink)
    exact Or.inl ⟨9, by decide, rfl⟩
  shown := by
    intro pid links h inode
    obtain rfl := shell_links h
    rw [Set.mem_singleton_iff, List.mem_singleton]
    constructor
    · rintro rfl
      exact ⟨by decide, rfl⟩
    · rintro ⟨hle, hlink⟩
      have hread := socketInode_link hle
      rw [Option.some.inj hlink, socketInode_link (by decide)] at hread
      exact (Option.some.inj hread).symm
  exited := fun _ h => by cases h

/-- IPv6's request, answered as IPv4's was. -/
def secondExchange : Exchange .little 10 2 where
  sends := [.ok 72]
  sent := fun errnoText later => by cases later <;> rfl
  walk := tornWalk

theorem tornWalk_whole : Whole tornWalk := ⟨tornWalk_fits, tornWalk_marked.2⟩

theorem traffic_exact_shell :
    ∃ traffic, ProcessTrafficAnswers .little (fun _ => "") shell (fun _ => none)
      (opened (tornExchange.before (secondExchange.before ⟨[], []⟩))) (.ok traffic) :=
  (traffic_exact (fun _ => "") shell shellWorld (fun _ => none) tornExchange secondExchange ⟨[], []⟩
    tornWalk_whole tornWalk_whole).1

section Listening

/-- A table as the kernel prints it. -/
structure PrintedTable (v6 : Bool) where
  header : Header
  rows : List (PrintedRow v6)

def PrintedTable.text (e : Endian) {v6 : Bool} (t : PrintedTable v6) : List Char :=
  table e t.header t.rows

/-- The sockets of a table that are listening. -/
def PrintedTable.listening (protocol : Protocol) {v6 : Bool} (t : PrintedTable v6) : List Row :=
  ((t.rows.map (·.socket)).filter (Socket.listens protocol)).map (Socket.row protocol)

/-- The files of `/proc/net`; those of IPv6 may be missing. -/
structure ProcNet (e : Endian) where
  files : String → Except ErrorKind (List Char)
  tcp : PrintedTable false
  tcp6 : Option (PrintedTable true)
  udp : PrintedTable false
  udp6 : Option (PrintedTable true)
  tcpText : files "/proc/net/tcp" = .ok (tcp.text e)
  tcp6Text : files "/proc/net/tcp6" = okOr (tcp6.map (·.text e)) .notFound
  udpText : files "/proc/net/udp" = .ok (udp.text e)
  udp6Text : files "/proc/net/udp6" = okOr (udp6.map (·.text e)) .notFound

/-- The listening sockets of all tables. -/
def ProcNet.listening {e : Endian} (net : ProcNet e) : List Row :=
  net.tcp.listening .tcp ++ net.tcp6.elim [] (·.listening .tcp) ++
    net.udp.listening .udp ++ net.udp6.elim [] (·.listening .udp)

variable {debug : List Char → String} {e : Endian} {errorText : ErrorKind → String}

/-- A printed table gives the sockets that are listening. -/
theorem parse_text {v6 : Bool} (t : PrintedTable v6) (protocol : Protocol) :
    Procnet.parse debug e (t.text e) protocol v6 = .ok (t.listening protocol) := by
  have htable : IsTable Numeral.Spells v6 (t.text e) (t.rows.map fun row => row.socket.entry e) :=
    isTable_printed t.header t.rows
  apply parse_eq_ok.mpr
  refine ⟨_, htable.reads, ?_⟩
  rw [PrintedTable.listening, List.filterMap_map, ← List.filterMap_eq_map, List.filterMap_filter,
    List.filterMap_map]
  apply List.filterMap_congr
  intro row _
  exact (row_entry protocol row.socket).symm

theorem readTable_text {files : String → Except ErrorKind (List Char)} {path : String}
    {v6 : Bool} {t : PrintedTable v6} (h : files path = .ok (t.text e)) (protocol : Protocol) :
    readTable debug e errorText files path protocol v6 = .ok (t.listening protocol) := by
  rw [readTable]
  simp only [h, parse_text]
  rfl

/-- A table of IPv6 may be missing. -/
theorem readTable_v6 {files : String → Except ErrorKind (List Char)} {path : String}
    {t : Option (PrintedTable true)} (h : files path = okOr (t.map (·.text e)) .notFound)
    (protocol : Protocol) : readTable debug e errorText files path protocol true =
      .ok (t.elim [] (·.listening protocol)) := by
  cases t with
  | none =>
    have hmissing : files path = .error .notFound := h
    rw [readTable]
    simp only [hmissing]
    rfl
  | some t => exact readTable_text h protocol

theorem readRows_net (net : ProcNet e) :
    readRows debug e errorText net.files = .ok net.listening := by
  rw [readRows, tables]
  simp only [List.foldlM_cons, List.foldlM_nil, readTable_text net.tcpText,
    readTable_v6 net.tcp6Text, readTable_text net.udpText, readTable_v6 net.udp6Text, ok_bind,
    pure_eq, List.nil_append]
  rfl

/-- Who owns each socket that has a file behind it. -/
structure OwnersAre {proc : Procfs} (world : Processes proc) (owner : ℕ → Option ℕ) : Prop where
  none : owner 0 = none
  some : ∀ inode, inode ≠ 0 → OwnerIs world inode (owner inode)

theorem lookup_rows {proc : Procfs} {world : Processes proc} {owner : ℕ → Option ℕ}
    (hown : OwnersAre world owner) {rows : List Row} {row : Row} (h : row ∈ rows) :
    (proc.owners (wantedRows rows)).1.lookup row.inode = owner row.inode := by
  by_cases hzero : row.inode = 0
  · have hnot : 0 ∉ (proc.owners (wantedRows rows)).1 := by
      intro hmem
      have hwanted := owners_wanted hmem
      simp [wantedRows] at hwanted
    rw [hzero, hown.none]
    exact AList.lookup_eq_none.mpr hnot
  · have hwanted : row.inode ∈ wantedRows rows := by
      rw [wantedRows, List.mem_toFinset, List.mem_filter]
      exact ⟨List.mem_map_of_mem h, decide_eq_true hzero⟩
    have hlookup := @ownerIs_lookup proc world row.inode (wantedRows rows) hwanted
    exact hlookup.unique (hown.some row.inode hzero)

theorem listeners_net (net : ProcNet e) (proc : Procfs) (system : ℕ → Option OwnerEntry) :
    listeners debug e errorText net.files proc system =
      .ok (Listeners.finish system
        (net.listening.map (rowSnapshot (proc.owners (wantedRows net.listening)).1.lookup))
        (proc.owners (wantedRows net.listening)).2) := by
  rw [listeners, readRows_net net]
  rfl

end Listening

section Stopping

variable (debug : List Char → String) (e : Endian) (errorText : ErrorKind → String)
  (files : String → Except ErrorKind (List Char))

/-- Why a table ends the listing: it cannot be read, unless it is one of IPv6 and missing, or it is
none of the grammar. -/
inductive Stops : String × Protocol × Bool → CollectError → Prop
  | unreadable {path : String} {protocol : Protocol} {v6 : Bool} {kind : ErrorKind}
      (file : files path = .error kind) (needed : ¬ (v6 = true ∧ kind = .notFound)) :
      Stops (path, protocol, v6) (.system (path ++ ": " ++ errorText kind))
  | malformed {path : String} {protocol : Protocol} {v6 : Bool} {text : List Char}
      {message : String} (file : files path = .ok text)
      (none : ¬ ∃ entries, IsTable Numeral.Reads v6 text entries)
      (refusal : Procnet.parse debug e text protocol v6 = .error message) :
      Stops (path, protocol, v6) (.system (path ++ ": " ++ message))

variable {debug e errorText files}

theorem not_table {text : List Char} {protocol : Protocol} {v6 : Bool} {message : String}
    (h : Procnet.parse debug e text protocol v6 = .error message) :
    ¬ ∃ entries, IsTable Numeral.Reads v6 text entries := by
  rintro ⟨entries, htable⟩
  have hparse : Procnet.parse debug e text protocol v6 =
      .ok (entries.filterMap (Entry.row e v6 protocol)) := parse_eq_ok.mpr ⟨entries, htable, rfl⟩
  rw [h] at hparse
  cases hparse

theorem readTable_eq_error {entry : String × Protocol × Bool} {fault : CollectError} :
    readTable debug e errorText files entry.1 entry.2.1 entry.2.2 = .error fault ↔
      Stops debug e errorText files entry fault := by
  obtain ⟨path, protocol, v6⟩ := entry
  rw [readTable]
  constructor
  · intro h
    cases hfile : files path with
    | ok text =>
      cases hparse : Procnet.parse debug e text protocol v6 with
      | ok rows =>
        simp only [hfile, hparse] at h
        cases h
      | error message =>
        simp only [hfile, hparse] at h
        obtain rfl := Except.error.inj h
        exact .malformed hfile (not_table hparse) hparse
    | error kind =>
      simp only [hfile] at h
      by_cases hmissing : v6 = true ∧ kind = .notFound
      · rw [if_pos hmissing] at h
        cases h
      · rw [if_neg hmissing] at h
        obtain rfl := Except.error.inj h
        exact .unreadable hfile hmissing
  · intro h
    cases h with
    | unreadable hfile hneeded => simp only [hfile, if_neg hneeded]
    | malformed hfile _ hrefusal =>
      simp only [hfile, hrefusal]
      rfl

theorem readTable_reads {entry : String × Protocol × Bool} :
    (∃ rows, readTable debug e errorText files entry.1 entry.2.1 entry.2.2 = .ok rows) ↔
      ∀ fault, ¬ Stops debug e errorText files entry fault := by
  cases hread : readTable debug e errorText files entry.1 entry.2.1 entry.2.2 with
  | ok rows =>
    constructor
    · intro _ fault hstops
      rw [readTable_eq_error.mpr hstops] at hread
      cases hread
    · intro _
      exact ⟨rows, rfl⟩
  | error fault =>
    constructor
    · rintro ⟨rows, hrows⟩
      cases hrows
    · intro h
      exact absurd (readTable_eq_error.mp hread) (h fault)

/-- The listing ends with the first table that ends it. -/
theorem listeners_eq_error (proc : Procfs) (system : ℕ → Option OwnerEntry)
    (fault : CollectError) :
    listeners debug e errorText files proc system = .error fault ↔
      ∃ before entry after, tables = before ++ entry :: after ∧
        (∀ other ∈ before, ∀ fault, ¬ Stops debug e errorText files other fault) ∧
        Stops debug e errorText files entry fault := by
  have hrows : listeners debug e errorText files proc system = .error fault ↔
      readRows debug e errorText files = .error fault := by
    rw [listeners]
    cases readRows debug e errorText files with
    | ok rows =>
      constructor
      · intro h
        cases h
      · intro h
        cases h
    | error failure => simp only [error_bind, Except.error.injEq]
  rw [hrows, readRows, foldlM_eq_error]
  simp only [readTable_eq_error, readTable_reads]

end Stopping

/-- The listing fails with the first table that cannot be read, where one of IPv6 may be missing, or
that is malformed. The tables as the kernel prints them, those of IPv6 there or not, give the
sockets that are listening and no others, each with the lowest process that holds it, in their
order; and the coverage tells whether a denial may have hidden an owner. -/
theorem listeners_exact (debug : List Char → String) (e : Endian)
    (errorText : ErrorKind → String) (proc : Procfs) (world : Processes proc)
    (system : ℕ → Option OwnerEntry) :
    (∀ files fault, listeners debug e errorText files proc system = .error fault ↔
      ∃ before entry after, tables = before ++ entry :: after ∧
        (∀ other ∈ before, ∀ fault, ¬ Stops debug e errorText files other fault) ∧
        Stops debug e errorText files entry fault) ∧
    ∀ net : ProcNet e, ∃ found, listeners debug e errorText net.files proc system = .ok found ∧
      (∀ owner, OwnersAre world owner → ∀ row, row ∈ found.sockets ↔
        ∃ socket ∈ net.listening, row = (rowSnapshot owner socket).named system) ∧
      found.sockets.Pairwise (fun a b => a.sortKey ≤ b.sortKey) ∧
      (found.coverage = .ownProcessesOnly ↔ Partial world (wantedRows net.listening)) := by
  refine ⟨fun files fault => listeners_eq_error proc system fault, ?_⟩
  intro net
  refine ⟨_, listeners_net net proc system, ?_, ?_, ?_⟩
  · intro owner hown row
    have hsnapshots : net.listening.map
        (rowSnapshot (proc.owners (wantedRows net.listening)).1.lookup) =
          net.listening.map (rowSnapshot owner) := by
      apply List.map_congr_left
      intro socket hsocket
      rw [rowSnapshot, lookup_rows hown hsocket, rowSnapshot]
    rw [Listeners.mem_finish, hsnapshots]
    simp only [List.mem_map, exists_exists_and_eq_and]
  · rw [Listeners.finish_sockets]
    exact Collapse.pairwise_collapse _ _
  · exact coverage_own_iff

/-- A kernel without IPv6, on which one socket is listening. -/
def loopback : ProcNet .little where
  files path :=
    if path = "/proc/net/tcp" then .ok (table .little printedHeader [printedRow])
    else if path = "/proc/net/udp" then .ok (table .little printedHeader [])
    else .error .notFound
  tcp := ⟨printedHeader, [printedRow]⟩
  tcp6 := none
  udp := ⟨printedHeader, []⟩
  udp6 := none
  tcpText := rfl
  tcp6Text := rfl
  udpText := rfl
  udp6Text := rfl

theorem shell_lists {pid : ℕ} (h : shell.Lists pid) : pid = 7 := by
  have htext : Nat.toDigits 10 pid = Nat.toDigits 10 7 :=
    Option.some.inj (List.mem_singleton.mp h)
  rw [← @Nat.ofDigitChars_ten_toDigits pid, htext, Nat.ofDigitChars_ten_toDigits]

def shellOwner (inode : ℕ) : Option ℕ := if inode = 9 then some 7 else none

theorem shellOwner_owns : OwnersAre shellWorld shellOwner where
  none := rfl
  some := by
    intro inode _
    rw [shellOwner]
    by_cases hnine : inode = 9
    · rw [if_pos hnine]
      refine ⟨⟨List.mem_singleton_self _, ⟨_, rfl⟩, hnine⟩, ?_⟩
      intro other hother
      exact (shell_lists hother.1).ge
    · rw [if_neg hnine]
      intro pid hpid
      exact hnine hpid.2.2

/-- Process 7 is `cupsd` and has run for a minute. -/
def cups (pid : ℕ) : Option OwnerEntry := if pid = 7 then some ⟨"cupsd", 1000, 60⟩ else none

theorem listeners_exact_loopback :
    (∃ found, listeners (fun _ => "") .little (fun _ => "") loopback.files shell cups =
        .ok found ∧
      (∀ row, row ∈ found.sockets ↔
        row = ⟨.tcp, .v4 0x7F000001, 631, some 7, some "cupsd", some 60, some 0⟩) ∧
      found.coverage ≠ .ownProcessesOnly) ∧
    listeners (fun _ => "") .little (fun _ => "no such file") (fun _ => .error .notFound) shell
        cups = .error (.system "/proc/net/tcp: no such file") := by
  have hlistening : loopback.listening = [⟨.tcp, .v4 0x7F000001, 631, 0, 9⟩] := rfl
  constructor
  · obtain ⟨found, hfound, hrows, -, hcoverage⟩ :=
      (listeners_exact (fun _ => "") .little (fun _ => "") shell shellWorld cups).2 loopback
    refine ⟨found, hfound, ?_, ?_⟩
    · intro row
      rw [hrows shellOwner shellOwner_owns, hlistening]
      simp only [List.mem_singleton, exists_eq_left]
      rfl
    · intro hown
      obtain ⟨-, pid, -, hdenied⟩ := hcoverage.mp hown
      cases hdenied
  · refine ((listeners_exact (fun _ => "") .little (fun _ => "no such file") shell shellWorld
      cups).1 _ _).mpr ⟨[], _, _, rfl, fun _ hother => absurd hother List.not_mem_nil, ?_⟩
    exact .unreadable rfl (fun h => Bool.false_ne_true h.1)

end Zstats.Linux
