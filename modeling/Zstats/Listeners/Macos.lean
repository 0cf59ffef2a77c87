import Zstats.Listeners.RoundTrip
import Zstats.Listeners.Traffic

namespace Zstats.Macos

open Bytes Failing Pcblist

inductive CollectError where
  | system (message : String)
  | restricted (message : String)
  deriving DecidableEq, Repr

/-- What one attempt to read a sysctl gives. -/
inductive Reading where
  | struct (bytes : List UInt8)
  | other
  | failed (text : String)
  deriving DecidableEq, Repr

/-- The sysctls: opened or refused with a text, then read as often as is asked. -/
structure Sysctl where
  new : String → Option String
  value : String → ℕ → Reading

def attempts : ℕ := 3

def systemError (name detail : String) : CollectError := .system (name ++ ": " ++ detail)

/-- The attempts that are left, after one that failed with `lastError`. -/
def readAttempts (name lastError : String) : List Reading → Except CollectError (List UInt8)
  | [] => .error (systemError name lastError)
  | .struct bytes :: _ => .ok bytes
  | .other :: _ => .error (systemError name "not a struct-typed sysctl")
  | .failed text :: later => readAttempts name text later

def readTable (ctl : Sysctl) (name : String) : Except CollectError (List UInt8) :=
  match ctl.new name with
  | some text => .error (systemError name text)
  | none => readAttempts name "" ((List.range attempts).map (ctl.value name))

/-- Fewer sockets than the header counts, and none of another process. -/
def showsOnly (parsed : Parsed) (ownPid : ℕ) : Bool :=
  decide (parsed.sockets < parsed.headerCount) && decide (∀ pid ∈ parsed.owners, pid = ownPid)

/-- `flows` are what is added to the map of traffic, in order. -/
structure Tables where
  listeners : List ListenerSnapshot := []
  flows : List FlowBytes := []
  restricted : Bool := false

def tableNames : List (String × Protocol) :=
  [("net.inet.tcp.pcblist_n", .tcp), ("net.inet.udp.pcblist_n", .udp)]

section

variable (e : Endian) (ctl : Sysctl) (ownPid : ℕ)

def parseTable (name : String) (protocol : Protocol) : Except CollectError Parsed := do
  let table ← readTable ctl name
  (parse e table protocol).mapError fun message =>
    systemError name ("socket table layout not recognised: " ++ message)

def Tables.add (tables : Tables) (parsed : Parsed) : Tables where
  listeners := tables.listeners ++ parsed.listeners
  flows := tables.flows ++ parsed.flows
  restricted := tables.restricted || showsOnly parsed ownPid

def readTables : Except CollectError Tables :=
  tableNames.foldlM (fun tables entry => do
    return tables.add ownPid (← parseTable e ctl entry.1 entry.2)) {}

def restricted : CollectError :=
  .restricted ("macOS shows this process only its own sockets; the socket table " ++
    "names every owner only to a process with an app-bundle identity")

def listeners (system : ℕ → Option OwnerEntry) : Except CollectError Listeners := do
  let tables ← readTables e ctl ownPid
  if tables.restricted then .error restricted
  else .ok (Listeners.finish system tables.listeners .allProcesses)

def processTraffic (system : ℕ → Option OwnerEntry) (order : TotalsOrder) :
    Except CollectError ProcessTraffic := do
  let tables ← readTables e ctl ownPid
  if tables.restricted then .error restricted
  else .ok (finishTraffic system (trafficTotals order tables.flows) .allProcesses)

end

section Walking

variable {e : Endian} {protocol : Protocol} {P : Parsed → Prop}

variable (e protocol P) in
/-- Taking a socket keeps the property. -/
def TakeKeeps : Prop :=
  ∀ parsed run parsed', P parsed → parsed.take e run protocol = .ok parsed' → P parsed'

theorem absorb_keeps (hkeeps : TakeKeeps e protocol P) {kind : ℕ} {record : List UInt8}
    {run run' : Option Run} {parsed parsed' : Parsed} (hp : P parsed)
    (h : absorb e protocol kind record run parsed = .ok (run', parsed')) : P parsed' := by
  cases hexpected : expectedLen kind with
  | none =>
    simp only [absorb, hexpected, Except.ok.injEq, Prod.mk.injEq] at h
    rw [← h.2]
    exact hp
  | some expected =>
    simp only [absorb, hexpected] at h
    by_cases hlen : expected ≠ record.length
    · rw [if_pos hlen] at h
      cases h
    · rw [if_neg hlen] at h
      by_cases hinpcb : kind = xsoInpcb
      · rw [if_pos hinpcb] at h
        cases run with
        | none =>
          obtain ⟨-, rfl⟩ := Prod.mk.inj (Except.ok.inj h)
          exact hp
        | some done =>
          dsimp only at h
          cases htake : parsed.take e done protocol with
          | error message =>
            rw [htake] at h
            cases h
          | ok taken =>
            rw [htake] at h
            obtain ⟨-, rfl⟩ := Prod.mk.inj (Except.ok.inj h)
            exact hkeeps parsed done taken hp htake
      · rw [if_neg hinpcb] at h
        cases run with
        | none => cases h
        | some current =>
          dsimp only at h
          split_ifs at h
          all_goals
            obtain ⟨-, rfl⟩ := Prod.mk.inj (Except.ok.inj h)
            exact hp

theorem finish_keeps (hkeeps : TakeKeeps e protocol P) {run : Option Run}
    {parsed parsed' : Parsed} (hp : P parsed) (h : finish e protocol run parsed = .ok parsed') :
    P parsed' := by
  cases run with
  | none =>
    obtain rfl := Except.ok.inj h
    exact hp
  | some done => exact hkeeps parsed done parsed' hp h

/-- What taking a socket keeps, the whole walk keeps. -/
theorem walk_keeps (hkeeps : TakeKeeps e protocol P) {table : List UInt8} {pos : ℕ}
    {run : Option Run} {parsed parsed' : Parsed} (hp : P parsed)
    (h : walk e protocol table pos run parsed = .ok parsed') : P parsed' := by
  induction hn : table.length - pos using Nat.strong_induction_on generalizing pos run parsed with
  | h n ih =>
    cases hlen : readU32 e table pos with
    | none => simp [walk, hlen] at h
    | some len =>
      cases hkind : readU32 e table (pos + 4) with
      | none => simp [walk, hlen, hkind] at h
      | some kind =>
        cases hslice : slice table pos len with
        | none =>
          rw [walk, hlen, hkind] at h
          dsimp only at h
          split at h
          · cases h
          · rename_i hsome
            rw [hslice] at hsome
            cases hsome
        | some record =>
          rw [walk_read _ _ hlen hkind hslice] at h
          by_cases hend : len = xinpgenLen
          · rw [if_pos hend] at h
            exact finish_keeps hkeeps hp h
          · rw [if_neg hend] at h
            by_cases htiny : len < recordHeaderLen
            · rw [if_pos htiny] at h
              cases h
            · rw [if_neg htiny] at h
              cases habsorb : absorb e protocol kind record run parsed with
              | error message =>
                rw [habsorb] at h
                cases h
              | ok next =>
                obtain ⟨run', next'⟩ := next
                rw [habsorb] at h
                have hbound := (slice_length hslice).2
                have hstep : table.length - (pos + align8 len) < n := by
                  simp only [recordHeaderLen, align8] at *
                  omega
                exact ih _ hstep (absorb_keeps hkeeps hp habsorb) h rfl

theorem parse_keeps (hkeeps : TakeKeeps e protocol P)
    (hstart : ∀ headerCount, P { headerCount := headerCount }) {table : List UInt8}
    {parsed : Parsed} (h : parse e table protocol = .ok parsed) : P parsed := by
  rw [parse] at h
  obtain ⟨opening, -, h⟩ := bind_eq_ok.mp h
  dsimp only at h
  split_ifs at h with hopening
  · cases h
  · obtain ⟨headerCount, -, h⟩ := bind_eq_ok.mp h
    exact walk_keeps hkeeps (hstart headerCount) h

end Walking

/-- The owners are those of the flows, and every listener's is among them. -/
structure Told (parsed : Parsed) : Prop where
  owners : ∀ pid, pid ∈ parsed.owners ↔ ∃ flow ∈ parsed.flows, flow.pid = pid
  listeners : ∀ listener ∈ parsed.listeners, ∀ pid, listener.pid = some pid → pid ∈ parsed.owners

section Telling

variable {e : Endian} {protocol : Protocol}

theorem listened_pid {listening : Bool} {owner owner' : Option ℕ} {row listener : ListenerSnapshot}
    (h : (if (!listening) = true then pure (some (owner, none))
      else pure (some (owner, some row)) : Except String (Option (Option ℕ × Option _))) =
        .ok (some (owner', some listener))) (hrow : row.pid = owner) : listener.pid = owner' := by
  cases listening with
  | false => cases h
  | true =>
    obtain ⟨howner, hlistener⟩ := Prod.mk.inj (Option.some.inj (Except.ok.inj h))
    rw [← Option.some.inj hlistener, hrow, howner]

/-- A listener is classified with the owner of its socket. -/
theorem classify_pid {run : Run} {owner : Option ℕ} {listener : ListenerSnapshot}
    (h : classify e run protocol = .ok (some (owner, some listener))) : listener.pid = owner := by
  cases hinpcb : run.inpcb with
  | none => simp [classify, hinpcb] at h
  | some inpcb =>
    cases hsocket : run.socket with
    | none => simp [classify, hinpcb, hsocket] at h
    | some socket =>
      simp only [classify, hinpcb, hsocket] at h
      obtain ⟨soProtocol, -, h⟩ := bind_eq_ok.mp h
      split_ifs at h with hdetached hother
      · cases h
      · cases h
      · obtain ⟨port, -, h⟩ := bind_eq_ok.mp h
        split_ifs at h with hport
        · cases h
        · obtain ⟨vflag, -, h⟩ := bind_eq_ok.mp h
          obtain ⟨address, -, h⟩ := bind_eq_ok.mp h
          cases protocol with
          | tcp =>
            obtain ⟨tcpcb, -, h⟩ := bind_eq_ok.mp h
            obtain ⟨state, -, h⟩ := bind_eq_ok.mp h
            obtain ⟨listening, -, h⟩ := bind_eq_ok.mp h
            exact listened_pid h rfl
          | udp =>
            obtain ⟨foreignPort, -, h⟩ := bind_eq_ok.mp h
            split_ifs at h with hforeign
            · obtain ⟨foreign, -, h⟩ := bind_eq_ok.mp h
              obtain ⟨listening, -, h⟩ := bind_eq_ok.mp h
              exact listened_pid h rfl
            · obtain ⟨listening, -, h⟩ := bind_eq_ok.mp h
              exact listened_pid h rfl

theorem told_start (headerCount : ℕ) : Told { headerCount := headerCount } := by
  constructor
  · intro pid
    simp
  · intro listener h
    cases h

theorem told_take : TakeKeeps e protocol Told := by
  intro parsed run parsed' hp h
  rw [Parsed.take] at h
  obtain ⟨found, hclass, h⟩ := bind_eq_ok.mp h
  cases found with
  | none =>
    obtain rfl := Except.ok.inj h
    exact ⟨hp.owners, hp.listeners⟩
  | some found =>
    obtain ⟨owner, listener⟩ := found
    obtain ⟨stats, -, h⟩ := bind_eq_ok.mp h
    obtain ⟨sums, -, h⟩ := bind_eq_ok.mp h
    obtain rfl := Except.ok.inj h
    constructor
    · intro pid
      simp only [Finset.mem_union, Option.mem_toFinset, Option.mem_def, List.mem_append,
        List.mem_map, Option.mem_toList, hp.owners pid]
      constructor
      · intro hpid
        rcases hpid with hpid | hpid
        · obtain ⟨flow, hflow, heq⟩ := hpid
          exact ⟨flow, Or.inl hflow, heq⟩
        · exact ⟨_, Or.inr ⟨pid, hpid, rfl⟩, rfl⟩
      · intro hpid
        obtain ⟨flow, hflow, heq⟩ := hpid
        rcases hflow with hflow | hflow
        · exact Or.inl ⟨flow, hflow, heq⟩
        · obtain ⟨pid', hpid', rfl⟩ := hflow
          have hsame : pid' = pid := heq
          rw [← hsame]
          exact Or.inr hpid'
    · intro row hrow pid hpid
      simp only [Finset.mem_union, Option.mem_toFinset, Option.mem_def]
      rcases List.mem_append.mp hrow with hold | hnew
      · exact Or.inl (hp.listeners row hold pid hpid)
      · rw [Option.mem_toList] at hnew
        rw [Option.mem_def.mp hnew] at hclass
        rw [← classify_pid hclass]
        exact Or.inr hpid

theorem told_parse {table : List UInt8} {parsed : Parsed} (h : parse e table protocol = .ok parsed) :
    Told parsed :=
  parse_keeps told_take told_start h

theorem told_parseTable {ctl : Sysctl} {name : String} {parsed : Parsed}
    (h : parseTable e ctl name protocol = .ok parsed) : Told parsed := by
  rw [parseTable] at h
  obtain ⟨table, -, hparse⟩ := bind_eq_ok.mp h
  exact told_parse (mapError_eq_ok.mp hparse)

end Telling

section Calls

variable {e : Endian} {ctl : Sysctl} {ownPid : ℕ} {system : ℕ → Option OwnerEntry}
  {order : TotalsOrder} {tables : Tables}

theorem readTables_eq_ok (h : readTables e ctl ownPid = .ok tables) :
    ∃ tcp udp, parseTable e ctl "net.inet.tcp.pcblist_n" .tcp = .ok tcp ∧
      parseTable e ctl "net.inet.udp.pcblist_n" .udp = .ok udp ∧
      tables = (Tables.add ownPid (Tables.add ownPid {} tcp) udp) := by
  rw [readTables, tableNames] at h
  simp only [List.foldlM_cons, List.foldlM_nil] at h
  obtain ⟨first, htcp, h⟩ := bind_eq_ok.mp h
  obtain ⟨tcp, htcp, hfirst⟩ := bind_eq_ok.mp htcp
  obtain ⟨second, hudp, h⟩ := bind_eq_ok.mp h
  obtain ⟨udp, hudp, hsecond⟩ := bind_eq_ok.mp hudp
  refine ⟨tcp, udp, htcp, hudp, ?_⟩
  rw [← Except.ok.inj h, ← Except.ok.inj hsecond, ← Except.ok.inj hfirst]

section Guarded

variable {α : Type} {answer : Tables → α}

/-- An answer is one from tables that are not narrowed. -/
theorem guarded_eq_ok {a : α} :
    (readTables e ctl ownPid >>= fun tables =>
      if tables.restricted then .error restricted else .ok (answer tables)) = .ok a ↔
      ∃ tables, readTables e ctl ownPid = .ok tables ∧ tables.restricted = false ∧
        answer tables = a := by
  rw [bind_eq_ok]
  apply exists_congr
  intro tables
  apply and_congr_right
  intro _
  cases tables.restricted with
  | false => simp
  | true => simp

theorem guarded_eq_error {error : CollectError} :
    (readTables e ctl ownPid >>= fun tables =>
      if tables.restricted then .error restricted else .ok (answer tables)) = .error error ↔
      readTables e ctl ownPid = .error error ∨
        ∃ tables, readTables e ctl ownPid = .ok tables ∧ tables.restricted = true ∧
          restricted = error := by
  cases hread : readTables e ctl ownPid with
  | error other => simp
  | ok tables => cases hrestricted : tables.restricted <;> simp [hrestricted]

end Guarded

/-- A table that is not narrowed lists as many sockets as it counts, or another process's. -/
theorem showsOnly_false {parsed : Parsed} (htold : Told parsed)
    (h : showsOnly parsed ownPid = false) :
    parsed.headerCount ≤ parsed.sockets ∨ ∃ flow ∈ parsed.flows, flow.pid ≠ ownPid := by
  rw [showsOnly, Bool.and_eq_false_iff, decide_eq_false_iff_not, decide_eq_false_iff_not] at h
  rcases h with h | h
  · exact Or.inl (Nat.not_lt.mp h)
  · push Not at h
    obtain ⟨pid, hpid, hne⟩ := h
    obtain ⟨flow, hflow, heq⟩ := (htold.owners pid).mp hpid
    exact Or.inr ⟨flow, hflow, heq ▸ hne⟩

end Calls

/-- The two calls fail alike. Where they do not, neither table was narrowed to the caller, the rows
account for all flows of both tables, and every process that is named for a listening socket has a
row there, under the same name and age. -/
theorem calls_agree (e : Endian) (ctl : Sysctl) (ownPid : ℕ) (system : ℕ → Option OwnerEntry)
    (order : TotalsOrder) :
    (∀ error, listeners e ctl ownPid system = .error error ↔
      processTraffic e ctl ownPid system order = .error error) ∧
    ∀ found traffic, listeners e ctl ownPid system = .ok found →
      processTraffic e ctl ownPid system order = .ok traffic →
      ∃ tcp udp, parseTable e ctl "net.inet.tcp.pcblist_n" .tcp = .ok tcp ∧
        parseTable e ctl "net.inet.udp.pcblist_n" .udp = .ok udp ∧
        (∀ parsed ∈ [tcp, udp], parsed.headerCount ≤ parsed.sockets ∨
          ∃ flow ∈ parsed.flows, flow.pid ≠ ownPid) ∧
        ProcessTraffic.Accounts system (tcp.flows ++ udp.flows) traffic.processes ∧
        (∀ row, row ∈ found.sockets ↔
          ∃ socket ∈ tcp.listeners ++ udp.listeners, row = socket.named system) ∧
        ∀ row ∈ found.sockets, ∀ pid, row.pid = some pid →
          ∃ total ∈ traffic.processes, total.pid = pid ∧ total.process = row.process ∧
            total.runTimeSecs = row.runTimeSecs := by
  constructor
  · intro error
    exact guarded_eq_error.trans guarded_eq_error.symm
  intro found traffic hfound htraffic
  obtain ⟨tables, htables, hopen, rfl⟩ := guarded_eq_ok.mp hfound
  obtain ⟨tables', htables', -, rfl⟩ := guarded_eq_ok.mp htraffic
  obtain rfl := Except.ok.inj (htables.symm.trans htables')
  obtain ⟨tcp, udp, htcp, hudp, rfl⟩ := readTables_eq_ok htables
  have htold : ∀ parsed ∈ [tcp, udp], Told parsed := by
    intro parsed h
    rcases List.mem_cons.mp h with rfl | h
    · exact told_parseTable htcp
    · rw [List.mem_singleton.mp h]
      exact told_parseTable hudp
  have hshown : showsOnly tcp ownPid = false ∧ showsOnly udp ownPid = false := by
    simpa [Tables.add] using hopen
  have haccounts : ProcessTraffic.Accounts system (tcp.flows ++ udp.flows)
      (finishTraffic system (trafficTotals order (tcp.flows ++ udp.flows))
        .allProcesses).processes := ProcessTraffic.finish_accounts .allProcesses
  refine ⟨tcp, udp, htcp, hudp, ?_, haccounts, Listeners.mem_finish _, ?_⟩
  · intro parsed h
    apply showsOnly_false (htold parsed h)
    rcases List.mem_cons.mp h with rfl | h
    · exact hshown.1
    · rw [List.mem_singleton.mp h]
      exact hshown.2
  · intro row hrow pid hpid
    obtain ⟨socket, hsocket, rfl⟩ := (Listeners.mem_finish _ _).mp hrow
    have howner : socket.pid = some pid := hpid
    have hflow : ∃ flow ∈ tcp.flows ++ udp.flows, flow.pid = pid := by
      rcases List.mem_append.mp hsocket with hin | hin
      · have htcp := htold tcp (by simp)
        obtain ⟨flow, hflow, heq⟩ := (htcp.owners pid).mp (htcp.listeners socket hin pid howner)
        exact ⟨flow, List.mem_append_left _ hflow, heq⟩
      · have hudp := htold udp (by simp)
        obtain ⟨flow, hflow, heq⟩ := (hudp.owners pid).mp (hudp.listeners socket hin pid howner)
        exact ⟨flow, List.mem_append_right _ hflow, heq⟩
    obtain ⟨total, htotal, heq⟩ := (haccounts.pids pid).mpr hflow
    refine ⟨total, htotal, heq, ?_, ?_⟩
    · rw [haccounts.process total htotal, heq]
      cases hsystem : system pid <;> simp [ListenerSnapshot.named, howner, hsystem]
    · rw [haccounts.runTime total htotal, heq]
      cases hsystem : system pid <;>
        simp [ListenerSnapshot.named, howner, hsystem, OwnerEntry.owner]

/-- Process 7 listens on port 631 of 127.0.0.1. -/
def cupsSock : Sock where
  contents := .attached {
    ends := .ipv4 (.replicate 12 0) (.replicate 12 0) 0 0x7F000001
    fport := 0
    lport := 631
    state := 1
    uid := 0
    lastPid := 7
    tcStats := fun _ => ⟨0, 100, 0, 20⟩
    beforeFport := .replicate 8 0
    beforeVflag := .replicate 24 0
    beforeFaddr := .replicate 3 0
    afterLaddr := .replicate 24 0
    beforeProtocol := .replicate 28 0
    beforeUid := .replicate 24 0
    afterPid := .replicate 32 0
    beforeState := .replicate 28 0
    afterState := .replicate 164 0 }
  rcvbuf := .replicate 24 0
  sndbuf := .replicate 24 0
  tcpPadding := .replicate 4 0

def countHeader (count : UInt32) : Header := { count := count, generations := .replicate 16 0 }

/-- That socket alone in the table of TCP, and an empty table of UDP. -/
def cupsTables : Sysctl where
  new _ := none
  value name _ :=
    if name = "net.inet.tcp.pcblist_n" then
      .struct (table .little (countHeader 1) (socksFrames .little .tcp [cupsSock]) (countHeader 1))
    else .struct (table .little (countHeader 0) (socksFrames .little .udp []) (countHeader 0))

/-- Process 7 is `cupsd` and has run for a minute. -/
def cups (pid : ℕ) : Option OwnerEntry := if pid = 7 then some ⟨"cupsd", 1000, 60⟩ else none

theorem cups_tcp : parseTable .little cupsTables "net.inet.tcp.pcblist_n" .tcp =
    .ok (Parsed.adding .tcp { headerCount := 1 } [cupsSock]) := by
  have hread : readTable cupsTables "net.inet.tcp.pcblist_n" =
      .ok (table .little (countHeader 1) (socksFrames .little .tcp [cupsSock])
        (countHeader 1)) := rfl
  rw [parseTable, hread, ok_bind, parse_whole]
  rfl

theorem cups_udp : parseTable .little cupsTables "net.inet.udp.pcblist_n" .udp =
    .ok (Parsed.adding .udp { headerCount := 0 } []) := by
  have hread : readTable cupsTables "net.inet.udp.pcblist_n" =
      .ok (table .little (countHeader 0) (socksFrames .little .udp []) (countHeader 0)) := rfl
  rw [parseTable, hread, ok_bind, parse_whole]
  rfl

/-- Both tables, read. -/
def cupsRead : Tables :=
  Tables.add 1 (Tables.add 1 {} (Parsed.adding .tcp { headerCount := 1 } [cupsSock]))
    (Parsed.adding .udp { headerCount := 0 } [])

theorem cups_tables : readTables .little cupsTables 1 = .ok cupsRead := by
  rw [cupsRead, readTables, tableNames]
  simp only [List.foldlM_cons, List.foldlM_nil, cups_tcp, cups_udp, ok_bind, pure_eq]

theorem calls_agree_cups :
    ∃ found traffic, listeners .little cupsTables 1 cups = .ok found ∧
      processTraffic .little cupsTables 1 cups ⟨id, List.Perm.refl⟩ = .ok traffic ∧
      ∃ total ∈ traffic.processes, total.pid = 7 ∧ total.process = some "cupsd" ∧
        total.runTimeSecs = some 60 := by
  have hfound : listeners .little cupsTables 1 cups =
      .ok (Listeners.finish cups cupsRead.listeners .allProcesses) :=
    guarded_eq_ok.mpr ⟨_, cups_tables, by decide, rfl⟩
  have htraffic : processTraffic .little cupsTables 1 cups ⟨id, List.Perm.refl⟩ =
      .ok (finishTraffic cups (trafficTotals ⟨id, List.Perm.refl⟩ cupsRead.flows)
        .allProcesses) := guarded_eq_ok.mpr ⟨_, cups_tables, by decide, rfl⟩
  refine ⟨_, _, hfound, htraffic, ?_⟩
  obtain ⟨tcp, udp, htcp, -, -, -, hrows, hnamed⟩ :=
    (calls_agree .little cupsTables 1 cups ⟨id, List.Perm.refl⟩).2 _ _ hfound htraffic
  obtain rfl := Except.ok.inj (cups_tcp.symm.trans htcp)
  have hlistener : (⟨.tcp, .v4 0x7F000001, 631, some 7, none, none, some 0⟩ : ListenerSnapshot) ∈
      (Parsed.adding .tcp { headerCount := 1 } [cupsSock]).listeners ++ udp.listeners :=
    List.mem_append_left _ (List.mem_singleton_self _)
  exact hnamed _ ((hrows _).mpr ⟨_, hlistener, rfl⟩) 7 rfl

end Zstats.Macos
