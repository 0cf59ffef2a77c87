import Mathlib.Data.Finset.Option
import Zstats.Collector.Networks
import Zstats.Framework.Bytes
import Zstats.Framework.Failing

namespace Zstats

open Bytes Failing

inductive Protocol where
  | tcp
  | udp
  deriving DecidableEq, Repr

structure ListenerSnapshot where
  protocol : Protocol
  address : IpAddr
  port : ℕ
  pid : Option ℕ
  process : Option String
  runTimeSecs : Option ℕ
  uid : Option ℕ
  deriving DecidableEq, Repr

def IpAddr.isUnspecified : IpAddr → Bool
  | .v4 bits => bits == 0
  | .v6 bits => bits == 0

/-- `{:#x}`. -/
def hex (n : ℕ) : String := "0x" ++ String.ofList (Nat.toDigits 16 n)

namespace Pcblist

def xinpgenLen : ℕ := 24
def recordHeaderLen : ℕ := 8

def xsoSocket : ℕ := 0x01
def xsoRcvbuf : ℕ := 0x02
def xsoSndbuf : ℕ := 0x04
def xsoStats : ℕ := 0x08
def xsoInpcb : ℕ := 0x10
def xsoTcpcb : ℕ := 0x20

def tcStatsMax : ℕ := 4
def dataStatsLen : ℕ := 32
def rxBytesAt : ℕ := 8
def txBytesAt : ℕ := 24

def inpFport : ℕ := 16
def inpLport : ℕ := 18
def inpVflag : ℕ := 44
def inpFaddr : ℕ := 48
def inpLaddr : ℕ := 64
def in4In4in6 : ℕ := 12
def inpIpv4 : UInt8 := 0x1
def inpIpv6 : UInt8 := 0x2

def soProtocolAt : ℕ := 36
def soUid : ℕ := 64
def soLastPid : ℕ := 68
def detached : ℤ := 0
def ipprotoTcp : ℤ := 6
def ipprotoUdp : ℤ := 17

def tState : ℕ := 36
def tcpsListen : ℤ := 1

/-- The length each known record has. -/
def expectedLen (kind : ℕ) : Option ℕ :=
  if kind = xsoSocket ∨ kind = xsoInpcb then some 104
  else if kind = xsoRcvbuf ∨ kind = xsoSndbuf then some 32
  else if kind = xsoStats then some 136
  else if kind = xsoTcpcb then some 204
  else none

/-- The records of one socket that the parser reads. -/
structure Run where
  inpcb : Option (List UInt8) := none
  socket : Option (List UInt8) := none
  stats : Option (List UInt8) := none
  tcpcb : Option (List UInt8) := none
  deriving DecidableEq

structure FlowBytes where
  pid : ℕ
  receivedBytes : ℕ
  transmittedBytes : ℕ
  deriving DecidableEq, Repr

/-- One table, walked. -/
structure Parsed where
  listeners : List ListenerSnapshot := []
  headerCount : ℕ := 0
  sockets : ℕ := 0
  owners : Finset ℕ := ∅
  flows : List FlowBytes := []
  deriving DecidableEq

def align8 (n : ℕ) : ℕ := (n + 7) / 8 * 8

section Fields

variable (e : Endian)

def readU32 (buf : List UInt8) (start : ℕ) : Option ℕ := read e 4 buf start

def readI32 (buf : List UInt8) (start : ℕ) : Option ℤ :=
  (read e 4 buf start).map fun n => (BitVec.ofNat 32 n).toInt

def readU16Be (buf : List UInt8) (start : ℕ) : Option ℕ := read .big 2 buf start

def readU64 (buf : List UInt8) (start : ℕ) : Option ℕ := read e 8 buf start

/-- A dual-stack socket is an IPv6 socket. -/
def addressOf (inpcb : List UInt8) (start : ℕ) (vflag : UInt8) : Except String IpAddr := do
  let bytes ← okOr (slice inpcb start 16) "short xinpcb_n"
  if vflag &&& inpIpv6 ≠ 0 then return .v6 (BitVec.ofNat 128 (decode .big bytes))
  else if vflag &&& inpIpv4 ≠ 0 then
    return .v4 (BitVec.ofNat 32 (decode .big (bytes.drop in4In4in6)))
  else
    throw ("socket is flagged neither IPv4 nor IPv6 (inp_vflag " ++ hex vflag.toNat ++ ")")

/-- The sums over the four traffic classes. -/
def trafficBytes (stats : List UInt8) : Except String (ℕ × ℕ) :=
  (List.range tcStatsMax).foldlM
    (fun (received, transmitted) trafficClass => do
      let base := recordHeaderLen + trafficClass * dataStatsLen
      let rx ← okOr (readU64 e stats (base + rxBytesAt)) "short xsockstat_n"
      let tx ← okOr (readU64 e stats (base + txBytesAt)) "short xsockstat_n"
      return (saturatingAdd received rx, saturatingAdd transmitted tx))
    (0, 0)

/-- One socket's owner and, when it is listening, its listener entry; nothing for a PCB with no
socket attached. -/
def classify (run : Run) (protocol : Protocol) :
    Except String (Option (Option ℕ × Option ListenerSnapshot)) :=
  match run.inpcb, run.socket with
  | some inpcb, some socket => do
    let expectedProtocol := match protocol with
      | .tcp => ipprotoTcp
      | .udp => ipprotoUdp
    let name := match protocol with
      | .tcp => "TCP"
      | .udp => "UDP"
    let soProtocol ← okOr (readI32 e socket soProtocolAt) "short xsocket_n"
    if soProtocol = detached ∧ (socket.drop recordHeaderLen).all (· == 0) then return none
    if soProtocol ≠ expectedProtocol then
      throw s!"{name} table holds a socket of protocol {soProtocol}"
    -- a negative pid is no owner
    let owner := (readI32 e socket soLastPid).bind fun pid =>
      if 0 ≤ pid then some pid.toNat else none
    let port ← okOr (readU16Be inpcb inpLport) "short xinpcb_n"
    -- created but never bound
    if port = 0 then return some (owner, none)
    let vflag ← okOr inpcb[inpVflag]? "short xinpcb_n"
    let address ← addressOf inpcb inpLaddr vflag
    let listening ← match protocol with
      | .tcp => do
        let tcpcb ← okOr run.tcpcb "a TCP socket is missing its xtcpcb_n record"
        let state ← okOr (readI32 e tcpcb tState) "short xtcpcb_n"
        pure (decide (state = tcpsListen))
      | .udp => do
        let foreignPort ← okOr (readU16Be inpcb inpFport) "short xinpcb_n"
        if foreignPort = 0 then
          let foreign ← addressOf inpcb inpFaddr vflag
          pure foreign.isUnspecified
        else pure false
    if !listening then return some (owner, none)
    return some (owner, some
      { protocol := protocol
        address := address
        port := port
        pid := owner
        process := none
        runTimeSecs := none
        uid := readU32 e socket soUid })
  | _, _ => throw "a socket is missing its xsocket_n record"

/-- A socket that is complete: counted, and what it tells added. -/
def Parsed.take (parsed : Parsed) (run : Run) (protocol : Protocol) : Except String Parsed := do
  let counted := { parsed with sockets := parsed.sockets + 1 }
  match ← classify e run protocol with
  | none => return counted
  | some (owner, listener) =>
    let stats ← okOr run.stats "a socket is missing its xsockstat_n record"
    let (receivedBytes, transmittedBytes) ← trafficBytes e stats
    return { counted with
      flows := counted.flows ++ owner.toList.map fun pid => ⟨pid, receivedBytes, transmittedBytes⟩
      owners := counted.owners ∪ owner.toFinset
      listeners := counted.listeners ++ listener.toList }

/-- One record within the table: it starts the next socket, is put to the open one, or is skipped
as unknown. -/
def absorb (protocol : Protocol) (kind : ℕ) (record : List UInt8) (run : Option Run)
    (parsed : Parsed) : Except String (Option Run × Parsed) :=
  match expectedLen kind with
  | none => .ok (run, parsed)
  | some expected =>
    let len := record.length
    if expected ≠ len then
      .error ("record kind " ++ hex kind ++ s!" is {len} bytes, expected {expected}")
    else if kind = xsoInpcb then
      match run with
      | some done => (parsed.take e done protocol).map fun parsed =>
        (some { inpcb := some record }, parsed)
      | none => .ok (some { inpcb := some record }, parsed)
    else
      match run with
      | none => .error ("record kind " ++ hex kind ++ " before the first socket")
      | some current =>
        let twice := Except.error ("socket carries record kind " ++ hex kind ++ " twice")
        if kind = xsoSocket then
          if current.socket.isSome then twice
          else .ok (some { current with socket := some record }, parsed)
        else if kind = xsoStats then
          if current.stats.isSome then twice
          else .ok (some { current with stats := some record }, parsed)
        else if kind = xsoTcpcb then
          if current.tcpcb.isSome then twice
          else .ok (some { current with tcpcb := some record }, parsed)
        -- buffer records: framing only
        else .ok (run, parsed)

/-- The closing header: the last socket is complete. -/
def finish (protocol : Protocol) (run : Option Run) (parsed : Parsed) : Except String Parsed :=
  match run with
  | some done => parsed.take e done protocol
  | none => .ok parsed

/-- The walk from byte `pos` on. -/
def walk (protocol : Protocol) (table : List UInt8) (pos : ℕ) (run : Option Run)
    (parsed : Parsed) : Except String Parsed :=
  match readU32 e table pos, readU32 e table (pos + 4) with
  | some len, some kind =>
    match _h : slice table pos len with
    | none => .error s!"record at byte {pos} runs past the end of the table"
    | some record =>
      if len = xinpgenLen then finish e protocol run parsed
      else if _hlen : len < recordHeaderLen then .error s!"record at byte {pos} claims {len} bytes"
      else
        match absorb e protocol kind record run parsed with
        | .error message => .error message
        | .ok (run, parsed) => walk protocol table (pos + align8 len) run parsed
  | _, _ => .error s!"table ends at byte {pos} without its closing header"
termination_by table.length - pos
decreasing_by
  have hbound := (slice_length _h).2
  simp only [recordHeaderLen, align8] at *
  omega

def parse (table : List UInt8) (protocol : Protocol) : Except String Parsed := do
  let opening ← okOr (readU32 e table 0) "table is shorter than its header"
  if opening ≠ xinpgenLen then
    throw s!"opening header is {opening} bytes, expected {xinpgenLen}"
  let headerCount ← okOr (readU32 e table 4) "table is shorter than its header"
  walk e protocol table (align8 opening) none { headerCount := headerCount }

end Fields

end Pcblist

end Zstats
