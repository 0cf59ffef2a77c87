import Mathlib.Algebra.BigOperators.Fin
import Zstats.Listeners.Framing

namespace Zstats.Pcblist

open Bytes Failing

/-- Bytes that the parser does not read. -/
abbrev Filler (n : ℕ) := Vector UInt8 n

/-- The two ends of a socket, an IPv4 address behind twelve bytes of padding. -/
inductive Ends where
  | ipv4 (fpad lpad : Filler 12) (faddr laddr : BitVec 32)
  | ipv6 (dual : Bool) (faddr laddr : BitVec 128)

/-- The counters of one traffic class. -/
structure DataStats where
  rxpackets : UInt64
  rxbytes : UInt64
  txpackets : UInt64
  txbytes : UInt64

structure Attached where
  ends : Ends
  fport : UInt16
  lport : UInt16
  state : Int32
  uid : UInt32
  lastPid : Int32
  tcStats : Fin 4 → DataStats
  beforeFport : Filler 8
  beforeVflag : Filler 24
  beforeFaddr : Filler 3
  afterLaddr : Filler 24
  beforeProtocol : Filler 28
  beforeUid : Filler 24
  afterPid : Filler 32
  beforeState : Filler 28
  afterState : Filler 164

/-- What a socket's records hold: a PCB with no socket attached has a blank `xsocket_n`. -/
inductive Contents where
  | detached (inpcb : Filler 96) (stats : Filler 128) (tcpcb : Filler 196)
  | attached (a : Attached)

structure Sock where
  contents : Contents
  rcvbuf : Filler 24
  sndbuf : Filler 24
  tcpPadding : Filler 4

def Ends.vflag : Ends → UInt8
  | .ipv4 .. => inpIpv4
  | .ipv6 dual .. => if dual then inpIpv4 ||| inpIpv6 else inpIpv6

def Ends.faddr : Ends → IpAddr
  | .ipv4 _ _ faddr _ => .v4 faddr
  | .ipv6 _ faddr _ => .v6 faddr

def Ends.laddr : Ends → IpAddr
  | .ipv4 _ _ _ laddr => .v4 laddr
  | .ipv6 _ _ laddr => .v6 laddr

def Ends.faddrBytes : Ends → List UInt8
  | .ipv4 fpad _ faddr _ => fpad.toList ++ encode .big 4 faddr.toNat
  | .ipv6 _ faddr _ => encode .big 16 faddr.toNat

def Ends.laddrBytes : Ends → List UInt8
  | .ipv4 _ lpad _ laddr => lpad.toList ++ encode .big 4 laddr.toNat
  | .ipv6 _ _ laddr => encode .big 16 laddr.toNat

/-- The protocol number in `xsocket_n`. -/
def ipproto : Protocol → ℕ
  | .tcp => 6
  | .udp => 17

section

variable (e : Endian)

def DataStats.bytes (d : DataStats) : List UInt8 :=
  encode e 8 d.rxpackets.toNat ++ (encode e 8 d.rxbytes.toNat ++
    (encode e 8 d.txpackets.toNat ++ encode e 8 d.txbytes.toNat))

def Contents.inpcb : Contents → List UInt8
  | .detached inpcb _ _ => inpcb.toList
  | .attached a =>
    a.beforeFport.toList ++ (encode .big 2 a.fport.toNat ++ (encode .big 2 a.lport.toNat ++
      (a.beforeVflag.toList ++ ([a.ends.vflag] ++ (a.beforeFaddr.toList ++
        (a.ends.faddrBytes ++ (a.ends.laddrBytes ++ a.afterLaddr.toList)))))))

def Contents.socket (protocol : Protocol) : Contents → List UInt8
  | .detached .. => List.replicate 96 0
  | .attached a =>
    a.beforeProtocol.toList ++ (encode e 4 (ipproto protocol) ++ (a.beforeUid.toList ++
      (encode e 4 a.uid.toNat ++ (encode e 4 a.lastPid.toBitVec.toNat ++ a.afterPid.toList))))

def Contents.stats : Contents → List UInt8
  | .detached _ stats _ => stats.toList
  | .attached a => (a.tcStats 0).bytes e ++ ((a.tcStats 1).bytes e ++
      ((a.tcStats 2).bytes e ++ (a.tcStats 3).bytes e))

def Contents.tcpcb : Contents → List UInt8
  | .detached _ _ tcpcb => tcpcb.toList
  | .attached a =>
    a.beforeState.toList ++ (encode e 4 a.state.toBitVec.toNat ++ a.afterState.toList)

end

variable {e : Endian} {protocol : Protocol}

@[simp] theorem Ends.length_faddrBytes (ends : Ends) : ends.faddrBytes.length = 16 := by
  cases ends <;> simp [faddrBytes]

@[simp] theorem Ends.length_laddrBytes (ends : Ends) : ends.laddrBytes.length = 16 := by
  cases ends <;> simp [laddrBytes]

@[simp] theorem DataStats.length_bytes (d : DataStats) : (d.bytes e).length = 32 := by
  simp [bytes]

@[simp] theorem Contents.length_inpcb (c : Contents) : c.inpcb.length = 96 := by
  cases c <;> simp [inpcb]

@[simp] theorem Contents.length_socket (c : Contents) : (c.socket e protocol).length = 96 := by
  cases c <;> simp [socket]

@[simp] theorem Contents.length_stats (c : Contents) : (c.stats e).length = 128 := by
  cases c <;> simp [stats]

@[simp] theorem Contents.length_tcpcb (c : Contents) : (c.tcpcb e).length = 196 := by
  cases c <;> simp [tcpcb]

section

variable (e protocol) (s : Sock)

def Sock.inpcbFrame : Frame where
  len := 104
  kind := xsoInpcb
  body := s.contents.inpcb
  padding := []

def Sock.socketFrame : Frame where
  len := 104
  kind := xsoSocket
  body := s.contents.socket e protocol
  padding := []

def Sock.rcvbufFrame : Frame where
  len := 32
  kind := xsoRcvbuf
  body := s.rcvbuf.toList
  padding := []

def Sock.sndbufFrame : Frame where
  len := 32
  kind := xsoSndbuf
  body := s.sndbuf.toList
  padding := []

def Sock.statsFrame : Frame where
  len := 136
  kind := xsoStats
  body := s.contents.stats e
  padding := []

def Sock.tcpcbFrame : Frame where
  len := 204
  kind := xsoTcpcb
  body := s.contents.tcpcb e
  padding := s.tcpPadding.toList

/-- A socket's run of records; only a TCP socket has an `xtcpcb_n`. -/
def Sock.frames : List Frame :=
  [s.inpcbFrame, s.socketFrame e protocol, s.rcvbufFrame, s.sndbufFrame, s.statsFrame e] ++
    match protocol with
    | .tcp => [s.tcpcbFrame e]
    | .udp => []

end

section

variable (e protocol) (s : Sock) (i : ℕ)

/-- The open run after the first `i` records of a socket. -/
def Sock.runAt : Run where
  inpcb := some (s.inpcbFrame.record e)
  socket := if 2 ≤ i then some ((s.socketFrame e protocol).record e) else none
  stats := if 5 ≤ i then some ((s.statsFrame e).record e) else none
  tcpcb := if 6 ≤ i ∧ protocol = .tcp then some ((s.tcpcbFrame e).record e) else none

end

variable (run : Option Run) (parsed : Parsed)

theorem Sock.known (s : Sock) : ∀ f ∈ s.frames e protocol, f.Known := by
  intro f hf
  cases protocol with
  | tcp =>
    simp only [frames, List.cons_append, List.nil_append, List.mem_cons, List.not_mem_nil,
      or_false] at hf
    obtain rfl | rfl | rfl | rfl | rfl | rfl := hf <;> rfl
  | udp =>
    simp only [frames, List.append_nil, List.mem_cons, List.not_mem_nil, or_false] at hf
    obtain rfl | rfl | rfl | rfl | rfl := hf <;> rfl

/-- The next record of a socket is put to its run. -/
theorem Sock.absorb_next (s : Sock) {i : ℕ} (h : 1 ≤ i) (hi : i < (s.frames e protocol).length) :
    absorb e protocol ((s.frames e protocol)[i]).kind (((s.frames e protocol)[i]).record e)
        (some (s.runAt e protocol i)) parsed =
      .ok (some (s.runAt e protocol (i + 1)), parsed) := by
  have hle : i < 6 := by
    cases protocol <;> simp [frames] at hi <;> omega
  obtain rfl | rfl | rfl | rfl | rfl : i = 1 ∨ i = 2 ∨ i = 3 ∨ i = 4 ∨ i = 5 := by omega
  · exact absorb_socket _ (f := s.socketFrame e protocol) rfl rfl rfl
  · have hkind : xsoRcvbuf ∉ [xsoInpcb, xsoSocket, xsoStats, xsoTcpcb] := by decide
    exact absorb_buffer _ (f := s.rcvbufFrame) rfl hkind
  · have hkind : xsoSndbuf ∉ [xsoInpcb, xsoSocket, xsoStats, xsoTcpcb] := by decide
    exact absorb_buffer _ (f := s.sndbufFrame) rfl hkind
  · exact absorb_stats _ (f := s.statsFrame e) rfl rfl rfl
  · cases protocol with
    | tcp => exact absorb_tcpcb _ (f := s.tcpcbFrame e) rfl rfl rfl
    | udp => simp [frames] at hi

/-- What the first records of a socket do: its predecessor is complete, and they are put to a new
run. -/
theorem Sock.absorb_run (s : Sock) {i : ℕ} (h : 1 ≤ i) (hi : i ≤ (s.frames e protocol).length) :
    absorbAll e protocol ((s.frames e protocol).take i) run parsed =
      finish e protocol run parsed >>= fun parsed => .ok (some (s.runAt e protocol i), parsed) := by
  induction i, h using Nat.le_induction with
  | base =>
    have hinpcb := @absorb_inpcb e protocol run parsed s.inpcbFrame rfl rfl
    have htake : (s.frames e protocol).take 1 = [s.inpcbFrame] := rfl
    rw [htake, absorbAll, hinpcb]
    cases finish e protocol run parsed with
    | error message => rfl
    | ok parsed => rfl
  | succ i h ih =>
    have hlast : i < (s.frames e protocol).length := hi
    rw [List.take_succ_eq_append_getElem hlast, absorbAll_append, ih (Nat.le_of_lt hlast)]
    cases finish e protocol run parsed with
    | error message => rfl
    | ok parsed =>
      have hnext := s.absorb_next parsed h hlast
      change absorbAll e protocol [(s.frames e protocol)[i]] (some _) parsed = .ok _
      rw [absorbAll, hnext]
      rfl

section

variable (e protocol)

/-- A complete run. -/
def Sock.whole (s : Sock) : Run := s.runAt e protocol (s.frames e protocol).length

/-- Sockets completed one after another. -/
def takeAll (socks : List Sock) (parsed : Parsed) : Except String Parsed :=
  match socks with
  | [] => .ok parsed
  | s :: socks => parsed.take e (s.whole e protocol) protocol >>= takeAll socks

def socksFrames (socks : List Sock) : List Frame := socks.flatMap (Sock.frames e protocol)

end

/-- The records of whole sockets: each is complete when the next begins. -/
theorem absorb_socks (socks : List Sock) :
    (absorbAll e protocol (socksFrames e protocol socks) run parsed >>= fun (run, parsed) =>
        finish e protocol run parsed) =
      finish e protocol run parsed >>= takeAll e protocol socks := by
  induction socks generalizing run parsed with
  | nil =>
    change finish e protocol run parsed = _
    cases finish e protocol run parsed <;> rfl
  | cons s socks ih =>
    have hlen : 1 ≤ (s.frames e protocol).length := by simp [Sock.frames]
    have hrun := s.absorb_run run parsed hlen (le_refl _)
    rw [List.take_length] at hrun
    have hcons : socksFrames e protocol (s :: socks) =
        s.frames e protocol ++ socksFrames e protocol socks := rfl
    rw [hcons, absorbAll_append, hrun]
    cases finish e protocol run parsed with
    | error message => rfl
    | ok parsed => exact ih (some (s.whole e protocol)) parsed

end Zstats.Pcblist
