import Zstats.Framework.Diffing
import Zstats.Listeners.Sockdiag

namespace Zstats.Diag

open Bytes Sockdiag

inductive CollectError where
  | system (message : String)
  | unsupported (what : String)
  deriving DecidableEq, Repr

/-- How a computation fails: an error of its own, or an index out of bounds. -/
inductive Fault where
  | collect (error : CollectError)
  | panicked
  deriving DecidableEq, Repr

def recvBytes : ℕ := 256 * 1024
def recvCap : ℕ := 4096
def dumpAttempts : ℕ := 3

/-! Linux's numbers for the `Errno`s that are told apart. -/

def eintr : ℤ := 4
def eagain : ℤ := 11
def eprotonosupport : ℤ := 93
def eafnosupport : ℤ := 97

def u32Max : ℕ := 2 ^ 32 - 1
def i32Max : ℤ := 2 ^ 31 - 1

/-- What the socket's calls are going to meet: bytes taken by `sendto`, datagrams that `recv` finds,
or an errno. Beyond these, a send takes everything and a receive times out. -/
structure Socket where
  sends : List (Except ℤ ℕ)
  recvs : List (Except ℤ (List UInt8))

inductive FamilyDump where
  | absent
  | ready (flows : List TcpFlow) (interrupted : Bool)
  deriving DecidableEq, Repr

/-- What `recv` copies of a datagram. The rest of it is lost. -/
def copyOf (datagram : List UInt8) : List UInt8 := datagram.take recvBytes

def diagErr (message : String) : Fault := .collect (.system ("sock_diag: " ++ message))

def refusal : Failure → Fault
  | .refused (.noByteCounters bytes) =>
    .collect (.unsupported s!"tcp_info is {bytes} bytes and has no tcpi_bytes_received")
  | .refused (.malformed message) => diagErr message
  | .panicked => .panicked

section

variable (e : Endian)

/-- `nlmsghdr` and `inet_diag_req_v2`: every TCP state, with its `tcp_info`, and no cookie. -/
def request (family : UInt8) (seq : UInt32) : List UInt8 :=
  encode e 4 72 ++ (encode e 2 sockDiagByFamily ++ (encode e 2 0x301 ++ (encode e 4 seq.toNat ++
    (encode e 4 0 ++ ([family, 6, 2, 0] ++ (encode e 4 u32Max ++ (List.replicate 40 0 ++
      (encode e 4 u32Max ++ encode e 4 u32Max))))))))

variable (errnoText : ℤ → String)

def sendAll (bytes : List UInt8) : List (Except ℤ ℕ) → Except Fault (List (Except ℤ ℕ))
  | [] => .ok []
  | result :: later =>
    if bytes.isEmpty then .ok (result :: later)
    else
      match result with
      | .ok 0 => .error (diagErr "send wrote nothing")
      | .ok (n + 1) => sendAll (bytes.drop (n + 1)) later
      | .error errno =>
        if errno = eintr then sendAll bytes later
        else .error (diagErr s!"send: {errnoText errno}")

/-- The payload of a refusal, a negative errno. IPv6 may be absent. -/
def familyErrno (err : ℤ) (ipv6 : Bool) : Except Fault FamilyDump :=
  let code := if err < 0 then min (-err) i32Max else err
  if ipv6 ∧ (code = eafnosupport ∨ code = eprotonosupport) then .ok .absent
  else .error (diagErr s!"{errnoText code} ({code})")

/-- The datagrams after the first `recvs`, which gave `flows`. -/
def receive (seq : UInt32) (ipv6 : Bool) (recvs : ℕ) (flows : List TcpFlow) :
    List (Except ℤ (List UInt8)) → Except Fault (FamilyDump × List (Except ℤ (List UInt8)))
  | [] =>
    if recvCap ≤ recvs then .error (diagErr "dump did not finish")
    else .error (diagErr "dump timed out")
  | result :: later =>
    if recvCap ≤ recvs then .error (diagErr "dump did not finish")
    else
      match result with
      | .error errno =>
        if errno = eintr then receive seq ipv6 recvs flows later
        else if errno = eagain then .error (diagErr "dump timed out")
        else .error (diagErr s!"recv: {errnoText errno}")
      | .ok datagram =>
        if (copyOf datagram).isEmpty then .error (diagErr "empty reply")
        else
          match parse e seq.toNat (copyOf datagram) with
          | .error failure => .error (refusal failure)
          | .ok part =>
            match part.errno with
            | some err => (familyErrno errnoText err ipv6).map fun dump => (dump, later)
            | none =>
              if part.done then .ok (.ready (flows ++ part.flows) part.interrupted, later)
              else receive seq ipv6 (recvs + 1) (flows ++ part.flows) later

def readDump (family : UInt8) (seq : UInt32) (ipv6 : Bool) (fd : Socket) :
    Except Fault (FamilyDump × Socket) := do
  let sends ← sendAll errnoText (request e family seq) fd.sends
  let (dump, recvs) ← receive e errnoText seq ipv6 0 [] fd.recvs
  return (dump, ⟨sends, recvs⟩)

/-- The flows as a map; of two with one inode the later stays. -/
def byInode (flows : List TcpFlow) : ℕ → Option TcpFlow :=
  Diffing.lookupLast (flows.map fun flow => (flow.inode, flow))

/-- `into.extend(kept)`. -/
def extend (into kept : ℕ → Option TcpFlow) (inode : ℕ) : Option TcpFlow :=
  (kept inode).or (into inode)

/-- The walks that are left, `kept` being those of the last one. -/
def dumpWalks (family : UInt8) (seq : UInt32) (ipv6 : Bool) (into : ℕ → Option TcpFlow) :
    ℕ → (ℕ → Option TcpFlow) → Socket → Except Fault ((ℕ → Option TcpFlow) × Socket)
  | 0, kept, fd => .ok (extend into kept, fd)
  | attempts + 1, _, fd => do
    let (dump, fd) ← readDump e errnoText family seq ipv6 fd
    match dump with
    | .absent => return (into, fd)
    | .ready flows interrupted =>
      if interrupted then dumpWalks family seq ipv6 into attempts (byInode flows) fd
      else return (extend into (byInode flows), fd)

def dumpFamily (family : UInt8) (seq : UInt32) (ipv6 : Bool) (fd : Socket)
    (into : ℕ → Option TcpFlow) : Except Fault ((ℕ → Option TcpFlow) × Socket) :=
  dumpWalks e errnoText family seq ipv6 into dumpAttempts (fun _ => none) fd

end

end Zstats.Diag
