import Mathlib.Data.Option.Basic
import Zstats.Framework.Bytes
import Zstats.Framework.Failing

namespace Zstats.Sockdiag

open Bytes Failing

def sockDiagByFamily : ℕ := 20
def nlmsgNoop : ℕ := 0x1
def nlmsgError : ℕ := 0x2
def nlmsgDone : ℕ := 0x3
def nlmFDumpIntr : ℕ := 0x10

def nlmsgHdrlen : ℕ := 16
def diagMsgLen : ℕ := 72
def inodeAt : ℕ := 68

def inetDiagInfo : ℕ := 2
/-- All but the two flag bits of an attribute's type word. -/
def nlaTypeMask : ℕ := 0x3fff

def bytesAckedAt : ℕ := 120
def bytesReceivedAt : ℕ := 128
def bytesSentAt : ℕ := 200
def minReceived : ℕ := bytesReceivedAt + 8
def minSent : ℕ := bytesSentAt + 8

structure TcpFlow where
  inode : ℕ
  receivedBytes : ℕ
  transmittedBytes : ℕ
  deriving DecidableEq, Repr

inductive ParseError where
  | malformed (message : String)
  | noByteCounters (bytes : ℕ)
  deriving DecidableEq, Repr

/-- How a computation fails: an error of its own, or an index out of bounds. -/
inductive Failure where
  | refused (error : ParseError)
  | panicked
  deriving DecidableEq, Repr

structure DumpPart where
  flows : List TcpFlow := []
  done : Bool := false
  interrupted : Bool := false
  errno : Option ℤ := none
  deriving DecidableEq, Repr

def align4 (n : ℕ) : ℕ := (n + 3) / 4 * 4

def malformed (message : String) : Failure := .refused (.malformed message)

/-- `&buf[start..start + len]`. -/
def index (buf : List UInt8) (start len : ℕ) : Except Failure (List UInt8) :=
  okOr (slice buf start len) .panicked

section

variable (e : Endian)

def readField (width : ℕ) (buf : List UInt8) (start : ℕ) : Except Failure ℕ :=
  okOr (read e width buf start) (malformed "short netlink field")

def readU16 (buf : List UInt8) (start : ℕ) : Except Failure ℕ := readField e 2 buf start

def readU32 (buf : List UInt8) (start : ℕ) : Except Failure ℕ := readField e 4 buf start

def readI32 (buf : List UInt8) (start : ℕ) : Except Failure ℤ := do
  return (BitVec.ofNat 32 (← readU32 e buf start)).toInt

def readU64 (buf : List UInt8) (start : ℕ) : Except Failure ℕ := readField e 8 buf start

/-- The attributes from byte `start` on. -/
def tcpInfoFrom (msg : List UInt8) (start : ℕ) : Except Failure (Option (List UInt8)) :=
  if _h : start + 4 ≤ msg.length then do
    let nlaLen ← readU16 e msg start
    let word ← readU16 e msg (start + 2)
    if _hlen : nlaLen < 4 ∨ msg.length < start + nlaLen then
      throw (malformed "attribute overruns the message")
    else if word &&& nlaTypeMask = inetDiagInfo then
      return some (← index msg (start + 4) (nlaLen - 4))
    else if align4 nlaLen = 0 then throw (malformed "attribute has no length")
    else tcpInfoFrom msg (start + align4 nlaLen)
  else .ok none
termination_by msg.length - start
decreasing_by
  simp only [align4] at *
  omega

/-- The `INET_DIAG_INFO` payload, if the message carries one. -/
def tcpInfo (msg : List UInt8) : Except Failure (Option (List UInt8)) :=
  tcpInfoFrom e msg (nlmsgHdrlen + diagMsgLen)

/-- One socket, or nothing for an entry with inode 0. -/
def flowOf (msg : List UInt8) : Except Failure (Option TcpFlow) :=
  if msg.length < nlmsgHdrlen + diagMsgLen then throw (malformed "inet_diag_msg is short")
  else do
    let inode ← readU32 e msg (nlmsgHdrlen + inodeAt)
    if inode = 0 then return none
    else
      let found ← tcpInfo e msg
      let info ← okOr found (malformed s!"TCP socket inode {inode} is missing its tcp_info")
      if info.length < minReceived then throw (.refused (.noByteCounters info.length))
      else
        let receivedBytes ← readU64 e info bytesReceivedAt
        let transmittedBytes ← (if minSent ≤ info.length then readU64 e info bytesSentAt
          else readU64 e info bytesAckedAt)
        return some ⟨inode, receivedBytes, transmittedBytes⟩

/-- One message of the request's sequence. -/
def takeMessage (kind flags : ℕ) (msg : List UInt8) (part : DumpPart) : Except Failure DumpPart :=
  if kind = nlmsgDone then
    .ok { part with done := true, interrupted := flags &&& nlmFDumpIntr ≠ 0 }
  else if kind = nlmsgError then do
    -- an errno of 0 is an acknowledgement
    let err ← readI32 e msg nlmsgHdrlen
    return if err ≠ 0 then { part with errno := some err } else part
  else if kind = nlmsgNoop then .ok part
  else if kind = sockDiagByFamily then do
    return { part with flows := part.flows ++ (← flowOf e msg).toList }
  else .ok part

/-- The messages from byte `pos` on. -/
def walk (seq : ℕ) (buf : List UInt8) (pos : ℕ) (part : DumpPart) : Except Failure DumpPart :=
  if _h : pos + nlmsgHdrlen ≤ buf.length ∧ part.done = false ∧ part.errno = none then do
    let len ← readU32 e buf pos
    if _hlen : len < nlmsgHdrlen then
      throw (malformed s!"message at byte {pos} claims {len} bytes")
    else if buf.length < pos + len then
      throw (malformed s!"message at byte {pos} runs past the end of the reply")
    else
      let kind ← readU16 e buf (pos + 4)
      let flags ← readU16 e buf (pos + 6)
      let msgSeq ← readU32 e buf (pos + 8)
      if msgSeq ≠ seq then
        throw (malformed s!"message sequence {msgSeq} is not the request's {seq}")
      else
        let msg ← index buf pos len
        let part ← takeMessage e kind flags msg part
        walk seq buf (pos + align4 len) part
  else .ok part
termination_by buf.length - pos
decreasing_by
  simp only [align4, nlmsgHdrlen] at *
  omega

def parse (seq : ℕ) (buf : List UInt8) : Except Failure DumpPart :=
  if buf.isEmpty then throw (malformed "empty netlink reply")
  else walk e seq buf 0 {}

end

end Zstats.Sockdiag
