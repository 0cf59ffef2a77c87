import Zstats.Framework.Columns
import Zstats.Framework.Numeral
import Zstats.Framework.Pieces
import Zstats.Listeners.Pcblist
import Zstats.Listeners.Procnet

namespace Zstats.Procnet

open Bytes Failing Numeral Pieces Text

def tcpListen : ℕ := 0x0A

def u8Max : ℕ := 2 ^ 8 - 1

def u16Max : ℕ := 2 ^ 16 - 1

/-- One listening row, before its owner is looked up. -/
structure Row where
  protocol : Protocol
  address : IpAddr
  port : ℕ
  uid : ℕ
  inode : ℕ
  deriving DecidableEq, Repr

/-- How many words an address has. -/
def wordCount (v6 : Bool) : ℕ := if v6 then 4 else 1

/-- The address whose bytes are these, in network order. -/
def ofBytes (v6 : Bool) (bytes : List UInt8) : IpAddr :=
  if v6 then .v6 (BitVec.ofNat 128 (decode .big bytes))
  else .v4 (BitVec.ofNat 32 (decode .big bytes))

section

variable (debug : List Char → String) (e : Endian)

/-- `debug` shows a text in an error (`{:?}`); the byte order is the host's. -/
def addressWords (hex : List Char) (count : ℕ) : Except String (List ℕ) :=
  if byteLength hex ≠ count * 8 ∨ ¬ isAscii hex then
    .error ("address " ++ debug hex ++ " is not " ++ toString count ++ " hex words")
  else
    (pieces 8 count hex).mapM fun piece =>
      okOr (fromStrRadix 16 u32Max piece) ("address " ++ debug hex ++ " is not hex")

/-- `0100007F:1F90` is 127.0.0.1:8080 on a little-endian host. -/
def endpoint (field : List Char) (v6 : Bool) : Except String (IpAddr × ℕ) := do
  let (address, port) ← okOr (splitOnce ':' field) "address without a port"
  let port ← okOr (fromStrRadix 16 u16Max port) "bad port"
  let words ← addressWords debug address (wordCount v6)
  return (ofBytes v6 (words.flatMap (encode e 4)), port)

/-- `sl local rem st tx:rx tr:when retrnsmt uid timeout inode …` -/
def parseRow (line : List Char) (protocol : Protocol) (v6 : Bool) : Except String (Option Row) :=
  match columns line with
  | _ :: localEnd :: remoteEnd :: state :: _ :: _ :: _ :: uid :: _ :: inode :: _ => do
    let (address, port) ← endpoint debug e localEnd v6
    let (remoteAddress, remotePort) ← endpoint debug e remoteEnd v6
    let state ← okOr (fromStrRadix 16 u8Max state) "bad state"
    let uid ← okOr (parseUnsigned u32Max uid) "bad uid"
    let inode ← okOr (parseUnsigned u64Max inode) "bad inode"
    let listening := port != 0 &&
      match protocol with
      | .tcp => state == tcpListen
      -- bound, with no remote end fixed by `connect()`
      | .udp => remotePort == 0 && remoteAddress.isUnspecified
    return if listening then some ⟨protocol, address, port, uid, inode⟩ else none
  | _ => .error "too few columns"

def parse (text : List Char) (protocol : Protocol) (v6 : Bool) : Except String (List Row) :=
  match lines text with
  | [] => .error "empty table"
  | header :: lines =>
    if (columns header)[0]? ≠ some "sl".toList ∨
        (columns header)[1]? ≠ some "local_address".toList then
      .error ("unrecognised header: " ++ debug header)
    else
      (lines.filter fun line => trim line ≠ []).foldlM
        (fun rows line => do
          let row ← (parseRow debug e line protocol v6).mapError fun error =>
            error ++ ": " ++ debug line
          return rows ++ row.toList)
        []

end

end Zstats.Procnet
