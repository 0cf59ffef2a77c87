import Zstats.Listeners.Signs

namespace Zstats.Procnet

open Bytes Numeral Pieces Text

def addressBits : Bool → ℕ
  | true => 128
  | false => 32

def toIpAddr : (v6 : Bool) → BitVec (addressBits v6) → IpAddr
  | true, bits => .v6 bits
  | false, bits => .v4 bits

/-- A socket as the kernel holds it. -/
structure Socket (v6 : Bool) where
  localAddress : BitVec (addressBits v6)
  localPort : UInt16
  remoteAddress : BitVec (addressBits v6)
  remotePort : UInt16
  state : UInt8
  uid : UInt32
  inode : UInt64

def Socket.listens {v6 : Bool} (protocol : Protocol) (socket : Socket v6) : Bool :=
  socket.localPort != 0 &&
    match protocol with
    | .tcp => socket.state == 0x0A
    | .udp => socket.remotePort == 0 && socket.remoteAddress == 0

def Socket.row {v6 : Bool} (protocol : Protocol) (socket : Socket v6) : Row :=
  ⟨protocol, toIpAddr v6 socket.localAddress, socket.localPort.toNat, socket.uid.toNat,
    socket.inode.toNat⟩

/-- A column that the parser does not read. -/
structure Cell where
  text : List Char
  solid : Solid text

/-- A socket, and what else its row holds. -/
structure PrintedRow (v6 : Bool) where
  socket : Socket v6
  sl : Cell
  queues : Cell
  timer : Cell
  retransmits : Cell
  timeout : Cell
  others : List Cell
  layout : Layout

structure Header where
  others : List Cell
  layout : Layout

def Header.cells (header : Header) : List (List Char) :=
  "sl".toList :: "local_address".toList :: header.others.map (·.text)

section Printing

variable (e : Endian) {v6 : Bool}

/-- The words of an address, which is in network order in memory, in the byte order of the host. -/
def wordsOf (address : BitVec (addressBits v6)) : List ℕ :=
  (pieces 4 (wordCount v6) (encode .big (wordCount v6 * 4) address.toNat)).map (decode e)

/-- `%08X` for each word, a colon and `%04X`. -/
def endpointText (address : BitVec (addressBits v6)) (port : UInt16) : List Char :=
  ((wordsOf e address).map (padded 16 8)).flatten ++ ':' :: padded 16 4 port.toNat

def PrintedRow.cells (row : PrintedRow v6) : List (List Char) :=
  row.sl.text :: endpointText e row.socket.localAddress row.socket.localPort ::
    endpointText e row.socket.remoteAddress row.socket.remotePort ::
    padded 16 2 row.socket.state.toNat :: row.queues.text :: row.timer.text ::
    row.retransmits.text :: Nat.toDigits 10 row.socket.uid.toNat :: row.timeout.text ::
    Nat.toDigits 10 row.socket.inode.toNat :: row.others.map (·.text)

/-- The header and a row for each socket, each on a line. -/
def table (header : Header) (rows : List (PrintedRow v6)) : List Char :=
  Lines.joined '\n'
    (header.layout.line header.cells :: rows.map fun row => row.layout.line (row.cells e))

end Printing

section Addresses

variable {e : Endian} {v6 : Bool}

theorem address_lt (address : BitVec (addressBits v6)) :
    address.toNat < 256 ^ (wordCount v6 * 4) := by
  have hlt := address.isLt
  cases v6 with
  | true => exact hlt
  | false => exact hlt

theorem length_wordsOf (address : BitVec (addressBits v6)) :
    (wordsOf e address).length = wordCount v6 := by
  rw [wordsOf, List.length_map, length_pieces]

theorem wordsOf_lt (address : BitVec (addressBits v6)) :
    ∀ word ∈ wordsOf e address, word < 16 ^ 8 := by
  intro word hword
  obtain ⟨piece, hpiece, rfl⟩ := List.mem_map.mp hword
  have hlength := length_of_mem (length_encode .big _ _) piece hpiece
  have hlt := decode_lt e piece
  rw [hlength] at hlt
  exact hlt

/-- The words of an address give it back, whatever the byte order. -/
theorem address_wordsOf (address : BitVec (addressBits v6)) (port : ℕ) :
    (Endpoint.mk (wordsOf e address) port).address e v6 = toIpAddr v6 address := by
  have hbytes : (wordsOf e address).flatMap (encode e 4) =
      encode .big (wordCount v6 * 4) address.toNat := by
    have hlength := length_encode .big (wordCount v6 * 4) address.toNat
    have hpieces : ∀ piece ∈ pieces 4 (wordCount v6) (encode .big (wordCount v6 * 4) address.toNat),
        (encode e 4 ∘ decode e) piece = id piece :=
      fun piece hpiece => encode_decode e (length_of_mem hlength piece hpiece)
    rw [wordsOf, List.flatMap_def, List.map_map, List.map_congr_left hpieces, List.map_id,
      flatten_pieces hlength]
  have hdecode := decode_encode .big (address_lt address)
  rw [Endpoint.address, hbytes, ofBytes, hdecode]
  cases v6 with
  | true =>
    have hbits := (BitVec.ofNat_toNat 128 address).trans (BitVec.setWidth_eq address)
    exact congrArg IpAddr.v6 hbits
  | false =>
    have hbits := (BitVec.ofNat_toNat 32 address).trans (BitVec.setWidth_eq address)
    exact congrArg IpAddr.v4 hbits

end Addresses

section Grammar

variable {e : Endian} {v6 : Bool}

theorem digits_words (words : List ℕ) :
    ∀ c ∈ (words.map (padded 16 8)).flatten, (digit 16 c).isSome := by
  intro c hc
  obtain ⟨piece, hpiece, hmem⟩ := List.mem_flatten.mp hc
  obtain ⟨word, -, rfl⟩ := List.mem_map.mp hpiece
  exact digits_padded (by decide) (by decide) 8 word c hmem

theorem isEndpoint_printed (address : BitVec (addressBits v6)) (port : UInt16) :
    IsEndpoint Spells v6 (endpointText e address port) ⟨wordsOf e address, port.toNat⟩ := by
  have hwidths : ∀ piece ∈ (wordsOf e address).map (padded 16 8), piece.length = 8 := by
    intro piece hpiece
    obtain ⟨word, -, rfl⟩ := List.mem_map.mp hpiece
    exact length_padded 16 8 word
  have hcount : ((wordsOf e address).map (padded 16 8)).length = wordCount v6 := by
    rw [List.length_map, length_wordsOf]
  have hpieces := pieces_flatten hwidths
  rw [hcount] at hpieces
  have hport : port.toNat < 16 ^ 4 := port.toNat_lt
  apply IsEndpoint.intro
  · rw [length_flatten hwidths, hcount]
  · intro hcolon
    have hdigit := digits_words _ _ hcolon
    exact absurd hdigit (by decide)
  · rw [hpieces, List.forall₂_map_left_iff, List.forall₂_same]
    intro word hword
    exact spells_padded (by decide) (by decide) (by decide) (wordsOf_lt address word hword)
  · exact spells_padded (by decide) (by decide) (by decide) hport
  · exact Nat.le_sub_one_of_lt hport

example : endpointText .little (0x7F000001 : BitVec (addressBits false)) 631 =
    "0100007F:0277".toList := by
  decide

/-- What the kernel prints of a socket spells this. -/
def Socket.entry (e : Endian) (socket : Socket v6) : Entry where
  localEnd := ⟨wordsOf e socket.localAddress, socket.localPort.toNat⟩
  remoteEnd := ⟨wordsOf e socket.remoteAddress, socket.remotePort.toNat⟩
  state := socket.state.toNat
  uid := socket.uid.toNat
  inode := socket.inode.toNat

theorem isRow_printed (row : PrintedRow v6) :
    IsRow Spells v6 (row.cells e) (row.socket.entry e) := by
  have hstate : row.socket.state.toNat < 16 ^ 2 := row.socket.state.toNat_lt
  have huid : row.socket.uid.toNat < 2 ^ 32 := row.socket.uid.toNat_lt
  have hinode : row.socket.inode.toNat < 2 ^ 64 := row.socket.inode.toNat_lt
  apply IsRow.intro
  · exact isEndpoint_printed row.socket.localAddress row.socket.localPort
  · exact isEndpoint_printed row.socket.remoteAddress row.socket.remotePort
  · exact spells_padded (by decide) (by decide) (by decide) hstate
  · exact Nat.le_sub_one_of_lt hstate
  · exact spells_toDigits row.socket.uid.toNat
  · exact Nat.le_sub_one_of_lt huid
  · exact spells_toDigits row.socket.inode.toNat
  · exact Nat.le_sub_one_of_lt hinode

theorem solid_spells {radix n : ℕ} {text : List Char} (h : Spells radix text n) : Solid text :=
  ⟨h.nonempty, fun c hc => not_whitespace (h.digits c hc)⟩

theorem solid_endpoint {field : List Char} {x : Endpoint} (h : IsEndpoint Spells v6 field x) :
    Solid field := by
  obtain ⟨address, portText, rfl, -, hdigits, hport, -⟩ := isEndpoint_spells_iff.mp ⟨x.words, h⟩
  constructor
  · simp
  · intro c hc
    rw [List.mem_append, List.mem_cons] at hc
    rcases hc with haddress | rfl | hportText
    · exact not_whitespace (hdigits c haddress)
    · decide
    · exact (solid_spells hport).solid c hportText

theorem solid_others {others : List Cell} : ∀ cell ∈ others.map (·.text), Solid cell := by
  intro cell hcell
  obtain ⟨other, -, rfl⟩ := List.mem_map.mp hcell
  exact other.solid

theorem solid_cells (row : PrintedRow v6) : ∀ cell ∈ row.cells e, Solid cell := by
  have hrow : ∃ entry, IsRow Spells v6 (row.cells e) entry :=
    ⟨row.socket.entry e, isRow_printed row⟩
  obtain ⟨entry, hrow⟩ := hrow
  cases hrow with
  | intro hlocal hremote stateDigits _ uidDigits _ inodeDigits _ =>
    simp only [PrintedRow.cells, List.forall_mem_cons]
    exact ⟨row.sl.solid, solid_endpoint hlocal, solid_endpoint hremote, solid_spells stateDigits,
      row.queues.solid, row.timer.solid, row.retransmits.solid, solid_spells uidDigits,
      row.timeout.solid, solid_spells inodeDigits, solid_others⟩

theorem solid_header (header : Header) : ∀ cell ∈ header.cells, Solid cell := by
  have hfirst : Solid "sl".toList := solid_of_all (by decide) (by decide)
  have hsecond : Solid "local_address".toList :=
    solid_of_all (by decide) (by decide)
  rw [Header.cells, List.forall_mem_cons, List.forall_mem_cons]
  exact ⟨hfirst, hsecond, solid_others⟩

/-- What is printed is in the grammar, and spells the sockets in order. -/
theorem isTable_printed (header : Header) (rows : List (PrintedRow v6)) :
    IsTable Spells v6 (table e header rows) (rows.map fun row => row.socket.entry e) := by
  have hinLine : ∀ line ∈ header.layout.line header.cells ::
      rows.map (fun row => row.layout.line (row.cells e)), '\n' ∉ line := by
    rw [List.forall_mem_cons]
    refine ⟨inLine_line (solid_header header) header.layout, ?_⟩
    intro line hline
    obtain ⟨row, -, rfl⟩ := List.mem_map.mp hline
    exact inLine_line (solid_cells row) row.layout
  have hlines : lines (table e header rows) = withoutReturn (header.layout.line header.cells) ::
      rows.map fun row => withoutReturn (row.layout.line (row.cells e)) := by
    rw [table, lines_joined hinLine, List.map_cons, List.map_map]
    rfl
  have hcolumns (row : PrintedRow v6) :
      columns (withoutReturn (row.layout.line (row.cells e))) = row.cells e := by
    rw [columns_withoutReturn, columns_line (solid_cells row)]
  have hblank : ∀ line ∈ rows.map fun row => withoutReturn (row.layout.line (row.cells e)),
      decide (trim line ≠ []) = true := by
    intro line hline
    obtain ⟨row, -, rfl⟩ := List.mem_map.mp hline
    apply decide_eq_true
    intro htrim
    have hnone := columns_trim_nil htrim
    rw [hcolumns row] at hnone
    cases hnone
  rw [isTable_iff hlines, List.filter_eq_self.mpr hblank, List.forall₂_map_left_iff,
    List.forall₂_map_right_iff, List.forall₂_same]
  constructor
  · refine ⟨header.others.map (·.text), ?_⟩
    rw [columns_withoutReturn, columns_line (solid_header header)]
    rfl
  · intro row _
    rw [hcolumns row]
    exact isRow_printed row

end Grammar

section Reading

variable {e : Endian} {v6 : Bool}

theorem isUnspecified_iff (address : BitVec (addressBits v6)) :
    (toIpAddr v6 address).isUnspecified = (address == 0) := by
  cases v6 with
  | true => rfl
  | false => rfl

/-- An entry is listening when the socket is. -/
theorem listening_entry (protocol : Protocol) (socket : Socket v6) :
    (socket.entry e).listening e v6 protocol = socket.listens protocol := by
  have hport (port : UInt16) : (port.toNat == 0) = (port == 0) := by
    rw [Bool.eq_iff_iff, beq_iff_eq, beq_iff_eq, ← UInt16.toNat_inj]
    rfl
  have hstate : (socket.state.toNat == tcpListen) = (socket.state == 0x0A) := by
    rw [Bool.eq_iff_iff, beq_iff_eq, beq_iff_eq, ← UInt8.toNat_inj]
    rfl
  have hremote :
      ((socket.entry e).remoteEnd.address e v6).isUnspecified = (socket.remoteAddress == 0) := by
    rw [← isUnspecified_iff]
    exact congrArg _ (address_wordsOf socket.remoteAddress socket.remotePort.toNat)
  cases protocol with
  | tcp => simp only [Entry.listening, Socket.listens, Socket.entry, bne, hport, hstate]
  | udp =>
    simp only [Entry.listening, Socket.listens, hremote]
    simp only [Socket.entry, bne, hport]

theorem row_entry (protocol : Protocol) (socket : Socket v6) :
    (socket.entry e).row e v6 protocol =
      if socket.listens protocol then some (socket.row protocol) else none := by
  rw [Entry.row, listening_entry, Socket.entry, address_wordsOf]
  rfl

end Reading

/-- A table as the kernel prints it gives the sockets that are listening, in order, whatever the byte
order of the host. -/
theorem parse_printed (debug : List Char → String) (e : Endian) (protocol : Protocol) (v6 : Bool)
    (header : Header) (rows : List (PrintedRow v6)) :
    parse debug e (table e header rows) protocol v6 =
      .ok (((rows.map (·.socket)).filter (Socket.listens protocol)).map (Socket.row protocol)) := by
  have htable : IsTable Spells v6 (table e header rows) (rows.map fun row => row.socket.entry e) :=
    isTable_printed header rows
  apply parse_eq_ok.mpr
  refine ⟨_, htable.reads, ?_⟩
  rw [List.filterMap_map, ← List.filterMap_eq_map, List.filterMap_filter, List.filterMap_map]
  apply List.filterMap_congr
  intro row _
  exact (row_entry protocol row.socket).symm

def spaced : Layout where
  lead := ⟨"  ".toList, by decide, by decide⟩
  gap _ := ⟨⟨" ".toList, by decide, by decide⟩, by decide⟩
  trail := ⟨[], by decide, by decide⟩

def cell (text : String) (hsome : text.toList ≠ [])
    (h : text.toList.all (fun c => !isWhitespace c) = true) : Cell :=
  ⟨text.toList, solid_of_all hsome h⟩

def printedHeader : Header where
  others := [cell "rem_address" (by decide) (by decide), cell "st" (by decide) (by decide),
    cell "tx_queue" (by decide) (by decide), cell "rx_queue" (by decide) (by decide),
    cell "tr" (by decide) (by decide), cell "tm->when" (by decide) (by decide),
    cell "retrnsmt" (by decide) (by decide), cell "uid" (by decide) (by decide),
    cell "timeout" (by decide) (by decide), cell "inode" (by decide) (by decide)]
  layout := spaced

/-- A socket that listens on port 631 of 127.0.0.1. -/
def printedRow : PrintedRow false where
  socket := ⟨0x7F000001, 631, 0, 0, 0x0A, 0, 9⟩
  sl := cell "0:" (by decide) (by decide)
  queues := cell "00000000:00000000" (by decide) (by decide)
  timer := cell "00:00000000" (by decide) (by decide)
  retransmits := cell "00000000" (by decide) (by decide)
  timeout := cell "0" (by decide) (by decide)
  others := [cell "1" (by decide) (by decide)]
  layout := spaced

example : printedRow.layout.line (printedRow.cells .little) =
    ("  0: 0100007F:0277 00000000:0000 0A 00000000:00000000 00:00000000 00000000 0 0 9 1").toList := by
  decide

end Zstats.Procnet
