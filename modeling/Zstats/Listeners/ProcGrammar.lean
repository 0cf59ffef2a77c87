import Zstats.Listeners.ProcTable

namespace Zstats.Procnet

open Bytes Failing Numeral Pieces Text

/-- An address and a port as a column spells them. -/
structure Endpoint where
  words : List ℕ
  port : ℕ

/-- What a row spells. -/
structure Entry where
  localEnd : Endpoint
  remoteEnd : Endpoint
  state : ℕ
  uid : ℕ
  inode : ℕ

/-- The words of an address are in the byte order of the host. -/
def Endpoint.address (e : Endian) (v6 : Bool) (x : Endpoint) : IpAddr :=
  ofBytes v6 (x.words.flatMap (encode e 4))

def Entry.listening (e : Endian) (v6 : Bool) (protocol : Protocol) (entry : Entry) : Bool :=
  entry.localEnd.port != 0 &&
    match protocol with
    | .tcp => entry.state == tcpListen
    | .udp => entry.remoteEnd.port == 0 && (entry.remoteEnd.address e v6).isUnspecified

/-- The row of an entry that is listening. -/
def Entry.row (e : Endian) (v6 : Bool) (protocol : Protocol) (entry : Entry) : Option Row :=
  if entry.listening e v6 protocol then
    some ⟨protocol, entry.localEnd.address e v6, entry.localEnd.port, entry.uid, entry.inode⟩
  else none

section Grammar

-- `R` says which texts are numerals of a radix, and which numbers they denote
variable (R : ℕ → List Char → ℕ → Prop) (v6 : Bool)

/-- Words of eight hexadecimal characters, a colon and a port. -/
inductive IsEndpoint : List Char → Endpoint → Prop
  | intro {address portText : List Char} {words : List ℕ} {port : ℕ}
      (width : address.length = wordCount v6 * 8) (plain : ':' ∉ address)
      (digits : List.Forall₂ (R 16) (pieces 8 (wordCount v6) address) words)
      (portDigits : R 16 portText port) (portFits : port ≤ u16Max) :
      IsEndpoint (address ++ ':' :: portText) ⟨words, port⟩

/-- The columns of a row. -/
inductive IsRow : List (List Char) → Entry → Prop
  | intro {sl localText remoteText stateText queues timer retransmits : List Char}
      {uidText timeout inodeText : List Char} {others : List (List Char)}
      {localEnd remoteEnd : Endpoint} {state uid inode : ℕ}
      (hlocal : IsEndpoint R v6 localText localEnd) (hremote : IsEndpoint R v6 remoteText remoteEnd)
      (stateDigits : R 16 stateText state) (stateFits : state ≤ u8Max)
      (uidDigits : R 10 uidText uid) (uidFits : uid ≤ u32Max)
      (inodeDigits : R 10 inodeText inode) (inodeFits : inode ≤ u64Max) :
      IsRow (sl :: localText :: remoteText :: stateText :: queues :: timer :: retransmits ::
        uidText :: timeout :: inodeText :: others) ⟨localEnd, remoteEnd, state, uid, inode⟩

/-- The header that is expected. -/
def IsHeader (header : List Char) : Prop :=
  ∃ others, columns header = "sl".toList :: "local_address".toList :: others

/-- The lines below the header that are not blank. -/
def rowLines (lines : List (List Char)) : List (List Char) :=
  lines.tail.filter fun line => trim line ≠ []

/-- A header, and a row on every line below it that is not blank. -/
structure IsTable (text : List Char) (entries : List Entry) : Prop where
  header : ∃ header ∈ (lines text).head?, IsHeader header
  rows : List.Forall₂ (fun line entry => IsRow R v6 (columns line) entry)
    (rowLines (lines text)) entries

variable {R v6}

theorem isTable_iff {text header : List Char} {others : List (List Char)}
    (hlines : lines text = header :: others) {entries : List Entry} :
    IsTable R v6 text entries ↔
      IsHeader header ∧ List.Forall₂ (fun line entry => IsRow R v6 (columns line) entry)
        (others.filter fun line => trim line ≠ []) entries := by
  constructor
  · intro h
    obtain ⟨first, hfirst, hheader⟩ := h.header
    have hrows := h.rows
    rw [hlines] at hfirst hrows
    cases hfirst
    exact ⟨hheader, hrows⟩
  · intro h
    obtain ⟨hheader, hrows⟩ := h
    constructor
    · rw [hlines]
      exact ⟨header, rfl, hheader⟩
    · rw [hlines]
      exact hrows

/-- Eight or thirty-two hexadecimal digits, a colon and the digits of a port. -/
theorem isEndpoint_spells_iff {field : List Char} {port : ℕ} :
    (∃ words, IsEndpoint Spells v6 field ⟨words, port⟩) ↔
      ∃ address portText, field = address ++ ':' :: portText ∧ address.length = wordCount v6 * 8 ∧
        (∀ c ∈ address, (digit 16 c).isSome) ∧ Spells 16 portText port ∧ port ≤ u16Max := by
  constructor
  · intro h
    obtain ⟨words, hwords⟩ := h
    cases hwords with
    | @intro address portText _ _ width plain digits portDigits portFits =>
      refine ⟨address, portText, rfl, width, ?_, portDigits, portFits⟩
      intro c hc
      rw [← flatten_pieces width] at hc
      obtain ⟨piece, hpiece, hmem⟩ := List.mem_flatten.mp hc
      obtain ⟨word, hword⟩ := exists_of_forall₂ digits piece hpiece
      exact hword.digits c hmem
  · intro h
    obtain ⟨address, portText, rfl, width, hdigits, portDigits, portFits⟩ := h
    have hplain : ':' ∉ address := by
      intro hcolon
      have hdigit := hdigits ':' hcolon
      exact absurd hdigit (by decide)
    refine ⟨(pieces 8 (wordCount v6) address).map (value 16 0),
      .intro width hplain ?_ portDigits portFits⟩
    rw [List.forall₂_map_right_iff, List.forall₂_same]
    intro piece hpiece
    have hlength := length_of_mem width piece hpiece
    refine ⟨List.ne_nil_of_length_pos (by omega), ?_, rfl⟩
    intro c hc
    apply hdigits c
    rw [← flatten_pieces width]
    exact List.mem_flatten.mpr ⟨piece, hpiece, hc⟩

end Grammar

section Accepted

variable {debug : List Char → String} {e : Endian} {protocol : Protocol} {v6 : Bool}

theorem isAscii_of_reads {radix n : ℕ} {text : List Char} (h : Reads radix text n) :
    ∀ c ∈ text, c.toNat < 128 := by
  have hdigits {digits : List Char} {n : ℕ} (h : Spells radix digits n) :
      ∀ c ∈ digits, c.toNat < 128 := by
    intro c hc
    have hcode := code_of_digit (h.digits c hc)
    omega
  rcases h with h | ⟨digits, rfl, h⟩
  · exact hdigits h
  · intro c hc
    rcases List.mem_cons.mp hc with rfl | hc
    · decide
    · exact hdigits h c hc

/-- Words are accepted when each is read as a number; eight characters always fit. -/
theorem addressWords_eq_ok {hex : List Char} {count : ℕ} {words : List ℕ} :
    addressWords debug hex count = .ok words ↔
      hex.length = count * 8 ∧ List.Forall₂ (Reads 16) (pieces 8 count hex) words := by
  have hword (piece : List Char) (word : ℕ) (hlength : piece.length = 8) (error : String) :
      okOr (fromStrRadix 16 u32Max piece) error = .ok word ↔ Reads 16 piece word := by
    rw [okOr_eq_ok, fromStrRadix_eq_some (by decide)]
    constructor
    · intro h
      exact h.1
    · intro h
      have hlt := h.lt (by decide)
      rw [hlength] at hlt
      refine ⟨h, ?_⟩
      rw [u32Max]
      omega
  have hall (hlength : hex.length = count * 8) :
      ((pieces 8 count hex).mapM fun piece => okOr (fromStrRadix 16 u32Max piece)
        ("address " ++ debug hex ++ " is not hex")) = .ok words ↔
        List.Forall₂ (Reads 16) (pieces 8 count hex) words := by
    apply mapM_eq_ok
    intro piece hpiece word
    exact hword piece word (length_of_mem hlength piece hpiece) _
  rw [addressWords]
  constructor
  · intro h
    split at h
    · cases h
    · next hgood =>
      rw [not_or, not_not, not_not] at hgood
      obtain ⟨hbytes, hascii⟩ := hgood
      rw [byteLength_of_isAscii hascii] at hbytes
      exact ⟨hbytes, (hall hbytes).mp h⟩
  · intro h
    obtain ⟨hlength, hreads⟩ := h
    have hpieces := exists_of_forall₂ hreads
    have hascii : isAscii hex = true := by
      rw [isAscii, List.all_eq_true, ← flatten_pieces hlength]
      intro c hc
      obtain ⟨piece, hpiece, hmem⟩ := List.mem_flatten.mp hc
      obtain ⟨word, hword⟩ := hpieces piece hpiece
      exact decide_eq_true (isAscii_of_reads hword c hmem)
    have hgood : ¬ (byteLength hex ≠ count * 8 ∨ ¬ isAscii hex) := by
      rw [byteLength_of_isAscii hascii, not_or, not_not, not_not]
      exact ⟨hlength, hascii⟩
    rw [if_neg hgood]
    exact (hall hlength).mpr hreads

theorem endpoint_eq_ok {field : List Char} {address : IpAddr} {port : ℕ} :
    endpoint debug e field v6 = .ok (address, port) ↔
      ∃ x, IsEndpoint Reads v6 field x ∧ x.address e v6 = address ∧ x.port = port := by
  rw [endpoint, bind_eq_ok]
  constructor
  · intro h
    obtain ⟨⟨front, back⟩, hsplit, hrest⟩ := h
    obtain ⟨rfl, hplain⟩ := splitOnce_eq_some.mp (okOr_eq_ok.mp hsplit)
    obtain ⟨n, hport, hrest⟩ := bind_eq_ok.mp hrest
    obtain ⟨hdigits, hfits⟩ := (fromStrRadix_eq_some (by decide)).mp (okOr_eq_ok.mp hport)
    obtain ⟨words, hwords, hrest⟩ := bind_eq_ok.mp hrest
    obtain ⟨hwidth, hreads⟩ := addressWords_eq_ok.mp hwords
    cases hrest
    exact ⟨⟨words, port⟩, .intro hwidth hplain hreads hdigits hfits, rfl, rfl⟩
  · intro h
    obtain ⟨x, hx, rfl, rfl⟩ := h
    cases hx with
    | @intro front back words n hwidth hplain hreads hdigits hfits =>
      have hport : okOr (fromStrRadix 16 u16Max back) "bad port" = .ok n :=
        okOr_eq_ok.mpr ((fromStrRadix_eq_some (by decide)).mpr ⟨hdigits, hfits⟩)
      have hwords : addressWords debug front (wordCount v6) = .ok words :=
        addressWords_eq_ok.mpr ⟨hwidth, hreads⟩
      refine ⟨(front, back), okOr_eq_ok.mpr (splitOnce_eq_some.mpr ⟨rfl, hplain⟩), ?_⟩
      simp only [hport, hwords, ok_bind]
      rfl

theorem parseUnsigned_eq_ok {max n : ℕ} {text : List Char} {error : String} :
    okOr (parseUnsigned max text) error = .ok n ↔ Reads 10 text n ∧ n ≤ max := by
  rw [okOr_eq_ok, parseUnsigned_eq, fromStrRadix_eq_some (by decide)]

theorem parseRow_eq_ok {line : List Char} {row : Option Row} :
    parseRow debug e line protocol v6 = .ok row ↔
      ∃ entry, IsRow Reads v6 (columns line) entry ∧ entry.row e v6 protocol = row := by
  rw [parseRow]
  generalize columns line = fields
  constructor
  · intro h
    split at h
    · obtain ⟨⟨address, port⟩, hlocal, h⟩ := bind_eq_ok.mp h
      obtain ⟨⟨remoteAddress, remotePort⟩, hremote, h⟩ := bind_eq_ok.mp h
      obtain ⟨state, hstate, h⟩ := bind_eq_ok.mp h
      obtain ⟨uid, huid, h⟩ := bind_eq_ok.mp h
      obtain ⟨inode, hinode, h⟩ := bind_eq_ok.mp h
      obtain ⟨localEnd, hlocalEnd, rfl, rfl⟩ := endpoint_eq_ok.mp hlocal
      obtain ⟨remoteEnd, hremoteEnd, rfl, rfl⟩ := endpoint_eq_ok.mp hremote
      obtain ⟨hstateDigits, hstateFits⟩ :=
        (fromStrRadix_eq_some (by decide)).mp (okOr_eq_ok.mp hstate)
      obtain ⟨huidDigits, huidFits⟩ := parseUnsigned_eq_ok.mp huid
      obtain ⟨hinodeDigits, hinodeFits⟩ := parseUnsigned_eq_ok.mp hinode
      refine ⟨⟨localEnd, remoteEnd, state, uid, inode⟩,
        .intro hlocalEnd hremoteEnd hstateDigits hstateFits huidDigits huidFits hinodeDigits
          hinodeFits, ?_⟩
      exact Except.ok.inj h
    · cases h
  · intro h
    obtain ⟨entry, hentry, rfl⟩ := h
    cases hentry with
    | @intro _ localText remoteText stateText _ _ _ uidText _ inodeText _ localEnd remoteEnd state
        uid inode hlocal hremote hstateDigits hstateFits huidDigits huidFits hinodeDigits
        hinodeFits =>
      have hlocalEnd : endpoint debug e localText v6 = .ok (localEnd.address e v6, localEnd.port) :=
        endpoint_eq_ok.mpr ⟨localEnd, hlocal, rfl, rfl⟩
      have hremoteEnd :
          endpoint debug e remoteText v6 = .ok (remoteEnd.address e v6, remoteEnd.port) :=
        endpoint_eq_ok.mpr ⟨remoteEnd, hremote, rfl, rfl⟩
      have hstate : okOr (fromStrRadix 16 u8Max stateText) "bad state" = .ok state :=
        okOr_eq_ok.mpr ((fromStrRadix_eq_some (by decide)).mpr ⟨hstateDigits, hstateFits⟩)
      have huid : okOr (parseUnsigned u32Max uidText) "bad uid" = .ok uid :=
        parseUnsigned_eq_ok.mpr ⟨huidDigits, huidFits⟩
      have hinode : okOr (parseUnsigned u64Max inodeText) "bad inode" = .ok inode :=
        parseUnsigned_eq_ok.mpr ⟨hinodeDigits, hinodeFits⟩
      simp only [hlocalEnd, hremoteEnd, hstate, huid, hinode, ok_bind]
      rfl

theorem isHeader_iff {header : List Char} :
    IsHeader header ↔
      (columns header)[0]? = some "sl".toList ∧
        (columns header)[1]? = some "local_address".toList := by
  rw [IsHeader]
  constructor
  · intro h
    obtain ⟨others, hcolumns⟩ := h
    rw [hcolumns]
    exact ⟨rfl, rfl⟩
  · intro h
    obtain ⟨hfirst, hsecond⟩ := h
    cases hcolumns : columns header with
    | nil =>
      rw [hcolumns] at hfirst
      cases hfirst
    | cons first others =>
      rw [hcolumns] at hfirst hsecond
      cases others with
      | nil => cases hsecond
      | cons second others =>
        cases hfirst
        cases hsecond
        exact ⟨others, rfl⟩

/-- The parser accepts the tables of the grammar whose numerals may have a plus sign, and gives the
rows that are listening, in order. -/
theorem parse_eq_ok {text : List Char} {rows : List Row} :
    parse debug e text protocol v6 = .ok rows ↔
      ∃ entries, IsTable Reads v6 text entries ∧
        rows = entries.filterMap (Entry.row e v6 protocol) := by
  have hrow (line : List Char) (row : Option Row) :
      ((parseRow debug e line protocol v6).mapError fun error => error ++ ": " ++ debug line) =
          .ok row ↔
        ∃ entry, IsRow Reads v6 (columns line) entry ∧ entry.row e v6 protocol = row :=
    mapError_eq_ok.trans parseRow_eq_ok
  rw [parse]
  cases hlines : lines text with
  | nil =>
    constructor
    · intro h
      cases h
    · intro h
      obtain ⟨entries, htable, -⟩ := h
      obtain ⟨header, hmem, -⟩ := htable.header
      rw [hlines] at hmem
      cases hmem
  | cons header others =>
    simp only [isTable_iff hlines]
    by_cases hheader : IsHeader header
    · obtain ⟨hfirst, hsecond⟩ := isHeader_iff.mp hheader
      simp only [hfirst, hsecond, ne_eq, not_true_eq_false, or_self, if_false, hheader, true_and]
      exact foldlM_eq_ok hrow
    · have hrefused : (columns header)[0]? ≠ some "sl".toList ∨
          (columns header)[1]? ≠ some "local_address".toList := by
        rw [isHeader_iff, not_and_or] at hheader
        exact hheader
      simp only [if_pos hrefused, hheader, false_and, exists_false, iff_false]
      intro h
      cases h

end Accepted

end Zstats.Procnet
