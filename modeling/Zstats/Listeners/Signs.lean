import Zstats.Listeners.ProcGrammar

namespace Zstats.Procnet

open Bytes Failing Numeral Pieces Text

/-- The numerals of an address and a port. -/
def endpointNumerals (v6 : Bool) (field : List Char) : List (List Char) :=
  match splitOnce ':' field with
  | some (address, port) => pieces 8 (wordCount v6) address ++ [port]
  | none => []

/-- The numerals of a row. -/
def numerals (v6 : Bool) : List (List Char) → List (List Char)
  | _ :: localText :: remoteText :: state :: _ :: _ :: _ :: uid :: _ :: inode :: _ =>
    endpointNumerals v6 localText ++ endpointNumerals v6 remoteText ++ [state, uid, inode]
  | _ => []

/-- The numerals of the rows of a table. -/
def tableNumerals (v6 : Bool) (text : List Char) : List (List Char) :=
  (rowLines (lines text)).flatMap fun line => numerals v6 (columns line)

/-- A table but for a plus sign in front of a numeral, of some numerals. -/
def Signed (v6 : Bool) (text : List Char) : Prop :=
  (∃ entries, IsTable Reads v6 text entries) ∧
    ∃ numeral ∈ tableNumerals v6 text, numeral.head? = some '+'

section

variable {R R' : ℕ → List Char → ℕ → Prop} {v6 : Bool}

theorem endpointNumerals_eq {address port : List Char} (plain : ':' ∉ address) :
    endpointNumerals v6 (address ++ ':' :: port) = pieces 8 (wordCount v6) address ++ [port] := by
  have hsplit : splitOnce ':' (address ++ ':' :: port) = some (address, port) :=
    splitOnce_eq_some.mpr ⟨rfl, plain⟩
  rw [endpointNumerals, hsplit]

/-- A numeral is one whatever it is taken for. -/
theorem IsEndpoint.denotes {field : List Char} {x : Endpoint} (h : IsEndpoint R v6 field x) :
    ∀ numeral ∈ endpointNumerals v6 field, ∃ radix n, R radix numeral n := by
  cases h with
  | @intro address portText words port width plain digits portDigits portFits =>
    intro numeral hnumeral
    rw [endpointNumerals_eq plain, List.mem_append, List.mem_singleton] at hnumeral
    rcases hnumeral with hpiece | rfl
    · exact ⟨16, exists_of_forall₂ digits numeral hpiece⟩
    · exact ⟨16, port, portDigits⟩

theorem IsEndpoint.imp {field : List Char} {x : Endpoint} (h : IsEndpoint R v6 field x)
    (himp : ∀ numeral ∈ endpointNumerals v6 field, ∀ radix n,
      R radix numeral n → R' radix numeral n) :
    IsEndpoint R' v6 field x := by
  cases h with
  | @intro address portText words port width plain digits portDigits portFits =>
    rw [endpointNumerals_eq plain] at himp
    have hport : R' 16 portText port :=
      himp portText (List.mem_append_right _ (List.mem_singleton_self _)) 16 port portDigits
    have hpieces : ∀ piece ∈ pieces 8 (wordCount v6) address, ∀ word,
        R 16 piece word → R' 16 piece word :=
      fun piece hpiece word => himp piece (List.mem_append_left _ hpiece) 16 word
    exact .intro width plain (forall₂_imp digits hpieces) hport portFits

theorem IsRow.denotes {fields : List (List Char)} {entry : Entry} (h : IsRow R v6 fields entry) :
    ∀ numeral ∈ numerals v6 fields, ∃ radix n, R radix numeral n := by
  cases h with
  | intro hlocal hremote stateDigits _ uidDigits _ inodeDigits _ =>
    intro numeral hnumeral
    simp only [numerals, List.mem_append, List.mem_cons, List.not_mem_nil, or_false] at hnumeral
    rcases hnumeral with (hlocalEnd | hremoteEnd) | rfl | rfl | rfl
    · exact hlocal.denotes numeral hlocalEnd
    · exact hremote.denotes numeral hremoteEnd
    · exact ⟨16, _, stateDigits⟩
    · exact ⟨10, _, uidDigits⟩
    · exact ⟨10, _, inodeDigits⟩

theorem IsRow.imp {fields : List (List Char)} {entry : Entry} (h : IsRow R v6 fields entry)
    (himp : ∀ numeral ∈ numerals v6 fields, ∀ radix n, R radix numeral n → R' radix numeral n) :
    IsRow R' v6 fields entry := by
  cases h with
  | intro hlocal hremote stateDigits stateFits uidDigits uidFits inodeDigits inodeFits =>
    simp only [numerals, List.mem_append, List.mem_cons, List.not_mem_nil, or_false] at himp
    have hlocalEnd := hlocal.imp fun numeral h => himp numeral (.inl (.inl h))
    have hremoteEnd := hremote.imp fun numeral h => himp numeral (.inl (.inr h))
    have hstate := himp _ (.inr (.inl rfl)) 16 _ stateDigits
    have huid := himp _ (.inr (.inr (.inl rfl))) 10 _ uidDigits
    have hinode := himp _ (.inr (.inr (.inr rfl))) 10 _ inodeDigits
    exact .intro hlocalEnd hremoteEnd hstate stateFits huid uidFits hinode inodeFits

variable {text : List Char} {entries : List Entry}

theorem IsTable.denotes (h : IsTable R v6 text entries) :
    ∀ numeral ∈ tableNumerals v6 text, ∃ radix n, R radix numeral n := by
  intro numeral hnumeral
  obtain ⟨line, hline, hmem⟩ := List.mem_flatMap.mp hnumeral
  obtain ⟨entry, hentry⟩ := exists_of_forall₂ h.rows line hline
  exact hentry.denotes numeral hmem

theorem IsTable.imp (h : IsTable R v6 text entries)
    (himp : ∀ numeral ∈ tableNumerals v6 text, ∀ radix n, R radix numeral n → R' radix numeral n) :
    IsTable R' v6 text entries := by
  refine ⟨h.header, forall₂_imp h.rows ?_⟩
  intro line hline entry hentry
  apply hentry.imp
  intro numeral hnumeral
  exact himp numeral (List.mem_flatMap.mpr ⟨line, hline, hnumeral⟩)

end

section

variable {v6 : Bool} {text : List Char} {entries : List Entry}

/-- Without a sign, a numeral that is read is a run of digits. -/
theorem IsTable.spells (h : IsTable Reads v6 text entries) (hsigned : ¬ Signed v6 text) :
    IsTable Spells v6 text entries := by
  apply h.imp
  intro numeral hnumeral radix n hreads
  apply hreads.spells
  intro hsign
  exact hsigned ⟨⟨entries, h⟩, numeral, hnumeral, hsign⟩

theorem IsTable.reads (h : IsTable Spells v6 text entries) : IsTable Reads v6 text entries :=
  h.imp fun _ _ _ _ hspells => .inl hspells

theorem IsTable.not_signed (h : IsTable Spells v6 text entries) :
    ∀ numeral ∈ tableNumerals v6 text, numeral.head? ≠ some '+' := by
  intro numeral hnumeral
  obtain ⟨radix, n, hspells⟩ := h.denotes numeral hnumeral
  exact hspells.not_signed

end

/-- What is accepted is a table of the grammar, and read as its digits spell it, exactly where the text
is no table with a plus sign in front of a numeral. -/
theorem parse_grammar (debug : List Char → String) (e : Endian) (text : List Char)
    (protocol : Protocol) (v6 : Bool) :
    (∀ rows, parse debug e text protocol v6 = .ok rows ↔
      ∃ entries, IsTable Spells v6 text entries ∧
        rows = entries.filterMap (Entry.row e v6 protocol)) ↔
      ¬ Signed v6 text := by
  constructor
  · intro h hsigned
    obtain ⟨⟨entries, htable⟩, numeral, hnumeral, hsign⟩ := hsigned
    have hparse : parse debug e text protocol v6 =
        .ok (entries.filterMap (Entry.row e v6 protocol)) :=
      parse_eq_ok.mpr ⟨entries, htable, rfl⟩
    obtain ⟨entries', hspells, -⟩ := (h _).mp hparse
    exact hspells.not_signed numeral hnumeral hsign
  · intro hsigned rows
    rw [parse_eq_ok]
    constructor
    · intro h
      obtain ⟨entries, htable, hrows⟩ := h
      exact ⟨entries, htable.spells hsigned, hrows⟩
    · intro h
      obtain ⟨entries, htable, hrows⟩ := h
      exact ⟨entries, htable.reads, hrows⟩

def signedTable : List Char :=
  Lines.joined '\n' [
    ["sl", "local_address", "rem_address", "st", "tx_queue", "rx_queue", "tr", "tm->when",
      "retrnsmt", "uid", "timeout", "inode"].flatMap fun column => ' ' :: column.toList,
    ["0:", "+100007F:0277", "00000000:0000", "0A", "00000000:00000000", "00:00000000", "00000000",
      "0", "0", "23045"].flatMap fun column => ' ' :: column.toList]

/-- Seven digits behind a plus sign are accepted as a word. -/
theorem signed_accepted :
    parse String.ofList .little signedTable .tcp false =
        .ok [⟨.tcp, .v4 0x7F000001, 631, 0, 23045⟩] ∧
      ¬ ∃ entries, IsTable Spells false signedTable entries := by
  refine ⟨by decide +kernel, ?_⟩
  intro h
  obtain ⟨entries, htable⟩ := h
  have hsign : ∃ numeral ∈ tableNumerals false signedTable, numeral.head? = some '+' := by
    decide +kernel
  obtain ⟨numeral, hnumeral, hhead⟩ := hsign
  exact htable.not_signed numeral hnumeral hhead

end Zstats.Procnet
