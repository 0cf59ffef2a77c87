import Mathlib.Logic.Function.Basic
import Zstats.Framework.Lines
import Zstats.Snapshot

namespace Zstats

/-- Days from -9999-01-01 to 9999-12-31, the range of `jiff::civil::Date`. -/
def dayCount : ℕ := 7304484

abbrev Date := Fin dayCount

/-- The date of a day number that is in range. -/
def Date.ofDay? (day : ℕ) : Option Date := if h : day < dayCount then some ⟨day, h⟩ else none

def Date.tomorrow (date : Date) : Option Date := Date.ofDay? (date.val + 1)

def Date.checkedSub (date : Date) (days : ℕ) : Option Date :=
  if days ≤ date.val then Date.ofDay? (date.val - days) else none

inductive ErrorKind where
  | notFound
  | invalidData
  | other
  deriving DecidableEq, Repr

abbrev Bytes := List UInt8

def newline : UInt8 := 10

def carriageReturn : UInt8 := 13

def encode (text : String) : Bytes := text.toUTF8.data.toList

def decode (bytes : Bytes) : Option String := String.fromUTF8? ⟨bytes.toArray⟩

theorem decode_encode (text : String) : decode (encode text) = some text := by
  have hbytes : (⟨(encode text).toArray⟩ : ByteArray) = text.toByteArray := rfl
  unfold decode String.fromUTF8?
  rw [hbytes, dif_pos text.isValidUTF8]
  rfl

/-- `serde_json` on `MetricRecord`. -/
structure SerdeJson where
  toString : MetricRecord → Option String
  fromStr : String → Option MetricRecord

/-- What is relied on: reading inverts writing, and what is written is one line. -/
structure SerdeJson.Lawful (serde : SerdeJson) : Prop where
  inverts : ∀ record text, serde.toString record = some text → serde.fromStr text = some record
  oneLine : ∀ record text, serde.toString record = some text → newline ∉ encode text
  noReturn : ∀ record text, serde.toString record = some text →
    (encode text).getLast? ≠ some carriageReturn

/-- The daily files and the date of the last sweep. -/
structure History where
  files : Date → Option Bytes
  lastCleanup : Option Date

/-- Append `bytes` to the file of a date, creating it as needed. -/
def History.write (h : History) (date : Date) (bytes : Bytes) : History :=
  { h with files := Function.update h.files date (some ((h.files date).getD [] ++ bytes)) }

/-- `File::open` on the file of a date. -/
def History.openFile (h : History) (date : Date) : Except ErrorKind Bytes :=
  match h.files date with
  | some bytes => .ok bytes
  | none => .error .notFound

/-- How a call of `append` meets the file system: it goes through, the directory or the file
cannot be opened, or writing stops after some bytes. -/
inductive Fault where
  | none
  | opening
  | writing (after : ℕ)
  deriving DecidableEq, Repr

/-- `removable` says which old files the sweep manages to delete. -/
structure AppendCall where
  date : Date
  records : List MetricRecord
  fault : Fault
  removable : Date → Bool

/-- The loop of `append`: the bytes it writes, and how it ends. -/
def writeRecords (serde : SerdeJson) : List MetricRecord → Bytes × Except ErrorKind Unit
  | [] => ([], .ok ())
  | record :: records =>
    match serde.toString record with
    | none => ([], .error .invalidData)
    | some line =>
      let (more, result) := writeRecords serde records
      (encode line ++ newline :: more, result)

/-- A write that stops after some bytes ends the loop there. -/
def Fault.interrupt (fault : Fault) (written : Bytes × Except ErrorKind Unit) :
    Bytes × Except ErrorKind Unit :=
  match fault with
  | .writing after =>
    if after ≤ written.1.length then (written.1.take after, .error .other) else written
  | _ => written

def retentionDays : ℕ := 30

/-- `cleanup`, for the files named by dates. -/
def cleanup (files : Date → Option Bytes) (removable : Date → Bool) (today : Date)
    (retentionDays : ℕ) : Date → Option Bytes :=
  match today.checkedSub retentionDays with
  | none => files
  | some cutoff => fun date => if date < cutoff && removable date then none else files date

def maybeCleanup (h : History) (removable : Date → Bool) (date : Date) : History :=
  if h.lastCleanup = some date then h
  else
    { files := cleanup h.files removable date retentionDays
      lastCleanup := some date }

def append (serde : SerdeJson) (h : History) (c : AppendCall) : History × Except ErrorKind Date :=
  if c.fault = .opening then (h, .error .other)
  else
    let (bytes, result) := c.fault.interrupt (writeRecords serde c.records)
    let written := h.write c.date bytes
    match result with
    | .error kind => (written, .error kind)
    | .ok () => (maybeCleanup written c.removable c.date, .ok c.date)

def stripReturn (line : Bytes) : Bytes :=
  if line.getLast? = some carriageReturn then line.dropLast else line

/-- `BufRead::lines`: a final newline, and a return before it, do not belong to the line. -/
def bufReadLines (bytes : Bytes) : List Bytes :=
  (Lines.ended newline bytes).map stripReturn ++
    (if Lines.rest newline bytes = [] then [] else [Lines.rest newline bytes])

/-- The loop of `read_range` over the lines of one file. -/
def readLines (serde : SerdeJson) (records : List MetricRecord) :
    List Bytes → Except ErrorKind (List MetricRecord)
  | [] => .ok records
  | line :: lines =>
    match decode line with
    | none => .error .invalidData
    | some text =>
      match serde.fromStr text with
      | some record => readLines serde (records ++ [record]) lines
      | none => readLines serde records lines

/-- The body of the loop of `read_range` over the dates. -/
def readFile (serde : SerdeJson) (openFile : Date → Except ErrorKind Bytes) (date : Date)
    (records : List MetricRecord) : Except ErrorKind (List MetricRecord) :=
  match openFile date with
  | .ok bytes => readLines serde records (bufReadLines bytes)
  | .error .notFound => .ok records
  | .error kind => .error kind

theorem Date.tomorrow_val {date next : Date} (h : date.tomorrow = some next) :
    next.val = date.val + 1 := by
  unfold Date.tomorrow Date.ofDay? at h
  by_cases hd : date.val + 1 < dayCount
  · rw [dif_pos hd] at h
    rw [← Option.some.inj h]
  · rw [dif_neg hd] at h
    cases h

/-- The loop of `read_range`, at `date` with `records` read so far. -/
def readFrom (serde : SerdeJson) (openFile : Date → Except ErrorKind Bytes) (toDate date : Date)
    (records : List MetricRecord) : Except ErrorKind (List MetricRecord) :=
  if date ≤ toDate then
    match readFile serde openFile date records with
    | .error kind => .error kind
    | .ok records =>
      match _h : date.tomorrow with
      | none => .ok records
      | some next => readFrom serde openFile toDate next records
  else .ok records
termination_by dayCount - date.val
decreasing_by
  have hnext := Date.tomorrow_val _h
  omega

def readRange (serde : SerdeJson) (openFile : Date → Except ErrorKind Bytes)
    (fromDate toDate : Date) : Except ErrorKind (List MetricRecord) :=
  readFrom serde openFile toDate fromDate []

end Zstats
