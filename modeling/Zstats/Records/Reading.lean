import Mathlib.Order.Fin.Basic
import Zstats.Records.Files

namespace Zstats

/-- The record that a line holds. -/
def parse (serde : SerdeJson) (line : Bytes) : Option MetricRecord :=
  (decode line).bind serde.fromStr

/-- Every line is UTF-8. -/
def IsText (bytes : Bytes) : Prop := ∀ line ∈ bufReadLines bytes, (decode line).isSome

instance (bytes : Bytes) : Decidable (IsText bytes) := inferInstanceAs (Decidable (∀ _ ∈ _, _))

/-- The records of a file, in line order. -/
def recordsOf (serde : SerdeJson) (bytes : Bytes) : List MetricRecord :=
  (bufReadLines bytes).filterMap (parse serde)

/-- The dates of a range, in order. -/
def days (fromDate toDate : Date) : List Date :=
  (List.range' fromDate.val (toDate.val + 1 - fromDate.val)).filterMap Date.ofDay?

/-- The records of the files of a range, in date order. -/
def recordsBetween (serde : SerdeJson) (files : Date → Option Bytes) (fromDate toDate : Date) :
    List MetricRecord :=
  (days fromDate toDate).flatMap fun date => ((files date).map (recordsOf serde)).getD []

theorem ofDay?_eq_some {day : ℕ} {date : Date} : Date.ofDay? day = some date ↔ date.val = day := by
  unfold Date.ofDay?
  constructor
  · intro h
    by_cases hd : day < dayCount
    · rw [dif_pos hd] at h
      rw [← Option.some.inj h]
    · rw [dif_neg hd] at h
      cases h
  · intro h
    subst h
    exact dif_pos date.isLt

theorem mem_days {fromDate toDate date : Date} :
    date ∈ days fromDate toDate ↔ fromDate ≤ date ∧ date ≤ toDate := by
  rw [days]
  simp only [List.mem_filterMap, List.mem_range'_1, ofDay?_eq_some, Fin.le_def]
  constructor
  · rintro ⟨day, hday, heq⟩
    omega
  · intro h
    exact ⟨date.val, by omega, rfl⟩

theorem days_of_lt {fromDate toDate : Date} (h : toDate < fromDate) :
    days fromDate toDate = [] := by
  have hzero : toDate.val + 1 - fromDate.val = 0 := by
    have hval : toDate.val < fromDate.val := h
    omega
  rw [days, hzero]
  rfl

theorem days_step {date toDate : Date} (h : date ≤ toDate) :
    days date toDate = date :: (date.tomorrow.map fun next => days next toDate).getD [] := by
  have hval : date.val ≤ toDate.val := h
  have hlength : toDate.val + 1 - date.val = toDate.val - date.val + 1 := by omega
  have hfirst : Date.ofDay? date.val = some date := ofDay?_eq_some.mpr rfl
  rw [days, hlength, List.range'_succ, List.filterMap_cons_some hfirst]
  cases hnext : date.tomorrow with
  | none =>
    -- the last date there is
    have hlast : toDate.val - date.val = 0 := by
      by_contra hne
      have hin : date.val + 1 < dayCount := by
        have := toDate.isLt
        omega
      have : date.tomorrow = some ⟨date.val + 1, hin⟩ := ofDay?_eq_some.mpr rfl
      rw [hnext] at this
      cases this
    rw [hlast]
    rfl
  | some next =>
    have hsucc : next.val = date.val + 1 := Date.tomorrow_val hnext
    have hrest : toDate.val + 1 - next.val = toDate.val - date.val := by omega
    rw [Option.map_some, Option.getD_some, days, hrest, hsucc]

section Lines

variable {serde : SerdeJson} {lines : List Bytes}

theorem readLines_text (records : List MetricRecord) (h : ∀ line ∈ lines, (decode line).isSome) :
    readLines serde records lines = .ok (records ++ lines.filterMap (parse serde)) := by
  induction lines generalizing records with
  | nil => simp [readLines]
  | cons line lines ih =>
    obtain ⟨text, htext⟩ := Option.isSome_iff_exists.mp (h line List.mem_cons_self)
    have hrest : ∀ line ∈ lines, (decode line).isSome :=
      fun l hl => h l (List.mem_cons_of_mem _ hl)
    cases hparsed : serde.fromStr text with
    | none =>
      have hline : parse serde line = none := by simp [parse, htext, hparsed]
      simp only [readLines, htext, hparsed, List.filterMap_cons_none hline]
      exact ih records hrest
    | some record =>
      have hline : parse serde line = some record := by simp [parse, htext, hparsed]
      simp only [readLines, htext, hparsed, List.filterMap_cons_some hline]
      rw [ih (records ++ [record]) hrest, List.append_assoc, List.singleton_append]

theorem readLines_undecodable (records : List MetricRecord) {line : Bytes} (h : line ∈ lines)
    (hline : decode line = none) : readLines serde records lines = .error .invalidData := by
  induction lines generalizing records with
  | nil => simp at h
  | cons first lines ih =>
    cases hfirst : decode first with
    | none => simp only [readLines, hfirst]
    | some text =>
      have hmem : line ∈ lines := by
        rcases List.mem_cons.mp h with heq | hmem
        · rw [heq, hfirst] at hline
          cases hline
        · exact hmem
      cases hparsed : serde.fromStr text with
      | none =>
        simp only [readLines, hfirst, hparsed]
        exact ih records hmem
      | some record =>
        simp only [readLines, hfirst, hparsed]
        exact ih (records ++ [record]) hmem

end Lines

section Dates

variable {serde : SerdeJson} {h : History} {toDate : Date}

theorem readFile_text {date : Date} (records : List MetricRecord)
    (ht : ∀ bytes, h.files date = some bytes → IsText bytes) :
    readFile serde h.openFile date records =
      .ok (records ++ ((h.files date).map (recordsOf serde)).getD []) := by
  unfold readFile History.openFile
  cases hfile : h.files date with
  | none => simp
  | some bytes => exact readLines_text records (ht bytes hfile)

theorem readFile_undecodable {date : Date} (records : List MetricRecord) {bytes : Bytes}
    (hfile : h.files date = some bytes) (ht : ¬ IsText bytes) :
    readFile serde h.openFile date records = .error .invalidData := by
  have hline : ∃ line ∈ bufReadLines bytes, decode line = none := by
    rw [IsText] at ht
    push Not at ht
    simpa using ht
  obtain ⟨line, hmem, hnone⟩ := hline
  simp only [readFile, History.openFile, hfile]
  exact readLines_undecodable records hmem hnone

/-- The records of one date, and then those of the dates after it. -/
theorem recordsBetween_step (serde : SerdeJson) (files : Date → Option Bytes) {date toDate : Date}
    (hle : date ≤ toDate) :
    recordsBetween serde files date toDate =
      ((files date).map (recordsOf serde)).getD [] ++
        (date.tomorrow.map fun next => recordsBetween serde files next toDate).getD [] := by
  rw [recordsBetween]
  rw [days_step hle, List.flatMap_cons]
  cases date.tomorrow <;> rfl

theorem readFrom_step {date : Date} {records read : List MetricRecord} (hle : date ≤ toDate)
    (hfile : readFile serde h.openFile date records = .ok read) :
    readFrom serde h.openFile toDate date records =
      (date.tomorrow.map fun next => readFrom serde h.openFile toDate next read).getD
        (.ok read) := by
  rw [readFrom, if_pos hle, hfile]
  simp only
  split
  · next hlast => rw [hlast]; rfl
  · next next hnext => rw [hnext]; rfl

theorem readFrom_text (date : Date) (records : List MetricRecord)
    (ht : ∀ d, date ≤ d → d ≤ toDate → ∀ bytes, h.files d = some bytes → IsText bytes) :
    readFrom serde h.openFile toDate date records =
      .ok (records ++ recordsBetween serde h.files date toDate) := by
  induction date, records using readFrom.induct serde h.openFile toDate with
  | case1 date records hle kind hfile =>
    rw [readFile_text records (ht date le_rfl hle)] at hfile
    cases hfile
  | case2 date records hle read hfile hlast =>
    rw [readFrom_step hle hfile, recordsBetween_step serde h.files hle, hlast]
    rw [readFile_text records (ht date le_rfl hle)] at hfile
    simp [Except.ok.inj hfile]
  | case3 date records hle read hfile next hnext ih =>
    have hafter : ∀ d, next ≤ d → date ≤ d := by
      intro d hd
      have hval := Date.tomorrow_val hnext
      have hdval : next.val ≤ d.val := hd
      exact Fin.le_def.mpr (by omega)
    rw [readFrom_step hle hfile, recordsBetween_step serde h.files hle, hnext, Option.map_some,
      Option.getD_some, ih fun d hd => ht d (hafter d hd)]
    rw [readFile_text records (ht date le_rfl hle)] at hfile
    rw [← Except.ok.inj hfile, List.append_assoc]
    rfl
  | case4 date records hlt =>
    rw [readFrom, if_neg hlt, recordsBetween, days_of_lt (not_le.mp hlt)]
    simp

theorem readFrom_undecodable (serde : SerdeJson) (date : Date) (records : List MetricRecord)
    {d : Date} {bytes : Bytes} (hfrom : date ≤ d) (hto : d ≤ toDate)
    (hfile : h.files d = some bytes) (ht : ¬ IsText bytes) :
    ∃ kind, readFrom serde h.openFile toDate date records = .error kind := by
  induction date, records using readFrom.induct serde h.openFile toDate with
  | case1 date records hle kind hread =>
    rw [readFrom, if_pos hle, hread]
    exact ⟨kind, rfl⟩
  | case2 date records hle read hread hlast =>
    have hne : date ≠ d := by
      rintro rfl
      rw [readFile_undecodable records hfile ht] at hread
      cases hread
    have hday : date.val + 1 < dayCount := by
      have hlt : date.val < d.val := Fin.lt_def.mp (lt_of_le_of_ne hfrom hne)
      have hd := d.isLt
      omega
    have hnext : date.tomorrow = some ⟨date.val + 1, hday⟩ := ofDay?_eq_some.mpr rfl
    rw [hlast] at hnext
    cases hnext
  | case3 date records hle read hread next hnext ih =>
    have hne : date ≠ d := by
      rintro rfl
      rw [readFile_undecodable records hfile ht] at hread
      cases hread
    have hafter : next ≤ d := by
      have hlt : date.val < d.val := Fin.lt_def.mp (lt_of_le_of_ne hfrom hne)
      rw [Fin.le_def, Date.tomorrow_val hnext]
      exact hlt
    rw [readFrom_step hle hread, hnext]
    exact ih hafter
  | case4 date records hlt =>
    exact absurd (hfrom.trans hto) hlt

end Dates

/-- `read_range` returns exactly the records of the lines that parse just when every line of every
file in the range is UTF-8. -/
theorem read_range_exact_iff (serde : SerdeJson) (h : History) (fromDate toDate : Date) :
    readRange serde h.openFile fromDate toDate =
        .ok (recordsBetween serde h.files fromDate toDate) ↔
      ∀ date, fromDate ≤ date → date ≤ toDate →
        ∀ bytes, h.files date = some bytes → IsText bytes := by
  rw [readRange]
  constructor
  · intro hread date hfrom hto bytes hfile
    by_contra ht
    obtain ⟨kind, herror⟩ := readFrom_undecodable serde fromDate [] hfrom hto hfile ht
    rw [hread] at herror
    cases herror
  · intro ht
    rw [readFrom_text fromDate [] ht, List.nil_append]

/-- A record as the source's tests build it, and its line. -/
def sampleRecord : MetricRecord :=
  { timestamp := 1000000000
    pid := 10
    name := "p10"
    displayName := none
    cpuAvgPercent := 50
    memoryAvgBytes := 1024
    memorySharePercent := 10
    memoryFootprintBytes := none
    cpuTimeMs := 30000 }

def sampleText : String :=
  "\x7b\"timestamp\":\"1970-01-01T00:00:01Z\",\"pid\":10,\"name\":\"p10\"," ++
  "\"display_name\":null,\"cpu_avg_percent\":50.0,\"memory_avg_bytes\":1024," ++
  "\"memory_share_percent\":10.0,\"cpu_time_ms\":30000\x7d"

def sampleSerde : SerdeJson where
  toString := fun record => if record = sampleRecord then some sampleText else none
  fromStr := fun text => if text = sampleText then some sampleRecord else none

def firstDay : Date := ⟨0, by decide⟩

/-- A byte that is no UTF-8, on a line of its own before that of a record. -/
def badBytes : Bytes := 255 :: newline :: encode sampleText ++ [newline]

def badByte : History where
  files := fun date => if date = firstDay then some badBytes else none
  lastCleanup := none

/-- A line that is not UTF-8 costs every other line of the range. -/
theorem badByte_unread :
    recordsBetween sampleSerde badByte.files firstDay firstDay = [sampleRecord] ∧
    readRange sampleSerde badByte.openFile firstDay firstDay = .error .invalidData := by
  have hfile : badByte.files firstDay = some badBytes := by simp [badByte]
  have hline : ¬ IsText badBytes := by
    intro ht
    have hbad := ht [255] (by decide)
    exact absurd hbad (by decide)
  refine ⟨by decide +kernel, ?_⟩
  rw [readRange, readFrom, if_pos le_rfl, readFile_undecodable [] hfile hline]

end Zstats
