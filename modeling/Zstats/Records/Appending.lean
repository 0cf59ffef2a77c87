import Mathlib.Data.List.Flatten
import Zstats.Framework.Transition
import Zstats.Records.Reading

namespace Zstats

open Lines (ended rest joined)

/-- The bytes of a day's file, none where there is no file. -/
def History.contents (h : History) (date : Date) : Bytes := (h.files date).getD []

/-- The record of a line that a newline has ended. -/
def readLine (serde : SerdeJson) (line : Bytes) : Option MetricRecord :=
  parse serde (stripReturn line)

/-- The records of all lines that a newline has ended. -/
def endedRecords (serde : SerdeJson) (bytes : Bytes) : List MetricRecord :=
  (ended newline bytes).filterMap (readLine serde)

theorem endedRecords_read (serde : SerdeJson) (bytes : Bytes) :
    endedRecords serde bytes <+: recordsOf serde bytes := by
  unfold endedRecords recordsOf bufReadLines
  rw [List.filterMap_append, List.filterMap_map]
  exact List.prefix_append _ _

theorem endedRecords_append (serde : SerdeJson) (bytes more : Bytes) :
    endedRecords serde bytes <+: endedRecords serde (bytes ++ more) :=
  (Lines.ended_kept bytes more).filterMap _

section Lawful

variable {serde : SerdeJson}

theorem readLine_encode (hs : serde.Lawful) {record : MetricRecord} {text : String}
    (h : serde.toString record = some text) : readLine serde (encode text) = some record := by
  rw [readLine, stripReturn, if_neg (hs.noReturn record text h), parse, decode_encode]
  exact hs.inverts record text h

/-- A loop that goes through has written one line for each record. -/
theorem writeRecords_ok (hs : serde.Lawful) {records : List MetricRecord}
    (h : (writeRecords serde records).2 = .ok ()) :
    ∃ lines, (writeRecords serde records).1 = joined newline lines ∧
      (∀ line ∈ lines, newline ∉ line) ∧
      lines.filterMap (readLine serde) = records := by
  induction records with
  | nil => exact ⟨[], rfl, by simp, rfl⟩
  | cons record records ih =>
    cases htext : serde.toString record with
    | none => simp [writeRecords, htext] at h
    | some text =>
      simp only [writeRecords, htext] at h ⊢
      obtain ⟨lines, hjoined, hone, hread⟩ := ih h
      refine ⟨encode text :: lines, ?_, ?_, ?_⟩
      · rw [hjoined]
        simp [joined]
      · intro line hline
        rcases List.mem_cons.mp hline with heq | hmem
        · rw [heq]
          exact hs.oneLine record text htext
        · exact hone line hmem
      · rw [List.filterMap_cons_some (readLine_encode hs htext), hread]

/-- Where a line starts, whole lines add their records. -/
theorem endedRecords_write (hs : serde.Lawful) {records : List MetricRecord} {bytes : Bytes}
    (h : (writeRecords serde records).2 = .ok ()) (hb : rest newline bytes = []) :
    endedRecords serde (bytes ++ (writeRecords serde records).1) =
      endedRecords serde bytes ++ records := by
  obtain ⟨lines, hjoined, hone, hread⟩ := writeRecords_ok hs h
  unfold endedRecords
  rw [hjoined, (Lines.ended_append_joined hb hone).1, List.filterMap_append, hread]

/-- Elsewhere the first record shares its line with what was there. -/
theorem endedRecords_glued (hs : serde.Lawful) {record : MetricRecord}
    {records : List MetricRecord} {text : String} {bytes : Bytes}
    (htext : serde.toString record = some text)
    (h : (writeRecords serde (record :: records)).2 = .ok ()) :
    endedRecords serde (bytes ++ (writeRecords serde (record :: records)).1) =
      endedRecords serde bytes ++
        (readLine serde (rest newline bytes ++ encode text)).toList ++ records := by
  simp only [writeRecords, htext] at h ⊢
  obtain ⟨lines, hjoined, hone, hread⟩ := writeRecords_ok hs h
  have hline : newline ∉ rest newline bytes ++ encode text := by
    rw [List.mem_append, not_or]
    exact ⟨Lines.newline_not_mem_rest bytes, hs.oneLine record text htext⟩
  have hsplit := Lines.split_joined hone []
  rw [List.append_nil] at hsplit
  unfold endedRecords
  rw [(Lines.split_append bytes _).1, ← List.append_assoc, (Lines.ended_of_not_mem hline _).1,
    hjoined, hsplit.1, List.filterMap_append, List.append_assoc]
  cases hglued : readLine serde (rest newline bytes ++ encode text) with
  | none =>
    rw [List.filterMap_cons_none hglued]
    simp [hread]
  | some first =>
    rw [List.filterMap_cons_some hglued]
    simp [hread]

end Lawful

/-! One call. -/

section Call

variable {serde : SerdeJson} {h : History} {c : AppendCall}

theorem interrupt_ok {fault : Fault} {written : Bytes × Except ErrorKind Unit}
    (hok : (fault.interrupt written).2 = .ok ()) : fault.interrupt written = written := by
  cases fault with
  | none => rfl
  | opening => rfl
  | writing after =>
    by_cases hlen : after ≤ written.1.length
    · simp [Fault.interrupt, hlen] at hok
    · simp [Fault.interrupt, hlen]

/-- A call does nothing, or fails having written something, or writes all and may sweep. -/
theorem append_cases (serde : SerdeJson) (h : History) (c : AppendCall) :
    append serde h c = (h, .error .other) ∨
    (∃ bytes kind, append serde h c = (h.write c.date bytes, .error kind)) ∨
    ((writeRecords serde c.records).2 = .ok () ∧
      append serde h c =
        (maybeCleanup (h.write c.date (writeRecords serde c.records).1) c.removable c.date,
          .ok c.date)) := by
  rw [append]
  by_cases hopen : c.fault = .opening
  · left
    rw [if_pos hopen]
  · rw [if_neg hopen]
    right
    cases hresult : (c.fault.interrupt (writeRecords serde c.records)).2 with
    | error kind =>
      left
      exact ⟨(c.fault.interrupt (writeRecords serde c.records)).1, kind, by simp [hresult]⟩
    | ok =>
      right
      have hwhole := interrupt_ok hresult
      rw [hwhole] at hresult ⊢
      exact ⟨hresult, by simp [hresult]⟩

theorem contents_write (h : History) (date : Date) (bytes : Bytes) :
    (h.write date bytes).contents date = h.contents date ++ bytes := by
  simp [History.write, History.contents]

theorem files_write_of_ne (h : History) {date d : Date} (bytes : Bytes) (hd : d ≠ date) :
    (h.write date bytes).files d = h.files d := by
  simp [History.write, hd]

/-- A sweep keeps a file as it is or removes it, and never that of its own date. -/
theorem maybeCleanup_files (h : History) (removable : Date → Bool) (today d : Date) :
    (maybeCleanup h removable today).files d = h.files d ∨
      (d ≠ today ∧ (maybeCleanup h removable today).files d = none) := by
  rw [maybeCleanup]
  by_cases hlast : h.lastCleanup = some today
  · left
    rw [if_pos hlast]
  · rw [if_neg hlast]
    cases hcutoff : today.checkedSub retentionDays with
    | none =>
      left
      simp [cleanup, hcutoff]
    | some cutoff =>
      by_cases hswept : (d < cutoff && removable d) = true
      · right
        have hle : cutoff.val ≤ today.val := by
          rw [Date.checkedSub] at hcutoff
          by_cases hdays : retentionDays ≤ today.val
          · rw [if_pos hdays, ofDay?_eq_some] at hcutoff
            omega
          · rw [if_neg hdays] at hcutoff
            cases hcutoff
        have hlt : d.val < cutoff.val := by
          simp only [Bool.and_eq_true, decide_eq_true_eq] at hswept
          exact hswept.1
        refine ⟨?_, by simp [cleanup, hcutoff, hswept]⟩
        rintro rfl
        omega
      · left
        simp [cleanup, hcutoff, hswept]

/-- A call that returns `Ok` has written all its lines, and they are still there. -/
theorem contents_append_ok (hok : (append serde h c).2 = .ok c.date) :
    (writeRecords serde c.records).2 = .ok () ∧
      (append serde h c).1.contents c.date =
        h.contents c.date ++ (writeRecords serde c.records).1 := by
  rcases append_cases serde h c with heq | ⟨bytes, kind, heq⟩ | ⟨hwritten, heq⟩
  · rw [heq] at hok
    cases hok
  · rw [heq] at hok
    cases hok
  · refine ⟨hwritten, ?_⟩
    rcases maybeCleanup_files (h.write c.date (writeRecords serde c.records).1) c.removable c.date
      c.date with hsame | ⟨hne, -⟩
    · rw [heq, History.contents, hsame]
      exact contents_write h c.date _
    · exact absurd rfl hne

theorem endedRecords_kept (serde : SerdeJson) (h : History) (date d : Date) (bytes : Bytes) :
    endedRecords serde (h.contents d) <+: endedRecords serde ((h.write date bytes).contents d) := by
  by_cases hd : d = date
  · subst hd
    rw [contents_write]
    exact endedRecords_append serde _ bytes
  · have hsame : (h.write date bytes).contents d = h.contents d := by
      rw [History.contents, files_write_of_ne h bytes hd]
      rfl
    rw [hsame]

/-- The call finds the file at the start of a line. -/
def StartsLine (h : History) (c : AppendCall) : Prop := rest newline (h.contents c.date) = []

/-- A call that reports records as written to the file of `d` starts a line there. -/
def Whole (serde : SerdeJson) (d : Date) (h : History) (c : AppendCall) : Prop :=
  (append serde h c).2 = .ok d → c.records ≠ [] → StartsLine h c

/-- The call's sweep does not remove the file of `d`. -/
def Keeps (serde : SerdeJson) (d : Date) (h : History) (c : AppendCall) : Prop :=
  (h.files d).isSome → ((append serde h c).1.files d).isSome

/-- The records of a call that returned `Ok` for the date `d`. -/
def reported (serde : SerdeJson) (d : Date) (h : History) (c : AppendCall) : List MetricRecord :=
  match (append serde h c).2 with
  | .ok date => if date = d then c.records else []
  | .error _ => []

/-- A call that starts a line, or that reports nothing, adds what it reports. -/
theorem endedRecords_step (hs : serde.Lawful) {d : Date} (hkeep : Keeps serde d h c)
    (hstart : Whole serde d h c) :
    (endedRecords serde (h.contents d) ++ reported serde d h c).Sublist
      (endedRecords serde ((append serde h c).1.contents d)) := by
  rcases append_cases serde h c with heq | ⟨bytes, kind, heq⟩ | ⟨hok, heq⟩
  · simp [reported, heq]
  · simp only [reported, heq, List.append_nil]
    exact (endedRecords_kept serde h c.date d bytes).sublist
  · have hdone : (append serde h c).2 = .ok c.date := by rw [heq]
    have hreported : reported serde d h c = if c.date = d then c.records else [] := by
      simp only [reported, hdone]
    rw [hreported]
    by_cases hd : c.date = d
    · subst hd
      obtain ⟨-, hcontents⟩ := contents_append_ok hdone
      rw [if_pos rfl, hcontents]
      by_cases hnone : c.records = []
      · simp [hnone, writeRecords]
      · rw [endedRecords_write hs hok (hstart hdone hnone)]
    rw [if_neg hd, List.append_nil]
    rcases maybeCleanup_files (h.write c.date (writeRecords serde c.records).1) c.removable c.date d
      with hsame | ⟨-, hgone⟩
    · have hcontents : (append serde h c).1.contents d =
          (h.write c.date (writeRecords serde c.records).1).contents d := by
        rw [heq, History.contents, hsame]
        rfl
      rw [hcontents]
      exact (endedRecords_kept serde h c.date d _).sublist
    · -- the file is not there any more, so it was not there before
      have habsent : h.files d = none := by
        rw [← Option.not_isSome_iff_eq_none]
        intro hsome
        have hkept := hkeep hsome
        rw [heq, hgone] at hkept
        cases hkept
      rw [History.contents, habsent]
      exact List.nil_sublist _

end Call

/-! A sequence of calls. -/

section Runs

variable (serde : SerdeJson)

def appendStep (h : History) (c : AppendCall) : Option History := some (append serde h c).1

/-- The records of all calls that returned `Ok` for the date `d`, in order. -/
def reportedBy (d : Date) : History → List AppendCall → List MetricRecord
  | _, [] => []
  | h, c :: calls => reported serde d h c ++ reportedBy d (append serde h c).1 calls

variable {serde}

theorem reportedBy_ended (hs : serde.Lawful) {d : Date} {h t : History} {calls : List AppendCall}
    (hrun : Transition.exec (appendStep serde) h calls = some t)
    (hwhole : Transition.EachStep (appendStep serde) (Whole serde d) h calls)
    (hkeep : Transition.EachStep (appendStep serde) (Keeps serde d) h calls) :
    (endedRecords serde (h.contents d) ++ reportedBy serde d h calls).Sublist
      (endedRecords serde (t.contents d)) := by
  induction calls generalizing h with
  | nil =>
    cases hrun
    simp [reportedBy]
  | cons c calls ih =>
    have hstep : appendStep serde h c = some (append serde h c).1 := rfl
    obtain ⟨hwholeFirst, hwholeRest⟩ := (Transition.eachStep_cons hstep).mp hwhole
    obtain ⟨hkeepFirst, hkeepRest⟩ := (Transition.eachStep_cons hstep).mp hkeep
    have hfirst := endedRecords_step hs hkeepFirst hwholeFirst
    have hrest := ih hrun hwholeRest hkeepRest
    rw [reportedBy, ← List.append_assoc]
    exact (hfirst.append_right _).trans hrest

/-- What is reported as written between two dates is read back, in order, if no file in between
was swept, each such call started a line, and what is there to be read is text. -/
theorem reported_read (hs : serde.Lawful) {h t : History} {calls : List AppendCall}
    {fromDate toDate : Date} (hrun : Transition.exec (appendStep serde) h calls = some t)
    (hkeep : ∀ d, fromDate ≤ d → d ≤ toDate →
      Transition.EachStep (appendStep serde) (Keeps serde d) h calls)
    (hwhole : ∀ d, fromDate ≤ d → d ≤ toDate →
      Transition.EachStep (appendStep serde) (Whole serde d) h calls)
    (htext : ∀ d, fromDate ≤ d → d ≤ toDate → ∀ bytes, t.files d = some bytes → IsText bytes) :
    ∃ records, readRange serde t.openFile fromDate toDate = .ok records ∧
      ((days fromDate toDate).flatMap fun d => reportedBy serde d h calls).Sublist records := by
  refine ⟨_, readFrom_text fromDate [] htext, ?_⟩
  rw [List.nil_append]
  have hday : ∀ d ∈ days fromDate toDate, (reportedBy serde d h calls).Sublist
      (((t.files d).map (recordsOf serde)).getD []) := by
    intro d hd
    obtain ⟨hfrom, hto⟩ := mem_days.mp hd
    have hended := reportedBy_ended hs hrun (hwhole d hfrom hto) (hkeep d hfrom hto)
    have hread : (endedRecords serde (t.contents d)).Sublist
        (((t.files d).map (recordsOf serde)).getD []) := by
      rw [History.contents]
      cases t.files d with
      | none => exact List.Sublist.refl _
      | some bytes => exact (endedRecords_read serde bytes).sublist
    exact ((List.sublist_append_right _ _).trans hended).trans hread
  exact List.Sublist.flatMap_right _ hday

end Runs

/-- History loses nothing reported as long as calls that report start a line. One that does not
loses its first record, unless that parses together with what it continues. -/
theorem history_keeps_reported (serde : SerdeJson) (hs : serde.Lawful) :
    (∀ h t calls fromDate toDate, Transition.exec (appendStep serde) h calls = some t →
      (∀ d, fromDate ≤ d → d ≤ toDate →
        Transition.EachStep (appendStep serde) (Keeps serde d) h calls) →
      (∀ d, fromDate ≤ d → d ≤ toDate →
        Transition.EachStep (appendStep serde) (Whole serde d) h calls) →
      (∀ d, fromDate ≤ d → d ≤ toDate → ∀ bytes, t.files d = some bytes → IsText bytes) →
      ∃ records, readRange serde t.openFile fromDate toDate = .ok records ∧
        ((days fromDate toDate).flatMap fun d => reportedBy serde d h calls).Sublist records) ∧
    ∀ h c record records text, c.records = record :: records →
      serde.toString record = some text → (append serde h c).2 = .ok c.date →
      readLine serde (rest newline (h.contents c.date) ++ encode text) = none →
      endedRecords serde ((append serde h c).1.contents c.date) =
        endedRecords serde (h.contents c.date) ++ records := by
  constructor
  · intro h t calls fromDate toDate hrun hkeep hwhole htext
    exact reported_read hs hrun hkeep hwhole htext
  · intro h c record records text hrecords htext hok hglued
    obtain ⟨hwritten, hcontents⟩ := contents_append_ok hok
    rw [hrecords] at hwritten hcontents
    rw [hcontents, endedRecords_glued hs htext hwritten, hglued]
    simp

theorem sampleSerde_toString {record : MetricRecord} {text : String}
    (h : sampleSerde.toString record = some text) : record = sampleRecord ∧ text = sampleText := by
  simp only [sampleSerde] at h
  split at h
  · next hr => exact ⟨hr, (Option.some.inj h).symm⟩
  · cases h

theorem sampleSerde_lawful : sampleSerde.Lawful where
  inverts := by
    intro record text h
    obtain ⟨rfl, rfl⟩ := sampleSerde_toString h
    simp only [sampleSerde, if_true]
  oneLine := by
    intro record text h
    rw [(sampleSerde_toString h).2]
    decide
  noReturn := by
    intro record text h
    rw [(sampleSerde_toString h).2]
    decide

def emptyHistory : History := ⟨fun _ => none, none⟩

/-- An append of the sample on the first day. -/
def appendSample (fault : Fault) : AppendCall := ⟨firstDay, [sampleRecord], fault, fun _ => true⟩

/-- The history after calls on the first day that meet these faults. -/
def historyAfter (faults : List Fault) : History :=
  faults.foldl (fun h fault => (append sampleSerde h (appendSample fault)).1) emptyHistory

/-- The first day is the only one between itself and itself. -/
theorem eq_firstDay {d : Date} (hfrom : firstDay ≤ d) (hto : d ≤ firstDay) : d = firstDay :=
  le_antisymm hto hfrom

theorem historyAfter_text {faults : List Fault}
    (h : ∀ bytes ∈ (historyAfter faults).files firstDay, IsText bytes) :
    ∀ d, firstDay ≤ d → d ≤ firstDay → ∀ bytes, (historyAfter faults).files d = some bytes →
      IsText bytes := by
  intro d hfrom hto bytes hbytes
  rw [eq_firstDay hfrom hto] at hbytes
  exact h bytes hbytes

/-- A write that fails after a byte: at the end of the file it does no harm, before a call that
goes through it takes that call's record. -/
theorem history_keeps_reported_sample :
    (∃ records, readRange sampleSerde (historyAfter [.none, .writing 1]).openFile firstDay
        firstDay = .ok records ∧
      ((days firstDay firstDay).flatMap fun d => reportedBy sampleSerde d emptyHistory
        [appendSample .none, appendSample (.writing 1)]).Sublist records) ∧
      endedRecords sampleSerde ((historyAfter [.writing 1, .none]).contents firstDay) = [] := by
  obtain ⟨hread, hlost⟩ := history_keeps_reported sampleSerde sampleSerde_lawful
  constructor
  · apply hread emptyHistory _ _ firstDay firstDay rfl
    · intro d hfrom hto
      rw [eq_firstDay hfrom hto, Transition.eachStep_cons rfl, Transition.eachStep_cons rfl]
      refine ⟨?_, ?_, Transition.eachStep_nil _ _⟩
      · intro hsome
        cases hsome
      · intro _
        decide +kernel
    · intro d hfrom hto
      rw [eq_firstDay hfrom hto, Transition.eachStep_cons rfl, Transition.eachStep_cons rfl]
      refine ⟨?_, ?_, Transition.eachStep_nil _ _⟩
      · intro _ _
        rfl
      · intro hok
        exact absurd hok (by decide +kernel)
    · exact historyAfter_text (by decide +kernel)
  · have hnothing : endedRecords sampleSerde ((historyAfter [.writing 1]).contents firstDay) =
        [] := by decide +kernel
    have htorn := hlost (historyAfter [.writing 1]) (appendSample .none) sampleRecord []
      sampleText rfl (by decide +kernel) (by decide +kernel) (by decide +kernel)
    rw [List.append_nil] at htorn
    exact htorn.trans hnothing

/-- The second call returned `Ok`, and its record cannot be read. -/
theorem torn_lost :
    reportedBy sampleSerde firstDay emptyHistory [appendSample (.writing 1), appendSample .none] =
      [sampleRecord] ∧
    readRange sampleSerde (historyAfter [.writing 1, .none]).openFile firstDay firstDay = .ok [] := by
  refine ⟨by decide +kernel, ?_⟩
  rw [readRange, readFrom_text firstDay [] (historyAfter_text (by decide +kernel))]
  decide +kernel

end Zstats
