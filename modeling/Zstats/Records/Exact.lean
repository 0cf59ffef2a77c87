import Zstats.Records.Appending

namespace Zstats

open Lines (ended rest joined)

section Files

variable {serde : SerdeJson}

/-- The file of a date, if there is one, is text whose lines have all been ended. -/
structure Sound (h : History) (d : Date) : Prop where
  ended : rest newline (h.contents d) = []
  text : IsText (h.contents d)

theorem isText_nil : IsText [] := by
  intro line hline
  cases hline

theorem bufReadLines_ended {bytes : Bytes} (h : rest newline bytes = []) :
    bufReadLines bytes = (ended newline bytes).map stripReturn := by
  rw [bufReadLines, if_pos h, List.append_nil]

theorem recordsOf_ended {bytes : Bytes} (h : rest newline bytes = []) :
    recordsOf serde bytes = endedRecords serde bytes := by
  rw [recordsOf, bufReadLines_ended h, List.filterMap_map]
  rfl

/-- A file that was sound reads the records of its ended lines, whether it is there or not. -/
theorem Sound.read {h : History} {d : Date} (hd : Sound h d) :
    ((h.files d).map (recordsOf serde)).getD [] = endedRecords serde (h.contents d) := by
  have hended := hd.ended
  rw [History.contents] at hended ⊢
  cases hfile : h.files d with
  | none => rfl
  | some bytes =>
    rw [hfile, Option.getD_some] at hended
    exact recordsOf_ended hended

theorem Sound.isText {h : History} {d : Date} (hd : Sound h d) {bytes : Bytes}
    (hfile : h.files d = some bytes) : IsText bytes := by
  have htext := hd.text
  rw [History.contents, hfile, Option.getD_some] at htext
  exact htext

/-- What the loop writes is text. -/
theorem writeRecords_text (hs : serde.Lawful) {records : List MetricRecord}
    (h : (writeRecords serde records).2 = .ok ()) :
    ∃ lines, (writeRecords serde records).1 = joined newline lines ∧
      (∀ line ∈ lines, newline ∉ line) ∧ ∀ line ∈ lines, (decode (stripReturn line)).isSome := by
  induction records with
  | nil => exact ⟨[], rfl, by simp, by simp⟩
  | cons record records ih =>
    cases htext : serde.toString record with
    | none => simp [writeRecords, htext] at h
    | some text =>
      simp only [writeRecords, htext] at h ⊢
      obtain ⟨lines, hjoined, hone, hdecode⟩ := ih h
      refine ⟨encode text :: lines, ?_, ?_, ?_⟩
      · rw [hjoined]
        simp [joined]
      · intro line hline
        rcases List.mem_cons.mp hline with heq | hmem
        · rw [heq]
          exact hs.oneLine record text htext
        · exact hone line hmem
      · intro line hline
        rcases List.mem_cons.mp hline with heq | hmem
        · rw [heq, stripReturn, if_neg (hs.noReturn record text htext), decode_encode]
          rfl
        · exact hdecode line hmem

end Files

section Calls

variable {serde : SerdeJson} {h : History} {c : AppendCall} {d : Date}

/-- The call writes all its lines, or nothing. -/
def AllOrNothing (serde : SerdeJson) (h : History) (c : AppendCall) : Prop :=
  (append serde h c).2 = .ok c.date ∨ (append serde h c).1 = h ∧ ∃ e, (append serde h c).2 = .error e

/-- The date is not so long ago that a sweep on the day of the call removes its file. -/
def Recent (d : Date) (c : AppendCall) : Prop := c.date.val ≤ d.val + retentionDays

theorem cleanup_recent (files : Date → Option Bytes) (removable : Date → Bool) {today : Date}
    (hd : today.val ≤ d.val + retentionDays) :
    cleanup files removable today retentionDays d = files d := by
  rw [cleanup]
  cases hcutoff : today.checkedSub retentionDays with
  | none => rfl
  | some cutoff =>
    have hle : cutoff.val ≤ d.val := by
      rw [Date.checkedSub] at hcutoff
      by_cases hdays : retentionDays ≤ today.val
      · rw [if_pos hdays, ofDay?_eq_some] at hcutoff
        omega
      · rw [if_neg hdays] at hcutoff
        cases hcutoff
    have hkept : ¬ d < cutoff := not_lt.mpr (Fin.le_def.mpr hle)
    simp [hkept]

theorem maybeCleanup_recent (h : History) (removable : Date → Bool) {today : Date}
    (hd : today.val ≤ d.val + retentionDays) :
    (maybeCleanup h removable today).files d = h.files d := by
  rw [maybeCleanup]
  by_cases hlast : h.lastCleanup = some today
  · rw [if_pos hlast]
  · rw [if_neg hlast]
    exact cleanup_recent h.files removable hd

/-- What a call that returned `Ok` leaves of a recent date. -/
theorem contents_append (hrecent : Recent d c) (hok : (append serde h c).2 = .ok c.date) :
    (writeRecords serde c.records).2 = .ok () ∧ (append serde h c).1.contents d =
      h.contents d ++ if c.date = d then (writeRecords serde c.records).1 else [] := by
  rcases append_cases serde h c with heq | ⟨bytes, kind, heq⟩ | ⟨hwritten, heq⟩
  · rw [heq] at hok
    cases hok
  · rw [heq] at hok
    cases hok
  · refine ⟨hwritten, ?_⟩
    rw [heq, History.contents, maybeCleanup_recent _ _ hrecent]
    by_cases hd : c.date = d
    · rw [if_pos hd, hd]
      exact contents_write h d _
    · rw [if_neg hd, List.append_nil, files_write_of_ne h _ (Ne.symm hd)]
      rfl

/-- One call keeps a recent file sound and adds to it just what it reports. -/
theorem sound_append (hs : serde.Lawful) (hcall : AllOrNothing serde h c) (hrecent : Recent d c)
    (hd : Sound h d) :
    Sound (append serde h c).1 d ∧ endedRecords serde ((append serde h c).1.contents d) =
      endedRecords serde (h.contents d) ++ reported serde d h c := by
  rcases hcall with hok | ⟨hsame, e, herror⟩
  · obtain ⟨hwritten, hcontents⟩ := contents_append hrecent hok
    have hreported : reported serde d h c = if c.date = d then c.records else [] := by
      simp only [reported, hok]
    by_cases hdate : c.date = d
    · rw [if_pos hdate] at hcontents
      obtain ⟨lines, hjoined, hone, hdecode⟩ := writeRecords_text hs hwritten
      obtain ⟨hended, hrest⟩ := Lines.ended_append_joined hd.ended hone
      rw [← hjoined, ← hcontents] at hended hrest
      refine ⟨⟨hrest, ?_⟩, ?_⟩
      · intro line hline
        rw [bufReadLines_ended hrest, hended, List.map_append] at hline
        rcases List.mem_append.mp hline with hold | hnew
        · have htext := hd.text line
          rw [bufReadLines_ended hd.ended] at htext
          exact htext hold
        · obtain ⟨written, hmem, rfl⟩ := List.mem_map.mp hnew
          exact hdecode written hmem
      · rw [hcontents, endedRecords_write hs hwritten hd.ended, hreported, if_pos hdate]
    · rw [if_neg hdate, List.append_nil] at hcontents
      rw [hreported, if_neg hdate, List.append_nil, hcontents]
      refine ⟨⟨?_, ?_⟩, rfl⟩
      · rw [hcontents]
        exact hd.ended
      · rw [hcontents]
        exact hd.text
  · have hnothing : reported serde d h c = [] := by simp only [reported, herror]
    rw [hsame, hnothing, List.append_nil]
    exact ⟨hd, rfl⟩

end Calls

/-- A range of sound files reads the records of their lines, day by day. -/
theorem readRange_sound {serde : SerdeJson} {h : History} {fromDate toDate : Date}
    (hsound : ∀ d, fromDate ≤ d → d ≤ toDate → Sound h d) :
    readRange serde h.openFile fromDate toDate =
      .ok ((days fromDate toDate).flatMap fun d => endedRecords serde (h.contents d)) := by
  have htext : ∀ d, fromDate ≤ d → d ≤ toDate → ∀ bytes, h.files d = some bytes → IsText bytes :=
    fun d hfrom hto bytes hfile => (hsound d hfrom hto).isText hfile
  rw [readRange, readFrom_text fromDate [] htext, List.nil_append, recordsBetween]
  congr 1
  apply List.flatMap_congr
  intro d hd
  obtain ⟨hfrom, hto⟩ := mem_days.mp hd
  exact (hsound d hfrom hto).read

end Zstats
