import Zstats.Alerts.Engine
import Zstats.Alerts.Precedence
import Zstats.Records.Exact

namespace Zstats

/-- `DISPLAY_WINDOW`. -/
def displayWindow : ℕ := fromSecs 60

structure Tick where
  snapshot : SystemSnapshot
  alerts : List AlertEvent
  processStats : StatsMap
  records : List MetricRecord

/-- What a `tick` meets. -/
structure TickInput (κ : Type) where
  collected : Except κ SystemSnapshot
  now : ℕ
  today : Date
  fault : Fault
  removable : Date → Bool

/-- `Monitor`, fed with what the collector returns; the types of the collector's and of the
configuration's errors are parameters. -/
structure Monitor where
  settings : FileConfig ℚ ℚ
  engine : AlertEngine
  thresholds : ActiveThresholds
  windows : ProcessWindows

namespace Monitor

variable {κ ε : Type}

/-- `Monitor::with_settings`. -/
def withSettings (settings : FileConfig ℚ ℚ) (loadTemplate : Except ε (Template ℚ ℚ)) :
    Except ε Monitor := do
  let template ← loadTemplate
  return {
    settings := settings
    engine := .new
    thresholds := ActiveThresholds.fromConfigWithTemplate settings.alerts template
    windows := .new displayWindow }

/-- `Monitor::new`. -/
def new (load : Except ε (FileConfig ℚ ℚ)) (loadTemplate : Except ε (Template ℚ ℚ)) :
    Except ε Monitor := do
  let settings ← load
  withSettings settings loadTemplate

/-- Append what is to be recorded; a failure is only logged. -/
def persist (serde : SerdeJson) (h : History) (i : TickInput κ) (records : List MetricRecord) :
    History :=
  if records.isEmpty then h else (append serde h ⟨i.today, records, i.fault, i.removable⟩).1

def tick (serde : SerdeJson) (s : Monitor × History) (i : TickInput κ) :
    (Monitor × History) × Except κ Tick :=
  match i.collected with
  | .error e => (s, .error e)
  | .ok snapshot =>
    let evaluated := s.1.engine.evaluate i.now snapshot s.1.thresholds
    let recorded :=
      match snapshot.processes with
      | some processes => s.1.windows.record i.now processes
      | none => (s.1.windows, fun _ => none)
    (({ s.1 with engine := evaluated.1, windows := recorded.1 },
        persist serde s.2 i evaluated.2.records),
      .ok ⟨snapshot, evaluated.2.events, recorded.2, evaluated.2.records⟩)

def reloadSettings (m : Monitor) (load : Except ε (FileConfig ℚ ℚ))
    (loadTemplate : Except ε (Template ℚ ℚ)) : Monitor × Except ε Unit :=
  match load with
  | .error e => (m, .error e)
  | .ok settings =>
    match loadTemplate with
    | .error e => (m, .error e)
    | .ok template =>
      ({ m with
          thresholds := ActiveThresholds.fromConfigWithTemplate settings.alerts template
          settings := settings }, .ok ())

/-- `Monitor::history`. -/
def history (serde : SerdeJson) (h : History) (fromDate toDate : Date) :
    Except ErrorKind (List MetricRecord) :=
  readRange serde h.openFile fromDate toDate

/-! Sequences of calls. -/

inductive Call (κ ε : Type) where
  | tick (i : TickInput κ)
  | reloadSettings (load : Except ε (FileConfig ℚ ℚ)) (loadTemplate : Except ε (Template ℚ ℚ))

inductive Report (κ ε : Type) where
  | ticked (result : Except κ Tick)
  | reloaded (result : Except ε Unit)

def step (serde : SerdeJson) (s : Monitor × History) : Call κ ε → (Monitor × History) × Report κ ε
  | .tick i => ((tick serde s i).1, .ticked (tick serde s i).2)
  | .reloadSettings load loadTemplate =>
    (((reloadSettings s.1 load loadTemplate).1, s.2),
      .reloaded (reloadSettings s.1 load loadTemplate).2)

/-- The monitor and the files after these calls. -/
def after (serde : SerdeJson) (s : Monitor × History) (calls : List (Call κ ε)) :
    Monitor × History :=
  calls.foldl (fun s c => (step serde s c).1) s

/-- The settings and thresholds of the latest reload that loaded both files, else those given. -/
def inForce (settings : FileConfig ℚ ℚ × ActiveThresholds) :
    List (Call κ ε) → FileConfig ℚ ℚ × ActiveThresholds
  | [] => settings
  | .reloadSettings (.ok file) (.ok template) :: calls =>
    inForce (file, ActiveThresholds.fromConfigWithTemplate file.alerts template) calls
  | _ :: calls => inForce settings calls

/-- What the engine is to be fed with: the snapshots collected, under the thresholds in force. -/
def inputs (settings : FileConfig ℚ ℚ × ActiveThresholds) :
    List (Call κ ε) → List AlertEngine.Input
  | [] => []
  | .reloadSettings (.ok file) (.ok template) :: calls =>
    inputs (file, ActiveThresholds.fromConfigWithTemplate file.alerts template) calls
  | .tick ⟨.ok snapshot, now, _, _, _⟩ :: calls =>
    ⟨now, snapshot, settings.2⟩ :: inputs settings calls
  | _ :: calls => inputs settings calls

/-- The process lists collected, with their times. -/
def listings : List (Call κ ε) → List (ℕ × List ProcessSnapshot)
  | [] => []
  | .tick ⟨.ok snapshot, now, _, _, _⟩ :: calls =>
    (snapshot.processes.map fun processes => (now, processes)).toList ++ listings calls
  | _ :: calls => listings calls

section Parts

variable (serde : SerdeJson) (s : Monitor × History) (calls : List (Call κ ε))

theorem after_cons (c : Call κ ε) :
    after serde s (c :: calls) = after serde (step serde s c).1 calls := rfl

theorem after_settings : ((after serde s calls).1.settings, (after serde s calls).1.thresholds) =
    inForce (s.1.settings, s.1.thresholds) calls := by
  induction calls generalizing s with
  | nil => rfl
  | cons c calls ih =>
    rw [after_cons, ih]
    cases c with
    | tick i =>
      obtain ⟨collected, now, today, fault, removable⟩ := i
      cases collected <;> rfl
    | reloadSettings load loadTemplate =>
      cases load with
      | error e => rfl
      | ok file => cases loadTemplate <;> rfl

theorem after_engine : (after serde s calls).1.engine =
    (inputs (s.1.settings, s.1.thresholds) calls).foldl (fun e i => (e.step i).1) s.1.engine := by
  induction calls generalizing s with
  | nil => rfl
  | cons c calls ih =>
    rw [after_cons, ih]
    cases c with
    | tick i =>
      obtain ⟨collected, now, today, fault, removable⟩ := i
      cases collected <;> rfl
    | reloadSettings load loadTemplate =>
      cases load with
      | error e => rfl
      | ok file => cases loadTemplate <;> rfl

theorem after_windows : (after serde s calls).1.windows =
    (listings calls).foldl (fun w l => (w.record l.1 l.2).1) s.1.windows := by
  induction calls generalizing s with
  | nil => rfl
  | cons c calls ih =>
    rw [after_cons, ih]
    cases c with
    | tick i =>
      obtain ⟨collected, now, today, fault, removable⟩ := i
      cases collected with
      | error e => rfl
      | ok snapshot =>
        cases hlist : snapshot.processes with
        | none => simp [listings, step, tick, hlist]
        | some processes => simp [listings, step, tick, hlist]
    | reloadSettings load loadTemplate =>
      cases load with
      | error e => rfl
      | ok file => cases loadTemplate <;> rfl

end Parts

/-- The windows after these listings. -/
def windowsAfter (listed : List (ℕ × List ProcessSnapshot)) : ProcessWindows :=
  listed.foldl (fun w l => (w.record l.1 l.2).1) (.new displayWindow)

/-- The averages that a tick shows, after these listings. -/
def shown (listed : List (ℕ × List ProcessSnapshot)) (now : ℕ) (snapshot : SystemSnapshot) :
    StatsMap :=
  match snapshot.processes with
  | some processes => ((windowsAfter listed).record now processes).2
  | none => fun _ => none

theorem new_ok {load : Except ε (FileConfig ℚ ℚ)} {loadTemplate : Except ε (Template ℚ ℚ)}
    {m : Monitor} (h : new load loadTemplate = .ok m) :
    m.engine = .new ∧ m.windows = .new displayWindow := by
  cases load with
  | error e => cases h
  | ok settings =>
    cases loadTemplate with
    | error e => cases h
    | ok template =>
      obtain rfl := Except.ok.inj h
      exact ⟨rfl, rfl⟩

/-- A tick reports what the engine and the windows report that were fed with just the snapshots
collected, each under the settings of the latest reload that loaded both files; calls that fail
leave no trace. -/
theorem tick_refines (serde : SerdeJson) {load : Except ε (FileConfig ℚ ℚ)}
    {loadTemplate : Except ε (Template ℚ ℚ)} {m : Monitor} (hnew : new load loadTemplate = .ok m)
    (h : History) (calls : List (Call κ ε)) {i : TickInput κ} {snapshot : SystemSnapshot}
    (hcollected : i.collected = .ok snapshot) {x : ℕ → AlertEngine.Input}
    (hx : ∀ k (hk : k < (inputs (m.settings, m.thresholds) calls).length),
      x k = (inputs (m.settings, m.thresholds) calls)[k])
    (hlast : x (inputs (m.settings, m.thresholds) calls).length =
      ⟨i.now, snapshot, (inForce (m.settings, m.thresholds) calls).2⟩) :
    (tick serde (after serde (m, h) calls) i).2 = .ok
      ⟨snapshot,
        (AlertEngine.result x (inputs (m.settings, m.thresholds) calls).length).events,
        shown (listings calls) i.now snapshot,
        (AlertEngine.result x (inputs (m.settings, m.thresholds) calls).length).records⟩ := by
  obtain ⟨hengine, hwindows⟩ := new_ok hnew
  have hthresholds : (after serde (m, h) calls).1.thresholds =
      (inForce (m.settings, m.thresholds) calls).2 :=
    congrArg Prod.snd (after_settings serde (m, h) calls)
  have hfed : (after serde (m, h) calls).1.engine =
      AlertEngine.before x (inputs (m.settings, m.thresholds) calls).length := by
    rw [after_engine, AlertEngine.before, Machine.stateAt_list _ _ hx, hengine]
  have hresult : AlertEngine.result x (inputs (m.settings, m.thresholds) calls).length =
      ((after serde (m, h) calls).1.engine.evaluate i.now snapshot
        (after serde (m, h) calls).1.thresholds).2 := by
    rw [hfed, hthresholds, AlertEngine.result, Machine.outAt, hlast]
    rfl
  have hlisted : (after serde (m, h) calls).1.windows = windowsAfter (listings calls) := by
    rw [after_windows, hwindows, windowsAfter]
  rw [hresult, shown, ← hlisted]
  cases hlist : snapshot.processes with
  | none => simp only [tick, hcollected, hlist]
  | some processes => simp only [tick, hcollected, hlist]

/-- A process whose record after a minute is the sample. -/
def busySnapshot : SystemSnapshot :=
  { snapshot [{ proc 10 50 1024 with cpuTimeMs := 30000 }] 10240 with timestamp := 1000000000 }

def busyTick (now : ℕ) : TickInput Unit := ⟨.ok busySnapshot, now, firstDay, .none, fun _ => true⟩

/-- What is built from a configuration that is not there, with a template that has no entries. -/
def unconfigured : Monitor :=
  { settings := FileConfig.default ℚ ℚ
    engine := .new
    thresholds :=
      ActiveThresholds.fromConfigWithTemplate (FileConfig.default ℚ ℚ).alerts ⟨none, ∅, ∅, ∅, ∅⟩
    windows := .new displayWindow }

/-- A file that asks for a notification from 30 percent on. -/
def strict : FileConfig ℚ ℚ :=
  { FileConfig.default ℚ ℚ with alerts := { (FileConfig.default ℚ ℚ).alerts with cpu := some 30 } }

/-- A tick, a reload, and then a collect and a reload that fail. -/
def reloaded : List (Call Unit Unit) :=
  [.tick (busyTick 0), .reloadSettings (.ok strict) (.ok ⟨none, ∅, ∅, ∅, ∅⟩),
    .tick { busyTick (fromSecs 30) with collected := .error () },
    .reloadSettings (.error ()) (.error ())]

def strictThresholds : ActiveThresholds :=
  ActiveThresholds.fromConfigWithTemplate strict.alerts ⟨none, ∅, ∅, ∅, ∅⟩

/-- What the engine is fed with by the two ticks that collect. -/
def reloadedInputs (n : ℕ) : AlertEngine.Input :=
  if n = 0 then ⟨0, busySnapshot, unconfigured.thresholds⟩
  else ⟨fromSecs 60, busySnapshot, strictThresholds⟩

theorem tick_refines_reloaded :
    (tick sampleSerde (after sampleSerde (unconfigured, emptyHistory) reloaded)
        (busyTick (fromSecs 60))).2 =
      .ok ⟨busySnapshot, (AlertEngine.result reloadedInputs 1).events,
        shown (listings reloaded) (fromSecs 60) busySnapshot,
        (AlertEngine.result reloadedInputs 1).records⟩ := by
  have hnew : new (.ok (FileConfig.default ℚ ℚ)) (.ok ⟨none, ∅, ∅, ∅, ∅⟩) =
      (.ok unconfigured : Except Unit Monitor) := rfl
  have hinputs : inputs (unconfigured.settings, unconfigured.thresholds) reloaded =
      [⟨0, busySnapshot, unconfigured.thresholds⟩] := rfl
  refine tick_refines sampleSerde hnew emptyHistory reloaded rfl ?_ rfl
  intro k hk
  rw [hinputs, List.length_singleton] at hk
  obtain rfl := Nat.lt_one_iff.mp hk
  rfl

section Recording

variable {serde : SerdeJson}

/-- The records of the ticks of a day. -/
def recordedOn (serde : SerdeJson) (d : Date) :
    Monitor × History → List (Call κ ε) → List MetricRecord
  | _, [] => []
  | s, .tick i :: calls =>
    (match (tick serde s i).2 with
      | .ok t => if i.today = d then t.records else []
      | .error _ => []) ++ recordedOn serde d (tick serde s i).1 calls
  | s, c :: calls => recordedOn serde d (step serde s c).1 calls

/-- What a tick records is written, and that not long after the date. -/
def Stored (serde : SerdeJson) (d : Date) (s : Monitor × History) (i : TickInput κ) : Prop :=
  ∀ t, (tick serde s i).2 = .ok t → t.records ≠ [] →
    i.today.val ≤ d.val + retentionDays ∧
    (append serde s.2 ⟨i.today, t.records, i.fault, i.removable⟩).2 = .ok i.today

/-- A tick that collected persists what it reports. -/
theorem tick_ok (serde : SerdeJson) (s : Monitor × History) {i : TickInput κ}
    {snapshot : SystemSnapshot} (hcollected : i.collected = .ok snapshot) :
    ∃ t, (tick serde s i).2 = .ok t ∧ (tick serde s i).1.2 = persist serde s.2 i t.records := by
  simp only [tick, hcollected]
  exact ⟨_, rfl, rfl⟩

theorem sound_tick (hs : serde.Lawful) {d : Date} {s : Monitor × History} {i : TickInput κ}
    (hstored : Stored serde d s i) (hd : Sound s.2 d) :
    Sound (tick serde s i).1.2 d ∧
      endedRecords serde ((tick serde s i).1.2.contents d) = endedRecords serde (s.2.contents d) ++
        match (tick serde s i).2 with
        | .ok t => if i.today = d then t.records else []
        | .error _ => [] := by
  cases hcollected : i.collected with
  | error e =>
    have htick : tick serde s i = (s, .error e) := by rw [tick, hcollected]
    rw [htick]
    exact ⟨hd, (List.append_nil _).symm⟩
  | ok snapshot =>
    obtain ⟨t, hticked, hpersisted⟩ := tick_ok serde s hcollected
    have hstored := hstored t hticked
    rw [hpersisted, hticked]
    show Sound (persist serde s.2 i t.records) d ∧
      endedRecords serde ((persist serde s.2 i t.records).contents d) =
        endedRecords serde (s.2.contents d) ++ if i.today = d then t.records else []
    by_cases hnone : t.records = []
    · simp [persist, hnone, hd]
    · obtain ⟨hrecent, hok⟩ := hstored hnone
      have hwritten : persist serde s.2 i t.records =
          (append serde s.2 ⟨i.today, t.records, i.fault, i.removable⟩).1 := by
        simp [persist, hnone]
      obtain ⟨hsound, hrecords⟩ := sound_append hs (Or.inl hok) hrecent hd
      rw [hwritten]
      refine ⟨hsound, hrecords.trans ?_⟩
      simp only [reported, hok]

/-- The monitor's calls as steps of a run. -/
def stepRun (serde : SerdeJson) (s : Monitor × History) (c : Call κ ε) :
    Option (Monitor × History) := some (step serde s c).1

theorem sound_calls (hs : serde.Lawful) {d : Date} {s : Monitor × History}
    {calls : List (Call κ ε)} (hd : Sound s.2 d)
    (hstored : Transition.EachStep (stepRun serde)
      (fun s c => ∀ i, c = .tick i → Stored serde d s i) s calls) :
    Sound (after serde s calls).2 d ∧
      endedRecords serde ((after serde s calls).2.contents d) =
        endedRecords serde (s.2.contents d) ++ recordedOn serde d s calls := by
  induction calls generalizing s with
  | nil => exact ⟨hd, (List.append_nil _).symm⟩
  | cons c calls ih =>
    have hstep : stepRun serde s c = some (step serde s c).1 := rfl
    obtain ⟨hfirst, hrest⟩ := (Transition.eachStep_cons hstep).mp hstored
    cases c with
    | tick i =>
      obtain ⟨hsound, hrecords⟩ := sound_tick hs (hfirst i rfl) hd
      obtain ⟨hfinal, hread⟩ := ih hsound hrest
      refine ⟨hfinal, ?_⟩
      have hafter : after serde s (.tick i :: calls) = after serde (tick serde s i).1 calls := rfl
      rw [hafter, hread, recordedOn, hrecords, List.append_assoc]
    | reloadSettings load loadTemplate => exact ih hd hrest

/-- The history reads back just what was there and what the ticks have reported as recorded since,
day by day and in order, if the files were sound and what ticks record is written. -/
theorem history_exact (hs : serde.Lawful) {s : Monitor × History} {calls : List (Call κ ε)}
    {fromDate toDate : Date} (hsound : ∀ d, fromDate ≤ d → d ≤ toDate → Sound s.2 d)
    (hstored : ∀ d, fromDate ≤ d → d ≤ toDate → Transition.EachStep (stepRun serde)
      (fun s c => ∀ i, c = .tick i → Stored serde d s i) s calls) :
    history serde (after serde s calls).2 fromDate toDate =
      .ok ((days fromDate toDate).flatMap fun d =>
        endedRecords serde (s.2.contents d) ++ recordedOn serde d s calls) := by
  have hfinal (d : Date) (hfrom : fromDate ≤ d) (hto : d ≤ toDate) :=
    sound_calls hs (hsound d hfrom hto) (hstored d hfrom hto)
  rw [history, readRange_sound fun d hfrom hto => (hfinal d hfrom hto).1]
  congr 1
  apply List.flatMap_congr
  intro d hd
  obtain ⟨hfrom, hto⟩ := mem_days.mp hd
  exact (hfinal d hfrom hto).2

/-- Nothing has been collected yet. -/
def watching : Monitor :=
  { settings := FileConfig.default ℚ ℚ
    engine := .new
    thresholds := { ActiveThresholds.off (fromSecs 600) with cpu := ⟨some 30, []⟩ }
    windows := .new displayWindow }

def busyMinute : List (Call Unit Unit) := [.tick (busyTick 0), .tick (busyTick (fromSecs 60))]

theorem busyMinute_recorded :
    recordedOn sampleSerde firstDay (watching, emptyHistory) busyMinute = [sampleRecord] := by
  decide +kernel

theorem stored_of_records {s : Monitor × History} {i : TickInput Unit} {d : Date}
    (h : ∀ t ∈ (tick sampleSerde s i).2.toOption, t.records ≠ [] →
      i.today.val ≤ d.val + retentionDays ∧
      (append sampleSerde s.2 ⟨i.today, t.records, i.fault, i.removable⟩).2 = .ok i.today) :
    Stored sampleSerde d s i := by
  intro t ht
  exact h t (by rw [ht]; rfl)

theorem history_exact_minute :
    history sampleSerde (after sampleSerde (watching, emptyHistory) busyMinute).2 firstDay
      firstDay = .ok [sampleRecord] := by
  have hsound : ∀ d, firstDay ≤ d → d ≤ firstDay → Sound emptyHistory d :=
    fun d _ _ => ⟨rfl, isText_nil⟩
  have hstored : ∀ d, firstDay ≤ d → d ≤ firstDay → Transition.EachStep (stepRun sampleSerde)
      (fun s c => ∀ i, c = .tick i → Stored sampleSerde d s i) (watching, emptyHistory)
      busyMinute := by
    intro d hfrom hto
    rw [eq_firstDay hfrom hto, busyMinute, Transition.eachStep_cons rfl,
      Transition.eachStep_cons rfl]
    refine ⟨?_, ?_, Transition.eachStep_nil _ _⟩
    · intro i hi
      cases hi
      exact stored_of_records (by decide)
    · intro i hi
      cases hi
      exact stored_of_records (by decide +kernel)
  have hread := history_exact (s := (watching, emptyHistory)) sampleSerde_lawful hsound hstored
  have hdays : days firstDay firstDay = [firstDay] := by decide
  rw [hread, hdays, List.flatMap_singleton, busyMinute_recorded]
  rfl

end Recording

end Monitor

end Zstats
