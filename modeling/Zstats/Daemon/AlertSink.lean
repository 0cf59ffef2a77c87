import Zstats.Alerts.Engine
import Zstats.Alerts.Precedence
import Zstats.Framework.Polling
import Zstats.Records.Reading

namespace Zstats

/-- `RELOAD_CHECK_EVERY`. -/
def reloadCheckEvery : ℕ := 30

/-- The modification times of the two files, where they can be had. -/
abbrev Mtimes := Option ℕ × Option ℕ

/-- `config.toml` and `template.toml` as one look finds them. -/
structure SourceFiles where
  mtimes : Mtimes
  load : Except String (FileConfig ℚ ℚ)
  loadTemplate : Except String (Template ℚ ℚ)

/-- The thresholds of both files, if both load. -/
def SourceFiles.thresholds (files : SourceFiles) : Option ActiveThresholds :=
  match files.load, files.loadTemplate with
  | .ok file, .ok template =>
    some (ActiveThresholds.fromConfigWithTemplate file.alerts template)
  | _, _ => none

structure ReloadState where
  roundsSinceCheck : ℕ
  lastMtime : Mtimes

structure AlertSink where
  active : ActiveThresholds
  engine : AlertEngine
  reload : ReloadState

/-- What a write meets. `cut` says that the scheduler drops it while notifications are under way. -/
structure SinkWrite where
  files : SourceFiles
  now : ℕ
  snapshot : SystemSnapshot
  today : Date
  fault : Fault
  removable : Date → Bool
  cut : Bool

namespace AlertSink

/-- `AlertSink::from_config`. -/
def fromConfig (file : AlertsConfig ℚ ℚ) (template : Template ℚ ℚ) (sourceMtimes : Mtimes) :
    AlertSink :=
  ⟨ActiveThresholds.fromConfigWithTemplate file template, .new, ⟨0, sourceMtimes⟩⟩

/-- The thresholds and the bookkeeping of `maybe_reload`. -/
def maybeReload (sink : AlertSink) (files : SourceFiles) : AlertSink :=
  if sink.reload.roundsSinceCheck + 1 < reloadCheckEvery then
    { sink with reload := ⟨sink.reload.roundsSinceCheck + 1, sink.reload.lastMtime⟩ }
  else if files.mtimes = sink.reload.lastMtime then
    { sink with reload := ⟨0, sink.reload.lastMtime⟩ }
  else
    match files.load, files.loadTemplate with
    | .ok file, .ok template =>
      { sink with
        active := ActiveThresholds.fromConfigWithTemplate file.alerts template
        reload := ⟨0, files.mtimes⟩ }
    | _, _ => { sink with reload := ⟨0, files.mtimes⟩ }

/-- `persist_records`; a failure is only logged. -/
def persistRecords (serde : SerdeJson) (h : History) (w : SinkWrite)
    (records : List MetricRecord) : History :=
  (append serde h ⟨w.today, records, w.fault, w.removable⟩).1

/-- `write`, and the events that it notifies: it waits for these before it records. -/
def write (serde : SerdeJson) (s : AlertSink × History) (w : SinkWrite) :
    (AlertSink × History) × List AlertEvent :=
  let sink := s.1.maybeReload w.files
  let (engine, evaluation) := sink.engine.evaluate w.now w.snapshot sink.active
  let sink := { sink with engine := engine }
  if (w.cut && !evaluation.events.isEmpty) || evaluation.records.isEmpty then
    ((sink, s.2), evaluation.events)
  else ((sink, persistRecords serde s.2 w evaluation.records), evaluation.events)

section Runs

variable (serde : SerdeJson) (file : AlertsConfig ℚ ℚ) (template : Template ℚ ℚ)
  (sourceMtimes : Mtimes) (h : History) (x : ℕ → SinkWrite)

/-- The sink and the metrics files before write `n`. -/
def before (n : ℕ) : AlertSink × History :=
  Machine.stateAt (write serde) (fromConfig file template sourceMtimes, h) x n

def notified (n : ℕ) : List AlertEvent :=
  Machine.outAt (write serde) (fromConfig file template sourceMtimes, h) x n

/-- The thresholds that write `n` evaluates under. -/
def thresholdsAt (n : ℕ) : ActiveThresholds :=
  (before serde file template sourceMtimes h x (n + 1)).1.active

/-- What write `n` gives the engine. -/
def inputAt (n : ℕ) : AlertEngine.Input :=
  ⟨(x n).now, (x n).snapshot, thresholdsAt serde file template sourceMtimes h x n⟩

/-- What write `n` is to append to the metrics files: the records of evaluation `n`, unless it is
dropped while it notifies. -/
def appendedAt (n : ℕ) : List AppendCall :=
  let evaluation := AlertEngine.result (inputAt serde file template sourceMtimes h x) n
  if (x n).cut = true ∧ evaluation.events ≠ [] ∨ evaluation.records = [] then []
  else [⟨(x n).today, evaluation.records, (x n).fault, (x n).removable⟩]

/-- Write `n` puts new thresholds into effect: it is one of those that look, the files have other
modification times than the last such write found, and both load. -/
def Reloads (n : ℕ) (active : ActiveThresholds) : Prop :=
  (n + 1) % reloadCheckEvery = 0 ∧
  (x n).files.mtimes ≠
    (if n < reloadCheckEvery then sourceMtimes else (x (n - reloadCheckEvery)).files.mtimes) ∧
  (x n).files.thresholds = some active

end Runs

/-- The sink polls its files. -/
def poll (sink : AlertSink) : Polling.Poll Mtimes ActiveThresholds :=
  ⟨sink.reload.roundsSinceCheck, sink.reload.lastMtime, sink.active⟩

theorem poll_maybeReload (sink : AlertSink) (files : SourceFiles) :
    (sink.maybeReload files).poll =
      Polling.step reloadCheckEvery sink.poll ⟨files.mtimes, files.thresholds⟩ := by
  rw [maybeReload, Polling.step]
  by_cases hround : sink.reload.roundsSinceCheck + 1 < reloadCheckEvery
  · have hpoll : sink.poll.rounds + 1 < reloadCheckEvery := hround
    rw [if_pos hround, if_pos hpoll]
    rfl
  · have hpoll : ¬ sink.poll.rounds + 1 < reloadCheckEvery := hround
    rw [if_neg hround, if_neg hpoll]
    by_cases hstamp : files.mtimes = sink.reload.lastMtime
    · have hlast : files.mtimes = sink.poll.last := hstamp
      rw [if_pos hstamp, if_pos hlast]
      rfl
    · have hlast : ¬ files.mtimes = sink.poll.last := hstamp
      rw [if_neg hstamp, if_neg hlast, SourceFiles.thresholds]
      cases files.load with
      | error e => rfl
      | ok file => cases files.loadTemplate <;> rfl

theorem engine_maybeReload (sink : AlertSink) (files : SourceFiles) :
    (sink.maybeReload files).engine = sink.engine := by
  unfold maybeReload
  split_ifs with hround hstamp
  · rfl
  · rfl
  · cases files.load with
    | error e => rfl
    | ok file => cases files.loadTemplate <;> rfl

section Write

variable (serde : SerdeJson) (s : AlertSink × History) (w : SinkWrite)

theorem write_sink : (write serde s w).1.1 =
    { s.1.maybeReload w.files with
      engine := (s.1.engine.evaluate w.now w.snapshot (s.1.maybeReload w.files).active).1 } := by
  simp only [write, engine_maybeReload]
  split_ifs <;> rfl

theorem write_events : (write serde s w).2 =
    (s.1.engine.evaluate w.now w.snapshot (s.1.maybeReload w.files).active).2.events := by
  simp only [write, engine_maybeReload]
  split_ifs <;> rfl

theorem write_history {evaluation : Evaluation} (h : evaluation =
    (s.1.engine.evaluate w.now w.snapshot (s.1.maybeReload w.files).active).2) :
    (write serde s w).1.2 =
      if w.cut = true ∧ evaluation.events ≠ [] ∨ evaluation.records = [] then s.2
      else (append serde s.2 ⟨w.today, evaluation.records, w.fault, w.removable⟩).1 := by
  simp only [write, engine_maybeReload, ← h, Bool.or_eq_true, Bool.and_eq_true,
    Bool.not_eq_true', List.isEmpty_eq_false_iff, List.isEmpty_iff]
  split_ifs <;> rfl

theorem poll_write : (write serde s w).1.1.poll =
    Polling.step reloadCheckEvery s.1.poll ⟨w.files.mtimes, w.files.thresholds⟩ := by
  rw [write_sink, ← poll_maybeReload]
  rfl

theorem active_write : (write serde s w).1.1.active = (s.1.maybeReload w.files).active := by
  rw [write_sink]

end Write

section Laws

variable (serde : SerdeJson) (file : AlertsConfig ℚ ℚ) (template : Template ℚ ℚ)
  (sourceMtimes : Mtimes) (h : History) (x : ℕ → SinkWrite)

/-- What the writes find, to a poll. -/
def looks (n : ℕ) : Polling.Look Mtimes ActiveThresholds :=
  ⟨(x n).files.mtimes, (x n).files.thresholds⟩

theorem before_succ (n : ℕ) : before serde file template sourceMtimes h x (n + 1) =
    (write serde (before serde file template sourceMtimes h x n) (x n)).1 := rfl

theorem poll_before (n : ℕ) : (before serde file template sourceMtimes h x n).1.poll =
    Polling.before reloadCheckEvery sourceMtimes
      (ActiveThresholds.fromConfigWithTemplate file template) (looks x) n := by
  induction n with
  | zero => rfl
  | succ n ih =>
    rw [before_succ, poll_write, Polling.before_succ, ← ih]
    rfl

theorem thresholdsAt_eq (n : ℕ) : thresholdsAt serde file template sourceMtimes h x n =
    Polling.inEffect reloadCheckEvery sourceMtimes
      (ActiveThresholds.fromConfigWithTemplate file template) (looks x) n := by
  have hpoll := poll_before serde file template sourceMtimes h x (n + 1)
  exact congrArg Polling.Poll.value hpoll

theorem engine_before (n : ℕ) : (before serde file template sourceMtimes h x n).1.engine =
    AlertEngine.before (inputAt serde file template sourceMtimes h x) n := by
  induction n with
  | zero => rfl
  | succ n ih =>
    have hactive : thresholdsAt serde file template sourceMtimes h x n =
        ((before serde file template sourceMtimes h x n).1.maybeReload (x n).files).active :=
      active_write serde _ _
    rw [before_succ, write_sink, ← hactive, ih]
    rfl

theorem accepts_iff (n : ℕ) (active : ActiveThresholds) :
    Polling.Accepts reloadCheckEvery sourceMtimes
      (ActiveThresholds.fromConfigWithTemplate file template) (looks x) n active ↔
      Reloads sourceMtimes x n active := by
  have hpos : 0 < reloadCheckEvery := by decide
  constructor
  · intro haccepts
    obtain ⟨hlooks, hstamp, hread⟩ := haccepts
    rw [Polling.last_looks _ _ _ hpos hlooks] at hstamp
    exact ⟨hlooks, hstamp, hread⟩
  · intro hreloads
    obtain ⟨hlooks, hstamp, hread⟩ := hreloads
    refine ⟨hlooks, ?_, hread⟩
    rw [Polling.last_looks _ _ _ hpos hlooks]
    exact hstamp

/-- Every write evaluates with one engine, which runs through all writes and no reload resets. -/
theorem evaluation_at (n : ℕ) : AlertEngine.result (inputAt serde file template sourceMtimes h x) n =
    ((before serde file template sourceMtimes h x n).1.engine.evaluate (x n).now (x n).snapshot
      ((before serde file template sourceMtimes h x n).1.maybeReload (x n).files).active).2 := by
  have hactive : thresholdsAt serde file template sourceMtimes h x n =
      ((before serde file template sourceMtimes h x n).1.maybeReload (x n).files).active :=
    active_write serde _ _
  rw [engine_before, ← hactive]
  rfl

theorem history_before (n : ℕ) : (before serde file template sourceMtimes h x n).2 =
    ((List.range n).flatMap (appendedAt serde file template sourceMtimes h x)).foldl
      (fun h c => (append serde h c).1) h := by
  induction n with
  | zero => rfl
  | succ n ih =>
    rw [List.range_succ, List.flatMap_append, List.foldl_append, ← ih, List.flatMap_singleton,
      before_succ, write_history serde _ _ (evaluation_at serde file template sourceMtimes h x n),
      appendedAt]
    split_ifs <;> rfl

/-- The writes notify the events and append the records that one engine finds, which runs through
all writes and no reload resets; it evaluates under the thresholds of the latest write that
reloaded, or else of the start. -/
theorem evaluates_in_effect :
    (∀ n, notified serde file template sourceMtimes h x n =
      (AlertEngine.result (inputAt serde file template sourceMtimes h x) n).events) ∧
    (∀ n, (before serde file template sourceMtimes h x n).2 =
      ((List.range n).flatMap (appendedAt serde file template sourceMtimes h x)).foldl
        (fun h c => (append serde h c).1) h) ∧
    ∀ n, (∃ m ≤ n,
        Reloads sourceMtimes x m (thresholdsAt serde file template sourceMtimes h x n) ∧
        ∀ k, m < k → k ≤ n → ∀ active, ¬ Reloads sourceMtimes x k active) ∨
      thresholdsAt serde file template sourceMtimes h x n =
          ActiveThresholds.fromConfigWithTemplate file template ∧
        ∀ k ≤ n, ∀ active, ¬ Reloads sourceMtimes x k active := by
  refine ⟨?_, history_before serde file template sourceMtimes h x, ?_⟩
  · intro n
    have hnotified : notified serde file template sourceMtimes h x n =
        (write serde (before serde file template sourceMtimes h x n) (x n)).2 := rfl
    rw [hnotified, write_events, ← evaluation_at]
  · intro n
    have hlatest := Polling.inEffect_latest sourceMtimes
      (ActiveThresholds.fromConfigWithTemplate file template) (looks x)
      (show 0 < reloadCheckEvery by decide) n
    rw [thresholdsAt_eq]
    simp only [accepts_iff] at hlatest
    exact hlatest

end Laws

/-- The modification times tell the contents of the two files, also those that the start read. -/
structure Truthful (file : AlertsConfig ℚ ℚ) (template : Template ℚ ℚ) (sourceMtimes : Mtimes)
    (x : ℕ → SinkWrite) : Prop where
  later : ∀ m n, (x m).files.mtimes = (x n).files.mtimes →
    (x m).files.thresholds = (x n).files.thresholds
  outset : ∀ n, (x n).files.mtimes = sourceMtimes → ∀ active, (x n).files.thresholds = some active →
    ActiveThresholds.fromConfigWithTemplate file template = active

/-- Files that load and have stood still for as many writes as there are between two looks are in
effect, whatever was tried and failed before. -/
theorem thresholds_fresh (serde : SerdeJson) {file : AlertsConfig ℚ ℚ} {template : Template ℚ ℚ}
    {sourceMtimes : Mtimes} (h : History) {x : ℕ → SinkWrite}
    (hx : Truthful file template sourceMtimes x) {n : ℕ} (hn : reloadCheckEvery ≤ n + 1)
    (hstill : ∀ k ≤ n, n < k + reloadCheckEvery → (x k).files.mtimes = (x n).files.mtimes)
    {active : ActiveThresholds} (hload : (x n).files.thresholds = some active) :
    thresholdsAt serde file template sourceMtimes h x n = active := by
  have hhonest : Polling.Honest sourceMtimes
      (ActiveThresholds.fromConfigWithTemplate file template) (looks x) := ⟨hx.later, hx.outset⟩
  rw [thresholdsAt_eq]
  exact hhonest.inEffect_still (by decide) hn hstill hload

/-- A configuration that asks for another CPU threshold. -/
def retuned : FileConfig ℚ ℚ :=
  { FileConfig.default ℚ ℚ with alerts := { (FileConfig.default ℚ ℚ).alerts with cpu := some 40 } }

def noTemplate : Template ℚ ℚ := ⟨none, ∅, ∅, ∅, ∅⟩

/-- The writes after the configuration was edited. -/
def edited (n : ℕ) : SinkWrite where
  files := ⟨(some 2, none), .ok retuned, .ok noTemplate⟩
  now := n
  snapshot := Zstats.snapshot [] 1
  today := firstDay
  fault := .none
  removable := fun _ => true
  cut := false

theorem thresholds_fresh_edited :
    thresholdsAt sampleSerde (FileConfig.default ℚ ℚ).alerts noTemplate (some 1, none)
        ⟨fun _ => none, none⟩ edited 29 =
      ActiveThresholds.fromConfigWithTemplate retuned.alerts noTemplate := by
  have htruthful : Truthful (FileConfig.default ℚ ℚ).alerts noTemplate (some 1, none) edited := by
    refine ⟨fun _ _ _ => rfl, ?_⟩
    intro _ hn
    have hother : ((some 2, none) : Mtimes) ≠ (some 1, none) := by decide
    exact absurd hn hother
  exact thresholds_fresh sampleSerde _ htruthful (by decide) (fun _ _ _ => rfl) rfl

end AlertSink

/-! The command that shows a notification. -/

/-- `escape_applescript`. -/
def escapeApplescript (s : List Char) : List Char :=
  (s.flatMap fun c => if c = '\\' then ['\\', '\\'] else [c]).flatMap fun c =>
    if c = '"' then ['\\', '"'] else [c]

/-- The script that `send_notification` gives to `osascript`. -/
def notificationScript (message : List Char) : List Char :=
  "display notification \"".toList ++ escapeApplescript message ++
    "\" with title \"zstats\"".toList

/-- The rules for the text of a string literal, after the quote that opens it: its value, and what
follows the quote that closes it. -/
structure LiteralRules (literal : List Char → Option (List Char × List Char)) : Prop where
  close : ∀ rest, literal ('"' :: rest) = some ([], rest)
  quote : ∀ rest, literal ('\\' :: '"' :: rest) = (literal rest).map (Prod.map ('"' :: ·) id)
  backslash : ∀ rest,
    literal ('\\' :: '\\' :: rest) = (literal rest).map (Prod.map ('\\' :: ·) id)
  plain : ∀ c rest, c ≠ '"' → c ≠ '\\' →
    literal (c :: rest) = (literal rest).map (Prod.map (c :: ·) id)

theorem escapeApplescript_cons (c : Char) (s : List Char) :
    escapeApplescript (c :: s) =
      (if c = '\\' ∨ c = '"' then ['\\', c] else [c]) ++ escapeApplescript s := by
  by_cases hback : c = '\\'
  · simp [escapeApplescript, hback]
  · by_cases hquote : c = '"'
    · simp [escapeApplescript, hquote]
    · simp [escapeApplescript, hback, hquote]

/-- An escaped text is read as itself, up to the quote that closes it. -/
theorem literal_escaped {literal : List Char → Option (List Char × List Char)}
    (h : LiteralRules literal) (message rest : List Char) :
    literal (escapeApplescript message ++ '"' :: rest) = some (message, rest) := by
  induction message with
  | nil => exact h.close rest
  | cons c message ih =>
    rw [escapeApplescript_cons]
    by_cases hback : c = '\\'
    · rw [if_pos (Or.inl hback), hback]
      simp only [List.cons_append, List.nil_append]
      rw [h.backslash, ih]
      rfl
    · by_cases hquote : c = '"'
      · rw [if_pos (Or.inr hquote), hquote]
        simp only [List.cons_append, List.nil_append]
        rw [h.quote, ih]
        rfl
      · rw [if_neg (not_or.mpr ⟨hback, hquote⟩), List.singleton_append, List.cons_append,
          h.plain c _ hquote hback, ih]
        rfl

/-- Whatever the message says, it is the value of the first literal of the command as it is, and
the command goes on after it with the title. -/
theorem notificationScript_reads {literal : List Char → Option (List Char × List Char)}
    (h : LiteralRules literal) (message : List Char) :
    ∃ body, notificationScript message = "display notification \"".toList ++ body ∧
      literal body = some (message, " with title \"".toList ++ "zstats\"".toList) ∧
      literal "zstats\"".toList = some ("zstats".toList, []) := by
  have htail : "\" with title \"zstats\"".toList =
      '"' :: (" with title \"".toList ++ "zstats\"".toList) := by decide
  have htitle : escapeApplescript "zstats".toList ++ ['"'] = "zstats\"".toList := by decide
  refine ⟨escapeApplescript message ++ "\" with title \"zstats\"".toList, ?_, ?_, ?_⟩
  · exact List.append_assoc _ (escapeApplescript message) _
  · rw [htail]
    exact literal_escaped h message _
  · rw [← htitle]
    exact literal_escaped h _ []

/-- A reader of literals that knows no other escapes. -/
def readLiteral : List Char → Option (List Char × List Char)
  | '"' :: rest => some ([], rest)
  | '\\' :: '"' :: rest => (readLiteral rest).map (Prod.map ('"' :: ·) id)
  | '\\' :: '\\' :: rest => (readLiteral rest).map (Prod.map ('\\' :: ·) id)
  | '\\' :: _ => none
  | c :: rest => (readLiteral rest).map (Prod.map (c :: ·) id)
  | [] => none

theorem readLiteral_rules : LiteralRules readLiteral where
  close := fun rest => by rw [readLiteral]
  quote := fun rest => by rw [readLiteral]
  backslash := fun rest => by rw [readLiteral]
  plain := by
    intro c rest hquote hback
    rw [readLiteral]
    · exact hquote
    · exact fun _ h => absurd h hback
    · exact fun _ h => absurd h hback
    · exact hback

theorem notificationScript_reads_quote :
    ∃ body, notificationScript "\"C:\\\"".toList = "display notification \"".toList ++ body ∧
      readLiteral body =
        some ("\"C:\\\"".toList, " with title \"".toList ++ "zstats\"".toList) ∧
      readLiteral "zstats\"".toList = some ("zstats".toList, []) :=
  notificationScript_reads readLiteral_rules _

end Zstats
