import Zstats.Alerts.Judging

namespace Zstats

open EpisodeState ProcessWindows

/-- What a windowed rule sees of one entry: is it on for the entry, is there enough history for it
to judge, and is the average at its bar. -/
structure Standing where
  enabled : Bool
  full : Bool
  atBar : Bool
  deriving DecidableEq, Repr

namespace Standing

def off : Standing := ⟨false, false, false⟩

def verdict (s : Standing) (subject : AlertSubject) (detail : AlertDetail) : Verdict :=
  if !(s.enabled && s.full) then .skip
  else if !s.atBar then .below
  else .reached subject detail

theorem verdict_reached {s : Standing} {subject s' : AlertSubject} {detail d' : AlertDetail}
    (h : s.verdict subject detail = .reached s' d') :
    (s.enabled = true ∧ s.full = true ∧ s.atBar = true) ∧ s' = subject ∧ d' = detail := by
  rw [verdict] at h
  split_ifs at h with hjudged hbar
  simp only [Bool.not_eq_true', Bool.and_eq_false_iff, not_or, Bool.not_eq_false] at hjudged
  simp only [Bool.not_eq_true', Bool.not_eq_false] at hbar
  obtain ⟨rfl, rfl⟩ := Verdict.reached.inj h
  exact ⟨⟨hjudged.1, hjudged.2, hbar⟩, rfl, rfl⟩

theorem verdict_below {s : Standing} (subject : AlertSubject) (detail : AlertDetail)
    (hon : s.enabled = true) (hfull : s.full = true) (hbar : s.atBar = false) :
    s.verdict subject detail = .below := by
  simp [verdict, hon, hfull, hbar]

end Standing

section Standings

def cpuStanding (active : ActiveThresholds) (p : ProcessSnapshot) (fast slow : ProcessStats) :
    Standing :=
  match active.cpu.forProcess p.name with
  | none => .off
  | some threshold => ⟨true, true,
      decide (minSpan ≤ fast.span) && decide (acuteFactor * threshold ≤ fast.cpuAvg) ||
        decide (slowMinSpan ≤ slow.span) && decide (threshold ≤ slow.cpuAvg)⟩

def memoryStanding (active : ActiveThresholds) (totalMemory : Nat) (p : ProcessSnapshot)
    (slow : ProcessStats) : Standing :=
  match active.memoryBarBytes p.name totalMemory with
  | none => .off
  | some bar => ⟨true, decide (0 < totalMemory) && decide (slowMinSpan ≤ slow.span),
      decide (bar ≤ asU64 (heldBytes slow))⟩

def appCpuStanding (active : ActiveThresholds) (g : ProcessGroupSnapshot) (stat : ProcessStats) :
    Standing :=
  match active.appCpu.forProcess g.name with
  | none => .off
  | some threshold => ⟨true, decide (slowMinSpan ≤ stat.span), decide (threshold ≤ stat.cpuAvg)⟩

def appMemoryStanding (active : ActiveThresholds) (totalMemory : Nat) (g : ProcessGroupSnapshot)
    (stat : ProcessStats) : Standing :=
  match active.appMemoryBarBytes g.name totalMemory with
  | none => .off
  | some bar => ⟨true, decide (0 < totalMemory) && decide (slowMinSpan ≤ stat.span),
      decide (bar ≤ asU64 (heldBytes stat))⟩

def processStandings (active : ActiveThresholds) (totalMemory : Nat)
    (fastStats slowStats : StatsMap) (p : ProcessSnapshot) : List (Key × Standing) :=
  match fastStats p.pid, slowStats p.pid with
  | some fast, some slow => [((p.pid, .cpu), cpuStanding active p fast slow),
      ((p.pid, .memory), memoryStanding active totalMemory p slow)]
  | _, _ => []

def appStandings (active : ActiveThresholds) (totalMemory : Nat) (stats : StatsMap)
    (g : ProcessGroupSnapshot) : List (Key × Standing) :=
  match stats g.rootPid with
  | none => []
  | some stat => [((g.rootPid, .appCpu), appCpuStanding active g stat),
      ((g.rootPid, .appMemory), appMemoryStanding active totalMemory g stat)]

variable {active : ActiveThresholds} {totalMemory : Nat}

/-- The verdict on an entry is that of its standing, under the entry's key. -/
def Fits (key : Key) (st : Standing) (v : Verdict) : Prop :=
  key.2 ≠ .pressure ∧ ∃ subject detail, v = st.verdict subject detail ∧
    ∀ r, (⟨subject, detail, r⟩ : AlertEvent).key = some key

theorem fits_skip {key : Key} (hkind : key.2 ≠ .pressure) {subject : AlertSubject}
    {detail : AlertDetail} (h : ∀ r, (⟨subject, detail, r⟩ : AlertEvent).key = some key) :
    Fits key .off .skip :=
  ⟨hkind, subject, detail, rfl, h⟩

theorem cpuVerdict_fits (p : ProcessSnapshot) (fast slow : ProcessStats) :
    Fits (p.pid, .cpu) (cpuStanding active p fast slow) (cpuVerdict active p fast slow) := by
  have hkey : ∀ avg bar w acute r,
      (⟨.process p.pid p.name p.displayName, .cpu avg bar w acute, r⟩ : AlertEvent).key =
        some (p.pid, .cpu) := fun _ _ _ _ _ => rfl
  unfold cpuVerdict cpuStanding
  cases active.cpu.forProcess p.name with
  | none => exact fits_skip (by simp) (hkey 0 0 0 false)
  | some threshold =>
    let acute := decide (minSpan ≤ fast.span) && decide (acuteFactor * threshold ≤ fast.cpuAvg)
    refine ⟨by simp, _, .cpu (if acute then fast.cpuAvg else slow.cpuAvg)
      (if acute then acuteFactor * threshold else threshold)
      (if acute then window else slowWindow) acute, ?_, hkey _ _ _ _⟩
    simp only [Standing.verdict, Bool.and_self, Bool.not_true, Bool.false_eq_true, if_false]
    rfl

theorem memoryVerdict_fits (p : ProcessSnapshot) (slow : ProcessStats) :
    Fits (p.pid, .memory) (memoryStanding active totalMemory p slow)
      (memoryVerdict active totalMemory p slow) := by
  have hkey : ∀ bar held r,
      (⟨.process p.pid p.name p.displayName, memoryDetail totalMemory bar held, r⟩ :
        AlertEvent).key = some (p.pid, .memory) := fun _ _ _ => rfl
  unfold memoryVerdict memoryStanding
  cases active.memoryBarBytes p.name totalMemory with
  | none => exact fits_skip (by simp) (hkey 0 0)
  | some bar =>
    refine ⟨by simp, _, _, ?_, hkey bar (heldBytes slow)⟩
    by_cases h : totalMemory = 0 ∨ slow.span < slowMinSpan
    · rcases h with h | h <;> simp [Standing.verdict, h]
    · simp only [if_neg h]
      rw [not_or, not_lt] at h
      have hpos := Nat.pos_of_ne_zero h.1
      simp [Standing.verdict, hpos, h.2]

theorem appCpuVerdict_fits (g : ProcessGroupSnapshot) {stat : ProcessStats}
    (h : slowMinSpan ≤ stat.span) :
    Fits (g.rootPid, .appCpu) (appCpuStanding active g stat) (appCpuVerdict active g stat) := by
  have hkey : ∀ avg bar r, (⟨.app g.rootPid g.name g.displayName g.processCount,
      .cpu avg bar slowWindow false, r⟩ : AlertEvent).key = some (g.rootPid, .appCpu) :=
    fun _ _ _ => rfl
  unfold appCpuVerdict appCpuStanding
  cases active.appCpu.forProcess g.name with
  | none => exact fits_skip (by simp) (hkey 0 0)
  | some threshold =>
    refine ⟨by simp, _, _, ?_, hkey stat.cpuAvg threshold⟩
    simp [Standing.verdict, h]

theorem appMemoryVerdict_fits (g : ProcessGroupSnapshot) {stat : ProcessStats}
    (h : slowMinSpan ≤ stat.span) :
    Fits (g.rootPid, .appMemory) (appMemoryStanding active totalMemory g stat)
      (appMemoryVerdict active totalMemory g stat) := by
  have hkey : ∀ bar held r, (⟨.app g.rootPid g.name g.displayName g.processCount,
      memoryDetail totalMemory bar held, r⟩ : AlertEvent).key = some (g.rootPid, .appMemory) :=
    fun _ _ _ => rfl
  unfold appMemoryVerdict appMemoryStanding
  cases active.appMemoryBarBytes g.name totalMemory with
  | none => exact fits_skip (by simp) (hkey 0 0)
  | some bar =>
    refine ⟨by simp, _, _, ?_, hkey bar (heldBytes stat)⟩
    by_cases ht : totalMemory = 0
    · simp [Standing.verdict, ht]
    · simp [Standing.verdict, ht, h, Nat.pos_iff_ne_zero]

/-- Each verdict on a process is that of one of its standings. -/
theorem processVerdicts_fits {fastStats slowStats : StatsMap} {p : ProcessSnapshot}
    {kv : Key × Verdict} (h : kv ∈ processVerdicts active totalMemory fastStats slowStats p) :
    kv.1.1 = p.pid ∧ kv.1.2.isApp = false ∧ ∃ st,
      (kv.1, st) ∈ processStandings active totalMemory fastStats slowStats p ∧ Fits kv.1 st kv.2 := by
  rw [processVerdicts] at h
  split at h
  · next fast slow hfast hslow =>
    have hlisted : processStandings active totalMemory fastStats slowStats p =
        [((p.pid, .cpu), cpuStanding active p fast slow),
          ((p.pid, .memory), memoryStanding active totalMemory p slow)] := by
      rw [processStandings, hfast, hslow]
    rw [hlisted]
    rcases List.mem_pair.mp h with rfl | rfl
    · exact ⟨rfl, rfl, _, by simp, cpuVerdict_fits p fast slow⟩
    · exact ⟨rfl, rfl, _, by simp, memoryVerdict_fits p slow⟩
  · simp at h

theorem processStandings_fits {fastStats slowStats : StatsMap} {p : ProcessSnapshot}
    {ks : Key × Standing} (h : ks ∈ processStandings active totalMemory fastStats slowStats p) :
    ks.1.2.isApp = false ∧
      ∃ v, (ks.1, v) ∈ processVerdicts active totalMemory fastStats slowStats p ∧
        Fits ks.1 ks.2 v := by
  rw [processStandings] at h
  split at h
  · next fast slow hfast hslow =>
    have hjudged : processVerdicts active totalMemory fastStats slowStats p =
        [((p.pid, .cpu), cpuVerdict active p fast slow),
          ((p.pid, .memory), memoryVerdict active totalMemory p slow)] := by
      rw [processVerdicts, hfast, hslow]
    rw [hjudged]
    rcases List.mem_pair.mp h with rfl | rfl
    · exact ⟨rfl, _, by simp, cpuVerdict_fits p fast slow⟩
    · exact ⟨rfl, _, by simp, memoryVerdict_fits p slow⟩
  · simp at h

theorem appVerdicts_fits {stats : StatsMap} {g : ProcessGroupSnapshot} {kv : Key × Verdict}
    (h : kv ∈ appVerdicts active totalMemory stats g) :
    kv.1.1 = g.rootPid ∧ kv.1.2.isApp = true ∧ ∃ st,
      (kv.1, st) ∈ appStandings active totalMemory stats g ∧ Fits kv.1 st kv.2 := by
  rw [appVerdicts] at h
  split at h
  · simp at h
  · next stat hstat =>
    have hlisted : appStandings active totalMemory stats g =
        [((g.rootPid, .appCpu), appCpuStanding active g stat),
          ((g.rootPid, .appMemory), appMemoryStanding active totalMemory g stat)] := by
      rw [appStandings, hstat]
    rw [hlisted]
    split_ifs at h with hspan
    · simp at h
    · rw [not_lt] at hspan
      rcases List.mem_pair.mp h with rfl | rfl
      · exact ⟨rfl, rfl, _, by simp, appCpuVerdict_fits g hspan⟩
      · exact ⟨rfl, rfl, _, by simp, appMemoryVerdict_fits g hspan⟩

/-- Groups are judged only once their window is full enough. -/
theorem appStandings_fits {stats : StatsMap} {g : ProcessGroupSnapshot} {ks : Key × Standing}
    (h : ks ∈ appStandings active totalMemory stats g) (hfull : ks.2.full = true) :
    ks.1.2.isApp = true ∧
      ∃ v, (ks.1, v) ∈ appVerdicts active totalMemory stats g ∧ Fits ks.1 ks.2 v := by
  rw [appStandings] at h
  split at h
  · simp at h
  · next stat hstat =>
    have hspan : slowMinSpan ≤ stat.span := by
      rcases List.mem_pair.mp h with rfl | rfl
      · rw [appCpuStanding] at hfull
        split at hfull <;> simp_all [Standing.off]
      · rw [appMemoryStanding] at hfull
        split at hfull <;> simp_all [Standing.off]
    have hjudged : appVerdicts active totalMemory stats g =
        [((g.rootPid, .appCpu), appCpuVerdict active g stat),
          ((g.rootPid, .appMemory), appMemoryVerdict active totalMemory g stat)] := by
      rw [appVerdicts, hstat]
      exact if_neg (not_lt.mpr hspan)
    rw [hjudged]
    rcases List.mem_pair.mp h with rfl | rfl
    · exact ⟨rfl, _, by simp, appCpuVerdict_fits g hspan⟩
    · exact ⟨rfl, _, by simp, appMemoryVerdict_fits g hspan⟩

end Standings

namespace AlertEngine

def fastStats (e : AlertEngine) (now : Nat) (processes : List ProcessSnapshot) : StatsMap :=
  ((e.fast.getD (.new window)).record now processes).2

def slowStats (e : AlertEngine) (now : Nat) (processes : List ProcessSnapshot) : StatsMap :=
  ((e.slow.getD (.new slowWindow)).record now processes).2

def appStats (e : AlertEngine) (now : Nat) (groups : List ProcessGroupSnapshot) : StatsMap :=
  ((e.apps.getD (.new slowWindow)).record now (groups.map asProcess)).2

/-- The application section of one evaluation, where it runs: the pids listed and the verdicts. -/
def appSection (e : AlertEngine) (i : Input) : Option (List Pid × List (Key × Verdict)) :=
  i.snapshot.processGroups.bind fun groups =>
    if i.active.appCpu.anyEnabled || i.active.appMemory.anyEnabled then
      some (groups.map (·.rootPid), groups.flatMap
        (appVerdicts i.active i.snapshot.memory.totalBytes (e.appStats i.now groups)))
    else none

def processSection (e : AlertEngine) (i : Input) : Option (List Pid × List (Key × Verdict)) :=
  i.snapshot.processes.map fun processes =>
    (processes.map (·.pid), processes.flatMap
      (processVerdicts i.active i.snapshot.memory.totalBytes (e.fastStats i.now processes)
        (e.slowStats i.now processes)))

def sectionOf (e : AlertEngine) (i : Input) (app : Bool) :
    Option (List Pid × List (Key × Verdict)) :=
  if app then e.appSection i else e.processSection i

/-- All standings of one evaluation, under their keys. -/
def standings (e : AlertEngine) (i : Input) : List (Key × Standing) :=
  (match i.snapshot.processGroups with
    | some groups =>
      if i.active.appCpu.anyEnabled || i.active.appMemory.anyEnabled then groups.flatMap
        (appStandings i.active i.snapshot.memory.totalBytes (e.appStats i.now groups))
      else []
    | none => []) ++
  (match i.snapshot.processes with
    | some processes => processes.flatMap
        (processStandings i.active i.snapshot.memory.totalBytes (e.fastStats i.now processes)
          (e.slowStats i.now processes))
    | none => [])

variable (e : AlertEngine) (i : Input)

/-- The verdicts of a section are about the pids it lists and are those of their standings. -/
theorem sectionOf_fits {app : Bool} {pids : List Pid} {verdicts : List (Key × Verdict)}
    (h : e.sectionOf i app = some (pids, verdicts)) {kv : Key × Verdict} (hkv : kv ∈ verdicts) :
    kv.1.1 ∈ pids ∧ kv.1.2.isApp = app ∧
      ∃ st, (kv.1, st) ∈ e.standings i ∧ Fits kv.1 st kv.2 := by
  cases app with
  | true =>
    obtain ⟨groups, hgroups, h⟩ := Option.bind_eq_some_iff.mp h
    split_ifs at h with hon
    obtain ⟨rfl, rfl⟩ := Prod.mk.inj (Option.some.inj h)
    obtain ⟨g, hg, hmem⟩ := List.mem_flatMap.mp hkv
    obtain ⟨hpid, happ, st, hst, hfits⟩ := appVerdicts_fits hmem
    refine ⟨?_, happ, st, ?_, hfits⟩
    · rw [hpid]
      exact List.mem_map_of_mem hg
    · apply List.mem_append_left
      simp only [hgroups, hon, if_true]
      exact List.mem_flatMap.mpr ⟨g, hg, hst⟩
  | false =>
    obtain ⟨processes, hprocesses, h⟩ := Option.map_eq_some_iff.mp h
    obtain ⟨rfl, rfl⟩ := Prod.mk.inj h
    obtain ⟨p, hp, hmem⟩ := List.mem_flatMap.mp hkv
    obtain ⟨hpid, happ, st, hst, hfits⟩ := processVerdicts_fits hmem
    refine ⟨?_, happ, st, ?_, hfits⟩
    · rw [hpid]
      exact List.mem_map_of_mem hp
    · apply List.mem_append_right
      simp only [hprocesses]
      exact List.mem_flatMap.mpr ⟨p, hp, hst⟩

/-- A rule that has enough history judges. -/
theorem standings_fits {ks : Key × Standing} (h : ks ∈ e.standings i) (hfull : ks.2.full = true) :
    ∃ pids verdicts v, e.sectionOf i ks.1.2.isApp = some (pids, verdicts) ∧ (ks.1, v) ∈ verdicts ∧
      Fits ks.1 ks.2 v := by
  rcases List.mem_append.mp h with h | h
  · split at h
    · rename_i groups hgroups
      split_ifs at h with hon
      · obtain ⟨g, hg, hmem⟩ := List.mem_flatMap.mp h
        obtain ⟨happ, v, hv, hfits⟩ := appStandings_fits hmem hfull
        refine ⟨groups.map (·.rootPid), _, v, ?_, List.mem_flatMap.mpr ⟨g, hg, hv⟩, hfits⟩
        simp [sectionOf, happ, appSection, hgroups, hon]
      · simp at h
    · simp at h
  · split at h
    · rename_i processes hprocesses
      obtain ⟨p, hp, hmem⟩ := List.mem_flatMap.mp h
      obtain ⟨happ, v, hv, hfits⟩ := processStandings_fits hmem
      refine ⟨processes.map (·.pid), _, v, ?_, List.mem_flatMap.mpr ⟨p, hp, hv⟩, hfits⟩
      simp [sectionOf, happ, processSection, hprocesses]
    · simp at h

/-- One section at work: forget the pids of its kinds that are not listed, judge the verdicts. -/
def runSection (app : Bool) (episodes : EpisodeState) : EpisodeState × List AlertEvent :=
  match e.sectionOf i app with
  | none => (episodes, [])
  | some (pids, verdicts) => judgeAll i.now i.active.cooldown
      (episodes.retain fun k => (k.2.isApp != app) || decide (k.1 ∈ pids)) verdicts

theorem evaluateApps_eq :
    (evaluateApps e.apps e.episodes i.now i.snapshot i.active).2 =
      e.runSection i true e.episodes := by
  unfold evaluateApps runSection
  simp only [sectionOf, if_true, appSection]
  cases i.snapshot.processGroups with
  | none => rfl
  | some groups =>
    simp only [Option.bind_some]
    split_ifs with hon
    · have hkeep : (fun k : Key => !k.2.isApp || (e.appStats i.now groups k.1).isSome) =
          fun k => (k.2.isApp != true) || decide (k.1 ∈ groups.map (·.rootPid)) := by
        funext k
        have h := record_stats_isSome (e.apps.getD (.new slowWindow)) i.now
          (groups.map asProcess) k.1
        rw [List.map_map] at h
        have hpid : (·.pid) ∘ asProcess = fun g : ProcessGroupSnapshot => g.rootPid := rfl
        rw [hpid] at h
        rw [appStats, ← Bool.eq_iff_iff.mpr (h.trans (decide_eq_true_iff).symm), Bool.bne_true]
      simp only [← hkeep]
      rfl
    · rfl

theorem evaluateProcesses_eq (processes : List ProcessSnapshot)
    (h : i.snapshot.processes = some processes) :
    let out := evaluateProcesses e i.now i.snapshot i.active processes
    (out.1.episodes, out.2.events) = e.runSection i false e.episodes := by
  have hkeep : (fun k : Key => k.2.isApp || (e.fastStats i.now processes k.1).isSome) =
      fun k => (k.2.isApp != false) || decide (k.1 ∈ processes.map (·.pid)) := by
    funext k
    have h := record_stats_isSome (e.fast.getD (.new window)) i.now processes k.1
    rw [fastStats, ← Bool.eq_iff_iff.mpr (h.trans (decide_eq_true_iff).symm), Bool.bne_false]
  intro out
  simp only [runSection, sectionOf, Bool.false_eq_true, if_false, processSection, h,
    Option.map_some, ← hkeep]
  rfl

theorem step_episodes :
    (e.step i).1.episodes = (e.runSection i false (e.runSection i true e.episodes).1).1 := by
  rw [← evaluateApps_eq]
  unfold step evaluate
  cases h : i.snapshot.processes with
  | none => simp [runSection, sectionOf, processSection, h]
  | some processes => exact congrArg Prod.fst (evaluateProcesses_eq _ i processes h)

theorem step_events :
    (e.step i).2.events = (evaluateDisks e.diskDisarmed i.snapshot.disks i.active).2 ++
      (evaluatePressure e.pressure i.now i.snapshot i.active).2 ++
      (e.runSection i true e.episodes).2 ++
      (e.runSection i false (e.runSection i true e.episodes).1).2 := by
  rw [← evaluateApps_eq]
  unfold step evaluate
  cases h : i.snapshot.processes with
  | none => simp [runSection, sectionOf, processSection, h]
  | some processes =>
    exact congrArg _ (congrArg Prod.snd (evaluateProcesses_eq _ i processes h))

/-- Some entry of the key's pid stands in the list with the rule on and its average at the bar. -/
def AtBar (k : Key) : Prop := ∃ st, (k, st) ∈ e.standings i ∧ st.enabled = true ∧ st.atBar = true

/-- As `AtBar`, or with the rule on and enough history to see that it is not. -/
def Judged (k : Key) : Prop :=
  ∃ st, (k, st) ∈ e.standings i ∧ st.enabled = true ∧ (st.full = true ∨ st.atBar = true)

variable {e i} in
/-- An event with a verdict's subject and detail carries the verdict's key. -/
theorem reached_key {app : Bool} {pids : List Pid} {verdicts : List (Key × Verdict)} {k : Key}
    {ev : AlertEvent} (h : e.sectionOf i app = some (pids, verdicts))
    (hv : (k, .reached ev.subject ev.detail) ∈ verdicts) :
    ev.key = some k ∧ k.1 ∈ pids ∧ k.2.isApp = app ∧ k.2 ≠ .pressure ∧ e.AtBar i k := by
  obtain ⟨hpid, happ, st, hst, hkind, subject, detail, hverdict, hkey⟩ := e.sectionOf_fits i h hv
  obtain ⟨⟨hon, -, hbar⟩, hs, hd⟩ := Standing.verdict_reached hverdict.symm
  have hkey := hkey ev.repeatAfter
  rw [← hs, ← hd] at hkey
  exact ⟨hkey, hpid, happ, hkind, st, hst, hon, hbar⟩

/-- Every event of a section is that of a verdict at its bar; a reminder is about an episode that
was open before and whose pid is still listed. -/
theorem mem_runSection {app : Bool} {episodes : EpisodeState} {ev : AlertEvent}
    (hev : ev ∈ (e.runSection i app episodes).2) :
    ∃ pids verdicts k, e.sectionOf i app = some (pids, verdicts) ∧
      (k, .reached ev.subject ev.detail) ∈ verdicts ∧ (ev.repeatAfter = none ∨
        ∃ started, episodes.active k = some ⟨started, false⟩ ∧
          ev.repeatAfter = some (durationSince i.now started) ∧
          persistReminder ≤ durationSince i.now started) := by
  rw [runSection] at hev
  split at hev
  · simp at hev
  · rename_i pids verdicts h
    obtain ⟨k, hv, hreminder⟩ := mem_judgeAll hev
    refine ⟨pids, verdicts, k, h, hv, hreminder.imp_right ?_⟩
    intro ⟨started, hactive, hrest⟩
    simp only [retain, Option.ite_none_right_eq_some] at hactive
    exact ⟨started, hactive.2, hrest⟩

/-- The events of a section carry keys of its kinds. -/
theorem runSection_event {app : Bool} {episodes : EpisodeState} {ev : AlertEvent}
    (hev : ev ∈ (e.runSection i app episodes).2) :
    ∃ k, ev.key = some k ∧ k.2.isApp = app ∧ k.2 ≠ .pressure := by
  obtain ⟨pids, verdicts, k, h, hv, -⟩ := e.mem_runSection i hev
  obtain ⟨hkey, -, happ, hkind, -⟩ := reached_key h hv
  exact ⟨k, hkey, happ, hkind⟩

/-- A section leaves the keys of the other kinds alone. -/
theorem runSection_frame {app : Bool} (episodes : EpisodeState) {k : Key} (hk : k.2.isApp ≠ app) :
    (e.runSection i app episodes).1.entry k = episodes.entry k ∧
    ∀ ev ∈ (e.runSection i app episodes).2, ev.key ≠ some k := by
  constructor
  · rw [runSection]
    split
    · rfl
    · rename_i pids verdicts h
      rw [judgeAll_frame, retain_entry]
      · simp [hk]
      · intro kv hkv heq
        obtain ⟨-, happ, -⟩ := e.sectionOf_fits i h hkv
        exact hk (heq ▸ happ)
  · intro ev hev heq
    obtain ⟨k', hk', happ, -⟩ := e.runSection_event i hev
    rw [hk', Option.some.injEq] at heq
    exact hk (heq ▸ happ)

/-- Judging one disk adds no event but one of its own kind, under no key. -/
theorem evaluateDisk_kind {active : ActiveThresholds} {acc : Finset String × List AlertEvent}
    (hacc : ∀ ev ∈ acc.2, ev.key = none ∧ ev.kind = .disk) (d : DiskSnapshot) :
    ∀ ev ∈ (evaluateDisk active acc d).2, ev.key = none ∧ ev.kind = .disk := by
  rw [evaluateDisk]
  split
  · exact hacc
  · dsimp only
    split_ifs
    · exact hacc
    · exact hacc
    · exact hacc
    · intro ev hev
      rcases List.mem_append.mp hev with hev | hev
      · exact hacc ev hev
      · obtain rfl := List.mem_singleton.mp hev
        exact ⟨rfl, rfl⟩
    · exact hacc

theorem evaluateDisks_kind {disarmed : Finset String} {disks : Option (List DiskSnapshot)}
    {active : ActiveThresholds} {ev : AlertEvent}
    (hev : ev ∈ (evaluateDisks disarmed disks active).2) : ev.key = none ∧ ev.kind = .disk := by
  unfold evaluateDisks at hev
  cases disks with
  | none => simp at hev
  | some disks =>
    have hfold : ∀ (ds : List DiskSnapshot) (acc : Finset String × List AlertEvent),
        (∀ ev ∈ acc.2, ev.key = none ∧ ev.kind = .disk) →
        ∀ ev ∈ (ds.foldl (evaluateDisk active) acc).2, ev.key = none ∧ ev.kind = .disk := by
      intro ds
      induction ds with
      | nil => exact fun acc hacc => hacc
      | cons d ds ih => exact fun acc hacc => ih _ (evaluateDisk_kind hacc d)
    exact hfold _ _ (by simp) ev hev

theorem evaluatePressure_kind {p : PressureState} {now : Nat} {snapshot : SystemSnapshot}
    {active : ActiveThresholds} {ev : AlertEvent}
    (hev : ev ∈ (evaluatePressure p now snapshot active).2) :
    ev.key = none ∧ ev.kind = .pressure := by
  rw [evaluatePressure] at hev
  split at hev
  · obtain ⟨_, -, rfl⟩ := List.mem_map.mp hev
    exact ⟨rfl, rfl⟩
  · simp at hev

/-- For a key, one evaluation is the run of the section of its kind. -/
theorem step_runSection (k : Key) :
    ∃ episodes, episodes.entry k = e.episodes.entry k ∧
      (e.step i).1.episodes.entry k = (e.runSection i k.2.isApp episodes).1.entry k ∧
      ∀ ev, ev.key = some k →
        (ev ∈ (e.step i).2.events ↔ ev ∈ (e.runSection i k.2.isApp episodes).2) := by
  have hevents : ∀ ev, ev.key = some k → (ev ∈ (e.step i).2.events ↔
      ev ∈ (e.runSection i true e.episodes).2 ∨
      ev ∈ (e.runSection i false (e.runSection i true e.episodes).1).2) := by
    intro ev hkey
    rw [step_events, List.append_assoc, List.mem_append, List.mem_append, List.mem_append]
    constructor
    · rintro ((h | h) | h)
      · simp [(evaluateDisks_kind h).1] at hkey
      · simp [(evaluatePressure_kind h).1] at hkey
      · exact h
    · exact Or.inr
  rw [step_episodes]
  cases happ : k.2.isApp with
  | true =>
    have hframe := e.runSection_frame i (e.runSection i true e.episodes).1
      (show k.2.isApp ≠ false by simp [happ])
    refine ⟨e.episodes, rfl, hframe.1, ?_⟩
    intro ev hkey
    rw [hevents ev hkey]
    exact or_iff_left fun h => hframe.2 ev h hkey
  | false =>
    have hframe := e.runSection_frame i e.episodes (show k.2.isApp ≠ true by simp [happ])
    refine ⟨(e.runSection i true e.episodes).1, hframe.1, rfl, ?_⟩
    intro ev hkey
    rw [hevents ev hkey]
    exact or_iff_right fun h => hframe.2 ev h hkey

variable {e i} {k : Key}

/-- An event comes from a verdict under its key; a reminder is about an episode already open. -/
theorem step_event {ev : AlertEvent} (hev : ev ∈ (e.step i).2.events) (hkey : ev.key = some k) :
    ∃ pids verdicts, e.sectionOf i k.2.isApp = some (pids, verdicts) ∧
      (k, .reached ev.subject ev.detail) ∈ verdicts ∧ (ev.repeatAfter = none ∨
        ∃ started, e.episodes.active k = some ⟨started, false⟩ ∧
          ev.repeatAfter = some (durationSince i.now started) ∧
          persistReminder ≤ durationSince i.now started) := by
  obtain ⟨episodes, hentry, -, hevents⟩ := e.step_runSection i k
  obtain ⟨pids, verdicts, k', h, hv, hreminder⟩ :=
    e.mem_runSection i ((hevents ev hkey).mp hev)
  obtain rfl : k' = k := Option.some.inj ((reached_key h hv).1.symm.trans hkey)
  rw [(Prod.mk.inj hentry).1] at hreminder
  exact ⟨pids, verdicts, h, hv, hreminder⟩

theorem event_atBar {ev : AlertEvent} (hev : ev ∈ (e.step i).2.events) (hkey : ev.key = some k) :
    e.AtBar i k := by
  obtain ⟨pids, verdicts, h, hv, -⟩ := step_event hev hkey
  exact (reached_key h hv).2.2.2.2

/-- A key without a trace of a notification keeps none, unless this evaluation notifies of it. -/
theorem step_fresh (h : e.episodes.entry k = (none, none)) :
    ((e.step i).1.episodes.entry k = (none, none) ∧
      ∀ pids verdicts, e.sectionOf i k.2.isApp = some (pids, verdicts) →
        ∀ subject detail, (k, .reached subject detail) ∉ verdicts) ∨
    ∃ ev ∈ (e.step i).2.events, ev.key = some k := by
  obtain ⟨episodes, hentry, hafter, hevents⟩ := e.step_runSection i k
  rw [← hentry] at h
  unfold runSection at hafter hevents
  cases hsection : e.sectionOf i k.2.isApp with
  | none =>
    rw [hsection] at hafter
    exact Or.inl ⟨hafter.trans h, by simp⟩
  | some listed =>
    obtain ⟨pids, verdicts⟩ := listed
    rw [hsection] at hafter hevents
    have hretain : (episodes.retain fun k' => (k'.2.isApp != k.2.isApp) ||
        decide (k'.1 ∈ pids)).entry k = (none, none) := by
      rw [retain_entry, h, ite_self]
    rcases judgeAll_notified hretain with ⟨hfresh, hnone⟩ | ⟨ev, hev, hv⟩
    · left
      refine ⟨hafter.trans hfresh, ?_⟩
      intro pids' verdicts' h'
      rw [Option.some.injEq, Prod.mk.injEq] at h'
      rw [← h'.2]
      exact hnone
    · have hkey := (reached_key hsection hv).1
      exact Or.inr ⟨ev, (hevents ev hkey).mpr hev, hkey⟩

/-- An open episode was opened by this evaluation, with an event, or by an earlier one, and then
no rule that could judge found its pid under the bar. -/
theorem step_episode {episode : Episode}
    (h : (e.step i).1.episodes.active k = some episode) :
    (episode.started = i.now ∧ ∃ ev ∈ (e.step i).2.events, ev.key = some k ∧
      ev.repeatAfter = none) ∨
    (∃ reminded, e.episodes.active k = some ⟨episode.started, reminded⟩) ∧
      (e.Judged i k → e.AtBar i k) := by
  obtain ⟨episodes, hentry, hafter, hevents⟩ := e.step_runSection i k
  have hactive := (Prod.mk.inj hafter).1
  rw [h] at hactive
  rw [runSection] at hactive
  split at hactive
  · rename_i hnone
    refine Or.inr ⟨⟨episode.reminded, ?_⟩, ?_⟩
    · rw [← (Prod.mk.inj hentry).1, ← hactive]
    · rintro ⟨st, hst, hon, hfull | hbar⟩
      · obtain ⟨pids, verdicts, v, hsection, -⟩ := e.standings_fits i hst hfull
        simp [hnone] at hsection
      · exact ⟨st, hst, hon, hbar⟩
  · rename_i pids verdicts hsection
    rcases judgeAll_active hactive.symm with ⟨hnow, ev, hev, hnew, hv⟩ | ⟨r, hr, -, hbelow⟩
    · left
      have hkey := (reached_key hsection hv).1
      refine ⟨hnow, ev, (hevents ev hkey).mpr ?_, hkey, hnew⟩
      simpa only [runSection, hsection] using hev
    · right
      constructor
      · refine ⟨r, ?_⟩
        simp only [retain, Option.ite_none_right_eq_some] at hr
        rw [← (Prod.mk.inj hentry).1, hr.2]
      · rintro ⟨st, hst, hon, hfull | hbar⟩
        · obtain ⟨pids', verdicts', v, hsection', hv, -, subject, detail, rfl, -⟩ :=
            e.standings_fits i hst hfull
          rw [hsection, Option.some.injEq, Prod.mk.injEq] at hsection'
          refine ⟨st, hst, hon, ?_⟩
          by_contra hbar
          rw [Bool.not_eq_true] at hbar
          rw [Standing.verdict_below subject detail hon hfull hbar, ← hsection'.2] at hv
          exact hbelow hv
        · exact ⟨st, hst, hon, hbar⟩

/-- A verdict at its bar is notified of, at this evaluation if not before. -/
theorem reached_notified {x : ℕ → Input} {n : ℕ} {pids : List Pid}
    {verdicts : List (Key × Verdict)} {subject : AlertSubject} {detail : AlertDetail}
    (h : (before x n).sectionOf (x n) k.2.isApp = some (pids, verdicts))
    (hv : (k, .reached subject detail) ∈ verdicts) :
    ∃ m, ∃ ev ∈ (result x m).events, ev.key = some k := by
  by_contra hnone
  have hfresh : ∀ m, (before x m).episodes.entry k = (none, none) := by
    intro m
    induction m with
    | zero => rfl
    | succ m ih =>
      rcases step_fresh (i := x m) ih with ⟨hentry, -⟩ | hev
      · exact hentry
      · exact absurd ⟨m, hev⟩ hnone
  rcases step_fresh (i := x n) (hfresh n) with ⟨-, hquiet⟩ | hev
  · exact hquiet pids verdicts h subject detail hv
  · exact hnone ⟨n, hev⟩

end AlertEngine

end Zstats
