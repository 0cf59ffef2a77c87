import Zstats.Alerts.Bookkeeping
import Zstats.Alerts.Recording
import Zstats.Framework.Unwinding

namespace Zstats

open EpisodeState ProcessWindows

/-- The event is about the process `pid`, or about the application whose root it is. -/
def about (pid : Pid) (ev : AlertEvent) : Bool := ev.key.any fun k => decide (k.1 = pid)

section Judge

variable {now cooldown : ℕ} {pid : Pid}

/-- What a pid sees of a section: its own episodes, and the events about it. -/
def view (pid : Pid) (acc : EpisodeState × List AlertEvent) :
    (AlertKind → Ledger) × List AlertEvent :=
  (fun kind => acc.1.ledger (pid, kind), acc.2.filter (about pid))

/-- An event made of the verdict carries its key. -/
def Keyed (kv : Key × Verdict) : Prop :=
  ∀ subject detail r, kv.2 = .reached subject detail →
    (⟨subject, detail, r⟩ : AlertEvent).key = some kv.1

theorem keyed_of_fits {kv : Key × Verdict} {st : Standing} (h : Fits kv.1 st kv.2) : Keyed kv := by
  intro subject detail r hreached
  obtain ⟨-, subject', detail', hverdict, hkey⟩ := h
  rw [hreached] at hverdict
  obtain ⟨-, rfl, rfl⟩ := Standing.verdict_reached hverdict.symm
  exact hkey r

theorem about_keyed {kv : Key × Verdict} {subject : AlertSubject} {detail : AlertDetail}
    (h : Keyed kv) (hreached : kv.2 = .reached subject detail) (r : Option ℕ) :
    about pid ⟨subject, detail, r⟩ = decide (kv.1.1 = pid) := by
  simp [about, h subject detail r hreached]

/-- A verdict about another pid is not seen. -/
theorem judge_unseen {kv : Key × Verdict} (hkeyed : Keyed kv) (h : kv.1.1 ≠ pid)
    (acc : EpisodeState × List AlertEvent) : view pid (judge now cooldown acc kv) = view pid acc := by
  have hother : ∀ kind, (pid, kind) ≠ kv.1 := by
    intro kind heq
    exact h (congrArg Prod.fst heq.symm)
  cases hv : kv.2 with
  | skip => simp [judge, hv]
  | below => simp [judge, hv, view, clear_ledger, hother]
  | reached subject detail =>
    have habout : ∀ r, about pid ⟨subject, detail, r⟩ = false := by
      intro r
      rw [about_keyed hkeyed hv r, decide_eq_false h]
    simp only [judge, hv, view]
    congr 1
    · funext kind
      exact notify_other (hother kind)
    · rw [List.filter_append, List.append_right_eq_self, List.filter_eq_nil_iff]
      intro ev hev
      obtain ⟨n, -, rfl⟩ := List.mem_map.mp hev
      simp [habout]

/-- Of a verdict about the pid its view tells all. -/
theorem judge_seen {kv : Key × Verdict} (h : kv.1.1 = pid)
    {acc acc' : EpisodeState × List AlertEvent} (hview : view pid acc = view pid acc') :
    view pid (judge now cooldown acc kv) = view pid (judge now cooldown acc' kv) := by
  obtain ⟨hledgers, hevents⟩ := Prod.mk.inj hview
  have hledger : ∀ kind, acc.1.ledger (pid, kind) = acc'.1.ledger (pid, kind) :=
    fun kind => congrFun hledgers kind
  obtain ⟨⟨pid', kind'⟩, verdict⟩ := kv
  simp only at h
  subst h
  cases verdict with
  | skip => exact hview
  | below =>
    simp only [judge, view, clear_ledger, hevents, hledger]
  | reached subject detail =>
    have hnotify : (acc.1.notify (pid', kind') now cooldown).2 =
        (acc'.1.notify (pid', kind') now cooldown).2 := by
      rw [notify_own.2, notify_own.2, hledger]
    simp only [judge, view, List.filter_append, hevents, hnotify]
    congr 1
    funext kind
    by_cases hkind : kind = kind'
    · subst hkind
      rw [notify_own.1, notify_own.1, hledger]
    · have hne : (pid', kind) ≠ (pid', kind') := fun heq => hkind (congrArg Prod.snd heq)
      rw [notify_other hne, notify_other hne, hledger]

def concerns (pid : Pid) (kv : Key × Verdict) : Bool := decide (kv.1.1 = pid)

theorem judge_secure {verdicts : List (Key × Verdict)} (h : ∀ kv ∈ verdicts, Keyed kv) :
    Unwinding.Secure (judge now cooldown) (view pid) (concerns pid) verdicts := by
  constructor
  · intro kv hkv hother acc
    exact judge_unseen (h kv hkv) (of_decide_eq_false hother) acc
  · intro kv hkv hown acc acc' hview
    exact judge_seen (of_decide_eq_true hown) hview

end Judge

section Windows

variable {pid : Pid} {w w' : ProcessWindows} {l l' : List ProcessSnapshot}

/-- The windows hold the same of one pid. -/
structure SameWindow (pid : Pid) (w w' : ProcessWindows) : Prop where
  window : w.window = w'.window
  history : w.history pid = w'.history pid

/-- The entries of one pid. -/
def entriesOf (pid : Pid) (l : List ProcessSnapshot) : List ProcessSnapshot :=
  l.filter fun p => decide (p.pid = pid)

theorem mem_pids_iff : pid ∈ l.map (·.pid) ↔ entriesOf pid l ≠ [] := by
  rw [entriesOf, Ne, List.filter_eq_nil_iff, List.mem_map]
  constructor
  · intro ⟨p, hp, hpid⟩ hnone
    exact hnone p hp (decide_eq_true hpid)
  · intro hsome
    by_contra hnone
    apply hsome
    intro p hp hpid
    exact hnone ⟨p, hp, of_decide_eq_true hpid⟩

theorem mem_pids_congr (hsame : entriesOf pid l = entriesOf pid l') :
    pid ∈ l.map (·.pid) ↔ pid ∈ l'.map (·.pid) := by
  rw [mem_pids_iff, mem_pids_iff, hsame]

/-- What is recorded of a pid, and reported of it, comes of its own entries. -/
theorem record_same (now : ℕ) (h : SameWindow pid w w')
    (hsame : entriesOf pid l = entriesOf pid l') :
    SameWindow pid (w.record now l).1 (w'.record now l').1 ∧
      (w.record now l).2 pid = (w'.record now l').2 pid := by
  have hadded : added now l pid = added now l' pid := congrArg (List.map (sampleOf now)) hsame
  have hmem := mem_pids_congr hsame
  have hhistory : (w.record now l).1.history pid = (w'.record now l').1.history pid := by
    rw [record_history, record_history, h.window, h.history, hadded]
    exact if_congr hmem rfl rfl
  refine ⟨⟨h.window, hhistory⟩, ?_⟩
  rw [record_stats, record_stats, hhistory]
  exact if_congr hmem rfl rfl

end Windows

/-- Of the verdicts that each entry gets, those on a pid are on its own entries. -/
theorem filter_verdicts {α : Type*} {owner : α → Pid} {f : α → List (Key × Verdict)}
    (hf : ∀ a, ∀ kv ∈ f a, kv.1.1 = owner a) (pid : Pid) (l : List α) :
    (l.flatMap f).filter (concerns pid) =
      (l.filter fun a => decide (owner a = pid)).flatMap f := by
  induction l with
  | nil => rfl
  | cons a l ih =>
    rw [List.flatMap_cons, List.filter_append, ih]
    by_cases ha : owner a = pid
    · rw [List.filter_cons_of_pos (by simpa using ha), List.flatMap_cons]
      congr 1
      apply List.filter_eq_self.mpr
      intro kv hkv
      rw [concerns, hf a kv hkv]
      exact decide_eq_true ha
    · rw [List.filter_cons_of_neg (by simpa using ha), List.filter_eq_nil_iff.mpr, List.nil_append]
      intro kv hkv
      rw [concerns, hf a kv hkv]
      simpa using ha

/-- Two lists with the same entries of a pid, on which the same is found, get the same verdicts on
it. -/
theorem verdicts_same {α : Type*} {owner : α → Pid} {f f' : α → List (Key × Verdict)} {pid : Pid}
    {l l' : List α} (hf : ∀ a, ∀ kv ∈ f a, kv.1.1 = owner a)
    (hf' : ∀ a, ∀ kv ∈ f' a, kv.1.1 = owner a)
    (hsame : (l.filter fun a => decide (owner a = pid)) = l'.filter fun a => decide (owner a = pid))
    (hfound : ∀ a, owner a = pid → f a = f' a) :
    (l.flatMap f).filter (concerns pid) = (l'.flatMap f').filter (concerns pid) := by
  rw [filter_verdicts hf, filter_verdicts hf', hsame]
  apply List.flatMap_congr
  intro a ha
  exact hfound a (of_decide_eq_true (List.mem_filter.mp ha).2)

theorem map_eq_cases {α β : Type*} {f : α → β} {a b : Option α} (h : a.map f = b.map f) :
    (a = none ∧ b = none) ∨ ∃ x y, a = some x ∧ b = some y ∧ f x = f y := by
  cases a with
  | none =>
    cases b with
    | none => exact Or.inl ⟨rfl, rfl⟩
    | some y => cases h
  | some x =>
    cases b with
    | none => cases h
    | some y => exact Or.inr ⟨x, y, rfl, rfl, Option.some.inj h⟩

theorem bind_of_map_eq {α β γ : Type*} {f : α → β} {g g' : α → Option γ} {a b : Option α}
    (h : a.map f = b.map f) (hg : ∀ x y, f x = f y → g x = g' y) : a.bind g = b.bind g' := by
  rcases map_eq_cases h with ⟨rfl, rfl⟩ | ⟨x, y, rfl, rfl, hsame⟩
  · rfl
  · exact hg x y hsame

namespace AlertEngine

section Sections

variable {pid : Pid} {e e' : AlertEngine} {i j : Input} {app : Bool}

/-- What a pid sees of the input of a section: is it listed, and the verdicts about it. -/
def sectionView (pid : Pid) (input : Option (List Pid × List (Key × Verdict))) :
    Option (Bool × List (Key × Verdict)) :=
  input.map fun (pids, verdicts) => (decide (pid ∈ pids), verdicts.filter (concerns pid))

theorem sectionOf_secure {now cooldown : ℕ} {pids : List Pid} {verdicts : List (Key × Verdict)}
    (h : e.sectionOf i app = some (pids, verdicts)) :
    Unwinding.Secure (judge now cooldown) (view pid) (concerns pid) verdicts := by
  apply judge_secure
  intro kv hkv
  obtain ⟨-, -, st, -, hfits⟩ := e.sectionOf_fits i h hkv
  exact keyed_of_fits hfits

/-- A section does to a pid what its own part of the input says. -/
theorem runSection_view (hnow : i.now = j.now) (hcooldown : i.active.cooldown = j.active.cooldown)
    (hsection : sectionView pid (e.sectionOf i app) = sectionView pid (e'.sectionOf j app))
    {episodes episodes' : EpisodeState}
    (h : ∀ kind, episodes.ledger (pid, kind) = episodes'.ledger (pid, kind)) :
    view pid (e.runSection i app episodes) = view pid (e'.runSection j app episodes') := by
  have hstart : view pid (episodes, []) = view pid (episodes', []) := by
    simp only [view]
    congr 1
    funext kind
    exact h kind
  rw [runSection, runSection]
  cases hleft : e.sectionOf i app with
  | none =>
    cases hright : e'.sectionOf j app with
    | none => exact hstart
    | some _ =>
      rw [hleft, hright] at hsection
      cases hsection
  | some left =>
    cases hright : e'.sectionOf j app with
    | none =>
      rw [hleft, hright] at hsection
      cases hsection
    | some right =>
      obtain ⟨pids, verdicts⟩ := left
      obtain ⟨pids', verdicts'⟩ := right
      rw [hleft, hright] at hsection
      obtain ⟨hlisted, hverdicts⟩ := Prod.mk.inj (Option.some.inj hsection)
      simp only [hnow, hcooldown]
      apply Unwinding.foldl_view hverdicts (sectionOf_secure hleft) (sectionOf_secure hright)
      simp only [view]
      congr 1
      funext kind
      have hkind := h kind
      simp only [ledger] at hkind ⊢
      rw [retain_entry, retain_entry, hkind, hlisted]

end Sections

/-- The engines hold the same of one pid. -/
structure SameState (pid : Pid) (e e' : AlertEngine) : Prop where
  fast : SameWindow pid (e.fast.getD (.new window)) (e'.fast.getD (.new window))
  slow : SameWindow pid (e.slow.getD (.new slowWindow)) (e'.slow.getD (.new slowWindow))
  apps : SameWindow pid (e.apps.getD (.new slowWindow)) (e'.apps.getD (.new slowWindow))
  episodes : ∀ kind, e.episodes.ledger (pid, kind) = e'.episodes.ledger (pid, kind)

def groupEntriesOf (pid : Pid) (l : List ProcessGroupSnapshot) : List ProcessGroupSnapshot :=
  l.filter fun g => decide (g.rootPid = pid)

/-- The inputs agree on all but the entries of other pids. -/
structure SameInput (pid : Pid) (i j : Input) : Prop where
  now : i.now = j.now
  active : i.active = j.active
  totalBytes : i.snapshot.memory.totalBytes = j.snapshot.memory.totalBytes
  processes : i.snapshot.processes.map (entriesOf pid) = j.snapshot.processes.map (entriesOf pid)
  groups : i.snapshot.processGroups.map (groupEntriesOf pid) =
    j.snapshot.processGroups.map (groupEntriesOf pid)

/-- The events about a pid are those of the two sections that judge entries. -/
theorem step_about (e : AlertEngine) (i : Input) (pid : Pid) :
    (e.step i).2.events.filter (about pid) =
      (view pid (e.runSection i true e.episodes)).2 ++
        (view pid (e.runSection i false (e.runSection i true e.episodes).1)).2 := by
  have hdisks : (evaluateDisks e.diskDisarmed i.snapshot.disks i.active).2.filter (about pid) =
      [] := by
    rw [List.filter_eq_nil_iff]
    intro ev hev
    simp [about, (evaluateDisks_kind hev).1]
  have hpressure : (evaluatePressure e.pressure i.now i.snapshot i.active).2.filter (about pid) =
      [] := by
    rw [List.filter_eq_nil_iff]
    intro ev hev
    simp [about, (evaluatePressure_kind hev).1]
  rw [step_events, List.filter_append, List.filter_append, List.filter_append, hdisks, hpressure]
  rfl

theorem step_apps (e : AlertEngine) (i : Input) :
    (e.step i).1.apps = (evaluateApps e.apps e.episodes i.now i.snapshot i.active).1 := by
  unfold step evaluate
  cases i.snapshot.processes <;> rfl

section Step

variable {pid : Pid} {e e' : AlertEngine} {i j : Input} (he : SameState pid e e')
  (hi : SameInput pid i j)

theorem processVerdicts_owner {active : ActiveThresholds} {totalMemory : ℕ}
    {fastStats slowStats : StatsMap} :
    ∀ p, ∀ kv ∈ processVerdicts active totalMemory fastStats slowStats p, kv.1.1 = p.pid :=
  fun _ _ hkv => (processVerdicts_fits hkv).1

theorem appVerdicts_owner {active : ActiveThresholds} {totalMemory : ℕ} {stats : StatsMap} :
    ∀ g, ∀ kv ∈ appVerdicts active totalMemory stats g, kv.1.1 = g.rootPid :=
  fun _ _ hkv => (appVerdicts_fits hkv).1

theorem processVerdicts_congr {active : ActiveThresholds} {totalMemory : ℕ}
    {fast slow fast' slow' : StatsMap} {p : ProcessSnapshot} (hfast : fast p.pid = fast' p.pid)
    (hslow : slow p.pid = slow' p.pid) :
    processVerdicts active totalMemory fast slow p =
      processVerdicts active totalMemory fast' slow' p := by
  rw [processVerdicts, processVerdicts, hfast, hslow]

theorem appVerdicts_congr {active : ActiveThresholds} {totalMemory : ℕ} {stats stats' : StatsMap}
    {g : ProcessGroupSnapshot} (h : stats g.rootPid = stats' g.rootPid) :
    appVerdicts active totalMemory stats g = appVerdicts active totalMemory stats' g := by
  rw [appVerdicts, appVerdicts, h]

theorem asProcess_entries {l l' : List ProcessGroupSnapshot}
    (h : groupEntriesOf pid l = groupEntriesOf pid l') :
    entriesOf pid (l.map asProcess) = entriesOf pid (l'.map asProcess) := by
  have hmap : ∀ l : List ProcessGroupSnapshot,
      entriesOf pid (l.map asProcess) = (groupEntriesOf pid l).map asProcess := by
    intro l
    rw [entriesOf, List.filter_map]
    rfl
  rw [hmap, hmap, h]

include he hi

theorem processSection_view :
    sectionView pid (e.sectionOf i false) = sectionView pid (e'.sectionOf j false) := by
  simp only [sectionView, sectionOf, Bool.false_eq_true, if_false, processSection,
    Option.map_eq_bind, Option.bind_assoc]
  apply bind_of_map_eq hi.processes
  intro l l' hsame
  have hfast := (record_same j.now he.fast hsame).2
  have hslow := (record_same j.now he.slow hsame).2
  simp only [Function.comp_apply, Option.bind_some, mem_pids_congr hsame, hi.active,
    hi.totalBytes, hi.now]
  congr 2
  apply verdicts_same processVerdicts_owner processVerdicts_owner hsame
  intro p hp
  subst hp
  exact processVerdicts_congr hfast hslow

theorem appSection_view :
    sectionView pid (e.sectionOf i true) = sectionView pid (e'.sectionOf j true) := by
  simp only [sectionView, sectionOf, if_true, appSection, Option.map_bind]
  apply bind_of_map_eq hi.groups
  intro l l' hsame
  have hstats := (record_same j.now he.apps (asProcess_entries hsame)).2
  have hlisted : pid ∈ l.map (·.rootPid) ↔ pid ∈ l'.map (·.rootPid) := by
    have hmem := mem_pids_congr (asProcess_entries hsame)
    rw [List.map_map, List.map_map] at hmem
    exact hmem
  simp only [Function.comp_apply, hi.active, hi.totalBytes, hi.now]
  by_cases hon : (j.active.appCpu.anyEnabled || j.active.appMemory.anyEnabled) = true
  · rw [if_pos hon, if_pos hon]
    simp only [Option.map_some, hlisted]
    congr 2
    apply verdicts_same appVerdicts_owner appVerdicts_owner hsame
    intro g hg
    subst hg
    exact appVerdicts_congr hstats
  · rw [if_neg hon, if_neg hon]

theorem runApps_view : view pid (e.runSection i true e.episodes) =
    view pid (e'.runSection j true e'.episodes) :=
  runSection_view hi.now (congrArg _ hi.active) (appSection_view he hi) he.episodes

theorem runProcesses_view :
    view pid (e.runSection i false (e.runSection i true e.episodes).1) =
      view pid (e'.runSection j false (e'.runSection j true e'.episodes).1) := by
  apply runSection_view hi.now (congrArg _ hi.active) (processSection_view he hi)
  intro kind
  exact congrFun (congrArg Prod.fst (runApps_view he hi)) kind

theorem step_sameWindows :
    SameWindow pid ((e.step i).1.fast.getD (.new window)) ((e'.step j).1.fast.getD (.new window)) ∧
      SameWindow pid ((e.step i).1.slow.getD (.new slowWindow))
        ((e'.step j).1.slow.getD (.new slowWindow)) := by
  rcases map_eq_cases hi.processes with ⟨hleft, hright⟩ | ⟨l, l', hleft, hright, hsame⟩
  · obtain ⟨hfast, hslow, -⟩ := step_unlisted (e := e) hleft
    obtain ⟨hfast', hslow', -⟩ := step_unlisted (e := e') hright
    rw [hfast, hfast', hslow, hslow']
    exact ⟨he.fast, he.slow⟩
  · rw [step_fast hleft, step_fast hright, step_slow hleft, step_slow hright, hi.now]
    exact ⟨(record_same j.now he.fast hsame).1, (record_same j.now he.slow hsame).1⟩

theorem step_sameApps :
    SameWindow pid ((e.step i).1.apps.getD (.new slowWindow))
      ((e'.step j).1.apps.getD (.new slowWindow)) := by
  rw [step_apps, step_apps]
  rcases map_eq_cases hi.groups with ⟨hleft, hright⟩ | ⟨l, l', hleft, hright, hsame⟩
  · simp only [evaluateApps, hleft, hright]
    exact he.apps
  · simp only [evaluateApps, hleft, hright, hi.active]
    by_cases hon : (j.active.appCpu.anyEnabled || j.active.appMemory.anyEnabled) = true
    · rw [if_pos hon, if_pos hon, hi.now]
      exact (record_same j.now he.apps (asProcess_entries hsame)).1
    · rw [if_neg hon, if_neg hon]
      exact he.apps

/-- One evaluation leaves the engines in agreement on the pid. -/
theorem step_sameState : SameState pid (e.step i).1 (e'.step j).1 := by
  obtain ⟨hfast, hslow⟩ := step_sameWindows he hi
  refine ⟨hfast, hslow, step_sameApps he hi, ?_⟩
  intro kind
  rw [step_episodes, step_episodes]
  exact congrFun (congrArg Prod.fst (runProcesses_view he hi)) kind

theorem step_sameEvents :
    (e.step i).2.events.filter (about pid) = (e'.step j).2.events.filter (about pid) := by
  rw [step_about, step_about, runApps_view he hi, runProcesses_view he hi]

end Step

def processOf (pid : Pid) (s : SystemSnapshot) : Option ProcessSnapshot :=
  (s.processes.getD []).find? fun p => decide (p.pid = pid)

def groupOf (pid : Pid) (s : SystemSnapshot) : Option ProcessGroupSnapshot :=
  (s.processGroups.getD []).find? fun g => decide (g.rootPid = pid)

structure UniquePids (s : SystemSnapshot) : Prop where
  processes : ∀ l, s.processes = some l → (l.map (·.pid)).Nodup
  groups : ∀ l, s.processGroups = some l → (l.map (·.rootPid)).Nodup

/-- Two calls at one time, under the same thresholds and of snapshots that list the same of `pid`. -/
structure AgreeOn (pid : Pid) (i j : Input) : Prop where
  now : i.now = j.now
  active : i.active = j.active
  totalBytes : i.snapshot.memory.totalBytes = j.snapshot.memory.totalBytes
  listed : i.snapshot.processes.isSome = j.snapshot.processes.isSome
  grouped : i.snapshot.processGroups.isSome = j.snapshot.processGroups.isSome
  process : processOf pid i.snapshot = processOf pid j.snapshot
  group : groupOf pid i.snapshot = groupOf pid j.snapshot

theorem entries_of_find {α : Type*} {owner : α → Pid} {a b : Option (List α)} {pid : Pid}
    (ha : ∀ l, a = some l → (l.map owner).Nodup) (hb : ∀ l, b = some l → (l.map owner).Nodup)
    (hsome : a.isSome = b.isSome)
    (hfind : ((a.getD []).find? fun x => decide (owner x = pid)) =
      (b.getD []).find? fun x => decide (owner x = pid)) :
    a.map (fun l => l.filter fun x => decide (owner x = pid)) =
      b.map fun l => l.filter fun x => decide (owner x = pid) := by
  cases a with
  | none =>
    cases b with
    | none => rfl
    | some l => cases hsome
  | some l =>
    cases b with
    | none => cases hsome
    | some l' =>
      simp only [Option.getD_some] at hfind
      simp only [Option.map_some, Unwinding.filter_eq_find (ha l rfl),
        Unwinding.filter_eq_find (hb l' rfl), hfind]

theorem AgreeOn.sameInput {pid : Pid} {i j : Input} (h : AgreeOn pid i j)
    (hi : UniquePids i.snapshot) (hj : UniquePids j.snapshot) : SameInput pid i j :=
  ⟨h.now, h.active, h.totalBytes, entries_of_find hi.processes hj.processes h.listed h.process,
    entries_of_find hi.groups hj.groups h.grouped h.group⟩

/-- The events about a pid depend on its own entries alone. -/
theorem events_isolated {x y : ℕ → Input} {pid : Pid} (hx : ∀ n, UniquePids (x n).snapshot)
    (hy : ∀ n, UniquePids (y n).snapshot) (h : ∀ n, AgreeOn pid (x n) (y n)) (n : ℕ) :
    (result x n).events.filter (about pid) = (result y n).events.filter (about pid) := by
  have hinput : ∀ n, SameInput pid (x n) (y n) := fun n => (h n).sameInput (hx n) (hy n)
  have hstate : SameState pid (before x n) (before y n) := by
    refine Machine.stateAt_related ?_ ?_ n
    · exact ⟨⟨rfl, rfl⟩, ⟨rfl, rfl⟩, ⟨rfl, rfl⟩, fun _ => rfl⟩
    · intro m e e' he
      exact step_sameState he (hinput m)
  exact step_sameEvents hstate (hinput n)

/-- Every ten seconds, a busy process among others. -/
def crowdedRun (others : List ProcessSnapshot) (n : ℕ) : Input :=
  { now := n * fromSecs 10
    snapshot := snapshot (others ++ [proc 1 80 100]) 1000
    active := { ActiveThresholds.off (fromSecs 600) with cpu := .new (some 30) } }

/-- A busy process is alerted on as if it were alone. -/
theorem events_isolated_crowded :
    (result (crowdedRun [proc 3 10 20, proc 2 99 50]) 31).events.filter (about 1) =
      (result (crowdedRun []) 31).events.filter (about 1) :=
  events_isolated (x := crowdedRun [proc 3 10 20, proc 2 99 50]) (y := crowdedRun [])
    (fun _ => ⟨fun _ hl => by cases hl; decide, fun _ hl => by cases hl⟩)
    (fun _ => ⟨fun _ hl => by cases hl; decide, fun _ hl => by cases hl⟩)
    (fun _ => ⟨rfl, rfl, rfl, rfl, rfl, rfl, rfl⟩) 31

end AlertEngine

end Zstats
