import Zstats.Framework.Machine
import Zstats.Settings.Targeted
import Zstats.Settings.Toml

namespace Zstats

open FloatText (Number)

namespace Settings

/-- `toml::to_string_pretty`, where the tree can be printed, and `toml::from_str`. -/
structure TomlCrate where
  toString : Toml → Option String
  fromStr : String → Option Toml

/-- Trees that read alike: a number of single precision that is printed by its own digits comes
back as another double. -/
def Toml.Alike (v v' : Toml) : Prop := ∀ platform, fromToml platform v = fromToml platform v'

/-- What is relied on: what is printed of a configuration is parsed as a tree that reads alike. -/
structure TomlCrate.Lawful (toml : TomlCrate) : Prop where
  inverts : ∀ file text, toml.toString (toToml file) = some text →
    ∃ v, toml.fromStr text = some v ∧ v.Alike (toToml file)

/-- What `read_to_string` answers. -/
inductive Reading where
  | failed
  | notFound
  | content (text : String)

inductive ConfigError where
  | read
  | parse
  | write
  deriving DecidableEq, Repr

def load (toml : TomlCrate) (platform : Platform) : Reading → Except ConfigError File
  | .failed => .error .read
  | .notFound => .ok (FileConfig.default Number Number)
  | .content text =>
    match (toml.fromStr text).bind (fromToml platform) with
    | some config => .ok config
    | none => .error .parse

/-- `CollectorConfig::load_from_dir`, which reads no other section. -/
def loadFromDir (toml : TomlCrate) (platform : Platform) :
    Reading → Except ConfigError (CollectorConfig Number)
  | .failed => .error .read
  | .notFound => .ok (.default Number platform.windows)
  | .content text =>
    match (toml.fromStr text).bind fun v => v.entries.bind fun entries =>
      readSection (readCollector platform) (.default Number platform.windows) entries
        "collector" with
    | some config => .ok config
    | none => .error .parse

/-- What becomes of a write: a file that is opened for it is empty from then on. -/
inductive Writing where
  | done
  | refused
  | torn (left : String)
  deriving DecidableEq

/-- The outcome, and the file after it. -/
def save (toml : TomlCrate) (dirMade : Bool) (writing : Writing) (disk : Option String)
    (config : File) : Except ConfigError Unit × Option String :=
  if !dirMade then (.error .write, disk)
  else
    match toml.toString (toToml config) with
    | none => (.error .parse, disk)
    | some content =>
      match writing with
      | .done => (.ok (), some content)
      | .refused => (.error .write, disk)
      | .torn left => (.error .write, some left)

structure ActionState where
  config : File
  modified : Bool
  list : Bool

/-- What becomes of the state once an edit is taken. -/
def ActionState.edit (s : ActionState) (edit : Edit String) : Except String ActionState :=
  match edit.on s.config with
  | (.ok _, config) => .ok { s with config := config, modified := true }
  | (.error e, _) => .error e

/-- The loop of `run_config_actions` over the arguments. -/
def configActions (platform : Platform) : List String → ActionState → Except String ActionState
  | [], s => .ok s
  | arg :: rest, s =>
    if arg = "-add" ∨ arg = "--add" then
      match rest with
      | [] => .error "-add requires <key> <value> (or key=value)"
      | first :: rest =>
        match splitOnce first with
        | some (key, value) =>
          match s.edit (applyAdd platform key value) with
          | .ok s => configActions platform rest s
          | .error e => .error e
        | none =>
          match rest with
          | [] => .error ("-add " ++ first ++ " requires a value")
          | value :: rest =>
            match s.edit (applyAdd platform first value) with
            | .ok s => configActions platform rest s
            | .error e => .error e
    else if arg = "-remove" ∨ arg = "--remove" then
      match rest with
      | [] => .error "-remove requires <key> [name]"
      | [key] => s.edit (applyRemove platform key none)
      | key :: next :: rest =>
        -- an argument that starts with a dash is the next action
        if next.toList.head? = some '-' then
          match s.edit (applyRemove platform key none) with
          | .ok s => configActions platform (next :: rest) s
          | .error e => .error e
        else
          match s.edit (applyRemove platform key (some next)) with
          | .ok s => configActions platform rest s
          | .error e => .error e
    else if arg = "-list" ∨ arg = "--list" then configActions platform rest { s with list := true }
    else .error ("cannot combine " ++ arg ++ " with config actions (use -h for help)")

/-- One run of the program for its configuration, and how the disk takes it. -/
structure Invocation where
  args : List String
  readable : Bool
  dirMade : Bool
  writing : Writing

def reading (readable : Bool) (disk : Option String) : Reading :=
  if !readable then .failed
  else
    match disk with
    | none => .notFound
    | some text => .content text

/-- The file after it, and whether it succeeds. -/
def runConfigActions (toml : TomlCrate) (platform : Platform) (disk : Option String)
    (run : Invocation) : Option String × Bool :=
  match load toml platform (reading run.readable disk) with
  | .error _ => (disk, false)
  | .ok config =>
    match configActions platform run.args ⟨config, false, false⟩ with
    | .error _ => (disk, false)
    | .ok s =>
      if s.modified then
        let saved := save toml run.dirMade run.writing disk s.config
        (saved.2, saved.1.isOk)
      else (disk, true)

section Edits

variable {platform : Platform} {file : File}

def Place.Kept : (p : Place) → p.type → Prop
  | .daemon f, x => f.Kept x
  | .collector f, x => f.Kept x
  | .alerts f, x => AlertsEntry.Kept (.inl f) x
  | .entry m _, x => ∀ pct, x = some pct → m.Kept pct

theorem effectiveCollector_kept (h : Kept file) (f : CollectorField) :
    f.Kept (f.get (effectiveCollector platform file)) := by
  rw [effectiveCollector]
  cases hcollector : file.collector with
  | none => exact defaultCollector_kept platform.windows f
  | some c => exact h.collector c hcollector f

theorem putEntry_kept {m : OverrideMap} {overrides : Overrides Number}
    (h : AlertsEntry.Kept (.inr m) overrides) {name : String} {x : Option Number}
    (hx : ∀ pct, x = some pct → m.Kept pct) :
    AlertsEntry.Kept (.inr m) (Place.putEntry overrides name x) := by
  intro other pct hpct
  by_cases hname : other = name
  · rw [hname, Place.lookup_putEntry] at hpct
    exact hx pct hpct
  · rw [Place.lookup_putEntry_ne overrides hname] at hpct
    exact h other pct hpct

theorem alertsPut_kept {a : AlertsConfig Number Number} (h : ∀ f : AlertsEntry, f.Kept (f.get a))
    {f : AlertsEntry} {x : AlertsEntry.type f} (hx : f.Kept x) (g : AlertsEntry) :
    g.Kept (g.get (AlertsEntry.put a f x)) := by
  by_cases hg : g = f
  · subst hg
    rw [AlertsEntry.get_put]
    exact hx
  · rw [AlertsEntry.get_put_ne a hg]
    exact h g

theorem daemonPut_kept {d : DaemonConfig} (h : ∀ f : DaemonField, f.Kept (f.get d))
    {f : DaemonField} {x : f.type} (hx : f.Kept x) (g : DaemonField) :
    g.Kept (g.get (f.put d x)) := by
  by_cases hg : g = f
  · subst hg
    rw [g.get_put]
    exact hx
  · rw [f.get_put_ne d hg]
    exact h g

theorem collectorPut_kept {c : CollectorConfig Number}
    (h : ∀ f : CollectorField, f.Kept (f.get c)) {f : CollectorField} {x : f.type} (hx : f.Kept x)
    (g : CollectorField) : g.Kept (g.get (f.put c x)) := by
  by_cases hg : g = f
  · subst hg
    rw [g.get_put]
    exact hx
  · rw [f.get_put_ne c hg]
    exact h g

/-- A value that the file keeps may be put at its place. -/
theorem put_kept (h : Kept file) {p : Place} {x : p.type} (hx : p.Kept x) :
    Kept (p.put platform file x) := by
  cases p with
  | daemon f => exact ⟨h.collector, fun g => daemonPut_kept h.daemon hx g, h.alerts⟩
  | collector f =>
    refine ⟨?_, h.daemon, h.alerts⟩
    intro c hc g
    obtain rfl := Option.some.inj hc
    exact collectorPut_kept (effectiveCollector_kept h) hx g
  | alerts f => exact ⟨h.collector, h.daemon, fun g => alertsPut_kept h.alerts hx g⟩
  | entry m name =>
    have hentry := @putEntry_kept m _ (h.alerts (.inr m)) name x hx
    exact ⟨h.collector, h.daemon, fun g => alertsPut_kept h.alerts hentry g⟩

theorem default_place_kept (p : Place) : p.Kept (p.default platform) := by
  cases p with
  | daemon f => exact default_kept.daemon f
  | collector f => exact effectiveCollector_kept default_kept f
  | alerts f => exact default_kept.alerts (.inl f)
  | entry m name =>
    rw [default_entry]
    intro pct hpct
    cases hpct

/-- An edit that is taken puts a value at `p` that the file keeps. -/
def PutsKept (platform : Platform) (edit : Edit String) (p : Place) : Prop :=
  ∀ file s file', edit.on file = (.ok s, file') → ∃ x, p.Kept x ∧ file' = p.put platform file x

variable {α : Type}

theorem putsKept_daemon (f : DaemonField) (key value : String) {parsed : Except String α}
    (write : DaemonConfig → α → DaemonConfig) (x : α → f.type)
    (hwrite : ∀ d a, write d a = f.put d (x a)) (hx : ∀ a, parsed = .ok a → f.Kept (x a)) :
    PutsKept platform (assigned key value (setDaemon parsed write)) (.daemon f) := by
  intro file s file' h
  cases parsed with
  | error e => cases h
  | ok a =>
    refine ⟨x a, hx a rfl, ?_⟩
    rw [← (Prod.mk.inj h).2]
    exact congrArg (fun d => { file with daemon := d }) (hwrite _ a)

theorem putsKept_collector (f : CollectorField) (key value : String) {parsed : Except String α}
    (write : CollectorConfig Number → α → CollectorConfig Number) (x : α → f.type)
    (hwrite : ∀ c a, write c a = f.put c (x a)) (hx : ∀ a, parsed = .ok a → f.Kept (x a)) :
    PutsKept platform (assigned key value (setCollector platform parsed write))
      (.collector f) := by
  intro file s file' h
  cases parsed with
  | error e => cases h
  | ok a =>
    refine ⟨x a, hx a rfl, ?_⟩
    rw [← (Prod.mk.inj h).2]
    exact congrArg (fun c => { file with collector := some c }) (hwrite _ a)

theorem putsKept_alerts (f : AlertsField) (key value : String) {parsed : Except String α}
    (write : AlertsConfig Number Number → α → AlertsConfig Number Number) (x : α → f.type)
    (hwrite : ∀ c a, write c a = f.put c (x a))
    (hx : ∀ a, parsed = .ok a → AlertsEntry.Kept (.inl f) (x a)) :
    PutsKept platform (assigned key value (setAlerts parsed write)) (.alerts f) := by
  intro file s file' h
  cases parsed with
  | error e => cases h
  | ok a =>
    refine ⟨x a, hx a rfl, ?_⟩
    rw [← (Prod.mk.inj h).2]
    exact congrArg (fun a => { file with alerts := a }) (hwrite _ a)

theorem putsKept_bytes (f : AlertsField) (key value pctKey : String)
    (write : AlertsConfig Number Number → Nat → AlertsConfig Number Number) (x : Nat → f.type)
    (hwrite : ∀ c a, write c a = f.put c (x a))
    (hx : ∀ a, parseBytes key value = .ok a → AlertsEntry.Kept (.inl f) (x a)) :
    PutsKept platform (addBytes key value pctKey write) (.alerts f) := by
  intro file s file' h
  rw [addBytes] at h
  cases hparsed : parseBytes key value with
  | error e =>
    rw [hparsed] at h
    cases h
  | ok a =>
    rw [hparsed] at h
    refine ⟨x a, hx a hparsed, ?_⟩
    rw [← (Prod.mk.inj h).2]
    exact congrArg (fun a => { file with alerts := a }) (hwrite _ a)

theorem putsKept_percentage (f : AlertsField) (m : OverrideMap) (key value what : String)
    (fromStr : List Char → Option Number) (display : Number → String)
    (write : AlertsConfig Number Number → Number → AlertsConfig Number Number)
    (insert : AlertsConfig Number Number → String → Number → AlertsConfig Number Number)
    (x : Number → f.type) (y : Number → Number)
    (hwrite : ∀ c a, write c a = f.put c (x a))
    (hinsert : ∀ c name a, insert c name a =
      m.put c (Place.putEntry (m.get c) name (some (y a))))
    (hx : ∀ value a, parse fromStr key value = .ok a → AlertsEntry.Kept (.inl f) (x a))
    (hy : ∀ value a, parse fromStr key value = .ok a → m.Kept (y a)) :
    PutsKept platform (addPercentage key value what fromStr display write insert)
      (overridable f m value) := by
  intro file s file' h
  rw [addPercentage] at h
  rw [overridable]
  cases hsplit : splitOnce value with
  | none =>
    rw [hsplit] at h
    dsimp only at h ⊢
    cases hparsed : parse fromStr key value with
    | error e =>
      rw [hparsed] at h
      cases h
    | ok a =>
      rw [hparsed] at h
      refine ⟨x a, hx value a hparsed, ?_⟩
      rw [← (Prod.mk.inj h).2]
      exact congrArg (fun a => { file with alerts := a }) (hwrite _ a)
  | some parts =>
    obtain ⟨name, pct⟩ := parts
    rw [hsplit] at h
    dsimp only at h ⊢
    by_cases hname : trimmed name = ""
    · rw [if_pos hname] at h
      cases h
    · rw [if_neg hname] at h
      cases hpattern : checkNamePattern key (trimmed name) with
      | error e =>
        rw [hpattern] at h
        cases h
      | ok _ =>
        rw [hpattern] at h
        cases hparsed : parse fromStr key pct with
        | error e =>
          rw [hparsed] at h
          cases h
        | ok a =>
          rw [hparsed] at h
          refine ⟨some (y a), ?_, ?_⟩
          · intro pct' hpct
            obtain rfl := Option.some.inj hpct
            exact hy pct a hparsed
          · rw [← (Prod.mk.inj h).2]
            exact congrArg (fun a => { file with alerts := a }) (hinsert _ _ a)

theorem parse_ok {fromStr : List Char → Option α} {key value : String} {x : α}
    (h : parse fromStr key value = .ok x) : ∃ text, fromStr text = some x := by
  rw [parse] at h
  cases hread : fromStr (Text.trim value.toList) with
  | none =>
    rw [hread] at h
    cases h
  | some y =>
    rw [hread] at h
    obtain rfl := Except.ok.inj h
    exact ⟨_, hread⟩

theorem parseF32_kept {key value : String} {x : Number} (h : parse parseF32 key value = .ok x) :
    SingleKept x := by
  obtain ⟨text, htext⟩ := parse_ok h
  exact FloatText.single.holds_parse (by decide) htext

theorem parseU64_kept {key value : String} {n : ℕ} (h : parse parseU64 key value = .ok n) :
    CountKept n := by
  obtain ⟨text, htext⟩ := parse_ok h
  have hle := Text.parseUnsigned_le htext
  rw [u64Max] at hle
  rw [CountKept]
  omega

theorem asF32_kept (x : Number) : SingleKept (asF32 x) := FloatText.single.holds_cast (by decide) x

theorem millis_kept {key value : String} {d : ℕ} (h : millis key value = .ok d) :
    DurationKept d := by
  rw [millis] at h
  cases hparsed : parseDuration value with
  | error e =>
    rw [hparsed] at h
    cases h
  | ok d' =>
    rw [hparsed] at h
    obtain rfl := Except.ok.inj h
    exact parseDuration_kept hparsed

theorem positiveInterval_kept {key value : String} {d : ℕ}
    (h : positiveInterval key value = .ok d) : DurationKept d := by
  rw [positiveInterval] at h
  cases hparsed : millis key value with
  | error e =>
    rw [hparsed] at h
    cases h
  | ok d' =>
    rw [hparsed] at h
    dsimp only at h
    split_ifs at h
    obtain rfl := Except.ok.inj h
    exact millis_kept hparsed

theorem boostCores_kept {key value : String} {x : Number} (h : boostCores key value = .ok x) :
    SingleKept x := by
  rw [boostCores] at h
  cases hparsed : parse parseF32 key value with
  | error e =>
    rw [hparsed] at h
    cases h
  | ok x' =>
    rw [hparsed] at h
    dsimp only at h
    split_ifs at h
    obtain rfl := Except.ok.inj h
    exact parseF32_kept hparsed

theorem parseBytes_kept {key value : String} {b : ℕ} (h : parseBytes key value = .ok b) :
    SizeKept b := by
  rw [parseBytes] at h
  cases hparsed : parseSize value with
  | error e =>
    rw [hparsed] at h
    cases h
  | ok b' =>
    rw [hparsed] at h
    obtain rfl := Except.ok.inj h
    exact parseSize_kept hparsed

theorem some_kept {P : α → Prop} {a : α} (h : P a) : ∀ b, some a = some b → P b := by
  intro b hb
  obtain rfl := Option.some.inj hb
  exact h

/-- Each key puts only what the file keeps. -/
theorem applyAdd_putsKept {key value : String} {p : Place} (h : named key value = some p) :
    PutsKept platform (applyAdd platform key value) p := by
  unfold named at h
  split at h <;> cases h <;> dsimp only [applyAdd]
  · exact putsKept_daemon .interval _ _ _ some (fun _ _ => rfl) fun _ hd =>
      some_kept (positiveInterval_kept hd)
  · exact putsKept_daemon .history _ _ _ some (fun _ _ => rfl) fun _ hd => some_kept (millis_kept hd)
  · exact putsKept_daemon .detach _ _ _ some (fun _ _ => rfl) fun _ _ => trivial
  · exact putsKept_collector .processRefreshInterval _ _ _ id (fun _ _ => rfl) fun _ => millis_kept
  · exact putsKept_collector .diskIoRefreshInterval _ _ _ id (fun _ _ => rfl) fun _ => millis_kept
  · exact putsKept_collector .diskStorageRefreshInterval _ _ _ id (fun _ _ => rfl) fun _ =>
      millis_kept
  · exact putsKept_collector .networkRefreshInterval _ _ _ id (fun _ _ => rfl) fun _ => millis_kept
  · exact putsKept_collector .temperatureRefreshInterval _ _ _ id (fun _ _ => rfl) fun _ =>
      millis_kept
  · exact putsKept_collector .cpuFrequencyRefreshInterval _ _ _ id (fun _ _ => rfl) fun _ =>
      millis_kept
  · exact putsKept_collector .batteryRefreshInterval _ _ _ id (fun _ _ => rfl) fun _ => millis_kept
  · exact putsKept_collector .gpuRefreshInterval _ _ _ id (fun _ _ => rfl) fun _ => millis_kept
  · exact putsKept_collector .driveRefreshInterval _ _ _ id (fun _ _ => rfl) fun _ => millis_kept
  · exact putsKept_collector .processBoostCpuCores _ _ _ some (fun _ _ => rfl) fun _ hx =>
      some_kept (boostCores_kept hx)
  · exact putsKept_collector .maxProcesses _ _ _ id (fun _ _ => rfl) fun _ => parseU64_kept
  · exact putsKept_collector .collectProcesses _ _ _ id (fun _ _ => rfl) fun _ _ => trivial
  · exact putsKept_collector .collectDisks _ _ _ id (fun _ _ => rfl) fun _ _ => trivial
  · exact putsKept_collector .collectNetworks _ _ _ id (fun _ _ => rfl) fun _ _ => trivial
  · exact putsKept_collector .collectTemperatures _ _ _ id (fun _ _ => rfl) fun _ _ => trivial
  · exact putsKept_collector .collectBattery _ _ _ id (fun _ _ => rfl) fun _ _ => trivial
  · exact putsKept_collector .collectGpu _ _ _ id (fun _ _ => rfl) fun _ _ => trivial
  · exact putsKept_collector .collectDrives _ _ _ id (fun _ _ => rfl) fun _ _ => trivial
  · exact putsKept_collector .collectProcessDiskIo _ _ _ id (fun _ _ => rfl) fun _ _ => trivial
  · exact putsKept_collector .collectProcessGroups _ _ _ id (fun _ _ => rfl) fun _ _ => trivial
  · exact putsKept_collector .dedupeDisks _ _ _ id (fun _ _ => rfl) fun _ _ => trivial
  · exact putsKept_collector .perCoreCpu _ _ _ id (fun _ _ => rfl) fun _ _ => trivial
  · exact putsKept_percentage .cpu .cpu _ _ _ _ _ _ _ (fun a => some (asF32 a)) asF32
      (fun _ _ => rfl) (fun _ _ _ => rfl) (fun _ a _ => some_kept (asF32_kept a))
      fun _ a _ => asF32_kept a
  · exact putsKept_percentage .mem .mem _ _ _ _ _ _ _ some id
      (fun _ _ => rfl) (fun _ _ _ => rfl) (fun _ _ _ => trivial) fun _ _ _ => trivial
  · exact putsKept_percentage .appCpu .appCpu _ _ _ _ _ _ _ (fun a => some (asF32 a)) asF32
      (fun _ _ => rfl) (fun _ _ _ => rfl) (fun _ a _ => some_kept (asF32_kept a))
      fun _ a _ => asF32_kept a
  · exact putsKept_percentage .appMem .appMem _ _ _ _ _ _ _ some id
      (fun _ _ => rfl) (fun _ _ _ => rfl) (fun _ _ _ => trivial) fun _ _ _ => trivial
  · exact putsKept_percentage .disk .disk _ _ _ _ _ _ _ some id
      (fun _ _ => rfl) (fun _ _ _ => rfl) (fun _ _ ha => some_kept (parseF32_kept ha))
      fun _ _ ha => parseF32_kept ha
  · exact putsKept_bytes .memBytes _ _ _ _ some (fun _ _ => rfl) fun _ hb =>
      some_kept (parseBytes_kept hb)
  · exact putsKept_bytes .appMemBytes _ _ _ _ some (fun _ _ => rfl) fun _ hb =>
      some_kept (parseBytes_kept hb)
  · exact putsKept_alerts .pressure _ _ _ some (fun _ _ => rfl) fun _ _ => trivial
  · exact putsKept_alerts .cooldown _ _ _ some (fun _ _ => rfl) fun _ hd =>
      some_kept (millis_kept hd)
  · exact putsKept_alerts .template _ _ _ some (fun _ _ => rfl) fun _ _ => trivial

end Edits

/-- An edit that is taken leaves a file that is kept. -/
def KeepsKept (edit : Edit String) : Prop :=
  ∀ file s file', Kept file → edit.on file = (.ok s, file') → Kept file'

section Keeps

variable (platform : Platform)

theorem applyAdd_keeps (key value : String) : KeepsKept (applyAdd platform key value) := by
  intro file s file' h hon
  cases hnamed : named key value with
  | none =>
    rw [applyAdd_unknown platform hnamed] at hon
    cases hon
  | some p =>
    obtain ⟨x, hx, rfl⟩ := applyAdd_putsKept hnamed file s file' hon
    exact put_kept h hx

theorem without_kept {file : File} (h : Kept file) (m : OverrideMap) (name : String) :
    Kept (without m name file) := by
  have hentry := @putEntry_kept m _ (h.alerts (.inr m)) name none fun _ hpct => by cases hpct
  exact ⟨h.collector, h.daemon, fun g => alertsPut_kept h.alerts hentry g⟩

theorem applyRemove_keeps (key : String) (name : Option String) :
    KeepsKept (applyRemove platform key name) := by
  intro file s file' h hon
  cases name with
  | none =>
    cases hnamed : named key "" with
    | none =>
      rw [applyRemove_unknown platform hnamed] at hon
      cases hon
    | some p =>
      obtain ⟨s', hs'⟩ := applyRemove_resets platform hnamed file
      rw [hs'] at hon
      rw [← (Prod.mk.inj hon).2]
      exact put_kept h (default_place_kept p)
  | some name =>
    cases hmap : overrideMap key with
    | none =>
      rw [applyRemove_no_names platform hmap] at hon
      cases hon
    | some m =>
      rw [applyRemove_name platform hmap] at hon
      rw [← (Prod.mk.inj hon).2]
      exact without_kept h m name

theorem edit_ok {s s' : ActionState} {edit : Edit String} (h : s.edit edit = .ok s') :
    ∃ message config, edit.on s.config = (.ok message, config) ∧
      s' = { s with config := config, modified := true } := by
  rw [ActionState.edit] at h
  cases hon : edit.on s.config with
  | mk result config =>
    rw [hon] at h
    cases result with
    | error e => cases h
    | ok message => exact ⟨message, config, rfl, (Except.ok.inj h).symm⟩

/-- What survives each edit by a key and does not look at `list` survives the whole loop. -/
theorem configActions_induct {P : ActionState → Prop} (hlist : ∀ s, P s → P { s with list := true })
    (hadd : ∀ key value s s', P s → s.edit (applyAdd platform key value) = .ok s' → P s')
    (hremove : ∀ key name s s', P s → s.edit (applyRemove platform key name) = .ok s' → P s')
    (args : List String) (s : ActionState) (h : P s) {s' : ActionState}
    (hs' : configActions platform args s = .ok s') : P s' := by
  fun_induction configActions platform args s with
  | case1 s =>
    obtain rfl := Except.ok.inj hs'
    exact h
  | case3 arg s _ first rest key value _ t hedit ih =>
    apply ih _ hs'
    exact hadd key value s t h hedit
  | case6 arg s _ first _ value rest t hedit ih =>
    apply ih _ hs'
    exact hadd first value s t h hedit
  | case9 arg s _ _ key => exact hremove key none s s' h hs'
  | case10 arg s _ _ key next rest _ t hedit ih =>
    apply ih _ hs'
    exact hremove key none s t h hedit
  | case12 arg s _ _ key next rest _ t hedit ih =>
    apply ih _ hs'
    exact hremove key (some next) s t h hedit
  | case14 arg rest s _ _ _ ih => exact ih (hlist s h) hs'
  | _ => cases hs'

theorem configActions_kept {args : List String} {s s' : ActionState} (h : Kept s.config)
    (hs' : configActions platform args s = .ok s') : Kept s'.config := by
  refine configActions_induct (P := fun s => Kept s.config) platform (fun _ h => h) ?_ ?_ args s h hs'
  · intro key value s s' h hedit
    obtain ⟨message, config, hon, rfl⟩ := edit_ok hedit
    exact applyAdd_keeps platform key value s.config message config h hon
  · intro key name s s' h hedit
    obtain ⟨message, config, hon, rfl⟩ := edit_ok hedit
    exact applyRemove_keeps platform key name s.config message config h hon

/-- Without an edit that is taken the configuration is what it was. -/
theorem configActions_unmodified {args : List String} {config : File} {s' : ActionState}
    (hs' : configActions platform args ⟨config, false, false⟩ = .ok s')
    (hmodified : s'.modified = false) : s'.config = config := by
  have hsame : s'.modified = false → s'.config = config := by
    refine configActions_induct (P := fun s => s.modified = false → s.config = config) platform
      (fun _ h => h) ?_ ?_ args ⟨config, false, false⟩ (fun _ => rfl) hs'
    · intro key value s s' _ hedit
      obtain ⟨message, config', -, rfl⟩ := edit_ok hedit
      simp
    · intro key name s s' _ hedit
      obtain ⟨message, config', -, rfl⟩ := edit_ok hedit
      simp
  exact hsame hmodified

end Keeps

/-- Whether the disk takes a configuration. -/
def Invocation.commits (toml : TomlCrate) (run : Invocation) (config : File) : Bool :=
  run.dirMade && (toml.toString (toToml config)).isSome && decide (run.writing = .done)

/-- What an invocation is for: the configuration that is kept, or the error of the file that it
cannot be read from, edited in memory. All of its edits are taken, or none. -/
def edited (toml : TomlCrate) (platform : Platform) (config : Except ConfigError File)
    (run : Invocation) : Except ConfigError File × Bool :=
  match config with
  | .error e => (.error e, false)
  | .ok config =>
    if !run.readable then (.ok config, false)
    else
      match configActions platform run.args ⟨config, false, false⟩ with
      | .error _ => (.ok config, false)
      | .ok s =>
        if s.modified && !run.commits toml s.config then (.ok config, false)
        else (.ok s.config, true)

section Refines

variable {toml : TomlCrate} {platform : Platform} {disk : Option String} {file : File}

/-- The configuration of the file as it is. -/
def loaded (toml : TomlCrate) (platform : Platform) (disk : Option String) :
    Except ConfigError File :=
  load toml platform (reading true disk)

theorem load_kept (h : loaded toml platform disk = .ok file) : Kept file := by
  cases disk with
  | none =>
    obtain rfl := Except.ok.inj h
    exact default_kept
  | some text =>
    rw [loaded, reading, if_neg (by decide)] at h
    dsimp only [load] at h
    cases hread : (toml.fromStr text).bind (fromToml platform) with
    | none =>
      rw [hread] at h
      cases h
    | some config =>
      rw [hread] at h
      obtain rfl := Except.ok.inj h
      obtain ⟨v, -, hv⟩ := Option.bind_eq_some_iff.mp hread
      exact fromToml_kept hv

theorem loaded_printed (hlawful : toml.Lawful) (h : Kept file) {text : String}
    (htext : toml.toString (toToml file) = some text) :
    loaded toml platform (some text) = .ok file := by
  obtain ⟨v, hparse, halike⟩ := hlawful.inverts file text htext
  have hread : (toml.fromStr text).bind (fromToml platform) = some file := by
    rw [hparse, Option.bind_some, halike platform]
    exact fromToml_toToml h
  rw [loaded, reading, if_neg (by decide)]
  dsimp only [load]
  rw [hread]

/-- A file that is written is read back; one that is not written stays. -/
theorem save_loaded (hlawful : toml.Lawful) (h : Kept file) (run : Invocation)
    (huntorn : ∀ left, run.writing ≠ .torn left) :
    let saved := save toml run.dirMade run.writing disk file
    saved.1.isOk = run.commits toml file ∧
      loaded toml platform saved.2 =
        if run.commits toml file then .ok file else loaded toml platform disk := by
  dsimp only
  rw [save, Invocation.commits]
  cases run.dirMade with
  | false => exact ⟨rfl, rfl⟩
  | true =>
    cases htext : toml.toString (toToml file) with
    | none => exact ⟨rfl, rfl⟩
    | some text =>
      cases hwriting : run.writing with
      | done => exact ⟨rfl, loaded_printed hlawful h htext⟩
      | refused => exact ⟨rfl, rfl⟩
      | torn left => exact absurd hwriting (huntorn left)

/-- An invocation does to the file what it is for. -/
theorem runConfigActions_edited (hlawful : toml.Lawful) (disk : Option String) (run : Invocation)
    (huntorn : ∀ left, run.writing ≠ .torn left) :
    (runConfigActions toml platform disk run).2 =
        (edited toml platform (loaded toml platform disk) run).2 ∧
      loaded toml platform (runConfigActions toml platform disk run).1 =
        (edited toml platform (loaded toml platform disk) run).1 := by
  rw [runConfigActions]
  cases hload : loaded toml platform disk with
  | error e =>
    have hread : ∃ e, load toml platform (reading run.readable disk) = .error e := by
      cases run.readable with
      | false => exact ⟨.read, rfl⟩
      | true => exact ⟨e, hload⟩
    obtain ⟨e', he'⟩ := hread
    rw [he']
    exact ⟨rfl, hload⟩
  | ok config =>
    rw [edited]
    cases hreadable : run.readable with
    | false => exact ⟨rfl, hload⟩
    | true =>
      have hread : load toml platform (reading true disk) = .ok config := hload
      rw [hread]
      dsimp only
      cases hactions : configActions platform run.args ⟨config, false, false⟩ with
      | error e => exact ⟨rfl, hload⟩
      | ok s =>
        have hkept := configActions_kept platform (load_kept hload) hactions
        obtain ⟨hok, hsaved⟩ := @save_loaded toml platform disk s.config hlawful hkept run huntorn
        cases hmodified : s.modified with
        | false =>
          have hsame := configActions_unmodified platform hactions hmodified
          simp [hmodified, hsame, hload]
        | true =>
          cases hcommits : run.commits toml s.config with
          | false =>
            rw [hcommits] at hok hsaved
            simp [hmodified, hcommits, hok, hsaved, hload]
          | true =>
            rw [hcommits] at hok hsaved
            simp [hmodified, hcommits, hok, hsaved]

/-- A section that may be absent, and the same one with defaults. -/
theorem readSection_getD {ρ : Type} (decode : List (String × Toml) → Option ρ) (default : ρ)
    {entries : List (String × Toml)} {key : String} {r : Option ρ}
    (h : readSection (fun entries => (decode entries).map some) none entries key = some r) :
    readSection decode default entries key = some (r.getD default) := by
  rw [readSection] at h ⊢
  cases hlookup : entries.lookup key with
  | none =>
    rw [hlookup] at h
    obtain rfl := Option.some.inj h
    rfl
  | some v =>
    rw [hlookup] at h
    obtain ⟨inner, hinner, hmap⟩ := Option.bind_eq_some_iff.mp h
    obtain ⟨x, hx, rfl⟩ := Option.map_eq_some_iff.mp hmap
    dsimp only
    rw [hinner, Option.bind_some, hx]
    rfl

/-- The collector settings that the library loads are those of the file. -/
theorem loadFromDir_loaded (h : loaded toml platform disk = .ok file) :
    loadFromDir toml platform (reading true disk) = .ok (effectiveCollector platform file) := by
  cases disk with
  | none =>
    obtain rfl := Except.ok.inj h
    rfl
  | some text =>
    rw [loaded, reading, if_neg (by decide)] at h
    rw [reading, if_neg (by decide)]
    dsimp only [load, loadFromDir] at h ⊢
    cases hread : (toml.fromStr text).bind (fromToml platform) with
    | none =>
      rw [hread] at h
      cases h
    | some config =>
      rw [hread] at h
      obtain rfl := Except.ok.inj h
      obtain ⟨v, hv, hsections⟩ := Option.bind_eq_some_iff.mp hread
      obtain ⟨entries, hentries, hsections⟩ := Option.bind_eq_some_iff.mp hsections
      obtain ⟨collector, hcollector, hsections⟩ := Option.bind_eq_some_iff.mp hsections
      obtain ⟨daemon, -, hsections⟩ := Option.bind_eq_some_iff.mp hsections
      obtain ⟨alerts, -, hfile⟩ := Option.bind_eq_some_iff.mp hsections
      obtain rfl := Option.some.inj hfile
      have hfull := readSection_getD (readCollector platform) (.default Number platform.windows)
        hcollector
      rw [hv, Option.bind_some, hentries, Option.bind_some, hfull]
      rfl

/-- After any invocations, whatever the file was at first, it holds what they make of its
configuration in memory, of which the library reads the collector settings, and each of them
succeeds just as it does there. -/
theorem file_refines_memory (hlawful : toml.Lawful) (disk : Option String) (run : ℕ → Invocation)
    (huntorn : ∀ n left, (run n).writing ≠ .torn left) (n : ℕ) :
    let onDisk := Machine.stateAt (runConfigActions toml platform) disk run n
    let inMemory := Machine.stateAt (edited toml platform) (loaded toml platform disk) run n
    loaded toml platform onDisk = inMemory ∧
      Machine.outAt (runConfigActions toml platform) disk run n =
        Machine.outAt (edited toml platform) (loaded toml platform disk) run n ∧
      ∀ file, inMemory = .ok file →
        loadFromDir toml platform (reading true onDisk) =
          .ok (effectiveCollector platform file) := by
  intro onDisk inMemory
  have hloaded : loaded toml platform onDisk = inMemory := by
    refine Machine.stateAt_related (R := fun disk config => loaded toml platform disk = config)
      rfl ?_ n
    intro k disk config hconfig
    rw [← hconfig]
    exact (runConfigActions_edited hlawful disk (run k) (huntorn k)).2
  refine ⟨hloaded, ?_, ?_⟩
  · have hout := (@runConfigActions_edited toml platform hlawful onDisk (run n) (huntorn n)).1
    rw [hloaded] at hout
    exact hout
  · intro file hfile
    exact loadFromDir_loaded (hloaded.trans hfile)

end Refines

section Detached

/-- The configuration of `-add detach false`, and how it is printed. -/
def detachedFile : File :=
  { FileConfig.default Number Number with daemon := ⟨none, none, some false⟩ }

def detachedText : String :=
  "[daemon]\ndetach = false\n\n[alerts.cpu_overrides]\n\n[alerts.mem_overrides]\n\n" ++
  "[alerts.disk_overrides]\n\n[alerts.app_cpu_overrides]\n\n[alerts.app_mem_overrides]\n"

def detachedToml : Toml :=
  .table [("daemon", .table [("detach", .boolean false)]),
    ("alerts", .table [("cpu_overrides", .table []), ("mem_overrides", .table []),
      ("disk_overrides", .table []), ("app_cpu_overrides", .table []),
      ("app_mem_overrides", .table [])])]

/-- A crate that knows just this configuration. -/
def detachedCrate : TomlCrate where
  toString
    | .table [("daemon", .table [("detach", .boolean false)]),
      ("alerts", .table [("cpu_overrides", .table []), ("mem_overrides", .table []),
        ("disk_overrides", .table []), ("app_cpu_overrides", .table []),
        ("app_mem_overrides", .table [])])] => some detachedText
    | _ => none
  fromStr := fun text => if text = detachedText then some detachedToml else none

theorem detachedCrate_lawful : detachedCrate.Lawful where
  inverts := by
    intro file text h
    dsimp only [detachedCrate] at h ⊢
    split at h
    case h_1 htoml =>
      obtain rfl := Option.some.inj h
      rw [htoml]
      exact ⟨detachedToml, if_pos rfl, fun _ => rfl⟩
    case h_2 => cases h

theorem ofMap_empty {F : Type} (write : F → Toml) :
    Toml.ofMap write (∅ : Overrides F) = .table [] := by
  have hnil : (∅ : Overrides F).entries = [] := by
    apply List.eq_nil_iff_forall_not_mem.mpr
    intro entry hentry
    have hlookup := ((∅ : Overrides F).mem_entries entry.1 entry.2).mp hentry
    simp at hlookup
  rw [Toml.ofMap, hnil]
  rfl

theorem toToml_detached : toToml detachedFile = detachedToml := by
  have hfields : ∀ entry : AlertsEntry → Option (String × Toml),
      (∀ f, entry (.inl f) = none) →
      (∀ m, entry (.inr m) = some (AlertsEntry.key (.inr m), .table [])) →
      AlertsEntry.shape.fields.filterMap entry =
        [("cpu_overrides", .table []), ("mem_overrides", .table []), ("disk_overrides", .table []),
          ("app_cpu_overrides", .table []), ("app_mem_overrides", .table [])] := by
    intro entry hfield hmap
    simp [AlertsEntry.shape, hfield, hmap, AlertsEntry.key]
  have halerts := hfields (AlertsEntry.codec.entry detachedFile.alerts)
    (by intro f; cases f <;> rfl)
    (by
      intro m
      have hwrite : AlertsEntry.write (.inr m) (m.get detachedFile.alerts) = some (.table []) := by
        cases m <;> exact congrArg some (ofMap_empty _)
      exact congrArg (Option.map fun v => (AlertsEntry.key (.inr m), v)) hwrite)
  rw [toToml, Fielded.Codec.encode, Fielded.Codec.encode, halerts]
  rfl

def detaching : Invocation := ⟨["-add", "detach", "false"], true, true, .done⟩

theorem detaching_taken (platform : Platform) :
    configActions platform detaching.args ⟨FileConfig.default Number Number, false, false⟩ =
      .ok ⟨detachedFile, true, false⟩ := rfl

theorem file_refines_memory_detach :
    let platform : Platform := ⟨false, fun _ => "", fun _ => ""⟩
    let onDisk := Machine.stateAt (runConfigActions detachedCrate platform) none
      (fun _ => detaching) 1
    loaded detachedCrate platform onDisk = .ok detachedFile := by
  intro platform onDisk
  have hrun := (@file_refines_memory _ platform detachedCrate_lawful none (fun _ => detaching)
    (fun _ _ => Writing.noConfusion) 1).1
  have hedited : (edited detachedCrate platform (.ok (.default Number Number)) detaching).1 =
      .ok detachedFile := by
    rw [edited, detaching_taken]
    simp [detaching, Invocation.commits, toToml_detached, detachedCrate, detachedToml]
  exact hrun.trans hedited

end Detached

end Settings

end Zstats
