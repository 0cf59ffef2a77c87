import Zstats.Settings.Places

namespace Zstats

open FloatText (Number)

namespace Settings

/-- The outcome of an edit and the file it leaves. -/
def Edit.on {α : Type} (edit : Edit α) (file : File) : Except String α × File :=
  (ExceptT.run edit).run file

/-- A rule's base percentage, or with `name=pct` the entry of that name. -/
def overridable (f : AlertsField) (m : OverrideMap) (value : String) : Place :=
  match splitOnce value with
  | some (name, _) => .entry m (trimmed name)
  | none => .alerts f

/-- The place a key names, with the value it is given. -/
def named (key value : String) : Option Place :=
  match key with
  | "interval" => some (.daemon .interval)
  | "history" => some (.daemon .history)
  | "detach" => some (.daemon .detach)
  | "process-interval" => some (.collector .processRefreshInterval)
  | "disk-interval" => some (.collector .diskIoRefreshInterval)
  | "disk-storage-interval" => some (.collector .diskStorageRefreshInterval)
  | "network-interval" => some (.collector .networkRefreshInterval)
  | "temp-interval" => some (.collector .temperatureRefreshInterval)
  | "cpu-freq-interval" => some (.collector .cpuFrequencyRefreshInterval)
  | "battery-interval" => some (.collector .batteryRefreshInterval)
  | "gpu-interval" => some (.collector .gpuRefreshInterval)
  | "drive-interval" => some (.collector .driveRefreshInterval)
  | "process-boost" => some (.collector .processBoostCpuCores)
  | "max-processes" => some (.collector .maxProcesses)
  | "collect-processes" => some (.collector .collectProcesses)
  | "collect-disks" => some (.collector .collectDisks)
  | "collect-networks" => some (.collector .collectNetworks)
  | "collect-temperatures" => some (.collector .collectTemperatures)
  | "collect-battery" => some (.collector .collectBattery)
  | "collect-gpu" => some (.collector .collectGpu)
  | "collect-drives" => some (.collector .collectDrives)
  | "process-disk-io" => some (.collector .collectProcessDiskIo)
  | "process-groups" => some (.collector .collectProcessGroups)
  | "dedupe-disks" => some (.collector .dedupeDisks)
  | "per-core-cpu" => some (.collector .perCoreCpu)
  | "alert-cpu" => some (overridable .cpu .cpu value)
  | "alert-mem" => some (overridable .mem .mem value)
  | "alert-app-cpu" => some (overridable .appCpu .appCpu value)
  | "alert-app-mem" => some (overridable .appMem .appMem value)
  | "alert-disk" => some (overridable .disk .disk value)
  | "alert-mem-bytes" => some (.alerts .memBytes)
  | "alert-app-mem-bytes" => some (.alerts .appMemBytes)
  | "alert-pressure" => some (.alerts .pressure)
  | "alert-cooldown" => some (.alerts .cooldown)
  | "alert-template" => some (.alerts .template)
  | _ => none

/-- A value that is added: an entry is there. -/
def Place.Added : (p : Place) → p.type → Prop
  | .entry _ _, x => x ≠ none
  | .daemon _, _ | .collector _, _ | .alerts _, _ => True

/-- Whatever the file: an error and no change, or success and a value put at `p`. -/
def Sets (platform : Platform) (edit : Edit String) (p : Place) : Prop :=
  ∀ file, (∃ e, edit.on file = (.error e, file)) ∨
    ∃ s x, p.Added x ∧ edit.on file = (.ok s, p.put platform file x)

section Sets

variable (platform : Platform) {α : Type}

theorem sets_daemon (f : DaemonField) (key value : String) (parsed : Except String α)
    (write : DaemonConfig → α → DaemonConfig) (x : α → f.type)
    (hwrite : ∀ d a, write d a = f.put d (x a)) :
    Sets platform (assigned key value (setDaemon parsed write)) (.daemon f) := by
  intro file
  cases parsed with
  | error e => exact Or.inl ⟨e, rfl⟩
  | ok a => exact Or.inr ⟨_, x a, trivial, congrArg (fun d => (_, { file with daemon := d })) (hwrite _ a)⟩

theorem sets_collector (f : CollectorField) (key value : String) (parsed : Except String α)
    (write : CollectorConfig Number → α → CollectorConfig Number) (x : α → f.type)
    (hwrite : ∀ c a, write c a = f.put c (x a)) :
    Sets platform (assigned key value (setCollector platform parsed write)) (.collector f) := by
  intro file
  cases parsed with
  | error e => exact Or.inl ⟨e, rfl⟩
  | ok a =>
    exact Or.inr ⟨_, x a, trivial, congrArg (fun c => (_, { file with collector := some c })) (hwrite _ a)⟩

theorem sets_alerts (f : AlertsField) (key value : String) (parsed : Except String α)
    (write : AlertsConfig Number Number → α → AlertsConfig Number Number) (x : α → f.type)
    (hwrite : ∀ c a, write c a = f.put c (x a)) :
    Sets platform (assigned key value (setAlerts parsed write)) (.alerts f) := by
  intro file
  cases parsed with
  | error e => exact Or.inl ⟨e, rfl⟩
  | ok a => exact Or.inr ⟨_, x a, trivial, congrArg (fun c => (_, { file with alerts := c })) (hwrite _ a)⟩

theorem sets_bytes (f : AlertsField) (key value pctKey : String)
    (write : AlertsConfig Number Number → Nat → AlertsConfig Number Number) (x : Nat → f.type)
    (hwrite : ∀ c a, write c a = f.put c (x a)) :
    Sets platform (addBytes key value pctKey write) (.alerts f) := by
  intro file
  rw [addBytes]
  cases parseBytes key value with
  | error e => exact Or.inl ⟨e, rfl⟩
  | ok a => exact Or.inr ⟨_, x a, trivial, congrArg (fun c => (_, { file with alerts := c })) (hwrite _ a)⟩

theorem sets_percentage (f : AlertsField) (m : OverrideMap) (key value what : String)
    (fromStr : List Char → Option Number) (display : Number → String)
    (write : AlertsConfig Number Number → Number → AlertsConfig Number Number)
    (insert : AlertsConfig Number Number → String → Number → AlertsConfig Number Number)
    (x : Number → f.type) (y : Number → Number)
    (hwrite : ∀ c a, write c a = f.put c (x a))
    (hinsert : ∀ c name a, insert c name a =
      m.put c (Place.putEntry (m.get c) name (some (y a)))) :
    Sets platform (addPercentage key value what fromStr display write insert)
      (overridable f m value) := by
  intro file
  rw [addPercentage, overridable]
  cases splitOnce value with
  | none => 
    dsimp only
    cases parse fromStr key value with
    | error e => exact Or.inl ⟨e, rfl⟩
    | ok a => exact Or.inr ⟨_, x a, trivial, congrArg (fun c => (_, { file with alerts := c })) (hwrite _ a)⟩
  | some parts =>
    obtain ⟨name, pct⟩ := parts
    dsimp only
    by_cases hname : trimmed name = ""
    · rw [if_pos hname]
      exact Or.inl ⟨_, rfl⟩
    · rw [if_neg hname]
      cases checkNamePattern key (trimmed name) with
      | error e => exact Or.inl ⟨e, rfl⟩
      | ok _ =>
        cases parse fromStr key pct with
        | error e => exact Or.inl ⟨e, rfl⟩
        | ok a =>
          exact Or.inr ⟨_, some (y a), Option.some_ne_none _,
            congrArg (fun c => (_, { file with alerts := c })) (hinsert _ _ a)⟩

end Sets

variable (platform : Platform)

/-- Each key adds at the place it names. -/
theorem applyAdd_sets {key value : String} {p : Place} (h : named key value = some p) :
    Sets platform (applyAdd platform key value) p := by
  unfold named at h
  split at h <;> cases h <;> dsimp only [applyAdd]
  · exact sets_daemon platform .interval _ _ _ _ some fun _ _ => rfl
  · exact sets_daemon platform .history _ _ _ _ some fun _ _ => rfl
  · exact sets_daemon platform .detach _ _ _ _ some fun _ _ => rfl
  · exact sets_collector platform .processRefreshInterval _ _ _ _ id fun _ _ => rfl
  · exact sets_collector platform .diskIoRefreshInterval _ _ _ _ id fun _ _ => rfl
  · exact sets_collector platform .diskStorageRefreshInterval _ _ _ _ id fun _ _ => rfl
  · exact sets_collector platform .networkRefreshInterval _ _ _ _ id fun _ _ => rfl
  · exact sets_collector platform .temperatureRefreshInterval _ _ _ _ id fun _ _ => rfl
  · exact sets_collector platform .cpuFrequencyRefreshInterval _ _ _ _ id fun _ _ => rfl
  · exact sets_collector platform .batteryRefreshInterval _ _ _ _ id fun _ _ => rfl
  · exact sets_collector platform .gpuRefreshInterval _ _ _ _ id fun _ _ => rfl
  · exact sets_collector platform .driveRefreshInterval _ _ _ _ id fun _ _ => rfl
  · exact sets_collector platform .processBoostCpuCores _ _ _ _ some fun _ _ => rfl
  · exact sets_collector platform .maxProcesses _ _ _ _ id fun _ _ => rfl
  · exact sets_collector platform .collectProcesses _ _ _ _ id fun _ _ => rfl
  · exact sets_collector platform .collectDisks _ _ _ _ id fun _ _ => rfl
  · exact sets_collector platform .collectNetworks _ _ _ _ id fun _ _ => rfl
  · exact sets_collector platform .collectTemperatures _ _ _ _ id fun _ _ => rfl
  · exact sets_collector platform .collectBattery _ _ _ _ id fun _ _ => rfl
  · exact sets_collector platform .collectGpu _ _ _ _ id fun _ _ => rfl
  · exact sets_collector platform .collectDrives _ _ _ _ id fun _ _ => rfl
  · exact sets_collector platform .collectProcessDiskIo _ _ _ _ id fun _ _ => rfl
  · exact sets_collector platform .collectProcessGroups _ _ _ _ id fun _ _ => rfl
  · exact sets_collector platform .dedupeDisks _ _ _ _ id fun _ _ => rfl
  · exact sets_collector platform .perCoreCpu _ _ _ _ id fun _ _ => rfl
  · exact sets_percentage platform .cpu .cpu _ _ _ _ _ _ _ (fun a => some (asF32 a)) asF32
      (fun _ _ => rfl) fun _ _ _ => rfl
  · exact sets_percentage platform .mem .mem _ _ _ _ _ _ _ some id
      (fun _ _ => rfl) fun _ _ _ => rfl
  · exact sets_percentage platform .appCpu .appCpu _ _ _ _ _ _ _ (fun a => some (asF32 a)) asF32
      (fun _ _ => rfl) fun _ _ _ => rfl
  · exact sets_percentage platform .appMem .appMem _ _ _ _ _ _ _ some id
      (fun _ _ => rfl) fun _ _ _ => rfl
  · exact sets_percentage platform .disk .disk _ _ _ _ _ _ _ some id
      (fun _ _ => rfl) fun _ _ _ => rfl
  · exact sets_bytes platform .memBytes _ _ _ _ some fun _ _ => rfl
  · exact sets_bytes platform .appMemBytes _ _ _ _ some fun _ _ => rfl
  · exact sets_alerts platform .pressure _ _ _ _ some fun _ _ => rfl
  · exact sets_alerts platform .cooldown _ _ _ _ some fun _ _ => rfl
  · exact sets_alerts platform .template _ _ _ _ some fun _ _ => rfl

theorem applyAdd_unknown {key value : String} (h : named key value = none) (file : File) :
    (applyAdd platform key value).on file = (.error (unknownKey key), file) := by
  unfold named at h
  split at h <;> try cases h
  unfold applyAdd
  split <;> first | contradiction | rfl

/-- Whatever the file: success, and the default at `p`. -/
def Resets (platform : Platform) (edit : Edit String) (p : Place) : Prop :=
  ∀ file, ∃ s, edit.on file = (.ok s, p.put platform file (p.default platform))

theorem resets_daemon (f : DaemonField) (key : String) (write : DaemonConfig → Unit → DaemonConfig)
    (hwrite : ∀ d, write d () = f.put d (Place.default platform (.daemon f))) :
    Resets platform (resetDone key (setDaemon (.ok ()) write)) (.daemon f) :=
  fun file => ⟨_, congrArg (fun d => (_, { file with daemon := d })) (hwrite _)⟩

theorem resets_collector {α : Type} (f : CollectorField) (key : String)
    (field : CollectorConfig Number → α)
    (write : CollectorConfig Number → α → CollectorConfig Number)
    (hwrite : ∀ c d, write c (field d) = f.put c (f.get d)) :
    Resets platform
      (resetDone key (setCollector platform (.ok (field (.default Number platform.windows))) write))
      (.collector f) :=
  fun file => ⟨_, congrArg (fun c => (_, { file with collector := some c })) (hwrite _ _)⟩

theorem resets_alerts (f : AlertsField) (key : String)
    (write : AlertsConfig Number Number → Unit → AlertsConfig Number Number)
    (hwrite : ∀ a, write a () = f.put a (Place.default platform (.alerts f))) :
    Resets platform (resetDone key (setAlerts (.ok ()) write)) (.alerts f) :=
  fun file => ⟨_, congrArg (fun a => (_, { file with alerts := a })) (hwrite _)⟩

/-- Without a name a key resets what it names for a plain value. -/
theorem applyRemove_resets {key : String} {p : Place} (h : named key "" = some p) :
    Resets platform (applyRemove platform key none) p := by
  unfold named at h
  split at h <;> cases h <;> dsimp only [applyRemove]
  · exact resets_daemon platform .interval _ _ fun _ => rfl
  · exact resets_daemon platform .history _ _ fun _ => rfl
  · exact resets_daemon platform .detach _ _ fun _ => rfl
  · exact resets_collector platform .processRefreshInterval _ (·.processRefreshInterval) _ fun _ _ => rfl
  · exact resets_collector platform .diskIoRefreshInterval _ (·.diskIoRefreshInterval) _ fun _ _ => rfl
  · exact resets_collector platform .diskStorageRefreshInterval _ (·.diskStorageRefreshInterval) _ fun _ _ => rfl
  · exact resets_collector platform .networkRefreshInterval _ (·.networkRefreshInterval) _ fun _ _ => rfl
  · exact resets_collector platform .temperatureRefreshInterval _ (·.temperatureRefreshInterval) _ fun _ _ => rfl
  · exact resets_collector platform .cpuFrequencyRefreshInterval _ (·.cpuFrequencyRefreshInterval) _ fun _ _ => rfl
  · exact resets_collector platform .batteryRefreshInterval _ (·.batteryRefreshInterval) _ fun _ _ => rfl
  · exact resets_collector platform .gpuRefreshInterval _ (·.gpuRefreshInterval) _ fun _ _ => rfl
  · exact resets_collector platform .driveRefreshInterval _ (·.driveRefreshInterval) _ fun _ _ => rfl
  · exact resets_collector platform .processBoostCpuCores _ (·.processBoostCpuCores) _ fun _ _ => rfl
  · exact resets_collector platform .maxProcesses _ (·.maxProcesses) _ fun _ _ => rfl
  · exact resets_collector platform .collectProcesses _ (·.collectProcesses) _ fun _ _ => rfl
  · exact resets_collector platform .collectDisks _ (·.collectDisks) _ fun _ _ => rfl
  · exact resets_collector platform .collectNetworks _ (·.collectNetworks) _ fun _ _ => rfl
  · exact resets_collector platform .collectTemperatures _ (·.collectTemperatures) _ fun _ _ => rfl
  · exact resets_collector platform .collectBattery _ (·.collectBattery) _ fun _ _ => rfl
  · exact resets_collector platform .collectGpu _ (·.collectGpu) _ fun _ _ => rfl
  · exact resets_collector platform .collectDrives _ (·.collectDrives) _ fun _ _ => rfl
  · exact resets_collector platform .collectProcessDiskIo _ (·.collectProcessDiskIo) _ fun _ _ => rfl
  · exact resets_collector platform .collectProcessGroups _ (·.collectProcessGroups) _ fun _ _ => rfl
  · exact resets_collector platform .dedupeDisks _ (·.dedupeDisks) _ fun _ _ => rfl
  · exact resets_collector platform .perCoreCpu _ (·.perCoreCpu) _ fun _ _ => rfl
  · exact resets_alerts platform .cpu _ _ fun _ => rfl
  · exact resets_alerts platform .mem _ _ fun _ => rfl
  · exact resets_alerts platform .appCpu _ _ fun _ => rfl
  · exact resets_alerts platform .appMem _ _ fun _ => rfl
  · exact resets_alerts platform .disk _ _ fun _ => rfl
  · exact resets_alerts platform .memBytes _ _ fun _ => rfl
  · exact resets_alerts platform .appMemBytes _ _ fun _ => rfl
  · exact resets_alerts platform .pressure _ _ fun _ => rfl
  · exact resets_alerts platform .cooldown _ _ fun _ => rfl
  · exact resets_alerts platform .template _ _ fun _ => rfl

theorem applyRemove_unknown {key : String} (h : named key "" = none) (file : File) :
    (applyRemove platform key none).on file = (.error (unknownKey key), file) := by
  unfold named at h
  split at h <;> try cases h
  unfold applyRemove
  dsimp only
  split <;> first | contradiction | rfl

section Accepts

/-- Success, whatever the file. -/
def Accepts (edit : Edit String) : Prop := ∀ file, ∃ s file', edit.on file = (.ok s, file')

variable {α : Type} {parsed : Except String α} {x : α}

theorem accepts_daemon (key value : String) (write : DaemonConfig → α → DaemonConfig)
    (h : parsed = .ok x) : Accepts (assigned key value (setDaemon parsed write)) := by
  intro file
  rw [h]
  exact ⟨_, _, rfl⟩

theorem accepts_collector (key value : String)
    (write : CollectorConfig Number → α → CollectorConfig Number) (h : parsed = .ok x) :
    Accepts (assigned key value (setCollector platform parsed write)) := by
  intro file
  rw [h]
  exact ⟨_, _, rfl⟩

theorem accepts_alerts (key value : String)
    (write : AlertsConfig Number Number → α → AlertsConfig Number Number) (h : parsed = .ok x) :
    Accepts (assigned key value (setAlerts parsed write)) := by
  intro file
  rw [h]
  exact ⟨_, _, rfl⟩

theorem accepts_bytes (key pctKey : String)
    (write : AlertsConfig Number Number → Nat → AlertsConfig Number Number) :
    Accepts (addBytes key "0" pctKey write) :=
  fun _ => ⟨_, _, rfl⟩

theorem accepts_percentage (key what : String) {fromStr : List Char → Option Number}
    (display : Number → String)
    (write : AlertsConfig Number Number → Number → AlertsConfig Number Number)
    (insert : AlertsConfig Number Number → String → Number → AlertsConfig Number Number)
    (h : parse fromStr key "0" = .ok (.finite 0)) :
    Accepts (addPercentage key "0" what fromStr display write insert) := by
  intro file
  have hsplit : splitOnce "0" = none := rfl
  rw [addPercentage, hsplit]
  dsimp only
  rw [h]
  exact ⟨_, _, rfl⟩

theorem parse_zero (f : FloatText.Format) (key : String) :
    parse f.parse key "0" = .ok (.finite 0) := by
  have htrim : Text.trim "0".toList = ['0'] := rfl
  rw [parse, htrim, FloatText.parse_zero]

theorem positiveInterval_one (key : String) : positiveInterval key "1" = .ok 1000000 := by
  have hparse : millis key "1" = .ok 1000000 := rfl
  rw [positiveInterval, hparse]
  exact if_neg (by decide)

theorem boostCores_zero (key : String) : boostCores key "0" = .ok (.finite 0) := by
  have hparse : parse parseF32 key "0" = .ok (.finite 0) := parse_zero FloatText.single key
  rw [boostCores, hparse]
  rfl

end Accepts

/-- Every key that names a place has a value it takes. -/
theorem applyAdd_accepts {key : String} {p : Place} (h : named key "" = some p) :
    ∃ value, Accepts (applyAdd platform key value) := by
  unfold named at h
  split at h <;> cases h <;> dsimp only [applyAdd]
  · exact ⟨"1", accepts_daemon _ _ _ (positiveInterval_one _)⟩
  · exact ⟨"1", accepts_daemon _ _ _ rfl⟩
  · exact ⟨"true", accepts_daemon _ _ _ rfl⟩
  · exact ⟨"1", accepts_collector platform _ _ _ rfl⟩
  · exact ⟨"1", accepts_collector platform _ _ _ rfl⟩
  · exact ⟨"1", accepts_collector platform _ _ _ rfl⟩
  · exact ⟨"1", accepts_collector platform _ _ _ rfl⟩
  · exact ⟨"1", accepts_collector platform _ _ _ rfl⟩
  · exact ⟨"1", accepts_collector platform _ _ _ rfl⟩
  · exact ⟨"1", accepts_collector platform _ _ _ rfl⟩
  · exact ⟨"1", accepts_collector platform _ _ _ rfl⟩
  · exact ⟨"1", accepts_collector platform _ _ _ rfl⟩
  · exact ⟨"0", accepts_collector platform _ _ _ (boostCores_zero _)⟩
  · exact ⟨"1", accepts_collector platform _ _ _ rfl⟩
  · exact ⟨"true", accepts_collector platform _ _ _ rfl⟩
  · exact ⟨"true", accepts_collector platform _ _ _ rfl⟩
  · exact ⟨"true", accepts_collector platform _ _ _ rfl⟩
  · exact ⟨"true", accepts_collector platform _ _ _ rfl⟩
  · exact ⟨"true", accepts_collector platform _ _ _ rfl⟩
  · exact ⟨"true", accepts_collector platform _ _ _ rfl⟩
  · exact ⟨"true", accepts_collector platform _ _ _ rfl⟩
  · exact ⟨"true", accepts_collector platform _ _ _ rfl⟩
  · exact ⟨"true", accepts_collector platform _ _ _ rfl⟩
  · exact ⟨"true", accepts_collector platform _ _ _ rfl⟩
  · exact ⟨"true", accepts_collector platform _ _ _ rfl⟩
  · exact ⟨"0", accepts_percentage _ _ _ _ _ (parse_zero FloatText.double _)⟩
  · exact ⟨"0", accepts_percentage _ _ _ _ _ (parse_zero FloatText.double _)⟩
  · exact ⟨"0", accepts_percentage _ _ _ _ _ (parse_zero FloatText.double _)⟩
  · exact ⟨"0", accepts_percentage _ _ _ _ _ (parse_zero FloatText.double _)⟩
  · exact ⟨"0", accepts_percentage _ _ _ _ _ (parse_zero FloatText.single _)⟩
  · exact ⟨"0", accepts_bytes _ _ _⟩
  · exact ⟨"0", accepts_bytes _ _ _⟩
  · exact ⟨"off", accepts_alerts _ _ _ rfl⟩
  · exact ⟨"1", accepts_alerts _ _ _ rfl⟩
  · exact ⟨"true", accepts_alerts _ _ _ rfl⟩

/-- The map whose entries a key adds and removes by name. -/
def overrideMap (key : String) : Option OverrideMap :=
  match key with
  | "alert-cpu" => some .cpu
  | "alert-mem" => some .mem
  | "alert-disk" => some .disk
  | "alert-app-cpu" => some .appCpu
  | "alert-app-mem" => some .appMem
  | _ => none

/-- The file without the entry of `name` in a map of overrides. -/
def without (m : OverrideMap) (name : String) (file : File) : File :=
  { file with alerts := m.put file.alerts ((m.get file.alerts).erase name) }

theorem without_absent {m : OverrideMap} {name : String} {file : File}
    (h : (m.get file.alerts).lookup name = none) : without m name file = file := by
  have herase : (m.get file.alerts).erase name = m.get file.alerts := by
    apply Finmap.ext_lookup
    intro other
    by_cases hname : other = name
    · rw [hname, Finmap.lookup_erase, h]
    · exact Finmap.lookup_erase_ne hname
  have hput : m.put file.alerts (m.get file.alerts) = file.alerts := by
    cases m <;> rfl
  rw [without, herase, hput]

theorem removeOverride_on (m : OverrideMap) (key name : String)
    (map : AlertsConfig Number Number → Overrides Number)
    (write : AlertsConfig Number Number → Overrides Number → AlertsConfig Number Number)
    (hmap : ∀ a, map a = m.get a) (hwrite : ∀ a x, write a x = m.put a x) (file : File) :
    (removeOverride key name map write).on file =
      (if ((m.get file.alerts).lookup name).isSome then
          .ok ("removed " ++ key ++ " override for " ++ name)
        else .error ("no " ++ key ++ " override found for " ++ name),
        without m name file) := by
  rw [without, ← hmap, ← hwrite]
  -- the entry is gone before the answer is chosen
  change Edit.on (if ((map file.alerts).lookup name).isSome = true then
    (pure _ : Edit String) else throw _) _ = _
  split_ifs <;> rfl

/-- With a name a key of overrides drops the entry of that name. -/
theorem applyRemove_name {key name : String} {m : OverrideMap} (h : overrideMap key = some m)
    (file : File) :
    (applyRemove platform key (some name)).on file =
      (if ((m.get file.alerts).lookup name).isSome then
          .ok ("removed " ++ key ++ " override for " ++ name)
        else .error ("no " ++ key ++ " override found for " ++ name),
        without m name file) := by
  unfold overrideMap at h
  split at h <;> cases h
  · exact removeOverride_on .cpu _ _ _ _ (fun _ => rfl) (fun _ _ => rfl) file
  · exact removeOverride_on .mem _ _ _ _ (fun _ => rfl) (fun _ _ => rfl) file
  · exact removeOverride_on .disk _ _ _ _ (fun _ => rfl) (fun _ _ => rfl) file
  · exact removeOverride_on .appCpu _ _ _ _ (fun _ => rfl) (fun _ _ => rfl) file
  · exact removeOverride_on .appMem _ _ _ _ (fun _ => rfl) (fun _ _ => rfl) file

theorem applyRemove_no_names {key name : String} (h : overrideMap key = none) (file : File) :
    (applyRemove platform key (some name)).on file =
      (.error (key ++ " has no per-name overrides"), file) := by
  unfold overrideMap at h
  split at h <;> try cases h
  unfold applyRemove
  dsimp only
  split <;> first | contradiction | rfl

end Settings

end Zstats
