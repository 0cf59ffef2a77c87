import Zstats.Settings.Keys

namespace Zstats

namespace Settings

variable (platform : Platform)

/-- The name of a `name=pct` value, for the keys that take one. -/
def overrideName (key value : String) : Option String :=
  if (overrideMap key).isSome then (splitOnce value).map fun parts => trimmed parts.1 else none

theorem named_override {key value name : String} (h : overrideName key value = some name) :
    ∃ m, overrideMap key = some m ∧ named key value = some (.entry m name) := by
  unfold overrideName at h
  split_ifs at h with hmap
  obtain ⟨parts, hsplit, rfl⟩ := Option.map_eq_some_iff.mp h
  have hover (f : AlertsField) (m : OverrideMap) :
      overridable f m value = .entry m (trimmed parts.1) := by
    rw [overridable, hsplit]
  unfold overrideMap at hmap ⊢
  split at hmap
  · exact ⟨.cpu, rfl, congrArg some (hover .cpu .cpu)⟩
  · exact ⟨.mem, rfl, congrArg some (hover .mem .mem)⟩
  · exact ⟨.disk, rfl, congrArg some (hover .disk .disk)⟩
  · exact ⟨.appCpu, rfl, congrArg some (hover .appCpu .appCpu)⟩
  · exact ⟨.appMem, rfl, congrArg some (hover .appMem .appMem)⟩
  · exact absurd hmap (by simp)

example : named "alert-disk" " /Volumes/Backup = 0" = some (.entry .disk "/Volumes/Backup") := by
  decide

/-- Without a name in the value a key names one place, whatever the value. -/
theorem named_plain {key value : String} (h : overrideName key value = none) :
    named key value = named key "" := by
  by_cases hmap : (overrideMap key).isSome = true
  · have hsplit : splitOnce value = none := by
      rw [overrideName, if_pos hmap] at h
      exact Option.map_eq_none_iff.mp h
    have hover (f : AlertsField) (m : OverrideMap) :
        overridable f m value = overridable f m "" := by
      rw [overridable, hsplit]
      rfl
    unfold overrideMap at hmap
    split at hmap
    · exact congrArg some (hover .cpu .cpu)
    · exact congrArg some (hover .mem .mem)
    · exact congrArg some (hover .disk .disk)
    · exact congrArg some (hover .appCpu .appCpu)
    · exact congrArg some (hover .appMem .appMem)
    · exact absurd hmap (by simp)
  · unfold named
    split <;> first | rfl | exact absurd rfl hmap

/-- An error of `apply_remove` leaves the file alone. -/
theorem applyRemove_error {key : String} {name : Option String} {file file' : File} {e : String}
    (h : (applyRemove platform key name).on file = (.error e, file')) : file' = file := by
  cases name with
  | none =>
    cases hp : named key "" with
    | none =>
      rw [applyRemove_unknown platform hp] at h
      exact (Prod.mk.inj h).2.symm
    | some p =>
      obtain ⟨s, hs⟩ := applyRemove_resets platform hp file
      rw [hs] at h
      exact absurd (Prod.mk.inj h).1 (by simp)
  | some name =>
    cases hm : overrideMap key with
    | none =>
      rw [applyRemove_no_names platform hm] at h
      exact (Prod.mk.inj h).2.symm
    | some m =>
      rw [applyRemove_name platform hm] at h
      obtain ⟨hresult, hfile⟩ := Prod.mk.inj h
      split_ifs at hresult with hsome
      rw [← hfile]
      exact without_absent (Option.not_isSome_iff_eq_none.mp hsome)

/-- A key that names nothing for one value names nothing for any. -/
theorem named_none {key : String} (h : named key "" = none) (value : String) :
    named key value = none := by
  unfold named at h
  split at h <;> try cases h
  unfold named
  split <;> first | contradiction | rfl

/-- What `apply_add` does: nothing at all, or a value at the place that the key names. -/
theorem applyAdd_cases (key value : String) (file : File) :
    (∃ e, (applyAdd platform key value).on file = (.error e, file)) ∨
    ∃ p x s, named key value = some p ∧ p.Added x ∧
      (applyAdd platform key value).on file = (.ok s, p.put platform file x) := by
  cases hp : named key value with
  | none => exact Or.inl ⟨_, applyAdd_unknown platform hp file⟩
  | some p =>
    rcases applyAdd_sets platform hp file with herror | ⟨s, x, hx, hs⟩
    · exact Or.inl herror
    · exact Or.inr ⟨p, x, s, rfl, hx, hs⟩

theorem applyAdd_error {key value : String} {file file' : File} {e : String}
    (h : (applyAdd platform key value).on file = (.error e, file')) : file' = file := by
  rcases applyAdd_cases platform key value file with ⟨e', he⟩ | ⟨p, x, s, -, -, hs⟩
  · rw [he] at h
    exact (Prod.mk.inj h).2.symm
  · rw [hs] at h
    exact absurd (Prod.mk.inj h).1 (by simp)

theorem applyAdd_ok {key value : String} {file file' : File} {s : String}
    (h : (applyAdd platform key value).on file = (.ok s, file')) :
    ∃ p x, named key value = some p ∧ p.Added x ∧ file' = p.put platform file x := by
  rcases applyAdd_cases platform key value file with ⟨e, he⟩ | ⟨p, x, s', hp, hx, hs⟩
  · rw [he] at h
    exact absurd (Prod.mk.inj h).1 (by simp)
  · rw [hs] at h
    exact ⟨p, x, hp, hx, (Prod.mk.inj h).2.symm⟩

theorem default_entry (m : OverrideMap) (name : String) :
    (Place.entry m name).default platform = none := by
  cases m <;> exact Finmap.lookup_empty name

/-- What was added at a place is removed there, by the name it was added with. -/
theorem applyRemove_added {key value : String} {p : Place} (hp : named key value = some p)
    {x : p.type} (hx : p.Added x) (file : File) :
    ∃ s, (applyRemove platform key (overrideName key value)).on (p.put platform file x) =
      (.ok s, p.put platform (p.put platform file x) (p.default platform)) := by
  cases hname : overrideName key value with
  | none =>
    rw [named_plain hname] at hp
    exact applyRemove_resets platform hp _
  | some name =>
    obtain ⟨m, hm, hentry⟩ := named_override hname
    obtain rfl := Option.some.inj (hp.symm.trans hentry)
    have hvalue : (m.get ((Place.entry m name).put platform file x).alerts).lookup name = x :=
      (Place.entry m name).value_put platform file x
    have hsome : ((m.get ((Place.entry m name).put platform file x).alerts).lookup name).isSome := by
      rw [hvalue]
      exact Option.isSome_iff_ne_none.mpr hx
    rw [applyRemove_name platform hm, if_pos hsome, default_entry]
    exact ⟨_, rfl⟩

/-- `apply_add` takes a key, with some value, exactly when `apply_remove` does. -/
theorem accepted_iff (file : File) (key : String) :
    (∃ value s file', (applyAdd platform key value).on file = (.ok s, file')) ↔
      ∃ s file', (applyRemove platform key none).on file = (.ok s, file') := by
  constructor
  · intro h
    obtain ⟨value, s, file', hok⟩ := h
    obtain ⟨p, x, hp, -, -⟩ := applyAdd_ok platform hok
    cases hplain : named key "" with
    | none => exact absurd (hp.symm.trans (named_none hplain value)) (by simp)
    | some p =>
      obtain ⟨s, hs⟩ := applyRemove_resets platform hplain file
      exact ⟨s, _, hs⟩
  · intro h
    obtain ⟨s, file', hok⟩ := h
    cases hplain : named key "" with
    | none =>
      rw [applyRemove_unknown platform hplain] at hok
      exact absurd (Prod.mk.inj hok).1 (by simp)
    | some p =>
      obtain ⟨value, haccepts⟩ := applyAdd_accepts platform hplain
      obtain ⟨s, file', hok⟩ := haccepts file
      exact ⟨value, s, file', hok⟩

/-- For every file, key and value: an edit that fails changes nothing; one that adds changes the
place its key names and no other, and removing what was added gives that place its default and
leaves every other as it was. A key is taken by both edits or by neither. -/
theorem edits_targeted (file : File) (key value : String) (name : Option String) :
    (∀ e file', (applyAdd platform key value).on file = (.error e, file') → file' = file) ∧
    (∀ e file', (applyRemove platform key name).on file = (.error e, file') → file' = file) ∧
    ((∃ value s file', (applyAdd platform key value).on file = (.ok s, file')) ↔
      ∃ s file', (applyRemove platform key none).on file = (.ok s, file')) ∧
    (∀ s file', (applyAdd platform key value).on file = (.ok s, file') →
      ∃ p, named key value = some p ∧
        (∀ name, overrideName key value = some name → ∃ m, p = .entry m name) ∧
        (∀ q, q ≠ p → q.value platform file' = q.value platform file) ∧
        ∃ s' file'', (applyRemove platform key (overrideName key value)).on file' = (.ok s', file'') ∧
          p.value platform file'' = p.default platform ∧
          (∀ q, q ≠ p → q.value platform file'' = q.value platform file) ∧
          effective platform file'' = effective platform (p.put platform file (p.default platform))) := by
  refine ⟨fun e file' => applyAdd_error platform, fun e file' => applyRemove_error platform,
    accepted_iff platform file key, ?_⟩
  intro s file' h
  obtain ⟨p, x, hp, hx, rfl⟩ := applyAdd_ok platform h
  obtain ⟨s', hs'⟩ := applyRemove_added platform hp hx file
  have hothers (q : Place) (hq : q ≠ p) : q.value platform
      (p.put platform (p.put platform file x) (p.default platform)) = q.value platform file := by
    rw [p.value_put_ne platform _ hq, p.value_put_ne platform _ hq]
  refine ⟨p, hp, ?_, fun q hq => p.value_put_ne platform file hq x, s', _, hs',
    p.value_put platform _ _, hothers, ?_⟩
  · intro name hname
    obtain ⟨m, -, hentry⟩ := named_override hname
    exact ⟨m, Option.some.inj (hp.symm.trans hentry)⟩
  · apply effective_ext
    intro q
    by_cases hq : q = p
    · subst hq
      rw [q.value_put, q.value_put]
    · rw [hothers q hq, p.value_put_ne platform file hq]

end Settings

end Zstats
