import Mathlib.Data.Prod.Lex
import Zstats.Framework.FirstBest
import Zstats.Settings.Config

namespace Zstats

def defaultCpuPercent : ℚ := 30
def defaultMemoryFraction : ℚ := 25 / 100
/-- 4 GiB. -/
def defaultMemoryBytes : Nat := 4 * 2 ^ 30
def defaultDiskFraction : ℚ := 90 / 100
def defaultAppCpuPercent : ℚ := 200
def defaultAppMemoryFraction : ℚ := toF64 (40 / 100)
/-- 8 GiB. -/
def defaultAppMemoryBytes : Nat := 8 * 2 ^ 30
def defaultCooldown : Nat := fromSecs 600

/-- The builtin table of exemptions, or the file that replaces it. -/
structure Template (F32 F64 : Type) where
  version : Option Nat
  cpu : Overrides F32
  mem : Overrides F64
  appCpu : Overrides F32
  appMem : Overrides F64

/-- `(*pct > 0.0).then_some(..)`: zero or less turns the rule off. -/
def thenSome (scale : ℚ → ℚ) (pct : ℚ) : Option ℚ := if 0 < pct then some (scale pct) else none

/-- A base value: as configured, else the builtin one. -/
def baseDefault (scale : ℚ → ℚ) (configured : Option ℚ) (builtin : ℚ) : Option ℚ :=
  match configured with
  | some p => thenSome scale p
  | none => some builtin

/-- The loop over a map of the user's overrides. -/
def pushOverrides (scale : ℚ → ℚ) (overrides : Overrides ℚ) (t : Thresholds ℚ) : Thresholds ℚ :=
  overrides.entries.foldl (fun t entry => t.withOverride entry.1 (thenSome scale entry.2)) t

/-- The loop over a map of the template, where it refines a rule that is on. -/
def pushTemplate (scale : ℚ → ℚ) (on : Bool) (overrides : Overrides ℚ) (t : Thresholds ℚ) :
    Thresholds ℚ :=
  if on then
    overrides.entries.foldl (fun t entry => t.withTemplateOverride entry.1 (thenSome scale entry.2)) t
  else t

/-- The byte ceiling goes with the percentage; 0 removes it. -/
def bytesDefault (percentage : Option ℚ) (configured : Option Nat) (builtin : Nat) : Option Nat :=
  match percentage, configured with
  | none, _ => none
  | some _, some 0 => none
  | some _, some bytes => some bytes
  | some _, none => some builtin

/-- `ActiveThresholds::from_config_with_template`. -/
def ActiveThresholds.fromConfigWithTemplate (file : AlertsConfig ℚ ℚ) (template : Template ℚ ℚ) :
    ActiveThresholds :=
  let templated := file.template.getD true
  let percent := fun p : ℚ => p
  let fraction := fun p : ℚ => toF64 (p / 100)
  let diskFraction := fun p : ℚ => p / 100
  let cpuDefault := baseDefault percent file.cpu defaultCpuPercent
  let memDefault := baseDefault fraction file.mem defaultMemoryFraction
  let diskDefault := baseDefault diskFraction file.disk defaultDiskFraction
  let appCpuDefault := baseDefault percent file.appCpu defaultAppCpuPercent
  let appMemDefault := baseDefault fraction file.appMem defaultAppMemoryFraction
  { cpu := pushTemplate percent (templated && cpuDefault.isSome) template.cpu
      (pushOverrides percent file.cpuOverrides (.new cpuDefault))
    memory := pushTemplate fraction (templated && memDefault.isSome) template.mem
      (pushOverrides fraction file.memOverrides (.new memDefault))
    memoryBytes := bytesDefault memDefault file.memBytes defaultMemoryBytes
    disk := pushOverrides diskFraction file.diskOverrides (.new diskDefault)
    appCpu := pushTemplate percent (templated && appCpuDefault.isSome) template.appCpu
      (pushOverrides percent file.appCpuOverrides (.new appCpuDefault))
    appMemory := pushTemplate fraction (templated && appMemDefault.isSome) template.appMem
      (pushOverrides fraction file.appMemOverrides (.new appMemDefault))
    appMemoryBytes := bytesDefault appMemDefault file.appMemBytes defaultAppMemoryBytes
    pressure := (file.pressure.getD .warning).level
    cooldown := file.cooldown.getD defaultCooldown }

/-- What a key claims: one that cannot be parsed is an exact name. -/
def reading (key : String) : Matcher :=
  match Matcher.parse key with
  | .ok m => m
  | .error _ => .exact key

def Matcher.isExact : Matcher → Bool
  | .exact _ => true
  | _ => false

def Matcher.length (m : Matcher) : Nat := (asBytes m.literal).length

/-- An exact name over a pattern, and of two patterns the one with the longer literal. -/
def Matcher.Outweighs (a b : Matcher) : Prop :=
  a.isExact = true ∧ b.isExact = false ∨
    a.isExact = false ∧ b.isExact = false ∧ b.length < a.length

/-- Some key of the map claims `name`. -/
def Overrides.Claims (m : Overrides ℚ) (name : String) : Prop :=
  ∃ key pct, m.lookup key = some pct ∧ (reading key).matchesName name = true

/-- An entry that claims `name` and that no other entry claiming it outweighs. -/
structure Overrides.Leading (m : Overrides ℚ) (name key : String) (pct : ℚ) : Prop where
  entry : m.lookup key = some pct
  claims : (reading key).matchesName name = true
  unbeaten : ∀ key' pct', m.lookup key' = some pct' → (reading key').matchesName name = true →
    ¬ (reading key').Outweighs (reading key)

/-- The rules that have thresholds for a name and entries in the template. -/
inductive ThresholdRule where
  | cpu
  | memory
  | appCpu
  | appMemory
  deriving DecidableEq

namespace ThresholdRule

def thresholds (active : ActiveThresholds) : ThresholdRule → Thresholds ℚ
  | cpu => active.cpu
  | memory => active.memory
  | appCpu => active.appCpu
  | appMemory => active.appMemory

def configured (config : AlertsConfig ℚ ℚ) : ThresholdRule → Option ℚ
  | cpu => config.cpu
  | memory => config.mem
  | appCpu => config.appCpu
  | appMemory => config.appMem

def overrides (config : AlertsConfig ℚ ℚ) : ThresholdRule → Overrides ℚ
  | cpu => config.cpuOverrides
  | memory => config.memOverrides
  | appCpu => config.appCpuOverrides
  | appMemory => config.appMemOverrides

def entries (template : Template ℚ ℚ) : ThresholdRule → Overrides ℚ
  | cpu => template.cpu
  | memory => template.mem
  | appCpu => template.appCpu
  | appMemory => template.appMem

def builtin : ThresholdRule → ℚ
  | cpu => 30
  | memory => 25 / 100
  | appCpu => 200
  | appMemory => toF64 (40 / 100)

/-- Percentages of a core as they are, percentages of the memory as fractions, each a double. -/
def scale : ThresholdRule → ℚ → ℚ
  | cpu | appCpu => fun pct => pct
  | memory | appMemory => fun pct => toF64 (pct / 100)

/-- What a percentage sets the rule to. -/
def value (rule : ThresholdRule) (pct : ℚ) : Option ℚ :=
  if pct ≤ 0 then none else some (rule.scale pct)

def baseline (rule : ThresholdRule) (config : AlertsConfig ℚ ℚ) : Option ℚ :=
  match rule.configured config with
  | none => some rule.builtin
  | some pct => rule.value pct

/-- The template refines a rule whose base is on. -/
def Templated (rule : ThresholdRule) (config : AlertsConfig ℚ ℚ) : Prop :=
  config.template ≠ some false ∧ rule.baseline config ≠ none

/-- The layers of a rule: what decides about `name`, `none` for its base. -/
inductive Decided (rule : ThresholdRule) (config : AlertsConfig ℚ ℚ) (template : Template ℚ ℚ)
    (name : String) : Option (Option ℚ) → Prop
  | user (key : String) (pct : ℚ) (h : (rule.overrides config).Leading name key pct) :
      Decided rule config template name (some (rule.value pct))
  | template (key : String) (pct : ℚ) (hfree : ¬ (rule.overrides config).Claims name)
      (hon : rule.Templated config) (h : (rule.entries template).Leading name key pct) :
      Decided rule config template name (some (rule.value pct))
  | base (hfree : ¬ (rule.overrides config).Claims name)
      (hnone : ¬ (rule.Templated config ∧ (rule.entries template).Claims name)) :
      Decided rule config template name none

/-- A map's entry as an override of one layer. -/
def asOverride (rule : ThresholdRule) (user : Bool) (entry : String × ℚ) : Override ℚ :=
  ⟨reading entry.1, rule.value entry.2, user⟩

/-- The overrides of a rule as they are pushed. -/
def layers (rule : ThresholdRule) (config : AlertsConfig ℚ ℚ) (template : Template ℚ ℚ) :
    List (Override ℚ) :=
  (rule.overrides config).entries.map (rule.asOverride true) ++
    if config.template.getD true && (rule.baseline config).isSome then
      (rule.entries template).entries.map (rule.asOverride false)
    else []

theorem templated_iff (rule : ThresholdRule) (config : AlertsConfig ℚ ℚ) :
    (config.template.getD true && (rule.baseline config).isSome) = true ↔
      rule.Templated config := by
  rw [Bool.and_eq_true, Option.isSome_iff_ne_none, Templated]
  rcases config.template with _ | (_ | _) <;> simp

end ThresholdRule

theorem Thresholds.push_eq {α : Type} (t : Thresholds α) (name : String) (value : Option α)
    (user : Bool) :
    t.push name value user = ⟨t.default, t.overrides ++ [⟨reading name, value, user⟩]⟩ := rfl

theorem Thresholds.foldl_push (value : ℚ → Option ℚ) (user : Bool) (l : List (String × ℚ))
    (t : Thresholds ℚ) :
    l.foldl (fun t entry => t.push entry.1 (value entry.2) user) t =
      ⟨t.default, t.overrides ++ l.map fun entry => ⟨reading entry.1, value entry.2, user⟩⟩ := by
  induction l generalizing t with
  | nil => simp
  | cons entry l ih =>
    rw [List.foldl_cons, ih, Thresholds.push_eq]
    simp

namespace ThresholdRule

theorem thenSome_scale (rule : ThresholdRule) (pct : ℚ) :
    thenSome rule.scale pct = rule.value pct := by
  by_cases h : pct ≤ 0
  · simp [thenSome, value, h, not_lt.mpr h]
  · simp [thenSome, value, h, not_le.mp h]

/-- A section pushes the layers of its rule over the base. -/
theorem push_layers (rule : ThresholdRule) (config : AlertsConfig ℚ ℚ) (template : Template ℚ ℚ) :
    pushTemplate rule.scale (config.template.getD true && (rule.baseline config).isSome)
        (rule.entries template)
        (pushOverrides rule.scale (rule.overrides config) (.new (rule.baseline config))) =
      ⟨rule.baseline config, rule.layers config template⟩ := by
  have huser : pushOverrides rule.scale (rule.overrides config) (.new (rule.baseline config)) =
      ⟨rule.baseline config, (rule.overrides config).entries.map (rule.asOverride true)⟩ := by
    simp only [pushOverrides, Thresholds.withOverride, thenSome_scale]
    exact Thresholds.foldl_push rule.value true _ _
  rw [huser, pushTemplate, layers]
  split_ifs
  · simp only [Thresholds.withTemplateOverride, thenSome_scale]
    exact Thresholds.foldl_push rule.value false _ _
  · simp

theorem baseDefault_scale (rule : ThresholdRule) (config : AlertsConfig ℚ ℚ) :
    baseDefault rule.scale (rule.configured config) rule.builtin = rule.baseline config := by
  rw [baseline]
  cases rule.configured config with
  | none => rfl
  | some pct => exact rule.thenSome_scale pct

/-- The four sections agree: a rule's thresholds are its base and its layers. -/
theorem thresholds_active (rule : ThresholdRule) (config : AlertsConfig ℚ ℚ)
    (template : Template ℚ ℚ) :
    rule.thresholds (.fromConfigWithTemplate config template) =
      ⟨rule.baseline config, rule.layers config template⟩ := by
  rw [← push_layers, ← baseDefault_scale]
  cases rule <;> rfl

end ThresholdRule

namespace Override

variable {α : Type}

/-- The tuple of `rank` in its order: layer, then exactness, then the length of the literal. -/
def order (o : Override α) : Bool ×ₗ Bool ×ₗ ℕ :=
  toLex (o.user, toLex (o.matcher.isExact, o.matcher.length))

theorem rank_eq (o : Override α) : o.rank = (o.user, o.matcher.isExact, o.matcher.length) := rfl

theorem outranks_iff (a b : Override α) : a.outranks b = true ↔ b.order < a.order := by
  rw [outranks, rank_eq, rank_eq, order, order, Prod.Lex.toLex_lt_toLex, Prod.Lex.toLex_lt_toLex]
  cases a.user <;> cases b.user <;> cases a.matcher.isExact <;> cases b.matcher.isExact <;> simp

theorem outranks_irrefl (a : Override α) : a.outranks a = false := by
  rw [Bool.eq_false_iff, ne_eq, outranks_iff]
  exact lt_irrefl _

theorem outranks_trans (a b c : Override α) (hab : a.outranks b = true)
    (hbc : b.outranks c = true) : a.outranks c = true := by
  rw [outranks_iff] at hab hbc ⊢
  exact hbc.trans hab

/-- Of one layer and equal on both counts. -/
def Tied (a b : Override α) : Prop :=
  a.user = b.user ∧ a.matcher.isExact = b.matcher.isExact ∧ a.matcher.length = b.matcher.length

theorem tied_of_order_eq {a b : Override α} (h : a.order = b.order) : a.Tied b := by
  obtain ⟨huser, hrest⟩ := Prod.mk.inj (toLex.injective h)
  obtain ⟨hexact, hlength⟩ := Prod.mk.inj (toLex.injective hrest)
  exact ⟨huser, hexact, hlength⟩

/-- A weightier key of the same layer outranks. -/
theorem outranks_of_outweighs {a b : Override α} (huser : a.user = b.user)
    (h : a.matcher.Outweighs b.matcher) : a.outranks b = true := by
  rw [outranks_iff, order, order, Prod.Lex.toLex_lt_toLex, Prod.Lex.toLex_lt_toLex]
  right
  refine ⟨huser.symm, ?_⟩
  rcases h with ⟨ha, hb⟩ | ⟨ha, hb, hlt⟩
  · left
    simp [ha, hb]
  · right
    exact ⟨by simp [ha, hb], hlt⟩

/-- The user's entries outrank the template's. -/
theorem outranks_of_user {a b : Override α} (ha : a.user = true) (hb : b.user = false) :
    a.outranks b = true := by
  rw [outranks_iff, order, order, Prod.Lex.toLex_lt_toLex]
  left
  simp [ha, hb]

end Override

/-- `o` claims `name` and nothing that claims it outranks `o`. -/
abbrev Foremost {α : Type} (name : String) : List (Override α) → Override α → Prop :=
  FirstBest.Unbeaten Override.outranks fun o => o.matcher.matchesName name

namespace Thresholds

variable {α : Type}

theorem overrideFor_eq (t : Thresholds α) (name : String) :
    t.overrideFor name = (FirstBest.scan Override.outranks (fun o => o.matcher.matchesName name)
      t.overrides).map (·.value) := rfl

theorem overrideFor_eq_none (t : Thresholds α) (name : String) :
    t.overrideFor name = none ↔ ∀ o ∈ t.overrides, o.matcher.matchesName name = false := by
  rw [overrideFor_eq, Option.map_eq_none_iff, FirstBest.scan_eq_none]

theorem exists_foremost {t : Thresholds α} {name : String} {value : Option α}
    (h : t.overrideFor name = some value) :
    ∃ o, Foremost name t.overrides o ∧ o.value = value := by
  obtain ⟨o, hscan, hvalue⟩ := Option.map_eq_some_iff.mp h
  exact ⟨o, FirstBest.scan_unbeaten Override.outranks_irrefl Override.outranks_trans _ o hscan,
    hvalue⟩

theorem tied_of_foremost {l : List (Override α)} {name : String} {a b : Override α}
    (ha : Foremost name l a) (hb : Foremost name l b) : a.Tied b := by
  have hab : ¬ b.order < a.order := by
    rw [← Override.outranks_iff, hb.2.2 a ha.1 ha.2.1]
    simp
  have hba : ¬ a.order < b.order := by
    rw [← Override.outranks_iff, ha.2.2 b hb.1 hb.2.1]
    simp
  exact Override.tied_of_order_eq (le_antisymm (not_lt.mp hab) (not_lt.mp hba))

/-- The order the overrides were pushed in decides only between tied ones. -/
theorem overrideFor_perm {base base' : Option α} {l l' : List (Override α)} (name : String)
    (hperm : l.Perm l')
    (hties : ∀ a b, Foremost name l a → Foremost name l b → a.Tied b → a.value = b.value) :
    (⟨base, l⟩ : Thresholds α).overrideFor name = (⟨base', l'⟩ : Thresholds α).overrideFor name :=
  FirstBest.scan_perm Override.outranks_irrefl Override.outranks_trans (·.value) hperm
    fun a b ha hb => hties a b ha hb (tied_of_foremost ha hb)

end Thresholds

namespace ThresholdRule

variable (rule : ThresholdRule) (config : AlertsConfig ℚ ℚ) (template : Template ℚ ℚ)

theorem mem_layers (o : Override ℚ) :
    o ∈ rule.layers config template ↔
      (∃ key pct, (rule.overrides config).lookup key = some pct ∧
        rule.asOverride true (key, pct) = o) ∨
      rule.Templated config ∧ ∃ key pct, (rule.entries template).lookup key = some pct ∧
        rule.asOverride false (key, pct) = o := by
  rw [layers, List.mem_append, List.mem_map]
  simp only [Prod.exists, Overrides.mem_entries]
  apply or_congr_right
  by_cases hon : rule.Templated config
  · rw [if_pos ((rule.templated_iff config).mpr hon), List.mem_map]
    simp only [Prod.exists, Overrides.mem_entries, hon, true_and]
  · have hoff : ¬ (config.template.getD true && (rule.baseline config).isSome) = true := by
      rwa [rule.templated_iff config]
    rw [if_neg hoff]
    simp [hon]

/-- Among the layers of a rule, the foremost entry of a map leads it. -/
theorem leading_of_foremost {m : Overrides ℚ} {user : Bool} {name key : String} {pct : ℚ}
    (hlayer : ∀ key' pct', m.lookup key' = some pct' →
      rule.asOverride user (key', pct') ∈ rule.layers config template)
    (hentry : m.lookup key = some pct)
    (h : Foremost name (rule.layers config template) (rule.asOverride user (key, pct))) :
    m.Leading name key pct := by
  refine ⟨hentry, h.2.1, ?_⟩
  intro key' pct' hentry' hclaims hout
  have hrank : (rule.asOverride user (key', pct')).outranks (rule.asOverride user (key, pct)) = true :=
    Override.outranks_of_outweighs rfl hout
  exact absurd (hrank.symm.trans (h.2.2 _ (hlayer key' pct' hentry') hclaims)) (by simp)

/-- What the layers hold for a name is what decides about it. -/
theorem decided (name : String) :
    rule.Decided config template name
      ((⟨rule.baseline config, rule.layers config template⟩ : Thresholds ℚ).overrideFor name) := by
  cases hfor : (⟨rule.baseline config, rule.layers config template⟩ :
      Thresholds ℚ).overrideFor name with
  | none =>
    have hnone := (Thresholds.overrideFor_eq_none _ name).mp hfor
    apply Decided.base
    · intro hclaim
      obtain ⟨key, pct, hentry, hclaims⟩ := hclaim
      have hno := hnone _ ((rule.mem_layers config template _).mpr (Or.inl ⟨key, pct, hentry, rfl⟩))
      exact absurd (hclaims.symm.trans hno) (by simp)
    · intro htemplate
      obtain ⟨hon, key, pct, hentry, hclaims⟩ := htemplate
      have hno := hnone _
        ((rule.mem_layers config template _).mpr (Or.inr ⟨hon, key, pct, hentry, rfl⟩))
      exact absurd (hclaims.symm.trans hno) (by simp)
  | some value =>
    obtain ⟨o, hfore, rfl⟩ := Thresholds.exists_foremost hfor
    rcases (rule.mem_layers config template o).mp hfore.1 with
      ⟨key, pct, hentry, rfl⟩ | ⟨hon, key, pct, hentry, rfl⟩
    · apply Decided.user key pct
      refine rule.leading_of_foremost config template ?_ hentry hfore
      intro key' pct' hentry'
      exact (rule.mem_layers config template _).mpr (Or.inl ⟨key', pct', hentry', rfl⟩)
    · apply Decided.template key pct
      · -- a user entry that claims the name would outrank this one
        intro hclaim
        obtain ⟨key', pct', hentry', hclaims⟩ := hclaim
        have hmem := (rule.mem_layers config template _).mpr (Or.inl ⟨key', pct', hentry', rfl⟩)
        have hrank := hfore.2.2 _ hmem hclaims
        rw [Override.outranks_of_user rfl rfl] at hrank
        exact absurd hrank (by simp)
      · exact hon
      · refine rule.leading_of_foremost config template ?_ hentry hfore
        intro key' pct' hentry'
        exact (rule.mem_layers config template _).mpr (Or.inr ⟨hon, key', pct', hentry', rfl⟩)

/-- Of a rule whose base is off only the user's entries decide. -/
theorem undecided {rule : ThresholdRule} {config : AlertsConfig ℚ ℚ} {template : Template ℚ ℚ}
    {name : String} {verdict : Option (Option ℚ)} (h : rule.Decided config template name verdict)
    (hbase : rule.baseline config = none) (hfree : ¬ (rule.overrides config).Claims name) :
    verdict = none := by
  cases h with
  | user key pct h => exact absurd ⟨key, pct, h.entry, h.claims⟩ hfree
  | template key pct _ hon _ => exact absurd hbase hon.2
  | base _ _ => rfl

end ThresholdRule

theorem mem_dropLast_of_tail {c : Char} {l : List Char} (h : c ∈ l.tail.dropLast) :
    c ∈ l.dropLast := by
  cases l with
  | nil => simp at h
  | cons first rest =>
    have hne : rest ≠ [] := by
      intro hnil
      rw [List.tail_cons, hnil] at h
      simp at h
    rw [List.dropLast_cons_of_ne_nil hne]
    exact List.mem_cons_of_mem first h

/-- A key with a `*` inside counts as an exact name. -/
theorem reading_interior {key : String} (h : '*' ∈ key.toList.tail.dropLast) :
    reading key = .exact key := by
  have hrest (leading : Bool) : '*' ∈ (if leading then key.toList.tail else key.toList).dropLast := by
    cases leading with
    | true => exact h
    | false => exact mem_dropLast_of_tail h
  have hliteral (l : List Char) (hl : '*' ∈ l.dropLast) (trailing : Bool) :
      '*' ∈ if trailing then l.dropLast else l := by
    cases trailing with
    | true => exact hl
    | false => exact List.dropLast_subset l hl
  have herror : ∃ e, Matcher.parse key = .error e := ⟨_, if_pos (hliteral _ (hrest _) _)⟩
  obtain ⟨e, he⟩ := herror
  rw [reading, he]

example : reading "rust*analyzer" = .exact "rust*analyzer" := by decide

/-- What is left of a byte ceiling: 0 removes it. -/
def byteCeiling (configured : Option Nat) (builtin : Nat) : Option Nat :=
  if configured = some 0 then none else some (configured.getD builtin)

/-- A share of the memory in bytes: the product of the two doubles to a whole byte downwards, as far
as a `u64` goes. -/
def shareBytes (share : ℚ) (total : Nat) : Nat :=
  min ⌊toF64 (share * toF64 total)⌋.toNat (2 ^ 64 - 1)

theorem fractionBytes_eq (share : ℚ) (total : Nat) :
    fractionBytes share total = shareBytes share total := by
  rw [fractionBytes, shareBytes]
  split_ifs with hhuge
  · have hfloor : ((u64Max + 1 : ℕ) : ℤ) ≤ ⌊toF64 (share * toF64 total)⌋ := by
      rw [Int.le_floor]
      exact_mod_cast hhuge
    rw [eq_comm, min_eq_right]
    · rfl
    · rw [u64Max] at hfloor
      omega
  · rfl

/-- A percentage is not exact: 29 % of a hundred bytes are 28. -/
example : (ThresholdRule.memory.value 29).map (shareBytes · 100) = some 28 := by decide +kernel

/-- A memory bar: an override's share of the memory, else the lower of the base share and the
ceiling. -/
def barOf (total : Nat) : Option (Option ℚ) → Option ℚ → Option Nat → Option Nat
  | some value, _, _ => value.map fun share => shareBytes share total
  | none, none, _ => none
  | none, some share, none => some (shareBytes share total)
  | none, some share, some ceiling => some (min (shareBytes share total) ceiling)

theorem lowerBar_base (base : Option ℚ) (configured : Option Nat) (builtin total : Nat) :
    lowerBar (base.map fun share => shareBytes share total)
        (bytesDefault base configured builtin) =
      barOf total none base (byteCeiling configured builtin) := by
  rcases base with _ | share
  · rfl
  · rcases configured with _ | _ | bytes
    · rfl
    · rfl
    · simp [bytesDefault, byteCeiling, barOf, lowerBar]

namespace ActiveThresholds

variable (config : AlertsConfig ℚ ℚ) (template : Template ℚ ℚ) (name : String) (total : Nat)

theorem memoryBarBytes_eq :
    (fromConfigWithTemplate config template).memoryBarBytes name total =
      barOf total ((fromConfigWithTemplate config template).memory.overrideFor name)
        (ThresholdRule.memory.baseline config) (byteCeiling config.memBytes (4 * 2 ^ 30)) := by
  have hbase : (fromConfigWithTemplate config template).memory.base =
      ThresholdRule.memory.baseline config :=
    congrArg Thresholds.base (ThresholdRule.memory.thresholds_active config template)
  have hbytes : (fromConfigWithTemplate config template).memoryBytes =
      bytesDefault (ThresholdRule.memory.baseline config) config.memBytes defaultMemoryBytes := by
    rw [← ThresholdRule.baseDefault_scale]
    rfl
  simp only [memoryBarBytes, memoryBaseBytes, fractionBytes_eq]
  rw [hbase, hbytes, lowerBar_base]
  cases (fromConfigWithTemplate config template).memory.overrideFor name <;> rfl

theorem appMemoryBarBytes_eq :
    (fromConfigWithTemplate config template).appMemoryBarBytes name total =
      barOf total ((fromConfigWithTemplate config template).appMemory.overrideFor name)
        (ThresholdRule.appMemory.baseline config) (byteCeiling config.appMemBytes (8 * 2 ^ 30)) := by
  have hbase : (fromConfigWithTemplate config template).appMemory.base =
      ThresholdRule.appMemory.baseline config :=
    congrArg Thresholds.base (ThresholdRule.appMemory.thresholds_active config template)
  have hbytes : (fromConfigWithTemplate config template).appMemoryBytes =
      bytesDefault (ThresholdRule.appMemory.baseline config) config.appMemBytes
        defaultAppMemoryBytes := by
    rw [← ThresholdRule.baseDefault_scale]
    rfl
  simp only [appMemoryBarBytes, fractionBytes_eq]
  rw [hbase, hbytes, lowerBar_base]
  cases (fromConfigWithTemplate config template).appMemory.overrideFor name <;> rfl

end ActiveThresholds

/-- For every configuration, template and name: each rule's threshold is the one the foremost
layer decides, whatever order the overrides of a layer come in, and the memory bars follow it. -/
theorem ActiveThresholds.precedence (config : AlertsConfig ℚ ℚ) (template : Template ℚ ℚ)
    (name : String) :
    let active := ActiveThresholds.fromConfigWithTemplate config template
    (∀ key : String, '*' ∈ key.toList.tail.dropLast → reading key = .exact key) ∧
    (∀ rule : ThresholdRule,
      (rule.thresholds active).base = rule.baseline config ∧
      rule.Decided config template name ((rule.thresholds active).overrideFor name) ∧
      (rule.thresholds active).forProcess name =
        ((rule.thresholds active).overrideFor name).getD (rule.baseline config)) ∧
    (∀ (rule : ThresholdRule) (overrides : List (Override ℚ)),
      overrides.Perm (rule.thresholds active).overrides →
      (∀ a b, Foremost name overrides a → Foremost name overrides b → a.Tied b →
        a.value = b.value) →
      (⟨rule.baseline config, overrides⟩ : Thresholds ℚ).forProcess name =
        (rule.thresholds active).forProcess name) ∧
    (∀ total : Nat,
      active.memoryBarBytes name total = barOf total (active.memory.overrideFor name)
        (ThresholdRule.memory.baseline config) (byteCeiling config.memBytes (4 * 2 ^ 30)) ∧
      active.appMemoryBarBytes name total = barOf total (active.appMemory.overrideFor name)
        (ThresholdRule.appMemory.baseline config) (byteCeiling config.appMemBytes (8 * 2 ^ 30))) ∧
    (∀ (rule : ThresholdRule) (pct : ℚ), rule.configured config = some pct → pct ≤ 0 →
      ¬ (rule.overrides config).Claims name →
      (rule.thresholds active).forProcess name = none ∧
      (rule = .memory → ∀ total, active.memoryBarBytes name total = none) ∧
      (rule = .appMemory → ∀ total, active.appMemoryBarBytes name total = none)) := by
  intro active
  have hactive (rule : ThresholdRule) : rule.thresholds active =
      ⟨rule.baseline config, rule.layers config template⟩ :=
    rule.thresholds_active config template
  have hdecided (rule : ThresholdRule) : rule.Decided config template name
      ((rule.thresholds active).overrideFor name) := by
    rw [hactive]
    exact rule.decided config template name
  have hfor (rule : ThresholdRule) : (rule.thresholds active).forProcess name =
      ((rule.thresholds active).overrideFor name).getD (rule.baseline config) := by
    rw [hactive]
    rfl
  refine ⟨fun key => reading_interior, fun rule => ⟨?_, hdecided rule, hfor rule⟩, ?_, ?_, ?_⟩
  · rw [hactive]
    rfl
  · intro rule overrides hperm hties
    rw [hfor, Thresholds.forProcess, Thresholds.overrideFor_perm name hperm hties]
  · intro total
    exact ⟨memoryBarBytes_eq config template name total,
      appMemoryBarBytes_eq config template name total⟩
  · intro rule pct hconfigured hpct hfree
    have hbase : rule.baseline config = none := by
      rw [ThresholdRule.baseline, hconfigured]
      exact if_pos hpct
    have hnone : (rule.thresholds active).overrideFor name = none :=
      ThresholdRule.undecided (hdecided rule) hbase hfree
    refine ⟨?_, ?_, ?_⟩
    · rw [hfor, hnone, hbase]
      rfl
    · intro hrule total
      subst hrule
      rw [memoryBarBytes_eq, hbase]
      exact congrArg (barOf total · none _) hnone
    · intro hrule total
      subst hrule
      rw [appMemoryBarBytes_eq, hbase]
      exact congrArg (barOf total · none _) hnone

end Zstats
