import Mathlib.Data.List.Basic
import Mathlib.Data.List.Nodup
import Mathlib.Data.Option.Basic

namespace Fielded

/-- A record type by its fields: each can be read and replaced, and together they are all of it. -/
structure Shape (ρ φ : Type) where
  type : φ → Type
  get : (f : φ) → ρ → type f
  put : (f : φ) → ρ → type f → ρ
  fields : List φ
  get_put : ∀ f r x, get f (put f r x) = x
  get_put_ne : ∀ f g r x, g ≠ f → get g (put f r x) = get g r
  nodup : fields.Nodup
  complete : ∀ f, f ∈ fields
  ext : ∀ r r', (∀ f, get f r = get f r') → r = r'

/-- How the fields are named, written and read; what is not written has no entry. -/
structure Codec {ρ φ : Type} (shape : Shape ρ φ) (V : Type) where
  name : φ → String
  write : (f : φ) → shape.type f → Option V
  read : (f : φ) → V → Option (shape.type f)
  name_injective : Function.Injective name

namespace Codec

variable {ρ φ V : Type} {shape : Shape ρ φ} (codec : Codec shape V)

def entry (r : ρ) (f : φ) : Option (String × V) :=
  (codec.write f (shape.get f r)).map fun v => (codec.name f, v)

def encode (r : ρ) : List (String × V) := shape.fields.filterMap (codec.entry r)

/-- One field read: the default stays where there is no entry. -/
def readField (entries : List (String × V)) (r : ρ) (f : φ) : Option ρ :=
  match entries.lookup (codec.name f) with
  | none => some r
  | some v => (codec.read f v).map (shape.put f r)

def decode (default : ρ) (entries : List (String × V)) : Option ρ :=
  shape.fields.foldlM (codec.readField entries) default

/-- What the entries tell of a field is what the record holds. -/
def Tells (default : ρ) (entries : List (String × V)) (r : ρ) (f : φ) : Prop :=
  (entries.lookup (codec.name f) = none → shape.get f r = shape.get f default) ∧
  ∀ v, entries.lookup (codec.name f) = some v → codec.read f v = some (shape.get f r)

variable {codec}

theorem readField_some {entries : List (String × V)} {r r' : ρ} {f : φ}
    (h : codec.readField entries r f = some r') :
    codec.Tells r entries r' f ∧ ∀ g, g ≠ f → shape.get g r' = shape.get g r := by
  rw [readField] at h
  cases hlookup : entries.lookup (codec.name f) with
  | none =>
    rw [hlookup] at h
    obtain rfl := Option.some.inj h
    simp [Tells, hlookup]
  | some v =>
    rw [hlookup] at h
    obtain ⟨x, hx, rfl⟩ := Option.map_eq_some_iff.mp h
    constructor
    · simp [Tells, hlookup, hx, shape.get_put]
    · intro g hg
      exact shape.get_put_ne f g r x hg

/-- The fields of a list are read, and no other is touched. -/
theorem foldlM_some {entries : List (String × V)} {fields : List φ} (hnodup : fields.Nodup)
    {default r : ρ} (h : fields.foldlM (codec.readField entries) default = some r) :
    (∀ f ∈ fields, codec.Tells default entries r f) ∧
      ∀ f, f ∉ fields → shape.get f r = shape.get f default := by
  induction fields generalizing default with
  | nil =>
    obtain rfl := Option.some.inj h
    simp
  | cons f fields ih =>
    obtain ⟨hf, hfields⟩ := List.nodup_cons.mp hnodup
    rw [List.foldlM_cons] at h
    obtain ⟨next, hnext, hrest⟩ := Option.bind_eq_some_iff.mp h
    obtain ⟨htells, hothers⟩ := readField_some hnext
    obtain ⟨hread, hkept⟩ := ih hfields hrest
    constructor
    · intro g hg
      rcases List.mem_cons.mp hg with rfl | hmem
      · rw [Tells, hkept g hf]
        exact htells
      · have hne : g ≠ f := fun heq => hf (heq ▸ hmem)
        have hg := hread g hmem
        rw [Tells, hothers g hne] at hg
        exact hg
    · intro g hg
      rw [List.mem_cons, not_or] at hg
      rw [hkept g hg.2, hothers g hg.1]

/-- A list of fields each of which can be read is read. -/
theorem foldlM_isSome {entries : List (String × V)} (fields : List φ) (default : ρ)
    (h : ∀ f ∈ fields, ∀ v, entries.lookup (codec.name f) = some v → (codec.read f v).isSome) :
    (fields.foldlM (codec.readField entries) default).isSome := by
  induction fields generalizing default with
  | nil => rfl
  | cons f fields ih =>
    obtain ⟨hf, hfields⟩ := List.forall_mem_cons.mp h
    have hone : (codec.readField entries default f).isSome := by
      rw [readField]
      cases hlookup : entries.lookup (codec.name f) with
      | none => rfl
      | some v => simpa using hf v hlookup
    obtain ⟨next, hnext⟩ := Option.isSome_iff_exists.mp hone
    rw [List.foldlM_cons, hnext]
    exact ih next hfields

/-- A table is read as the one record that its entries tell of. -/
theorem decode_eq_some_iff {default r : ρ} {entries : List (String × V)} :
    codec.decode default entries = some r ↔ ∀ f, codec.Tells default entries r f := by
  constructor
  · intro h f
    exact (foldlM_some shape.nodup h).1 f (shape.complete f)
  · intro h
    have hreads : ∀ f ∈ shape.fields, ∀ v, entries.lookup (codec.name f) = some v →
        (codec.read f v).isSome := by
      intro f _ v hv
      rw [(h f).2 v hv]
      rfl
    have hsome := foldlM_isSome shape.fields default hreads
    obtain ⟨r', hr'⟩ := Option.isSome_iff_exists.mp hsome
    have htells := (foldlM_some shape.nodup hr').1
    have hsame : r' = r := by
      apply shape.ext
      intro f
      obtain ⟨hnone, hsome⟩ := htells f (shape.complete f)
      cases hlookup : entries.lookup (codec.name f) with
      | none => rw [hnone hlookup, (h f).1 hlookup]
      | some v => exact Option.some.inj ((hsome v hlookup).symm.trans ((h f).2 v hlookup))
    rw [decode, hr', hsame]

/-- What holds of the default and of all that is read holds of every record that is read. -/
theorem decode_forall {default r : ρ} {entries : List (String × V)}
    (h : codec.decode default entries = some r) {P : (f : φ) → shape.type f → Prop}
    (hdefault : ∀ f, P f (shape.get f default))
    (hread : ∀ f v x, codec.read f v = some x → P f x) (f : φ) : P f (shape.get f r) := by
  obtain ⟨hnone, hsome⟩ := decode_eq_some_iff.mp h f
  cases hlookup : entries.lookup (codec.name f) with
  | none =>
    rw [hnone hlookup]
    exact hdefault f
  | some v => exact hread f v _ (hsome v hlookup)

theorem lookup_cons_entry (r : ρ) (fields : List φ) {f g : φ} (h : g ≠ f) :
    ((g :: fields).filterMap (codec.entry r)).lookup (codec.name f) =
      (fields.filterMap (codec.entry r)).lookup (codec.name f) := by
  have hname : codec.name f ≠ codec.name g := fun heq => h (codec.name_injective heq).symm
  cases hwrite : codec.write g (shape.get g r) with
  | none =>
    have hentry : codec.entry r g = none := by simp [entry, hwrite]
    rw [List.filterMap_cons_none hentry]
  | some v =>
    have hentry : codec.entry r g = some (codec.name g, v) := by simp [entry, hwrite]
    rw [List.filterMap_cons_some hentry, List.lookup_cons, beq_false_of_ne hname]

theorem lookup_other (r : ρ) {fields : List φ} {f : φ} (h : f ∉ fields) :
    (fields.filterMap (codec.entry r)).lookup (codec.name f) = none := by
  induction fields with
  | nil => rfl
  | cons g fields ih =>
    rw [List.mem_cons, not_or] at h
    rw [lookup_cons_entry r fields (Ne.symm h.1)]
    exact ih h.2

/-- The entry of a field is what is written of it. -/
theorem lookup_encode (r : ρ) (f : φ) :
    (codec.encode r).lookup (codec.name f) = codec.write f (shape.get f r) := by
  obtain ⟨before, after, hfields⟩ := List.mem_iff_append.mp (shape.complete f)
  have hnodup := shape.nodup
  rw [hfields, List.nodup_append] at hnodup
  obtain ⟨-, hafter, hapart⟩ := hnodup
  have hbefore : f ∉ before := fun hf => hapart f hf f (by simp) rfl
  rw [encode, hfields, List.filterMap_append, List.lookup_append, lookup_other r hbefore,
    Option.none_or]
  cases hwrite : codec.write f (shape.get f r) with
  | none =>
    have hentry : codec.entry r f = none := by simp [entry, hwrite]
    rw [List.filterMap_cons_none hentry]
    exact lookup_other r (List.nodup_cons.mp hafter).1
  | some v =>
    have hentry : codec.entry r f = some (codec.name f, v) := by simp [entry, hwrite]
    rw [List.filterMap_cons_some hentry, List.lookup_cons, beq_self_eq_true]

/-- A record that is written is read back, whatever the default, if each field is: what is written
is read as the value, and what is not written is the default. -/
theorem decode_encode {default r : ρ}
    (hwritten : ∀ f v, codec.write f (shape.get f r) = some v →
      codec.read f v = some (shape.get f r))
    (hskipped : ∀ f, codec.write f (shape.get f r) = none →
      shape.get f r = shape.get f default) :
    codec.decode default (codec.encode r) = some r := by
  rw [decode_eq_some_iff]
  intro f
  rw [Tells, lookup_encode]
  exact ⟨hskipped f, hwritten f⟩

end Codec

end Fielded
