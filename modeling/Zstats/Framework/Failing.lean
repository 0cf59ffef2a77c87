import Mathlib.Data.List.Forall2

namespace Failing

universe u

variable {ε : Type*} {α β : Type u}

@[simp] theorem ok_bind (a : α) (f : α → Except ε β) : (Except.ok a >>= f) = f a := rfl

@[simp] theorem error_bind (error : ε) (f : α → Except ε β) :
    (Except.error error >>= f) = .error error := rfl

@[simp] theorem pure_eq (a : α) : (pure a : Except ε α) = .ok a := rfl

/-- A value that must be there. -/
def okOr (found : Option α) (error : ε) : Except ε α :=
  match found with
  | some value => .ok value
  | none => .error error

@[simp] theorem okOr_some (value : α) (error : ε) : okOr (some value) error = .ok value := rfl

/-- What follows a step is reached when the step does not fail. -/
theorem bind_eq_ok {x : Except ε α} {f : α → Except ε β} {b : β} :
    (x >>= f) = .ok b ↔ ∃ a, x = .ok a ∧ f a = .ok b := by
  cases x with
  | error error =>
    constructor
    · intro h
      cases h
    · rintro ⟨a, h, -⟩
      cases h
  | ok a =>
    constructor
    · intro h
      exact ⟨a, rfl, h⟩
    · rintro ⟨a', h, hf⟩
      cases h
      exact hf

theorem okOr_eq_ok {found : Option α} {error : ε} {value : α} :
    okOr found error = .ok value ↔ found = some value := by
  cases found <;> simp [okOr]

theorem mapError_eq_ok {ε' : Type*} {x : Except ε α} {f : ε → ε'} {a : α} :
    x.mapError f = .ok a ↔ x = .ok a := by
  cases x <;> simp [Except.mapError]

section Loops

variable {ι : Type*} {items : List ι}

theorem exists_of_forall₂ {S : ι → α → Prop} {results : List α} (h : List.Forall₂ S items results) :
    ∀ item ∈ items, ∃ a, S item a := by
  have hboth : List.Forall₂ (fun item a => (∃ a, S item a) ∧ S item a) items results :=
    h.imp fun item a hitem => ⟨⟨a, hitem⟩, hitem⟩
  exact ((List.forall₂_and_left _ _).mp hboth).1

theorem forall₂_imp {S S' : ι → α → Prop} {results : List α} (h : List.Forall₂ S items results)
    (himp : ∀ item ∈ items, ∀ a, S item a → S' item a) : List.Forall₂ S' items results := by
  have hboth := (List.forall₂_and_left _ _).mpr ⟨himp, h⟩
  exact hboth.imp fun item a hitem => hitem.1 a hitem.2

/-- All of the results are there when each one is. -/
theorem mapM_eq_ok {f : ι → Except ε α} {S : ι → α → Prop}
    (h : ∀ item ∈ items, ∀ a, f item = .ok a ↔ S item a) {results : List α} :
    items.mapM f = .ok results ↔ List.Forall₂ S items results := by
  induction items generalizing results with
  | nil =>
    rw [List.mapM_nil, List.forall₂_nil_left_iff, pure_eq, Except.ok.injEq]
    exact eq_comm
  | cons item items ih =>
    have hitem := h item List.mem_cons_self
    have hitems {results : List α} : items.mapM f = .ok results ↔ List.Forall₂ S items results :=
      ih fun i hi => h i (List.mem_cons_of_mem _ hi)
    simp only [List.mapM_cons, bind_eq_ok, pure_eq, Except.ok.injEq]
    rw [List.forall₂_cons_left_iff]
    constructor
    · intro hall
      obtain ⟨a, ha, rest, hrest, heq⟩ := hall
      exact ⟨a, rest, (hitem a).mp ha, hitems.mp hrest, heq.symm⟩
    · intro hall
      obtain ⟨a, rest, ha, hrest, heq⟩ := hall
      exact ⟨a, (hitem a).mpr ha, rest, hitems.mpr hrest, heq.symm⟩

/-- A loop that collects what its items give runs to its end when no item fails. -/
theorem foldlM_eq_ok {β : Type*} {f : ι → Except ε (Option α)} {S : ι → β → Prop}
    {give : β → Option α} (h : ∀ item a, f item = .ok a ↔ ∃ b, S item b ∧ give b = a)
    {found results : List α} :
    items.foldlM (fun found item => do return found ++ (← f item).toList) found = .ok results ↔
      ∃ bs, List.Forall₂ S items bs ∧ results = found ++ bs.filterMap give := by
  induction items generalizing found with
  | nil =>
    simp only [List.foldlM_nil, pure_eq, Except.ok.injEq, List.forall₂_nil_left_iff]
    constructor
    · intro hfound
      exact ⟨[], rfl, by rw [← hfound]; simp⟩
    · intro hgiven
      obtain ⟨bs, rfl, heq⟩ := hgiven
      rw [heq]
      simp
  | cons item items ih =>
    rw [List.foldlM_cons, bind_eq_ok]
    constructor
    · intro hrun
      obtain ⟨found', hitem, hrest⟩ := hrun
      obtain ⟨a, ha, heq⟩ := bind_eq_ok.mp hitem
      cases heq
      obtain ⟨b, hb, rfl⟩ := (h item a).mp ha
      obtain ⟨bs, hbs, hresults⟩ := ih.mp hrest
      refine ⟨b :: bs, .cons hb hbs, ?_⟩
      rw [hresults, List.filterMap_cons]
      cases give b <;> simp
    · intro hgiven
      obtain ⟨bs, hbs, hresults⟩ := hgiven
      obtain ⟨b, rest, hb, hrest, rfl⟩ := List.forall₂_cons_left_iff.mp hbs
      have hitem : f item = .ok (give b) := (h item (give b)).mpr ⟨b, hb, rfl⟩
      refine ⟨found ++ (give b).toList, bind_eq_ok.mpr ⟨give b, hitem, rfl⟩, ?_⟩
      refine ih.mpr ⟨rest, hrest, ?_⟩
      rw [hresults, List.filterMap_cons]
      cases give b <;> simp

/-- A loop that collects what its items give ends at the first item that fails. -/
theorem foldlM_eq_error {f : ι → Except ε (List α)} {found : List α} {error : ε} :
    items.foldlM (fun found item => do return found ++ (← f item)) found = .error error ↔
      ∃ before item after, items = before ++ item :: after ∧
        (∀ other ∈ before, ∃ results, f other = .ok results) ∧ f item = .error error := by
  induction items generalizing found with
  | nil =>
    rw [List.foldlM_nil]
    constructor
    · intro h
      cases h
    · rintro ⟨before, item, after, hnil, -⟩
      exact absurd hnil.symm (by simp)
  | cons first items ih =>
    rw [List.foldlM_cons]
    cases hfirst : f first with
    | error failure =>
      rw [error_bind, error_bind]
      constructor
      · intro h
        exact ⟨[], first, items, rfl, fun _ hother => absurd hother List.not_mem_nil,
          hfirst.trans h⟩
      · rintro ⟨before, item, after, hitems, hbefore, hitem⟩
        cases before with
        | nil =>
          obtain ⟨rfl, -⟩ := List.cons.inj hitems
          rw [← hitem, hfirst]
        | cons other before =>
          obtain ⟨rfl, -⟩ := List.cons.inj hitems
          obtain ⟨results, hok⟩ := hbefore _ List.mem_cons_self
          rw [hfirst] at hok
          cases hok
    | ok results =>
      rw [ok_bind, pure_eq, ok_bind, ih]
      constructor
      · rintro ⟨before, item, after, rfl, hbefore, hitem⟩
        refine ⟨first :: before, item, after, rfl, ?_, hitem⟩
        rw [List.forall_mem_cons]
        exact ⟨⟨results, hfirst⟩, hbefore⟩
      · rintro ⟨before, item, after, hitems, hbefore, hitem⟩
        cases before with
        | nil =>
          obtain ⟨rfl, -⟩ := List.cons.inj hitems
          rw [hfirst] at hitem
          cases hitem
        | cons other before =>
          obtain ⟨-, rfl⟩ := List.cons.inj hitems
          exact ⟨before, item, after, rfl, fun b hb => hbefore b (List.mem_cons_of_mem _ hb),
            hitem⟩

end Loops

/-- A computation that does not fail in one way. -/
def Avoids (error : ε) (x : Except ε α) : Prop := x ≠ .error error

section Avoiding

variable {error other : ε}

theorem avoids_ok (a : α) : Avoids error (.ok a) := fun h => by cases h

theorem avoids_error (h : other ≠ error) : Avoids error (.error other : Except ε α) :=
  fun heq => h (Except.error.inj heq)

theorem avoids_bind {x : Except ε α} {f : α → Except ε β} (hx : Avoids error x)
    (hf : ∀ a, Avoids error (f a)) : Avoids error (x >>= f) := by
  cases x with
  | error other => exact avoids_error (fun h => hx (congrArg _ h))
  | ok a => exact hf a

theorem avoids_okOr (found : Option α) (h : other ≠ error) : Avoids error (okOr found other) := by
  cases found with
  | none => exact avoids_error h
  | some a => exact avoids_ok a

end Avoiding

end Failing
