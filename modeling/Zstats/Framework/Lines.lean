import Mathlib.Data.List.Infix

namespace Lines

variable {α : Type*} [DecidableEq α] (nl : α)

/-- The lines ended by `nl`, and the rest that no `nl` has ended. -/
def split : List α → List (List α) × List α
  | [] => ([], [])
  | a :: l =>
    if a = nl then ([] :: (split l).1, (split l).2)
    else
      match (split l).1 with
      | [] => ([], a :: (split l).2)
      | line :: lines => ((a :: line) :: lines, (split l).2)

def ended (l : List α) : List (List α) := (split nl l).1

def rest (l : List α) : List α := (split nl l).2

@[simp] theorem ended_nil : ended nl ([] : List α) = [] := rfl

@[simp] theorem rest_nil : rest nl ([] : List α) = [] := rfl

theorem ended_newline (l : List α) : ended nl (nl :: l) = [] :: ended nl l := by
  simp [ended, split]

theorem rest_newline (l : List α) : rest nl (nl :: l) = rest nl l := by
  simp [rest, split]

variable {nl}

theorem cons_of_ended_nil {a : α} {l : List α} (ha : a ≠ nl) (h : ended nl l = []) :
    ended nl (a :: l) = [] ∧ rest nl (a :: l) = a :: rest nl l := by
  have hsplit : (split nl l).1 = [] := h
  simp [ended, rest, split, ha, hsplit]

theorem cons_of_ended_cons {a : α} {l line : List α} {lines : List (List α)} (ha : a ≠ nl)
    (h : ended nl l = line :: lines) :
    ended nl (a :: l) = (a :: line) :: lines ∧ rest nl (a :: l) = rest nl l := by
  have hsplit : (split nl l).1 = line :: lines := h
  simp [ended, rest, split, ha, hsplit]

/-- Appending leaves the ended lines and goes on with the rest. -/
theorem split_append (l m : List α) :
    ended nl (l ++ m) = ended nl l ++ ended nl (rest nl l ++ m) ∧
      rest nl (l ++ m) = rest nl (rest nl l ++ m) := by
  induction l with
  | nil => exact ⟨rfl, rfl⟩
  | cons a l ih =>
    by_cases ha : a = nl
    · subst ha
      rw [List.cons_append, ended_newline, ended_newline, rest_newline, rest_newline, ih.1, ih.2]
      exact ⟨rfl, rfl⟩
    · cases hl : ended nl l with
      | nil =>
        obtain ⟨hended, hrest⟩ := cons_of_ended_nil ha hl
        rw [hl, List.nil_append] at ih
        rw [hended, hrest, List.nil_append, List.cons_append, List.cons_append]
        cases hm : ended nl (rest nl l ++ m) with
        | nil =>
          rw [hm] at ih
          obtain ⟨hleft, hleft'⟩ := cons_of_ended_nil ha ih.1
          obtain ⟨hright, hright'⟩ := cons_of_ended_nil ha hm
          rw [hleft, hleft', hright, hright', ih.2]
          exact ⟨rfl, rfl⟩
        | cons line lines =>
          rw [hm] at ih
          obtain ⟨hleft, hleft'⟩ := cons_of_ended_cons ha ih.1
          obtain ⟨hright, hright'⟩ := cons_of_ended_cons ha hm
          rw [hleft, hleft', hright, hright', ih.2]
          exact ⟨rfl, rfl⟩
      | cons line lines =>
        obtain ⟨hended, hrest⟩ := cons_of_ended_cons ha hl
        rw [hl, List.cons_append] at ih
        obtain ⟨hleft, hleft'⟩ := cons_of_ended_cons ha ih.1
        rw [hended, hrest, List.cons_append, hleft, hleft', ih.2]
        exact ⟨rfl, rfl⟩

/-- Lines that have been ended stay, whatever is appended. -/
theorem ended_kept (l m : List α) : ended nl l <+: ended nl (l ++ m) :=
  ⟨ended nl (rest nl l ++ m), (split_append l m).1.symm⟩

/-- Appending a whole line to anything ends one line, made of the rest and of that line. -/
theorem ended_of_not_mem {line : List α} (h : nl ∉ line) (m : List α) :
    ended nl (line ++ nl :: m) = line :: ended nl m ∧ rest nl (line ++ nl :: m) = rest nl m := by
  induction line with
  | nil => exact ⟨ended_newline nl m, rest_newline nl m⟩
  | cons a line ih =>
    have ha : a ≠ nl := fun heq => h (by simp [heq])
    have hline : nl ∉ line := fun hmem => h (List.mem_cons_of_mem a hmem)
    obtain ⟨hended, hrest⟩ := ih hline
    obtain ⟨hleft, hleft'⟩ := cons_of_ended_cons ha hended
    rw [List.cons_append, hleft, hleft', hrest]
    exact ⟨rfl, rfl⟩

theorem newline_not_mem_rest (l : List α) : nl ∉ rest nl l := by
  induction l with
  | nil => simp
  | cons a l ih =>
    by_cases ha : a = nl
    · subst ha
      rw [rest_newline]
      exact ih
    · cases hl : ended nl l with
      | nil =>
        rw [(cons_of_ended_nil ha hl).2]
        intro hmem
        rcases List.mem_cons.mp hmem with heq | hmem
        · exact ha heq.symm
        · exact ih hmem
      | cons line lines =>
        rw [(cons_of_ended_cons ha hl).2]
        exact ih

/-- A text of whole lines. -/
def joined (nl : α) (lines : List (List α)) : List α := lines.flatMap fun line => line ++ [nl]

theorem split_joined {lines : List (List α)} (h : ∀ line ∈ lines, nl ∉ line) (m : List α) :
    ended nl (joined nl lines ++ m) = lines ++ ended nl m ∧
      rest nl (joined nl lines ++ m) = rest nl m := by
  induction lines with
  | nil => exact ⟨rfl, rfl⟩
  | cons line lines ih =>
    have hline : nl ∉ line := h line List.mem_cons_self
    have hlines : ∀ line ∈ lines, nl ∉ line := fun l hl => h l (List.mem_cons_of_mem _ hl)
    have hsplit : joined nl (line :: lines) ++ m = line ++ nl :: (joined nl lines ++ m) := by
      simp [joined]
    obtain ⟨hended, hrest⟩ := ended_of_not_mem hline (joined nl lines ++ m)
    rw [hsplit, hended, hrest, (ih hlines).1, (ih hlines).2]
    exact ⟨rfl, rfl⟩

/-- Whole lines appended where a line starts are read back as they are. -/
theorem ended_append_joined {l : List α} (hl : rest nl l = []) {lines : List (List α)}
    (h : ∀ line ∈ lines, nl ∉ line) :
    ended nl (l ++ joined nl lines) = ended nl l ++ lines ∧ rest nl (l ++ joined nl lines) = [] := by
  have hsplit := split_joined h []
  rw [List.append_nil] at hsplit
  obtain ⟨hended, hrest⟩ := split_append l (joined nl lines)
  rw [hended, hrest, hl, List.nil_append, hsplit.1, hsplit.2]
  simp

end Lines
