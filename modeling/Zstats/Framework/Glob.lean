import Mathlib.Data.List.Basic

namespace Glob

variable {α : Type*} {star : α} {fold : α → α}

/-- A star stands for any string, every other symbol for itself up to the folding. -/
inductive Matches (star : α) (fold : α → α) : List α → List α → Prop where
  | nil : Matches star fold [] []
  | star (skipped : List α) {key text : List α} :
      Matches star fold key text → Matches star fold (star :: key) (skipped ++ text)
  | symbol {c d : α} {key text : List α} :
      c ≠ star → fold d = fold c → Matches star fold key text → Matches star fold (c :: key) (d :: text)

/-- Equal up to the folding. -/
def Same (fold : α → α) (text literal : List α) : Prop := text.map fold = literal.map fold

theorem matches_nil {text : List α} : Matches star fold [] text ↔ text = [] := by
  constructor
  · intro h
    cases h
    rfl
  · intro heq
    subst heq
    exact .nil

theorem matches_star {key text : List α} :
    Matches star fold (star :: key) text ↔
      ∃ skipped rest, text = skipped ++ rest ∧ Matches star fold key rest := by
  constructor
  · intro h
    cases h with
    | star skipped hrest => exact ⟨skipped, _, rfl, hrest⟩
    | symbol hne _ _ => exact absurd rfl hne
  · intro hcase
    obtain ⟨skipped, rest, rfl, hrest⟩ := hcase
    exact .star skipped hrest

theorem matches_symbol {c : α} (hc : c ≠ star) {key text : List α} :
    Matches star fold (c :: key) text ↔
      ∃ d rest, text = d :: rest ∧ fold d = fold c ∧ Matches star fold key rest := by
  constructor
  · intro h
    cases h with
    | star skipped hrest => exact absurd rfl hc
    | symbol hne hfold hrest => exact ⟨_, _, rfl, hfold, hrest⟩
  · intro hcase
    obtain ⟨d, rest, rfl, hfold, hrest⟩ := hcase
    exact .symbol hc hfold hrest

/-- A literal in front stands for itself. -/
theorem matches_append {literal : List α} (hliteral : star ∉ literal) {key text : List α} :
    Matches star fold (literal ++ key) text ↔
      ∃ front rest, text = front ++ rest ∧ Same fold front literal ∧ Matches star fold key rest := by
  induction literal generalizing text with
  | nil =>
    constructor
    · intro h
      exact ⟨[], text, rfl, rfl, h⟩
    · intro hcase
      obtain ⟨front, rest, rfl, hsame, hrest⟩ := hcase
      have hfront : front = [] := by simpa [Same] using hsame
      rw [hfront]
      exact hrest
  | cons c literal ih =>
    have hc : c ≠ star := fun h => hliteral (h ▸ List.mem_cons_self)
    have hrest : star ∉ literal := fun h => hliteral (List.mem_cons_of_mem c h)
    rw [List.cons_append, matches_symbol hc]
    constructor
    · intro hcase
      obtain ⟨d, tail, rfl, hfold, htail⟩ := hcase
      obtain ⟨front, rest, rfl, hsame, hmatches⟩ := (ih hrest).mp htail
      have hcons : Same fold (d :: front) (c :: literal) := by
        rw [Same, List.map_cons, List.map_cons, hfold, hsame]
      exact ⟨d :: front, rest, rfl, hcons, hmatches⟩
    · intro hcase
      obtain ⟨front, rest, rfl, hsame, hmatches⟩ := hcase
      cases front with
      | nil => simp [Same] at hsame
      | cons d front =>
        rw [Same, List.map_cons, List.map_cons, List.cons.injEq] at hsame
        exact ⟨d, front ++ rest, rfl, hsame.1, (ih hrest).mpr ⟨front, rest, rfl, hsame.2, hmatches⟩⟩

theorem matches_literal {literal : List α} (h : star ∉ literal) {text : List α} :
    Matches star fold literal text ↔ Same fold text literal := by
  rw [← List.append_nil literal, matches_append h]
  constructor
  · intro hcase
    obtain ⟨front, rest, rfl, hsame, hrest⟩ := hcase
    rw [matches_nil] at hrest
    rw [hrest, List.append_nil, List.append_nil]
    exact hsame
  · intro hsame
    rw [List.append_nil] at hsame
    exact ⟨text, [], by simp, hsame, .nil⟩

theorem Same.length_eq {text literal : List α} (h : Same fold text literal) :
    text.length = literal.length := by
  have hlength := congrArg List.length h
  simpa using hlength

/-- A star alone stands for any string. -/
theorem matches_any (text : List α) : Matches star fold [star] text := by
  rw [matches_star]
  exact ⟨text, [], by simp, .nil⟩

theorem matches_trailing {literal : List α} (h : star ∉ literal) {text : List α} :
    Matches star fold (literal ++ [star]) text ↔
      literal.length ≤ text.length ∧ Same fold (text.take literal.length) literal := by
  rw [matches_append h]
  constructor
  · intro hcase
    obtain ⟨front, rest, rfl, hsame, -⟩ := hcase
    rw [← hsame.length_eq, List.take_left, List.length_append]
    exact ⟨Nat.le_add_right _ _, hsame⟩
  · intro hcase
    obtain ⟨-, hsame⟩ := hcase
    exact ⟨_, _, (List.take_append_drop literal.length text).symm, hsame, matches_any _⟩

theorem matches_leading {literal : List α} (h : star ∉ literal) {text : List α} :
    Matches star fold (star :: literal) text ↔
      literal.length ≤ text.length ∧ Same fold (text.drop (text.length - literal.length)) literal := by
  rw [matches_star]
  constructor
  · intro hcase
    obtain ⟨skipped, rest, rfl, hrest⟩ := hcase
    have hsame := (matches_literal h).mp hrest
    have hlength := hsame.length_eq
    have hskip : (skipped ++ rest).length - literal.length = skipped.length := by
      rw [List.length_append]
      omega
    rw [hskip, List.drop_left, List.length_append]
    exact ⟨by omega, hsame⟩
  · intro hcase
    obtain ⟨-, hsame⟩ := hcase
    exact ⟨_, _, (List.take_append_drop _ text).symm, (matches_literal h).mpr hsame⟩

theorem matches_both {literal : List α} (h : star ∉ literal) {text : List α} :
    Matches star fold (star :: (literal ++ [star])) text ↔
      ∃ i, i + literal.length ≤ text.length ∧ Same fold ((text.drop i).take literal.length) literal := by
  rw [matches_star]
  constructor
  · intro hcase
    obtain ⟨skipped, rest, rfl, hrest⟩ := hcase
    obtain ⟨hfits, hsame⟩ := (matches_trailing h).mp hrest
    refine ⟨skipped.length, ?_, ?_⟩
    · rw [List.length_append]
      omega
    · rw [List.drop_left]
      exact hsame
  · intro hcase
    obtain ⟨i, hfits, hsame⟩ := hcase
    refine ⟨_, _, (List.take_append_drop i text).symm, (matches_trailing h).mpr ⟨?_, hsame⟩⟩
    rw [List.length_drop]
    omega

end Glob
