import Mathlib.Algebra.GroupWithZero.Nat
import Zstats.Framework.Lines
import Zstats.Framework.Quantity

namespace Text

/-- A line without a return at its end. -/
def withoutReturn (line : List Char) : List Char := (stripSuffix ['\r'] line).getD line

/-- `str::lines`: a final newline, and a return before it, do not belong to the line. -/
def lines (text : List Char) : List (List Char) :=
  (Lines.ended '\n' text).map withoutReturn ++
    (if Lines.rest '\n' text = [] then [] else [Lines.rest '\n' text])

/-- `str::split_whitespace`. -/
def columns (text : List Char) : List (List Char) :=
  (text.splitOnP isWhitespace).filter (· ≠ [])

/-- `str::split_once`. -/
def splitOnce (delimiter : Char) : List Char → Option (List Char × List Char)
  | [] => none
  | c :: text =>
    if c = delimiter then some ([], text)
    else (splitOnce delimiter text).map fun (front, back) => (c :: front, back)

/-- `str::len`. -/
def byteLength (text : List Char) : ℕ := (text.map Char.utf8Size).sum

/-- `str::is_ascii`. -/
def isAscii (text : List Char) : Bool := text.all (·.toNat < 128)

section Delimiter

variable {delimiter : Char}

theorem splitOnce_eq_some {text front back : List Char} :
    splitOnce delimiter text = some (front, back) ↔
      text = front ++ delimiter :: back ∧ delimiter ∉ front := by
  induction text generalizing front with
  | nil => simp [splitOnce]
  | cons c text ih =>
    by_cases hc : c = delimiter
    · subst hc
      rw [splitOnce, if_pos rfl]
      constructor
      · intro h
        cases h
        exact ⟨rfl, by simp⟩
      · intro h
        obtain ⟨heq, hmem⟩ := h
        cases front with
        | nil =>
          cases heq
          rfl
        | cons d front =>
          cases heq
          exact absurd List.mem_cons_self hmem
    · rw [splitOnce, if_neg hc, Option.map_eq_some_iff]
      constructor
      · intro h
        obtain ⟨⟨front', back'⟩, hsplit, heq⟩ := h
        cases heq
        obtain ⟨rfl, hmem⟩ := ih.mp hsplit
        refine ⟨rfl, ?_⟩
        intro hdelimiter
        rcases List.mem_cons.mp hdelimiter with heq | hdelimiter
        · exact hc heq.symm
        · exact hmem hdelimiter
      · intro h
        obtain ⟨heq, hmem⟩ := h
        cases front with
        | nil =>
          cases heq
          exact absurd rfl hc
        | cons d front =>
          cases heq
          have hfront : delimiter ∉ front := fun h => hmem (List.mem_cons_of_mem _ h)
          exact ⟨(front, back), ih.mpr ⟨rfl, hfront⟩, rfl⟩

end Delimiter

/-- An ASCII text has one byte for each character. -/
theorem byteLength_of_isAscii {text : List Char} (h : isAscii text = true) :
    byteLength text = text.length := by
  induction text with
  | nil => rfl
  | cons c text ih =>
    simp only [isAscii, List.all_cons, Bool.and_eq_true, decide_eq_true_eq] at h
    obtain ⟨hc, htext⟩ := h
    have hsize : c.utf8Size = 1 := by
      rw [Char.utf8Size_eq_one_iff, UInt32.le_iff_toNat_le]
      exact Nat.le_of_lt_succ hc
    have hstep := ih htext
    simp only [byteLength] at hstep
    rw [byteLength, List.map_cons, List.sum_cons, hsize, hstep, List.length_cons, Nat.add_comm]

section Columns

theorem columns_append_cons {c : Char} (hc : isWhitespace c = true) (front back : List Char) :
    columns (front ++ c :: back) = columns front ++ columns back := by
  rw [columns, List.splitOnP_append_cons front back hc, List.filter_append, columns, columns]

theorem columns_blank_append {w : List Char} (h : Blank w) (text : List Char) :
    columns (w ++ text) = columns text := by
  induction w with
  | nil => rfl
  | cons c w ih =>
    have hw : Blank w := fun d hd => h d (List.mem_cons_of_mem c hd)
    have hcolumns := columns_append_cons (h c List.mem_cons_self) [] (w ++ text)
    rw [List.nil_append] at hcolumns
    rw [List.cons_append, hcolumns, ih hw]
    rfl

theorem columns_blank {w : List Char} (h : Blank w) : columns w = [] := by
  have hcolumns := columns_blank_append h []
  rw [List.append_nil] at hcolumns
  rw [hcolumns]
  rfl

/-- Whitespace sets columns apart. -/
theorem columns_gap {gap : List Char} (hsome : gap ≠ []) (h : Blank gap) (front back : List Char) :
    columns (front ++ (gap ++ back)) = columns front ++ columns back := by
  obtain ⟨c, gap, rfl⟩ := List.exists_cons_of_ne_nil hsome
  have hgap : Blank gap := fun d hd => h d (List.mem_cons_of_mem c hd)
  rw [List.cons_append, columns_append_cons (h c List.mem_cons_self), columns_blank_append hgap]

theorem columns_append_blank (text : List Char) {w : List Char} (h : Blank w) :
    columns (text ++ w) = columns text := by
  by_cases hempty : w = []
  · rw [hempty, List.append_nil]
  · have hgap := columns_gap hempty h text []
    rw [List.append_nil] at hgap
    rw [hgap]
    exact List.append_nil _

/-- A text that stands as one column. -/
structure Solid (text : List Char) : Prop where
  nonempty : text ≠ []
  solid : ∀ c ∈ text, isWhitespace c = false

theorem solid_of_all {text : List Char} (hsome : text ≠ [])
    (h : text.all (fun c => !isWhitespace c) = true) : Solid text := by
  refine ⟨hsome, ?_⟩
  simpa using h

theorem columns_solid {text : List Char} (h : Solid text) : columns text = [text] := by
  rw [columns, List.splitOnP_eq_singleton h.solid]
  simp [h.nonempty]

theorem columns_trim_nil {text : List Char} (h : trim text = []) : columns text = [] := by
  obtain ⟨w, w', hw, hw', htext⟩ := exists_trim text
  rw [h, List.append_nil] at htext
  rw [htext, columns_append_blank w hw', columns_blank hw]

end Columns

section Layout

/-- Whitespace within a line. -/
structure Padding where
  text : List Char
  blank : Blank text
  inLine : '\n' ∉ text

/-- Whitespace between two columns. -/
structure Gap extends Padding where
  nonempty : text ≠ []

/-- The whitespace of a line: before its columns, between each two and after them. -/
structure Layout where
  lead : Padding
  gap : ℕ → Gap
  trail : Padding

def spread (gap : ℕ → Gap) : List (List Char) → List Char
  | [] => []
  | column :: columns => (gap 0).text ++ (column ++ spread (fun i => gap (i + 1)) columns)

def Layout.line (layout : Layout) : List (List Char) → List Char
  | [] => layout.lead.text ++ layout.trail.text
  | column :: columns =>
    layout.lead.text ++ (column ++ spread layout.gap columns ++ layout.trail.text)

theorem columns_spread {cells : List (List Char)} (h : ∀ cell ∈ cells, Solid cell)
    (gap : ℕ → Gap) (front : List Char) :
    columns (front ++ spread gap cells) = columns front ++ cells := by
  induction cells generalizing gap front with
  | nil => simp [spread]
  | cons cell cells ih =>
    have hcells : ∀ cell ∈ cells, Solid cell := fun c hc => h c (List.mem_cons_of_mem _ hc)
    have hcell := columns_solid (h cell List.mem_cons_self)
    rw [spread, columns_gap (gap 0).nonempty (gap 0).blank, ih hcells, hcell, List.singleton_append]

/-- The columns of a line are read back, however they are padded. -/
theorem columns_line {cells : List (List Char)} (h : ∀ cell ∈ cells, Solid cell)
    (layout : Layout) : columns (layout.line cells) = cells := by
  cases cells with
  | nil =>
    rw [Layout.line, columns_blank_append layout.lead.blank, columns_blank layout.trail.blank]
  | cons cell cells =>
    have hcells : ∀ cell ∈ cells, Solid cell := fun c hc => h c (List.mem_cons_of_mem _ hc)
    have hcell := columns_solid (h cell List.mem_cons_self)
    rw [Layout.line, columns_blank_append layout.lead.blank,
      columns_append_blank _ layout.trail.blank, columns_spread hcells, hcell, List.singleton_append]

theorem Solid.inLine {text : List Char} (h : Solid text) : '\n' ∉ text := by
  intro hmem
  have hnot := h.solid _ hmem
  exact absurd hnot (by decide)

theorem inLine_spread {cells : List (List Char)} (h : ∀ cell ∈ cells, Solid cell)
    (gap : ℕ → Gap) : '\n' ∉ spread gap cells := by
  induction cells generalizing gap with
  | nil => simp [spread]
  | cons cell cells ih =>
    have hcells := ih (fun c hc => h c (List.mem_cons_of_mem _ hc)) (fun i => gap (i + 1))
    have hcell := (h cell List.mem_cons_self).inLine
    simp [spread, (gap 0).inLine, hcell, hcells]

theorem inLine_line {cells : List (List Char)} (h : ∀ cell ∈ cells, Solid cell)
    (layout : Layout) : '\n' ∉ layout.line cells := by
  cases cells with
  | nil => simp [Layout.line, layout.lead.inLine, layout.trail.inLine]
  | cons cell cells =>
    have hcells := inLine_spread (fun c hc => h c (List.mem_cons_of_mem _ hc)) layout.gap
    have hcell := (h cell List.mem_cons_self).inLine
    simp [Layout.line, layout.lead.inLine, layout.trail.inLine, hcell, hcells]

end Layout

section Lines

theorem stripSuffix_eq_some {ending text front : List Char}
    (h : stripSuffix ending text = some front) : text = front ++ ending := by
  rw [stripSuffix, stripPrefix, Option.map_eq_some_iff] at h
  obtain ⟨back, hback, rfl⟩ := h
  rw [Option.ite_none_right_eq_some, Option.some.injEq] at hback
  obtain ⟨hbeginning, rfl⟩ := hback
  obtain ⟨back, heq⟩ := List.isPrefixOf_iff_prefix.mp hbeginning
  rw [← heq, List.drop_left]
  have hreverse := congrArg List.reverse heq
  rw [List.reverse_reverse, List.reverse_append, List.reverse_reverse] at hreverse
  exact hreverse.symm

/-- A return at the end of a line is no part of a column. -/
theorem columns_withoutReturn (line : List Char) : columns (withoutReturn line) = columns line := by
  rw [withoutReturn]
  cases h : stripSuffix ['\r'] line with
  | none => rfl
  | some front =>
    have hline := stripSuffix_eq_some h
    have hblank : Blank ['\r'] := by
      intro c hc
      rw [List.mem_singleton] at hc
      subst hc
      decide
    rw [hline, columns_append_blank front hblank]
    rfl

/-- Whole lines are read back, each without a return at its end. -/
theorem lines_joined {rows : List (List Char)} (h : ∀ row ∈ rows, '\n' ∉ row) :
    lines (Lines.joined '\n' rows) = rows.map withoutReturn := by
  obtain ⟨hended, hrest⟩ := Lines.split_joined h []
  rw [List.append_nil] at hended hrest
  rw [lines, hended, hrest, Lines.ended_nil, Lines.rest_nil, if_pos rfl, List.append_nil,
    List.append_nil]

end Lines

end Text
