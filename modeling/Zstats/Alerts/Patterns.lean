import Zstats.Alerts.Thresholds
import Zstats.Framework.Glob

namespace Zstats

/-- The byte of `*`. -/
def starByte : UInt8 := 42

/-- The bytes of a key as a pattern. -/
def keyMatches (key name : String) : Prop :=
  Glob.Matches starByte toAsciiLower (asBytes key) (asBytes name)

theorem asBytes_ofList (l : List Char) :
    asBytes (String.ofList l) = l.flatMap String.utf8EncodeChar := by
  rw [asBytes, String.toUTF8_eq_toByteArray, String.toByteArray_ofList, List.utf8Encode,
    List.toList_data_toByteArray]

theorem asBytes_eq (s : String) : asBytes s = s.toList.flatMap String.utf8EncodeChar := by
  rw [← asBytes_ofList, String.ofList_toList]

theorem eq_star {c : Char} (h : starByte ∈ String.utf8EncodeChar c) : c = '*' := by
  have hbyte {n : ℕ} (h : starByte = UInt8.ofNat n) : n % 256 = 42 := by
    have hnat := congrArg UInt8.toNat h
    simpa [starByte] using hnat.symm
  simp only [String.utf8EncodeChar] at h
  split_ifs at h with hascii htwo hthree
  · have hval := hbyte (List.mem_singleton.mp h)
    apply Char.ext
    apply UInt32.toNat_inj.mp
    change c.val.toNat = 42
    omega
  all_goals
    simp only [List.mem_cons, List.not_mem_nil, or_false] at h
    exfalso
  · obtain h | h := h
    all_goals
      have hval := hbyte h
      omega
  · obtain h | h | h := h
    all_goals
      have hval := hbyte h
      omega
  · obtain h | h | h | h := h
    all_goals
      have hval := hbyte h
      omega

theorem star_notMem {l : List Char} (h : '*' ∉ l) : starByte ∉ asBytes (String.ofList l) := by
  rw [asBytes_ofList]
  intro hmem
  obtain ⟨c, hc, hbyte⟩ := List.mem_flatMap.mp hmem
  rw [eq_star hbyte] at hc
  exact h hc

theorem utf8_star : String.utf8EncodeChar '*' = [starByte] := by decide

namespace Matcher

/-- The pattern of a literal with a star in front, at the end, at both or at neither. -/
def ofEnds (leading trailing : Bool) (literal : String) : Matcher :=
  match leading, trailing with
  | false, false => .exact literal
  | false, true => .startsWith literal
  | true, false => .endsWith literal
  | true, true => .contains literal

def starIf (present : Bool) : List Char := if present then ['*'] else []

/-- `parse` takes a star from either end, once, and looks for another in what is left. -/
theorem parse_shape (key : String) :
    ∃ leading trailing literal, key.toList = starIf leading ++ literal ++ starIf trailing ∧
      (leading = false → key.toList.head? ≠ some '*') ∧
      (trailing = false → literal.getLast? ≠ some '*') ∧
      Matcher.parse key = if '*' ∈ literal then
        .error ("`" ++ key ++ "`: `*` is only supported at the start or end of a name")
        else .ok (ofEnds leading trailing (String.ofList literal)) := by
  have hstrip (rest : List Char) (trailing : Bool) (h : trailing = decide (rest.getLast? = some '*')) :
      rest = (if trailing then rest.dropLast else rest) ++ starIf trailing := by
    cases trailing with
    | false => simp [starIf]
    | true =>
      have hlast := of_decide_eq_true h.symm
      obtain ⟨front, rfl⟩ := List.getLast?_eq_some_iff.mp hlast
      simp [starIf]
  refine ⟨decide (key.toList.head? = some '*'), _, _, ?_, ?_, ?_, rfl⟩
  · generalize hrest : (if decide (key.toList.head? = some '*') = true then key.toList.tail
      else key.toList) = rest
    have hlead : key.toList = starIf (decide (key.toList.head? = some '*')) ++ rest := by
      rw [← hrest]
      by_cases hhead : key.toList.head? = some '*'
      · obtain ⟨tail, htail⟩ := List.head?_eq_some_iff.mp hhead
        rw [htail]
        simp [starIf]
      · simp [hhead, starIf]
    rw [List.append_assoc, ← hstrip rest _ rfl]
    exact hlead
  · intro hhead
    exact of_decide_eq_false hhead
  · intro hlast
    rw [if_neg (by simpa using hlast)]
    exact of_decide_eq_false hlast

/-- A star that is neither the first nor the last character. -/
def Interior (key : String) : Prop :=
  ∃ i, 0 < i ∧ i + 1 < key.toList.length ∧ key.toList[i]? = some '*'

theorem interior_iff {key : String} {leading trailing : Bool} {literal : List Char}
    (hkey : key.toList = starIf leading ++ literal ++ starIf trailing)
    (hlead : leading = false → key.toList.head? ≠ some '*')
    (htrail : trailing = false → literal.getLast? ≠ some '*') :
    Interior key ↔ '*' ∈ literal := by
  have hleading : (starIf leading).length ≤ 1 := by cases leading <;> decide
  have hlength : key.toList.length =
      (starIf leading).length + literal.length + (starIf trailing).length := by
    rw [hkey, List.length_append, List.length_append]
  constructor
  · intro hcase
    obtain ⟨i, hpos, hlast, hstar⟩ := hcase
    have hshort : (starIf trailing).length ≤ 1 := by cases trailing <;> decide
    have hinside : i - (starIf leading).length < literal.length := by omega
    rw [hkey, List.append_assoc, List.getElem?_append_right (by omega),
      List.getElem?_append_left hinside] at hstar
    exact List.mem_of_getElem? hstar
  · intro hmem
    obtain ⟨j, hj, hstar⟩ := List.mem_iff_getElem.mp hmem
    have hget : key.toList[(starIf leading).length + j]? = some '*' := by
      rw [hkey, List.append_assoc, List.getElem?_append_right (Nat.le_add_right _ _),
        Nat.add_sub_cancel_left, List.getElem?_append_left hj, List.getElem?_eq_getElem hj, hstar]
    refine ⟨_, ?_, ?_, hget⟩
    · cases leading with
      | true => exact Nat.lt_of_lt_of_le (by decide) (Nat.le_add_right _ _)
      | false =>
        by_contra hzero
        have hj0 : (starIf false).length + j = 0 := by omega
        rw [hj0, ← List.head?_eq_getElem?] at hget
        exact hlead rfl hget
    · cases trailing with
      | true =>
        have hone : (starIf true).length = 1 := rfl
        omega
      | false =>
        have hzero : (starIf false).length = 0 := rfl
        by_contra hend
        have hj1 : j = literal.length - 1 := by omega
        apply htrail rfl
        rw [List.getLast?_eq_getElem?, ← hj1, List.getElem?_eq_getElem hj, hstar]

/-- Reading a key fails for a star inside, and for nothing else. -/
theorem parse_error_iff (key : String) : (∃ e, Matcher.parse key = .error e) ↔ Interior key := by
  obtain ⟨leading, trailing, literal, hkey, hlead, htrail, hparse⟩ := parse_shape key
  rw [interior_iff hkey hlead htrail, hparse]
  constructor
  · intro hcase
    obtain ⟨e, he⟩ := hcase
    by_contra hnone
    rw [if_neg hnone] at he
    cases he
  · intro hmem
    exact ⟨_, if_pos hmem⟩

theorem asBytes_key {key : String} {leading trailing : Bool} {literal : List Char}
    (hkey : key.toList = starIf leading ++ literal ++ starIf trailing) :
    asBytes key = (if leading then [starByte] else []) ++ asBytes (String.ofList literal) ++
      (if trailing then [starByte] else []) := by
  rw [asBytes_eq, hkey, List.flatMap_append, List.flatMap_append, asBytes_ofList]
  cases leading <;> cases trailing <;> simp [starIf, utf8_star]

theorem eqIgnoreAsciiCase_iff {text literal : List UInt8} :
    eqIgnoreAsciiCase text literal = true ↔ Glob.Same toAsciiLower text literal := by
  rw [eqIgnoreAsciiCase, decide_eq_true_eq, Glob.Same]

/-- The windows of a name, from its beginning to its end. -/
theorem contains_iff (literal name : String) :
    (contains literal).matchesName name = true ↔
      ∃ i, i + (asBytes literal).length ≤ (asBytes name).length ∧
        Glob.Same toAsciiLower (((asBytes name).drop i).take (asBytes literal).length)
          (asBytes literal) := by
  simp only [matchesName, Matcher.literal]
  rw [Bool.or_eq_true, Bool.and_eq_true, List.isEmpty_iff, List.any_eq_true]
  constructor
  · intro hcase
    rcases hcase with hempty | ⟨hfits, i, hi, hsame⟩
    · rw [hempty]
      exact ⟨0, Nat.zero_le _, by simp [Glob.Same]⟩
    · have hlength := of_decide_eq_true hfits
      rw [List.mem_range] at hi
      exact ⟨i, by omega, eqIgnoreAsciiCase_iff.mp hsame⟩
  · intro hcase
    obtain ⟨i, hi, hsame⟩ := hcase
    refine Or.inr ⟨decide_eq_true (by omega), i, ?_, eqIgnoreAsciiCase_iff.mpr hsame⟩
    rw [List.mem_range]
    omega

theorem ofEnds_matches {leading trailing : Bool} {literal name : String}
    (hliteral : starByte ∉ asBytes literal) :
    (ofEnds leading trailing literal).matchesName name = true ↔
      Glob.Matches starByte toAsciiLower ((if leading then [starByte] else []) ++ asBytes literal ++
        (if trailing then [starByte] else [])) (asBytes name) := by
  cases leading <;> cases trailing
  · rw [ofEnds, matchesName, eqIgnoreAsciiCase_iff]
    simpa [Matcher.literal] using (Glob.matches_literal hliteral).symm
  · rw [ofEnds, matchesName, Bool.and_eq_true, decide_eq_true_eq, eqIgnoreAsciiCase_iff]
    simpa [Matcher.literal] using (Glob.matches_trailing hliteral).symm
  · rw [ofEnds, matchesName, Bool.and_eq_true, decide_eq_true_eq, eqIgnoreAsciiCase_iff]
    simpa [Matcher.literal] using (Glob.matches_leading hliteral).symm
  · rw [ofEnds, contains_iff]
    simpa using (Glob.matches_both hliteral).symm

theorem matchesName_iff {key : String} {m : Matcher} (h : Matcher.parse key = .ok m) (name : String) :
    m.matchesName name = true ↔ keyMatches key name := by
  obtain ⟨leading, trailing, literal, hkey, -, -, hparse⟩ := parse_shape key
  rw [h] at hparse
  split at hparse
  · cases hparse
  · next hstar =>
    cases hparse
    rw [ofEnds_matches (star_notMem hstar), keyMatches, asBytes_key hkey]

/-- A text cut at a byte, if the byte is where a character begins or the end. -/
def splitAtByte : List Char → Nat → Option (List Char × List Char)
  | text, 0 => some ([], text)
  | [], _ + 1 => none
  | c :: text, i + 1 =>
    if c.utf8Size ≤ i + 1 then
      (splitAtByte text (i + 1 - c.utf8Size)).map fun (front, back) => (c :: front, back)
    else none

/-- `str::len`, in bytes. -/
def utf8Length (text : List Char) : Nat := (text.map Char.utf8Size).sum

def checkedSub (a b : Nat) : Option Nat := if b ≤ a then some (a - b) else none

/-- `&key[1..]`, after a star in front. -/
def cutFront (key : List Char) : Option (List Char) :=
  if key.head? = some '*' then (splitAtByte key 1).map (·.2) else some key

/-- `&rest[..rest.len() - 1]`, before a star at the end. -/
def cutBack (rest : List Char) : Option (List Char) :=
  if rest.getLast? = some '*' then do
    let stop ← checkedSub (utf8Length rest) 1
    (splitAtByte rest stop).map (·.1)
  else some rest

/-- `Matcher::parse` with slices that may fail. -/
def parseSliced (key : String) : Option (Except String Matcher) := do
  let rest ← cutFront key.toList
  let literal ← cutBack rest
  if '*' ∈ literal then
    return .error ("`" ++ key ++ "`: `*` is only supported at the start or end of a name")
  else
    return .ok (ofEnds (decide (key.toList.head? = some '*')) (decide (rest.getLast? = some '*'))
      (String.ofList literal))

/-- `bytes[..stop]`. -/
def sliceTo (bytes : List UInt8) (stop : Nat) : Option (List UInt8) :=
  if stop ≤ bytes.length then some (bytes.take stop) else none

/-- `bytes[start..]`. -/
def sliceFrom (bytes : List UInt8) (start : Nat) : Option (List UInt8) :=
  if start ≤ bytes.length then some (bytes.drop start) else none

/-- `bytes.windows(size)`, of no size 0. -/
def windows (bytes : List UInt8) (size : Nat) : Option (List (List UInt8)) :=
  if size = 0 then none
  else some ((List.range (bytes.length + 1 - size)).map fun i => (bytes.drop i).take size)

/-- `Matcher::matches` with slices that may fail. -/
def matchesSliced (m : Matcher) (name : String) : Option Bool :=
  let literal := asBytes m.literal
  let name := asBytes name
  let fits := decide (literal.length ≤ name.length)
  match m with
  | exact _ => some (eqIgnoreAsciiCase name literal)
  | startsWith _ =>
    if fits then (sliceTo name literal.length).map (eqIgnoreAsciiCase · literal) else some false
  | endsWith _ =>
    if fits then do
      let start ← checkedSub name.length literal.length
      (sliceFrom name start).map (eqIgnoreAsciiCase · literal)
    else some false
  | contains _ =>
    if literal.isEmpty then some true
    else if fits then (windows name literal.length).map (·.any (eqIgnoreAsciiCase · literal))
    else some false

theorem splitAtByte_append (front back : List Char) :
    splitAtByte (front ++ back) (utf8Length front) = some (front, back) := by
  induction front with
  | nil => cases back <;> rfl
  | cons c front ih =>
    have hpos := c.utf8Size_pos
    have hlength : utf8Length (c :: front) = c.utf8Size - 1 + utf8Length front + 1 := by
      rw [utf8Length, List.map_cons, List.sum_cons, ← utf8Length]
      omega
    have hrest : c.utf8Size - 1 + utf8Length front + 1 - c.utf8Size = utf8Length front := by omega
    rw [hlength, List.cons_append, splitAtByte, if_pos (by omega), hrest, ih, Option.map_some]

theorem splitAtByte_star (rest : List Char) :
    splitAtByte ('*' :: rest) 1 = some (['*'], rest) :=
  splitAtByte_append ['*'] rest

theorem utf8Length_star (front : List Char) : utf8Length (front ++ ['*']) = utf8Length front + 1 := by
  rw [utf8Length, List.map_append, List.sum_append, ← utf8Length]
  rfl

/-- A star in front is one byte long, so the cut after it is on a boundary. -/
theorem cutFront_eq (key : List Char) :
    cutFront key = some (if decide (key.head? = some '*') = true then key.tail else key) := by
  by_cases hhead : key.head? = some '*'
  · obtain ⟨rest, rfl⟩ := List.head?_eq_some_iff.mp hhead
    simp [cutFront, splitAtByte_star]
  · simp [cutFront, hhead]

theorem cutBack_eq (rest : List Char) :
    cutBack rest = some (if decide (rest.getLast? = some '*') = true then rest.dropLast else rest) := by
  by_cases hlast : rest.getLast? = some '*'
  · obtain ⟨front, rfl⟩ := List.getLast?_eq_some_iff.mp hlast
    have hsub : checkedSub (utf8Length (front ++ ['*'])) 1 = some (utf8Length front) := by
      rw [utf8Length_star, checkedSub, if_pos (by omega), Nat.add_sub_cancel]
    simp [cutBack, hsub, splitAtByte_append]
  · simp [cutBack, hlast]

theorem parseSliced_eq (key : String) : parseSliced key = some (Matcher.parse key) := by
  rw [parseSliced, Matcher.parse, cutFront_eq, Option.bind_eq_bind, Option.bind_some, cutBack_eq,
    Option.bind_some]
  dsimp only
  generalize (if decide (key.toList.head? = some '*') = true then key.toList.tail
    else key.toList) = rest
  generalize (if decide (rest.getLast? = some '*') = true then rest.dropLast else rest) = literal
  by_cases hstar : '*' ∈ literal
  · rw [if_pos hstar, if_pos hstar]
    rfl
  · rw [if_neg hstar, if_neg hstar]
    rfl

theorem windows_any (bytes literal : List UInt8) (hsome : literal ≠ [])
    (hfits : literal.length ≤ bytes.length) :
    (windows bytes literal.length).map (·.any (eqIgnoreAsciiCase · literal)) =
      some ((List.range (bytes.length - literal.length + 1)).any fun i =>
        eqIgnoreAsciiCase ((bytes.drop i).take literal.length) literal) := by
  have hsize : literal.length ≠ 0 := fun h => hsome (List.length_eq_zero_iff.mp h)
  have hcount : bytes.length + 1 - literal.length = bytes.length - literal.length + 1 := by omega
  rw [windows, if_neg hsize, Option.map_some, hcount, List.any_map]
  rfl

theorem matchesSliced_eq (m : Matcher) (name : String) :
    m.matchesSliced name = some (m.matchesName name) := by
  cases m with
  | exact literal => rfl
  | startsWith literal =>
    simp only [matchesSliced, matchesName, sliceTo]
    by_cases hfits : (asBytes (startsWith literal).literal).length ≤ (asBytes name).length
    · simp [hfits]
    · simp [hfits]
  | endsWith literal =>
    simp only [matchesSliced, matchesName, sliceFrom, checkedSub]
    by_cases hfits : (asBytes (endsWith literal).literal).length ≤ (asBytes name).length
    · simp [hfits]
    · simp [hfits]
  | contains literal =>
    simp only [matchesSliced, matchesName]
    by_cases hempty : (asBytes (contains literal).literal).isEmpty
    · simp [hempty]
    · by_cases hfits : (asBytes (contains literal).literal).length ≤ (asBytes name).length
      · have hsome : asBytes (contains literal).literal ≠ [] := fun h => hempty (List.isEmpty_iff.mpr h)
        rw [if_neg hempty, if_pos (decide_eq_true hfits), windows_any (asBytes name) _ hsome hfits]
        simp [hempty, hfits]
      · simp [hempty, hfits]

/-- A key is refused for a star inside only; one accepted claims the names of its glob; no slice of
either fails. -/
theorem keys_mean_their_glob (key : String) :
    ((∃ e, Matcher.parse key = .error e) ↔ Interior key) ∧
    (∀ m, Matcher.parse key = .ok m → ∀ name, m.matchesName name = true ↔ keyMatches key name) ∧
    Matcher.parseSliced key = some (Matcher.parse key) ∧
    ∀ (m : Matcher) name, m.matchesSliced name = some (m.matchesName name) :=
  ⟨parse_error_iff key, fun _ h name => matchesName_iff h name, parseSliced_eq key, matchesSliced_eq⟩

example : splitAtByte "中文".toList 1 = none := by decide

end Matcher

end Zstats
