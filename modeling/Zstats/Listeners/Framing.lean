import Zstats.Listeners.Pcblist

namespace Zstats.Pcblist

open Bytes Failing

/-- A record as it lies in a table: a length below the header's own eight bytes has no body. -/
structure Frame where
  len : ℕ
  kind : ℕ
  body : List UInt8
  padding : List UInt8
  len_lt : len < 256 ^ 4 := by decide
  kind_lt : kind < 256 ^ 4 := by decide
  body_length : body.length = len - recordHeaderLen := by simp [recordHeaderLen]
  padded : recordHeaderLen + body.length + padding.length =
    align8 (recordHeaderLen + body.length) := by simp [recordHeaderLen, align8]

/-- Whether the record is of a kind and a length that the parser keeps in the walk. -/
def Frame.Walked (f : Frame) : Prop := recordHeaderLen ≤ f.len ∧ f.len ≠ xinpgenLen

/-- The 24-byte header a table opens and closes with: its count is where a record has its kind. -/
structure Header where
  count : UInt32
  generations : Vector UInt8 16

def Header.frame (h : Header) : Frame where
  len := xinpgenLen
  kind := h.count.toNat
  body := h.generations.toList
  padding := []
  kind_lt := h.count.toNat_lt
  body_length := h.generations.length_toList

section

variable (e : Endian)

def Frame.record (f : Frame) : List UInt8 :=
  encode e 4 f.len ++ (encode e 4 f.kind ++ f.body)

def Frame.bytes (f : Frame) : List UInt8 := f.record e ++ f.padding

def framed (frames : List Frame) : List UInt8 := frames.flatMap (Frame.bytes e)

/-- A table: the opening header, the records, the closing header. -/
def table (opening : Header) (frames : List Frame) (closing : Header) : List UInt8 :=
  opening.frame.bytes e ++ (framed e frames ++ closing.frame.bytes e)

/-- The records one after another. -/
def absorbAll (protocol : Protocol) (frames : List Frame) (run : Option Run) (parsed : Parsed) :
    Except String (Option Run × Parsed) :=
  match frames with
  | [] => .ok (run, parsed)
  | f :: frames => absorb e protocol f.kind (f.record e) run parsed >>= fun (run, parsed) =>
    absorbAll protocol frames run parsed

end

variable {e : Endian} {protocol : Protocol} (pre rest : List UInt8) (run : Option Run)
  (parsed : Parsed)

@[simp] theorem Frame.length_record (f : Frame) :
    (f.record e).length = recordHeaderLen + (f.len - recordHeaderLen) := by
  simp [record, f.body_length, recordHeaderLen]
  omega

theorem Frame.length_bytes (f : Frame) (h : recordHeaderLen ≤ f.len) :
    (f.bytes e).length = align8 f.len := by
  have hpad := f.padded
  have hrecord := f.length_record (e := e)
  rw [f.body_length, show recordHeaderLen + (f.len - recordHeaderLen) = f.len by omega] at hpad
  rw [bytes, List.length_append, hrecord]
  omega

theorem readU32_here {n : ℕ} (h : n < 256 ^ 4) :
    readU32 e (pre ++ (encode e 4 n ++ rest)) pre.length = some n := by
  rw [readU32, read_skip (le_refl _), Nat.sub_self, read_encode h]

theorem readU32_next {len n : ℕ} (h : n < 256 ^ 4) :
    readU32 e (pre ++ (encode e 4 len ++ (encode e 4 n ++ rest))) (pre.length + 4) = some n := by
  have hlen : (encode e 4 len).length = 4 := length_encode e 4 len
  rw [readU32, read_skip (by omega), read_skip (by omega), hlen,
    show pre.length + 4 - pre.length - 4 = 0 by omega, read_encode h]

theorem Frame.reads (f : Frame) :
    readU32 e (pre ++ (f.record e ++ rest)) pre.length = some f.len ∧
    readU32 e (pre ++ (f.record e ++ rest)) (pre.length + 4) = some f.kind := by
  have hshape : f.record e ++ rest =
      encode e 4 f.len ++ (encode e 4 f.kind ++ (f.body ++ rest)) := by
    simp [record]
  rw [hshape]
  exact ⟨readU32_here pre _ f.len_lt, readU32_next pre _ f.kind_lt⟩

theorem Frame.sliced (f : Frame) (h : recordHeaderLen ≤ f.len) :
    slice (pre ++ (f.record e ++ rest)) pre.length f.len = some (f.record e) := by
  have hlen : (f.record e).length = f.len := by
    rw [f.length_record]
    omega
  rw [slice_skip (le_refl _), Nat.sub_self, slice_here hlen]

/-- One record of the walk, read. -/
theorem walk_read {table record : List UInt8} {pos len kind : ℕ}
    (hlen : readU32 e table pos = some len) (hkind : readU32 e table (pos + 4) = some kind)
    (hslice : slice table pos len = some record) :
    walk e protocol table pos run parsed =
      if len = xinpgenLen then finish e protocol run parsed
      else if len < recordHeaderLen then .error s!"record at byte {pos} claims {len} bytes"
      else
        match absorb e protocol kind record run parsed with
        | .error message => .error message
        | .ok (run, parsed) => walk e protocol table (pos + align8 len) run parsed := by
  rw [walk, hlen, hkind]
  dsimp only
  split
  · rename_i hnone
    rw [hslice] at hnone
    cases hnone
  · rename_i hsome
    rw [hslice] at hsome
    cases hsome
    rfl

/-- A record that the walk keeps is put to the open run. -/
theorem walk_frame (f : Frame) (h : f.Walked) :
    walk e protocol (pre ++ (f.bytes e ++ rest)) pre.length run parsed =
      absorb e protocol f.kind (f.record e) run parsed >>= fun (run, parsed) =>
        walk e protocol (pre ++ (f.bytes e ++ rest)) (pre ++ f.bytes e).length run parsed := by
  have hnext : pre.length + align8 f.len = (pre ++ f.bytes e).length := by
    rw [List.length_append, f.length_bytes h.1]
  have hshape : f.bytes e ++ rest = f.record e ++ (f.padding ++ rest) := by simp [Frame.bytes]
  obtain ⟨hlen, hkind⟩ := f.reads (e := e) pre (f.padding ++ rest)
  have hslice := f.sliced (e := e) pre (f.padding ++ rest) h.1
  rw [← hnext, hshape, walk_read run parsed hlen hkind hslice, if_neg h.2, if_neg (Nat.not_lt.mpr h.1)]
  cases absorb e protocol f.kind (f.record e) run parsed <;> rfl

/-- Any record of 24 bytes ends the walk. -/
theorem walk_closed (f : Frame) (h : f.len = xinpgenLen) :
    walk e protocol (pre ++ (f.bytes e ++ rest)) pre.length run parsed =
      finish e protocol run parsed := by
  have hshape : f.bytes e ++ rest = f.record e ++ (f.padding ++ rest) := by simp [Frame.bytes]
  have hle : recordHeaderLen ≤ f.len := by simp [h, recordHeaderLen, xinpgenLen]
  obtain ⟨hlen, hkind⟩ := f.reads (e := e) pre (f.padding ++ rest)
  have hslice := f.sliced (e := e) pre (f.padding ++ rest) hle
  rw [hshape, walk_read run parsed hlen hkind hslice, if_pos h]

/-- A record that claims less than its own header is refused. -/
theorem walk_tiny (f : Frame) (h : f.len < recordHeaderLen) :
    ∃ message, walk e protocol (pre ++ (f.bytes e ++ rest)) pre.length run parsed =
      .error message := by
  have hshape : f.bytes e ++ rest = f.record e ++ (f.padding ++ rest) := by simp [Frame.bytes]
  obtain ⟨hlen, hkind⟩ := f.reads (e := e) pre (f.padding ++ rest)
  have hne : f.len ≠ xinpgenLen := by
    simp only [recordHeaderLen, xinpgenLen] at *
    omega
  have hslice : slice (pre ++ (f.record e ++ (f.padding ++ rest))) pre.length f.len =
      some ((f.record e).take f.len) := by
    have hle : f.len ≤ (f.record e).length := by
      rw [f.length_record]
      omega
    rw [slice_skip (le_refl _), Nat.sub_self, slice_within (by omega), slice, if_pos (by omega),
      List.drop_zero]
  rw [hshape, walk_read run parsed hlen hkind hslice, if_neg hne, if_pos h]
  exact ⟨_, rfl⟩

theorem framed_cons (f : Frame) (frames : List Frame) :
    framed e (f :: frames) = f.bytes e ++ framed e frames := rfl

theorem absorbAll_append (before after : List Frame) :
    absorbAll e protocol (before ++ after) run parsed =
      absorbAll e protocol before run parsed >>= fun (run, parsed) =>
        absorbAll e protocol after run parsed := by
  induction before generalizing run parsed with
  | nil => rfl
  | cons f before ih =>
    rw [List.cons_append, absorbAll, absorbAll]
    cases absorb e protocol f.kind (f.record e) run parsed with
    | error message => rfl
    | ok next => exact ih next.1 next.2

/-- The walk over whole records: each is put to the open run, in order. -/
theorem walk_frames (frames : List Frame) (h : ∀ f ∈ frames, f.Walked) :
    walk e protocol (pre ++ (framed e frames ++ rest)) pre.length run parsed =
      absorbAll e protocol frames run parsed >>= fun (run, parsed) =>
        walk e protocol (pre ++ (framed e frames ++ rest)) (pre ++ framed e frames).length run
          parsed := by
  induction frames generalizing pre run parsed with
  | nil =>
    have hlen : (pre ++ framed e []).length = pre.length := by simp [framed]
    rw [hlen]
    rfl
  | cons f frames ih =>
    have hf : f.Walked := h f List.mem_cons_self
    have htail : ∀ g ∈ frames, g.Walked := fun g hg => h g (List.mem_cons_of_mem f hg)
    have hshape : pre ++ (f.bytes e ++ (framed e frames ++ rest)) =
        (pre ++ f.bytes e) ++ (framed e frames ++ rest) := by simp
    rw [framed_cons, List.append_assoc, walk_frame pre _ run parsed f hf, hshape, absorbAll]
    cases absorb e protocol f.kind (f.record e) run parsed with
    | error message => rfl
    | ok next =>
      have hrest := ih (pre ++ f.bytes e) next.1 next.2 htail
      rw [List.append_assoc pre (f.bytes e) (framed e frames)] at hrest
      exact hrest

variable {opening closing : Header} {before after : List Frame}

/-- The parser after whole records. -/
theorem parse_framed (h : ∀ f ∈ before, f.Walked) :
    parse e (opening.frame.bytes e ++ (framed e before ++ rest)) protocol =
      absorbAll e protocol before none { headerCount := opening.count.toNat } >>=
        fun (run, parsed) => walk e protocol (opening.frame.bytes e ++ (framed e before ++ rest))
          (opening.frame.bytes e ++ framed e before).length run parsed := by
  have hlen : (opening.frame.bytes e).length = align8 xinpgenLen :=
    opening.frame.length_bytes (show recordHeaderLen ≤ xinpgenLen by decide)
  have hshape : opening.frame.bytes e ++ (framed e before ++ rest) =
      [] ++ (opening.frame.record e ++ (framed e before ++ rest)) := by
    simp [Frame.bytes, Header.frame]
  obtain ⟨hopening, hcount⟩ :=
    opening.frame.reads (e := e) [] (framed e before ++ rest)
  rw [← hshape] at hopening hcount
  rw [← walk_frames _ _ _ _ before h, hlen, parse]
  change readU32 e _ 0 = some xinpgenLen at hopening
  change readU32 e _ 4 = some opening.count.toNat at hcount
  rw [hopening, hcount]
  rfl

/-- The parser on a table whose records all keep the walk going. -/
theorem parse_table (h : ∀ f ∈ before, f.Walked) :
    parse e (table e opening before closing) protocol =
      absorbAll e protocol before none { headerCount := opening.count.toNat } >>=
        fun (run, parsed) => finish e protocol run parsed := by
  rw [table, parse_framed _ h]
  have hclosed : ∀ run parsed, walk e protocol
      (opening.frame.bytes e ++ (framed e before ++ closing.frame.bytes e))
      (opening.frame.bytes e ++ framed e before).length run parsed =
        finish e protocol run parsed := by
    intro run parsed
    have hclosing := @walk_closed e protocol (opening.frame.bytes e ++ framed e before)
      [] run parsed closing.frame rfl
    rwa [List.append_nil, List.append_assoc] at hclosing
  simp only [hclosed]

theorem framed_append (frames others : List Frame) :
    framed e (frames ++ others) = framed e frames ++ framed e others := by
  simp [framed]

/-- A record of 24 bytes hides what is behind it. -/
theorem parse_cut (h : ∀ f ∈ before, f.Walked) (f : Frame) (hf : f.len = xinpgenLen) :
    parse e (table e opening (before ++ f :: after) closing) protocol =
      parse e (table e opening before closing) protocol := by
  have hshape : table e opening (before ++ f :: after) closing = opening.frame.bytes e ++
      (framed e before ++ (f.bytes e ++ (framed e after ++ closing.frame.bytes e))) := by
    simp [table, framed_append, framed_cons]
  have hclosed : ∀ run parsed, walk e protocol (opening.frame.bytes e ++
      (framed e before ++ (f.bytes e ++ (framed e after ++ closing.frame.bytes e))))
      (opening.frame.bytes e ++ framed e before).length run parsed =
        finish e protocol run parsed := by
    intro run parsed
    have hcut := @walk_closed e protocol (opening.frame.bytes e ++ framed e before)
      (framed e after ++ closing.frame.bytes e) run parsed f hf
    rwa [List.append_assoc] at hcut
  rw [parse_table h, hshape, parse_framed _ h]
  simp only [hclosed]

theorem absorb_unexpected {f : Frame} {expected : ℕ} (hwalked : f.Walked)
    (hkind : expectedLen f.kind = some expected) (hlen : f.len ≠ expected) :
    ∃ message, absorb e protocol f.kind (f.record e) run parsed = .error message := by
  have hrecord : (f.record e).length = f.len := by
    have hle := hwalked.1
    rw [f.length_record]
    omega
  have hne : expected ≠ (f.record e).length := by
    rw [hrecord]
    exact hlen.symm
  rw [absorb.eq_def, hkind]
  dsimp only
  rw [if_pos hne]
  exact ⟨_, rfl⟩

/-- A known record of another length than its kind's refuses the table, unless its length is the
closing header's. -/
theorem parse_unexpected (h : ∀ f ∈ before, f.Walked) {f : Frame} {expected : ℕ}
    (hkind : expectedLen f.kind = some expected) (hlen : f.len ≠ expected)
    (hf : f.len ≠ xinpgenLen) :
    ∃ message, parse e (table e opening (before ++ f :: after) closing) protocol =
      .error message := by
  have hshape : table e opening (before ++ f :: after) closing = opening.frame.bytes e ++
      (framed e before ++ (f.bytes e ++ (framed e after ++ closing.frame.bytes e))) := by
    simp [table, framed_append, framed_cons]
  have hrefused : ∀ run parsed, ∃ message, walk e protocol (opening.frame.bytes e ++
      (framed e before ++ (f.bytes e ++ (framed e after ++ closing.frame.bytes e))))
      (opening.frame.bytes e ++ framed e before).length run parsed = .error message := by
    intro run parsed
    rw [← List.append_assoc]
    by_cases htiny : f.len < recordHeaderLen
    · exact walk_tiny _ _ run parsed f htiny
    · have hwalked : f.Walked := ⟨Nat.not_lt.mp htiny, hf⟩
      obtain ⟨message, herror⟩ :=
        @absorb_unexpected e protocol run parsed _ _ hwalked hkind hlen
      refine ⟨message, ?_⟩
      rw [walk_frame _ _ run parsed f hwalked, herror]
      rfl
  rw [hshape, parse_framed _ h]
  cases absorbAll e protocol before none { headerCount := opening.count.toNat } with
  | error message => exact ⟨message, rfl⟩
  | ok next => exact hrefused next.1 next.2

/-- A record of a kind the parser knows, of its kind's length. -/
def Frame.Known (f : Frame) : Prop := expectedLen f.kind = some f.len

theorem Frame.Known.walked {f : Frame} (h : f.Known) : f.Walked := by
  unfold Known expectedLen at h
  unfold Walked recordHeaderLen xinpgenLen
  split_ifs at h <;> simp only [Option.some.injEq] at h <;> omega

section Absorbing

variable {f : Frame} {current : Run}

theorem Frame.Known.length_record (h : f.Known) : (f.record e).length = f.len := by
  have hle := h.walked.1
  rw [Frame.length_record]
  omega

theorem absorb_inpcb (h : f.Known) (hkind : f.kind = xsoInpcb) :
    absorb e protocol f.kind (f.record e) run parsed =
      finish e protocol run parsed >>= fun parsed =>
        .ok (some { inpcb := some (f.record e) }, parsed) := by
  have hexpected : expectedLen xsoInpcb = some f.len := hkind ▸ h
  rw [absorb.eq_def, hkind, hexpected]
  dsimp only
  rw [if_neg (fun hne => hne h.length_record.symm), if_pos rfl]
  cases run with
  | none => rfl
  | some current => cases hdone : parsed.take e current protocol <;> simp [finish, hdone] <;> rfl

theorem absorb_socket (h : f.Known) (hkind : f.kind = xsoSocket) (hnone : current.socket = none) :
    absorb e protocol f.kind (f.record e) (some current) parsed =
      .ok (some { current with socket := some (f.record e) }, parsed) := by
  have hexpected : expectedLen xsoSocket = some f.len := hkind ▸ h
  rw [absorb.eq_def, hkind, hexpected]
  dsimp only
  rw [if_neg (fun hne => hne h.length_record.symm), if_neg (by decide), if_pos rfl, hnone]
  rfl

/-- Any other known record is framing only. -/
theorem absorb_buffer (h : f.Known) (hkind : f.kind ∉ [xsoInpcb, xsoSocket, xsoStats, xsoTcpcb]) :
    absorb e protocol f.kind (f.record e) (some current) parsed = .ok (some current, parsed) := by
  simp only [List.mem_cons, List.not_mem_nil, or_false, not_or] at hkind
  obtain ⟨hinpcb, hsocket, hstats, htcpcb⟩ := hkind
  rw [absorb.eq_def, h]
  dsimp only
  rw [if_neg (fun hne => hne h.length_record.symm), if_neg hinpcb, if_neg hsocket, if_neg hstats,
    if_neg htcpcb]

theorem absorb_stats (h : f.Known) (hkind : f.kind = xsoStats) (hnone : current.stats = none) :
    absorb e protocol f.kind (f.record e) (some current) parsed =
      .ok (some { current with stats := some (f.record e) }, parsed) := by
  have hexpected : expectedLen xsoStats = some f.len := hkind ▸ h
  rw [absorb.eq_def, hkind, hexpected]
  dsimp only
  rw [if_neg (fun hne => hne h.length_record.symm), if_neg (by decide), if_neg (by decide),
    if_pos rfl, hnone]
  rfl

theorem absorb_tcpcb (h : f.Known) (hkind : f.kind = xsoTcpcb) (hnone : current.tcpcb = none) :
    absorb e protocol f.kind (f.record e) (some current) parsed =
      .ok (some { current with tcpcb := some (f.record e) }, parsed) := by
  have hexpected : expectedLen xsoTcpcb = some f.len := hkind ▸ h
  rw [absorb.eq_def, hkind, hexpected]
  dsimp only
  rw [if_neg (fun hne => hne h.length_record.symm), if_neg (by decide), if_neg (by decide),
    if_neg (by decide), if_pos rfl, hnone]
  rfl

end Absorbing

end Zstats.Pcblist
