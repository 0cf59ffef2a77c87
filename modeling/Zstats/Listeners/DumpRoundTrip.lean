import Zstats.Listeners.Flows

namespace Zstats.Sockdiag

open Bytes Failing

/-- No index out of bounds. -/
def Unpanicked {α : Type} (x : Except Failure α) : Prop := Avoids .panicked x

theorem unpanicked_refused {α : Type} (error : ParseError) :
    Unpanicked (.error (.refused error) : Except _ α) :=
  avoids_error (fun h => by cases h)

theorem unpanicked_okOr {α : Type} (found : Option α) (message : String) :
    Unpanicked (okOr found (malformed message)) :=
  avoids_okOr found (fun h => by cases h)

variable {e : Endian}

theorem readField_unpanicked (width : ℕ) (buf : List UInt8) (start : ℕ) :
    Unpanicked (readField e width buf start) := unpanicked_okOr _ _

theorem index_unpanicked {buf : List UInt8} {start len : ℕ} (h : start + len ≤ buf.length) :
    Unpanicked (index buf start len) := by
  rw [index_ok h]
  exact avoids_ok _

theorem tcpInfoFrom_unpanicked (msg : List UInt8) (start : ℕ) :
    Unpanicked (tcpInfoFrom e msg start) := by
  induction hn : msg.length - start using Nat.strong_induction_on generalizing start with
  | h n ih =>
    rw [tcpInfoFrom]
    by_cases hstart : start + 4 ≤ msg.length
    · rw [dif_pos hstart]
      apply avoids_bind (readField_unpanicked _ _ _)
      intro nlaLen
      apply avoids_bind (readField_unpanicked _ _ _)
      intro word
      by_cases hlen : nlaLen < 4 ∨ msg.length < start + nlaLen
      · rw [dif_pos hlen]
        exact unpanicked_refused _
      · rw [dif_neg hlen]
        split_ifs with htype hzero
        · exact avoids_bind (index_unpanicked (by omega)) fun _ => avoids_ok _
        · exact unpanicked_refused _
        · have hstep : align4 nlaLen ≥ 4 := by
            simp only [align4]
            omega
          exact ih _ (by omega) _ rfl
    · rw [dif_neg hstart]
      exact avoids_ok _

theorem flowOf_unpanicked (msg : List UInt8) : Unpanicked (flowOf e msg) := by
  rw [flowOf]
  split_ifs with hshort
  · exact unpanicked_refused _
  · apply avoids_bind (readField_unpanicked _ _ _)
    intro inode
    split_ifs
    · exact avoids_ok _
    · apply avoids_bind (tcpInfoFrom_unpanicked _ _)
      intro found
      apply avoids_bind (unpanicked_okOr _ _)
      intro info
      split_ifs
      · exact unpanicked_refused _
      · apply avoids_bind (readField_unpanicked _ _ _)
        intro receivedBytes
        exact avoids_bind (readField_unpanicked _ _ _) fun _ => avoids_ok _
      · apply avoids_bind (readField_unpanicked _ _ _)
        intro receivedBytes
        exact avoids_bind (readField_unpanicked _ _ _) fun _ => avoids_ok _

theorem takeMessage_unpanicked (kind flags : ℕ) (msg : List UInt8) (part : DumpPart) :
    Unpanicked (takeMessage e kind flags msg part) := by
  rw [takeMessage]
  split_ifs
  · exact avoids_ok _
  · apply avoids_bind
    · exact avoids_bind (readField_unpanicked _ _ _) fun _ => avoids_ok _
    · intro err
      exact avoids_ok _
  · exact avoids_ok _
  · exact avoids_bind (flowOf_unpanicked _) fun _ => avoids_ok _
  · exact avoids_ok _

theorem walk_unpanicked (seq : ℕ) (buf : List UInt8) (pos : ℕ) (part : DumpPart) :
    Unpanicked (walk e seq buf pos part) := by
  induction hn : buf.length - pos using Nat.strong_induction_on generalizing pos part with
  | h n ih =>
    rw [walk]
    by_cases hloop : pos + nlmsgHdrlen ≤ buf.length ∧ part.done = false ∧ part.errno = none
    · rw [dif_pos hloop]
      apply avoids_bind (readField_unpanicked _ _ _)
      intro len
      by_cases hlen : len < nlmsgHdrlen
      · rw [dif_pos hlen]
        exact unpanicked_refused _
      · rw [dif_neg hlen]
        by_cases hpast : buf.length < pos + len
        · rw [if_pos hpast]
          exact unpanicked_refused _
        · rw [if_neg hpast]
          apply avoids_bind (readField_unpanicked _ _ _)
          intro kind
          apply avoids_bind (readField_unpanicked _ _ _)
          intro flags
          apply avoids_bind (readField_unpanicked _ _ _)
          intro msgSeq
          split_ifs
          · exact unpanicked_refused _
          · apply avoids_bind (index_unpanicked (Nat.not_lt.mp hpast))
            intro msg
            apply avoids_bind (takeMessage_unpanicked _ _ _ _)
            intro part
            have hstep : buf.length - (pos + align4 len) < n := by
              simp only [align4, nlmsgHdrlen] at *
              omega
            exact ih _ hstep _ _ rfl
    · rw [dif_neg hloop]
      exact avoids_ok _

theorem parse_unpanicked (seq : ℕ) (buf : List UInt8) : Unpanicked (parse e seq buf) := by
  rw [parse]
  split_ifs
  · exact unpanicked_refused _
  · exact walk_unpanicked _ _ _ _

variable {seq : UInt32} {messages : List (Message e)}

theorem Envelope.bytes_ne_nil (m : Envelope) : m.bytes e seq ≠ [] := by
  intro hnil
  have hlen : (m.bytes e seq).length = align4 m.len := m.length_bytes
  have hle := m.hdrlen_le
  rw [hnil, List.length_nil] at hlen
  simp only [align4, nlmsgHdrlen] at *
  omega

theorem dump_ne_nil (closing : Option Closing) (h : messages ≠ [] ∨ closing.isSome) :
    dump seq messages ++ closingBytes seq closing e ≠ [] := by
  intro hnil
  obtain ⟨hdump, hclosing⟩ := List.append_eq_nil_iff.mp hnil
  cases messages with
  | nil =>
    cases closing with
    | none => simp at h
    | some c => exact c.toEnvelope.bytes_ne_nil hclosing
  | cons m messages =>
    rw [dump_cons] at hdump
    exact m.envelope.bytes_ne_nil (List.append_eq_nil_iff.mp hdump).1

theorem walk_done (buf : List UInt8) (pos : ℕ) {part : DumpPart} (h : part.done = true) :
    walk e seq.toNat buf pos part = .ok part := by
  have hstop : ¬(pos + nlmsgHdrlen ≤ buf.length ∧ part.done = false ∧ part.errno = none) := by
    rintro ⟨-, hdone, -⟩
    exact Bool.noConfusion (h.symm.trans hdone)
  rw [walk, dif_neg hstop]

/-- The message that ends a dump ends the walk, whatever follows, and says whether it was torn. -/
theorem walk_closed (pre rest : List UInt8) (part : DumpPart) (c : Closing)
    (hdone : part.done = false) (herrno : part.errno = none) :
    walk e seq.toNat (pre ++ (c.toEnvelope.bytes e seq ++ rest)) pre.length part =
      .ok { part with done := true, interrupted := c.flags.toNat &&& nlmFDumpIntr ≠ 0 } := by
  have hmessage := @walk_message e seq pre rest part c.toEnvelope hdone herrno
  have hkind : c.kind.toNat = nlmsgDone := by
    rw [c.closes]
    rfl
  rw [hkind, takeMessage, if_pos rfl, ok_bind] at hmessage
  exact hmessage.trans (walk_done _ _ rfl)

/-- The walk at the end of a dump. -/
theorem walk_closing (pre : List UInt8) (part : DumpPart) (closing : Option Closing)
    (hdone : part.done = false) (herrno : part.errno = none) :
    ∃ interrupted, walk e seq.toNat (pre ++ closingBytes seq closing e) pre.length part =
      .ok { part with done := closing.isSome, interrupted := interrupted } := by
  cases closing with
  | none =>
    refine ⟨part.interrupted, ?_⟩
    rw [closingBytes, Option.elim_none, walk_left _ _ (by decide), Option.isSome_none, ← hdone]
  | some c =>
    have hclosed := @walk_closed e seq pre [] part c hdone herrno
    rw [List.append_nil] at hclosed
    exact ⟨_, hclosed⟩

theorem parse_nonempty {buf : List UInt8} (h : buf ≠ []) :
    parse e seq.toNat buf = walk e seq.toNat buf 0 {} := by
  rw [parse, if_neg (by simpa using h)]

theorem parse_dump (closing : Option Closing) (hne : messages ≠ [] ∨ closing.isSome)
    (h : ∀ m ∈ messages, m.entry.Answers) :
    ∃ interrupted, parse e seq.toNat (dump seq messages ++ closingBytes seq closing e) =
      .ok { flows := messages.filterMap (·.entry.flow e), done := closing.isSome,
            interrupted := interrupted } := by
  have hwalk := @walk_dump e seq [] (closingBytes seq closing e) {} messages h rfl rfl
  obtain ⟨interrupted, hend⟩ := @walk_closing e seq (dump seq messages)
    { flows := messages.filterMap (·.entry.flow e) } closing rfl rfl
  refine ⟨interrupted, ?_⟩
  rw [parse_nonempty (dump_ne_nil closing hne)]
  exact hwalk.trans hend

theorem parse_refused (rest : List UInt8) (h : ∃ m ∈ messages, ¬m.entry.Answers) :
    ∃ error, parse e seq.toNat (dump seq messages ++ rest) = .error (.refused error) := by
  have hne : dump seq messages ++ rest ≠ [] := by
    obtain ⟨m, hm, -⟩ := h
    intro hnil
    have hdump := (List.append_eq_nil_iff.mp hnil).1
    exact m.envelope.bytes_ne_nil (List.flatMap_eq_nil_iff.mp hdump m hm)
  rw [parse_nonempty hne]
  exact @walk_refused e seq [] rest {} messages h rfl rfl

/-- A dump of messages that answer is read back: a flow for each socket that has an inode, in order,
with its counters, and whether it was the last part. A socket that does not answer refuses it all.
Whatever the bytes, no index is out of bounds. -/
theorem parse_inverts_dump (e : Endian) (seq : UInt32) (messages : List (Message e))
    (closing : Option Closing) :
    (messages ≠ [] ∨ closing.isSome → (∀ m ∈ messages, m.entry.Answers) →
      ∃ part, parse e seq.toNat (dump seq messages ++ closingBytes seq closing e) = .ok part ∧
        part.flows = messages.filterMap (·.entry.flow e) ∧ part.done = closing.isSome) ∧
    ((∃ m ∈ messages, ¬m.entry.Answers) →
      ∃ error, parse e seq.toNat (dump seq messages ++ closingBytes seq closing e) =
        .error (.refused error)) ∧
    ∀ request buf, Unpanicked (parse e request buf) := by
  refine ⟨?_, parse_refused _, parse_unpanicked⟩
  intro hne h
  obtain ⟨interrupted, hparse⟩ := parse_dump closing hne h
  exact ⟨_, hparse, rfl, rfl⟩

/-- A `tcp_info` that just reaches the received bytes. -/
def blankInfo : Attribute where
  word := 2
  payload := List.replicate minReceived 0
  padding := []
  fits := by
    rw [List.length_replicate]
    decide
  padded := by rw [List.length_replicate]; rfl

theorem blankInfo_length : (attributesBytes .little [blankInfo]).length = 140 := by
  rw [attributesBytes, List.flatMap_singleton, Attribute.length_bytes, blankInfo,
    List.length_replicate]
  rfl

/-- The message of a socket whose counters are all zero. -/
def blankSocket (inode : UInt32) : Message .little where
  entry := .socket (.replicate 68 0) inode [blankInfo]
  flags := 0
  portid := 0
  padding := []
  fits := by simp [Entry.body, blankInfo_length, nlmsgHdrlen]
  padded := by simp [Entry.body, blankInfo_length, nlmsgHdrlen, align4]

theorem blankSocket_answers (inode : UInt32) : (blankSocket inode).entry.Answers :=
  fun _ => ⟨List.replicate minReceived 0, rfl, by rw [List.length_replicate]⟩

theorem counterAt_blank {start : ℕ} (h : start + 8 ≤ minReceived) :
    counterAt .little (List.replicate minReceived 0) start = 0 := by
  rw [counterAt, List.drop_replicate, List.take_replicate, min_eq_left (by omega)]
  rfl

theorem blankSocket_flow {inode : UInt32} (h : inode ≠ 0) :
    (blankSocket inode).entry.flow .little = some ⟨inode.toNat, 0, 0⟩ := by
  have hinfo : tcpInfoOf [blankInfo] = some (List.replicate minReceived 0) := rfl
  rw [blankSocket, Entry.flow, if_neg h, hinfo, Option.map_some, counterAt_blank (by decide),
    if_neg (by rw [List.length_replicate]; decide), counterAt_blank (by decide)]

def blankNoop : Message .little where
  entry := .noop []
  flags := 0
  portid := 0
  padding := []
  fits := by decide
  padded := by decide

def blankEnd : Closing := ⟨⟨3, 0, 0, [], [], by decide, by decide⟩, rfl⟩

/-- Two sockets with a NOOP between them. -/
def blankMessages : List (Message .little) := [blankSocket 9, blankNoop, blankSocket 11]

theorem blankMessages_answer : ∀ m ∈ blankMessages, m.entry.Answers := by
  rw [blankMessages, List.forall_mem_cons, List.forall_mem_cons, List.forall_mem_singleton]
  exact ⟨blankSocket_answers 9, trivial, blankSocket_answers 11⟩

theorem parse_inverts_dump_blank :
    ∃ part, parse .little 1 (dump 1 blankMessages ++ closingBytes 1 (some blankEnd) .little) =
        .ok part ∧
      part.flows = blankMessages.filterMap (·.entry.flow .little) ∧ part.done = true :=
  (parse_inverts_dump .little 1 blankMessages (some blankEnd)).1 (.inl (List.cons_ne_nil _ _))
    blankMessages_answer

/-- A dump that ends within a message. -/
theorem parse_left (before after : List (Message e)) (m : Message e) {c : ℕ}
    (h : ∀ m ∈ before, m.entry.Answers) (hpos : 1 ≤ c) (hc : c < m.envelope.len) :
    parse e seq.toNat ((dump seq (before ++ m :: after)).take ((dump seq before).length + c)) =
      walk e seq.toNat (dump seq before ++ (m.envelope.bytes e seq).take c)
        (dump seq before).length { flows := before.filterMap (·.entry.flow e) } := by
  have hle : c ≤ (m.envelope.bytes e seq).length := by
    rw [m.envelope.length_bytes]
    simp only [align4]
    omega
  have htake : (dump seq (before ++ m :: after)).take ((dump seq before).length + c) =
      dump seq before ++ (m.envelope.bytes e seq).take c := by
    have hsplit : dump seq (before ++ m :: after) =
        dump seq before ++ (m.envelope.bytes e seq ++ dump seq after) := by
      simp [dump]
    rw [hsplit, List.take_length_add_append, List.take_append_of_le_length hle]
  have hne : dump seq before ++ (m.envelope.bytes e seq).take c ≠ [] := by
    intro hnil
    have hlen := congrArg List.length (List.append_eq_nil_iff.mp hnil).2
    rw [List.length_take, List.length_nil] at hlen
    omega
  rw [htake, parse_nonempty hne]
  exact @walk_dump e seq [] ((m.envelope.bytes e seq).take c) {} before h rfl rfl

/-- A dump cut within a message is refused exactly when the message's header is still there; cut
within the header it is accepted, the message left out. -/
theorem cut_refused_iff (e : Endian) (seq : UInt32) (before after : List (Message e))
    (m : Message e) (c : ℕ) (h : ∀ m ∈ before, m.entry.Answers) (hpos : 1 ≤ c)
    (hc : c < m.envelope.len) :
    (∃ error, parse e seq.toNat
      ((dump seq (before ++ m :: after)).take ((dump seq before).length + c)) =
        .error (.refused error)) ↔ nlmsgHdrlen ≤ c := by
  rw [parse_left before after m h hpos hc]
  constructor
  · rintro ⟨error, herror⟩
    by_contra hlt
    have hshort : ((m.envelope.bytes e seq).take c).length < nlmsgHdrlen := by
      rw [List.length_take]
      omega
    rw [walk_left _ _ hshort] at herror
    cases herror
  · intro hle
    exact walk_cut _ _ hc hle rfl rfl

theorem blankSocket_len (inode : UInt32) : (blankSocket inode).envelope.len = 228 := by
  simp [Envelope.len, Message.envelope, blankSocket, Entry.body, blankInfo_length, nlmsgHdrlen]

theorem cut_refused_iff_blank :
    ∃ error, parse .little 1 ((dump 1 (blankMessages ++ blankSocket 13 :: blankMessages)).take
        ((dump 1 blankMessages).length + 16)) =
      .error (.refused error) :=
  (cut_refused_iff .little 1 blankMessages blankMessages (blankSocket 13) 16 blankMessages_answer
    (by decide) (by rw [blankSocket_len]; decide)).mpr (le_refl 16)

/-- Two sockets, the dump cut 8 bytes into the second's message: accepted with one. -/
theorem cut_left_out :
    parse .little 1 ((dump 1 ([blankSocket 9] ++ blankSocket 11 :: [])).take
      ((dump 1 [blankSocket 9]).length + 8)) = .ok { flows := [⟨9, 0, 0⟩] } := by
  have hanswers : ∀ m ∈ [blankSocket 9], m.entry.Answers := by
    intro m hm
    obtain rfl := List.mem_singleton.mp hm
    exact blankSocket_answers 9
  have hshort : (((blankSocket 11).envelope.bytes .little 1).take 8).length < nlmsgHdrlen := by
    rw [List.length_take]
    exact lt_of_le_of_lt (min_le_left _ _) (by decide)
  have hleft := @parse_left .little 1 [blankSocket 9] [] (blankSocket 11) 8 hanswers (by decide)
    (by rw [blankSocket_len]; decide)
  have hflows : [blankSocket 9].filterMap (·.entry.flow .little) = [⟨9, 0, 0⟩] := by
    have hflow := blankSocket_flow (show (9 : UInt32) ≠ 0 by decide)
    rw [List.filterMap_cons, hflow]
    rfl
  rw [walk_left _ _ hshort, hflows] at hleft
  exact hleft

end Zstats.Sockdiag
