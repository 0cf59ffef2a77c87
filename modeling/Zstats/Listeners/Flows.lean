import Zstats.Listeners.Dump

namespace Zstats.Sockdiag

open Bytes Failing

/-- What a message of a dump carries, its end apart. -/
inductive Entry where
  | socket (filler : Vector UInt8 68) (inode : UInt32) (attributes : List Attribute)
  | noop (body : List UInt8)
  | acknowledged (body : List UInt8)
  | unknown (kind : UInt16) (body : List UInt8)
      (h : kind.toNat ∉ [sockDiagByFamily, nlmsgNoop, nlmsgError, nlmsgDone])

def Entry.kind : Entry → UInt16
  | .socket .. => 20
  | .noop _ => 1
  | .acknowledged _ => 2
  | .unknown kind .. => kind

section

variable (e : Endian)

def Entry.body : Entry → List UInt8
  | .socket filler inode attributes =>
    filler.toList ++ (encode e 4 inode.toNat ++ attributesBytes e attributes)
  | .noop body => body
  | .acknowledged body => encode e 4 0 ++ body
  | .unknown _ body _ => body

structure Message where
  entry : Entry
  flags : UInt16
  portid : UInt32
  padding : List UInt8
  fits : nlmsgHdrlen + (entry.body e).length < 256 ^ 4
  padded : nlmsgHdrlen + (entry.body e).length + padding.length =
    align4 (nlmsgHdrlen + (entry.body e).length)

/-- The message that ends a dump. -/
structure Closing extends Envelope where
  closes : kind = 3

end

variable {e : Endian} {seq : UInt32}

def Message.envelope (m : Message e) : Envelope where
  kind := m.entry.kind
  flags := m.flags
  portid := m.portid
  body := m.entry.body e
  padding := m.padding
  fits := m.fits
  padded := m.padded

/-- The messages as they lie in the dump. -/
def dump (seq : UInt32) (messages : List (Message e)) : List UInt8 :=
  messages.flatMap fun m => m.envelope.bytes e seq

/-- The `tcp_info` among attributes. -/
def tcpInfoOf (attributes : List Attribute) : Option (List UInt8) :=
  (attributes.find? (·.maskedType = inetDiagInfo)).map Attribute.payload

/-- A socket that has an inode carries a `tcp_info` that reaches the received bytes. -/
def Entry.Answers : Entry → Prop
  | .socket _ inode attributes =>
    inode ≠ 0 → ∃ info, tcpInfoOf attributes = some info ∧ minReceived ≤ info.length
  | _ => True

variable (e) in
/-- The 64-bit counter at an offset of a `tcp_info`. -/
def counterAt (info : List UInt8) (start : ℕ) : ℕ := decode e ((info.drop start).take 8)

variable (e) in
/-- The flow of a socket that has an inode. -/
def Entry.flow : Entry → Option TcpFlow
  | .socket _ inode attributes =>
    if inode = 0 then none
    else (tcpInfoOf attributes).map fun info =>
      { inode := inode.toNat
        receivedBytes := counterAt e info bytesReceivedAt
        transmittedBytes :=
          if minSent ≤ info.length then counterAt e info bytesSentAt
          else counterAt e info bytesAckedAt }
  | _ => none

theorem readU64_counter {info : List UInt8} {start : ℕ} (h : start + 8 ≤ info.length) :
    readU64 e info start = .ok (counterAt e info start) := by
  apply readField_some
  rw [Bytes.read, slice, if_pos h]
  rfl

theorem inode_zero {inode : UInt32} : inode.toNat = 0 ↔ inode = 0 := UInt32.toNat_inj (b := 0)

section Socket

variable {m : Envelope} {filler : Vector UInt8 68} {inode : UInt32} {attributes : List Attribute}

/-- The parts of a socket's message that are read. -/
theorem socket_reads
    (h : m.body = filler.toList ++ (encode e 4 inode.toNat ++ attributesBytes e attributes)) :
    nlmsgHdrlen + diagMsgLen ≤ (m.record e seq).length ∧
    readU32 e (m.record e seq) (nlmsgHdrlen + inodeAt) = .ok inode.toNat ∧
    tcpInfo e (m.record e seq) = .ok (tcpInfoOf attributes) := by
  have hinode : inode.toNat < 256 ^ 4 := inode.toNat_lt
  have hlen : m.len = 88 + (attributesBytes e attributes).length := by
    simp [Envelope.len, h, nlmsgHdrlen]
    omega
  refine ⟨?_, ?_, ?_⟩
  · rw [m.length_record, hlen]
    exact Nat.le_add_right _ _
  · apply readField_some
    simp (disch := simp) [Envelope.record, h, nlmsgHdrlen, inodeAt, read_skip, read_encode hinode]
  · have hshape : m.record e seq = (encode e 4 m.len ++ (encode e 2 m.kind.toNat ++
        (encode e 2 m.flags.toNat ++ (encode e 4 seq.toNat ++ (encode e 4 m.portid.toNat ++
          (filler.toList ++ encode e 4 inode.toNat)))))) ++ attributesBytes e attributes := by
      simp [Envelope.record, h]
    have hstart : nlmsgHdrlen + diagMsgLen = (encode e 4 m.len ++ (encode e 2 m.kind.toNat ++
        (encode e 2 m.flags.toNat ++ (encode e 4 seq.toNat ++ (encode e 4 m.portid.toNat ++
          (filler.toList ++ encode e 4 inode.toNat)))))).length := by
      simp [nlmsgHdrlen, diagMsgLen]
    rw [tcpInfo, hshape, hstart, tcpInfoFrom_attributes, tcpInfoOf]

variable (h : m.body = filler.toList ++ (encode e 4 inode.toNat ++ attributesBytes e attributes))

include h

theorem flowOf_answers (hanswers : (Entry.socket filler inode attributes).Answers) :
    flowOf e (m.record e seq) = .ok ((Entry.socket filler inode attributes).flow e) := by
  obtain ⟨hlen, hinode, hinfo⟩ := @socket_reads e seq m filler inode attributes h
  rw [flowOf, if_neg (Nat.not_lt.mpr hlen), hinode, ok_bind, Entry.flow]
  by_cases hzero : inode = 0
  · rw [if_pos (inode_zero.mpr hzero), if_pos hzero]
    rfl
  · obtain ⟨info, hsome, hle⟩ := hanswers hzero
    have htransmitted : (if minSent ≤ info.length then readU64 e info bytesSentAt
        else readU64 e info bytesAckedAt) = .ok (if minSent ≤ info.length then
          counterAt e info bytesSentAt else counterAt e info bytesAckedAt) := by
      by_cases hsent : minSent ≤ info.length
      · rw [if_pos hsent, if_pos hsent, readU64_counter hsent]
      · rw [if_neg hsent, if_neg hsent, readU64_counter (le_trans (by decide) hle)]
    rw [if_neg (fun h => hzero (inode_zero.mp h)), if_neg hzero, hinfo, ok_bind, hsome,
      okOr_some, ok_bind, if_neg (Nat.not_lt.mpr hle), readU64_counter hle, ok_bind, htransmitted,
      ok_bind]
    rfl

theorem flowOf_refused (hanswers : ¬(Entry.socket filler inode attributes).Answers) :
    ∃ error, flowOf e (m.record e seq) = .error (.refused error) := by
  obtain ⟨hlen, hinode, hinfo⟩ := @socket_reads e seq m filler inode attributes h
  have hzero : inode ≠ 0 := fun hzero => hanswers (fun hne => absurd hzero hne)
  rw [flowOf, if_neg (Nat.not_lt.mpr hlen), hinode, ok_bind,
    if_neg (fun h => hzero (inode_zero.mp h)), hinfo, ok_bind]
  cases hsome : tcpInfoOf attributes with
  | none => exact ⟨_, rfl⟩
  | some info =>
    have hshort : info.length < minReceived := by
      by_contra hle
      exact hanswers (fun _ => ⟨info, hsome, Nat.not_lt.mp hle⟩)
    rw [okOr_some, ok_bind, if_pos hshort]
    exact ⟨_, rfl⟩

end Socket

variable {part : DumpPart}

theorem Message.kind_eq {m : Message e} {entry : Entry} (h : m.entry = entry) :
    m.envelope.kind.toNat = entry.kind.toNat := by
  rw [← h]
  rfl

theorem Message.body_eq {m : Message e} {entry : Entry} (h : m.entry = entry) :
    m.envelope.body = entry.body e := by
  rw [← h]
  rfl

/-- A message adds its flow, and nothing else. -/
theorem take_answers (m : Message e) (h : m.entry.Answers) :
    takeMessage e m.envelope.kind.toNat m.envelope.flags.toNat (m.envelope.record e seq) part =
      .ok { part with flows := part.flows ++ (m.entry.flow e).toList } := by
  cases hentry : m.entry with
  | socket filler inode attributes =>
    have hanswers : (Entry.socket filler inode attributes).Answers := hentry ▸ h
    have hkind : m.envelope.kind.toNat = sockDiagByFamily := Message.kind_eq hentry
    rw [hkind, takeMessage, if_neg (by decide), if_neg (by decide), if_neg (by decide), if_pos rfl,
      flowOf_answers (Message.body_eq hentry) hanswers]
    rfl
  | noop body =>
    have hkind : m.envelope.kind.toNat = nlmsgNoop := Message.kind_eq hentry
    rw [hkind, takeMessage, if_neg (by decide), if_neg (by decide), if_pos rfl]
    simp [Entry.flow]
  | acknowledged body =>
    have hkind : m.envelope.kind.toNat = nlmsgError := Message.kind_eq hentry
    have hbody : m.envelope.body = encode e 4 0 ++ body := Message.body_eq hentry
    have herrno : readI32 e (m.envelope.record e seq) nlmsgHdrlen = .ok 0 := by
      have hread : readU32 e (m.envelope.record e seq) nlmsgHdrlen = .ok 0 := by
        apply readField_some
        simp (disch := simp) [Envelope.record, hbody, nlmsgHdrlen, read_skip, read_encode]
      rw [readI32, hread]
      rfl
    rw [hkind, takeMessage, if_neg (by decide), if_pos rfl, herrno]
    simp [Entry.flow]
  | unknown kind body hunknown =>
    simp only [List.mem_cons, List.not_mem_nil, or_false, not_or] at hunknown
    obtain ⟨hsocket, hnoop, herror, hdone⟩ := hunknown
    rw [Message.kind_eq hentry, takeMessage, Entry.kind, if_neg hdone, if_neg herror, if_neg hnoop,
      if_neg hsocket]
    simp [Entry.flow]

theorem take_refused (m : Message e) (h : ¬m.entry.Answers) :
    ∃ error, takeMessage e m.envelope.kind.toNat m.envelope.flags.toNat
      (m.envelope.record e seq) part = .error (.refused error) := by
  cases hentry : m.entry with
  | socket filler inode attributes =>
    have hanswers : ¬(Entry.socket filler inode attributes).Answers := hentry ▸ h
    have hkind : m.envelope.kind.toNat = sockDiagByFamily := Message.kind_eq hentry
    have hrefused : ∃ error, flowOf e (m.envelope.record e seq) = .error (.refused error) :=
      flowOf_refused (Message.body_eq hentry) hanswers
    obtain ⟨error, herror⟩ := hrefused
    refine ⟨error, ?_⟩
    rw [hkind, takeMessage, if_neg (by decide), if_neg (by decide), if_neg (by decide), if_pos rfl,
      herror]
    rfl
  | noop body => exact absurd (by rw [hentry]; trivial) h
  | acknowledged body => exact absurd (by rw [hentry]; trivial) h
  | unknown kind body hunknown => exact absurd (by rw [hentry]; trivial) h

theorem dump_cons (m : Message e) (messages : List (Message e)) :
    dump seq (m :: messages) = m.envelope.bytes e seq ++ dump seq messages := rfl

/-- The walk over messages that answer: their flows are added, in order. -/
theorem walk_dump (pre rest : List UInt8) (part : DumpPart) (messages : List (Message e))
    (h : ∀ m ∈ messages, m.entry.Answers) (hdone : part.done = false) (herrno : part.errno = none) :
    walk e seq.toNat (pre ++ (dump seq messages ++ rest)) pre.length part =
      walk e seq.toNat (pre ++ (dump seq messages ++ rest)) (pre ++ dump seq messages).length
        { part with flows := part.flows ++ messages.filterMap (·.entry.flow e) } := by
  induction messages generalizing pre part with
  | nil => simp [dump]
  | cons m messages ih =>
    have hm := h m List.mem_cons_self
    have hrest := ih (pre ++ m.envelope.bytes e seq)
      { part with flows := part.flows ++ (m.entry.flow e).toList }
      (fun m hm => h m (List.mem_cons_of_mem _ hm)) hdone herrno
    have hflows : (m :: messages).filterMap (·.entry.flow e) =
        (m.entry.flow e).toList ++ messages.filterMap (·.entry.flow e) := by
      cases hflow : m.entry.flow e <;> simp [hflow]
    rw [dump_cons, List.append_assoc (m.envelope.bytes e seq), walk_message _ _ _ hdone herrno,
      take_answers m hm, ok_bind, hflows]
    simpa only [List.append_assoc] using hrest

/-- A message that does not answer refuses the dump, whatever follows. -/
theorem walk_refused (pre rest : List UInt8) (part : DumpPart) (messages : List (Message e))
    (h : ∃ m ∈ messages, ¬m.entry.Answers) (hdone : part.done = false)
    (herrno : part.errno = none) :
    ∃ error, walk e seq.toNat (pre ++ (dump seq messages ++ rest)) pre.length part =
      .error (.refused error) := by
  induction messages generalizing pre part with
  | nil =>
    obtain ⟨m, hm, -⟩ := h
    cases hm
  | cons m messages ih =>
    rw [dump_cons, List.append_assoc, walk_message _ _ _ hdone herrno]
    by_cases hm : m.entry.Answers
    · have htail : ∃ m ∈ messages, ¬m.entry.Answers := by
        obtain ⟨n, hn, hbad⟩ := h
        obtain rfl | hn := List.mem_cons.mp hn
        · exact absurd hm hbad
        · exact ⟨n, hn, hbad⟩
      have hrest := ih (pre ++ m.envelope.bytes e seq)
        { part with flows := part.flows ++ (m.entry.flow e).toList } htail hdone herrno
      rw [take_answers m hm, ok_bind]
      simpa only [List.append_assoc] using hrest
    · obtain ⟨error, herror⟩ := take_refused (e := e) (m := m) hm
      exact ⟨error, by rw [herror, error_bind]⟩

/-- What ends a dump, if anything does. -/
def closingBytes (seq : UInt32) (closing : Option Closing) (e : Endian) : List UInt8 :=
  closing.elim [] fun c => c.toEnvelope.bytes e seq

end Zstats.Sockdiag
