import Zstats.Listeners.Sockdiag

namespace Zstats.Sockdiag

open Bytes Failing

/-- A netlink message as it lies in a dump. -/
structure Envelope where
  kind : UInt16
  flags : UInt16
  portid : UInt32
  body : List UInt8
  padding : List UInt8
  fits : nlmsgHdrlen + body.length < 256 ^ 4
  padded : nlmsgHdrlen + body.length + padding.length = align4 (nlmsgHdrlen + body.length)

/-- A netlink attribute. -/
structure Attribute where
  word : UInt16
  payload : List UInt8
  padding : List UInt8
  fits : 4 + payload.length < 256 ^ 2
  padded : 4 + payload.length + padding.length = align4 (4 + payload.length)

def Envelope.len (m : Envelope) : ℕ := nlmsgHdrlen + m.body.length

/-- The type of an attribute, without the flag bits. -/
def Attribute.maskedType (a : Attribute) : ℕ := a.word.toNat &&& nlaTypeMask

section

variable (e : Endian) (seq : UInt32)

def Envelope.record (m : Envelope) : List UInt8 :=
  encode e 4 m.len ++ (encode e 2 m.kind.toNat ++ (encode e 2 m.flags.toNat ++
    (encode e 4 seq.toNat ++ (encode e 4 m.portid.toNat ++ m.body))))

def Envelope.bytes (m : Envelope) : List UInt8 := m.record e seq ++ m.padding

def Attribute.bytes (a : Attribute) : List UInt8 :=
  encode e 2 (4 + a.payload.length) ++ (encode e 2 a.word.toNat ++ (a.payload ++ a.padding))

def attributesBytes (attributes : List Attribute) : List UInt8 :=
  attributes.flatMap (Attribute.bytes e)

end

variable {e : Endian} {seq : UInt32} (pre rest : List UInt8)

@[simp] theorem Envelope.length_record (m : Envelope) : (m.record e seq).length = m.len := by
  simp [record, len, nlmsgHdrlen]
  omega

theorem Envelope.length_bytes (m : Envelope) : (m.bytes e seq).length = align4 m.len := by
  have hpadded := m.padded
  rw [bytes, List.length_append, m.length_record]
  exact hpadded

theorem Attribute.length_bytes (a : Attribute) :
    (a.bytes e).length = align4 (4 + a.payload.length) := by
  have hpadded := a.padded
  simp only [bytes, List.length_append, length_encode]
  omega

section Fields

variable {width n : ℕ} {buf : List UInt8} {start : ℕ}

theorem readField_some (h : read e width buf start = some n) :
    readField e width buf start = .ok n := by
  rw [readField, h, okOr_some]

theorem index_ok {len : ℕ} (h : start + len ≤ buf.length) :
    index buf start len = .ok ((buf.drop start).take len) := by
  rw [index, slice, if_pos h, okOr_some]

end Fields

/-- The header of a message, read. -/
theorem Envelope.reads (m : Envelope) :
    readU32 e (pre ++ (m.record e seq ++ rest)) pre.length = .ok m.len ∧
    readU16 e (pre ++ (m.record e seq ++ rest)) (pre.length + 4) = .ok m.kind.toNat ∧
    readU16 e (pre ++ (m.record e seq ++ rest)) (pre.length + 6) = .ok m.flags.toNat ∧
    readU32 e (pre ++ (m.record e seq ++ rest)) (pre.length + 8) = .ok seq.toNat := by
  have hkind : m.kind.toNat < 256 ^ 2 := m.kind.toNat_lt
  have hflags : m.flags.toNat < 256 ^ 2 := m.flags.toNat_lt
  have hseq : seq.toNat < 256 ^ 4 := seq.toNat_lt
  have hlen : m.len < 256 ^ 4 := m.fits
  have hshape : m.record e seq ++ rest = encode e 4 m.len ++ (encode e 2 m.kind.toNat ++
      (encode e 2 m.flags.toNat ++ (encode e 4 seq.toNat ++
        (encode e 4 m.portid.toNat ++ (m.body ++ rest))))) := by
    simp [record]
  rw [hshape]
  refine ⟨readField_some ?_, readField_some ?_, readField_some ?_, readField_some ?_⟩ <;>
    rw [read_skip (by omega)]
  · rw [Nat.sub_self, read_encode hlen]
  · simp (disch := simp) [read_skip, read_encode hkind]
  · simp (disch := simp) [read_skip, read_encode hflags]
  · simp (disch := simp) [read_skip, read_encode hseq]

variable {part : DumpPart}

theorem Envelope.hdrlen_le (m : Envelope) : nlmsgHdrlen ≤ m.len := Nat.le_add_right _ _

/-- One message of the walk. -/
theorem walk_message (m : Envelope) (hdone : part.done = false) (herrno : part.errno = none) :
    walk e seq.toNat (pre ++ (m.bytes e seq ++ rest)) pre.length part =
      takeMessage e m.kind.toNat m.flags.toNat (m.record e seq) part >>= fun part =>
        walk e seq.toNat (pre ++ (m.bytes e seq ++ rest)) (pre ++ m.bytes e seq).length part := by
  have hnext : pre.length + align4 m.len = (pre ++ m.bytes e seq).length := by
    rw [List.length_append, m.length_bytes]
  have hshape : m.bytes e seq ++ rest = m.record e seq ++ (m.padding ++ rest) := by
    simp [Envelope.bytes]
  obtain ⟨hlen, hkind, hflags, hseq⟩ := @Envelope.reads e seq pre (m.padding ++ rest) m
  have hle := m.hdrlen_le
  have hbound : pre.length + m.len ≤
      (pre ++ (m.record e seq ++ (m.padding ++ rest))).length := by
    rw [List.length_append, List.length_append, m.length_record]
    omega
  have hmsg : index (pre ++ (m.record e seq ++ (m.padding ++ rest))) pre.length m.len =
      .ok (m.record e seq) := by
    rw [index, slice_skip (le_refl _), Nat.sub_self, slice_here m.length_record, okOr_some]
  rw [← hnext, hshape, walk, dif_pos ⟨by omega, hdone, herrno⟩, hlen, ok_bind,
    dif_neg (Nat.not_lt.mpr hle), if_neg (Nat.not_lt.mpr hbound), hkind, ok_bind, hflags, ok_bind,
    hseq, ok_bind, if_neg (fun h => h rfl), hmsg, ok_bind]

/-- A message of which at least the header is there is refused when its end is not. -/
theorem walk_cut (m : Envelope) {c : ℕ} (hc : c < m.len) (hle : nlmsgHdrlen ≤ c)
    (hdone : part.done = false) (herrno : part.errno = none) :
    ∃ error, walk e seq.toNat (pre ++ (m.bytes e seq).take c) pre.length part =
      .error (.refused error) := by
  have hfits : m.len < 256 ^ 4 := m.fits
  have htake : ∃ tail, (m.bytes e seq).take c = encode e 4 m.len ++ tail := by
    have hfour : (encode e 4 m.len).length ≤ c := by
      simp only [nlmsgHdrlen] at hle
      rw [length_encode]
      omega
    rw [Envelope.bytes, Envelope.record, List.append_assoc, List.take_append,
      List.take_of_length_le hfour]
    exact ⟨_, rfl⟩
  have hlength : ((m.bytes e seq).take c).length = c := by
    rw [List.length_take, m.length_bytes]
    simp only [align4]
    omega
  have hread : readU32 e (pre ++ (m.bytes e seq).take c) pre.length = .ok m.len := by
    obtain ⟨tail, htake⟩ := htake
    rw [htake]
    apply readField_some
    rw [read_skip (le_refl _), Nat.sub_self, read_encode hfits]
  have htotal : (pre ++ (m.bytes e seq).take c).length = pre.length + c := by
    rw [List.length_append, hlength]
  rw [walk, dif_pos ⟨by omega, hdone, herrno⟩, hread, ok_bind, dif_neg (Nat.not_lt.mpr m.hdrlen_le),
    if_pos (by omega)]
  exact ⟨_, rfl⟩

/-- Fewer bytes than a header end the walk. -/
theorem walk_left (tail : List UInt8) (h : tail.length < nlmsgHdrlen) :
    walk e seq.toNat (pre ++ tail) pre.length part = .ok part := by
  have hlen : ¬(pre.length + nlmsgHdrlen ≤ (pre ++ tail).length ∧ part.done = false ∧
      part.errno = none) := by
    rintro ⟨hle, -⟩
    rw [List.length_append] at hle
    omega
  rw [walk, dif_neg hlen]

theorem Attribute.reads (a : Attribute) :
    readU16 e (pre ++ (a.bytes e ++ rest)) pre.length = .ok (4 + a.payload.length) ∧
    readU16 e (pre ++ (a.bytes e ++ rest)) (pre.length + 2) = .ok a.word.toNat ∧
    index (pre ++ (a.bytes e ++ rest)) (pre.length + 4) a.payload.length = .ok a.payload := by
  have hword : a.word.toNat < 256 ^ 2 := a.word.toNat_lt
  have hshape : a.bytes e ++ rest = encode e 2 (4 + a.payload.length) ++
      (encode e 2 a.word.toNat ++ (a.payload ++ (a.padding ++ rest))) := by
    simp [bytes]
  rw [hshape]
  refine ⟨readField_some ?_, readField_some ?_, ?_⟩
  · rw [read_skip (le_refl _), Nat.sub_self, read_encode a.fits]
  · rw [read_skip (by omega)]
    simp (disch := simp) [read_skip, read_encode hword]
  · rw [index, slice_skip (by omega)]
    simp (disch := simp) [slice_skip, slice_here]

/-- The attributes are walked to the first `INET_DIAG_INFO`. -/
theorem tcpInfoFrom_attributes (attributes : List Attribute) :
    tcpInfoFrom e (pre ++ attributesBytes e attributes) pre.length =
      .ok ((attributes.find? (·.maskedType = inetDiagInfo)).map Attribute.payload) := by
  induction attributes generalizing pre with
  | nil =>
    have hend : ¬pre.length + 4 ≤ (pre ++ attributesBytes e []).length := by
      simp [attributesBytes]
    rw [tcpInfoFrom, dif_neg hend]
    rfl
  | cons a attributes ih =>
    have hbytes : attributesBytes e (a :: attributes) =
        a.bytes e ++ attributesBytes e attributes := rfl
    obtain ⟨hlen, hword, hpayload⟩ :=
      @Attribute.reads e pre (attributesBytes e attributes) a
    have htotal : (pre ++ (a.bytes e ++ attributesBytes e attributes)).length =
        pre.length + (align4 (4 + a.payload.length) + (attributesBytes e attributes).length) := by
      rw [List.length_append, List.length_append, a.length_bytes]
    have hround : 4 + a.payload.length ≤ align4 (4 + a.payload.length) := by
      simp only [align4]
      omega
    rw [hbytes, tcpInfoFrom, dif_pos (by omega), hlen, ok_bind, hword, ok_bind,
      dif_neg (by omega)]
    by_cases htype : a.maskedType = inetDiagInfo
    · have hmask : a.word.toNat &&& nlaTypeMask = inetDiagInfo := htype
      rw [if_pos hmask, Nat.add_sub_cancel_left, hpayload, List.find?_cons_of_pos (by simpa using htype)]
      rfl
    · have hmask : ¬a.word.toNat &&& nlaTypeMask = inetDiagInfo := htype
      have hnext : pre.length + align4 (4 + a.payload.length) = (pre ++ a.bytes e).length := by
        rw [List.length_append, a.length_bytes]
      rw [if_neg hmask, if_neg (by omega), hnext, ← List.append_assoc, ih,
        List.find?_cons_of_neg (by simpa using htype)]

end Zstats.Sockdiag
