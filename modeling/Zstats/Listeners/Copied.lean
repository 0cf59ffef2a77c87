import Mathlib.Algebra.BigOperators.Ring.List
import Zstats.Listeners.DumpRoundTrip

namespace Zstats.Sockdiag

open Bytes

variable {e : Endian}

/-- The bytes that a message takes up. -/
def Message.size (m : Message e) : ℕ := align4 m.envelope.len

/-- The messages that a buffer of `room` bytes holds whole. -/
def copied (room : ℕ) : List (Message e) → List (Message e)
  | [] => []
  | m :: messages => if m.size ≤ room then m :: copied (room - m.size) messages else []

/-- If the buffer does not hold them all, it ends before the body of the one that is cut. -/
def Legible (room : ℕ) : List (Message e) → Prop
  | [] => True
  | m :: messages =>
    if m.size ≤ room then Legible (room - m.size) messages else room < nlmsgHdrlen

variable {seq : UInt32} {room : ℕ} {messages : List (Message e)}

theorem Message.length_bytes (m : Message e) : (m.envelope.bytes e seq).length = m.size :=
  m.envelope.length_bytes

theorem Envelope.len_lt_of_align {m : Envelope} (hroom : 4 ∣ room) (h : room < align4 m.len) :
    room < m.len := by
  rw [align4] at h
  omega

theorem Message.dvd_size (m : Message e) : 4 ∣ m.size := Nat.dvd_mul_left _ _

theorem size_flags (m : Message e) (flags : UInt16) : Message.size { m with flags } = m.size := rfl

theorem sizes_dvd (messages : List (Message e)) : 4 ∣ (messages.map Message.size).sum := by
  apply List.dvd_sum
  intro size hsize
  obtain ⟨m, -, rfl⟩ := List.mem_map.mp hsize
  exact m.dvd_size

/-- A buffer with room for all of them. -/
theorem copied_all (h : (messages.map Message.size).sum ≤ room) :
    copied room messages = messages ∧ Legible room messages := by
  induction messages generalizing room with
  | nil => exact ⟨rfl, trivial⟩
  | cons m messages ih =>
    rw [List.map_cons, List.sum_cons] at h
    have hm : m.size ≤ room := by omega
    obtain ⟨hcopied, hlegible⟩ := @ih (room - m.size) (by omega)
    rw [copied, Legible, if_pos hm, if_pos hm, hcopied]
    exact ⟨rfl, hlegible⟩

theorem length_dump : (dump seq messages).length = (messages.map Message.size).sum := by
  rw [dump, List.length_flatMap]
  simp only [Message.length_bytes]

/-- A buffer that ends within a message: the header of that message decides. -/
theorem walk_within (pre : List UInt8) (part : DumpPart) (m : Envelope) (hroom : 4 ∣ room)
    (h : room < align4 m.len) (hdone : part.done = false) (herrno : part.errno = none) :
    (room < nlmsgHdrlen →
      walk e seq.toNat (pre ++ (m.bytes e seq).take room) pre.length part = .ok part) ∧
    (¬ room < nlmsgHdrlen →
      ∃ error, walk e seq.toNat (pre ++ (m.bytes e seq).take room) pre.length part =
        .error (.refused error)) := by
  constructor
  · intro hshort
    apply walk_left
    rw [List.length_take]
    exact lt_of_le_of_lt (min_le_left _ _) hshort
  · intro hheader
    exact walk_cut pre m (Envelope.len_lt_of_align hroom h) (Nat.not_lt.mp hheader) hdone herrno

/-- The walk over a buffer that does not hold all the messages. -/
theorem walk_copied (pre rest : List UInt8) (part : DumpPart) (hroom : 4 ∣ room)
    (h : room < (messages.map Message.size).sum) (hanswers : ∀ m ∈ messages, m.entry.Answers)
    (hdone : part.done = false) (herrno : part.errno = none) :
    (Legible room messages →
      walk e seq.toNat (pre ++ (dump seq messages ++ rest).take room) pre.length part =
        .ok { part with flows := part.flows ++
          (copied room messages).filterMap (·.entry.flow e) }) ∧
    (¬ Legible room messages →
      ∃ error, walk e seq.toNat (pre ++ (dump seq messages ++ rest).take room) pre.length part =
        .error (.refused error)) := by
  induction messages generalizing pre part room with
  | nil => exact absurd h (Nat.not_lt_zero _)
  | cons m messages ih =>
    rw [List.map_cons, List.sum_cons] at h
    have hbytes : (m.envelope.bytes e seq).length = m.size := m.length_bytes
    rw [dump_cons, List.append_assoc, List.take_append, hbytes, Legible, copied]
    by_cases hm : m.size ≤ room
    · have hflows : (m :: copied (room - m.size) messages).filterMap (·.entry.flow e) =
          (m.entry.flow e).toList ++
            (copied (room - m.size) messages).filterMap (·.entry.flow e) := by
        cases hflow : m.entry.flow e <;> simp [hflow]
      have hrest := @ih (room - m.size) (pre ++ m.envelope.bytes e seq)
        { part with flows := part.flows ++ (m.entry.flow e).toList }
        (Nat.dvd_sub hroom m.dvd_size) (by omega)
        (fun m hm => hanswers m (List.mem_cons_of_mem _ hm)) hdone herrno
      rw [if_pos hm, if_pos hm, hflows, List.take_of_length_le (hbytes.trans_le hm),
        walk_message _ _ _ hdone herrno, take_answers m (hanswers m List.mem_cons_self)]
      simpa only [Failing.ok_bind, List.append_assoc] using hrest
    · have hlt : room < m.size := Nat.not_le.mp hm
      have hnone : room - m.size = 0 := Nat.sub_eq_zero_of_le hlt.le
      have hcut := @walk_within e seq room pre part m.envelope hroom hlt hdone herrno
      rw [if_neg hm, if_neg hm, hnone, List.take_zero, List.append_nil, List.filterMap_nil,
        List.append_nil]
      exact hcut

end Zstats.Sockdiag
