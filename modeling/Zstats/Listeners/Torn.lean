import Zstats.Listeners.Copied
import Zstats.Listeners.Diag

namespace Zstats.Diag

open Bytes Sockdiag

/-- The kernel has marked the message: the table changed during the walk. -/
def marked (m : Envelope) : Bool := m.flags.toNat &&& nlmFDumpIntr ≠ 0

/-- A datagram of a dump that is not its last, and the interrupts before it is there. -/
structure Datagram (e : Endian) where
  interrupts : ℕ
  messages : List (Message e)
  nonempty : messages ≠ []
  answers : ∀ m ∈ messages, m.entry.Answers

/-- The last datagram of a dump. What follows the end is not looked at. -/
structure Ending (e : Endian) where
  interrupts : ℕ
  messages : List (Message e)
  closing : Closing
  after : List Envelope
  answers : ∀ m ∈ messages, m.entry.Answers

/-- What the kernel answers to one request. -/
structure Walk (e : Endian) where
  parts : List (Datagram e)
  ending : Ending e

variable {e : Endian}

/-- The bytes up to the message that ends the dump, with it. -/
def Ending.size (d : Ending e) : ℕ :=
  (d.messages.map Message.size).sum + align4 d.closing.toEnvelope.len

namespace Walk

def datagrams (w : Walk e) : ℕ := w.parts.length + 1

/-- The messages up to the end, that one not included. -/
def messages (w : Walk e) : List (Message e) :=
  w.parts.flatMap Datagram.messages ++ w.ending.messages

def flows (w : Walk e) : List TcpFlow := w.messages.filterMap (·.entry.flow e)

/-- The flows of the messages that the buffer holds. -/
def copiedFlows (w : Walk e) : List TcpFlow :=
  (w.parts.flatMap (fun d => copied recvBytes d.messages) ++ w.ending.messages).filterMap
    (·.entry.flow e)

/-- The datagrams are not too many, no copy of one ends within the body of a message, and the copy
of the last one has the end of the dump. -/
structure Readable (w : Walk e) : Prop where
  fits : w.datagrams ≤ recvCap
  legible : ∀ d ∈ w.parts, Legible recvBytes d.messages
  reaches : w.ending.size ≤ recvBytes

/-- The datagrams are not too many, and none is longer than the buffer; after the end of the dump
the last one may be. -/
structure Fits (w : Walk e) : Prop where
  few : w.datagrams ≤ recvCap
  parts : ∀ d ∈ w.parts, (d.messages.map Message.size).sum ≤ recvBytes
  ending : w.ending.size ≤ recvBytes

/-- Some message of the walk is marked. -/
def Marked (w : Walk e) : Prop :=
  (∃ m ∈ w.messages, marked m.envelope = true) ∨ marked w.ending.closing.toEnvelope = true ∨
    ∃ m ∈ w.ending.after, marked m = true

/-- The message that ends the walk is marked. -/
def EndMarked (w : Walk e) : Prop := marked w.ending.closing.toEnvelope = true

instance (w : Walk e) : Decidable w.Marked := inferInstanceAs (Decidable (_ ∨ _ ∨ _))

instance (w : Walk e) : Decidable w.EndMarked := inferInstanceAs (Decidable (_ = true))

theorem Fits.readable {w : Walk e} (h : w.Fits) : w.Readable :=
  ⟨h.few, fun d hd => (copied_all (h.parts d hd)).2, h.ending⟩

theorem Fits.copiedFlows {w : Walk e} (h : w.Fits) : w.copiedFlows = w.flows := by
  have hparts : w.parts.flatMap (fun d => copied recvBytes d.messages) =
      w.parts.flatMap Datagram.messages :=
    List.flatMap_congr fun d hd => (copied_all (h.parts d hd)).1
  rw [Walk.copiedFlows, hparts, flows, messages]

end Walk

variable (seq : UInt32)

def pauses (n : ℕ) : List (Except ℤ (List UInt8)) := List.replicate n (.error eintr)

def Datagram.received (d : Datagram e) : List (Except ℤ (List UInt8)) :=
  pauses d.interrupts ++ [.ok (dump seq d.messages)]

def Ending.bytes (d : Ending e) : List UInt8 :=
  dump seq d.messages ++
    (d.closing.toEnvelope.bytes e seq ++ d.after.flatMap fun m => m.bytes e seq)

def Ending.received (d : Ending e) : List (Except ℤ (List UInt8)) :=
  pauses d.interrupts ++ [.ok (d.bytes seq)]

def Walk.received (w : Walk e) : List (Except ℤ (List UInt8)) :=
  w.parts.flatMap (Datagram.received seq) ++ w.ending.received seq

variable {seq}

theorem Ending.bytes_ne_nil (d : Ending e) : d.bytes seq ≠ [] := by
  intro hnil
  have hrest := (List.append_eq_nil_iff.mp hnil).2
  exact d.closing.toEnvelope.bytes_ne_nil (List.append_eq_nil_iff.mp hrest).1

theorem Datagram.bytes_ne_nil (d : Datagram e) : dump seq d.messages ≠ [] := by
  have hdump := @dump_ne_nil e seq d.messages none (Or.inl d.nonempty)
  rw [closingBytes, Option.elim_none, List.append_nil] at hdump
  exact hdump

theorem recvBytes_dvd : 4 ∣ recvBytes := by decide

theorem copyOf_ne_nil {datagram : List UInt8} (h : datagram ≠ []) : copyOf datagram ≠ [] := by
  cases datagram with
  | nil => exact absurd rfl h
  | cons byte datagram => exact List.cons_ne_nil byte (datagram.take (recvBytes - 1))

section Parsing

/-- A copy of the last datagram that has the end, parsed. -/
theorem parse_ending (d : Ending e) (h : d.size ≤ recvBytes) :
    parse e seq.toNat (copyOf (d.bytes seq)) =
      .ok { flows := d.messages.filterMap (·.entry.flow e), done := true,
            interrupted := marked d.closing.toEnvelope } := by
  have hlength : (dump seq d.messages ++ d.closing.toEnvelope.bytes e seq).length = d.size := by
    rw [List.length_append, length_dump, Envelope.length_bytes, Ending.size]
  have hcopy : copyOf (d.bytes seq) = dump seq d.messages ++
      (d.closing.toEnvelope.bytes e seq ++
        (d.after.flatMap fun m => m.bytes e seq).take (recvBytes - d.size)) := by
    rw [copyOf, Ending.bytes, ← List.append_assoc, List.take_append,
      List.take_of_length_le (hlength.trans_le h), hlength, List.append_assoc]
  have hwalk := @walk_dump e seq [] (d.closing.toEnvelope.bytes e seq ++
    (d.after.flatMap fun m => m.bytes e seq).take (recvBytes - d.size)) {} d.messages d.answers
    rfl rfl
  have hend := @walk_closed e seq (dump seq d.messages)
    ((d.after.flatMap fun m => m.bytes e seq).take (recvBytes - d.size))
    { flows := d.messages.filterMap (·.entry.flow e) } d.closing rfl rfl
  rw [parse_nonempty (copyOf_ne_nil d.bytes_ne_nil), hcopy]
  exact hwalk.trans hend

/-- A copy that does not have it: refused, or not the last as far as it shows. -/
theorem parse_ending_cut (d : Ending e) (h : recvBytes < d.size) :
    (∃ error, parse e seq.toNat (copyOf (d.bytes seq)) = .error (.refused error)) ∨
      ∃ part, parse e seq.toNat (copyOf (d.bytes seq)) = .ok part ∧ part.done = false ∧
        part.errno = none := by
  rw [parse_nonempty (copyOf_ne_nil d.bytes_ne_nil), copyOf, Ending.bytes]
  by_cases hmessages : recvBytes < (d.messages.map Message.size).sum
  · have hwalk := @walk_copied e seq recvBytes d.messages [] (d.closing.toEnvelope.bytes e seq ++
      d.after.flatMap fun m => m.bytes e seq) {} recvBytes_dvd hmessages d.answers rfl rfl
    by_cases hlegible : Legible recvBytes d.messages
    · exact Or.inr ⟨_, hwalk.1 hlegible, rfl, rfl⟩
    · exact Or.inl (hwalk.2 hlegible)
  · have hdump : (dump seq d.messages).length = (d.messages.map Message.size).sum := length_dump
    have hle : (d.messages.map Message.size).sum ≤ recvBytes := Nat.not_lt.mp hmessages
    have hroom : recvBytes - (d.messages.map Message.size).sum <
        align4 d.closing.toEnvelope.len := by
      rw [Ending.size] at h
      omega
    have hdvd : 4 ∣ recvBytes - (d.messages.map Message.size).sum :=
      Nat.dvd_sub recvBytes_dvd (sizes_dvd d.messages)
    have hcopy : (dump seq d.messages ++ (d.closing.toEnvelope.bytes e seq ++
        d.after.flatMap fun m => m.bytes e seq)).take recvBytes = dump seq d.messages ++
          (d.closing.toEnvelope.bytes e seq).take
            (recvBytes - (d.messages.map Message.size).sum) := by
      rw [List.take_append, List.take_of_length_le (hdump.trans_le hle), hdump,
        List.take_append_of_le_length]
      rw [Envelope.length_bytes]
      exact hroom.le
    have hwalk := @walk_dump e seq [] ((d.closing.toEnvelope.bytes e seq).take
      (recvBytes - (d.messages.map Message.size).sum)) {} d.messages d.answers rfl rfl
    have hcut := @walk_within e seq _ (dump seq d.messages)
      { flows := d.messages.filterMap (·.entry.flow e) } d.closing.toEnvelope hdvd hroom rfl rfl
    rw [hcopy]
    by_cases hshort : recvBytes - (d.messages.map Message.size).sum < nlmsgHdrlen
    · exact Or.inr ⟨_, hwalk.trans (hcut.1 hshort), rfl, rfl⟩
    · obtain ⟨error, herror⟩ := hcut.2 hshort
      exact Or.inl ⟨error, hwalk.trans herror⟩

/-- A copy of any other datagram, parsed. -/
theorem parse_datagram (d : Datagram e) (h : Legible recvBytes d.messages) :
    ∃ interrupted, parse e seq.toNat (copyOf (dump seq d.messages)) =
      .ok { flows := (copied recvBytes d.messages).filterMap (·.entry.flow e),
            interrupted := interrupted } := by
  by_cases hroom : recvBytes < (d.messages.map Message.size).sum
  · have hwalk := @walk_copied e seq recvBytes d.messages [] [] {} recvBytes_dvd hroom d.answers
      rfl rfl
    rw [parse_nonempty (copyOf_ne_nil d.bytes_ne_nil), copyOf]
    rw [List.append_nil] at hwalk
    exact ⟨_, hwalk.1 h⟩
  · have hle : (d.messages.map Message.size).sum ≤ recvBytes := Nat.not_lt.mp hroom
    obtain ⟨interrupted, hparse⟩ := @parse_dump e seq d.messages none (Or.inl d.nonempty) d.answers
    rw [closingBytes, Option.elim_none, List.append_nil] at hparse
    rw [copyOf, List.take_of_length_le (length_dump.trans_le hle), (copied_all hle).1]
    exact ⟨interrupted, hparse⟩

theorem parse_datagram_cut (d : Datagram e) (h : ¬ Legible recvBytes d.messages) :
    ∃ error, parse e seq.toNat (copyOf (dump seq d.messages)) = .error (.refused error) := by
  have hroom : recvBytes < (d.messages.map Message.size).sum := by
    by_contra hle
    exact h (copied_all (Nat.not_lt.mp hle)).2
  have hwalk := @walk_copied e seq recvBytes d.messages [] [] {} recvBytes_dvd hroom d.answers
    rfl rfl
  rw [parse_nonempty (copyOf_ne_nil d.bytes_ne_nil), copyOf]
  rw [List.append_nil] at hwalk
  exact hwalk.2 h

end Parsing

section Receiving

variable {errnoText : ℤ → String} {ipv6 : Bool} {recvs : ℕ} {flows : List TcpFlow}
  {later : List (Except ℤ (List UInt8))}

theorem receive_capped (h : recvCap ≤ recvs) :
    receive e errnoText seq ipv6 recvs flows later = .error (diagErr "dump did not finish") := by
  cases later with
  | nil => rw [receive, if_pos h]
  | cons result later => rw [receive.eq_def]; simp [h]

theorem receive_pauses (n : ℕ) :
    receive e errnoText seq ipv6 recvs flows (pauses n ++ later) =
      receive e errnoText seq ipv6 recvs flows later := by
  by_cases h : recvCap ≤ recvs
  · rw [receive_capped h, receive_capped h]
  · induction n with
    | zero => rfl
    | succ n ih =>
      rw [← ih]
      have hpauses : pauses (n + 1) ++ later = .error eintr :: (pauses n ++ later) := rfl
      rw [hpauses, receive, if_neg h]
      rfl

theorem receive_ok {bytes : List UInt8} {part : DumpPart} (h : ¬ recvCap ≤ recvs)
    (hne : bytes ≠ []) (hparse : parse e seq.toNat (copyOf bytes) = .ok part)
    (herrno : part.errno = none) :
    receive e errnoText seq ipv6 recvs flows (.ok bytes :: later) =
      if part.done then .ok (.ready (flows ++ part.flows) part.interrupted, later)
      else receive e errnoText seq ipv6 (recvs + 1) (flows ++ part.flows) later := by
  have hempty : ¬ (copyOf bytes).isEmpty = true := by simpa using copyOf_ne_nil hne
  rw [receive, if_neg h]
  simp only [if_neg hempty, hparse, herrno]

theorem receive_refused {bytes : List UInt8} {error : ParseError}
    (h : parse e seq.toNat (copyOf bytes) = .error (.refused error)) :
    ∃ fault, receive e errnoText seq ipv6 recvs flows (.ok bytes :: later) = .error fault := by
  by_cases hcap : recvCap ≤ recvs
  · exact ⟨_, receive_capped hcap⟩
  · rw [receive, if_neg hcap]
    by_cases hempty : (copyOf bytes).isEmpty = true
    · exact ⟨_, by rw [if_pos hempty]⟩
    · rw [if_neg hempty]
      simp only [h]
      exact ⟨_, rfl⟩

/-- What a dump is read from gets shorter. -/
theorem receive_shorter {found : FamilyDump × List (Except ℤ (List UInt8))}
    (h : receive e errnoText seq ipv6 recvs flows later = .ok found) :
    found.2.length < later.length := by
  induction later generalizing recvs flows with
  | nil =>
    rw [receive] at h
    split_ifs at h
  | cons result later ih =>
    rw [List.length_cons]
    by_cases hcap : recvCap ≤ recvs
    · rw [receive_capped hcap] at h
      cases h
    · cases result with
      | error errno =>
        rw [receive, if_neg hcap] at h
        by_cases hintr : errno = eintr
        · rw [if_pos hintr] at h
          exact (ih h).trans (Nat.lt_succ_self _)
        · rw [if_neg hintr] at h
          split_ifs at h
      | ok datagram =>
        rw [receive, if_neg hcap] at h
        by_cases hempty : (copyOf datagram).isEmpty = true
        · rw [if_pos hempty] at h
          cases h
        · rw [if_neg hempty] at h
          cases hparse : parse e seq.toNat (copyOf datagram) with
          | error failure =>
            simp only [hparse] at h
            cases h
          | ok part =>
            simp only [hparse] at h
            cases herrno : part.errno with
            | some err =>
              simp only [herrno] at h
              cases hfamily : familyErrno errnoText err ipv6 with
              | error fault =>
                rw [hfamily] at h
                cases h
              | ok dump =>
                rw [hfamily] at h
                obtain rfl := Except.ok.inj h
                exact Nat.lt_succ_self _
            | none =>
              simp only [herrno] at h
              by_cases hdone : part.done = true
              · rw [if_pos hdone] at h
                obtain rfl := Except.ok.inj h
                exact Nat.lt_succ_self _
              · rw [if_neg hdone] at h
                exact (ih h).trans (Nat.lt_succ_self _)

theorem receive_datagram (d : Datagram e) (h : ¬ recvCap ≤ recvs)
    (hlegible : Legible recvBytes d.messages) :
    receive e errnoText seq ipv6 recvs flows (d.received seq ++ later) =
      receive e errnoText seq ipv6 (recvs + 1)
        (flows ++ (copied recvBytes d.messages).filterMap (·.entry.flow e)) later := by
  obtain ⟨interrupted, hparse⟩ := @parse_datagram e seq d hlegible
  rw [Datagram.received, List.append_assoc, receive_pauses, List.singleton_append,
    receive_ok h d.bytes_ne_nil hparse rfl]
  rfl

theorem receive_datagram_cut (d : Datagram e) (h : ¬ Legible recvBytes d.messages) :
    ∃ fault, receive e errnoText seq ipv6 recvs flows (d.received seq ++ later) =
      .error fault := by
  obtain ⟨error, hparse⟩ := @parse_datagram_cut e seq d h
  rw [Datagram.received, List.append_assoc, receive_pauses, List.singleton_append]
  exact receive_refused hparse

theorem receive_ending (d : Ending e) (h : ¬ recvCap ≤ recvs) (hreaches : d.size ≤ recvBytes) :
    receive e errnoText seq ipv6 recvs flows (d.received seq ++ later) =
      .ok (.ready (flows ++ d.messages.filterMap (·.entry.flow e))
        (marked d.closing.toEnvelope), later) := by
  rw [Ending.received, List.append_assoc, receive_pauses, List.singleton_append,
    receive_ok h d.bytes_ne_nil (parse_ending d hreaches) rfl]
  rfl

/-- Without the end in the copy the dump fails, or is read on into what comes after it. -/
theorem receive_ending_cut (d : Ending e) (h : recvBytes < d.size) :
    (∃ fault, receive e errnoText seq ipv6 recvs flows (d.received seq ++ later) =
      .error fault) ∨
    ∃ recvs' flows', receive e errnoText seq ipv6 recvs flows (d.received seq ++ later) =
      receive e errnoText seq ipv6 recvs' flows' later := by
  by_cases hcap : recvCap ≤ recvs
  · exact Or.inl ⟨_, receive_capped hcap⟩
  · rw [Ending.received, List.append_assoc, receive_pauses, List.singleton_append]
    rcases @parse_ending_cut e seq d h with ⟨error, hparse⟩ | ⟨part, hparse, hdone, herrno⟩
    · exact Or.inl (receive_refused hparse)
    · have hnot : ¬ part.done = true := by
        rw [hdone]
        exact Bool.false_ne_true
      rw [receive_ok hcap d.bytes_ne_nil hparse herrno, if_neg hnot]
      exact Or.inr ⟨_, _, rfl⟩

/-- The datagrams before the last add their flows. -/
theorem receive_parts (parts : List (Datagram e)) (h : recvs + parts.length ≤ recvCap)
    (hlegible : ∀ d ∈ parts, Legible recvBytes d.messages) :
    receive e errnoText seq ipv6 recvs flows (parts.flatMap (Datagram.received seq) ++ later) =
      receive e errnoText seq ipv6 (recvs + parts.length)
        (flows ++ (parts.flatMap fun d => copied recvBytes d.messages).filterMap
          (·.entry.flow e)) later := by
  induction parts generalizing recvs flows with
  | nil => simp
  | cons d parts ih =>
    rw [List.length_cons] at h
    have hrest := @ih (recvs + 1)
      (flows ++ (copied recvBytes d.messages).filterMap (·.entry.flow e)) (by omega)
      (fun d hd => hlegible d (List.mem_cons_of_mem _ hd))
    rw [List.flatMap_cons, List.append_assoc,
      receive_datagram d (by omega) (hlegible d List.mem_cons_self), hrest, List.flatMap_cons,
      List.filterMap_append, List.append_assoc, List.length_cons, Nat.add_assoc, Nat.add_comm 1]

/-- With too many of them, or one that cannot be read, the dump fails. -/
theorem receive_parts_stuck (parts : List (Datagram e))
    (h : recvCap ≤ recvs + parts.length ∨ ∃ d ∈ parts, ¬ Legible recvBytes d.messages) :
    ∃ fault, receive e errnoText seq ipv6 recvs flows
      (parts.flatMap (Datagram.received seq) ++ later) = .error fault := by
  by_cases hcap : recvCap ≤ recvs
  · exact ⟨_, receive_capped hcap⟩
  · induction parts generalizing recvs flows with
    | nil =>
      rcases h with h | ⟨d, hd, -⟩
      · exact absurd h hcap
      · cases hd
    | cons d parts ih =>
      rw [List.flatMap_cons, List.append_assoc]
      by_cases hlegible : Legible recvBytes d.messages
      · rw [receive_datagram d hcap hlegible]
        by_cases hnext : recvCap ≤ recvs + 1
        · exact ⟨_, receive_capped hnext⟩
        · refine ih ?_ hnext
          rcases h with h | ⟨d', hd', hcut⟩
          · rw [List.length_cons] at h
            exact Or.inl (by omega)
          · obtain rfl | hd' := List.mem_cons.mp hd'
            · exact absurd hlegible hcut
            · exact Or.inr ⟨d', hd', hcut⟩
      · exact receive_datagram_cut d hlegible

/-- A walk that can be read is, and as torn as its last message says. -/
theorem receive_readable {w : Walk e} (h : w.Readable) :
    receive e errnoText seq ipv6 0 [] (w.received seq ++ later) =
      .ok (.ready w.copiedFlows (marked w.ending.closing.toEnvelope), later) := by
  have hparts : 0 + w.parts.length < recvCap := by
    have hfits := h.fits
    rw [Walk.datagrams] at hfits
    omega
  rw [Walk.received, List.append_assoc, receive_parts _ hparts.le h.legible,
    receive_ending _ (Nat.not_le.mpr hparts) h.reaches, Walk.copiedFlows, List.filterMap_append]
  rfl

/-- Any other fails, or its end is missed. -/
theorem receive_unreadable {w : Walk e} (h : ¬ w.Readable) :
    (∃ fault, receive e errnoText seq ipv6 0 [] (w.received seq ++ later) = .error fault) ∨
    ∃ recvs flows, receive e errnoText seq ipv6 0 [] (w.received seq ++ later) =
      receive e errnoText seq ipv6 recvs flows later := by
  rw [Walk.received, List.append_assoc]
  by_cases hparts : recvCap ≤ 0 + w.parts.length ∨ ∃ d ∈ w.parts, ¬ Legible recvBytes d.messages
  · exact Or.inl (receive_parts_stuck _ hparts)
  · obtain ⟨hcap, hlegible⟩ := not_or.mp hparts
    push Not at hlegible
    have hcut : recvBytes < w.ending.size := by
      by_contra hreaches
      refine h ⟨?_, hlegible, Nat.not_lt.mp hreaches⟩
      rw [Walk.datagrams]
      omega
    rw [receive_parts _ (Nat.not_le.mp hcap).le hlegible]
    exact receive_ending_cut _ hcut

/-- Whatever walk comes next, a dump that does not fail ends with it or later. -/
theorem receive_walk (w : Walk e) {found : FamilyDump × List (Except ℤ (List UInt8))}
    (h : receive e errnoText seq ipv6 recvs flows (w.received seq ++ later) = .ok found) :
    found.2 = later ∨
      ∃ recvs' flows', receive e errnoText seq ipv6 recvs' flows' later = .ok found := by
  rw [Walk.received, List.append_assoc] at h
  by_cases hparts : recvCap ≤ recvs + w.parts.length ∨
      ∃ d ∈ w.parts, ¬ Legible recvBytes d.messages
  · obtain ⟨fault, hfault⟩ := @receive_parts_stuck e seq errnoText ipv6 recvs flows
      (w.ending.received seq ++ later) w.parts hparts
    rw [hfault] at h
    cases h
  · obtain ⟨hcap, hlegible⟩ := not_or.mp hparts
    push Not at hlegible
    rw [receive_parts _ (Nat.not_le.mp hcap).le hlegible] at h
    by_cases hreaches : w.ending.size ≤ recvBytes
    · rw [receive_ending _ hcap hreaches] at h
      obtain rfl := Except.ok.inj h
      exact Or.inl rfl
    · rcases @receive_ending_cut e seq errnoText ipv6 _ _ later w.ending
        (Nat.not_le.mp hreaches) with ⟨fault, hfault⟩ | ⟨recvs', flows', hon⟩
      · rw [hfault] at h
        cases h
      · exact Or.inr ⟨recvs', flows', hon.symm.trans h⟩

end Receiving

/-- A request that goes out, in however many pieces, and the walk that answers it. -/
structure Exchange (e : Endian) (family : UInt8) (seq : UInt32) where
  sends : List (Except ℤ ℕ)
  sent : ∀ errnoText later,
    sendAll errnoText (request e family seq) (sends ++ later) = .ok later
  walk : Walk e

variable {family : UInt8}

/-- A socket on which the exchange comes next. -/
def Exchange.before (x : Exchange e family seq) (fd : Socket) : Socket :=
  ⟨x.sends ++ fd.sends, x.walk.received seq ++ fd.recvs⟩

/-- A socket on which the exchanges come next, in order. -/
def before (xs : List (Exchange e family seq)) (fd : Socket) : Socket :=
  xs.foldr (fun x fd => x.before fd) fd

theorem request_ne_nil : request e family seq ≠ [] := by
  intro h
  have hlength := congrArg List.length h
  rw [request, List.length_append, length_encode, List.length_nil] at hlength
  omega

theorem Exchange.sends_ne_nil (x : Exchange e family seq) : x.sends ≠ [] := by
  intro hnil
  have hsent := x.sent (fun _ => "") [.ok 0]
  have hempty : ¬ (request e family seq).isEmpty = true := by
    simpa using (request_ne_nil : request e family seq ≠ [])
  rw [hnil, List.nil_append, sendAll, if_neg hempty] at hsent
  cases hsent

theorem Walk.received_ne_nil (w : Walk e) : w.received seq ≠ [] := by
  intro h
  rw [Walk.received, Ending.received] at h
  simp at h

section

variable {errnoText : ℤ → String} {ipv6 : Bool} (x : Exchange e family seq) (fd : Socket)

/-- The request goes out, and the answers are read. -/
theorem readDump_sent (recvs : List (Except ℤ (List UInt8))) :
    readDump e errnoText family seq ipv6 ⟨x.sends ++ fd.sends, recvs⟩ =
      (receive e errnoText seq ipv6 0 [] recvs).map fun found => (found.1, ⟨fd.sends, found.2⟩) := by
  have hsent := x.sent errnoText fd.sends
  rw [readDump]
  simp only [hsent]
  cases receive e errnoText seq ipv6 0 [] recvs <;> rfl

/-- A walk that can be read is, and as torn as its last message says. -/
theorem readDump_readable (h : x.walk.Readable) :
    readDump e errnoText family seq ipv6 (x.before fd) =
      .ok (.ready x.walk.copiedFlows (marked x.walk.ending.closing.toEnvelope), fd) := by
  rw [Exchange.before, readDump_sent, receive_readable h]
  rfl

/-- Of any other, what comes after it is not left as it was. -/
theorem readDump_unreadable (h : ¬ x.walk.Readable) (dump : FamilyDump) :
    readDump e errnoText family seq ipv6 (x.before fd) ≠ .ok (dump, fd) := by
  rw [Exchange.before, readDump_sent]
  intro hread
  rcases @receive_unreadable e seq errnoText ipv6 fd.recvs x.walk h with
    ⟨fault, hfault⟩ | ⟨recvs, flows, hon⟩
  · rw [hfault] at hread
    cases hread
  · rw [hon] at hread
    cases hfound : receive e errnoText seq ipv6 recvs flows fd.recvs with
    | error fault =>
      rw [hfound] at hread
      cases hread
    | ok found =>
      rw [hfound] at hread
      have hrecvs := congrArg Socket.recvs (Prod.mk.inj (Except.ok.inj hread)).2
      have hshorter := receive_shorter hfound
      rw [← hrecvs] at hshorter
      exact lt_irrefl _ hshorter

end

section

variable (errnoText : ℤ → String) (ipv6 : Bool) (into : ℕ → Option TcpFlow)

/-- The walk is read, and reported as torn just if some message of it is marked. -/
def Recognised (x : Exchange e family seq) (fd : Socket) : Prop :=
  readDump e errnoText family seq ipv6 (x.before fd) =
    .ok (.ready x.walk.flows (decide x.walk.Marked), fd)

/-- One of the walks is accepted, the last or an unmarked one: its flows are added, of two with one
inode the later, and what comes after that walk is left on the socket. -/
def Accepted (found : Except Fault ((ℕ → Option TcpFlow) × Socket)) :
    List (Exchange e family seq) → Socket → Prop
  | [], _ => False
  | [x], fd => found = .ok (extend into (byInode x.walk.flows), fd)
  | x :: y :: xs, fd =>
    ¬ x.walk.Marked ∧ found = .ok (extend into (byInode x.walk.flows), before (y :: xs) fd) ∨
      Accepted found (y :: xs) fd

/-- The walk can be read, no flow of it is cut off, and its end is marked if anything is. -/
structure Walk.EndTells (w : Walk e) : Prop where
  readable : w.Readable
  kept : w.copiedFlows = w.flows
  tells : w.Marked → w.EndMarked

/-- No flow is cut off for which another one of that inode does not stand. -/
def Walk.Adds (w : Walk e) : Prop :=
  extend into (byInode w.copiedFlows) = extend into (byInode w.flows)

/-- Each walk that is looked at can be read and tells by its end whether it was torn; the last one
need not tell. -/
def EachTells : List (Exchange e family seq) → Prop
  | [] => False
  | [x] => x.walk.Readable ∧ x.walk.Adds into
  | x :: y :: xs => x.walk.Readable ∧ (x.walk.EndMarked → EachTells (y :: xs)) ∧
      (¬ x.walk.EndMarked → ¬ x.walk.Marked ∧ x.walk.Adds into)

variable {errnoText ipv6 into}

theorem Walk.EndMarked.marked {w : Walk e} (h : w.EndMarked) : w.Marked := Or.inr (Or.inl h)

theorem recognised_iff (x : Exchange e family seq) (fd : Socket) :
    Recognised errnoText ipv6 x fd ↔ x.walk.EndTells := by
  rw [Recognised]
  constructor
  · intro h
    by_cases hreadable : x.walk.Readable
    · rw [readDump_readable x fd hreadable] at h
      have hdump := FamilyDump.ready.inj (Prod.mk.inj (Except.ok.inj h)).1
      refine ⟨hreadable, hdump.1, ?_⟩
      intro hmarked
      have hbool := hdump.2
      rw [decide_eq_true hmarked] at hbool
      exact hbool
    · exact absurd h (readDump_unreadable x fd hreadable _)
  · intro h
    have hbool : marked x.walk.ending.closing.toEnvelope = decide x.walk.Marked := by
      by_cases hend : x.walk.EndMarked
      · have hmark : marked x.walk.ending.closing.toEnvelope = true := hend
        rw [hmark, decide_eq_true hend.marked]
      · have hmark : marked x.walk.ending.closing.toEnvelope = false :=
          Bool.eq_false_iff.mpr hend
        rw [hmark, decide_eq_false fun hmarked => hend (h.tells hmarked)]
    rw [readDump_readable x fd h.readable, h.kept, hbool]

end

section Lagging

variable {errnoText : ℤ → String} {ipv6 : Bool} {into : ℕ → Option TcpFlow}

theorem before_sends (xs : List (Exchange e family seq)) (fd : Socket) :
    (before xs fd).sends = xs.flatMap Exchange.sends ++ fd.sends := by
  induction xs with
  | nil => rfl
  | cons x xs ih =>
    rw [List.flatMap_cons, List.append_assoc, ← ih]
    rfl

theorem before_recvs_lt (x : Exchange e family seq) (xs : List (Exchange e family seq))
    (fd : Socket) : (before xs fd).recvs.length < (before (x :: xs) fd).recvs.length := by
  have hne : x.walk.received seq ≠ [] := x.walk.received_ne_nil
  have hpos := List.length_pos_iff.mpr hne
  have hrecvs : (before (x :: xs) fd).recvs =
      x.walk.received seq ++ (before xs fd).recvs := rfl
  rw [hrecvs, List.length_append]
  omega

theorem before_recvs_le {xs zs : List (Exchange e family seq)} (h : zs <:+ xs) (fd : Socket) :
    (before zs fd).recvs.length ≤ (before xs fd).recvs.length := by
  induction xs with
  | nil =>
    rw [List.suffix_nil.mp h]
  | cons x xs ih =>
    obtain rfl | h := List.suffix_cons_iff.mp h
    · exact le_rfl
    · exact (ih h).trans (before_recvs_lt x xs fd).le

theorem sends_inj {xs zs : List (Exchange e family seq)} (h : zs <:+ xs)
    (hsends : xs.flatMap Exchange.sends = zs.flatMap Exchange.sends) : xs = zs := by
  obtain ⟨ws, rfl⟩ := h
  rw [List.flatMap_append, List.append_left_eq_self] at hsends
  cases ws with
  | nil => rfl
  | cons w ws => exact absurd (List.append_eq_nil_iff.mp hsends).1 w.sends_ne_nil

/-- The reads are ahead of the requests: some of the answers to `xs` have been read already. -/
def Ahead (s : Socket) (xs : List (Exchange e family seq)) (fd : Socket) : Prop :=
  s.sends = (before xs fd).sends ∧
    ((∃ x ys, (x :: ys) <:+ xs ∧ s.recvs = (before ys fd).recvs) ∨
      s.recvs.length < fd.recvs.length)

/-- Such a socket is not one on which some of the exchanges come next. -/
theorem Ahead.ne_before {s fd : Socket} {xs ws zs : List (Exchange e family seq)}
    (h : Ahead s ws fd) (hws : ws <:+ xs) (hzs : zs <:+ xs) : s ≠ before zs fd := by
  rintro rfl
  obtain ⟨hsends, hrecvs⟩ := h
  rw [before_sends, before_sends, List.append_cancel_right_eq] at hsends
  have heq : ws = zs := by
    rcases List.suffix_or_suffix_of_suffix hws hzs with hle | hle
    · exact (sends_inj hle hsends).symm
    · exact sends_inj hle hsends.symm
  subst heq
  rcases hrecvs with ⟨x, ys, hys, hrecvs⟩ | hless
  · have hlt := (before_recvs_lt x ys fd).trans_le (before_recvs_le hys fd)
    rw [hrecvs] at hlt
    exact lt_irrefl _ hlt
  · have hle := @before_recvs_le e seq family ws [] (List.nil_suffix) fd
    exact absurd hless (Nat.not_lt.mpr hle)

/-- A dump that does not fail has read at least the answers to one exchange. -/
theorem receive_before {recvs : ℕ} {flows : List TcpFlow}
    {found : FamilyDump × List (Except ℤ (List UInt8))} {xs : List (Exchange e family seq)}
    {fd : Socket}
    (h : receive e errnoText seq ipv6 recvs flows (before xs fd).recvs = .ok found) :
    (∃ x ys, (x :: ys) <:+ xs ∧ found.2 = (before ys fd).recvs) ∨
      found.2.length < fd.recvs.length := by
  induction xs generalizing recvs flows with
  | nil => exact Or.inr (receive_shorter h)
  | cons x xs ih =>
    rcases receive_walk x.walk h with hrest | ⟨recvs', flows', hon⟩
    · exact Or.inl ⟨x, xs, List.suffix_rfl, hrest⟩
    · rcases ih hon with ⟨y, ys, hys, hfound⟩ | hless
      · exact Or.inl ⟨y, ys, hys.trans (List.suffix_cons x xs), hfound⟩
      · exact Or.inr hless

/-- Once ahead, the reads stay ahead. -/
theorem Ahead.read {s s' fd : Socket} {dump : FamilyDump} {x : Exchange e family seq}
    {xs : List (Exchange e family seq)} (h : Ahead s (x :: xs) fd)
    (hread : readDump e errnoText family seq ipv6 s = .ok (dump, s')) : Ahead s' xs fd := by
  obtain ⟨hsends, hrecvs⟩ := h
  have hs : s = ⟨x.sends ++ (before xs fd).sends, s.recvs⟩ := by
    rw [Socket.mk.injEq]
    exact ⟨hsends, rfl⟩
  rw [hs, readDump_sent] at hread
  cases hfound : receive e errnoText seq ipv6 0 [] s.recvs with
  | error fault =>
    rw [hfound] at hread
    cases hread
  | ok found =>
    rw [hfound] at hread
    have hs' := (Prod.mk.inj (Except.ok.inj hread)).2
    rw [← hs']
    refine ⟨rfl, ?_⟩
    rcases hrecvs with ⟨y, ys, hys, hrecvs⟩ | hless
    · have hsuffix : ys <:+ xs := by
        obtain heq | hys := List.suffix_cons_iff.mp hys
        · obtain ⟨-, rfl⟩ := List.cons.inj heq
          exact List.suffix_rfl
        · exact (List.suffix_cons y ys).trans hys
      rw [hrecvs] at hfound
      rcases receive_before hfound with ⟨z, zs, hzs, hrest⟩ | hless
      · exact Or.inl ⟨z, zs, hzs.trans hsuffix, hrest⟩
      · exact Or.inr hless
    · exact Or.inr ((receive_shorter hfound).trans hless)

/-- What a walk that is tried does. -/
theorem dumpWalks_step {kept adds : ℕ → Option TcpFlow} {attempts : ℕ} {s fd' : Socket}
    (h : dumpWalks e errnoText family seq ipv6 into (attempts + 1) kept s = .ok (adds, fd')) :
    ∃ dump s', readDump e errnoText family seq ipv6 s = .ok (dump, s') ∧
      (fd' = s' ∨ ∃ flows,
        dumpWalks e errnoText family seq ipv6 into attempts (byInode flows) s' =
          .ok (adds, fd')) := by
  rw [dumpWalks] at h
  obtain ⟨⟨dump, s'⟩, hread, hon⟩ := Failing.bind_eq_ok.mp h
  refine ⟨dump, s', hread, ?_⟩
  cases dump with
  | absent =>
    obtain ⟨-, rfl⟩ := Prod.mk.inj (Except.ok.inj hon)
    exact Or.inl rfl
  | ready flows interrupted =>
    cases interrupted with
    | false =>
      obtain ⟨-, rfl⟩ := Prod.mk.inj (Except.ok.inj hon)
      exact Or.inl rfl
    | true => exact Or.inr ⟨flows, hon⟩

/-- Where a walk leaves the reads ahead, the walks after it end with them ahead. -/
theorem dumpWalks_ahead {kept adds : ℕ → Option TcpFlow} {s fd fd' : Socket}
    {xs : List (Exchange e family seq)}
    (h : ∀ dump s', readDump e errnoText family seq ipv6 s = .ok (dump, s') → Ahead s' xs fd)
    (hwalks : dumpWalks e errnoText family seq ipv6 into (xs.length + 1) kept s =
      .ok (adds, fd')) : ∃ ws, ws <:+ xs ∧ Ahead fd' ws fd := by
  induction xs generalizing s kept with
  | nil =>
    obtain ⟨dump, s', hread, rfl | ⟨flows, hon⟩⟩ := dumpWalks_step hwalks
    · exact ⟨[], List.suffix_rfl, h dump _ hread⟩
    · obtain ⟨-, rfl⟩ := Prod.mk.inj (Except.ok.inj hon)
      exact ⟨[], List.suffix_rfl, h dump _ hread⟩
  | cons x xs ih =>
    obtain ⟨dump, s', hread, rfl | ⟨flows, hon⟩⟩ := dumpWalks_step hwalks
    · exact ⟨x :: xs, List.suffix_rfl, h dump _ hread⟩
    · obtain ⟨ws, hws, hahead⟩ := ih (fun _ _ hnext => (h dump s' hread).read hnext) hon
      exact ⟨ws, hws.trans (List.suffix_cons x xs), hahead⟩

/-- A walk that cannot be read leaves the reads ahead, if it does not fail. -/
theorem unreadable_ahead {x : Exchange e family seq} {xs : List (Exchange e family seq)}
    {s' fd : Socket} {dump : FamilyDump} (h : ¬ x.walk.Readable)
    (hread : readDump e errnoText family seq ipv6 (before (x :: xs) fd) = .ok (dump, s')) :
    Ahead s' xs fd := by
  have hbefore : before (x :: xs) fd =
      ⟨x.sends ++ (before xs fd).sends, x.walk.received seq ++ (before xs fd).recvs⟩ := rfl
  rw [hbefore, readDump_sent] at hread
  rcases @receive_unreadable e seq errnoText ipv6 (before xs fd).recvs x.walk h with
    ⟨fault, hfault⟩ | ⟨recvs, flows, hon⟩
  · rw [hfault] at hread
    cases hread
  · rw [hon] at hread
    cases hfound : receive e errnoText seq ipv6 recvs flows (before xs fd).recvs with
    | error fault =>
      rw [hfound] at hread
      cases hread
    | ok found =>
      rw [hfound] at hread
      have hs' := (Prod.mk.inj (Except.ok.inj hread)).2
      rw [← hs']
      exact ⟨rfl, receive_before hfound⟩

end Lagging

section Accepting

variable {errnoText : ℤ → String} {ipv6 : Bool} {into : ℕ → Option TcpFlow}

theorem dumpWalks_readable (x : Exchange e family seq) (fd : Socket)
    (into kept : ℕ → Option TcpFlow) (attempts : ℕ) (h : x.walk.Readable) :
    dumpWalks e errnoText family seq ipv6 into (attempts + 1) kept (x.before fd) =
      if x.walk.EndMarked then
        dumpWalks e errnoText family seq ipv6 into attempts (byInode x.walk.copiedFlows) fd
      else .ok (extend into (byInode x.walk.copiedFlows), fd) := by
  rw [dumpWalks, readDump_readable x fd h]
  rfl

/-- Where a walk was accepted, the exchanges after it come next on the socket. -/
theorem Accepted.before {found : Except Fault ((ℕ → Option TcpFlow) × Socket)} {fd : Socket}
    {x : Exchange e family seq} {xs : List (Exchange e family seq)}
    (h : Accepted into found (x :: xs) fd) :
    ∃ adds zs, zs <:+ xs ∧ found = .ok (adds, Diag.before zs fd) := by
  induction xs generalizing x with
  | nil => exact ⟨_, [], List.suffix_rfl, h⟩
  | cons y xs ih =>
    rcases h with h | h
    · exact ⟨_, y :: xs, List.suffix_rfl, h.2⟩
    · obtain ⟨adds, zs, hzs, hfound⟩ := ih h
      exact ⟨adds, zs, hzs.trans (List.suffix_cons y xs), hfound⟩

theorem not_accepted_unreadable {x : Exchange e family seq} {xs : List (Exchange e family seq)}
    (h : ¬ x.walk.Readable) (kept : ℕ → Option TcpFlow) (fd : Socket) :
    ¬ Accepted into (dumpWalks e errnoText family seq ipv6 into (xs.length + 1) kept
      (Diag.before (x :: xs) fd)) (x :: xs) fd := by
  intro haccepted
  obtain ⟨adds, zs, hzs, hfound⟩ := haccepted.before
  obtain ⟨ws, hws, hahead⟩ := dumpWalks_ahead (fun _ _ hread => unreadable_ahead h hread) hfound
  exact hahead.ne_before hws hzs rfl

/-- As many walks as there are attempts. -/
theorem accepted_iff (xs : List (Exchange e family seq)) (kept : ℕ → Option TcpFlow) (fd : Socket) :
    Accepted into (dumpWalks e errnoText family seq ipv6 into xs.length kept (before xs fd)) xs fd ↔
      EachTells into xs := by
  induction xs generalizing kept with
  | nil => exact Iff.rfl
  | cons x xs ih =>
    by_cases hreadable : x.walk.Readable
    · have hbefore : before (x :: xs) fd = x.before (before xs fd) := rfl
      rw [hbefore, List.length_cons, dumpWalks_readable x _ _ _ _ hreadable]
      cases xs with
      | nil =>
        have hlast : (if x.walk.EndMarked then
            dumpWalks e errnoText family seq ipv6 into 0 (byInode x.walk.copiedFlows) fd
          else .ok (extend into (byInode x.walk.copiedFlows), fd)) =
            .ok (extend into (byInode x.walk.copiedFlows), fd) := ite_self _
        constructor
        · intro h
          exact ⟨hreadable, (Prod.mk.inj (Except.ok.inj (hlast.symm.trans h))).1⟩
        · intro h
          exact hlast.trans (congrArg (fun adds => Except.ok (adds, fd)) h.2)
      | cons y xs =>
        by_cases hend : x.walk.EndMarked
        · rw [if_pos hend]
          have hrest := ih (byInode x.walk.copiedFlows)
          constructor
          · intro h
            rcases h with h | h
            · exact absurd hend.marked h.1
            · exact ⟨hreadable, fun _ => hrest.mp h, fun hnot => absurd hend hnot⟩
          · intro h
            exact Or.inr (hrest.mpr (h.2.1 hend))
        · rw [if_neg hend]
          constructor
          · intro h
            refine ⟨hreadable, fun hmarked => absurd hmarked hend, fun _ => ?_⟩
            rcases h with h | h
            · exact ⟨h.1, (Prod.mk.inj (Except.ok.inj h.2)).1⟩
            · obtain ⟨adds, zs, hzs, hfound⟩ := h.before
              have hfd := (Prod.mk.inj (Except.ok.inj hfound)).2
              have hlt := (before_recvs_le hzs fd).trans_lt (before_recvs_lt y xs fd)
              rw [hfd] at hlt
              exact absurd hlt (lt_irrefl _)
          · intro h
            obtain ⟨hunmarked, hadds⟩ := h.2.2 hend
            rw [Walk.Adds] at hadds
            rw [hadds]
            exact Or.inl ⟨hunmarked, rfl⟩
    · constructor
      · intro h
        exact absurd h (not_accepted_unreadable hreadable kept fd)
      · intro h
        cases xs with
        | nil => exact absurd h.1 hreadable
        | cons y xs => exact absurd h.1 hreadable

end Accepting

/-- A dump is reported as torn just if a message of it is marked, and a marked one is accepted on
the last attempt only: if and only if every dump looked at can be read with all its flows and is
marked at its end if it is marked anywhere. -/
theorem torn_recognised_iff (errnoText : ℤ → String) (ipv6 : Bool) (into : ℕ → Option TcpFlow) :
    (∀ (x : Exchange e family seq) (fd : Socket),
      Recognised errnoText ipv6 x fd ↔ x.walk.EndTells) ∧
    ∀ (x₁ x₂ x₃ : Exchange e family seq) (fd : Socket),
      Accepted into (dumpFamily e errnoText family seq ipv6 (before [x₁, x₂, x₃] fd) into)
          [x₁, x₂, x₃] fd ↔ EachTells into [x₁, x₂, x₃] :=
  ⟨recognised_iff, fun x₁ x₂ x₃ fd => accepted_iff [x₁, x₂, x₃] (fun _ => none) fd⟩

/-- A socket's message that the kernel marked, alone in its dump but for an end that is not. -/
def tornWalk : Walk .little where
  parts := []
  ending :=
    { interrupts := 0
      messages := [{ blankSocket 9 with flags := 0x10 }]
      closing := blankEnd
      after := []
      answers := by
        intro m hm
        obtain rfl := List.mem_singleton.mp hm
        exact blankSocket_answers 9 }

/-- IPv4's request, sent in one piece. -/
def tornExchange : Exchange .little 2 1 where
  sends := [.ok 72]
  sent := fun errnoText later => by cases later <;> rfl
  walk := tornWalk

theorem tornWalk_marked : tornWalk.Marked ∧ ¬ tornWalk.EndMarked := by
  refine ⟨Or.inl ⟨_, List.mem_singleton_self _, ?_⟩, ?_⟩
  · decide
  · decide

theorem tornWalk_fits : tornWalk.Fits := by
  have hsocket : Message.size { blankSocket 9 with flags := 0x10 } = align4 228 :=
    (size_flags (blankSocket 9) 0x10).trans (congrArg align4 (blankSocket_len 9))
  refine ⟨by decide, ?_, ?_⟩
  · intro d hd
    cases hd
  · rw [Ending.size, tornWalk, List.map_singleton, List.sum_singleton, hsocket]
    decide

/-- The walk is reported whole, and accepted at once. -/
theorem torn_recognised_fails :
    tornWalk.Marked ∧
    readDump .little (fun _ => "") 2 1 false (tornExchange.before ⟨[], []⟩) =
      .ok (.ready tornWalk.flows false, ⟨[], []⟩) ∧
    ¬ Recognised (fun _ => "") false tornExchange ⟨[], []⟩ ∧
    dumpFamily .little (fun _ => "") 2 1 false
        (before [tornExchange, tornExchange, tornExchange] ⟨[], []⟩) (fun _ => none) =
      .ok (extend (fun _ => none) (byInode tornWalk.flows),
        before [tornExchange, tornExchange] ⟨[], []⟩) ∧
    ¬ Accepted (fun _ => none) (dumpFamily .little (fun _ => "") 2 1 false
        (before [tornExchange, tornExchange, tornExchange] ⟨[], []⟩) (fun _ => none))
      [tornExchange, tornExchange, tornExchange] ⟨[], []⟩ := by
  have hreadable : tornExchange.walk.Readable := tornWalk_fits.readable
  refine ⟨tornWalk_marked.1, ?_, ?_, ?_, ?_⟩
  · have hread := @readDump_readable _ _ _ (fun _ => "") false tornExchange ⟨[], []⟩ hreadable
    have hflows : tornExchange.walk.copiedFlows = tornWalk.flows := tornWalk_fits.copiedFlows
    rw [hflows] at hread
    exact hread
  · rw [recognised_iff]
    intro h
    exact tornWalk_marked.2 (h.tells tornWalk_marked.1)
  · have hwalk := @dumpWalks_readable _ _ _ (fun _ => "") false tornExchange
      (before [tornExchange, tornExchange] ⟨[], []⟩) (fun _ => none) (fun _ => none) 2 hreadable
    have hend : ¬ tornExchange.walk.EndMarked := tornWalk_marked.2
    have hflows : tornExchange.walk.copiedFlows = tornWalk.flows := tornWalk_fits.copiedFlows
    rw [if_neg hend, hflows] at hwalk
    exact hwalk
  · intro h
    have hall := (accepted_iff [tornExchange, tornExchange, tornExchange] (fun _ => none)
      ⟨[], []⟩).mp h
    exact (hall.2.2 tornWalk_marked.2).1 tornWalk_marked.1

end Zstats.Diag
