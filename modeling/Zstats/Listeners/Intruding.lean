import Zstats.Listeners.RoundTrip

namespace Zstats.Pcblist

open Bytes Failing

section

variable (e : Endian) (protocol : Protocol)

/-- The table of sockets, one of them with other records than its own. -/
def tableAround (opening closing : Header) (before : List Sock) (frames : List Frame)
    (after : List Sock) : List UInt8 :=
  table e opening (socksFrames e protocol before ++ (frames ++ socksFrames e protocol after)) closing

/-- A record put behind the first `i` of a socket. -/
def Sock.inserted (s : Sock) (i : ℕ) (f : Frame) : List Frame :=
  (s.frames e protocol).take i ++ f :: (s.frames e protocol).drop i

/-- A record put in place of the `i`-th of a socket. -/
def Sock.replaced (s : Sock) (i : ℕ) (f : Frame) : List Frame :=
  (s.frames e protocol).take i ++ f :: (s.frames e protocol).drop (i + 1)

end

/-- The first `i` records of the socket already tell all that the parser needs of it. -/
def Sock.Settled (s : Sock) (i : ℕ) : Prop :=
  match s.contents with
  | .detached .. => 2 ≤ i
  | .attached a => i = 5 ∧ a.lport = 0

/-- Accepted with sockets missing. -/
def Understated (result : Except String Parsed) (socks : List Sock) : Prop :=
  ∃ parsed, result = .ok parsed ∧ parsed.sockets < socks.length

variable {e : Endian} {protocol : Protocol} {opening closing : Header} {before after : List Sock}
  {s : Sock} {i : ℕ} {f : Frame}

section Partial

variable (parsed : Parsed)

theorem runAt_eq (h : 2 ≤ i) :
    s.runAt e protocol i = s.partRun e protocol
      (if 5 ≤ i then some ((s.statsFrame e).record e) else none)
      (if 6 ≤ i ∧ protocol = .tcp then some ((s.tcpcbFrame e).record e) else none) := by
  rw [Sock.runAt, if_pos h]
  rfl

theorem take_settled (h : s.Settled i) (hi : i < (s.frames e protocol).length) :
    parsed.take e (s.runAt e protocol i) protocol = .ok (parsed.adding protocol [s]) := by
  cases hcontents : s.contents with
  | detached inpcb stats tcpcb =>
    simp only [Sock.Settled, hcontents] at h
    rw [runAt_eq h, take_detached e protocol _ _ _ hcontents]
    simp [Parsed.adding, Sock.attached?, hcontents]
  | attached a =>
    simp only [Sock.Settled, hcontents] at h
    obtain ⟨rfl, hport⟩ := h
    have hnot : ¬a.Listening protocol := fun hl => hl.1 hport
    rw [runAt_eq (by omega), if_pos (le_refl _), take_attached e protocol _ _ hcontents
      (classify_unbound e protocol _ _ hcontents hport)]
    cases howner : a.owner <;>
      simp [Parsed.adding, Sock.attached?, hcontents, howner, Attached.flow, Attached.listener, hnot]

theorem classify_some {a : Attached} {stats tcpcb : Option (List UInt8)}
    (h : s.contents = .attached a) :
    classify e (s.partRun e protocol stats tcpcb) protocol ≠ .ok none := by
  rw [classify_attached e protocol stats tcpcb h]
  intro hnone
  split at hnone
  · cases hnone
  · cases protocol with
    | tcp =>
      obtain ⟨record, -, hnone⟩ := bind_eq_ok.mp hnone
      obtain ⟨state, -, hnone⟩ := bind_eq_ok.mp hnone
      split at hnone <;> cases hnone
    | udp =>
      dsimp only at hnone
      split_ifs at hnone <;> cases hnone

/-- An attached socket without its `xsockstat_n` is refused. -/
theorem take_statless {a : Attached} {tcpcb : Option (List UInt8)} (h : s.contents = .attached a) :
    ∃ message, parsed.take e (s.partRun e protocol none tcpcb) protocol = .error message := by
  rw [Parsed.take]
  cases hclass : classify e (s.partRun e protocol none tcpcb) protocol with
  | error message => exact ⟨message, rfl⟩
  | ok found =>
    cases found with
    | none => exact absurd hclass (classify_some h)
    | some found => exact ⟨_, rfl⟩

theorem take_unsettled (h : ¬s.Settled i) (hi : i < (s.frames e protocol).length) (hpos : 1 ≤ i) :
    ∃ message, parsed.take e (s.runAt e protocol i) protocol = .error message := by
  obtain rfl | hle := Nat.eq_or_lt_of_le hpos
  · exact ⟨_, rfl⟩
  · cases hcontents : s.contents with
    | detached inpcb stats tcpcb =>
      simp only [Sock.Settled, hcontents] at h
      exact absurd hle h
    | attached a =>
      simp only [Sock.Settled, hcontents] at h
      rw [runAt_eq hle]
      by_cases hfive : i = 5
      · have htcp : protocol = .tcp := by
          cases protocol with
          | tcp => rfl
          | udp =>
            rw [hfive] at hi
            exact absurd hi (by simp [Sock.frames])
        subst htcp
        have hport : a.lport ≠ 0 := fun hport => h ⟨hfive, hport⟩
        obtain ⟨message, herror⟩ := classify_missing e (some ((s.statsFrame e).record e))
          hcontents hport
        refine ⟨message, ?_⟩
        rw [hfive, if_pos (le_refl _), if_neg (by omega), Parsed.take, herror, error_bind]
      · have hlen : (s.frames e protocol).length ≤ 6 := by cases protocol <;> simp [Sock.frames]
        have hlt : ¬5 ≤ i := by omega
        rw [if_neg hlt]
        exact take_statless parsed hcontents

end Partial

theorem partial_walked (before : List Sock) (s : Sock) (i : ℕ) :
    ∀ f ∈ socksFrames e protocol before ++ (s.frames e protocol).take i, f.Walked := by
  intro f hf
  obtain hf | hf := List.mem_append.mp hf
  · exact socksFrames_walked e protocol before f hf
  · exact (s.known f (List.mem_of_mem_take hf)).walked

/-- A table that ends within a socket's run. -/
theorem parse_partial (hpos : 1 ≤ i) (hi : i ≤ (s.frames e protocol).length) :
    parse e (table e opening (socksFrames e protocol before ++ (s.frames e protocol).take i) closing)
        protocol =
      (Parsed.adding protocol { headerCount := opening.count.toNat } before).take e
        (s.runAt e protocol i) protocol := by
  have hbefore := @absorb_socks e protocol none { headerCount := opening.count.toNat } before
  rw [finish, ok_bind, takeAll_eq] at hbefore
  obtain ⟨⟨run, parsed⟩, habsorbed, hdone⟩ := bind_eq_ok.mp hbefore
  have hrun := s.absorb_run run parsed hpos hi
  rw [show finish e protocol run parsed = _ from hdone, ok_bind] at hrun
  rw [parse_table (partial_walked before s i), absorbAll_append, habsorbed, ok_bind]
  dsimp only
  rw [hrun, ok_bind]
  rfl

/-- Whatever follows a record of the closing header's length is not read. -/
theorem parse_hidden (hf : f.len = xinpgenLen) (rest : List Frame) :
    parse e (tableAround e protocol opening closing before
        ((s.frames e protocol).take i ++ f :: rest) after) protocol =
      parse e (table e opening (socksFrames e protocol before ++ (s.frames e protocol).take i)
        closing) protocol := by
  have hcut := @parse_cut e protocol opening closing
    (socksFrames e protocol before ++ (s.frames e protocol).take i)
    (rest ++ socksFrames e protocol after) (partial_walked before s i) f hf
  rw [← hcut, tableAround]
  simp only [List.append_assoc, List.cons_append]

theorem absorbAll_inserted (h : expectedLen f.kind = none) (front back : List Frame)
    (run : Option Run) (parsed : Parsed) :
    absorbAll e protocol (front ++ f :: back) run parsed =
      absorbAll e protocol (front ++ back) run parsed := by
  have hskip : ∀ run parsed, absorbAll e protocol (f :: back) run parsed =
      absorbAll e protocol back run parsed := by
    intro run parsed
    rw [absorbAll, absorb.eq_def, h]
    rfl
  rw [absorbAll_append, absorbAll_append]
  simp only [hskip]

theorem parse_inserted (h : expectedLen f.kind = none) (hf : f.Walked) :
    parse e (tableAround e protocol opening closing before (s.inserted e protocol i f) after)
        protocol =
      parse e (table e opening (socksFrames e protocol (before ++ s :: after)) closing) protocol := by
  have hmid : ∀ g ∈ s.inserted e protocol i f, g.Walked := by
    intro g hg
    obtain hg | hg := List.mem_append.mp hg
    · exact (s.known g (List.mem_of_mem_take hg)).walked
    · obtain rfl | hg := List.mem_cons.mp hg
      · exact hf
      · exact (s.known g (List.mem_of_mem_drop hg)).walked
  have hall : ∀ g ∈ socksFrames e protocol before ++
      (s.inserted e protocol i f ++ socksFrames e protocol after), g.Walked := by
    intro g hg
    obtain hg | hg := List.mem_append.mp hg
    · exact socksFrames_walked e protocol before g hg
    · obtain hg | hg := List.mem_append.mp hg
      · exact hmid g hg
      · exact socksFrames_walked e protocol after g hg
  have hsplit : socksFrames e protocol (before ++ s :: after) =
      (socksFrames e protocol before ++ (s.frames e protocol).take i) ++
        ((s.frames e protocol).drop i ++ socksFrames e protocol after) := by
    rw [List.append_assoc, ← List.append_assoc ((s.frames e protocol).take i),
      List.take_append_drop]
    simp [socksFrames]
  have hskip := @absorbAll_inserted e protocol f h
    (socksFrames e protocol before ++ (s.frames e protocol).take i)
    ((s.frames e protocol).drop i ++ socksFrames e protocol after)
  rw [tableAround, parse_table hall, parse_table (socksFrames_walked e protocol _), hsplit, ← hskip,
    Sock.inserted]
  simp only [List.append_assoc, List.cons_append]

/-- What a record of the closing header's length leaves of the table: what the records before it
tell. -/
theorem hidden_settled (hpos : 1 ≤ i) (hi : i < (s.frames e protocol).length)
    (hf : f.len = xinpgenLen) (hsettled : s.Settled i) (rest : List Frame) :
    parse e (tableAround e protocol opening closing before
        ((s.frames e protocol).take i ++ f :: rest) after) protocol =
      .ok (Parsed.adding protocol { headerCount := opening.count.toNat } (before ++ [s])) := by
  rw [parse_hidden hf, parse_partial hpos (Nat.le_of_lt hi), take_settled _ hsettled hi,
    adding_append]

theorem hidden_unsettled (hpos : 1 ≤ i) (hi : i < (s.frames e protocol).length)
    (hf : f.len = xinpgenLen) (hsettled : ¬s.Settled i) (rest : List Frame) :
    ∃ message, parse e (tableAround e protocol opening closing before
        ((s.frames e protocol).take i ++ f :: rest) after) protocol = .error message := by
  rw [parse_hidden hf, parse_partial hpos (Nat.le_of_lt hi)]
  exact take_unsettled _ hsettled hi hpos

theorem hidden_first (hf : f.len = xinpgenLen) (rest : List Frame) :
    parse e (tableAround e protocol opening closing before
        ((s.frames e protocol).take 0 ++ f :: rest) after) protocol =
      .ok (Parsed.adding protocol { headerCount := opening.count.toNat } before) := by
  rw [parse_hidden hf, List.take_zero, List.append_nil, parse_whole]

/-- A record of an unknown kind leaves the result as it is, unless it has the closing header's
length and is not behind all that is needed of the last socket. -/
theorem inserted_iff (hpos : 1 ≤ i) (hi : i < (s.frames e protocol).length)
    (hkind : expectedLen f.kind = none) (hle : recordHeaderLen ≤ f.len) :
    parse e (tableAround e protocol opening closing before (s.inserted e protocol i f) after)
        protocol =
      parse e (table e opening (socksFrames e protocol (before ++ s :: after)) closing) protocol ↔
    f.len ≠ xinpgenLen ∨ after = [] ∧ s.Settled i := by
  by_cases hlen : f.len = xinpgenLen
  · rw [Sock.inserted, parse_whole]
    by_cases hsettled : s.Settled i
    · rw [hidden_settled hpos hi hlen hsettled]
      constructor
      · intro heq
        have hcount := congrArg Parsed.sockets (Except.ok.inj heq)
        simp only [Parsed.adding, List.length_append, List.length_cons, List.length_nil] at hcount
        exact .inr ⟨List.eq_nil_of_length_eq_zero (by omega), hsettled⟩
      · rintro (hne | ⟨rfl, -⟩)
        · exact absurd hlen hne
        · rfl
    · obtain ⟨message, herror⟩ := hidden_unsettled (e := e) (s := s) hpos hi hlen hsettled _
      rw [herror]
      constructor
      · intro heq
        cases heq
      · rintro (hne | ⟨-, h⟩)
        · exact absurd hlen hne
        · exact absurd h hsettled
  · constructor
    · intro
      exact .inl hlen
    · intro
      exact parse_inserted hkind ⟨hle, hlen⟩

/-- A record of another length than its kind's refuses the table, unless it has the closing
header's length and the records before it leave no socket undecided. -/
theorem replaced_iff (hi : i < (s.frames e protocol).length)
    (hkind : f.kind = ((s.frames e protocol)[i]).kind)
    (hlen : f.len ≠ ((s.frames e protocol)[i]).len) :
    (∃ message, parse e (tableAround e protocol opening closing before
        (s.replaced e protocol i f) after) protocol = .error message) ↔
    ¬(f.len = xinpgenLen ∧ (i = 0 ∨ s.Settled i)) := by
  by_cases hcut : f.len = xinpgenLen
  · rw [Sock.replaced]
    obtain rfl | hpos := Nat.eq_zero_or_pos i
    · rw [hidden_first hcut]
      constructor
      · rintro ⟨message, herror⟩
        cases herror
      · intro h
        exact absurd ⟨hcut, .inl rfl⟩ h
    · by_cases hsettled : s.Settled i
      · rw [hidden_settled hpos hi hcut hsettled]
        constructor
        · rintro ⟨message, herror⟩
          cases herror
        · intro h
          exact absurd ⟨hcut, .inr hsettled⟩ h
      · constructor
        · rintro - ⟨-, rfl | h⟩
          · exact absurd hpos (lt_irrefl 0)
          · exact hsettled h
        · intro
          exact hidden_unsettled hpos hi hcut hsettled _
  · have hknown : expectedLen f.kind = some ((s.frames e protocol)[i]).len := by
      rw [hkind]
      exact s.known _ (List.getElem_mem hi)
    have herror := @parse_unexpected e protocol opening closing
      (socksFrames e protocol before ++ (s.frames e protocol).take i)
      ((s.frames e protocol).drop (i + 1) ++ socksFrames e protocol after)
      (partial_walked before s i) f _ hknown hlen hcut
    constructor
    · rintro - ⟨h, -⟩
      exact hcut h
    · intro
      rw [tableAround, Sock.replaced]
      simpa only [List.append_assoc, List.cons_append] using herror

theorem hidden_understated (hpos : 1 ≤ i) (hi : i < (s.frames e protocol).length)
    (hf : f.len = xinpgenLen) (rest : List Frame) :
    Understated (parse e (tableAround e protocol opening closing before
        ((s.frames e protocol).take i ++ f :: rest) after) protocol) (before ++ s :: after) ↔
      s.Settled i ∧ after ≠ [] := by
  by_cases hsettled : s.Settled i
  · rw [hidden_settled hpos hi hf hsettled]
    constructor
    · rintro ⟨parsed, hok, hlt⟩
      cases hok
      refine ⟨hsettled, ?_⟩
      rintro rfl
      simp [Parsed.adding] at hlt
    · rintro ⟨-, hafter⟩
      have hlength := List.length_pos_iff.mpr hafter
      refine ⟨_, rfl, ?_⟩
      simp only [Parsed.adding, List.length_append, List.length_cons, List.length_nil]
      omega
  · obtain ⟨message, herror⟩ := hidden_unsettled (e := e) (s := s) hpos hi hf hsettled rest
    rw [herror]
    constructor
    · rintro ⟨parsed, hok, -⟩
      cases hok
    · rintro ⟨h, -⟩
      exact absurd h hsettled

theorem whole_not_understated (socks : List Sock) :
    ¬Understated (parse e (table e opening (socksFrames e protocol socks) closing) protocol)
      socks := by
  rw [parse_whole]
  rintro ⟨parsed, hok, hlt⟩
  cases hok
  simp [Parsed.adding] at hlt

/-- A record put into a run or resized in it keeps the framing's rules exactly when it does not have
the closing header's length where the records before it settle their sockets; with sockets behind
it, the table is then accepted without them. -/
theorem framing_trusted_iff (e : Endian) (protocol : Protocol) (opening closing : Header)
    (before : List Sock) (s : Sock) (after : List Sock) (i : ℕ) (f : Frame)
    (hi : i < (s.frames e protocol).length) :
    (1 ≤ i → expectedLen f.kind = none → recordHeaderLen ≤ f.len →
      (parse e (tableAround e protocol opening closing before (s.inserted e protocol i f) after)
          protocol =
        parse e (table e opening (socksFrames e protocol (before ++ s :: after)) closing) protocol ↔
        f.len ≠ xinpgenLen ∨ after = [] ∧ s.Settled i) ∧
      (Understated (parse e (tableAround e protocol opening closing before
          (s.inserted e protocol i f) after) protocol) (before ++ s :: after) ↔
        f.len = xinpgenLen ∧ s.Settled i ∧ after ≠ [])) ∧
    (f.kind = ((s.frames e protocol)[i]).kind → f.len ≠ ((s.frames e protocol)[i]).len →
      ((∃ message, parse e (tableAround e protocol opening closing before
          (s.replaced e protocol i f) after) protocol = .error message) ↔
        ¬(f.len = xinpgenLen ∧ (i = 0 ∨ s.Settled i))) ∧
      (Understated (parse e (tableAround e protocol opening closing before
          (s.replaced e protocol i f) after) protocol) (before ++ s :: after) ↔
        f.len = xinpgenLen ∧ (i = 0 ∨ s.Settled i ∧ after ≠ []))) := by
  constructor
  · intro hpos hkind hle
    refine ⟨inserted_iff hpos hi hkind hle, ?_⟩
    by_cases hlen : f.len = xinpgenLen
    · rw [Sock.inserted, hidden_understated hpos hi hlen]
      simp [hlen]
    · rw [parse_inserted hkind ⟨hle, hlen⟩]
      simp [hlen, whole_not_understated]
  · intro hkind hlen
    have hreplaced := @replaced_iff e protocol opening closing before after s i f hi hkind hlen
    refine ⟨hreplaced, ?_⟩
    by_cases hcut : f.len = xinpgenLen
    · rw [Sock.replaced]
      obtain rfl | hpos := Nat.eq_zero_or_pos i
      · rw [hidden_first hcut]
        simp [hcut, Understated, Parsed.adding]
      · rw [hidden_understated hpos hi hcut]
        simp [hcut, Nat.ne_of_gt hpos]
    · obtain ⟨message, herror⟩ := hreplaced.mpr (fun h => hcut h.1)
      rw [herror]
      simp [hcut, Understated]

/-- The header of a table of two sockets. -/
def twoHeader : Header := { count := 2, generations := .replicate 16 0 }

/-- A PCB without a socket, every byte that may be anything blank. -/
def blankSock : Sock where
  contents := .detached (.replicate 96 0) (.replicate 128 0) (.replicate 196 0)
  rcvbuf := .replicate 24 0
  sndbuf := .replicate 24 0
  tcpPadding := .replicate 4 0

/-- A record of 24 bytes. -/
def intruder (kind : ℕ) (h : kind < 256 ^ 4) : Frame where
  len := 24
  kind := kind
  body := List.replicate 16 0
  padding := []
  kind_lt := h

theorem framing_trusted_iff_blank :
    Understated (parse .little (tableAround .little .tcp twoHeader twoHeader []
      (blankSock.inserted .little .tcp 2 (intruder 0x40 (by decide))) [blankSock]) .tcp)
      [blankSock, blankSock] :=
  ((framing_trusted_iff .little .tcp twoHeader twoHeader [] blankSock [blankSock] 2
    (intruder 0x40 (by decide)) (by decide)).1 (by decide) rfl (by decide)).2.mpr
    ⟨rfl, le_refl 2, List.cons_ne_nil _ _⟩

/-- Two sockets, the first with a 24-byte record of kind 0x40 behind its `xsocket_n`: the table is
accepted with one. With its `xinpcb_n` cut to 24 bytes, it is accepted with none. -/
theorem intruder_closes :
    parse .little (table .little twoHeader (socksFrames .little .tcp [blankSock, blankSock])
      twoHeader) .tcp = .ok { headerCount := 2, sockets := 2 } ∧
    parse .little (tableAround .little .tcp twoHeader twoHeader []
      (blankSock.inserted .little .tcp 2 (intruder 0x40 (by decide))) [blankSock]) .tcp =
        .ok { headerCount := 2, sockets := 1 } ∧
    parse .little (tableAround .little .tcp twoHeader twoHeader []
      (blankSock.replaced .little .tcp 0 (intruder xsoInpcb (by decide))) [blankSock]) .tcp =
        .ok { headerCount := 2 } := by
  refine ⟨parse_whole [blankSock, blankSock], ?_, ?_⟩
  · exact hidden_settled (by decide) (by decide) rfl (le_refl 2) _
  · exact hidden_first rfl _

end Zstats.Pcblist
