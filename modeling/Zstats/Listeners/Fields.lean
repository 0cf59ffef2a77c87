import Zstats.Listeners.Layout

namespace Zstats.Pcblist

open Bytes Failing

section Fields

variable {e d : Endian} {f : Frame} {width start : ℕ}

theorem Frame.slice_body (h : recordHeaderLen ≤ start) :
    slice (f.record e) start width = slice f.body (start - recordHeaderLen) width := by
  unfold recordHeaderLen at h ⊢
  rw [record, slice_skip (by simp; omega), slice_skip (by simp; omega), length_encode,
    length_encode, Nat.sub_sub]

theorem Frame.read_body (h : recordHeaderLen ≤ start) :
    Bytes.read d width (f.record e) start =
      Bytes.read d width f.body (start - recordHeaderLen) := by
  rw [Bytes.read, slice_body h, Bytes.read]

theorem Frame.getElem_body (h : recordHeaderLen ≤ start) :
    (f.record e)[start]? = f.body[start - recordHeaderLen]? := by
  unfold recordHeaderLen at h ⊢
  rw [record, List.getElem?_append_right (by simp; omega),
    List.getElem?_append_right (by simp; omega), length_encode, length_encode, Nat.sub_sub]

end Fields

section Reading

variable (e : Endian) (protocol : Protocol) (a : Attached) (s : Sock)

theorem read_lport (h : s.contents = .attached a) :
    readU16Be (s.inpcbFrame.record e) inpLport = some a.lport.toNat := by
  have hlt : a.lport.toNat < 256 ^ 2 := a.lport.toNat_lt
  rw [readU16Be, Frame.read_body (by decide)]
  simp (disch := simp) [Sock.inpcbFrame, h, Contents.inpcb, inpLport, recordHeaderLen, read_skip,
    read_encode hlt]

theorem read_fport (h : s.contents = .attached a) :
    readU16Be (s.inpcbFrame.record e) inpFport = some a.fport.toNat := by
  have hlt : a.fport.toNat < 256 ^ 2 := a.fport.toNat_lt
  rw [readU16Be, Frame.read_body (by decide)]
  simp (disch := simp) [Sock.inpcbFrame, h, Contents.inpcb, inpFport, recordHeaderLen, read_skip,
    read_encode hlt]

theorem read_vflag (h : s.contents = .attached a) :
    (s.inpcbFrame.record e)[inpVflag]? = some a.ends.vflag := by
  rw [Frame.getElem_body (by decide)]
  simp [Sock.inpcbFrame, h, Contents.inpcb, inpVflag, recordHeaderLen]

theorem slice_faddr (h : s.contents = .attached a) :
    slice (s.inpcbFrame.record e) inpFaddr 16 = some a.ends.faddrBytes := by
  rw [Frame.slice_body (by decide)]
  simp (disch := simp) [Sock.inpcbFrame, h, Contents.inpcb, inpFaddr, recordHeaderLen, slice_skip,
    slice_cons, slice_here]

theorem slice_laddr (h : s.contents = .attached a) :
    slice (s.inpcbFrame.record e) inpLaddr 16 = some a.ends.laddrBytes := by
  rw [Frame.slice_body (by decide)]
  simp (disch := simp) [Sock.inpcbFrame, h, Contents.inpcb, inpLaddr, recordHeaderLen, slice_skip,
    slice_cons, slice_here]

/-- A 32-bit number with a sign is read back. -/
theorem ofNat_toInt (n : Int32) : (BitVec.ofNat 32 n.toBitVec.toNat).toInt = n.toInt := by
  rw [BitVec.ofNat_toNat, BitVec.setWidth_eq]
  rfl

theorem toNat_lt_bytes (n : Int32) : n.toBitVec.toNat < 256 ^ 4 := n.toBitVec.isLt

theorem read_protocol (h : s.contents = .attached a) :
    readI32 e ((s.socketFrame e protocol).record e) soProtocolAt = some (ipproto protocol : ℤ) := by
  have hlt : ipproto protocol < 256 ^ 4 := by cases protocol <;> decide
  have hint : (BitVec.ofNat 32 (ipproto protocol)).toInt = (ipproto protocol : ℤ) := by
    cases protocol <;> decide
  rw [readI32, Frame.read_body (by decide)]
  simp (disch := simp) [Sock.socketFrame, h, Contents.socket, soProtocolAt, recordHeaderLen,
    read_skip, read_encode hlt, hint]

theorem read_uid (h : s.contents = .attached a) :
    readU32 e ((s.socketFrame e protocol).record e) soUid = some a.uid.toNat := by
  have hlt : a.uid.toNat < 256 ^ 4 := a.uid.toNat_lt
  rw [readU32, Frame.read_body (by decide)]
  simp (disch := simp) [Sock.socketFrame, h, Contents.socket, soUid, recordHeaderLen, read_skip,
    read_encode hlt]

theorem read_lastPid (h : s.contents = .attached a) :
    readI32 e ((s.socketFrame e protocol).record e) soLastPid = some a.lastPid.toInt := by
  rw [readI32, Frame.read_body (by decide)]
  simp (disch := simp) [Sock.socketFrame, h, Contents.socket, soLastPid, recordHeaderLen, read_skip,
    read_encode (toNat_lt_bytes a.lastPid), ofNat_toInt, -BitVec.ofNat_toNat]

theorem read_state (h : s.contents = .attached a) :
    readI32 e ((s.tcpcbFrame e).record e) tState = some a.state.toInt := by
  rw [readI32, Frame.read_body (by decide)]
  simp (disch := simp) [Sock.tcpcbFrame, h, Contents.tcpcb, tState, recordHeaderLen, read_skip,
    read_encode (toNat_lt_bytes a.state), ofNat_toInt, -BitVec.ofNat_toNat]

/-- A PCB without a socket: the record is blank behind its header. -/
theorem read_blank {inpcb : Filler 96} {stats : Filler 128} {tcpcb : Filler 196}
    (h : s.contents = .detached inpcb stats tcpcb) :
    readI32 e ((s.socketFrame e protocol).record e) soProtocolAt = some detached ∧
    (((s.socketFrame e protocol).record e).drop recordHeaderLen).all (· == 0) := by
  have hbody : (s.socketFrame e protocol).body = List.replicate 96 0 := by
    simp [Sock.socketFrame, h, Contents.socket]
  constructor
  · rw [readI32, Frame.read_body (by decide), hbody]
    cases e <;> decide
  · have hdrop : ((s.socketFrame e protocol).record e).drop recordHeaderLen =
        List.replicate 96 0 := by
      rw [← hbody, Frame.record, ← List.append_assoc]
      exact List.drop_left' (by simp [recordHeaderLen])
    rw [hdrop]
    decide

variable {inpcb : List UInt8} {start : ℕ}

theorem addressOf_ipv4 {pad : Filler 12} {addr : BitVec 32}
    (h : slice inpcb start 16 = some (pad.toList ++ encode .big 4 addr.toNat)) :
    addressOf inpcb start inpIpv4 = .ok (.v4 addr) := by
  have hdrop : (pad.toList ++ encode .big 4 addr.toNat).drop in4In4in6 =
      encode .big 4 addr.toNat := List.drop_left' pad.length_toList
  have hlt : addr.toNat < 256 ^ 4 := addr.isLt
  rw [addressOf, h]
  change Except.ok (IpAddr.v4 (BitVec.ofNat 32 (decode .big (List.drop in4In4in6 _)))) = _
  rw [hdrop, decode_encode .big hlt, BitVec.ofNat_toNat, BitVec.setWidth_eq]

theorem addressOf_ipv6 {addr : BitVec 128} {vflag : UInt8} (hflag : vflag &&& inpIpv6 ≠ 0)
    (h : slice inpcb start 16 = some (encode .big 16 addr.toNat)) :
    addressOf inpcb start vflag = .ok (.v6 addr) := by
  have hlt : addr.toNat < 256 ^ 16 := addr.isLt
  rw [addressOf, h]
  change (if vflag &&& inpIpv6 ≠ 0 then _ else _) = _
  rw [if_pos hflag]
  change Except.ok (IpAddr.v6 (BitVec.ofNat 128 (decode .big _))) = _
  rw [decode_encode .big hlt, BitVec.ofNat_toNat, BitVec.setWidth_eq]

theorem addressOf_ends (ends : Ends) :
    (slice inpcb start 16 = some ends.faddrBytes →
      addressOf inpcb start ends.vflag = .ok ends.faddr) ∧
    (slice inpcb start 16 = some ends.laddrBytes →
      addressOf inpcb start ends.vflag = .ok ends.laddr) := by
  cases ends with
  | ipv4 fpad lpad faddr laddr => exact ⟨addressOf_ipv4, addressOf_ipv4⟩
  | ipv6 dual faddr laddr =>
    have hflag : (Ends.ipv6 dual faddr laddr).vflag &&& inpIpv6 ≠ 0 := by
      cases dual with
      | false => exact (by decide : inpIpv6 &&& inpIpv6 ≠ 0)
      | true => exact (by decide : (inpIpv4 ||| inpIpv6) &&& inpIpv6 ≠ 0)
    exact ⟨addressOf_ipv6 hflag, addressOf_ipv6 hflag⟩

theorem DataStats.read_rxbytes (d : DataStats) (rest : List UInt8) :
    Bytes.read e 8 (d.bytes e ++ rest) rxBytesAt = some d.rxbytes.toNat := by
  have hlt : d.rxbytes.toNat < 256 ^ 8 := d.rxbytes.toNat_lt
  simp (disch := simp) [bytes, rxBytesAt, read_skip, read_encode hlt]

theorem DataStats.read_txbytes (d : DataStats) (rest : List UInt8) :
    Bytes.read e 8 (d.bytes e ++ rest) txBytesAt = some d.txbytes.toNat := by
  have hlt : d.txbytes.toNat < 256 ^ 8 := d.txbytes.toNat_lt
  simp (disch := simp) [bytes, txBytesAt, read_skip, read_encode hlt]

/-- The classes from the `k`-th on. -/
theorem read_class (before : List UInt8) {rest : List UInt8} {d : DataStats} {k : ℕ}
    (hbody : (s.statsFrame e).body = before ++ (d.bytes e ++ rest))
    (hbefore : before.length = k * dataStatsLen) :
    readU64 e ((s.statsFrame e).record e) (recordHeaderLen + k * dataStatsLen + rxBytesAt) =
      some d.rxbytes.toNat ∧
    readU64 e ((s.statsFrame e).record e) (recordHeaderLen + k * dataStatsLen + txBytesAt) =
      some d.txbytes.toNat := by
  have hstart (field : ℕ) : recordHeaderLen + k * dataStatsLen + field - recordHeaderLen -
      before.length = field := by omega
  have hle (field : ℕ) : before.length ≤ recordHeaderLen + k * dataStatsLen + field -
      recordHeaderLen := by omega
  rw [readU64, readU64, Frame.read_body (by omega), Frame.read_body (by omega), hbody,
    read_skip (hle rxBytesAt), read_skip (hle txBytesAt), hstart, hstart]
  exact ⟨d.read_rxbytes e rest, d.read_txbytes e rest⟩

/-- The saturating sums of the four classes. -/
theorem traffic_sums (h : s.contents = .attached a) :
    trafficBytes e ((s.statsFrame e).record e) =
      .ok (min (∑ k, (a.tcStats k).rxbytes.toNat) u64Max,
        min (∑ k, (a.tcStats k).txbytes.toNat) u64Max) := by
  have hbody : (s.statsFrame e).body = (a.tcStats 0).bytes e ++ ((a.tcStats 1).bytes e ++
      ((a.tcStats 2).bytes e ++ (a.tcStats 3).bytes e)) := by
    simp [Sock.statsFrame, h, Contents.stats]
  have h0 := read_class e s (k := 0) [] hbody rfl
  have h1 := read_class e s (k := 1) ((a.tcStats 0).bytes e) hbody (by simp [dataStatsLen])
  have h2 := read_class e s (k := 2) ((a.tcStats 0).bytes e ++ (a.tcStats 1).bytes e)
    (by rw [hbody, List.append_assoc]) (by simp [dataStatsLen])
  have hlast : (s.statsFrame e).body = ((a.tcStats 0).bytes e ++ ((a.tcStats 1).bytes e ++
      (a.tcStats 2).bytes e)) ++ ((a.tcStats 3).bytes e ++ []) := by
    simp [hbody]
  have h3 := read_class e s (k := 3) _ hlast (by simp [dataStatsLen])
  have hrange : List.range tcStatsMax = [0, 1, 2, 3] := rfl
  rw [trafficBytes, hrange]
  simp only [List.foldlM_cons, List.foldlM_nil, h0, h1, h2, h3, okOr]
  change Except.ok (saturatingAdd (saturatingAdd (saturatingAdd (saturatingAdd 0 _) _) _) _,
    saturatingAdd (saturatingAdd (saturatingAdd (saturatingAdd 0 _) _) _) _) = _
  simp only [saturatingAdd, Fin.sum_univ_four]
  congr 2 <;> omega

variable (stats tcpcb : Option (List UInt8))

/-- A run whose `xinpcb_n` and `xsocket_n` are a socket's. -/
def Sock.partRun : Run where
  inpcb := some (s.inpcbFrame.record e)
  socket := some ((s.socketFrame e protocol).record e)
  stats := stats
  tcpcb := tcpcb

theorem classify_detached {inpcb : Filler 96} {statsBytes : Filler 128} {tcpcbBytes : Filler 196}
    (h : s.contents = .detached inpcb statsBytes tcpcbBytes) :
    classify e (s.partRun e protocol stats tcpcb) protocol = .ok none := by
  obtain ⟨hprotocol, hblank⟩ := read_blank e protocol s h
  simp only [classify, Sock.partRun, hprotocol, okOr, hblank]
  rfl

/-- The owner of an attached socket: its last pid, unless negative. -/
def Attached.owner : Option ℕ :=
  if 0 ≤ a.lastPid.toInt then some a.lastPid.toInt.toNat else none

/-- The byte counters of an attached socket that has an owner. -/
def Attached.flow : Option FlowBytes :=
  a.owner.map fun pid =>
    { pid := pid
      receivedBytes := min (∑ k, (a.tcStats k).rxbytes.toNat) u64Max
      transmittedBytes := min (∑ k, (a.tcStats k).txbytes.toNat) u64Max }

/-- An attached socket that waits for connections, in a table of its protocol. -/
def Attached.Listening : Prop :=
  a.lport ≠ 0 ∧
    match protocol with
    | .tcp => a.state.toInt = tcpsListen
    | .udp => a.fport = 0 ∧ a.ends.faddr.isUnspecified = true

instance : Decidable (a.Listening protocol) := by
  unfold Attached.Listening
  cases protocol <;> infer_instance

/-- What an attached socket's listener entry says. -/
def Attached.entry : ListenerSnapshot where
  protocol := protocol
  address := a.ends.laddr
  port := a.lport.toNat
  pid := a.owner
  process := none
  runTimeSecs := none
  uid := some a.uid.toNat

def Attached.listener : Option ListenerSnapshot :=
  if a.Listening protocol then some (a.entry protocol) else none

variable {a s}

/-- An attached socket, its fields read. -/
theorem classify_attached (h : s.contents = .attached a) :
    classify e (s.partRun e protocol stats tcpcb) protocol =
      if a.lport.toNat = 0 then .ok (some (a.owner, none))
      else
        match protocol with
        | .tcp => do
          let tcpcb ← okOr tcpcb "a TCP socket is missing its xtcpcb_n record"
          let state ← okOr (readI32 e tcpcb tState) "short xtcpcb_n"
          if !decide (state = tcpsListen) then .ok (some (a.owner, none))
          else .ok (some (a.owner, some (a.entry .tcp)))
        | .udp =>
          if a.fport.toNat = 0 then
            if !a.ends.faddr.isUnspecified then .ok (some (a.owner, none))
            else .ok (some (a.owner, some (a.entry .udp)))
          else .ok (some (a.owner, none)) := by
  have hnumber : (ipproto protocol : ℤ) = match protocol with
      | .tcp => ipprotoTcp
      | .udp => ipprotoUdp := by
    cases protocol <;> rfl
  have hattached : ¬((ipproto protocol : ℤ) = detached ∧
      (((s.socketFrame e protocol).record e).drop recordHeaderLen).all (· == 0)) := by
    rintro ⟨hzero, -⟩
    cases protocol <;> cases hzero
  have howner : (some a.lastPid.toInt).bind (fun pid => if 0 ≤ pid then some pid.toNat else none) =
      a.owner := rfl
  simp only [classify, Sock.partRun, read_protocol e protocol a s h, read_lastPid e protocol a s h,
    read_lport e a s h, read_vflag e a s h, read_fport e a s h, read_uid e protocol a s h,
    (addressOf_ends a.ends).1 (slice_faddr e a s h), (addressOf_ends a.ends).2 (slice_laddr e a s h),
    okOr_some, ok_bind, if_neg hattached, pure_eq, howner]
  rw [if_neg (fun hne => hne hnumber)]
  cases protocol <;> rfl

theorem classify_unbound (h : s.contents = .attached a) (hport : a.lport = 0) :
    classify e (s.partRun e protocol stats tcpcb) protocol = .ok (some (a.owner, none)) := by
  rw [classify_attached e protocol stats tcpcb h, hport]
  rfl

/-- A bound TCP socket without its `xtcpcb_n` is refused. -/
theorem classify_missing (h : s.contents = .attached a) (hport : a.lport ≠ 0) :
    ∃ message, classify e (s.partRun e .tcp stats none) .tcp = .error message := by
  have hne : a.lport.toNat ≠ 0 := fun hzero => hport (UInt16.toNat_inj.mp hzero)
  rw [classify_attached e .tcp stats none h, if_neg hne]
  exact ⟨_, rfl⟩

/-- A complete attached socket. -/
theorem classify_complete (h : s.contents = .attached a)
    (htcp : protocol = .tcp → tcpcb = some ((s.tcpcbFrame e).record e)) :
    classify e (s.partRun e protocol stats tcpcb) protocol =
      .ok (some (a.owner, a.listener protocol)) := by
  by_cases hport : a.lport = 0
  · have hnot : ¬a.Listening protocol := fun hl => hl.1 hport
    rw [classify_unbound e protocol stats tcpcb h hport, Attached.listener, if_neg hnot]
  · have hne : a.lport.toNat ≠ 0 := fun hzero => hport (UInt16.toNat_inj.mp hzero)
    rw [classify_attached e protocol stats tcpcb h, if_neg hne]
    cases protocol with
    | tcp =>
      rw [htcp rfl]
      simp only [okOr_some, ok_bind, read_state e a s h]
      by_cases hstate : a.state.toInt = tcpsListen
      · have hl : a.Listening .tcp := ⟨hport, hstate⟩
        simp [hstate, Attached.listener, hl]
      · have hl : ¬a.Listening .tcp := fun hl => hstate hl.2
        simp [hstate, Attached.listener, hl]
    | udp =>
      have hfport : a.fport.toNat = 0 ↔ a.fport = 0 := UInt16.toNat_inj (b := 0)
      by_cases hzero : a.fport = 0
      · rw [if_pos (hfport.mpr hzero)]
        cases hforeign : a.ends.faddr.isUnspecified with
        | true =>
          have hl : a.Listening .udp := ⟨hport, hzero, hforeign⟩
          simp [Attached.listener, hl]
        | false =>
          have hl : ¬a.Listening .udp := fun hl =>
            Bool.noConfusion (hforeign.symm.trans hl.2.2)
          simp [Attached.listener, hl]
      · have hl : ¬a.Listening .udp := fun hl => hzero hl.2.1
        rw [if_neg (fun h => hzero (hfport.mp h)), Attached.listener, if_neg hl]

variable (parsed : Parsed)

theorem take_detached {inpcb : Filler 96} {statsBytes : Filler 128} {tcpcbBytes : Filler 196}
    (h : s.contents = .detached inpcb statsBytes tcpcbBytes) :
    parsed.take e (s.partRun e protocol stats tcpcb) protocol =
      .ok { parsed with sockets := parsed.sockets + 1 } := by
  rw [Parsed.take, classify_detached e protocol s stats tcpcb h]
  rfl

/-- An attached socket is counted with what its classification says, once its `xsockstat_n` is
there. -/
theorem take_attached (h : s.contents = .attached a) {listener : Option ListenerSnapshot}
    (hclass : classify e (s.partRun e protocol (some ((s.statsFrame e).record e)) tcpcb) protocol =
      .ok (some (a.owner, listener))) :
    parsed.take e (s.partRun e protocol (some ((s.statsFrame e).record e)) tcpcb) protocol =
      .ok { parsed with
        sockets := parsed.sockets + 1
        flows := parsed.flows ++ a.flow.toList
        owners := parsed.owners ∪ a.owner.toFinset
        listeners := parsed.listeners ++ listener.toList } := by
  have hflow : a.owner.toList.map (fun pid => (⟨pid, min (∑ k, (a.tcStats k).rxbytes.toNat) u64Max,
      min (∑ k, (a.tcStats k).txbytes.toNat) u64Max⟩ : FlowBytes)) = a.flow.toList := by
    rw [Attached.flow, Option.toList_map]
  rw [Parsed.take, hclass]
  simp only [ok_bind, Sock.partRun, okOr_some, traffic_sums e a s h, pure_eq, hflow]

end Reading

end Zstats.Pcblist
