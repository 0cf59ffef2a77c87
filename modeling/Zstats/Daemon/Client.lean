import Zstats.Daemon.Attach
import Zstats.Framework.Text

namespace Zstats

open Segment Transition

/-- What the next read of a line comes to; after the last one the connection is closed. -/
inductive Incoming where
  | line (text : String)
  | failed
  deriving DecidableEq

def Incoming.isLine : Incoming → Bool
  | .line _ => true
  | .failed => false

inductive ClientError where
  | io
  | protocol (reply : String)
  deriving DecidableEq

structure DaemonStream where
  lines : List Incoming
  historyLen : ℕ
  historyRemaining : ℕ

def parseHeader (header : String) : Option ℕ :=
  (Text.stripPrefix "HISTORY ".toList header.toList).bind fun n =>
    Text.parseUnsigned u64Max (Text.trim n)

/-- `attach_at`, from the first line that the daemon replies. -/
def attachAt (reply : List Incoming) : Except ClientError DaemonStream :=
  match reply with
  | .failed :: _ => .error .io
  | .line header :: lines =>
    match parseHeader header with
    | some count => .ok ⟨lines, count, count⟩
    | none => .error (.protocol header)
  | [] =>
    match parseHeader "" with
    | some count => .ok ⟨[], count, count⟩
    | none => .error (.protocol "")

namespace DaemonStream

/-- What reading one line comes to. -/
inductive Outcome where
  | closed
  | failed
  | garbled
  | snapshot (s : SystemSnapshot)

variable (fromJson : String → Option SystemSnapshot)

/-- One turn of the loop in `next`: a garbled line too uses up a line of the history. -/
def readLine (s : DaemonStream) : Outcome × DaemonStream :=
  match s.lines with
  | [] => (.closed, s)
  | .failed :: lines => (.failed, { s with lines := lines })
  | .line text :: lines =>
    let s' := { s with lines := lines, historyRemaining := s.historyRemaining - 1 }
    match fromJson text with
    | some snapshot => (.snapshot snapshot, s')
    | none => (.garbled, s')

theorem readLine_garbled {s s' : DaemonStream} (h : s.readLine fromJson = (.garbled, s')) :
    s'.lines.length < s.lines.length := by
  rw [readLine] at h
  split at h
  · cases h
  · cases h
  · rename_i text lines hlines
    split at h
    · cases h
    · cases h
      rw [hlines]
      exact Nat.lt_succ_self _

def next (s : DaemonStream) : Except ClientError (Option SystemSnapshot) × DaemonStream :=
  match _h : s.readLine fromJson with
  | (.closed, s') => (.ok none, s')
  | (.failed, s') => (.error .io, s')
  | (.snapshot snapshot, s') => (.ok (some snapshot), s')
  | (.garbled, s') => next s'
termination_by s.lines.length
decreasing_by exact readLine_garbled fromJson _h

end DaemonStream

theorem parseHeader_historyHeader (n : UInt64) : parseHeader (historyHeader n.toNat) = some n.toNat := by
  have hdigits : ∀ c ∈ Nat.toDigits 10 n.toNat, c.isDigit := by
    intro c hc
    exact Nat.isDigit_of_mem_toDigits (by decide) le_rfl hc
  have htext : (historyHeader n.toNat).toList =
      "HISTORY ".toList ++ Nat.toDigits 10 n.toNat := by
    rw [historyHeader, String.toList_append, Nat.toString_eq_repr, Nat.toList_repr]
  have hmax : n.toNat ≤ u64Max := Nat.le_of_lt_succ n.toNat_lt
  rw [parseHeader, htext, Text.stripPrefix_append, Option.bind_some, Text.trim_digits hdigits,
    Text.parseUnsigned_toDigits hmax]

namespace DaemonStream

variable {fromJson : String → Option SystemSnapshot}

variable (fromJson) in
/-- The stream after reading `i` lines. -/
def afterLines (s : DaemonStream) (i : ℕ) : DaemonStream :=
  (fun s => (s.readLine fromJson).2)^[i] s

/-- A read uses up one line, whether it parses or not. -/
theorem readLine_counts (s : DaemonStream) : (s.readLine fromJson).2 = { s with
    lines := s.lines.drop 1
    historyRemaining := s.historyRemaining - (s.lines.take 1).countP Incoming.isLine } := by
  obtain ⟨lines, len, remaining⟩ := s
  cases lines with
  | nil => simp [readLine]
  | cons first lines =>
    cases first with
    | failed => simp [readLine, Incoming.isLine]
    | line text => cases hparse : fromJson text <;> simp [readLine, hparse, Incoming.isLine]

theorem afterLines_counts (s : DaemonStream) (i : ℕ) : s.afterLines fromJson i = { s with
    lines := s.lines.drop i
    historyRemaining := s.historyRemaining - (s.lines.take i).countP Incoming.isLine } := by
  induction i with
  | zero => simp [afterLines]
  | succ i ih =>
    have hstep : s.afterLines fromJson (i + 1) =
        ((s.afterLines fromJson i).readLine fromJson).2 := Function.iterate_succ_apply' ..
    rw [hstep, ih, readLine_counts, List.take_add, List.countP_append]
    simp only [List.drop_drop, Nat.sub_sub]

theorem afterLines_succ (s : DaemonStream) (i : ℕ) :
    s.afterLines fromJson (i + 1) = (s.readLine fromJson).2.afterLines fromJson i :=
  Function.iterate_succ_apply ..

theorem afterLines_add (s : DaemonStream) (i j : ℕ) :
    s.afterLines fromJson (i + j) = (s.afterLines fromJson i).afterLines fromJson j := by
  rw [Nat.add_comm]
  exact Function.iterate_add_apply ..

variable (fromJson) in
/-- What a call of `next` is to answer over these lines, and how many it is to use up: the garbled
ones at the front, and then what ends the call. -/
inductive Takes : List Incoming → Except ClientError (Option SystemSnapshot) → ℕ → Prop
  | closed : Takes [] (.ok none) 0
  | failed (rest : List Incoming) : Takes (.failed :: rest) (.error .io) 1
  | snapshot (text : String) (rest : List Incoming) (s : SystemSnapshot)
      (parses : fromJson text = some s) : Takes (.line text :: rest) (.ok (some s)) 1
  | garbled (text : String) (rest : List Incoming) (answer : Except ClientError (Option SystemSnapshot))
      (n : ℕ) (fails : fromJson text = none) (later : Takes rest answer n) :
      Takes (.line text :: rest) answer (n + 1)

theorem next_of_readLine {s s' : DaemonStream} {outcome : Outcome}
    (h : s.readLine fromJson = (outcome, s')) :
    s.next fromJson = match outcome with
      | .closed => (.ok none, s')
      | .failed => (.error .io, s')
      | .snapshot snapshot => (.ok (some snapshot), s')
      | .garbled => s'.next fromJson := by
  rw [next]
  split <;> rename_i hread <;> cases h.symm.trans hread <;> rfl

/-- A call of `next` takes what it is to take, line after line. -/
theorem next_takes (s : DaemonStream) : ∃ n, Takes fromJson s.lines (s.next fromJson).1 n ∧
    (s.next fromJson).2 = s.afterLines fromJson n := by
  obtain ⟨lines, len, remaining⟩ := s
  induction lines generalizing remaining with
  | nil =>
    have hread : readLine fromJson ⟨[], len, remaining⟩ = (.closed, ⟨[], len, remaining⟩) := rfl
    rw [next_of_readLine hread]
    exact ⟨0, .closed, rfl⟩
  | cons first lines ih =>
    cases first with
    | failed =>
      have hread : readLine fromJson ⟨.failed :: lines, len, remaining⟩ =
          (.failed, ⟨lines, len, remaining⟩) := rfl
      rw [next_of_readLine hread]
      exact ⟨1, .failed lines, (congrArg Prod.snd hread).symm⟩
    | line text =>
      cases hparse : fromJson text with
      | some snapshot =>
        have hread : readLine fromJson ⟨.line text :: lines, len, remaining⟩ =
            (.snapshot snapshot, ⟨lines, len, remaining - 1⟩) := by
          simp [readLine, hparse]
        rw [next_of_readLine hread]
        exact ⟨1, .snapshot text lines snapshot hparse, (congrArg Prod.snd hread).symm⟩
      | none =>
        have hread : readLine fromJson ⟨.line text :: lines, len, remaining⟩ =
            (.garbled, ⟨lines, len, remaining - 1⟩) := by
          simp [readLine, hparse]
        obtain ⟨n, htakes, hafter⟩ := ih (remaining - 1)
        have hrest : afterLines fromJson ⟨.line text :: lines, len, remaining⟩ (n + 1) =
            afterLines fromJson ⟨lines, len, remaining - 1⟩ n := by
          rw [afterLines_succ, hread]
        rw [next_of_readLine hread]
        exact ⟨n + 1, .garbled text lines _ n hparse htakes, hafter.trans hrest.symm⟩

variable (fromJson) in
/-- The stream after `k` calls of `next`. -/
def afterCalls (s : DaemonStream) (k : ℕ) : DaemonStream := (fun s => (s.next fromJson).2)^[k] s

/-- The calls of `next` go on one where the other ended. -/
theorem afterCalls_lines (s : DaemonStream) (k : ℕ) : ∃ i n,
    s.afterCalls fromJson k = s.afterLines fromJson i ∧
    s.afterCalls fromJson (k + 1) = s.afterLines fromJson (i + n) ∧
    Takes fromJson (s.lines.drop i) ((s.afterCalls fromJson k).next fromJson).1 n := by
  have hcall (k : ℕ) (i : ℕ) (hk : s.afterCalls fromJson k = s.afterLines fromJson i) :
      ∃ n, s.afterCalls fromJson (k + 1) = s.afterLines fromJson (i + n) ∧
        Takes fromJson (s.lines.drop i) ((s.afterCalls fromJson k).next fromJson).1 n := by
    have hlines : (s.afterLines fromJson i).lines = s.lines.drop i := by rw [afterLines_counts]
    obtain ⟨n, htakes, hafter⟩ : ∃ n, Takes fromJson (s.afterCalls fromJson k).lines
        ((s.afterCalls fromJson k).next fromJson).1 n ∧
        ((s.afterCalls fromJson k).next fromJson).2 =
          (s.afterCalls fromJson k).afterLines fromJson n := next_takes _
    refine ⟨n, ?_, ?_⟩
    · have hstep : s.afterCalls fromJson (k + 1) = ((s.afterCalls fromJson k).next fromJson).2 :=
        Function.iterate_succ_apply' ..
      rw [hstep, hafter, hk, afterLines_add]
    · rwa [hk, hlines, ← hk] at htakes
  have hstart : ∃ i, s.afterCalls fromJson k = s.afterLines fromJson i := by
    induction k with
    | zero => exact ⟨0, rfl⟩
    | succ k ih =>
      obtain ⟨i, hi⟩ := ih
      obtain ⟨n, hn, -⟩ := hcall k i hi
      exact ⟨i + n, hn⟩
  obtain ⟨i, hi⟩ := hstart
  obtain ⟨n, hn, htakes⟩ := hcall k i hi
  exact ⟨i, n, hi, hn, htakes⟩

end DaemonStream

/-- The stream parses the announced number, and counts it down with each line that it reads. -/
theorem stream_counts_down (fromJson : String → Option SystemSnapshot) (n : UInt64)
    (lines : List Incoming) :
    ∃ s, attachAt (.line (historyHeader n.toNat) :: lines) = .ok s ∧ s.historyLen = n.toNat ∧
      (∀ k, ∃ i n, s.afterCalls fromJson k = s.afterLines fromJson i ∧
        s.afterCalls fromJson (k + 1) = s.afterLines fromJson (i + n) ∧
        DaemonStream.Takes fromJson (lines.drop i)
          ((s.afterCalls fromJson k).next fromJson).1 n) ∧
      ∀ i, (s.afterLines fromJson i).lines = lines.drop i ∧
        (s.afterLines fromJson i).historyRemaining =
          n.toNat - (lines.take i).countP Incoming.isLine ∧
        ((s.afterLines fromJson i).historyRemaining = 0 ↔
          n.toNat ≤ (lines.take i).countP Incoming.isLine) := by
  refine ⟨⟨lines, n.toNat, n.toNat⟩, ?_, rfl, DaemonStream.afterCalls_lines _, ?_⟩
  · rw [attachAt, parseHeader_historyHeader]
  · intro i
    rw [DaemonStream.afterLines_counts]
    exact ⟨rfl, rfl, Nat.sub_eq_zero_iff_le⟩

/-- A handler that attaches sends a history that ends with the last snapshot pushed and then every
snapshot from one that the history reaches, whatever the order of the steps; the client counts the
lines of the history down to zero. -/
theorem attach_leaves_no_hole {ι : Type*} [DecidableEq ι] (toJson : SystemSnapshot → String)
    (fromJson : String → Option SystemSnapshot) (retentionSecs : ℤ)
    (published : ℕ → SystemSnapshot) (before : List (DaemonAction ι)) (c : ι) (d d₁ : Daemon ι)
    (hbefore : exec (Daemon.step toJson retentionSecs published) .new before = some d)
    (hcopy : d.step toJson retentionSecs published (.copy c) = some d₁) :
    (∃ a b, ∀ after d₂, exec (Daemon.step toJson retentionSecs published) d₁ after = some d₂ →
      ∃ s, d₂.handlers c = .attached s ∧ s.NoHole toJson published a b d.pushed d₂.sent ∧
        (∀ k, min a b ≤ k → k < max d.pushed d₂.sent →
          a ≤ k ∧ k < d.pushed ∨ b ≤ k ∧ k < d₂.sent) ∧
        (0 < s.buffered.length - s.written + s.rx.length → ∃ action d₃,
          action.writes c = true ∧ d₂.step toJson retentionSecs published action = some d₃) ∧
        ∀ later d₃, exec (Daemon.step toJson retentionSecs published) d₂ later = some d₃ →
          s.buffered.length - s.written + s.rx.length ≤ later.countP (DaemonAction.writes c) →
          ∃ s' e, d₃.handlers c = .attached s' ∧ s'.buffered = s.buffered ∧
            s'.written = s.buffered.length ∧ d₂.sent ≤ e ∧
            s'.live = (segment published b e).map toJson) ∧
    ∀ (n : UInt64) (lines : List Incoming), ∃ s,
      attachAt (.line (historyHeader n.toNat) :: lines) = .ok s ∧ s.historyLen = n.toNat ∧
        (∀ k, ∃ i n, s.afterCalls fromJson k = s.afterLines fromJson i ∧
          s.afterCalls fromJson (k + 1) = s.afterLines fromJson (i + n) ∧
          DaemonStream.Takes fromJson (lines.drop i)
            ((s.afterCalls fromJson k).next fromJson).1 n) ∧
        ∀ i, (s.afterLines fromJson i).lines = lines.drop i ∧
          (s.afterLines fromJson i).historyRemaining =
            n.toNat - (lines.take i).countP Incoming.isLine ∧
          ((s.afterLines fromJson i).historyRemaining = 0 ↔
            n.toNat ≤ (lines.take i).countP Incoming.isLine) := by
  constructor
  · obtain ⟨a, b, hcovers⟩ := attach_covers hbefore hcopy
    refine ⟨a, b, ?_⟩
    intro after d₂ hafter
    obtain ⟨s, hs, h⟩ := hcovers after d₂ hafter
    refine ⟨s, hs, h, ?_, ?_, ?_⟩
    · intro k hk hlt
      exact h.union hk hlt
    · exact writes_enabled hs h.written
    · intro later d₃ hlater hcount
      exact delivered_run hs h hlater hcount
  · exact stream_counts_down fromJson

/-- Snapshots told apart by their memory, and written as its size. -/
def numbered (n : ℕ) : SystemSnapshot := snapshot [] n

def sizeLine (s : SystemSnapshot) : String := toString s.memory.totalBytes

/-- The client subscribes after the first snapshot and copies between the push of the second and
its send. -/
def copied (actions : List (DaemonAction Unit)) : Option (Daemon Unit) :=
  exec (Daemon.step sizeLine 300 numbered) .new
    ([.push, .send, .subscribe (), .push] ++ actions)

/-- The numbers 0 and 1 are snapshots. -/
def readLine01 (text : String) : Option SystemSnapshot :=
  if text = "0" then some (numbered 0) else if text = "1" then some (numbered 1) else none

/-- The daemon sends both snapshots, and the client reads them past a garbled line. -/
theorem attach_leaves_no_hole_copied : ∃ d a b s client, copied [.copy (), .send] = some d ∧
    d.handlers () = .attached s ∧ s.NoHole sizeLine numbered a b 2 2 ∧
    attachAt (.line (historyHeader 2) :: [.line "0", .line "?", .line "1"]) = .ok client ∧
    client.historyLen = 2 ∧ (client.afterLines readLine01 1).historyRemaining = 1 ∧
    (client.afterLines readLine01 2).historyRemaining = 0 ∧
    ∃ i n, client.afterCalls readLine01 1 = client.afterLines readLine01 i ∧
      DaemonStream.Takes readLine01 ([.line "0", .line "?", .line "1"].drop i)
        ((client.afterCalls readLine01 1).next readLine01).1 n := by
  obtain ⟨⟨a, b, hafter⟩, hclient⟩ := attach_leaves_no_hole sizeLine readLine01 300 numbered
    [.push, .send, .subscribe (), .push] () ((copied []).getD .new)
    ((copied [.copy ()]).getD .new) rfl rfl
  obtain ⟨s, hs, hnohole, -⟩ := hafter [.send] ((copied [.copy (), .send]).getD .new) rfl
  obtain ⟨client, hattach, hlen, hcalls, hlines⟩ :=
    hclient 2 [.line "0", .line "?", .line "1"]
  obtain ⟨i, n, hi, -, htakes⟩ := hcalls 1
  exact ⟨_, a, b, s, client, rfl, hs, hnohole, hattach, hlen, (hlines 1).2.1, (hlines 2).2.1,
    i, n, hi, htakes⟩

end Zstats
