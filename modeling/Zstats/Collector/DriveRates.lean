import Zstats.Collector.Drives

namespace Zstats

theorem diffed_some {prev : DriveCounters} {elapsed : ℕ} (h : 0 < elapsed) :
    diffed (some prev) (some elapsed) = some (prev, elapsed) :=
  if_neg h.ne'

theorem diffed_cases {prev : Option DriveCounters} {elapsed : Option ℕ} {d : DriveCounters × ℕ}
    (h : diffed prev elapsed = some d) : prev = some d.1 ∧ elapsed = some d.2 ∧ 0 < d.2 := by
  cases prev with
  | none => simp [diffed] at h
  | some prev =>
    cases elapsed with
    | none => simp [diffed] at h
    | some elapsed =>
      by_cases he : elapsed = 0
      · simp [diffed, he] at h
      · rw [diffed_some (Nat.pos_of_ne_zero he)] at h
        cases h
        exact ⟨rfl, rfl, Nat.pos_of_ne_zero he⟩

theorem queueDepth_forward {prev current : DriveCounters} {elapsed : ℕ} {q : ℚ}
    (h : queueDepth prev current elapsed = some q) :
    q = ((current.readTimeNs - prev.readTimeNs : ℚ) +
      (current.writeTimeNs - prev.writeTimeNs)) / elapsed := by
  unfold queueDepth checkedSub checkedAdd at h
  by_cases hr : prev.readTimeNs ≤ current.readTimeNs
  · by_cases hw : prev.writeTimeNs ≤ current.writeTimeNs
    · by_cases hb : current.readTimeNs - prev.readTimeNs +
          (current.writeTimeNs - prev.writeTimeNs) ≤ u64Max
      · simp only [if_pos hr, if_pos hw, if_pos hb, Option.bind_eq_bind, Option.bind_some,
          Option.pure_def, Option.some.injEq] at h
        rw [← h]
        push_cast [Nat.cast_sub hr, Nat.cast_sub hw]
        rfl
      · simp [hr, hw, hb] at h
    · simp [hr, hw] at h
  · simp [hr] at h

theorem queueDepth_isSome {prev current : DriveCounters} (elapsed : ℕ)
    (hf : Forward prev current)
    (hb : (current.readTimeNs - prev.readTimeNs) + (current.writeTimeNs - prev.writeTimeNs) ≤
      u64Max) : (queueDepth prev current elapsed).isSome := by
  simp [queueDepth, checkedSub, checkedAdd, hf.readTimeNs, hf.writeTimeNs, hb]

/-- `rate_per_sec` over a positive time is the exact rate, rounded, while the counter goes on. -/
theorem diffed_rate {prev current : DriveCounters} {elapsed r : ℕ} (pick : DriveCounters → ℕ)
    (hf : pick prev ≤ pick current)
    (h : ((diffed (some prev) (some elapsed)).map fun (prev, elapsed) =>
      ratePerSec (pick prev) (pick current) elapsed) = some r) :
    r = perSec (pick prev) (pick current) elapsed := by
  obtain ⟨d, hd, hr⟩ := Option.map_eq_some_iff.mp h
  have hpos := (diffed_cases hd).2.2
  have hprev : prev = d.1 := Option.some.inj (diffed_cases hd).1
  have helapsed : elapsed = d.2 := Option.some.inj (diffed_cases hd).2.1
  rw [hprev] at hf
  rw [hprev, helapsed, ← hr]
  exact ratePerSec_forward hf hpos

theorem driveSnapshot_measured {prev current : DriveCounters} (elapsed : ℕ)
    (hf : Forward prev current) :
    Measured prev current elapsed (driveSnapshot (some prev) current (some elapsed)) where
  readOps := fun _ => diffed_rate DriveCounters.readOps hf.readOps
  writeOps := fun _ => diffed_rate DriveCounters.writeOps hf.writeOps
  readBytes := fun _ => diffed_rate DriveCounters.readBytes hf.readBytes
  writeBytes := fun _ => diffed_rate DriveCounters.writeBytes hf.writeBytes
  queueDepth := by
    intro q hq
    obtain ⟨d, hd, hq⟩ := Option.bind_eq_some_iff.mp hq
    have hprev : prev = d.1 := Option.some.inj (diffed_cases hd).1
    have helapsed : elapsed = d.2 := Option.some.inj (diffed_cases hd).2.1
    rw [hprev, helapsed]
    exact queueDepth_forward hq

/-- A figure is claimed only against a previous read and over a positive time. -/
theorem driveSnapshot_claimed {prev : Option DriveCounters} {current : DriveCounters}
    {elapsed : Option ℕ} (h : Claimed (driveSnapshot prev current elapsed)) :
    ∃ p e, prev = some p ∧ elapsed = some e := by
  cases hd : diffed prev elapsed with
  | none => simp [Claimed, driveSnapshot, hd] at h
  | some d => exact ⟨d.1, d.2, (diffed_cases hd).1, (diffed_cases hd).2.1⟩

section Runs

variable {interval : ℕ} {collect : Bool} {x : ℕ → DriveRound} {n : ℕ}

theorem driveChannel_succ (n : ℕ) :
    driveChannel interval collect x (n + 1) =
      (DriveChannel.collectDrives interval (driveChannel interval collect x n) (x n)).1 :=
  Machine.stateAt_succ n

/-- What a round does to the channel: nothing, a failed read, or a read. -/
theorem driveChannel_cases (n : ℕ) :
    (¬ (driveChannel interval collect x n).Reads interval (x n) ∧
      driveChannel interval collect x (n + 1) = driveChannel interval collect x n) ∨
    (FailedAt interval collect x n ∧
      driveChannel interval collect x (n + 1) =
        { driveChannel interval collect x n with
          lastRefresh := some (x n).now, cached := none }) ∨
    ∃ current, ReadAt interval collect x n current ∧
      (driveChannel interval collect x (n + 1)).lastRefresh = some (x n).now ∧
      (driveChannel interval collect x (n + 1)).lastCounters = byName current := by
  rw [driveChannel_succ]
  by_cases h : (driveChannel interval collect x n).Reads interval (x n)
  · cases hr : (x n).read with
    | none =>
      right; left
      exact ⟨⟨h, hr⟩, congrArg Prod.fst (DriveChannel.collectDrives_failed h hr)⟩
    | some current =>
      right; right
      rw [DriveChannel.collectDrives_read h hr]
      exact ⟨current, ⟨h, hr⟩, rfl, rfl⟩
  · left
    exact ⟨h, DriveChannel.collectDrives_idle h⟩

/-- The stored instant is that of the latest round that asked for the drives. -/
theorem lastRefresh_attempt {t : ℕ}
    (h : (driveChannel interval collect x n).lastRefresh = some t) :
    ∃ i < n, ((driveChannel interval collect x i).Reads interval (x i) ∧ (x i).now = t) ∧
      ∀ k, i < k → k < n → ¬ (driveChannel interval collect x k).Reads interval (x k) := by
  apply Machine.stateAt_since (Q := fun s : DriveChannel => s.lastRefresh = some t) _ _ h
  · simp [DriveChannel.new]
  · intro m hm
    have hsucc : (driveChannel interval collect x (m + 1)).lastRefresh = some t := hm
    rcases driveChannel_cases (x := x) m with ⟨hidle, hs⟩ | ⟨hfail, hs⟩ | ⟨current, hread, hs, -⟩
    · rw [hs] at hsucc
      right
      exact ⟨hsucc, hidle⟩
    · rw [hs] at hsucc
      left
      exact ⟨hfail.1, Option.some.inj hsucc⟩
    · rw [hs] at hsucc
      left
      exact ⟨hread.1, Option.some.inj hsucc⟩

/-- The stored counters of a drive are those of the latest successful read. -/
theorem lastCounters_read {name : String} {prev : DriveCounters}
    (h : (driveChannel interval collect x n).lastCounters name = some prev) :
    ∃ m before, PrecedingRead interval collect x m n before ∧ byName before name = some prev := by
  have hsince : ∃ m < n, (∃ before, ReadAt interval collect x m before ∧
      byName before name = some prev) ∧
      ∀ k, m < k → k < n → ∀ l, ¬ ReadAt interval collect x k l := by
    apply Machine.stateAt_since (Q := fun s : DriveChannel => s.lastCounters name = some prev)
      _ _ h
    · simp [DriveChannel.new]
    · intro m hm
      have hsucc : (driveChannel interval collect x (m + 1)).lastCounters name = some prev := hm
      rcases driveChannel_cases (x := x) m with ⟨hidle, hs⟩ | ⟨hfail, hs⟩ | ⟨current, hread, -, hs⟩
      · rw [hs] at hsucc
        right
        exact ⟨hsucc, fun l hl => hidle hl.1⟩
      · rw [hs] at hsucc
        right
        refine ⟨hsucc, fun l hl => ?_⟩
        have hnone := hfail.2
        rw [hl.2] at hnone
        exact absurd hnone (by simp)
      · rw [hs] at hsucc
        left
        exact ⟨current, hread, hsucc⟩
  obtain ⟨m, hmn, ⟨before, hread, hbefore⟩, hnone⟩ := hsince
  exact ⟨m, before, ⟨hmn, hread, fun k l hmk hkn => hnone k hmk hkn l⟩, hbefore⟩

theorem driveOutput_read {current : List DriveCounters}
    (h : ReadAt interval collect x n current) :
    driveOutput interval collect x n = some (current.map fun drive =>
      driveSnapshot ((driveChannel interval collect x n).lastCounters drive.name) drive
        ((driveChannel interval collect x n).lastRefresh.map (durationSince (x n).now))) :=
  congrArg Prod.snd (DriveChannel.collectDrives_read h.1 h.2)

/-- No read has failed since the successful one before round `n`. -/
def UnbrokenSince (interval : ℕ) (collect : Bool) (x : ℕ → DriveRound) (n : ℕ) : Prop :=
  ∀ m before, PrecedingRead interval collect x m n before →
    ∀ k, m < k → k < n → ¬ FailedAt interval collect x k

/-- While no read fails, the stored instant is that of the stored counters. -/
theorem lastRefresh_of_unbroken (h : UnbrokenSince interval collect x n) {m t : ℕ}
    {before : List DriveCounters} (hm : PrecedingRead interval collect x m n before)
    (ht : (driveChannel interval collect x n).lastRefresh = some t) : t = (x m).now := by
  obtain ⟨i, hin, ⟨hi, hnow⟩, hlast⟩ := lastRefresh_attempt ht
  have himp : i = m := by
    rcases lt_trichotomy i m with hlt | heq | hgt
    · exact absurd hm.read.1 (hlast m hlt hm.earlier)
    · exact heq
    · cases hr : (x i).read with
      | none => exact absurd ⟨hi, hr⟩ (h m before hm i hgt hin)
      | some l => exact absurd ⟨hi, hr⟩ (hm.nearest i l hgt hin)
  rw [← hnow, himp]

theorem trueReports_of_unbroken (h : UnbrokenSince interval collect x n) :
    TrueReports interval collect x n := by
  intro current hread
  refine ⟨_, driveOutput_read hread, ?_⟩
  rw [List.forall₂_map_right_iff, List.forall₂_same]
  intro drive _ hclaim
  obtain ⟨prev, elapsed, hprev, helapsed⟩ := driveSnapshot_claimed hclaim
  obtain ⟨m, before, hm, hbefore⟩ := lastCounters_read hprev
  obtain ⟨t, ht, hsince⟩ := Option.map_eq_some_iff.mp helapsed
  have hnow : t = (x m).now := lastRefresh_of_unbroken h hm ht
  refine ⟨m, before, prev, hm, hbefore, fun hf => ?_⟩
  rw [hprev, helapsed, ← hsince, hnow]
  exact driveSnapshot_measured _ hf

/-- The counters of a read stay until the next one. -/
theorem lastCounters_since {m : ℕ} {before : List DriveCounters}
    (hm : PrecedingRead interval collect x m n before) :
    (driveChannel interval collect x n).lastCounters = byName before := by
  have hkept : n ≤ n → (driveChannel interval collect x n).lastCounters = byName before := by
    apply Machine.stateAt_from (i := m + 1)
      (P := fun j (s : DriveChannel) => j ≤ n → s.lastCounters = byName before) _ _ hm.earlier
    · intro _
      change (driveChannel interval collect x (m + 1)).lastCounters = byName before
      rw [driveChannel_succ, DriveChannel.collectDrives_read hm.read.1 hm.read.2]
    · intro j hj ih hjn
      change (driveChannel interval collect x (j + 1)).lastCounters = byName before
      have hprev : (driveChannel interval collect x j).lastCounters = byName before :=
        ih (Nat.le_of_succ_le hjn)
      rcases driveChannel_cases (x := x) j with ⟨-, hs⟩ | ⟨-, hs⟩ | ⟨l, hread, -⟩
      · rw [hs, hprev]
      · rw [hs, hprev]
      · exact absurd hread (hm.nearest j l hj hjn)
  exact hkept le_rfl

/-- Once a round has asked for the drives, the stored instant is not older than that round. -/
theorem lastRefresh_since {k : ℕ} (hk : (driveChannel interval collect x k).Reads interval (x k))
    (hkn : k < n) :
    ∃ i, k ≤ i ∧ i < n ∧ (driveChannel interval collect x n).lastRefresh = some (x i).now := by
  apply Machine.stateAt_from (i := k + 1)
    (P := fun j (s : DriveChannel) => ∃ i, k ≤ i ∧ i < j ∧ s.lastRefresh = some (x i).now) _ _ hkn
  · refine ⟨k, le_rfl, k.lt_succ_self, ?_⟩
    rcases driveChannel_cases (x := x) k with ⟨hidle, -⟩ | ⟨-, hs⟩ | ⟨l, -, hs, -⟩
    · exact absurd hk hidle
    · exact congrArg DriveChannel.lastRefresh hs
    · exact hs
  · intro j hj ⟨i, hki, hij, hi⟩
    have hlast : (driveChannel interval collect x j).lastRefresh = some (x i).now := hi
    rcases driveChannel_cases (x := x) j with ⟨-, hs⟩ | ⟨-, hs⟩ | ⟨l, -, hs, -⟩
    · exact ⟨i, hki, by omega, (congrArg DriveChannel.lastRefresh hs).trans hlast⟩
    · exact ⟨j, by omega, j.lt_succ_self, congrArg DriveChannel.lastRefresh hs⟩
    · exact ⟨j, by omega, j.lt_succ_self, hs⟩

theorem PrecedingRead.unique {m m' : ℕ} {before before' : List DriveCounters}
    (h : PrecedingRead interval collect x m n before)
    (h' : PrecedingRead interval collect x m' n before') : m = m' ∧ before = before' := by
  have hm : m = m' := by
    rcases lt_trichotomy m m' with hlt | heq | hgt
    · exact absurd h'.read (h.nearest m' before' hlt h'.earlier)
    · exact heq
    · exact absurd h.read (h'.nearest m before hgt h.earlier)
  subst hm
  have hsome : some before = some before' := h.read.2.symm.trans h'.read.2
  exact ⟨rfl, Option.some.inj hsome⟩

/-- A failed read makes the next figures too large: those of a drive that was busy meanwhile. -/
theorem not_trueReports_of_failed (hclock : ∀ i j, i ≤ j → (x i).now ≤ (x j).now)
    (hlate : ∀ i < n, (x i).now < (x n).now) {m k : ℕ} {before current : List DriveCounters}
    (hm : PrecedingRead interval collect x m n before) (hmk : (x m).now < (x k).now)
    (hkn : k < n) (hk : FailedAt interval collect x k)
    (hn : ReadAt interval collect x n current) {prev c : DriveCounters} (hc : c ∈ current)
    (hprev : byName before c.name = some prev) (hf : Forward prev c)
    (hbusy : prev.readTimeNs + prev.writeTimeNs < c.readTimeNs + c.writeTimeNs)
    (hfits : (c.readTimeNs - prev.readTimeNs) + (c.writeTimeNs - prev.writeTimeNs) ≤ u64Max) :
    ¬ TrueReports interval collect x n := by
  intro htrue
  obtain ⟨i, hki, hin, hlast⟩ := lastRefresh_since hk.1 hkn
  obtain ⟨snapshots, hout, hall⟩ := htrue current hn
  rw [driveOutput_read hn] at hout
  rw [← Option.some.inj hout, List.forall₂_map_right_iff, List.forall₂_same] at hall
  have hreport := hall c hc
  rw [lastCounters_since hm, hprev, hlast, Option.map_some] at hreport
  have hpos : 0 < durationSince (x n).now (x i).now := by
    have := hlate i hin
    unfold durationSince
    omega
  have hq : (driveSnapshot (some prev) c
      (some (durationSince (x n).now (x i).now))).queueDepth =
      queueDepth prev c (durationSince (x n).now (x i).now) := by
    simp [driveSnapshot, diffed_some hpos]
  have hsome := queueDepth_isSome (durationSince (x n).now (x i).now) hf hfits
  obtain ⟨q, hqs⟩ := Option.isSome_iff_exists.mp hsome
  have hclaimed : Claimed (driveSnapshot (some prev) c
      (some (durationSince (x n).now (x i).now))) := by
    right; right; right; right
    rw [hq]
    exact hsome
  obtain ⟨m', before', prev', hm', hprev', hmeasured⟩ := hreport hclaimed
  obtain ⟨rfl, rfl⟩ := hm.unique hm'
  obtain rfl : prev = prev' := Option.some.inj (hprev.symm.trans hprev')
  -- one busy time over two different times
  have hshort := queueDepth_forward hqs
  have hlong := (hmeasured hf).queueDepth q (hq.trans hqs)
  have hwork : (0 : ℚ) < (c.readTimeNs - prev.readTimeNs) + (c.writeTimeNs - prev.writeTimeNs) := by
    have : ((prev.readTimeNs + prev.writeTimeNs : ℕ) : ℚ) < (c.readTimeNs + c.writeTimeNs : ℕ) :=
      by exact_mod_cast hbusy
    push_cast at this
    linarith
  have htimes : (durationSince (x n).now (x i).now : ℚ) < ((x n).now - (x m).now : ℕ) := by
    have hik := hclock k i hki
    have hni := hlate i hin
    unfold durationSince
    exact_mod_cast (by omega : (x n).now - (x i).now < (x n).now - (x m).now)
  have hless := div_lt_div_of_pos_left hwork (by exact_mod_cast hpos) htimes
  rw [← hshort, ← hlong] at hless
  exact lt_irrefl q hless

end Runs

/-- The figures of a read are true when no read has failed since the successful one before it,
and a failed one falsifies those of every drive that was busy since. -/
theorem drive_figures_true (interval : ℕ) (collect : Bool) (x : ℕ → DriveRound)
    (hclock : ∀ i j, i ≤ j → (x i).now ≤ (x j).now) :
    (∀ n, UnbrokenSince interval collect x n → TrueReports interval collect x n) ∧
    ∀ n m k before current prev c, PrecedingRead interval collect x m n before →
      k < n → FailedAt interval collect x k → (x m).now < (x k).now →
      (∀ i < n, (x i).now < (x n).now) → ReadAt interval collect x n current → c ∈ current →
      byName before c.name = some prev → Forward prev c →
      prev.readTimeNs + prev.writeTimeNs < c.readTimeNs + c.writeTimeNs →
      (c.readTimeNs - prev.readTimeNs) + (c.writeTimeNs - prev.writeTimeNs) ≤ u64Max →
      ¬ TrueReports interval collect x n := by
  constructor
  · intro n h
    exact trueReports_of_unbroken h
  · intro n m k before current prev c hm hkn hk hmk hlate hn hc hprev hf hbusy hfits
    exact not_trueReports_of_failed hclock hlate hm hmk hkn hk hn hc hprev hf hbusy hfits

/-- A drive that has done `ops` reads of 4 KiB, each in a microsecond. -/
def drive (ops : ℕ) : DriveCounters :=
  { name := "disk0"
    model := none
    sizeBytes := none
    isRemovable := false
    readOps := ops
    writeOps := 0
    readBytes := ops * 4096
    writeBytes := 0
    readTimeNs := ops * 1000
    writeTimeNs := 0
    readErrors := 0
    writeErrors := 0 }

/-- A hundred reads a second throughout; the read of the counters at 10 s fails. -/
def gap : ℕ → DriveRound
  | 0 => ⟨0, some [drive 0]⟩
  | 1 => ⟨fromSecs 10, none⟩
  | 2 => ⟨fromSecs 11, some [drive 1100]⟩
  | _ => ⟨fromSecs 21, some [drive 2100]⟩

theorem gap_clock (i j : ℕ) (h : i ≤ j) : (gap i).now ≤ (gap j).now := by
  have hstep : ∀ n, (gap n).now ≤ (gap (n + 1)).now := by
    intro n
    match n with
    | 0 | 1 | 2 => decide
    | n + 3 => exact le_rfl
  exact monotone_nat_of_le_succ (f := fun n => (gap n).now) hstep h

theorem gap_first : PrecedingRead 0 true gap 0 2 [drive 0] where
  earlier := by decide
  read := by decide
  nearest := by
    intro k l hk hk2 hread
    obtain rfl : k = 1 := by omega
    exact absurd hread.2 (by simp [gap])

theorem gap_second {m : ℕ} {before : List DriveCounters}
    (h : PrecedingRead 0 true gap m 3 before) : m = 2 := by
  by_contra hm
  have hlt := h.earlier
  exact h.nearest 2 [drive 1100] (by omega) (by decide) (by decide)

theorem drive_forward {a b : ℕ} (h : a ≤ b) : Forward (drive a) (drive b) where
  readOps := h
  writeOps := le_rfl
  readBytes := Nat.mul_le_mul_right 4096 h
  writeBytes := le_rfl
  readTimeNs := Nat.mul_le_mul_right 1000 h
  writeTimeNs := le_rfl

theorem drive_figures_true_gap :
    TrueReports 0 true gap 3 ∧ ¬ TrueReports 0 true gap 2 := by
  obtain ⟨htrue, hfalse⟩ := drive_figures_true 0 true gap gap_clock
  constructor
  · apply htrue
    intro m before hm k hmk hk
    have hm2 := gap_second hm
    omega
  · exact hfalse 2 0 1 [drive 0] [drive 1100] (drive 0) (drive 1100) gap_first (by decide)
      (by decide) (by decide) (by decide) (by decide) (by decide) rfl
      (drive_forward (by decide)) (by decide) (by decide)

/-- The drive's hundred reads a second are reported as eleven hundred. -/
theorem gap_inflated :
    (driveOutput 0 true gap 2).map (fun snapshots => snapshots.map (·.readOpsPerSec)) =
      some [some 1100] ∧
    perSec 0 1100 (fromSecs 11) = 100 ∧ ¬ TrueReports 0 true gap 2 := by
  refine ⟨by decide +kernel, by decide +kernel, ?_⟩
  have hread : ReadAt 0 true gap 2 [drive 1100] := by decide
  have hprev : byName [drive 0] (drive 1100).name = some (drive 0) := rfl
  exact not_trueReports_of_failed gap_clock (by decide) gap_first (k := 1) (by decide) (by decide)
    (by decide) hread (List.mem_singleton_self _) hprev (drive_forward (by decide)) (by decide)
    (by decide)

end Zstats
