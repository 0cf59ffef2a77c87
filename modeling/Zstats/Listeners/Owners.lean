import Mathlib.Data.Set.Basic
import Zstats.Listeners.Procnet

namespace Zstats.Procnet

open FirstClaim Text

/-- The link of a socket's descriptor, as the kernel prints it. -/
def socketLink (inode : ℕ) : List Char :=
  "socket:[".toList ++ (Nat.toDigits 10 inode ++ "]".toList)

theorem socketInode_link {inode : ℕ} (h : inode ≤ u64Max) :
    socketInode (socketLink inode) = some inode := by
  have hlink : socketLink inode =
      "socket:[".toList ++ (Nat.toDigits 10 inode ++ "]".toList) := rfl
  rw [hlink, socketInode, stripPrefix_append, Option.bind_some, stripSuffix_append,
    Option.bind_some, parseUnsigned_toDigits h]

theorem prefix_of_socketInode {link : List Char} {inode : ℕ} (h : socketInode link = some inode) :
    "socket:[".toList <+: link := by
  by_contra hnot
  have hnone : stripPrefix "socket:[".toList link = none := by
    rw [stripPrefix, if_neg fun hprefix => hnot (List.isPrefixOf_iff_prefix.mp hprefix)]
  rw [socketInode, hnone] at h
  cases h

/-- A character that is in no numeral. -/
theorem parseUnsigned_none {max : ℕ} {text : List Char} {c : Char} (hmem : c ∈ text)
    (hplus : c ≠ '+') (hdigit : ¬ c.isDigit) : parseUnsigned max text = none := by
  have hdigits : c ∈ if text.head? = some '+' then text.tail else text := by
    split_ifs with hhead
    · obtain ⟨rest, rfl⟩ := List.head?_eq_some_iff.mp hhead
      exact (List.mem_cons.mp hmem).resolve_left hplus
    · exact hmem
  rw [parseUnsigned]
  apply if_pos
  right
  intro hall
  exact hdigit (List.all_eq_true.mp hall c hdigits)

/-- The sockets that a process's descriptors name. -/
def Procfs.shown (proc : Procfs) (pid : ℕ) : List ℕ :=
  match proc.fds pid with
  | .ok links => links.filterMap (·.bind socketInode)
  | .error _ => []

def Procfs.offers (proc : Procfs) (wanted : Finset ℕ) (pid : ℕ) : List ℕ :=
  (proc.shown pid).filter (· ∈ wanted)

def Procfs.denies (proc : Procfs) (pid : ℕ) : Bool :=
  match proc.fds pid with
  | .error .permissionDenied => true
  | _ => false

variable {proc : Procfs} {wanted : Finset ℕ} {pids : List ℕ} {found : Found} {denied : Bool}

theorem foldl_record (pid : ℕ) (links : List (Option (List Char))) :
    links.foldl (record wanted pid) found =
      claimAll found ((links.filterMap (·.bind socketInode)).filter (· ∈ wanted)) pid := by
  induction links generalizing found with
  | nil => rfl
  | cons link links ih =>
    rw [List.foldl_cons, ih, record, List.filterMap_cons]
    cases link.bind socketInode with
    | none => rfl
    | some inode =>
      by_cases hwanted : inode ∈ wanted
      · have hfilter (inodes : List ℕ) : (inode :: inodes).filter (· ∈ wanted) =
            inode :: inodes.filter (· ∈ wanted) :=
          List.filter_cons_of_pos (by simpa using hwanted)
        dsimp only
        rw [if_pos hwanted, hfilter]
        rfl
      · have hfilter (inodes : List ℕ) : (inode :: inodes).filter (· ∈ wanted) =
            inodes.filter (· ∈ wanted) :=
          List.filter_cons_of_neg (by simpa using hwanted)
        dsimp only
        rw [if_neg hwanted, hfilter]

/-- A process that could be read claims what it offers; any other claims nothing. -/
theorem scan_cons (pid : ℕ) (h : found.keys.length ≠ wanted.card) :
    proc.scan wanted (pid :: pids) found denied =
      proc.scan wanted pids (claimAll found (proc.offers wanted pid) pid)
        (denied || proc.denies pid) := by
  rw [Procfs.scan, if_neg h, Procfs.offers, Procfs.shown, Procfs.denies]
  cases proc.fds pid with
  | ok links => simp [foldl_record]
  | error kind => cases kind <;> simp [claimAll]

theorem find_offers {inode : ℕ} (h : inode ∉ wanted) :
    pids.find? (fun pid => decide (inode ∈ proc.offers wanted pid)) = none := by
  apply List.find?_eq_none.mpr
  intro pid _ hoffer
  have hmem := of_decide_eq_true hoffer
  exact h (by simpa using (List.mem_filter.mp hmem).2)

/-- The scan finds what all the processes in turn would claim, although it stops early. -/
theorem scan_lookup (hsub : ∀ inode ∈ found, inode ∈ wanted) (inode : ℕ) :
    (proc.scan wanted pids found denied).1.lookup inode =
      (claimants (proc.offers wanted) found pids).lookup inode := by
  induction pids generalizing found denied with
  | nil => rfl
  | cons pid pids ih =>
    by_cases hfull : found.keys.length = wanted.card
    · rw [Procfs.scan, if_pos hfull, lookup_claimants]
      by_cases hwanted : inode ∈ wanted
      · have hmem := mem_of_full hsub (Nat.le_of_eq hfull.symm) hwanted
        obtain ⟨owner, howner⟩ := Option.isSome_iff_exists.mp (AList.lookup_isSome.mpr hmem)
        rw [howner, Option.some_or]
      · rw [find_offers hwanted, Option.or_none]
    · rw [scan_cons pid hfull]
      apply ih
      intro inode hmem
      obtain hmem | hmem := mem_claimAll.mp hmem
      · exact hsub inode hmem
      · simpa using (List.mem_filter.mp hmem).2

/-- While something is not found, no denial is missed. -/
theorem scan_denied (h : (proc.scan wanted pids found denied).1.keys.length ≠ wanted.card) :
    (proc.scan wanted pids found denied).2 = (denied || pids.any proc.denies) := by
  induction pids generalizing found denied with
  | nil => simp [Procfs.scan]
  | cons pid pids ih =>
    by_cases hfull : found.keys.length = wanted.card
    · rw [Procfs.scan, if_pos hfull] at h
      exact absurd hfull h
    · rw [scan_cons pid hfull] at h ⊢
      rw [ih h, List.any_cons, Bool.or_assoc]

/-- An inode's owner is the first listed process that names it. -/
theorem owners_lookup (inode : ℕ) :
    (proc.owners wanted).1.lookup inode =
      proc.pids.find? fun pid => decide (inode ∈ proc.offers wanted pid) := by
  have hempty : ∀ inode ∈ (∅ : Found), inode ∈ wanted := fun inode h => by
    exact absurd h (AList.notMem_empty inode)
  rw [Procfs.owners]
  dsimp only
  rw [scan_lookup hempty, lookup_claimants, AList.lookup_empty, Option.none_or]

/-- `/proc` lists the process. -/
def Procfs.Lists (proc : Procfs) (pid : ℕ) : Prop :=
  some (Nat.toDigits 10 pid) ∈ proc.names.getD []

/-- The processes behind `/proc`, as the kernel lists them and prints what they hold. -/
structure Processes (proc : Procfs) where
  held : ℕ → Set ℕ
  /-- The processes that live as long as the scan takes. -/
  alive : Set ℕ
  /-- A name is a pid, or has a character that is in none. -/
  names : ∀ name, some name ∈ proc.names.getD [] →
    (∃ pid ≤ u32Max, name = Nat.toDigits 10 pid) ∨ ∃ c ∈ name, c ≠ '+' ∧ ¬ c.isDigit
  /-- A link is a socket's, or does not begin as one. -/
  links : ∀ pid links, proc.fds pid = .ok links → ∀ link, some link ∈ links →
    (∃ inode ≤ u64Max, link = socketLink inode) ∨ ¬ "socket:[".toList <+: link
  /-- Descriptors that could be read are linked to the sockets held. -/
  shown : ∀ pid links, proc.fds pid = .ok links →
    ∀ inode, inode ∈ held pid ↔ inode ≤ u64Max ∧ some (socketLink inode) ∈ links
  exited : ∀ pid, proc.fds pid = .error .notFound → pid ∉ alive

/-- A listed process whose descriptors could be read and that holds the socket. -/
def Processes.Shows (world : Processes proc) (inode pid : ℕ) : Prop :=
  proc.Lists pid ∧ (∃ links, proc.fds pid = .ok links) ∧ inode ∈ world.held pid

/-- A socket of a process that lives. -/
def Processes.Owned (world : Processes proc) (inode : ℕ) : Prop :=
  ∃ pid ∈ world.alive, inode ∈ world.held pid

/-- The pids that are read of the names. -/
theorem Processes.mem_pids (world : Processes proc) (pid : ℕ) : pid ∈ proc.pids ↔ proc.Lists pid := by
  rw [Procfs.pids, List.mem_insertionSort, List.mem_filterMap, Procfs.Lists]
  constructor
  · rintro ⟨name, hname, hpid⟩
    obtain ⟨text, rfl, hread⟩ := Option.bind_eq_some_iff.mp hpid
    rcases world.names text hname with ⟨pid', hle, rfl⟩ | ⟨c, hmem, hplus, hdigit⟩
    · rw [parseUnsigned_toDigits hle] at hread
      cases hread
      exact hname
    · rw [parseUnsigned_none hmem hplus hdigit] at hread
      cases hread
  · intro h
    refine ⟨_, h, ?_⟩
    rcases world.names _ h with ⟨pid', hle, heq⟩ | ⟨c, hmem, -, hdigit⟩
    · have hpid : parseUnsigned u32Max (Nat.toDigits 10 pid) = some pid' := by
        rw [heq, parseUnsigned_toDigits hle]
      obtain rfl : pid = pid' := by
        rw [← @Nat.ofDigitChars_ten_toDigits pid, heq, Nat.ofDigitChars_ten_toDigits]
      exact hpid
    · exact absurd (Nat.isDigit_of_mem_toDigits (by decide) (Nat.le_refl 10) hmem) hdigit

/-- The inodes that are read of the links. -/
theorem Processes.held_iff (world : Processes proc) {pid : ℕ} {links : List (Option (List Char))}
    (h : proc.fds pid = .ok links) (inode : ℕ) :
    inode ∈ world.held pid ↔ ∃ link ∈ links, link.bind socketInode = some inode := by
  rw [world.shown pid links h]
  constructor
  · rintro ⟨hle, hmem⟩
    exact ⟨_, hmem, socketInode_link hle⟩
  · rintro ⟨link, hmem, hread⟩
    obtain ⟨text, rfl, hinode⟩ := Option.bind_eq_some_iff.mp hread
    rcases world.links pid links h text hmem with ⟨inode', hle, rfl⟩ | hplain
    · rw [socketInode_link hle] at hinode
      cases hinode
      exact ⟨hle, hmem⟩
    · exact absurd (prefix_of_socketInode hinode) hplain

variable (world : Processes proc) {inode pid : ℕ}

theorem mem_offers : inode ∈ proc.offers wanted pid ↔
    inode ∈ wanted ∧ (∃ links, proc.fds pid = .ok links) ∧ inode ∈ world.held pid := by
  rw [Procfs.offers, List.mem_filter, decide_eq_true_iff, and_comm, Procfs.shown]
  cases hfds : proc.fds pid with
  | ok links => simp [world.held_iff hfds, List.mem_filterMap]
  | error kind => simp

theorem denies_iff : proc.denies pid = true ↔ proc.fds pid = .error .permissionDenied := by
  rw [Procfs.denies]
  cases proc.fds pid with
  | ok links => simp
  | error kind => cases kind <;> simp

/-- A found socket goes to the lowest listed process that could be read and holds it. -/
theorem owner_lowest {owner : ℕ} (h : (proc.owners wanted).1.lookup inode = some owner) :
    inode ∈ wanted ∧ world.Shows inode owner ∧ ∀ pid, world.Shows inode pid → owner ≤ pid := by
  rw [owners_lookup] at h
  have hsorted : proc.pids.Pairwise (· ≤ ·) := List.pairwise_insertionSort _ _
  obtain ⟨hmem, hoffer, hleast⟩ := find_least hsorted h
  obtain ⟨hwanted, hreadable, hheld⟩ := (mem_offers world).mp (of_decide_eq_true hoffer)
  refine ⟨hwanted, ⟨(world.mem_pids owner).mp hmem, hreadable, hheld⟩, ?_⟩
  rintro pid ⟨hpid, hread, hhold⟩
  exact hleast pid ((world.mem_pids pid).mpr hpid)
    (decide_eq_true ((mem_offers world).mpr ⟨hwanted, hread, hhold⟩))

theorem owner_isSome (hwanted : inode ∈ wanted) :
    (∃ owner, (proc.owners wanted).1.lookup inode = some owner) ↔
      ∃ pid, world.Shows inode pid := by
  constructor
  · rintro ⟨owner, howner⟩
    exact ⟨owner, (owner_lowest world howner).2.1⟩
  · rintro ⟨pid, hpid, hread, hhold⟩
    rw [owners_lookup]
    apply Option.isSome_iff_exists.mp
    rw [List.find?_isSome]
    exact ⟨pid, (world.mem_pids pid).mpr hpid,
      decide_eq_true ((mem_offers world).mpr ⟨hwanted, hread, hhold⟩)⟩

theorem owners_wanted {inode : ℕ} (h : inode ∈ (proc.owners wanted).1) : inode ∈ wanted := by
  by_contra hwanted
  have hlookup := AList.lookup_isSome.mpr h
  rw [owners_lookup, find_offers hwanted] at hlookup
  cases hlookup

include world in
/-- When the lookup claims to have seen every process. -/
theorem coverage_all_iff : (proc.owners wanted).2 = .allProcesses ↔
    (∀ inode ∈ wanted, ∃ owner, (proc.owners wanted).1.lookup inode = some owner) ∨
      ∀ pid, proc.Lists pid → proc.fds pid ≠ .error .permissionDenied := by
  have hsub : ∀ inode ∈ (proc.owners wanted).1, inode ∈ wanted := fun _ => owners_wanted
  by_cases hfull : (proc.owners wanted).1.keys.length = wanted.card
  · have hcoverage : (proc.owners wanted).2 = .allProcesses := by
      change (if _ && decide ((proc.owners wanted).1.keys.length < wanted.card) then _ else _) = _
      simp [hfull]
    constructor
    · intro
      left
      intro inode hwanted
      have hmem := mem_of_full hsub (Nat.le_of_eq hfull.symm) hwanted
      exact Option.isSome_iff_exists.mp (AList.lookup_isSome.mpr hmem)
    · intro
      exact hcoverage
  · have hlt : (proc.owners wanted).1.keys.length < wanted.card :=
      lt_of_le_of_ne (length_le hsub) hfull
    have hdenied : (proc.scan wanted proc.pids ∅ false).2 = proc.pids.any proc.denies := by
      rw [scan_denied hfull, Bool.false_or]
    have hcoverage : (proc.owners wanted).2 =
        if proc.pids.any proc.denies then .ownProcessesOnly else .allProcesses := by
      change (if (proc.scan wanted proc.pids ∅ false).2 &&
        decide ((proc.owners wanted).1.keys.length < wanted.card) then _ else _) = _
      rw [hdenied, decide_eq_true hlt, Bool.and_true]
    have hnone : (∀ pid, proc.Lists pid → proc.fds pid ≠ .error .permissionDenied) ↔
        ¬proc.pids.any proc.denies = true := by
      simp [denies_iff, world.mem_pids]
    rw [hcoverage, hnone]
    constructor
    · intro hall
      right
      intro hany
      rw [if_pos hany] at hall
      cases hall
    · rintro (hfound | hno)
      · have hmem : ∀ inode ∈ wanted, inode ∈ (proc.owners wanted).1 := fun inode hwanted =>
          AList.lookup_isSome.mp (Option.isSome_iff_exists.mpr (hfound inode hwanted))
        exact absurd (le_length hmem) (Nat.not_le.mpr hlt)
      · rw [if_neg hno]

/-- What the lookup says of every process holds of a view exactly when what lives and owns a wanted
socket is shown, or a listed process denies its descriptors. -/
theorem owners_honest_iff (proc : Procfs) (world : Processes proc) (wanted : Finset ℕ) :
    (((proc.owners wanted).2 = .allProcesses →
        ∀ inode ∈ wanted, world.Owned inode →
          ∃ owner, (proc.owners wanted).1.lookup inode = some owner) ↔
      (∀ inode ∈ wanted, world.Owned inode → ∃ pid, world.Shows inode pid) ∨
        ∃ pid, proc.Lists pid ∧ proc.fds pid = .error .permissionDenied) ∧
    ∀ inode owner, (proc.owners wanted).1.lookup inode = some owner →
      world.Shows inode owner ∧ ∀ pid, world.Shows inode pid → owner ≤ pid := by
  refine ⟨?_, fun inode owner h => (owner_lowest world h).2⟩
  rw [coverage_all_iff world]
  constructor
  · intro hhonest
    by_cases hdenied : ∃ pid, proc.Lists pid ∧ proc.fds pid = .error .permissionDenied
    · exact .inr hdenied
    · left
      intro inode hwanted howned
      have hnone : ∀ pid, proc.Lists pid → proc.fds pid ≠ .error .permissionDenied :=
        fun pid hpid herror => hdenied ⟨pid, hpid, herror⟩
      exact (owner_isSome world hwanted).mp (hhonest (.inr hnone) inode hwanted howned)
  · rintro (hshown | ⟨pid, hpid, herror⟩) hall inode hwanted howned
    · exact (owner_isSome world hwanted).mpr (hshown inode hwanted howned)
    · obtain hfound | hnone := hall
      · exact hfound inode hwanted
      · exact absurd herror (hnone pid hpid)

/-- Process 7 is listed, and its descriptors cannot be read for want of a descriptor (errno 24). -/
def crowded : Procfs where
  names := some [some "7".toList]
  fds _ := .error (.other 24)

/-- Process 7 holds socket 5 and lives. -/
def crowdedWorld : Processes crowded where
  held _ := {5}
  alive := {7}
  names := by
    intro name hname
    obtain rfl := Option.some.inj (List.mem_singleton.mp hname)
    exact Or.inl ⟨7, by decide, rfl⟩
  links := fun _ _ h => by cases h
  shown := fun _ _ h => by cases h
  exited := fun _ h => by cases h

/-- The lookup claims to have seen every process, and socket 5 has no owner. -/
theorem crowded_unowned :
    (crowded.owners {5}).2 = .allProcesses ∧ crowdedWorld.Owned 5 ∧
      (crowded.owners {5}).1.lookup 5 = none := by
  refine ⟨by decide, ⟨7, rfl, rfl⟩, by decide⟩

end Zstats.Procnet
