import Mathlib.Data.String.Basic
import Zstats.Collector.DiskRates
import Zstats.Framework.FirstBest

namespace Zstats

def mountLength (d : DiskSnapshot) : ℕ := d.mountPoint.utf8ByteSize

def named (name : String) (d : DiskSnapshot) : Bool := decide (d.name = name)

/-- The first, among the disks of its name, with the shortest mount point. -/
def FirstShortest (disks : List DiskSnapshot) (d : DiskSnapshot) : Prop :=
  FirstBest.First mountLength (named d.name) disks d

theorem bestDisk_scan (disks : List DiskSnapshot) {name : String} (hname : name ≠ "") :
    bestDisk disks name = FirstBest.scan (FirstBest.smaller mountLength) (named name) disks := by
  rw [bestDisk, FirstBest.scan]
  congr 1
  funext best disk
  by_cases hsame : disk.name = name
  · have hkept : ¬ (disk.name = "" ∨ disk.name ≠ name) := by
      intro hcase
      rcases hcase with hempty | hother
      · exact hname (hsame.symm.trans hempty)
      · exact hother hsame
    rw [if_neg hkept]
    cases best with
    | none => simp [named, hsame]
    | some existing =>
      by_cases hle : existing.mountPoint.utf8ByteSize ≤ disk.mountPoint.utf8ByteSize
      · have hnot := Nat.not_lt.mpr hle
        simp [named, hsame, FirstBest.smaller, mountLength, hnot, hle]
      · have hlt := Nat.lt_of_not_le hle
        simp [named, hsame, FirstBest.smaller, mountLength, hlt]
  · rw [if_pos (Or.inr hsame)]
    simp [named, hsame]

theorem bestDisk_eq_some {disks : List DiskSnapshot} {name : String} (hname : name ≠ "")
    {d : DiskSnapshot} : bestDisk disks name = some d ↔ d.name = name ∧ FirstShortest disks d := by
  rw [bestDisk_scan disks hname, FirstBest.scan_eq_some]
  constructor
  · intro h
    have hd : d.name = name := of_decide_eq_true h.1
    refine ⟨hd, ?_⟩
    rw [FirstShortest, hd]
    exact h
  · intro hcase
    obtain ⟨rfl, h⟩ := hcase
    exact h

/-- The keys of the map, in the order in which it happens to be walked. -/
structure MapKeys (disks : List DiskSnapshot) (names : List String) : Prop where
  nodup : names.Nodup
  mem_iff : ∀ name, name ∈ names ↔ name ≠ "" ∧ ∃ d ∈ disks, d.name = name

variable {disks : List DiskSnapshot} {names : List String}

theorem mem_dedupe (hkeys : MapKeys disks names) (d : DiskSnapshot) :
    d ∈ dedupeDisksByName names disks ↔
      d.name = "" ∧ d ∈ disks ∨ d.name ≠ "" ∧ FirstShortest disks d := by
  rw [dedupeDisksByName, List.mem_insertionSort, List.mem_append, List.mem_filterMap,
    List.mem_filter, decide_eq_true_eq]
  constructor
  · intro hcase
    rcases hcase with ⟨name, hname, hbest⟩ | ⟨hmem, hempty⟩
    · obtain ⟨hne, -⟩ := (hkeys.mem_iff name).mp hname
      obtain ⟨rfl, hfirst⟩ := (bestDisk_eq_some hne).mp hbest
      exact Or.inr ⟨hne, hfirst⟩
    · exact Or.inl ⟨hempty, hmem⟩
  · intro hcase
    rcases hcase with ⟨hempty, hmem⟩ | ⟨hne, hfirst⟩
    · exact Or.inr ⟨hmem, hempty⟩
    · left
      have hname := (hkeys.mem_iff d.name).mpr ⟨hne, d, hfirst.mem, rfl⟩
      exact ⟨d.name, hname, (bestDisk_eq_some hne).mpr ⟨rfl, hfirst⟩⟩

theorem nodup_best (hkeys : MapKeys disks names) : (names.filterMap (bestDisk disks)).Nodup := by
  have hinj : ∀ name ∈ names, ∀ name' ∈ names, ∀ d, bestDisk disks name = some d →
      bestDisk disks name' = some d → name = name' := by
    intro name hname name' hname' d hd hd'
    have hn := (bestDisk_eq_some ((hkeys.mem_iff name).mp hname).1).mp hd
    have hn' := (bestDisk_eq_some ((hkeys.mem_iff name').mp hname').1).mp hd'
    exact hn.1.symm.trans hn'.1
  have hpairwise : names.Pairwise fun name name' => ∀ d, bestDisk disks name = some d →
      ∀ d', bestDisk disks name' = some d' → d ≠ d' := by
    apply List.Pairwise.imp_of_mem _ hkeys.nodup
    intro name name' hname hname' hne d hd d' hd' heq
    subst heq
    exact hne (hinj name hname name' hname' d hd hd')
  exact List.pairwise_filterMap.mpr hpairwise

theorem nodup_dedupe (hkeys : MapKeys disks names) (hdisks : disks.Nodup) :
    (dedupeDisksByName names disks).Nodup := by
  rw [dedupeDisksByName, (List.perm_insertionSort _ _).nodup_iff, List.nodup_append]
  refine ⟨nodup_best hkeys, hdisks.filter _, ?_⟩
  rintro a hbest b hunnamed rfl
  obtain ⟨name, hname, hd⟩ := List.mem_filterMap.mp hbest
  obtain ⟨hne, -⟩ := (hkeys.mem_iff name).mp hname
  have hempty : a.name = "" := by simpa using (List.mem_filter.mp hunnamed).2
  exact hne (((bestDisk_eq_some hne).mp hd).1.symm.trans hempty)

/-- The order of the mount points. -/
def ByMount (a b : DiskSnapshot) : Prop := a.mountPoint ≤ b.mountPoint

instance : DecidableRel ByMount := fun a b => inferInstanceAs (Decidable (a.mountPoint ≤ b.mountPoint))

instance : Std.Total ByMount := ⟨fun a b => le_total a.mountPoint b.mountPoint⟩

instance : IsTrans DiskSnapshot ByMount := ⟨fun _ _ _ hab hbc => le_trans hab hbc⟩

theorem dedupe_sorted (names : List String) (disks : List DiskSnapshot) :
    (dedupeDisksByName names disks).Pairwise ByMount :=
  List.pairwise_insertionSort ByMount _

/-- Sorted lists of the same disks are the same, where no two disks share a mount point. -/
theorem sorted_ext {out out' : List DiskSnapshot}
    (hmounts : ∀ a ∈ disks, ∀ b ∈ disks, a.mountPoint = b.mountPoint → a = b)
    (hmem : ∀ d, d ∈ out ↔ d ∈ out') (hdisks : ∀ d ∈ out, d ∈ disks) (hnodup : out.Nodup)
    (hnodup' : out'.Nodup) (hsorted : out.Pairwise ByMount) (hsorted' : out'.Pairwise ByMount) :
    out = out' := by
  have hperm : out.Perm out' := (List.perm_ext_iff_of_nodup hnodup hnodup').mpr hmem
  refine hperm.eq_of_pairwise ?_ hsorted hsorted'
  intro a b ha hb hab hba
  exact hmounts a (hdisks a ha) b (hdisks b ((hmem b).mpr hb)) (le_antisymm hab hba)

theorem mount_injective (hmounts : (disks.map DiskSnapshot.mountPoint).Nodup) :
    ∀ a ∈ disks, ∀ b ∈ disks, a.mountPoint = b.mountPoint → a = b :=
  List.inj_on_of_nodup_map hmounts

/-- The walk of the map does not matter. -/
theorem dedupe_order_free (hmounts : (disks.map DiskSnapshot.mountPoint).Nodup)
    (hkeys : MapKeys disks names) {names' : List String} (hkeys' : MapKeys disks names') :
    dedupeDisksByName names' disks = dedupeDisksByName names disks := by
  have hdisks := hmounts.of_map
  refine sorted_ext (mount_injective hmounts) ?_ ?_ (nodup_dedupe hkeys' hdisks)
    (nodup_dedupe hkeys hdisks) (dedupe_sorted _ _) (dedupe_sorted _ _)
  · intro d
    rw [mem_dedupe hkeys', mem_dedupe hkeys]
  · intro d hd
    exact mem_of_dedupe hd

/-- A disk that stays is the only one of its name. -/
theorem dedupe_name_unique (hkeys : MapKeys disks names) {a b : DiskSnapshot}
    (ha : a ∈ dedupeDisksByName names disks) (hb : b ∈ dedupeDisksByName names disks)
    (hname : a.name = b.name) (hne : a.name ≠ "") : a = b := by
  obtain ⟨hempty, -⟩ | ⟨-, hfirst⟩ := (mem_dedupe hkeys a).mp ha
  · exact absurd hempty hne
  obtain ⟨hempty, -⟩ | ⟨-, hfirst'⟩ := (mem_dedupe hkeys b).mp hb
  · exact absurd (hname.trans hempty) hne
  rw [FirstShortest, ← hname] at hfirst'
  exact hfirst.unique hfirst'

theorem firstShortest_of_unique {out : List DiskSnapshot} (hnodup : out.Nodup)
    {d : DiskSnapshot} (hd : d ∈ out) (hunique : ∀ b ∈ out, b.name = d.name → b = d) :
    FirstShortest out d := by
  obtain ⟨before, after, rfl⟩ := List.append_of_mem hd
  have hapart := (List.nodup_middle.mp hnodup)
  have hnew := (List.nodup_cons.mp hapart).1
  refine ⟨decide_eq_true rfl, before, after, rfl, ?_, ?_⟩
  · intro b hb hname
    have heq := hunique b (by simp [hb]) (of_decide_eq_true hname)
    exact absurd (List.mem_append_left _ (heq ▸ hb)) hnew
  · intro b hb hname
    have heq := hunique b (by simp [hb]) (of_decide_eq_true hname)
    exact absurd (List.mem_append_right _ (heq ▸ hb)) hnew

theorem dedupe_idempotent (hmounts : (disks.map DiskSnapshot.mountPoint).Nodup)
    (hkeys : MapKeys disks names) {names' : List String}
    (hkeys' : MapKeys (dedupeDisksByName names disks) names') :
    dedupeDisksByName names' (dedupeDisksByName names disks) = dedupeDisksByName names disks := by
  have hnodup := nodup_dedupe hkeys hmounts.of_map
  refine sorted_ext (mount_injective hmounts) ?_ ?_ (nodup_dedupe hkeys' hnodup) hnodup
    (dedupe_sorted _ _) (dedupe_sorted _ _)
  · intro d
    rw [mem_dedupe hkeys']
    constructor
    · intro hcase
      rcases hcase with ⟨-, hmem⟩ | ⟨-, hfirst⟩
      · exact hmem
      · exact hfirst.mem
    · intro hmem
      by_cases hempty : d.name = ""
      · exact Or.inl ⟨hempty, hmem⟩
      · refine Or.inr ⟨hempty, firstShortest_of_unique hnodup hmem ?_⟩
        intro b hb hname
        exact (dedupe_name_unique hkeys hmem hb hname.symm hempty).symm
  · intro d hd
    exact mem_of_dedupe (mem_of_dedupe hd)

/-- What a list of disks comes down to without duplicates. -/
structure Deduped (disks out : List DiskSnapshot) : Prop where
  sorted : out.Pairwise ByMount
  unnamed : (out.filter (named "")).Perm (disks.filter (named ""))
  one : ∀ name ≠ "", (∃ d ∈ disks, d.name = name) →
    ∃ d, out.filter (named name) = [d] ∧ FirstShortest disks d
  nothingElse : ∀ d ∈ out, d.name = "" ∧ d ∈ disks ∨ d.name ≠ "" ∧ FirstShortest disks d

theorem dedupe_unnamed (hkeys : MapKeys disks names) (hdisks : disks.Nodup) :
    ((dedupeDisksByName names disks).filter (named "")).Perm (disks.filter (named "")) := by
  apply (List.perm_ext_iff_of_nodup ((nodup_dedupe hkeys hdisks).filter _) (hdisks.filter _)).mpr
  intro d
  rw [List.mem_filter, List.mem_filter, named, decide_eq_true_eq, mem_dedupe hkeys]
  constructor
  · intro hcase
    obtain ⟨⟨-, hmem⟩ | ⟨hne, -⟩, hempty⟩ := hcase
    · exact ⟨hmem, hempty⟩
    · exact absurd hempty hne
  · intro hcase
    obtain ⟨hmem, hempty⟩ := hcase
    exact ⟨Or.inl ⟨hempty, hmem⟩, hempty⟩

theorem dedupe_one (hkeys : MapKeys disks names) (hdisks : disks.Nodup) {name : String}
    (hne : name ≠ "") (hsome : ∃ d ∈ disks, d.name = name) :
    ∃ d, (dedupeDisksByName names disks).filter (named name) = [d] ∧ FirstShortest disks d := by
  have hbest : bestDisk disks name ≠ none := by
    rw [bestDisk_scan disks hne, Ne, FirstBest.scan_eq_none]
    intro hnone
    obtain ⟨d, hd, rfl⟩ := hsome
    have hfalse := hnone d hd
    simp [named] at hfalse
  obtain ⟨d, hd⟩ := Option.ne_none_iff_exists'.mp hbest
  obtain ⟨rfl, hfirst⟩ := (bestDisk_eq_some hne).mp hd
  have hmem := (mem_dedupe hkeys d).mpr (Or.inr ⟨hne, hfirst⟩)
  refine ⟨d, ?_, hfirst⟩
  apply List.perm_singleton.mp
  apply (List.perm_ext_iff_of_nodup ((nodup_dedupe hkeys hdisks).filter _) (List.nodup_singleton d)).mpr
  intro b
  rw [List.mem_filter, List.mem_singleton, named, decide_eq_true_eq]
  constructor
  · intro hcase
    obtain ⟨hb, hname⟩ := hcase
    exact dedupe_name_unique hkeys hb hmem hname (hname ▸ hne)
  · intro heq
    subst heq
    exact ⟨hmem, rfl⟩

theorem dedupe_deduped (hkeys : MapKeys disks names) (hdisks : disks.Nodup) :
    Deduped disks (dedupeDisksByName names disks) where
  sorted := dedupe_sorted names disks
  unnamed := dedupe_unnamed hkeys hdisks
  one := fun _ hne hsome => dedupe_one hkeys hdisks hne hsome
  nothingElse := fun d hd => (mem_dedupe hkeys d).mp hd

/-- The disks kept, whatever the order in which the map is walked; a second time changes nothing. -/
theorem dedupe_exact (disks : List DiskSnapshot) (hmounts : (disks.map DiskSnapshot.mountPoint).Nodup)
    (names : List String) (hkeys : MapKeys disks names) :
    Deduped disks (dedupeDisksByName names disks) ∧
    (∀ names', MapKeys disks names' → dedupeDisksByName names' disks = dedupeDisksByName names disks) ∧
    ∀ names', MapKeys (dedupeDisksByName names disks) names' →
      dedupeDisksByName names' (dedupeDisksByName names disks) = dedupeDisksByName names disks :=
  ⟨dedupe_deduped hkeys hmounts.of_map, fun _ => dedupe_order_free hmounts hkeys,
    fun _ => dedupe_idempotent hmounts hkeys⟩

/-- A volume of a disk and a mount point of its own. -/
def apfsVolume (name mountPoint : String) : DiskSnapshot :=
  { name := name, mountPoint := mountPoint, fileSystem := "apfs", kind := "SSD", isRemovable := false
    totalBytes := 100, availableBytes := 40, usedPercent := 60
    readBytesPerSec := none, writeBytesPerSec := none }

/-- One device at two mount points, and a volume without a label. -/
theorem dedupe_exact_synthetic :
    let disks := [apfsVolume "disk0" "/System/Volumes/Data", apfsVolume "disk0" "/", apfsVolume "" "/X"]
    Deduped disks (dedupeDisksByName ["disk0"] disks) ∧
    (∀ names', MapKeys disks names' →
      dedupeDisksByName names' disks = dedupeDisksByName ["disk0"] disks) ∧
    ∀ names', MapKeys (dedupeDisksByName ["disk0"] disks) names' →
      dedupeDisksByName names' (dedupeDisksByName ["disk0"] disks) = dedupeDisksByName ["disk0"] disks := by
  apply dedupe_exact
  · decide
  · constructor
    · decide
    · intro name
      constructor
      · intro hname
        rw [List.mem_singleton.mp hname]
        decide
      · intro hcase
        obtain ⟨hne, d, hd, rfl⟩ := hcase
        simp only [List.mem_cons, List.not_mem_nil, or_false] at hd
        obtain rfl | rfl | rfl := hd
        · decide
        · decide
        · exact absurd rfl hne

end Zstats
