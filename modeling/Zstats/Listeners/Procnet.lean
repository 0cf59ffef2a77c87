import Mathlib.Data.List.Sort
import Zstats.Framework.FirstClaim
import Zstats.Framework.Text
import Zstats.Snapshot

namespace Zstats

/-- How far owner lookup reached. -/
inductive OwnerCoverage where
  | allProcesses
  | ownProcessesOnly
  deriving DecidableEq, Repr

namespace Procnet

open FirstClaim Text

inductive ErrorKind where
  | permissionDenied
  | notFound
  | other (errno : ℤ)
  deriving DecidableEq, Repr

/-- What reading `/proc` gives. An entry whose name, or a descriptor whose link, cannot be had or is
no text is `none`. -/
structure Procfs where
  /-- `read_dir("/proc")`, `none` when it fails. -/
  names : Option (List (Option (List Char)))
  /-- `read_dir("/proc/{pid}/fd")`, each descriptor with its link. -/
  fds : ℕ → Except ErrorKind (List (Option (List Char)))

abbrev Found := Claims ℕ ℕ

def u32Max : ℕ := 2 ^ 32 - 1

/-- `socket:[12345]` is 12345; any other link is no socket. -/
def socketInode (link : List Char) : Option ℕ :=
  (stripPrefix "socket:[".toList link).bind fun link =>
    (stripSuffix "]".toList link).bind (parseUnsigned u64Max)

/-- The pids that `/proc` lists, in order. -/
def Procfs.pids (proc : Procfs) : List ℕ :=
  ((proc.names.getD []).filterMap fun name => name.bind (parseUnsigned u32Max)).insertionSort (· ≤ ·)

/-- One descriptor of a process. -/
def record (wanted : Finset ℕ) (pid : ℕ) (found : Found) (link : Option (List Char)) : Found :=
  match link.bind socketInode with
  | some inode => if inode ∈ wanted then claim found inode pid else found
  | none => found

/-- The processes, until every wanted inode is found. -/
def Procfs.scan (proc : Procfs) (wanted : Finset ℕ) (pids : List ℕ) (found : Found) (denied : Bool) :
    Found × Bool :=
  match pids with
  | [] => (found, denied)
  | pid :: pids =>
    if found.keys.length = wanted.card then (found, denied)
    else
      match proc.fds pid with
      | .ok links => proc.scan wanted pids (links.foldl (record wanted pid) found) denied
      | .error .permissionDenied => proc.scan wanted pids found true
      -- exited between the listing and the read
      | .error _ => proc.scan wanted pids found denied

def Procfs.owners (proc : Procfs) (wanted : Finset ℕ) : Found × OwnerCoverage :=
  let (found, denied) := proc.scan wanted proc.pids ∅ false
  (found, if denied && decide (found.keys.length < wanted.card) then .ownProcessesOnly
    else .allProcesses)

end Procnet

end Zstats
