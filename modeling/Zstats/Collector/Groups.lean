import Mathlib.Data.List.Dedup
import Mathlib.Data.List.Sort
import Zstats.Framework.Climb
import Zstats.Snapshot

namespace Zstats

structure ProcNode where
  parent : Option Pid
  /-- A service manager, whose children are applications of their own. -/
  boundary : Bool
  startTimeSecs : ℕ
  cpu : ℚ
  mem : ℕ
  footprint : Option ℕ
  /-- Bytes read and written since the previous refresh. -/
  io : Option (ℕ × ℕ)
  deriving DecidableEq, Repr

/-- The process table, one entry a pid. -/
structure ProcTable where
  entries : List (Pid × ProcNode)
  nodup : (entries.map Prod.fst).Nodup

namespace ProcTable

def keys (table : ProcTable) : List Pid := table.entries.map Prod.fst

def get (table : ProcTable) (pid : Pid) : Option ProcNode := table.entries.lookup pid

end ProcTable

structure GroupTotals where
  rootPid : Pid
  processCount : ℕ
  cpu : ℚ
  mem : ℕ
  footprintSum : ℕ
  anyFootprint : Bool
  readBytes : Option ℕ
  writtenBytes : Option ℕ
  deriving DecidableEq, Repr

def initPid : Pid := 1

/-- Only a start time known on both sides and later on the parent's rejects the link. -/
def isPlausibleParent (table : ProcTable) (child parent : Pid) : Bool :=
  match table.get child, table.get parent with
  | some child, some parent =>
    child.startTimeSecs == 0 || parent.startTimeSecs == 0 ||
      decide (parent.startTimeSecs ≤ child.startTimeSecs)
  | _, _ => false

/-- The parent that the climb goes on to: neither init, a boundary, the process itself nor one
that cannot be its parent. -/
def ProcTable.link (table : ProcTable) (current : Pid) : Option Pid :=
  ((table.get current).bind (·.parent)).filter fun parent =>
    parent != initPid && !(table.get parent).any (·.boundary) && parent != current &&
      isPlausibleParent table current parent

/-- A path stops growing at 512 processes. -/
def pathLimit : ℕ := 512

/-- The first loop: the root noted for each process. The path takes the process itself, hence
one link less than the limit. -/
def resolveRoots (table : ProcTable) (keys : List Pid) : Pid → Option Pid :=
  Climb.resolve table.link (pathLimit - 1) (fun _ => none) keys

namespace GroupTotals

def new (rootPid : Pid) : GroupTotals := ⟨rootPid, 0, 0, 0, 0, false, none, none⟩

def add (entry : GroupTotals) (node : ProcNode) : GroupTotals :=
  { entry with
    processCount := entry.processCount + 1
    cpu := entry.cpu + node.cpu
    mem := saturatingAdd entry.mem node.mem
    footprintSum := saturatingAdd entry.footprintSum (node.footprint.getD node.mem)
    anyFootprint := entry.anyFootprint || node.footprint.isSome
    readBytes :=
      match node.io with
      | some (read, _) => some (saturatingAdd (entry.readBytes.getD 0) read)
      | none => entry.readBytes
    writtenBytes :=
      match node.io with
      | some (_, written) => some (saturatingAdd (entry.writtenBytes.getD 0) written)
      | none => entry.writtenBytes }

end GroupTotals

/-- One turn of the second loop, for a process whose root is `root pid`. -/
def tally (root : Pid → Pid) (totals : Pid → Option GroupTotals) (entry : Pid × ProcNode) :
    Pid → Option GroupTotals :=
  Function.update totals (root entry.1)
    (some (((totals (root entry.1)).getD (.new (root entry.1))).add entry.2))

/-- Ranked by cpu, then memory, then pid. -/
def RankedBefore (a b : GroupTotals) : Prop :=
  b.cpu < a.cpu ∨ b.cpu = a.cpu ∧ (b.mem < a.mem ∨ b.mem = a.mem ∧ a.rootPid ≤ b.rootPid)

instance : DecidableRel RankedBefore := fun _ _ => inferInstanceAs (Decidable (_ ∨ _))

/-- The orders in which a call's hash maps are walked: the keys and the entries of the table, and
the values of the totals. -/
structure HashOrder where
  keys : List Pid → List Pid
  entries : List (Pid × ProcNode) → List (Pid × ProcNode)
  values : List GroupTotals → List GroupTotals
  keys_perm : ∀ l, (keys l).Perm l
  entries_perm : ∀ l, (entries l).Perm l
  values_perm : ∀ l, (values l).Perm l

/-- The totals of every root, in the order of the map. -/
def groupTotals (order : HashOrder) (table : ProcTable) (root : Pid → Pid) : List GroupTotals :=
  let entries := order.entries table.entries
  let totals := entries.foldl (tally root) fun _ => none
  order.values ((entries.map fun entry => root entry.1).dedup.filterMap totals)

def aggregateProcessGroups (order : HashOrder) (table : ProcTable) (max : ℕ) :
    List GroupTotals :=
  let roots := resolveRoots table (order.keys table.keys)
  let groups := groupTotals order table fun pid => (roots pid).getD pid
  (groups.insertionSort RankedBefore).take max

end Zstats
