import Zstats.Framework.FloatRounding
import Zstats.Snapshot

namespace Zstats

/-- Fast window: the acute rule and recording. -/
def window : Nat := fromSecs 60
def minSpan : Nat := fromSecs 50
def slowFactor : Nat := 5
/-- Slow window: the chronic rules. -/
def slowWindow : Nat := fromSecs (60 * slowFactor)
def slowMinSpan : Nat := fromSecs (50 * slowFactor)
def acuteFactor : ℚ := 3
def recordEvery : Nat := fromSecs 60
def recordTopCpuTime : Nat := 5
def persistReminder : Nat := fromSecs (30 * 60)
def pressureRearm : Nat := slowWindow
def pressureReminderMax : Nat := fromSecs (4 * 60 * 60)
def pressureTopConsumers : Nat := 3
def pressureConsumerFloor : ℚ := 5 / 100
def diskRearmMargin : ℚ := 5 / 100

def asBytes (s : String) : List UInt8 := s.toUTF8.data.toList

def toAsciiLower (b : UInt8) : UInt8 := if 65 ≤ b ∧ b ≤ 90 then b + 32 else b

def eqIgnoreAsciiCase (a b : List UInt8) : Bool := a.map toAsciiLower = b.map toAsciiLower

inductive Matcher where
  | exact (literal : String)
  | startsWith (literal : String)
  | endsWith (literal : String)
  | contains (literal : String)
  deriving DecidableEq, Repr

namespace Matcher

/-- `Matcher::parse`. -/
def parse (key : String) : Except String Matcher :=
  let chars := key.toList
  let leading := decide (chars.head? = some '*')
  let rest := if leading then chars.tail else chars
  let trailing := decide (rest.getLast? = some '*')
  let literal := if trailing then rest.dropLast else rest
  if '*' ∈ literal then
    .error ("`" ++ key ++ "`: `*` is only supported at the start or end of a name")
  else
    let literal := String.ofList literal
    .ok (match leading, trailing with
      | false, false => .exact literal
      | false, true => .startsWith literal
      | true, false => .endsWith literal
      | true, true => .contains literal)

def literal : Matcher → String
  | exact s | startsWith s | endsWith s | contains s => s

/-- `Matcher::matches`. -/
def matchesName (m : Matcher) (name : String) : Bool :=
  let literal := asBytes m.literal
  let name := asBytes name
  let fits := literal.length ≤ name.length
  match m with
  | exact _ => eqIgnoreAsciiCase name literal
  | startsWith _ => fits && eqIgnoreAsciiCase (name.take literal.length) literal
  | endsWith _ => fits && eqIgnoreAsciiCase (name.drop (name.length - literal.length)) literal
  | contains _ => literal.isEmpty ||
      (fits && (List.range (name.length - literal.length + 1)).any fun i =>
        eqIgnoreAsciiCase ((name.drop i).take literal.length) literal)

end Matcher

structure Override (α : Type) where
  matcher : Matcher
  value : Option α
  user : Bool

namespace Override

variable {α : Type}

def rank (o : Override α) : Bool × Bool × Nat :=
  (o.user, match o.matcher with | .exact _ => true | _ => false,
    (asBytes o.matcher.literal).length)

/-- `a.rank() > b.rank()`, the lexicographic order of the tuples. -/
def outranks (a b : Override α) : Bool :=
  let (u, e, n) := a.rank
  let (u', e', n') := b.rank
  (u && !u') || (u == u' && ((e && !e') || (e == e' && decide (n' < n))))

end Override

structure Thresholds (α : Type) where
  default : Option α
  overrides : List (Override α)

namespace Thresholds

variable {α : Type}

def new (default : Option α) : Thresholds α := ⟨default, []⟩

def push (t : Thresholds α) (name : String) (value : Option α) (user : Bool) : Thresholds α :=
  let matcher := match Matcher.parse name with
    | .ok m => m
    | .error _ => .exact name
  ⟨t.default, t.overrides ++ [⟨matcher, value, user⟩]⟩

def withOverride (t : Thresholds α) (name : String) (value : Option α) : Thresholds α :=
  t.push name value true

def withTemplateOverride (t : Thresholds α) (name : String) (value : Option α) : Thresholds α :=
  t.push name value false

/-- The first of the highest-ranking overrides that match `name`. -/
def overrideFor (t : Thresholds α) (name : String) : Option (Option α) :=
  let best := t.overrides.foldl (fun best entry =>
    if entry.matcher.matchesName name && best.all (fun b => entry.outranks b) then some entry
    else best) (none : Option (Override α))
  best.map (·.value)

def forProcess (t : Thresholds α) (name : String) : Option α :=
  (t.overrideFor name).getD t.default

def base (t : Thresholds α) : Option α := t.default

def anyEnabled (t : Thresholds α) : Bool :=
  t.default.isSome || t.overrides.any fun o => o.value.isSome

end Thresholds

/-- The nearest double: what a conversion to `f64`, or an operation on doubles, gives. -/
def toF64 (x : ℚ) : ℚ := FloatText.double.rounded x

/-- `fraction_bytes`: saturates rather than wraps. -/
def fractionBytes (fraction : ℚ) (totalMemory : Nat) : Nat :=
  let bytes := toF64 (fraction * toF64 totalMemory)
  if (u64Max : ℚ) + 1 ≤ bytes then u64Max else asU64 bytes

theorem fractionBytes_le (fraction : ℚ) (totalMemory : Nat) :
    fractionBytes fraction totalMemory ≤ u64Max := by
  unfold fractionBytes
  dsimp only
  split_ifs
  · exact le_rfl
  · exact asU64_le _

/-- The lower of a share and a ceiling, where both are there. -/
def lowerBar (share ceiling : Option Nat) : Option Nat :=
  match share, ceiling with
  | some share, some ceiling => some (min share ceiling)
  | some only, none | none, some only => some only
  | none, none => none

inductive PressureAlert where
  | off
  | warning
  | critical
  deriving DecidableEq, Repr

/-- `PressureAlert::level`. -/
def PressureAlert.level : PressureAlert → Option Nat
  | off => none
  | warning => some 2
  | critical => some 4

structure ActiveThresholds where
  cpu : Thresholds ℚ
  memory : Thresholds ℚ
  memoryBytes : Option Nat
  disk : Thresholds ℚ
  pressure : Option Nat
  appCpu : Thresholds ℚ
  appMemory : Thresholds ℚ
  appMemoryBytes : Option Nat
  cooldown : Nat

namespace ActiveThresholds

/-- Every rule off. -/
def off (cooldown : Nat) : ActiveThresholds :=
  ⟨.new none, .new none, none, .new none, none, .new none, .new none, none, cooldown⟩

def memoryBaseBytes (a : ActiveThresholds) (totalMemory : Nat) : Option Nat :=
  lowerBar (a.memory.base.map fun f => fractionBytes f totalMemory) a.memoryBytes

def memoryBarBytes (a : ActiveThresholds) (name : String) (totalMemory : Nat) : Option Nat :=
  match a.memory.overrideFor name with
  | some value => value.map fun f => fractionBytes f totalMemory
  | none => a.memoryBaseBytes totalMemory

def appMemoryBarBytes (a : ActiveThresholds) (name : String) (totalMemory : Nat) : Option Nat :=
  match a.appMemory.overrideFor name with
  | some value => value.map fun f => fractionBytes f totalMemory
  | none => lowerBar (a.appMemory.base.map fun f => fractionBytes f totalMemory) a.appMemoryBytes

end ActiveThresholds

end Zstats
