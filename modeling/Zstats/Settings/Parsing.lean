import Zstats.Alerts.Thresholds
import Zstats.Framework.FloatText

namespace Zstats

open FloatText (Number)

/-- `str::trim`. -/
def trimmed (value : String) : String := String.ofList (Text.trim value.toList)

def parseU64 (text : List Char) : Option Nat := Text.parseUnsigned u64Max text

/-- `config::parse_duration`, in nanoseconds; the products wrap. -/
def parseDuration (value : String) : Except String Nat :=
  let v := Text.trim value.toList
  let fromMillis (ms : Nat) := ms * 1000000
  if v = [] then .error "empty duration"
  else if v.all Char.isDigit then
    match parseU64 v with
    | some ms => .ok (fromMillis ms)
    | none => .error ("invalid duration: " ++ value)
  else
    let number := v.takeWhile Char.isDigit
    let unit := String.ofList (Text.trim (v.dropWhile Char.isDigit))
    match parseU64 number with
    | none => .error ("invalid duration: " ++ value)
    | some n => match unit with
      | "ms" => .ok (fromMillis n)
      | "s" => .ok (fromMillis (n * 1000 % 2 ^ 64))
      | "m" => .ok (fromMillis (n * 60000 % 2 ^ 64))
      | "h" => .ok (fromMillis (n * 3600000 % 2 ^ 64))
      | other => .error ("invalid duration unit: " ++ other ++ " (use ms, s, m or h)")

/-- The bytes of a unit of size. -/
def sizeFactor (unit : String) : Option Nat :=
  match unit with
  | "b" => some 1
  | "k" | "kib" => some (2 ^ 10)
  | "m" | "mib" => some (2 ^ 20)
  | "g" | "gib" => some (2 ^ 30)
  | "t" | "tib" => some (2 ^ 40)
  | "kb" => some 1000
  | "mb" => some 1000000
  | "gb" => some 1000000000
  | "tb" => some 1000000000000
  | _ => none

/-- `config::parse_size`. -/
def parseSize (value : String) : Except String Nat :=
  let v := Text.trim value.toList
  if v = [] then .error "empty size"
  else if v.all Char.isDigit then
    match parseU64 v with
    | some bytes => .ok bytes
    | none => .error ("invalid size: " ++ value)
  else
    let number := v.takeWhile Char.isDigit
    let unit := String.ofList ((Text.trim (v.dropWhile Char.isDigit)).map Char.toLower)
    match parseU64 number with
    | none => .error ("invalid size: " ++ value)
    | some n => match sizeFactor unit with
      | none => .error ("invalid size unit: " ++ unit ++
          " (use B, KiB, MiB, GiB, TiB or their KB/MB/GB forms)")
      | some factor =>
        if n * factor ≤ u64Max then .ok (n * factor)
        else .error ("size out of range: " ++ value)

/-- `config::format_size`. -/
def formatSize (bytes : Nat) : String :=
  let units := [(2 ^ 40, "TiB"), (2 ^ 30, "GiB"), (2 ^ 20, "MiB"), (2 ^ 10, "KiB")]
  match units.find? fun unit => decide (unit.1 ≤ bytes ∧ bytes % unit.1 = 0) with
  | some (factor, unit) => toString (bytes / factor) ++ unit
  | none => toString bytes ++ "B"

/-- `config::format_duration`, of nanoseconds. -/
def formatDuration (duration : Nat) : String :=
  let ms := duration / 1000000 % 2 ^ 64
  if ms = 0 then "0s"
  else if ms % 3600000 = 0 then toString (ms / 3600000) ++ "h"
  else if ms % 60000 = 0 then toString (ms / 60000) ++ "m"
  else if ms % 1000 = 0 then toString (ms / 1000) ++ "s"
  else toString ms ++ "ms"

/-- What a `Visitor` of a setting is handed. -/
inductive Visited where
  | u64 (v : UInt64)
  | i64 (v : Int64)
  | str (v : String)

namespace DurationSerde

/-- `duration_serde::serialize`. -/
def serialize (duration : Nat) : Visited := .str (formatDuration duration)

/-- `duration_serde::DurationVisitor`. -/
def visit : Visited → Except String Nat
  | .u64 v => .ok (v.toNat * 1000000)
  | .i64 v =>
    if 0 ≤ v.toInt then .ok (v.toInt.toNat * 1000000)
    else .error "duration must not be negative"
  | .str v => parseDuration v

end DurationSerde

namespace SizeSerde

/-- `option_size_serde::serialize`, of a size that is there. -/
def serialize (bytes : Nat) : Visited := .str (formatSize bytes)

/-- `option_size_serde::SizeVisitor`. -/
def visit : Visited → Except String Nat
  | .u64 v => .ok v.toNat
  | .i64 v => if 0 ≤ v.toInt then .ok v.toInt.toNat else .error "size must not be negative"
  | .str v => parseSize v

end SizeSerde

/-- `PressureAlert::parse`. -/
def PressureAlert.parse (value : String) : Except String PressureAlert :=
  match String.ofList ((Text.trim value.toList).map Char.toLower) with
  | "off" | "false" | "0" | "none" => .ok .off
  | "warning" | "warn" | "true" | "1" => .ok .warning
  | "critical" | "crit" => .ok .critical
  | other => .error (other ++ " (use off|warning|critical)")

namespace Settings

def invalidValue (key value : String) : String := "invalid value for " ++ key ++ ": " ++ value

/-- `settings::parse` for a type read by `fromStr`. -/
def parse {α : Type} (fromStr : List Char → Option α) (key value : String) : Except String α :=
  match fromStr (Text.trim value.toList) with
  | some x => .ok x
  | none => .error (invalidValue key value)

/-- `bool::from_str`. -/
def parseBool (text : List Char) : Option Bool :=
  match String.ofList text with
  | "true" => some true
  | "false" => some false
  | _ => none

def parseF32 (text : List Char) : Option Number := FloatText.single.parse text
def parseF64 (text : List Char) : Option Number := FloatText.double.parse text

/-- `pct as f32`. -/
def asF32 (pct : Number) : Number := pct.cast FloatText.single

/-- `settings::check_name_pattern`. -/
def checkNamePattern (key name : String) : Except String Unit :=
  match Matcher.parse name with
  | .ok _ => .ok ()
  | .error e => .error (invalidValue key e)

/-- `str::split_once`: what stands before the first `=` and what after it. -/
def splitOnce (value : String) : Option (String × String) :=
  match value.toList.dropWhile (· ≠ '=') with
  | [] => none
  | _ :: after => some (String.ofList (value.toList.takeWhile (· ≠ '=')), String.ofList after)

end Settings

end Zstats
