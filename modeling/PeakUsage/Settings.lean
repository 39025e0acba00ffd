import PeakUsage.Collector
import PeakUsage.Json.Basic
import PeakUsage.Number.Shortest

/-! The exporter's settings, from loosely typed values or from the environment. -/
namespace PeakUsage

structure Settings where
  customerName : String
  projectName : String
  environmentName : String
  /-- How long rows and figures are kept, in seconds. -/
  scrapeIntervalSecs : Nat
  /-- The length of the window figures are taken over, in seconds. -/
  lookbackSecs : Nat
  /-- The time between two scrapes, in seconds. -/
  tickIntervalSecs : Nat
  apiPort : Nat
deriving DecidableEq

/-- Why values make no settings. -/
inductive SettingsFault where
  /-- A value has no reading of the kind the key asks for. -/
  | unreadable (key : String)
  | zero (key : String)
deriving DecidableEq

def SettingsFault.message : SettingsFault → String
  | .unreadable key => key ++ " cannot be read"
  | .zero key => key ++ " must be greater than zero"

namespace Settings

def default : Settings where
  customerName := ""
  projectName := ""
  environmentName := ""
  scrapeIntervalSecs := 86400
  lookbackSecs := 1209600
  tickIntervalSecs := 120
  apiPort := 8080

/-! ### Loose readings -/

/-- The decimal numeral with an optional plus sign, below 2⁶⁴. -/
def numeral? (s : String) : Option Nat :=
  let ds := match s.toList with
    | '+' :: ds => ds
    | ds => ds
  if !ds.isEmpty && ds.all Text.isDigit then
    some (Text.ofDigits ds) |>.filter (· < UInt64.size)
  else none

/-- A text as a number: a word for yes or no in any case, or a numeral. -/
def naturalOfText? (s : String) : Option Nat :=
  let word := s.toLower
  if word = "true" || word = "on" || word = "yes" then some 1
  else if word = "false" || word = "off" || word = "no" then some 0
  else numeral? s

/-- A value as a number below 2⁶⁴; a float is rounded, half away from zero, and cut off at both
ends. -/
def natural? : Json → Option Nat
  | .integer n => if 0 ≤ n ∧ n < UInt64.size then some n.toNat else none
  | .string s => naturalOfText? s
  | .bool b => some (if b then 1 else 0)
  | .real x => some x.round.toUInt64.toNat
  | _ => none

def text? : Json → Option String
  | .string s => some s
  | .bool b => some (if b then "true" else "false")
  | .integer n => some (toString n)
  | .real x => some (Number.text x)
  | _ => none

/-! ### Reading settings -/

/-- The last value given for a key. -/
def last? (values : List (String × Json)) (key : String) : Option Json :=
  (values.reverse.find? fun v => v.1 = key).map (·.2)

/-- The reading of the last value for a key, or a fallback without any. -/
def read {α : Type} (values : List (String × Json)) (key : String) (reading : Json → Option α)
    (fallback : α) : Except SettingsFault α :=
  match last? values key with
  | none => .ok fallback
  | some j =>
    match reading j with
    | some a => .ok a
    | none => .error (.unreadable key)

/-- A port: a number below 2¹⁶. -/
def port? (j : Json) : Option Nat := (natural? j).filter (· < UInt16.size)

/-- The settings in a list of values, of which the last for a key counts. Keys that are no setting
do not matter. -/
def ofValues (values : List (String × Json)) : Except SettingsFault Settings := do
  let s : Settings := {
    customerName := ← read values "customer_name" text? default.customerName
    projectName := ← read values "project_name" text? default.projectName
    environmentName := ← read values "environment_name" text? default.environmentName
    scrapeIntervalSecs :=
      ← read values "scrape_interval_secs" natural? default.scrapeIntervalSecs
    lookbackSecs := ← read values "lookback_secs" natural? default.lookbackSecs
    tickIntervalSecs := ← read values "tick_interval_secs" natural? default.tickIntervalSecs
    apiPort := ← read values "api_port" port? default.apiPort }
  if s.scrapeIntervalSecs = 0 then throw (.zero "scrape_interval_secs")
  if s.tickIntervalSecs = 0 then throw (.zero "tick_interval_secs")
  pure s

/-- A character in lower case, as far as that is an ASCII letter: the capitals, and the Kelvin
sign. -/
def lower (c : Char) : Char := if c.toNat = 0x212A then 'k' else c.toLower

/-- The key a variable of the environment sets: what follows `usage_` in its lower-cased name. -/
def key? (name : String) : Option String :=
  let cs := name.toList.map lower
  let mark := "usage_".toList
  if mark.isPrefixOf cs then some (String.ofList (cs.drop mark.length)) else none

/-- The settings in the variables of an environment. -/
def ofEnvironment (environment : List (String × String)) : Except SettingsFault Settings :=
  ofValues (environment.filterMap fun (name, value) => (key? name).map (·, .string value))

/-! ### What follows from them -/

/-- Customer, project and environment; also the text that untagged resources are known by. -/
def environmentLabel (s : Settings) : String :=
  s.customerName ++ "-" ++ s.projectName ++ "-" ++ s.environmentName

/-- The tags every relational resource of the environment carries. -/
def expectedTags (s : Settings) : Tags :=
  Std.ExtTreeMap.ofList [("customer_name", s.customerName), ("project", s.projectName),
    ("environment_name", s.environmentName)]

def tick (s : Settings) : Nat := Nanos.ofSeconds s.tickIntervalSecs

def collector (s : Settings) : CollectorSettings where
  scrapeInterval := Nanos.ofSeconds s.scrapeIntervalSecs
  lookback := Nanos.ofSeconds s.lookbackSecs
  expectedTags := s.expectedTags
  environmentName := s.environmentLabel

end Settings
end PeakUsage
