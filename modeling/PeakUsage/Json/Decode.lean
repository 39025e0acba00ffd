import Std.Data.ExtTreeMap
import PeakUsage.Json.Basic
import PeakUsage.Time.Rfc3339
import PeakUsage.Number.Order

/-! Typed readings of JSON values. -/
namespace PeakUsage.Json

/-- A typed reading of a value. -/
abbrev Decoder (α : Type) := Json → Except JsonFault α

def asText : Decoder String
  | .string s => .ok s
  | _ => .error .unexpected

def asBool : Decoder Bool
  | .bool b => .ok b
  | _ => .error .unexpected

/-- An integer from `low` to `high`; a numeral with a point or an exponent is none. -/
def asInteger (low high : Int) : Decoder Int
  | .integer n => if low ≤ n ∧ n ≤ high then .ok n else .error .outOfRange
  | _ => .error .unexpected

/-- A natural number below `size`. -/
def asNatural (size : Nat) : Decoder Nat := fun j => do
  let n ← asInteger 0 (size - 1) j
  pure n.toNat

/-- A finite float; an integer is read as the nearest one. -/
def asReal : Decoder Float
  | .integer n => .ok (Float.ofInt n)
  | .real x => if Number.isFinite x then .ok x else .error .outOfRange
  | _ => .error .unexpected

def asTime : Decoder Timestamp := fun j => do
  match Timestamp.read? (← asText j) with
  | some t => pure t
  | none => .error .notATime

/-- Null, or a value. -/
def orNull {α : Type} (d : Decoder α) : Decoder (Option α)
  | .null => .ok none
  | j => (d j).map some

def asList {α : Type} (d : Decoder α) : Decoder (List α)
  | .array items => items.mapM d
  | _ => .error .unexpected

/-- A table from names to values; of members with the same name the last counts. -/
def asTable {α : Type} (d : Decoder α) : Decoder (Std.ExtTreeMap String α)
  | .object members => do
    let entries ← members.mapM fun (name, j) => do pure (name, ← d j)
    pure (Std.ExtTreeMap.ofList entries)
  | _ => .error .unexpected

/-- One of a list of names, written as a string or as an object from the name to null. -/
def asChoice {α : Type} (choices : List (String × α)) : Decoder α := fun j => do
  let name ← match j with
    | .string s => pure s
    | .object [(s, .null)] => pure s
    | _ => .error .unexpected
  match choices.lookup name with
  | some a => pure a
  | none => .error .unexpected

/-- The first name of a list that comes again after it. -/
def repeated? : List String → Option String
  | [] => none
  | n :: rest => if rest.contains n then some n else repeated? rest

/-- The value of each field of a record: an object with no field twice, or an array of the fields
in order, of which the last `spare` may be absent. -/
def asRecord (fields : List String) (spare : Nat) : Decoder (String → Option Json)
  | .object members =>
    match repeated? ((members.map (·.1)).filter fields.contains) with
    | some n => .error (.repeated n)
    | none => .ok fun n => members.lookup n
  | .array items =>
    if fields.length ≤ items.length + spare ∧ items.length ≤ fields.length then
      .ok fun n => (fields.zip items).lookup n
    else .error .unexpected
  | _ => .error .unexpected

/-- A field that must be there. -/
def required {α : Type} (r : String → Option Json) (name : String) (d : Decoder α) :
    Except JsonFault α :=
  match r name with
  | some j => d j
  | none => .error (.missing name)

/-- A field that may be absent or null. -/
def optional {α : Type} (r : String → Option Json) (name : String) (d : Decoder α) :
    Except JsonFault (Option α) :=
  match r name with
  | some j => orNull d j
  | none => .ok none

/-- A field that stands for `fallback` when absent. -/
def defaulted {α : Type} (r : String → Option Json) (name : String) (d : Decoder α)
    (fallback : α) : Except JsonFault α :=
  match r name with
  | some j => d j
  | none => .ok fallback

/-- Seconds below 2⁶⁴ and nanoseconds, which carry; no other field is allowed. -/
def asPeriod : Decoder Nat := fun j => do
  if let .object members := j then
    if let some (n, _) := members.find? fun m => m.1 ≠ "secs" ∧ m.1 ≠ "nanos" then
      throw (.surplus n)
  let r ← asRecord ["secs", "nanos"] 0 j
  let secs ← required r "secs" (asNatural UInt64.size)
  let nanos ← required r "nanos" (asNatural UInt32.size)
  let d := Nanos.ofSeconds secs + nanos
  if Nanos.seconds d < UInt64.size then pure d else throw .outOfRange

def ofPeriod (d : Nat) : Json :=
  .object [("secs", .integer (Nanos.seconds d)), ("nanos", .integer (Nanos.subsecond d))]

def ofOption {α : Type} (f : α → Json) : Option α → Json
  | some a => f a
  | none => .null

def ofNat (n : Nat) : Json := .integer n

/-- An order in which the members of a table may be written. -/
structure TableOrder where
  arrange : List (String × Json) → List (String × Json)
  perm : ∀ members, (arrange members).Perm members

/-- The members by their names. -/
def TableOrder.byName : TableOrder := ⟨id, .refl⟩

def ofTableIn {α : Type} (order : TableOrder) (f : α → Json) (t : Std.ExtTreeMap String α) : Json :=
  .object (order.arrange (t.toList.map fun (name, a) => (name, f a)))

def ofTable {α : Type} (f : α → Json) (t : Std.ExtTreeMap String α) : Json := ofTableIn .byName f t

end PeakUsage.Json
