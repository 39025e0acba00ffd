import PeakUsage.Json.Basic
import PeakUsage.Text.Digits

/-! Reading JSON: strict, with nothing but white space around the value. -/
namespace PeakUsage.Json
open Text

def isSpace (c : Char) : Bool := c = ' ' || c = '\t' || c = '\n' || c = '\r'

def skipSpace (cs : List Char) : List Char := cs.dropWhile isSpace

/-! ### Numerals -/

/-- The float nearest to `mantissa * 10 ^ exponent`. -/
def nearestReal (mantissa : Nat) (exponent : Int) : Float :=
  let digits : Int := (Nat.toDigits 10 mantissa).length
  if mantissa = 0 ∨ digits + exponent < -340 then 0.0
  else if 320 < digits + exponent then 1.0 / 0.0
  else if 0 ≤ exponent then Float.ofScientific mantissa false exponent.toNat
  else Float.ofScientific mantissa true (-exponent).toNat

structure Numeral where
  negative : Bool
  mantissa : Nat
  exponent : Int
  /-- Without point and exponent. -/
  integral : Bool
deriving DecidableEq

/-- A numeral as a value; minus zero is a float. -/
def Numeral.value (n : Numeral) : Json :=
  let size : Int := n.mantissa
  if n.integral ∧ ¬n.negative ∧ size ≤ maxUnsigned then .integer size
  else if n.integral ∧ n.negative ∧ size ≠ 0 ∧ minSigned ≤ -size then .integer (-size)
  else
    let x := nearestReal n.mantissa n.exponent
    .real (if n.negative then -x else x)

/-- A run of at least one digit, and the rest. -/
def run? (cs : List Char) : Option (List Char × List Char) :=
  match cs.takeWhile isDigit with
  | [] => none
  | ds => some (ds, cs.drop ds.length)

/-- The digits before the point: a lone zero, or a run that does not start with one. -/
def whole? : List Char → Option (List Char × List Char)
  | '0' :: rest => if (rest.takeWhile isDigit).isEmpty then some (['0'], rest) else none
  | cs => run? cs

def fraction? : List Char → Option (List Char × List Char)
  | '.' :: rest => run? rest
  | cs => some ([], cs)

def power? : List Char → Option (Option Int × List Char)
  | c :: cs =>
    if c = 'e' || c = 'E' then
      match cs with
      | '-' :: rest => (run? rest).map fun (ds, rest) => (some (-(ofDigits ds : Int)), rest)
      | '+' :: rest => (run? rest).map fun (ds, rest) => (some (ofDigits ds : Int), rest)
      | rest => (run? rest).map fun (ds, rest) => (some (ofDigits ds : Int), rest)
    else some (none, c :: cs)
  | [] => some (none, [])

def unsigned? (negative : Bool) (cs : List Char) : Option (Json × List Char) := do
  let (whole, cs) ← whole? cs
  let (fraction, cs) ← fraction? cs
  let (power, cs) ← power? cs
  let n : Numeral := ⟨negative, ofDigits (whole ++ fraction), power.getD 0 - fraction.length,
    fraction.isEmpty && power.isNone⟩
  pure (n.value, cs)

def numeral? : List Char → Option (Json × List Char)
  | '-' :: cs => unsigned? true cs
  | cs => unsigned? false cs

/-! ### Strings -/

/-- A character of a string, or half of a surrogate pair. -/
inductive Piece where
  | char (c : Char)
  | half (unit : Nat)
deriving DecidableEq

def hexValue? (c : Char) : Option Nat :=
  if '0' ≤ c && c ≤ '9' then some (c.toNat - 48)
  else if 'a' ≤ c && c ≤ 'f' then some (c.toNat - 87)
  else if 'A' ≤ c && c ≤ 'F' then some (c.toNat - 55)
  else none

/-- The 16-bit unit with the given four hexadecimal digits. -/
def unit? (a b c d : Char) : Option Piece := do
  let n := (((← hexValue? a) * 16 + (← hexValue? b)) * 16 + (← hexValue? c)) * 16 + (← hexValue? d)
  pure (if 0xD800 ≤ n ∧ n ≤ 0xDFFF then .half n else .char (Char.ofNat n))

def escape? (c : Char) : Option Char :=
  if c = '"' || c = '\\' || c = '/' then some c
  else if c = 'n' then some '\n'
  else if c = 't' then some '\t'
  else if c = 'r' then some '\r'
  else if c = 'b' then some (Char.ofNat 8)
  else if c = 'f' then some (Char.ofNat 12)
  else none

/-- The pieces of a string up to its closing quote, and the rest. -/
def pieces? : List Char → Option (List Piece × List Char)
  | [] => none
  | c :: cs =>
    if c = '"' then some ([], cs)
    else if c = '\\' then
      match cs with
      | [] => none
      | 'u' :: h :: i :: j :: k :: rest => do
        let p ← unit? h i j k
        let (ps, rest) ← pieces? rest
        pure (p :: ps, rest)
      | e :: rest => do
        let x ← escape? e
        let (ps, rest) ← pieces? rest
        pure (.char x :: ps, rest)
    else if c.toNat < 0x20 then none
    else do
      let (ps, rest) ← pieces? cs
      pure (.char c :: ps, rest)

/-- The text of the pieces: a high half stands before a low one, and no half alone. -/
def join? : List Piece → Option (List Char)
  | [] => some []
  | .char c :: ps => (join? ps).map (c :: ·)
  | .half m :: .half n :: ps =>
    if m < 0xDC00 ∧ 0xDC00 ≤ n then
      (join? ps).map (Char.ofNat (0x10000 + (m - 0xD800) * 0x400 + (n - 0xDC00)) :: ·)
    else none
  | .half _ :: _ => none

def text? (cs : List Char) : Option (Option String × List Char) := do
  let (ps, rest) ← pieces? cs
  pure ((join? ps).map String.ofList, rest)

/-! ### Values -/

mutual

/-- A value after white space, and the rest. -/
def value? : Nat → List Char → Option (Json × List Char)
  | 0, _ => none
  | fuel + 1, cs =>
    match skipSpace cs with
    | 'n' :: 'u' :: 'l' :: 'l' :: rest => some (.null, rest)
    | 't' :: 'r' :: 'u' :: 'e' :: rest => some (.bool true, rest)
    | 'f' :: 'a' :: 'l' :: 's' :: 'e' :: rest => some (.bool false, rest)
    | '"' :: rest => do
      let (s, rest) ← text? rest
      pure (match s with | some s => .string s | none => .garbled, rest)
    | '[' :: rest =>
      match skipSpace rest with
      | ']' :: rest => some (.array [], rest)
      | rest => do
        let (items, rest) ← items? fuel rest
        pure (.array items, rest)
    | '\x7b' :: rest =>
      match skipSpace rest with
      | '\x7d' :: rest => some (.object [], rest)
      | rest => do
        let (members, rest) ← members? fuel rest
        pure (.object members, rest)
    | rest => numeral? rest

/-- The items of an array from the next one to the closing bracket. -/
def items? : Nat → List Char → Option (List Json × List Char)
  | 0, _ => none
  | fuel + 1, cs => do
    let (item, rest) ← value? fuel cs
    match skipSpace rest with
    | ']' :: rest => pure ([item], rest)
    | ',' :: rest => do
      let (items, rest) ← items? fuel rest
      pure (item :: items, rest)
    | _ => none

/-- The members of an object from the next one to the closing brace. -/
def members? : Nat → List Char → Option (List (String × Json) × List Char)
  | 0, _ => none
  | fuel + 1, cs =>
    match skipSpace cs with
    | '"' :: rest => do
      let (name, rest) ← text? rest
      let name ← name
      match skipSpace rest with
      | ':' :: rest => do
        let (item, rest) ← value? fuel rest
        match skipSpace rest with
        | '\x7d' :: rest => pure ([(name, item)], rest)
        | ',' :: rest => do
          let (members, rest) ← members? fuel rest
          pure ((name, item) :: members, rest)
        | _ => none
      | _ => none
    | _ => none

end

/-- Reads a text that holds one value. Every step down takes a character, so the fuel suffices. -/
def parse? (s : String) : Option Json := do
  let cs := s.toList
  let (v, rest) ← value? (2 * cs.length + 2) cs
  if (skipSpace rest).isEmpty then some v else none

end PeakUsage.Json
