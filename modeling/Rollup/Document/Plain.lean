import Rollup.Number.Reading
import Rollup.Text.Quoted

/-!
What scalars without quotes spell.
-/
namespace Rollup

inductive PlainScalar
  | null
  | bool (value : Bool)
  | int (value : Int)
  | float (value : Float)
  | text
  deriving Repr

namespace PlainScalar

def isNull (source : String) : Bool := ["", "~", "null", "Null", "NULL"].contains source

def readBool (source : String) : Option Bool :=
  if ["true", "True", "TRUE"].contains source then some true
  else if ["false", "False", "FALSE"].contains source then some false
  else none

def digitValue (c : Char) : Option Nat :=
  if c.isDigit then some (c.toNat - '0'.toNat)
  else if 'a' ≤ c ∧ c ≤ 'z' then some (c.toNat - 'a'.toNat + 10)
  else if 'A' ≤ c ∧ c ≤ 'Z' then some (c.toNat - 'A'.toNat + 10)
  else none

def readDigitsIn (base : Nat) (digits : List Char) : Option Nat :=
  if digits.isEmpty then none
  else digits.foldlM (fun n c => do
    let d ← digitValue c
    if d < base then some (base * n + d) else none) 0

def splitSign : List Char → Option Char × List Char
  | '-' :: rest => (some '-', rest)
  | '+' :: rest => (some '+', rest)
  | rest => (none, rest)

/-- A digit after a leading zero keeps a run of digits from being a number. -/
def isPaddedDigits (source : List Char) : Bool :=
  match (splitSign source).2 with
  | '0' :: d :: rest => (d :: rest).all Char.isDigit
  | _ => false

def readInt (source : List Char) : Option Int :=
  let (sign, digits) := splitSign source
  let magnitude := match digits with
    | '0' :: 'x' :: digits => readDigitsIn 16 digits
    | '0' :: 'o' :: digits => readDigitsIn 8 digits
    | '0' :: 'b' :: digits => readDigitsIn 2 digits
    | digits => if isPaddedDigits source then none else readDigitsIn 10 digits
  magnitude.map fun n => if sign = some '-' then -n else n

def readFloat (source : List Char) : Option Float :=
  let (sign, digits) := splitSign source
  let negative := sign == some '-'
  let word := String.ofList digits
  if [".inf", ".Inf", ".INF"].contains word then
    some (if negative then -(1.0 / 0.0) else 1.0 / 0.0)
  else if sign.isNone && [".nan", ".NaN", ".NAN"].contains word then some (0.0 / 0.0)
  else if (splitSign digits).1.isSome then none
  else (Rollup.readFloat source).filter (·.isFinite)

/-- Integers that no word of sixty-four bits holds are read as other numbers. -/
def ofText (source : List Char) : PlainScalar :=
  let text := String.ofList source
  if isNull text then .null
  else match readBool text with
    | some b => .bool b
    | none => match readInt source with
      | some n =>
        if -0x8000000000000000 ≤ n ∧ n ≤ maxWord then .int n
        else match readFloat source with
          | some x => .float x
          | none => .text
      | none =>
        if isPaddedDigits source then .text
        else match readFloat source with
          | some x => .float x
          | none => .text

end PlainScalar

end Rollup
