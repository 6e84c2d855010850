import Rollup.Number.Reading
import Rollup.Point
import Rollup.Text.Blank
import Rollup.Text.Fields

/-!
Points as lines of text: a path, a colon, and fields between bars, of which the first is the value,
the second the type, and any later one that starts with an at sign a sample rate.
-/
namespace Rollup

def Kind.ofType? (type : List Char) : Option Kind :=
  match String.ofList type with
  | "c" => some .adder
  | "g" => some .gauge
  | "ms" => some .stats
  | "h" => some .stats
  | "hg" => some .histogram
  | _ => none

namespace Point

def readRate (text : List Char) : Except LineError Float :=
  match readFloat text with
  | some rate => if rate > 0.0 && rate ≤ 1.0 then .ok rate else .error (.invalidRate (.ofList text))
  | none => .error (.invalidRate (.ofList text))

/-- The last rate among the fields, one if there is none. Fields of other forms are skipped. -/
def rateOf (rate : Float) : List (List Char) → Except LineError Float
  | [] => .ok rate
  | ('@' :: text) :: rest => do rateOf (← readRate text) rest
  | _ :: rest => rateOf rate rest

/-- A leading sign makes the value of a gauge relative. -/
def splitSign : Kind → List Char → Adjustment × List Char
  | .gauge, '+' :: digits => (.add, digits)
  | .gauge, '-' :: digits => (.subtract, digits)
  | _, digits => (.set, digits)

/-- Values of an adder count once for every point that its sample stands for. -/
def scale (kind : Kind) (rate value : Float) : Float :=
  match kind with
  | .adder => value / rate
  | _ => value

def ofFields (path : List Char) (value : List Char) (rest : List (List Char)) :
    Except LineError Point := do
  let type :: more := rest | throw .missingType
  let some kind := Kind.ofType? type | throw (.unknownType (.ofList type))
  let rate ← rateOf 1.0 more
  let (adjustment, digits) := splitSign kind value
  let some number := readFloat digits | throw (.invalidValue (.ofList value))
  unless number.isFinite do throw (.nonFinite (.ofList value))
  return ⟨.ofList path, kind, scale kind rate number, adjustment⟩

def ofLine (line : List Char) : Except LineError Point :=
  let path := line.takeWhile (· != ':')
  match line.dropWhile (· != ':') with
  | [] => .error .missingValue
  | _ :: rest =>
    if path.isEmpty then .error .emptyPath
    else match fields '|' rest with
      | [] => .error .missingType
      | value :: more => ofFields path value more

/-- The lines of a text that can hold a point: without white space at their ends, and not empty. -/
def candidates (text : List Char) : List (List Char) :=
  ((lines text).map trimEnd).filter fun line => !line.isEmpty

def ofText (text : List Char) : List (Except LineError Point) := (candidates text).map ofLine

end Point

end Rollup
