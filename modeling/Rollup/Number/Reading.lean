/-!
Reading numbers: decimal texts as doubles, rounded once, and digit strings as bounded integers.
-/
namespace Rollup

inductive Numeral
  | nan
  | infinity
  /-- `mantissa * 10 ^ exponent`. -/
  | decimal (mantissa : Nat) (exponent : Int)
  deriving DecidableEq, Repr

namespace Numeral

def natOfDigits (digits : List Char) : Nat :=
  digits.foldl (fun n c => 10 * n + (c.toNat - '0'.toNat)) 0

/-- An exponent mark with an optional sign and at least one digit, up to the end; no text at all is
the exponent zero. -/
def readExponent : List Char → Option Int
  | [] => some 0
  | mark :: rest =>
    if mark = 'e' ∨ mark = 'E' then
      let (negative, digits) := match rest with
        | '-' :: digits => (true, digits)
        | '+' :: digits => (false, digits)
        | digits => (false, digits)
      if digits.isEmpty ∨ ¬ digits.all Char.isDigit then none
      else
        let n := natOfDigits digits
        some (if negative then -n else n)
    else none

/-- Digits with at most one point among them, at least one digit, and then perhaps an exponent. -/
def readDecimal (text : List Char) : Option Numeral :=
  let whole := text.takeWhile Char.isDigit
  let (places, rest) := match text.dropWhile Char.isDigit with
    | '.' :: rest => (rest.takeWhile Char.isDigit, rest.dropWhile Char.isDigit)
    | rest => ([], rest)
  if whole.isEmpty ∧ places.isEmpty then none
  else (readExponent rest).map fun e => .decimal (natOfDigits (whole ++ places)) (e - places.length)

def read (text : List Char) : Option Numeral :=
  let word := String.ofList (text.map Char.toLower)
  if word = "nan" then some .nan
  else if word = "inf" ∨ word = "infinity" then some .infinity
  else readDecimal text

/-- Decimal exponents of the leading digit past which every double is infinite, or below which every
one is zero. -/
def greatestMagnitude : Int := 310

def leastMagnitude : Int := -330

def toFloat : Numeral → Float
  | nan => 0.0 / 0.0
  | infinity => 1.0 / 0.0
  | decimal mantissa exponent =>
    let top := exponent + (Nat.toDigits 10 mantissa).length
    if mantissa = 0 ∨ top < leastMagnitude then 0.0
    else if greatestMagnitude < top then 1.0 / 0.0
    else Float.ofScientific mantissa (exponent < 0) exponent.natAbs

end Numeral

def readFloat (text : List Char) : Option Float :=
  match text with
  | '-' :: rest => (Numeral.read rest).map fun n => -n.toFloat
  | '+' :: rest => (Numeral.read rest).map Numeral.toFloat
  | rest => (Numeral.read rest).map Numeral.toFloat

inductive IntegerError
  | empty
  | invalidDigit
  | tooLarge
  deriving DecidableEq, Repr

def IntegerError.message : IntegerError → String
  | .empty => "cannot parse integer from empty string"
  | .invalidDigit => "invalid digit found in string"
  | .tooLarge => "number too large to fit in target type"

def maxWord : Nat := 0xFFFFFFFFFFFFFFFF

/-- Reads digits from the left; the first fault counts, a digit too many being one. -/
def readDigits (bound : Nat) : (soFar : Nat) → List Char → Except IntegerError Nat
  | n, [] => .ok n
  | n, c :: rest =>
    if ¬ c.isDigit then .error .invalidDigit
    else
      let next := 10 * n + (c.toNat - '0'.toNat)
      if bound < next then .error .tooLarge else readDigits bound next rest

def readNat (bound : Nat) : List Char → Except IntegerError Nat
  | [] => .error .empty
  | ['+'] => .error .invalidDigit
  | '+' :: digits => readDigits bound 0 digits
  | digits => readDigits bound 0 digits

end Rollup
