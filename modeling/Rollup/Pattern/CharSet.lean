import Rollup.Text.Blank
import Rollup.Text.Word

/-!
Sets of characters, as patterns describe them.
-/
namespace Rollup.Pattern

inductive CharSet
  | none
  /-- A closed range of code points. -/
  | range (low high : Char)
  | digit
  | blank
  | word
  | union (a b : CharSet)
  | inter (a b : CharSet)
  | complement (a : CharSet)
  /-- Every character that differs only in case from one of the set. -/
  | caseless (a : CharSet)
  deriving Repr

namespace CharSet

def single (c : Char) : CharSet := .range c c

def any : CharSet := .complement .none

def except (a b : CharSet) : CharSet := .inter a (.complement b)

def either (a b : CharSet) : CharSet := .union (a.except b) (b.except a)

/-- The letters that are equal but for their case, in the Latin, Greek and Cyrillic alphabets: the
first lower-case and the first upper-case letter of a row, and its length. -/
def caseRows : List (Nat × Nat × Nat) :=
  [(0x61, 0x41, 26), (0xE0, 0xC0, 23), (0xF8, 0xD8, 7), (0x3B1, 0x391, 17), (0x3C3, 0x3A3, 9),
    (0x430, 0x410, 32), (0x450, 0x400, 16), (0x6B, 0x212A, 1), (0x73, 0x17F, 1), (0xE5, 0x212B, 1),
    (0x3C2, 0x3A3, 1), (0xDF, 0x1E9E, 1), (0xFF, 0x178, 1), (0xB5, 0x39C, 1)]

def caseVariants (c : Char) : List Char :=
  let step (n : Nat) : List Nat := caseRows.filterMap fun (lower, upper, length) =>
    if lower ≤ n ∧ n < lower + length then some (n - lower + upper)
    else if upper ≤ n ∧ n < upper + length then some (n - upper + lower)
    else Option.none
  let near := step c.toNat
  c :: (near ++ near.flatMap step).map Char.ofNat

def contains : CharSet → Char → Bool
  | none, _ => false
  | range low high, c => low ≤ c && c ≤ high
  | digit, c => isDecimalDigit c
  | blank, c => isBlank c
  | word, c => isWordChar c
  | union a b, c => a.contains c || b.contains c
  | inter a b, c => a.contains c && b.contains c
  | complement a, c => !a.contains c
  | caseless a, c => (caseVariants c).any a.contains

end CharSet

end Rollup.Pattern
