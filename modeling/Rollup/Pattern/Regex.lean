import Rollup.Pattern.CharSet

/-!
Patterns as trees, and the positions of a text they lead to. A pattern maps sets of positions to
sets of positions, so a search starts at every position at once and never backtracks.
-/
namespace Rollup.Pattern

inductive Assertion
  | textStart
  | textEnd
  | lineStart
  | lineEnd
  | wordBoundary
  | notWordBoundary
  | wordStart
  | wordEnd
  deriving DecidableEq, Repr

inductive Regex
  | empty
  | one (set : CharSet)
  | assert (a : Assertion)
  | seq (a b : Regex)
  | alt (a b : Regex)
  /-- At least `least` copies, at most `most` if there is such a bound. -/
  | copies (a : Regex) (least : Nat) (most : Option Nat)
  deriving Repr

def Assertion.holds (a : Assertion) (before after : Option Char) : Bool :=
  let left := before.any isWordChar
  let right := after.any isWordChar
  match a with
  | textStart => before.isNone
  | textEnd => after.isNone
  | lineStart => before.all (· == '\n')
  | lineEnd => after.all (· == '\n')
  | wordBoundary => left != right
  | notWordBoundary => left == right
  | wordStart => !left && right
  | wordEnd => left && !right

/-- A set of positions of a text: one entry for each position, the end included. -/
abbrev Spots := Array Bool

namespace Spots

def everywhere (text : Array Char) : Spots := Array.replicate (text.size + 1) true

def union (a b : Spots) : Spots := Array.zipWith (· || ·) a b

def isEmpty (s : Spots) : Bool := !s.any id

def advance (text : Array Char) (keep : Char → Bool) (s : Spots) : Spots :=
  (Array.range (text.size + 1)).map fun
    | 0 => false
    | i + 1 => s.getD i false && text[i]?.any keep

def restrict (text : Array Char) (a : Assertion) (s : Spots) : Spots :=
  (Array.range (text.size + 1)).map fun i =>
    s.getD i false && a.holds (if i = 0 then none else text[i - 1]?) text[i]?

/-- Adds what `step` reaches, `count` times over or until nothing is added. -/
def closure (step : Spots → Spots) : (count : Nat) → Spots → Spots
  | 0, s => s
  | count + 1, s =>
    let next := s.union (step s)
    if next == s then s else closure step count next

def iterate (step : Spots → Spots) : (count : Nat) → Spots → Spots
  | 0, s => s
  | count + 1, s => if s.isEmpty then s else iterate step count (step s)

end Spots

namespace Regex

/-- The positions that a match from one of `s` ends at. -/
def run (text : Array Char) : Regex → Spots → Spots
  | empty, s => s
  | one set, s => s.advance text set.contains
  | .assert a, s => s.restrict text a
  | seq a b, s => b.run text (a.run text s)
  | alt a b, s => (a.run text s).union (b.run text s)
  | copies a least most, s =>
    let s := s.iterate (a.run text) least
    -- Every round of a closure adds a position or is the last one.
    s.closure (a.run text) (most.elim (text.size + 1) (· - least))

def occursIn (r : Regex) (text : String) : Bool :=
  let text := text.toList.toArray
  !(r.run text (Spots.everywhere text)).isEmpty

end Regex

end Rollup.Pattern
