/-!
The characters of YAML texts, and positions in them.
-/
namespace Rollup.Yaml

def isAllowed (c : Char) : Bool :=
  let n := c.toNat
  n == 9 || n == 0xA || n == 0xD || (0x20 ≤ n && n ≤ 0x7E) || n == 0x85 ||
    (0xA0 ≤ n && n ≤ 0xD7FF) || (0xE000 ≤ n && n ≤ 0xFFFD && n != 0xFEFF) || 0x10000 ≤ n

/-- Ends a line. Other line ends have become these before. -/
def isBreak (c : Char) : Bool := c == '\n' || c == '\u2028' || c == '\u2029'

def isSpaceOrTab (c : Char) : Bool := c == ' ' || c == '\t'

def isGap : Option Char → Bool
  | none => true
  | some c => isSpaceOrTab c || isBreak c

def withLineFeeds : List Char → List Char
  | [] => []
  | '\r' :: '\n' :: rest => '\n' :: withLineFeeds rest
  | '\r' :: rest => '\n' :: withLineFeeds rest
  | '\u0085' :: rest => '\n' :: withLineFeeds rest
  | c :: rest => c :: withLineFeeds rest

structure Position where
  line : Nat := 0
  column : Nat := 0
  /-- Characters since the start of the text. -/
  offset : Nat := 0
  deriving DecidableEq, Repr, Inhabited

def Position.after (p : Position) (c : Char) : Position :=
  if isBreak c then ⟨p.line + 1, 0, p.offset + 1⟩ else ⟨p.line, p.column + 1, p.offset + 1⟩

/-- Three dashes or dots at the start of a line, apart from what follows. -/
def isMarker (mark : Char) (p : Position) (text : List Char) : Bool :=
  p.column == 0 && text.take 3 == [mark, mark, mark] && isGap text[3]?

def isAnyMarker (p : Position) (text : List Char) : Bool :=
  isMarker '-' p text || isMarker '.' p text

end Rollup.Yaml
