import Rollup.Yaml.Fault
import Rollup.Yaml.Folding

/-!
Scalars read from a text: plain, in quotes, and in blocks of lines.
-/
namespace Rollup.Yaml

structure Scanned where
  text : String
  /-- White space with a line end follows, which was skipped. -/
  broken : Bool := false
  position : Position
  rest : List Char

/-- The characters that structure a flow collection. -/
def isFlowIndicator (c : Char) : Bool := [',', '[', ']', '\x7b', '\x7d'].contains c

namespace Plain

def endsAt (inFlow : Bool) (indent : Nat) (f : Folding) (p : Position) (c : Char)
    (rest : List Char) : Bool :=
  (f.gap.isBroken && !inFlow && p.column < indent) || isAnyMarker p (c :: rest) ||
    (c == '#' && !f.gap.isEmpty) || (c == ':' && isGap rest.head?) ||
    (inFlow && isFlowIndicator c)

/-- A colon within a flow collection must not touch its structure. -/
def isBadColon (inFlow : Bool) (c : Char) (rest : List Char) : Bool :=
  inFlow && c == ':' && rest.head?.any fun d => d == '?' || isFlowIndicator d

/-- Reads on. In a block, a line that belongs to the scalar is indented to `indent` at least. -/
def readFrom (inFlow : Bool) (indent : Nat) (f : Folding) (p : Position) :
    List Char → Except Fault Scanned
  | [] => .ok ⟨f.string, f.gap.isBroken, p, []⟩
  | c :: rest =>
    if isGap (some c) then
      if c == '\t' && f.gap.isBroken && p.column < indent then .error .tabIndentation
      else readFrom inFlow indent (f.space c) (p.after c) rest
    else if isBadColon inFlow c rest then .error .unexpectedColon
    else if endsAt inFlow indent f p c rest then .ok ⟨f.string, f.gap.isBroken, p, c :: rest⟩
    else readFrom inFlow indent (f.add c) (p.after c) rest

end Plain

namespace Quoted

def hexLength : Char → Option Nat
  | 'x' => some 2
  | 'u' => some 4
  | 'U' => some 8
  | _ => none

def escaped : Char → Option Char
  | '0' => some '\x00'
  | 'a' => some '\x07'
  | 'b' => some '\x08'
  | 't' => some '\t'
  | '\t' => some '\t'
  | 'n' => some '\n'
  | 'v' => some '\x0b'
  | 'f' => some '\x0c'
  | 'r' => some '\r'
  | 'e' => some '\x1b'
  | ' ' => some ' '
  | '\x22' => some '\x22'
  | '/' => some '/'
  | '\\' => some '\\'
  | 'N' => some '\u0085'
  | '_' => some '\u00a0'
  | 'L' => some '\u2028'
  | 'P' => some '\u2029'
  | _ => none

def hexDigit (c : Char) : Option Nat :=
  if c.isDigit then some (c.toNat - '0'.toNat)
  else if 'a' ≤ c ∧ c ≤ 'f' then some (c.toNat - 'a'.toNat + 10)
  else if 'A' ≤ c ∧ c ≤ 'F' then some (c.toNat - 'A'.toNat + 10)
  else none

inductive Mode
  | text
  | escape
  /-- Within the digits of an escape. -/
  | digits (left value : Nat)

def readSingle (f : Folding) (p : Position) : List Char → Except Fault Scanned
  | [] => .error .unclosedQuote
  | '\x27' :: '\x27' :: rest => readSingle (f.add '\x27') ((p.after '\x27').after '\x27') rest
  | c :: rest =>
    if isAnyMarker p (c :: rest) then .error .documentMarker
    else if c == '\x27' then .ok ⟨f.close.string, false, p.after c, rest⟩
    else if isGap (some c) then readSingle (f.space c) (p.after c) rest
    else readSingle (f.add c) (p.after c) rest

def readDouble (mode : Mode) (f : Folding) (p : Position) : List Char → Except Fault Scanned
  | [] => .error .unclosedQuote
  | c :: rest => match mode with
    | .text =>
      if isAnyMarker p (c :: rest) then .error .documentMarker
      else if c == '\x22' then .ok ⟨f.close.string, false, p.after c, rest⟩
      else if c == '\\' then readDouble .escape f.close (p.after c) rest
      else if isGap (some c) then readDouble .text (f.space c) (p.after c) rest
      else readDouble .text (f.add c) (p.after c) rest
    | .escape =>
      if isBreak c then readDouble .text ⟨f.text, .joined []⟩ (p.after c) rest
      else match hexLength c, escaped c with
        | some length, _ => readDouble (.digits length 0) f (p.after c) rest
        | none, some d => readDouble .text (f.add d) (p.after c) rest
        | none, none => .error .unknownEscape
    | .digits left value => match hexDigit c with
      | none => .error .unknownEscape
      | some d =>
        let value := 16 * value + d
        if 1 < left then readDouble (.digits (left - 1) value) f (p.after c) rest
        else if value.isValidChar then
          readDouble .text (f.add (Char.ofNat value)) (p.after c) rest
        else .error .invalidCodePoint

end Quoted

namespace Block

inductive Chomping
  | strip
  | clip
  | keep

structure Header where
  literal : Bool
  chomping : Chomping
  /-- How far the lines are indented beyond what is around them, if that is said. -/
  increment : Option Nat

def readHeader (literal : Bool) (text : List Char) : Header × List Char :=
  let chomp : List Char → Chomping × List Char
    | '+' :: rest => (.keep, rest)
    | '-' :: rest => (.strip, rest)
    | rest => (.clip, rest)
  let digit : List Char → Option Nat × List Char
    | c :: rest =>
      if c.isDigit && c != '0' then (some (c.toNat - '0'.toNat), rest) else (none, c :: rest)
    | [] => (none, [])
  match digit text with
  | (some n, rest) =>
    let (chomping, rest) := chomp rest
    (⟨literal, chomping, some n⟩, rest)
  | (none, rest) =>
    let (chomping, rest) := chomp rest
    let (increment, rest) := digit rest
    (⟨literal, chomping, increment⟩, rest)

/-- The text in lines without their ends, and whether the last one has an end. -/
def splitLines (text : List Char) : List (List Char) :=
  match _h : text.dropWhile (· != '\n') with
  | [] => [text]
  | _ :: rest => text.takeWhile (· != '\n') :: splitLines rest
termination_by text.length
decreasing_by
  have h := congrArg List.length _h
  have := (List.dropWhile_suffix (l := text) (· != '\n')).length_le
  simp only [List.length_cons] at h
  omega

def leadingSpaces (line : List Char) : Nat := (line.takeWhile (· == ' ')).length

def detectIndent (least : Nat) (lines : List (List Char)) : Nat :=
  let blank := lines.takeWhile fun line => line.all (· == ' ')
  let shown := (lines.drop blank.length).head?.toList ++ blank
  max least ((shown.map leadingSpaces).foldl max 0)

/-- A line with no text in it, which counts as a line end. -/
def isEmptyLine (indent : Nat) (line : List Char) : Bool :=
  line.all (· == ' ') && line.length ≤ indent

/-- The lines that belong to the scalar, and those after it. The last line of the text has no end
and is no line if it is empty. -/
def takeLines (indent : Nat) : List (List Char) → List (List Char) × List (List Char)
  | [] => ([], [])
  | [last] =>
    if indent ≤ leadingSpaces last && indent < last.length then ([last.drop indent], [])
    else ([], [last])
  | line :: rest =>
    if isEmptyLine indent line then
      let (mine, others) := takeLines indent rest
      ([] :: mine, others)
    else if indent ≤ leadingSpaces line then
      let (mine, others) := takeLines indent rest
      (line.drop indent :: mine, others)
    else ([], line :: rest)

/-- Whether a line keeps the line ends around it in a folded scalar. -/
def isIndented (line : List Char) : Bool := line.head?.any isSpaceOrTab

/-- Joins lines that have text, each after some empty ones. -/
def fold (literal : Bool) : (before : Option (List Char)) → (empty : Nat) → List (List Char) →
    List Char
  | _, empty, [] => List.replicate empty '\n'
  | before, empty, line :: rest =>
    if line.isEmpty then fold literal before (empty + 1) rest
    else
      let lead := match before with
        | none => List.replicate empty '\n'
        | some previous =>
          if literal || isIndented previous || isIndented line then List.replicate (empty + 1) '\n'
          else if empty = 0 then [' ']
          else List.replicate empty '\n'
      lead ++ line ++ fold literal (some line) 0 rest

def textOf (h : Header) (lines : List (List Char)) (lastHasEnd : Bool) : List Char :=
  let trailing := (lines.reverse.takeWhile (·.isEmpty)).length
  let body := lines.take (lines.length - trailing)
  let ends := match h.chomping with
    | .strip => 0
    | .clip => if body.isEmpty || !lastHasEnd then 0 else 1
    | .keep =>
      trailing + (if body.isEmpty || (trailing = 0 && !lastHasEnd) then 0 else 1)
  fold h.literal none 0 body ++ List.replicate ends '\n'

/-- Reads a block scalar from behind its indicator. `parent` is the indentation around it, if there
is any. -/
def read (literal : Bool) (parent : Option Nat) (p : Position) (text : List Char) :
    Except Fault Scanned :=
  let (header, rest) := readHeader literal text
  let blanks := rest.takeWhile isSpaceOrTab
  let rest := rest.drop blanks.length
  let rest := if rest.head? == some '#' then rest.dropWhile (· != '\n') else rest
  match rest with
  | [] => .ok ⟨"", false, p, []⟩
  | '\n' :: rest =>
    let lines := splitLines rest
    let least := max 1 ((parent.map (· + 1)).getD 0)
    let indent := match header.increment with
      | some n => parent.getD 0 + n
      | none => detectIndent least lines
    let (mine, others) := takeLines indent lines
    let left := ['\n'].intercalate others
    let consumed := text.length - left.length
    .ok ⟨String.ofList (textOf header mine (!others.isEmpty)), false,
      ⟨p.line + 1 + mine.length, 0, p.offset + consumed⟩, left⟩
  | _ => .error .blockScalarHeader

end Block

end Rollup.Yaml
