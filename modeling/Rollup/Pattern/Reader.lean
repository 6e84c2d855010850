import Rollup.Pattern.Error
import Rollup.Pattern.Regex

/-!
Reading patterns: the usual notation of regular expressions, without look-around and without
back-references.
-/
namespace Rollup.Pattern

structure Cursor where
  rest : List Char
  offset : Nat

namespace Cursor

def next? (c : Cursor) : Option (Char × Cursor) :=
  match c.rest with
  | [] => none
  | x :: rest => some (x, ⟨rest, c.offset + 1⟩)

def peek? (c : Cursor) : Option Char := c.rest.head?

def skip (c : Cursor) (n : Nat) : Cursor := ⟨c.rest.drop n, c.offset + n⟩

def startsWith (c : Cursor) (text : String) : Bool := text.toList.isPrefixOf c.rest

def skipWhile (c : Cursor) (keep : Char → Bool) : Cursor :=
  c.skip (c.rest.takeWhile keep).length

def fail (fault : Fault) (first stop : Nat) : Except Error α := .error ⟨fault, first, stop⟩

def failHere (c : Cursor) (fault : Fault) : Except Error α := fail fault c.offset (c.offset + 1)

end Cursor

open Cursor (fail)

structure Flags where
  caseless : Bool := false
  multiline : Bool := false
  dotAll : Bool := false
  /-- White space and comments are left out. -/
  extended : Bool := false

namespace Flags

/-- The text of a flag that changes nothing about whether a pattern occurs is accepted. -/
def assign (f : Flags) (flag : Char) (value : Bool) : Option Flags :=
  match flag with
  | 'i' => some { f with caseless := value }
  | 'm' => some { f with multiline := value }
  | 's' => some { f with dotAll := value }
  | 'x' => some { f with extended := value }
  | 'U' => some f
  | 'u' => some f
  | 'R' => some f
  | _ => none

def literal (f : Flags) (c : Char) : CharSet :=
  if f.caseless then .caseless (.single c) else .single c

def span (f : Flags) (low high : Char) : CharSet :=
  if f.caseless then .caseless (.range low high) else .range low high

def dot (f : Flags) : CharSet := if f.dotAll then .any else .complement (.single '\n')

end Flags

def skipLayout (f : Flags) : (fuel : Nat) → Cursor → Cursor
  | 0, c => c
  | fuel + 1, c =>
    if !f.extended then c
    else match c.next? with
      | some ('#', c) => skipLayout f fuel (c.skipWhile (· != '\n'))
      | some (x, after) => if isBlank x then skipLayout f fuel after else c
      | none => c

inductive Token
  | literal (c : Char)
  | set (s : CharSet)
  | assertion (a : Assertion)

def hexValue (c : Char) : Option Nat :=
  if c.isDigit then some (c.toNat - '0'.toNat)
  else if 'a' ≤ c ∧ c ≤ 'f' then some (c.toNat - 'a'.toNat + 10)
  else if 'A' ≤ c ∧ c ≤ 'F' then some (c.toNat - 'A'.toNat + 10)
  else none

def scalar? (n : Nat) : Option Char := if n.isValidChar then some (Char.ofNat n) else none

def readHexDigits : (count value : Nat) → Cursor → Except Error (Nat × Cursor)
  | 0, value, c => .ok (value, c)
  | count + 1, value, c => match c.next? with
    | none => fail .escapeUnfinished c.offset c.offset
    | some (x, after) => match hexValue x with
      | none => c.failHere .escapeHexInvalidDigit
      | some digit => readHexDigits count (16 * value + digit) after

def readHex (width start : Nat) (c : Cursor) : Except Error (Char × Cursor) := do
  let (value, after) ← match c.next? with
    | none => fail .escapeUnfinished start c.offset
    | some ('\x7b', inner) =>
      let digits := inner.rest.takeWhile (· != '\x7d')
      let after := inner.skip digits.length
      if after.rest.isEmpty then fail .escapeUnfinished c.offset after.offset
      else if digits.isEmpty then fail .escapeHexEmpty c.offset (after.offset + 1)
      else
        let (value, _) ← readHexDigits digits.length 0 inner
        pure (value, after.skip 1)
    | some _ => readHexDigits width 0 c
  match scalar? value with
  | some x => return (x, after)
  | none => fail .escapeHexInvalid c.offset after.offset

def property? : String → Option CharSet
  | "Nd" => some .digit
  | "White_Space" => some .blank
  | _ => none

def readProperty (start : Nat) (negated : Bool) (c : Cursor) :
    Except Error (CharSet × Cursor) := do
  let (name, after) ← match c.next? with
    | none => fail .escapeUnfinished start c.offset
    | some ('\x7b', inner) =>
      let name := inner.rest.takeWhile (· != '\x7d')
      let after := inner.skip name.length
      if after.rest.isEmpty then fail .escapeUnfinished c.offset after.offset
      else pure (String.ofList name, after.skip 1)
    | some (x, after) => pure (String.singleton x, after)
  match property? name with
  | some set => return (if negated then .complement set else set, after)
  | none => fail .propertyUnknown start after.offset

def isAsciiLetterOrDigit (c : Char) : Bool := c.isAlphanum

def readEscape (start : Nat) (c : Cursor) : Except Error (Token × Cursor) :=
  match c.next? with
  | none => fail .escapeUnfinished start c.offset
  | some (x, after) =>
    if x.isDigit then fail .backreference start after.offset
    else match x with
      | 'x' => (readHex 2 start after).map fun (y, c) => (.literal y, c)
      | 'u' => (readHex 4 start after).map fun (y, c) => (.literal y, c)
      | 'U' => (readHex 8 start after).map fun (y, c) => (.literal y, c)
      | 'p' => (readProperty start false after).map fun (s, c) => (.set s, c)
      | 'P' => (readProperty start true after).map fun (s, c) => (.set s, c)
      | 'd' => .ok (.set .digit, after)
      | 'D' => .ok (.set (.complement .digit), after)
      | 's' => .ok (.set .blank, after)
      | 'S' => .ok (.set (.complement .blank), after)
      | 'w' => .ok (.set .word, after)
      | 'W' => .ok (.set (.complement .word), after)
      | 'a' => .ok (.literal '\x07', after)
      | 'f' => .ok (.literal '\x0c', after)
      | 't' => .ok (.literal '\t', after)
      | 'n' => .ok (.literal '\n', after)
      | 'r' => .ok (.literal '\r', after)
      | 'v' => .ok (.literal '\x0b', after)
      | 'A' => .ok (.assertion .textStart, after)
      | 'z' => .ok (.assertion .textEnd, after)
      | 'b' => .ok (.assertion .wordBoundary, after)
      | 'B' => .ok (.assertion .notWordBoundary, after)
      | '<' => .ok (.assertion .wordStart, after)
      | '>' => .ok (.assertion .wordEnd, after)
      | _ =>
        if x.toNat < 0x80 ∧ ¬ isAsciiLetterOrDigit x then .ok (.literal x, after)
        else fail .escapeUnknown start after.offset

/-! ### Classes -/

def asciiClass? (name : String) : Option CharSet :=
  let digits := CharSet.range '0' '9'
  let lower := CharSet.range 'a' 'z'
  let upper := CharSet.range 'A' 'Z'
  let letters := CharSet.union lower upper
  let alnum := letters.union digits
  let graph := CharSet.range '!' '~'
  match name with
  | "alnum" => some alnum
  | "alpha" => some letters
  | "ascii" => some (.range '\x00' '\x7f')
  | "blank" => some (.union (.single '\t') (.single ' '))
  | "cntrl" => some (.union (.range '\x00' '\x1f') (.single '\x7f'))
  | "digit" => some digits
  | "graph" => some graph
  | "lower" => some lower
  | "print" => some (.range ' ' '~')
  | "punct" => some (graph.except alnum)
  | "space" => some (.union (.range '\t' '\r') (.single ' '))
  | "upper" => some upper
  | "word" => some (alnum.union (.single '_'))
  | "xdigit" => some (digits.union (.union (.range 'a' 'f') (.range 'A' 'F')))
  | _ => none

def readAsciiClass? (c : Cursor) : Option (CharSet × Cursor) :=
  if !c.startsWith "[:" then none
  else
    let inner := c.skip 2
    let negated := inner.peek? == some '^'
    let inner := if negated then inner.skip 1 else inner
    let name := inner.rest.takeWhile (· != ':')
    let after := inner.skip name.length
    if !after.startsWith ":]" then none
    else (asciiClass? (String.ofList name)).map fun set =>
      (if negated then .complement set else set, after.skip 2)

inductive SetOperator
  | inter
  | except
  | either

def SetOperator.apply : SetOperator → CharSet → CharSet → CharSet
  | inter => .inter
  | except => .except
  | either => .either

/-- A class under way: the operands before the last operator, and the items since. -/
structure OpenClass where
  start : Nat
  negated : Bool
  before : Option (SetOperator × CharSet)
  items : CharSet

namespace OpenClass

def add (o : OpenClass) (s : CharSet) : OpenClass := { o with items := .union o.items s }

def value (o : OpenClass) : CharSet :=
  match o.before with
  | none => o.items
  | some (op, left) => op.apply left o.items

def operate (o : OpenClass) (op : SetOperator) : OpenClass :=
  { o with before := some (op, o.value), items := .none }

def close (o : OpenClass) : CharSet := if o.negated then .complement o.value else o.value

end OpenClass

/-- The opening bracket, a caret, and the characters that stand for themselves only there. -/
def openClass (flags : Flags) (c : Cursor) : Except Error (OpenClass × Cursor) := do
  let start := c.offset
  let inner := c.skip 1
  let negated := inner.peek? == some '^'
  let inner := if negated then inner.skip 1 else inner
  let dashes := (inner.rest.takeWhile (· == '-')).length
  let afterDashes := inner.skip dashes
  let (bracket, after) :=
    if dashes = 0 ∧ afterDashes.peek? = some ']' then (true, afterDashes.skip 1)
    else (false, afterDashes)
  if after.rest.isEmpty then fail .classUnclosed start after.offset
  let items := if dashes = 0 then CharSet.none else flags.literal '-'
  let items := if bracket then items.union (flags.literal ']') else items
  return (⟨start, negated, none, items⟩, after)

def readMember (c : Cursor) : Except Error (Token × Cursor) :=
  match c.next? with
  | some ('\\', after) => readEscape c.offset after
  | some (x, after) => .ok (.literal x, after)
  | none => fail .classUnclosed c.offset c.offset

def memberSet (flags : Flags) (first stop : Nat) : Token → Except Error CharSet
  | .literal x => .ok (flags.literal x)
  | .set s => .ok s
  | .assertion _ => fail .classEscapeInvalid first stop

def readRange (flags : Flags) (o : OpenClass) (c : Cursor) : Except Error (CharSet × Cursor) := do
  let (low, after) ← readMember c
  let alone := match after.rest with
    | '-' :: ']' :: _ => true
    | '-' :: '-' :: _ => true
    | '-' :: _ => false
    | _ => true
  if after.rest.isEmpty then fail .classUnclosed o.start (o.start + 1)
  if alone then return (← memberSet flags c.offset after.offset low, after)
  let dashed := after.skip 1
  if dashed.rest.isEmpty then fail .classUnclosed o.start (o.start + 1)
  let (high, finish) ← readMember dashed
  match low, high with
  | .literal x, .literal y =>
    if x ≤ y then return (flags.span x y, finish)
    else fail .classRangeInvalid c.offset finish.offset
  | .literal _, _ => fail .classRangeLiteral dashed.offset finish.offset
  | _, _ => fail .classRangeLiteral c.offset after.offset

/-- Reads the items of the innermost open class and closes it; `fuel` bounds the number of items. -/
def readClass (flags : Flags) : (fuel : Nat) → OpenClass → List OpenClass → Cursor →
    Except Error (CharSet × Cursor)
  | 0, o, _, _ => fail .classUnclosed o.start (o.start + 1)
  | fuel + 1, o, outer, c => do
    let c := skipLayout flags c.rest.length c
    match c.rest with
    | [] => fail .classUnclosed o.start (o.start + 1)
    | '[' :: _ => match readAsciiClass? c with
      | some (set, after) => readClass flags fuel (o.add set) outer after
      | none =>
        let (inner, after) ← openClass flags c
        readClass flags fuel inner (o :: outer) after
    | ']' :: _ => match outer with
      | [] => return (o.close, c.skip 1)
      | parent :: outer => readClass flags fuel (parent.add o.close) outer (c.skip 1)
    | '&' :: '&' :: _ => readClass flags fuel (o.operate .inter) outer (c.skip 2)
    | '-' :: '-' :: _ => readClass flags fuel (o.operate .except) outer (c.skip 2)
    | '~' :: '~' :: _ => readClass flags fuel (o.operate .either) outer (c.skip 2)
    | _ =>
      let (set, after) ← readRange flags o c
      readClass flags fuel (o.add set) outer after

/-! ### Groups, flags and repetitions -/

inductive Group
  /-- A group, and the flags and names that hold inside. -/
  | enter (flags : Flags) (names : List String)
  /-- Flags for what follows, without a group of their own. -/
  | set (flags : Flags)

def readFlags : (fuel : Nat) → (inner : Nat) → Flags → (negated last : Bool) → (seen : List Char) →
    Cursor → Except Error (Flags × Bool × Cursor)
  | 0, _, _, _, _, _, c => fail .flagUnfinished c.offset c.offset
  | fuel + 1, inner, flags, negated, last, seen, c => match c.next? with
    | none => fail .flagUnfinished c.offset c.offset
    | some (x, after) =>
      if x = ':' ∨ x = ')' then
        if last then fail .flagDanglingNegation (c.offset - 1) c.offset
        else if x = ')' ∧ seen.isEmpty then fail .repetitionMissing inner inner
        else .ok (flags, x == ')', after)
      else if x = '-' then
        if negated then c.failHere .flagRepeatedNegation
        else readFlags fuel inner flags true true seen after
      else match flags.assign x (!negated) with
        | none => c.failHere .flagUnknown
        | some assigned =>
          if seen.contains x then c.failHere .flagDuplicate
          else readFlags fuel inner assigned negated false (x :: seen) after

def isNameChar (first : Bool) (c : Char) : Bool :=
  c == '_' || c.isAlpha || (!first && (c.isDigit || c == '.' || c == '[' || c == ']')) ||
    (0x80 ≤ c.toNat && isWordChar c)

def readName (names : List String) (c : Cursor) : Except Error (String × Cursor) :=
  let name := c.rest.takeWhile (· != '>')
  let after := c.skip name.length
  match name.zipIdx.find? fun (x, i) => !isNameChar (i == 0) x with
  | some (_, i) => fail .groupNameInvalid (c.offset + i) (c.offset + i + 1)
  | none =>
    if after.rest.isEmpty then fail .groupNameUnfinished after.offset after.offset
    else if name.isEmpty then fail .groupNameEmpty c.offset c.offset
    else if names.contains (String.ofList name) then
      fail .groupNameDuplicate c.offset after.offset
    else .ok (String.ofList name, after.skip 1)

def readGroup (start : Nat) (flags : Flags) (names : List String) (c : Cursor) :
    Except Error (Group × Cursor) :=
  if c.startsWith "?=" || c.startsWith "?!" then fail .lookAround start (c.offset + 2)
  else if c.startsWith "?<=" || c.startsWith "?<!" then fail .lookAround start (c.offset + 3)
  else if c.startsWith "?P<" then
    (readName names (c.skip 3)).map fun (name, c) => (.enter flags (name :: names), c)
  else if c.startsWith "?<" then
    (readName names (c.skip 2)).map fun (name, c) => (.enter flags (name :: names), c)
  else if c.startsWith "?" then
    let inner := c.skip 1
    if inner.rest.isEmpty then fail .groupUnclosed start (start + 1)
    else (readFlags (inner.rest.length + 1) c.offset flags false false [] inner).map
      fun (flags, closed, c) => (if closed then .set flags else .enter flags names, c)
  else .ok (.enter flags names, c)

def maxCount : Nat := 0xFFFFFFFF

def readCount (c : Cursor) : Except Error (Nat × Cursor) :=
  let c := c.skipWhile isBlank
  let digits := c.rest.takeWhile Char.isDigit
  let after := c.skip digits.length
  if digits.isEmpty then fail .countEmpty c.offset after.offset
  else
    let value := digits.foldl (fun n x => 10 * n + (x.toNat - '0'.toNat)) 0
    if maxCount < value then fail .numberInvalid c.offset after.offset
    else .ok (value, after.skipWhile isBlank)

def skipLazy (c : Cursor) : Cursor := if c.peek? = some '?' then c.skip 1 else c

def readCounts (start : Nat) (c : Cursor) : Except Error (Nat × Option Nat × Cursor) := do
  if c.rest.isEmpty then fail .countUnclosed start c.offset
  let (least, c) ← readCount c
  let (most, c) ← match c.rest with
    | ',' :: '\x7d' :: _ => pure (none, c.skip 1)
    | [','] => fail .countUnclosed start (c.offset + 1)
    | ',' :: _ => do
      let (most, c) ← readCount (c.skip 1)
      pure (some most, c)
    | _ => pure (some least, c)
  if c.peek? ≠ some '\x7d' then fail .countUnclosed start c.offset
  let after := skipLazy (c.skip 1)
  if most.any (· < least) then fail .countInvalid start after.offset
  return (least, most, after)

/-- A group under way: the finished alternatives, and the items of the last one, newest first. An
item is `none` where flags were set, for those cannot be repeated. -/
structure Frame where
  start : Nat
  flags : Flags
  branches : List Regex
  items : List (Option Regex)

namespace Frame

def enter (start : Nat) (flags : Flags) : Frame := ⟨start, flags, [], []⟩

def push (f : Frame) (r : Regex) : Frame := { f with items := some r :: f.items }

def branch (f : Frame) : Regex :=
  f.items.foldl (fun tail item => match item with
    | none => tail
    | some r => match tail with
      | .empty => r
      | _ => .seq r tail) .empty

def alternate (f : Frame) : Frame := { f with branches := f.branch :: f.branches, items := [] }

def close (f : Frame) : Regex := f.branches.foldl (fun tail r => .alt r tail) f.branch

def repeated (f : Frame) (offset least : Nat) (most : Option Nat) : Except Error Frame :=
  match f.items with
  | some r :: rest => .ok { f with items := some (.copies r least most) :: rest }
  | _ => fail .repetitionMissing offset offset

end Frame

/-- Reads item after item. The open groups are on a stack, the innermost first, which is never
empty: its last frame is the pattern itself. -/
def readItems : (fuel : Nat) → Frame → List Frame → (names : List String) → Cursor →
    Except Error Regex
  | 0, f, _, _, _ => fail .groupUnclosed f.start (f.start + 1)
  | fuel + 1, f, outer, names, c => do
    let c := skipLayout f.flags c.rest.length c
    match c.next? with
    | none => match outer with
      | [] => return f.close
      | _ :: _ => fail .groupUnclosed f.start (f.start + 1)
    | some (x, after) =>
      let repeatLast (least : Nat) (most : Option Nat) : Except Error Regex := do
        readItems fuel (← f.repeated c.offset least most) outer names (skipLazy after)
      match x with
      | '(' => match ← readGroup c.offset f.flags names after with
        | (.set flags, after) =>
          readItems fuel { f with flags := flags, items := none :: f.items } outer names after
        | (.enter flags names, after) =>
          readItems fuel (.enter c.offset flags) (f :: outer) names after
      | ')' => match outer with
        | [] => fail .groupUnopened c.offset (c.offset + 1)
        | parent :: outer => readItems fuel (parent.push f.close) outer names after
      | '|' => readItems fuel f.alternate outer names after
      | '[' =>
        let (o, inner) ← openClass f.flags c
        let (set, after) ← readClass f.flags (c.rest.length + 1) o [] inner
        readItems fuel (f.push (.one set)) outer names after
      | '?' => repeatLast 0 (some 1)
      | '*' => repeatLast 0 none
      | '+' => repeatLast 1 none
      | '\x7b' =>
        let _ ← f.repeated c.offset 0 none
        let (least, most, after) ← readCounts c.offset after
        readItems fuel (← f.repeated c.offset least most) outer names after
      | '\\' =>
        let (token, after) ← readEscape c.offset after
        let item := match token with
          | .literal y => Regex.one (f.flags.literal y)
          | .set s => .one s
          | .assertion a => .assert a
        readItems fuel (f.push item) outer names after
      | '.' => readItems fuel (f.push (.one f.flags.dot)) outer names after
      | '^' =>
        let a := if f.flags.multiline then Assertion.lineStart else .textStart
        readItems fuel (f.push (.assert a)) outer names after
      | '$' =>
        let a := if f.flags.multiline then Assertion.lineEnd else .textEnd
        readItems fuel (f.push (.assert a)) outer names after
      | _ => readItems fuel (f.push (.one (f.flags.literal x))) outer names after

def Regex.read (pattern : String) : Except Error Regex :=
  let c : Cursor := ⟨pattern.toList, 0⟩
  readItems (c.rest.length + 1) (.enter 0 {}) [] [] c

end Rollup.Pattern
