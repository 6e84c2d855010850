import Rollup.Yaml.Scalar

/-!
The tokens of a YAML text. Indentation becomes tokens of its own, and a text that turns out to be a
key, because a colon follows it on its line, gets its tokens afterwards.
-/
namespace Rollup.Yaml

inductive Token
  | documentStart
  | documentEnd
  | blockListStart
  | blockMapStart
  | blockEnd
  | flowListStart
  | flowListEnd
  | flowMapStart
  | flowMapEnd
  | blockEntry
  | flowEntry
  | key
  | value
  | plain (text : String)
  | quoted (text : String)
  deriving DecidableEq, Repr, Inhabited

structure KeyCandidate where
  index : Nat
  position : Position
  /-- Nothing but a key can stand there. -/
  required : Bool

def KeyCandidate.reach : Nat := 1024

/-- A key is on one line with its colon, and not too long. -/
def KeyCandidate.isStale (k : KeyCandidate) (p : Position) : Bool :=
  k.position.line < p.line || k.position.offset + KeyCandidate.reach < p.offset

structure Scanner where
  rest : List Char
  position : Position := {}
  tokens : Array Token := #[]
  /-- The columns of the open block collections, innermost first. -/
  indents : List Nat := []
  /-- The candidates of the open flow collections, innermost first. -/
  flows : List (Option KeyCandidate) := []
  candidate : Option KeyCandidate := none
  /-- Whether a key may begin here. -/
  keyAllowed : Bool := true

namespace Scanner

def inFlow (s : Scanner) : Bool := !s.flows.isEmpty

def push (t : Token) (s : Scanner) : Scanner := { s with tokens := s.tokens.push t }

def skip (s : Scanner) : Scanner :=
  match s.rest with
  | [] => s
  | c :: rest => { s with rest := rest, position := s.position.after c }

def skipMany : Nat → Scanner → Scanner
  | 0, s => s
  | n + 1, s => skipMany n s.skip

/-- Goes on behind white space and comments. Where a key may begin a tab is not skipped, since it
would indent the key. -/
def toToken (s : Scanner) : Scanner :=
  go s.rest s.position s.keyAllowed false
where
  go : List Char → Position → Bool → (inComment : Bool) → Scanner
  | [], p, allowed, _ => { s with rest := [], position := p, keyAllowed := allowed }
  | c :: rest, p, allowed, inComment =>
    if isBreak c then go rest (p.after c) (allowed || !s.inFlow) false
    else if inComment || c == ' ' || (c == '\t' && (s.inFlow || !allowed)) then
      go rest (p.after c) allowed inComment
    else if c == '#' then go rest (p.after c) allowed true
    else { s with rest := c :: rest, position := p, keyAllowed := allowed }

def dropCandidate (s : Scanner) : Except Fault Scanner :=
  if s.candidate.any (·.required) then .error .missingColon else .ok { s with candidate := none }

def dropStale (s : Scanner) : Except Fault Scanner := do
  let check (k : Option KeyCandidate) : Except Fault (Option KeyCandidate) :=
    match k with
    | none => .ok none
    | some k =>
      if !k.isStale s.position then .ok (some k)
      else if k.required then .error .missingColon
      else .ok none
  return { s with candidate := ← check s.candidate, flows := ← s.flows.mapM check }

def noteCandidate (s : Scanner) : Except Fault Scanner := do
  if !s.keyAllowed then return s
  let s ← s.dropCandidate
  let required := !s.inFlow && s.indents.head? == some s.position.column
  return { s with candidate := some ⟨s.tokens.size, s.position, required⟩ }

def endBlocks (column : Option Nat) (s : Scanner) : Scanner :=
  if s.inFlow then s
  else
    let ended := s.indents.takeWhile fun indent => column.all (· < indent)
    { s with
      indents := s.indents.drop ended.length
      tokens := s.tokens ++ ended.map fun _ => Token.blockEnd }

/-- Begins a block collection at a column, unless one is open there. Its token goes before the token
of a number. -/
def beginBlock (column index : Nat) (t : Token) (s : Scanner) : Scanner :=
  if !s.inFlow && s.indents.head?.all (· < column) then
    { s with indents := column :: s.indents, tokens := s.tokens.insertIdxIfInBounds index t }
  else s

def flowStart (t : Token) (s : Scanner) : Except Fault Scanner := do
  let s ← s.noteCandidate
  return { (s.skip.push t) with
    flows := s.candidate :: s.flows, candidate := none, keyAllowed := true }

def flowEnd (t : Token) (s : Scanner) : Except Fault Scanner := do
  let s ← s.dropCandidate
  let s := { s with candidate := s.flows.head?.getD none, flows := s.flows.drop 1 }
  return { (s.skip.push t) with keyAllowed := false }

def flowEntry (s : Scanner) : Except Fault Scanner := do
  let s ← s.dropCandidate
  return { (s.skip.push .flowEntry) with keyAllowed := true }

def blockEntry (s : Scanner) : Except Fault Scanner := do
  if !s.inFlow && !s.keyAllowed then throw .misplacedEntry
  let s := s.beginBlock s.position.column s.tokens.size .blockListStart
  let s ← s.dropCandidate
  return { (s.skip.push .blockEntry) with keyAllowed := true }

def explicitKey (s : Scanner) : Except Fault Scanner := do
  if !s.inFlow && !s.keyAllowed then throw .misplacedKey
  let s := s.beginBlock s.position.column s.tokens.size .blockMapStart
  let s ← s.dropCandidate
  return { (s.skip.push .key) with keyAllowed := !s.inFlow }

def valueSign (s : Scanner) : Except Fault Scanner := do
  match s.candidate with
  | some k =>
    let s := { s with tokens := s.tokens.insertIdxIfInBounds k.index .key, candidate := none }
    let s := s.beginBlock k.position.column k.index .blockMapStart
    return { (s.skip.push .value) with keyAllowed := false }
  | none =>
    if !s.inFlow && !s.keyAllowed then throw .misplacedValue
    let s := s.beginBlock s.position.column s.tokens.size .blockMapStart
    return { (s.skip.push .value) with keyAllowed := !s.inFlow }

def marker (t : Token) (s : Scanner) : Except Fault Scanner := do
  let s ← (s.endBlocks none).dropCandidate
  return { ((skipMany 3 s).push t) with keyAllowed := false }

def behind (x : Scanned) (token : String → Token) (keyAllowed : Bool) (s : Scanner) : Scanner :=
  { s with rest := x.rest, position := x.position, keyAllowed := keyAllowed }.push (token x.text)

def plainScalar (s : Scanner) : Except Fault Scanner := do
  let s ← s.noteCandidate
  let indent := (s.indents.head?.map (· + 1)).getD 0
  let x ← Plain.readFrom s.inFlow indent {} s.position s.rest
  return s.behind x .plain x.broken

def quotedScalar (read : Folding → Position → List Char → Except Fault Scanned)
    (s : Scanner) : Except Fault Scanner := do
  let s ← s.noteCandidate
  let open_ := s.skip
  return s.behind (← read {} open_.position open_.rest) .quoted false

def blockScalar (literal : Bool) (s : Scanner) : Except Fault Scanner := do
  let s ← s.dropCandidate
  let open_ := s.skip
  return s.behind (← Block.read literal s.indents.head? open_.position open_.rest) .quoted true

def indicators : List Char :=
  [',', '[', ']', '\x7b', '\x7d', '#', '&', '*', '!', '|', '>', '\x27', '\x22', '%', '@', '\x60']

def beginsPlain (inFlow : Bool) (c : Char) (next : Option Char) : Bool :=
  if c == '-' then !next.any isSpaceOrTab
  else if c == '?' || c == ':' then !inFlow && !isGap next
  else !isGap (some c) && !indicators.contains c

def token (c : Char) (s : Scanner) : Except Fault Scanner :=
  let next := s.rest[1]?
  let apart := isGap next
  if isMarker '-' s.position s.rest then s.marker .documentStart
  else if isMarker '.' s.position s.rest then s.marker .documentEnd
  else match c with
    | '[' => s.flowStart .flowListStart
    | '\x7b' => s.flowStart .flowMapStart
    | ']' => s.flowEnd .flowListEnd
    | '\x7d' => s.flowEnd .flowMapEnd
    | ',' => s.flowEntry
    | '\x27' => s.quotedScalar Quoted.readSingle
    | '\x22' => s.quotedScalar (Quoted.readDouble .text)
    | _ =>
      if c == '-' && apart then s.blockEntry
      else if c == '?' && (s.inFlow || apart) then s.explicitKey
      else if c == ':' && (s.inFlow || apart) then s.valueSign
      else if c == '|' && !s.inFlow then s.blockScalar true
      else if c == '>' && !s.inFlow then s.blockScalar false
      else if beginsPlain s.inFlow c next then s.plainScalar
      else .error (.unexpectedCharacter c)

/-- Scans to the end; every step takes a character at least. -/
def run : (fuel : Nat) → Scanner → Except Fault (Array Token)
  | 0, s => .ok s.tokens
  | fuel + 1, s => do
    let s ← s.toToken.dropStale
    let s := s.endBlocks (some s.position.column)
    match s.rest with
    | [] =>
      let s ← (s.endBlocks none).dropCandidate
      return s.tokens
    | c :: _ => run fuel (← s.token c)

end Scanner

def Token.scan (text : List Char) : Except Fault (List Token) := do
  let text := match text with
    | '\uFEFF' :: text => text
    | text => text
  if !text.all isAllowed then throw .controlCharacter
  let text := withLineFeeds text
  return (← Scanner.run (text.length + 1) { rest := text }).toList

end Rollup.Yaml
