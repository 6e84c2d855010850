import Rollup.Document
import Rollup.Number.Shortest
import Rollup.Yaml.Character

/-!
Documents written as YAML: blocks indented by two, list entries at the column of their key, and
every scalar in the plainest form that reads back as what it is.
-/
namespace Rollup.Yaml

/-- Positional from a hundred-thousandth up to sixteen digits before the point. -/
def floats : FloatNotation := ⟨-5, 15, ".nan", ".inf"⟩

inductive ScalarForm
  | plain
  | single
  | double
  | literal
  deriving DecidableEq, Repr

def isShown (c : Char) : Bool :=
  let n := c.toNat
  n == 0xA || (0x20 ≤ n && n ≤ 0x7E) || (0xA0 ≤ n && n ≤ 0xD7FF) ||
    (0xE000 ≤ n && n ≤ 0xFFFD && n != 0xFEFF)

def leadingIndicators : List Char :=
  ['#', ',', '[', ']', '\x7b', '\x7d', '&', '*', '!', '|', '>', '\x27', '\x22', '%', '@', '\x60']

def hasIndicator (text : List Char) : Bool :=
  text.take 3 == ['-', '-', '-'] || text.take 3 == ['.', '.', '.'] || first text || later text
where
  first : List Char → Bool
    | [] => false
    | c :: rest =>
      leadingIndicators.contains c || (['?', ':', '-'].contains c && isGap rest.head?)
  later : List Char → Bool
    | a :: c :: rest =>
      (c == ':' && isGap rest.head?) || (c == '#' && isGap (some a)) || later (c :: rest)
    | _ => false

def hasPair (f g : Char → Bool) : List Char → Bool
  | a :: b :: rest => (f a && g b) || hasPair f g (b :: rest)
  | _ => false

def isSpace (c : Char) : Bool := c == ' '

def readsAsText (text : List Char) : Bool :=
  match PlainScalar.ofText text with
  | .text => !PlainScalar.isPaddedDigits text
  | _ => false

def formOf (text : List Char) : ScalarForm :=
  let special := text.any fun c => !isShown c
  let trailing := text.getLast?.any isSpace
  if special || hasPair isSpace isBreak text then .double
  else if text.contains '\n' then if trailing then .double else .literal
  else if hasPair isBreak isSpace text then .double
  else if text.any isBreak || trailing || text.head?.any isSpace || hasIndicator text ||
      !readsAsText text then .single
  else .plain

def upperHex (width n : Nat) : String :=
  let digits := (Nat.toDigits 16 n).map Char.toUpper
  String.ofList (List.replicate (width - digits.length) '0' ++ digits)

def escape (c : Char) : String :=
  match c with
  | '\x00' => "\\0"
  | '\x07' => "\\a"
  | '\x08' => "\\b"
  | '\t' => "\\t"
  | '\n' => "\\n"
  | '\x0b' => "\\v"
  | '\x0c' => "\\f"
  | '\r' => "\\r"
  | '\x1b' => "\\e"
  | '\x22' => "\\\""
  | '\\' => "\\\\"
  | '\u0085' => "\\N"
  | '\u2028' => "\\L"
  | '\u2029' => "\\P"
  | c =>
    let n := c.toNat
    if isShown c then String.singleton c
    else if n ≤ 0xFF then "\\x" ++ upperHex 2 n
    else if n ≤ 0xFFFF then "\\u" ++ upperHex 4 n
    else "\\U" ++ upperHex 8 n

def blanks (n : Nat) : String := String.ofList (List.replicate n ' ')

/-- The text between single quotes, which are doubled within it. What follows a break is indented,
also the quote at the end. -/
def singleQuoted (indent : Nat) (text : List Char) : String :=
  let rec go : (broken : Bool) → List Char → String
    | broken, [] => if broken then blanks indent else ""
    | broken, c :: rest =>
      (if broken && !isBreak c then blanks indent else "") ++
        (if c == '\x27' then "''" else String.singleton c) ++ go (isBreak c) rest
  "'" ++ go false text ++ "'"

def doubleQuoted (text : List Char) : String := "\"" ++ String.join (text.map escape) ++ "\""

def literalBlock (indent : Nat) (text : List Char) : String :=
  let hint := if text.head?.any fun c => isSpace c || isBreak c then "2" else ""
  let chomp := match text.reverse with
    | '\n' :: rest => if rest.isEmpty || rest.head?.any isBreak then "+" else ""
    | _ => "-"
  let body := if text.getLast? == some '\n' then text.dropLast else text
  let lines := (String.ofList body).splitOn "\n"
  "|" ++ hint ++ chomp ++
    String.join (lines.map fun line => "\n" ++ if line.isEmpty then "" else blanks indent ++ line)

/-- A text on the line of its key or entry; lines below it are indented. -/
def writeText (indent : Nat) (text : String) : String :=
  match formOf text.toList with
  | .plain => text
  | .single => singleQuoted indent text.toList
  | .double => doubleQuoted text.toList
  | .literal => literalBlock indent text.toList

def isLineEnd (c : Char) : Bool := c == '\r' || c == '\u0085' || isBreak c

def isSimpleKey (key : String) : Bool := key.utf8ByteSize ≤ 128 && !key.toList.any isLineEnd

/-- A key at a column, up to its colon. Behind a question mark it can have any length. -/
def writeKey (column : Nat) (key : String) : String :=
  if isSimpleKey key then writeText column key ++ ":"
  else "? " ++ writeText (column + 2) key ++ "\n" ++ blanks column ++ ":"

def inline? (indent : Nat) : Document → Option String
  | .null => some "null"
  | .bool b => some (toString b)
  | .int n => some (toString n)
  | .float x => some (floats.write x)
  | .text s => some (writeText indent s)
  | .plain source => some source
  | .list [] => some "[]"
  | .map [] => some "\x7b\x7d"
  | _ => none

mutual

/-- The entries of a map at a column, each on a line of its own. The first stands where the
writer is. -/
def writeMap (column : Nat) : List (String × Document) → String
  | [] => ""
  | [(key, value)] => writeKey column key ++ writeValue column value
  | (key, value) :: rest =>
    writeKey column key ++ writeValue column value ++ blanks column ++
      writeMap column rest

def writeValue (column : Nat) : Document → String
  | .list (item :: items) => "\n" ++ blanks column ++ writeList column (item :: items)
  | .map (entry :: entries) =>
    "\n" ++ blanks (column + 2) ++ writeMap (column + 2) (entry :: entries)
  | d => " " ++ (inline? (column + 2) d).getD "" ++ "\n"

def writeList (column : Nat) : List Document → String
  | [] => ""
  | [item] => "- " ++ writeItem column item
  | item :: rest => "- " ++ writeItem column item ++ blanks column ++ writeList column rest

def writeItem (column : Nat) : Document → String
  | .list (item :: items) => writeList (column + 2) (item :: items)
  | .map (entry :: entries) => writeMap (column + 2) (entry :: entries)
  | d => (inline? (column + 2) d).getD "" ++ "\n"

end

def write : Document → String
  | .list (item :: items) => writeList 0 (item :: items)
  | .map (entry :: entries) => writeMap 0 (entry :: entries)
  | d => (inline? 0 d).getD "" ++ "\n"

end Rollup.Yaml
