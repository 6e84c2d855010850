import Rollup.Document.Plain

/-!
Documents: nested maps and lists of scalars, and how values of a given form are read from them.
-/
namespace Rollup

inductive Document
  | null
  | bool (value : Bool)
  | int (value : Int)
  | float (value : Float)
  | text (value : String)
  /-- A scalar without quotes, which says itself what it is only to who expects nothing. -/
  | plain (source : String)
  | list (items : List Document)
  | map (entries : List (String × Document))
  deriving Repr, Inhabited

inductive FormError
  | notA (expected : String)
  | outOfRange
  | duplicateKey (key : String)
  | unknownName (name : String)
  deriving DecidableEq, Repr

def FormError.message : FormError → String
  | notA expected => "invalid type: expected " ++ expected
  | outOfRange => "invalid value: integer out of range"
  | duplicateKey key => "duplicate field " ++ quoted key
  | unknownName name => "unknown variant " ++ quoted name

namespace Document

mutual

def settle : Document → Document
  | .plain source => match PlainScalar.ofText source.toList with
    | .null => .null
    | .bool b => .bool b
    | .int n => .int n
    | .float x => .float x
    | .text => .text source
  | .list items => .list (settleItems items)
  | .map entries => .map (settleEntries entries)
  | d => d

def settleItems : List Document → List Document
  | [] => []
  | item :: rest => item.settle :: settleItems rest

def settleEntries : List (String × Document) → List (String × Document)
  | [] => []
  | (key, value) :: rest => (key, value.settle) :: settleEntries rest

end

def readBool : Document → Except FormError Bool
  | .bool b => .ok b
  | .plain source => match PlainScalar.readBool source with
    | some b => .ok b
    | none => .error (.notA "a boolean")
  | _ => .error (.notA "a boolean")

def readInt (low high : Int) (d : Document) : Except FormError Int :=
  let check (n : Int) : Except FormError Int :=
    if low ≤ n ∧ n ≤ high then .ok n else .error .outOfRange
  match d with
  | .int n => check n
  | .plain source => match PlainScalar.readInt source.toList with
    | some n => if low = 0 ∧ source.startsWith "-" then .error .outOfRange else check n
    | none => .error (.notA "an integer")
  | _ => .error (.notA "an integer")

def readWord (d : Document) : Except FormError Nat := do
  return (← readInt 0 maxWord d).toNat

def readFloat : Document → Except FormError Float
  | .float x => .ok x
  | .int n => .ok (Float.ofInt n)
  | .plain source => match PlainScalar.readFloat source.toList with
    | some x => .ok x
    | none => .error (.notA "a number")
  | _ => .error (.notA "a number")

/-- A plain scalar is a text as it stands, whatever else it could be. -/
def readText : Document → Except FormError String
  | .text s => .ok s
  | .plain source => .ok source
  | _ => .error (.notA "a string")

def readOptional (read : Document → Except FormError α) :
    Document → Except FormError (Option α)
  | .null => .ok none
  | .plain source =>
    if PlainScalar.isNull source then .ok none else (read (.plain source)).map some
  | d => (read d).map some

/-- Nothing at all is an empty list. -/
def readList (read : Document → Except FormError α) : Document → Except FormError (List α)
  | .list items => items.mapM read
  | .plain "" => .ok []
  | _ => .error (.notA "a list")

def readName (all : List α) (name : α → String) (d : Document) : Except FormError α := do
  let text ← d.readText
  match all.find? fun x => name x == text with
  | some x => return x
  | none => throw (.unknownName text)

def entries : Document → Except FormError (List (String × Document))
  | .map entries => .ok entries
  | .plain "" => .ok []
  | _ => .error (.notA "a map")

end Document

/-- The named values of a map, to be read one by one. Names that nobody asks for are ignored. -/
structure Section where
  entries : List (String × Document)

namespace Section

def ofDocument (d : Document) : Except FormError Section := do return ⟨← d.entries⟩

/-- Takes a map, or a list of the values of the given names in order. Values at its end can be
missing. -/
def ofFields (names : List String) (d : Document) : Except FormError Section :=
  match d with
  | .list items =>
    if items.length ≤ names.length then .ok ⟨names.zip items⟩ else .error (.notA "a shorter list")
  | d => ofDocument d

def read (s : Section) (key : String) (default : α) (read : Document → Except FormError α) :
    Except FormError α :=
  match s.entries.filter (·.1 == key) with
  | [] => .ok default
  | [(_, d)] => read d
  | _ => .error (.duplicateKey key)

/-- The section as it is seen by a value that shares it with others: scalars have settled before
anyone asks for them. -/
def settle (s : Section) : Section := ⟨s.entries.map fun (key, d) => (key, d.settle)⟩

end Section

end Rollup
