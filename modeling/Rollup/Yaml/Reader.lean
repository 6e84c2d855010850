import Rollup.Document
import Rollup.Yaml.Token

/-!
Documents read from YAML texts.
-/
namespace Rollup.Yaml

def nothing : Document := .plain ""

def keyText : Document → Except Fault String
  | .plain source => .ok source
  | .text s => .ok s
  | _ => .error .compositeKey

mutual

/-- Reads a value and says which tokens are behind it. In a block, other blocks can begin; beside a
key, a list need not be indented. -/
def parseNode (fuel : Nat) (inBlock besideKey : Bool) (ts : List Token) :
    Except Fault (Document × List Token) :=
  match fuel with
  | 0 => .error (.unexpectedToken "node content")
  | fuel + 1 => match ts with
    | .plain text :: ts => .ok (.plain text, ts)
    | .quoted text :: ts => .ok (.text text, ts)
    | .flowListStart :: ts => parseFlowList fuel true [] ts
    | .flowMapStart :: ts => parseFlowMap fuel true [] ts
    | .blockEntry :: rest =>
      if besideKey then parseBareList fuel [] (.blockEntry :: rest)
      else .error (.unexpectedToken "node content")
    | .blockListStart :: ts =>
      if inBlock then parseBlockList fuel [] ts else .error (.unexpectedToken "node content")
    | .blockMapStart :: ts =>
      if inBlock then parseBlockMap fuel [] ts else .error (.unexpectedToken "node content")
    | _ => .error (.unexpectedToken "node content")

/-- Reads the entries of an indented list; `done` holds those before, newest first. -/
def parseBlockList (fuel : Nat) (done : List Document) (ts : List Token) :
    Except Fault (Document × List Token) :=
  match fuel with
  | 0 => .error (.unexpectedToken "'-' indicator")
  | fuel + 1 => match ts with
    | .blockEnd :: ts => .ok (.list done.reverse, ts)
    | .blockEntry :: ts => match ts with
      | .blockEntry :: _ => parseBlockList fuel (nothing :: done) ts
      | .blockEnd :: _ => parseBlockList fuel (nothing :: done) ts
      | _ => do
        let (d, ts) ← parseNode fuel true false ts
        parseBlockList fuel (d :: done) ts
    | _ => .error (.unexpectedToken "'-' indicator")

/-- Reads the entries of a list at the column of its key, which ends where no entry follows. -/
def parseBareList (fuel : Nat) (done : List Document) (ts : List Token) :
    Except Fault (Document × List Token) :=
  match fuel with
  | 0 => .error (.unexpectedToken "'-' indicator")
  | fuel + 1 => match ts with
    | .blockEntry :: ts => match ts with
      | .blockEntry :: _ => parseBareList fuel (nothing :: done) ts
      | .key :: _ => parseBareList fuel (nothing :: done) ts
      | .value :: _ => parseBareList fuel (nothing :: done) ts
      | .blockEnd :: _ => parseBareList fuel (nothing :: done) ts
      | _ => do
        let (d, ts) ← parseNode fuel true false ts
        parseBareList fuel (d :: done) ts
    | _ => .ok (.list done.reverse, ts)

def parseSide (fuel : Nat) (ts : List Token) : Except Fault (Document × List Token) :=
  match fuel with
  | 0 => .error (.unexpectedToken "node content")
  | fuel + 1 => match ts with
    | .key :: _ => .ok (nothing, ts)
    | .value :: _ => .ok (nothing, ts)
    | .blockEnd :: _ => .ok (nothing, ts)
    | _ => parseNode fuel true true ts

def parseBlockMap (fuel : Nat) (done : List (String × Document)) (ts : List Token) :
    Except Fault (Document × List Token) :=
  match fuel with
  | 0 => .error (.unexpectedToken "key")
  | fuel + 1 => match ts with
    | .blockEnd :: ts => .ok (.map done.reverse, ts)
    | .key :: ts => do
      let (k, ts) ← parseSide fuel ts
      let k ← keyText k
      match ts with
      | .value :: ts =>
        let (d, ts) ← parseSide fuel ts
        parseBlockMap fuel ((k, d) :: done) ts
      | _ => parseBlockMap fuel ((k, nothing) :: done) ts
    | _ => .error (.unexpectedToken "key")

def parseFlowValue (fuel : Nat) (ts : List Token) : Except Fault (Document × List Token) :=
  match fuel with
  | 0 => .error (.unexpectedToken "node content")
  | fuel + 1 => match ts with
    | .value :: ts => match ts with
      | .flowEntry :: _ => .ok (nothing, ts)
      | .flowListEnd :: _ => .ok (nothing, ts)
      | .flowMapEnd :: _ => .ok (nothing, ts)
      | _ => parseNode fuel false false ts
    | _ => .ok (nothing, ts)

def parseFlowKey (fuel : Nat) (ts : List Token) : Except Fault (Document × List Token) :=
  match fuel with
  | 0 => .error (.unexpectedToken "node content")
  | fuel + 1 => match ts with
    | .value :: _ => .ok (nothing, ts)
    | .flowEntry :: _ => .ok (nothing, ts)
    | .flowListEnd :: _ => .ok (nothing, ts)
    | .flowMapEnd :: _ => .ok (nothing, ts)
    | _ => parseNode fuel false false ts

/-- Reads an entry of a flow list, where a single pair is a map. -/
def parseFlowItem (fuel : Nat) (ts : List Token) : Except Fault (Document × List Token) :=
  match fuel with
  | 0 => .error (.unexpectedToken "',' or ']'")
  | fuel + 1 => match ts with
    | .key :: ts => do
      let (k, ts) ← parseFlowKey fuel ts
      let k ← keyText k
      let (d, ts) ← parseFlowValue fuel ts
      return (.map [(k, d)], ts)
    | _ => parseNode fuel false false ts

def parseFlowList (fuel : Nat) (first : Bool) (done : List Document) (ts : List Token) :
    Except Fault (Document × List Token) :=
  match fuel with
  | 0 => .error (.unexpectedToken "',' or ']'")
  | fuel + 1 => match ts, first with
    | .flowListEnd :: ts, _ => .ok (.list done.reverse, ts)
    | .flowEntry :: .flowListEnd :: ts, false => .ok (.list done.reverse, ts)
    | .flowEntry :: ts, false => do
      let (d, ts) ← parseFlowItem fuel ts
      parseFlowList fuel false (d :: done) ts
    | ts, true => do
      let (d, ts) ← parseFlowItem fuel ts
      parseFlowList fuel false (d :: done) ts
    | _, false => .error (.unexpectedToken "',' or ']'")

def parseFlowPair (fuel : Nat) (ts : List Token) :
    Except Fault ((String × Document) × List Token) :=
  match fuel with
  | 0 => .error (.unexpectedToken "',' or '\x7d'")
  | fuel + 1 => match ts with
    | .key :: ts => do
      let (k, ts) ← parseFlowKey fuel ts
      let k ← keyText k
      let (d, ts) ← parseFlowValue fuel ts
      return ((k, d), ts)
    | _ => do
      let (k, ts) ← parseNode fuel false false ts
      let k ← keyText k
      return ((k, nothing), ts)

def parseFlowMap (fuel : Nat) (first : Bool) (done : List (String × Document)) (ts : List Token) :
    Except Fault (Document × List Token) :=
  match fuel with
  | 0 => .error (.unexpectedToken "',' or '\x7d'")
  | fuel + 1 => match ts, first with
    | .flowMapEnd :: ts, _ => .ok (.map done.reverse, ts)
    | .flowEntry :: .flowMapEnd :: ts, false => .ok (.map done.reverse, ts)
    | .flowEntry :: ts, false => do
      let (pair, ts) ← parseFlowPair fuel ts
      parseFlowMap fuel false (pair :: done) ts
    | ts, true => do
      let (pair, ts) ← parseFlowPair fuel ts
      parseFlowMap fuel false (pair :: done) ts
    | _, false => .error (.unexpectedToken "',' or '\x7d'")

end

def dropEnds (ts : List Token) : List Token := ts.dropWhile (· == .documentEnd)

def parseContent (ts : List Token) : Except Fault (Document × List Token) :=
  match ts with
  | [] => .ok (nothing, [])
  | .documentStart :: _ => .ok (nothing, ts)
  | .documentEnd :: _ => .ok (nothing, ts)
  | _ => parseNode (4 * ts.length + 4) true false ts

def parseDocument (ts : List Token) : Except Fault Document := do
  let ts := match dropEnds ts with
    | .documentStart :: ts => ts
    | ts => ts
  let (d, rest) ← parseContent ts
  match rest with
  | [] => return d
  | .documentStart :: _ => throw .secondDocument
  | .documentEnd :: _ => if (dropEnds rest).isEmpty then return d else throw .secondDocument
  | _ => throw (.unexpectedToken "<document start>")

def read (text : String) : Except Fault Document := do parseDocument (← Token.scan text.toList)

end Rollup.Yaml
