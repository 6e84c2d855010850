import Rollup.Text.Quoted

/-!
Values written out for inspection: on one line, or one field a line with indentation.
-/
namespace Rollup

inductive Inspection
  /-- A number, a truth value or a bare name. -/
  | atom (text : String)
  | text (text : String)
  /-- Named fields. `open` says that there are more of them than are shown. -/
  | record (name : String) (fields : List (String × Inspection)) (isOpen : Bool)
  | wrapped (name : String) (inner : Inspection)
  | list (items : List Inspection)
  | map (entries : List (String × Inspection))

namespace Inspection

def nat (n : Nat) : Inspection := .atom (toString n)

def bool (b : Bool) : Inspection := .atom (toString b)

def optional (show? : α → Inspection) : Option α → Inspection
  | none => .atom "None"
  | some x => .wrapped "Some" (show? x)

mutual

def compact : Inspection → String
  | .atom name => name
  | .text t => quoted t
  | .record name fields isOpen =>
    let shown := compactFields fields
    let shown := if isOpen then shown ++ [".."] else shown
    if shown.isEmpty then name
    else name ++ " \x7b " ++ ", ".intercalate shown ++ " \x7d"
  | .wrapped name inner => name ++ "(" ++ inner.compact ++ ")"
  | .list items => "[" ++ ", ".intercalate (compactItems items) ++ "]"
  | .map entries => "\x7b" ++ ", ".intercalate (compactEntries entries) ++ "\x7d"

def compactItems : List Inspection → List String
  | [] => []
  | item :: rest => item.compact :: compactItems rest

def compactFields : List (String × Inspection) → List String
  | [] => []
  | (field, value) :: rest => (field ++ ": " ++ value.compact) :: compactFields rest

def compactEntries : List (String × Inspection) → List String
  | [] => []
  | (key, value) :: rest => (quoted key ++ ": " ++ value.compact) :: compactEntries rest

end

/-- A part of a value on lines of its own: indented, labelled on its first line, and with a comma
after its last. -/
def partLines (label : String) (lines : List String) : List String :=
  let labelled := match lines with
    | [] => [label]
    | first :: rest => (label ++ first) :: rest
  (labelled.dropLast ++ labelled.getLast?.toList.map (· ++ ",")).map ("    " ++ ·)

def enclosed (opening closing : String) (parts : List (List String)) : List String :=
  opening :: parts.flatten ++ [closing]

mutual

def prettyLines : Inspection → List String
  | .atom name => [name]
  | .text t => [quoted t]
  | .record name fields isOpen =>
    let shown := fieldLines fields
    let shown := if isOpen then shown ++ [["    .."]] else shown
    if shown.isEmpty then [name] else enclosed (name ++ " \x7b") "\x7d" shown
  | .wrapped name inner => enclosed (name ++ "(") ")" [partLines "" inner.prettyLines]
  | .list items =>
    let shown := itemLines items
    if shown.isEmpty then ["[]"] else enclosed "[" "]" shown
  | .map entries =>
    let shown := entryLines entries
    if shown.isEmpty then ["\x7b\x7d"] else enclosed "\x7b" "\x7d" shown

def itemLines : List Inspection → List (List String)
  | [] => []
  | item :: rest => partLines "" item.prettyLines :: itemLines rest

def fieldLines : List (String × Inspection) → List (List String)
  | [] => []
  | (field, value) :: rest => partLines (field ++ ": ") value.prettyLines :: fieldLines rest

def entryLines : List (String × Inspection) → List (List String)
  | [] => []
  | (key, value) :: rest => partLines (quoted key ++ ": ") value.prettyLines :: entryLines rest

end

def pretty (x : Inspection) : String := "\n".intercalate x.prettyLines

end Inspection

end Rollup
