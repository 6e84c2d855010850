/-!
Cutting a text: at every separator into fields, and at line ends into lines.
-/
namespace Rollup

def fields [BEq α] (separator : α) (text : List α) : List (List α) :=
  let field := text.takeWhile (· != separator)
  match _h : text.dropWhile (· != separator) with
  | [] => [field]
  | _ :: rest => field :: fields separator rest
termination_by text.length
decreasing_by
  have h := congrArg List.length _h
  have := (List.dropWhile_suffix (l := text) (· != separator)).length_le
  simp only [List.length_cons] at h
  omega

def withoutReturn (line : List Char) : List Char :=
  if line.getLast? = some '\r' then line.dropLast else line

/-- The lines of `text`. A line feed ends a line, together with a carriage return before it; what
follows the last line feed is a line only if it is not empty, and keeps its carriage return. -/
def lines (text : List Char) : List (List Char) :=
  if text.isEmpty then []
  else
    let line := text.takeWhile (· != '\n')
    match _h : text.dropWhile (· != '\n') with
    | [] => [line]
    | _ :: rest => withoutReturn line :: lines rest
termination_by text.length
decreasing_by
  have h := congrArg List.length _h
  have := (List.dropWhile_suffix (l := text) (· != '\n')).length_le
  simp only [List.length_cons] at h
  omega

def sortedLines (text : List Char) : List String :=
  ((lines text).map String.ofList).mergeSort fun a b => decide (a ≤ b)

end Rollup
