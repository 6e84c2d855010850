import Rollup.Log.Level
import Rollup.Text.Causes
import Rollup.Text.Inspection

/-!
What is logged: a message at a level, from a part of the program, with named values.
-/
namespace Rollup

structure Notice where
  level : Level
  target : String
  message : String
  fields : List (String × Inspection) := []

namespace Notice

def text (n : Notice) : String :=
  let shown := n.fields.map fun (name, value) => " " ++ name ++ "=" ++ value.compact
  String.ofList (n.level.name.toList.map Char.toUpper) ++ " " ++ n.target ++ ": " ++ n.message ++
    String.join shown

def ofError (e : Explained) : Notice := ⟨.error, "tally_log::utils", e.text, []⟩

end Notice

/-- What `say` says about each element, as long as `ok` holds of the list up to it. -/
def heardWhile (ok : List α → Bool) (say : α → List β) (xs : List α) : List β :=
  (List.range xs.length).flatMap fun i =>
    if ok (xs.take (i + 1)) then (xs[i]?.map say).getD [] else []

end Rollup
