import Rollup.Log.Notice

/-!
Which notices are shown: those of a part of the program up to a level.
-/
namespace Rollup

structure Directive where
  target : String
  level : Level
  deriving DecidableEq, Repr

namespace Directive

def levelOf? (text : String) : Option Level :=
  let name := String.ofList (text.toList.map Char.toLower)
  Level.all.find? fun level => level.name == name || toString level.rank == name

/-- Reads a level, a target, or both with an equals sign between them. Whatever else it is has no
effect. -/
def ofText? (text : String) : Option Directive :=
  match text.splitOn "=" with
  | [word] => match levelOf? word with
    | some level => some ⟨"", level⟩
    | none => if word.contains '[' then none else some ⟨word, .trace⟩
  | [target, level] =>
    if target.contains '[' then none else (levelOf? level).map fun level => ⟨target, level⟩
  | _ => none

end Directive

structure LogFilter where
  directives : List Directive

namespace LogFilter

/-- The parts of the program that follow the configured level. -/
def targets : List String :=
  ["tally", "tally_config", "tally_log", "tally_metrics", "tally_statsd"]

def atLevel (level : Level) : LogFilter := ⟨targets.map fun target => ⟨target, level⟩⟩

def ofText (text : String) : LogFilter :=
  let directives := (text.splitOn ",").filterMap fun part =>
    if part.isEmpty then none else Directive.ofText? part
  ⟨if directives.isEmpty then [⟨"", .error⟩] else directives⟩

def find? (f : LogFilter) (target : String) : Option Directive :=
  (f.directives.filter fun d => target.startsWith d.target).foldl (fun best d =>
    match best with
    | none => some d
    | some b => if b.target.length ≤ d.target.length then some d else best) none

def shows (f : LogFilter) (n : Notice) : Bool :=
  (f.find? n.target).any fun d => d.level.allows n.level

def lines (f : LogFilter) (notices : List Notice) : List String :=
  (notices.filter f.shows).map Notice.text

end LogFilter

end Rollup
