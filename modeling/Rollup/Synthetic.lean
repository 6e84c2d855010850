import Rollup.Store
import Rollup.Synthetic.Definition

/-!
Synthetic adders at work: bound to the record of their target, and to the records of their sources
as soon as these exist.
-/
namespace Rollup

structure Synthetic where
  definition : Definition
  target : Handle
  /-- The records of the sources found so far, in the order of the definition. -/
  sources : List (Option Handle)
  missing : Nat
  deriving Repr

namespace Synthetic

def bind (definition : Definition) (target : Handle) : Synthetic :=
  { definition := definition, target := target,
    sources := definition.sources.map fun _ => none, missing := definition.sources.length }

/-- Looks for the sources that have not been found. A record that becomes a source is exempt from
collection. -/
def findSources : List String → List (Option Handle) → Store → List (Option Handle) × Nat × Store
  | path :: paths, slot :: slots, store =>
    match slot with
    | some h =>
      let (rest, found, store) := findSources paths slots store
      (some h :: rest, found, store)
    | none => match store.locate .adder path with
      | none =>
        let (rest, found, store) := findSources paths slots store
        (none :: rest, found, store)
      | some h =>
        let (rest, found, store) := findSources paths slots (store.modify h Record.exempt)
        (some h :: rest, found + 1, store)
  | _, _, store => ([], 0, store)

def resolve (s : Synthetic) (store : Store) : Synthetic × Store :=
  if s.missing = 0 then (s, store)
  else
    let (sources, found, store) := findSources s.definition.sources s.sources store
    ({ s with sources := sources, missing := s.missing - found }, store)

def totalsOf (store : Store) (h : Handle) : Totals :=
  match (store.get? h).map Record.body with
  | some (.adder sides _) => sides.processed
  | _ => .zero

def overwrite (totals : Totals) (r : Record) : Record :=
  match r.body with
  | .adder sides predictor => { r with body := .adder ⟨sides.input, totals⟩ predictor }
  | _ => r

/-- What the target gets: a value if any source has data and not too many are without. -/
def evaluate (definition : Definition) (values : List Totals) : Option Totals :=
  let absent := values.countP fun v => v.count = 0
  let points := values.foldl (fun sum v => sum + v.count) 0
  if 0 < points ∧ absent ≤ definition.maxAbsent then
    some ⟨definition.operation.apply values definition.factor absent, points⟩
  else none

/-- Computes the target. It is left alone while a source is missing, and is zero in a tick that does
not qualify. The flag says whether a value was written. -/
def generate (s : Synthetic) (store : Store) : Bool × Synthetic × Store :=
  let (s, store) := s.resolve store
  if 0 < s.missing then (false, s, store)
  else
    let values := (s.sources.filterMap id).map (totalsOf store)
    match evaluate s.definition values with
    | some totals => (true, s, store.modify s.target (overwrite totals))
    | none => (false, s, store.modify s.target (overwrite .zero))

/-- Evaluates definitions in order, so that one may use the target of an earlier one. The number
counts the targets written. -/
def generateAll : List Synthetic → Store → Nat × List Synthetic × Store
  | [], store => (0, [], store)
  | s :: rest, store =>
    let (written, s, store) := s.generate store
    let (count, rest, store) := generateAll rest store
    (count + written.toNat, s :: rest, store)

end Synthetic

end Rollup
