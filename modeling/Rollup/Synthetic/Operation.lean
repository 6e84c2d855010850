import Rollup.Forecast.Line
import Rollup.Record.Totals

/-!
The operations that derive one value from the totals of several adders.
-/
namespace Rollup

inductive Operation
  | sum
  | diff
  | ratio
  | product
  /-- The smaller of the first two sources. -/
  | cap
  | max
  | min
  /-- Scaled difference between the maximum and the minimum of the present sources. -/
  | spread
  /-- Scaled sum divided by the number of sources. -/
  | mean
  /-- Scaled sum divided by the number of present sources. -/
  | meanIf
  | count
  /-- One whenever any source is present. -/
  | active
  deriving DecidableEq, Repr

namespace Operation

def all : List Operation :=
  [sum, diff, ratio, product, cap, max, min, spread, mean, meanIf, count, active]

def names : Operation → List String
  | sum => ["sum", "add", "plus"]
  | diff => ["diff", "minus"]
  | ratio => ["ratio", "div"]
  | product => ["mult", "product"]
  | cap => ["cap", "limit"]
  | max => ["max", "highest"]
  | min => ["min", "lowest"]
  | spread => ["spread", "width"]
  | mean => ["mean", "average"]
  | meanIf => ["meanIf", "avgIf"]
  | count => ["count", "nonzero"]
  | active => ["active", "present"]

def name (op : Operation) : String := op.names.headD ""

def ofName? (name : String) : Option Operation := all.find? (·.names.contains name)

def maxSources : Nat := 32

def leastSources : Operation → Nat
  | sum => 1
  | product => 1
  | count => 1
  | active => 1
  | _ => 2

/-- How many sources are read, if not all of them. -/
def usedSources : Operation → Option Nat
  | diff => some 2
  | ratio => some 2
  | cap => some 2
  | _ => none

def defaultMaxAbsent (op : Operation) (parts : Nat) : Nat :=
  match op with
  | diff => 0
  | ratio => 0
  | cap => 0
  | spread => parts - 2
  | mean => parts - 1
  | meanIf => parts - 1
  | _ => maxSources

/-- The greater of two numbers; a NaN gives way. -/
def greater (a b : Float) : Float :=
  if a.isNaN then b else if b.isNaN then a else if a < b then b else a

def lesser (a b : Float) : Float :=
  if a.isNaN then b else if b.isNaN then a else if b < a then b else a

def present (values : List Totals) : List Float :=
  (values.filter fun v => 0 < v.count).map (·.total)

def reduce (f : Float → Float → Float) : List Float → Option Float
  | [] => none
  | x :: rest => some (rest.foldl f x)

/-- The value of an operation on the totals of its sources, of which `absent` have no data. There
are at least as many sources as it needs, and one of them has data. -/
def apply (op : Operation) (values : List Totals) (factor : Float) (absent : Nat) : Float :=
  let parts := values.length
  let scaledSum := Line.sum (values.map (·.total)) * factor
  let present := present values
  match op with
  | sum => scaledSum
  | diff => match values with
    | a :: b :: _ => factor * (a.total - b.total)
    | _ => 0.0
  | ratio => match values with
    | a :: b :: _ => if b.total == 0.0 then 0.0 else a.total * factor / b.total
    | _ => 0.0
  | product => present.foldl (· * ·) factor
  | cap => match values with
    | a :: b :: _ => lesser a.total b.total
    | _ => 0.0
  | max => (reduce greater present).getD 0.0 * factor
  | min => (reduce lesser present).getD 0.0 * factor
  | spread => match reduce greater present, reduce lesser present with
    | some high, some low => factor * (high - low)
    | _, _ => 0.0
  | mean => scaledSum / parts.toFloat
  | meanIf => scaledSum / (parts - absent).toFloat
  | count => factor * (parts - absent).toFloat
  | active => 1.0

end Operation

end Rollup
