import Rollup.Number.Fixed

/-!
The lines of a report in each of the formats that receivers read.
-/
namespace Rollup

inductive Dialect
  /-- Name and value. -/
  | ministry
  /-- Name, value and time. -/
  | graphite
  /-- A gauge update. -/
  | statsd
  deriving DecidableEq, Repr, Inhabited

def Dialect.name : Dialect → String
  | ministry => "ministry"
  | graphite => "graphite"
  | statsd => "statsd"

def Dialect.label : Dialect → String
  | ministry => "Ministry"
  | graphite => "Graphite"
  | statsd => "Statsd"

structure Reading where
  name : String
  value : Float
  places : Nat
  deriving Repr

def Reading.defaultPlaces : Nat := 6

def Reading.of (name : String) (value : Float) : Reading := ⟨name, value, defaultPlaces⟩

def Dialect.line (dialect : Dialect) (timestamp : Nat) (r : Reading) : String :=
  let value := fixed r.places r.value
  match dialect with
  | ministry => r.name ++ " " ++ value ++ "\n"
  | graphite => r.name ++ " " ++ value ++ " " ++ toString timestamp ++ "\n"
  | statsd => r.name ++ ":" ++ value ++ "|g\n"

end Rollup
