import Rollup.Kind

/-!
Measurements of the program about itself, and the text in which a collector reads them.
-/
namespace Rollup

inductive Measure
  | counter (delta : Int)
  | gauge (value : Nat)
  /-- A duration in microseconds, written in whole milliseconds. -/
  | timer (microseconds : Nat)
  deriving DecidableEq, Repr

structure Signal where
  name : String
  measure : Measure
  tags : List (String × String)
  deriving DecidableEq, Repr

namespace Signal

def counter (name : String) (delta : Int) (tags : List (String × String)) : Signal :=
  ⟨name, .counter delta, tags⟩

def gauge (name : String) (value : Nat) (tags : List (String × String)) : Signal :=
  ⟨name, .gauge value, tags⟩

def timer (name : String) (microseconds : Nat) (tags : List (String × String)) : Signal :=
  ⟨name, .timer microseconds, tags⟩

def kindTag (kind : Kind) : String × String := ("kind", kind.name)

def isSilent (s : Signal) : Bool := s.measure == .counter 0

end Signal

def Measure.text : Measure → String
  | counter delta => toString delta ++ "|c"
  | gauge value => toString value ++ "|g"
  | timer microseconds => toString (microseconds / 1000) ++ "|ms"

structure SignalClient where
  namePrefix : String
  defaultTags : List (String × String)

namespace SignalClient

/-- The prefix and one dot, whatever dots the prefix ends in; nothing without a prefix. -/
def lead (c : SignalClient) : String :=
  if c.namePrefix.isEmpty then ""
  else String.ofList (c.namePrefix.toList.reverse.dropWhile (· == '.')).reverse ++ "."

def packet (c : SignalClient) (s : Signal) : String :=
  let tags := (s.tags ++ c.defaultTags).map fun (key, value) => key ++ ":" ++ value
  c.lead ++ s.name ++ ":" ++ s.measure.text ++
    if tags.isEmpty then "" else "|#" ++ ",".intercalate tags

def packets (c : SignalClient) (signals : List Signal) : List String :=
  (signals.filter fun s => !s.isSilent).map c.packet

end SignalClient

end Rollup
