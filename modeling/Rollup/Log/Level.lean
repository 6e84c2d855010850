/-!
How much is logged.
-/
namespace Rollup

inductive Level
  | off
  | error
  | warn
  | info
  | debug
  | trace
  deriving DecidableEq, Repr, Inhabited

namespace Level

def all : List Level := [off, error, warn, info, debug, trace]

def name : Level → String
  | off => "off"
  | error => "error"
  | warn => "warn"
  | info => "info"
  | debug => "debug"
  | trace => "trace"

def label : Level → String
  | off => "Off"
  | error => "Error"
  | warn => "Warn"
  | info => "Info"
  | debug => "Debug"
  | trace => "Trace"

def rank : Level → Nat
  | off => 0
  | error => 1
  | warn => 2
  | info => 3
  | debug => 4
  | trace => 5

def ofName? (text : String) : Option Level :=
  let text := String.ofList (text.toList.map Char.toLower)
  if text = "warning" then some warn else all.find? fun level => level.name == text

def unknownMessage (text : String) : String := "unknown log level '" ++ text ++ "'"

def allows (filter level : Level) : Bool := level != off && level.rank ≤ filter.rank

theorem ofName?_name (level : Level) : ofName? level.name = some level := by
  cases level <;> decide +kernel

end Level

end Rollup
