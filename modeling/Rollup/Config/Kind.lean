import Rollup.Kind

/-!
Workers, prefixes and table sizes of the four kinds: as configured, and as in effect.
-/
namespace Rollup

structure KindConfig where
  enable : Bool := true
  threads : Option Nat := none
  pathPrefix : Option String := none
  tableSize : Option Nat := none
  deriving DecidableEq, Repr

structure KindSettings where
  kind : Kind
  enable : Bool
  /-- How many workers share the records, at least one. -/
  threads : Nat
  /-- Empty, or ends in a dot. -/
  pathPrefix : String
  /-- How many buckets the path table has, at least one. -/
  tableSize : Nat
  deriving DecidableEq, Repr

/-- A prefix that is not empty is set apart from what follows by a dot. -/
def dotted (text : String) : String :=
  if text.isEmpty || text.endsWith "." then text else text ++ "."

def Kind.defaultThreads : Kind → Nat
  | .stats => 6
  | _ => 2

def Kind.defaultPrefix : Kind → String
  | .stats => "stats.timers."
  | .histogram => "stats.histograms."
  | _ => ""

/-- Table sizes are prime, to spread paths over the buckets. -/
def Kind.defaultTableSize : Kind → Nat
  | .histogram => 5003
  | _ => 100003

def KindConfig.resolve (c : KindConfig) (kind : Kind) : KindSettings where
  kind := kind
  enable := c.enable
  threads := max 1 (c.threads.getD kind.defaultThreads)
  pathPrefix := dotted (c.pathPrefix.getD kind.defaultPrefix)
  tableSize := max 1 (c.tableSize.getD kind.defaultTableSize)

theorem KindConfig.resolve_threads_pos (c : KindConfig) (kind : Kind) :
    0 < (c.resolve kind).threads := by
  simp only [resolve]; omega

theorem KindConfig.resolve_tableSize_pos (c : KindConfig) (kind : Kind) :
    0 < (c.resolve kind).tableSize := by
  simp only [resolve]; omega

end Rollup
