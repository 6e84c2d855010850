import Rollup.Selection

/-!
Bucket layouts of histograms, and the choice of a layout for a path.
-/
namespace Rollup

/-- Ascending upper bounds; one more bucket takes what is above all of them. -/
structure Layout where
  name : String
  bounds : List Float
  selection : Selection
  enabled : Bool
  deriving Repr

namespace Layout

def maxBounds : Nat := 10

def maxLayouts : Nat := 64

def sortBounds (bounds : List Float) : List Float :=
  bounds.mergeSort fun a b =>
    decide (DoubleBits.orderKey a.toBits ≤ DoubleBits.orderKey b.toBits)

/-- Whether two neighbours are numerically equal, as the two zeros are. -/
def hasEqualNeighbours : List Float → Bool
  | a :: b :: rest => a == b || hasEqualNeighbours (b :: rest)
  | _ => false

def ofConfig (c : BlockConfig) : Except ConfigError Layout := do
  let refuse (fault : LayoutFault) : Except ConfigError Layout :=
    .error (.invalidHistogram c.name fault)
  if c.bounds.isEmpty then refuse .noBounds
  else if maxBounds < c.bounds.length then refuse .tooManyBounds
  else if c.bounds.any (fun b => !b.isFinite) then refuse .nonFiniteBound
  else
    let bounds := sortBounds c.bounds
    if hasEqualNeighbours bounds then refuse .duplicateBounds
    else
      let selection ← Selection.ofConfig c.selection
      return ⟨c.name, bounds, selection, c.enable⟩

def standard : Layout := ⟨"default", [1.0], .everything, true⟩

def bucketCount (l : Layout) : Nat := l.bounds.length + 1

/-- The first bucket whose bound is not below the value. -/
def bucketIndex (l : Layout) (value : Float) : Nat := l.bounds.findIdx fun bound => value ≤ bound

theorem bucketIndex_lt (l : Layout) (value : Float) : l.bucketIndex value < l.bucketCount :=
  Nat.lt_succ_of_le List.findIdx_le_length

end Layout

structure LayoutSet where
  layouts : List Layout
  fallback : Layout
  deriving Repr

namespace LayoutSet

def standard : LayoutSet := ⟨[.standard], .standard⟩

/-- Builds the layouts in order, with the marked one, which is always enabled. -/
def build (marked : Option Layout) :
    List BlockConfig → Except ConfigError (List Layout × Option Layout)
  | [] => .ok ([], marked)
  | c :: rest => do
    let layout ← Layout.ofConfig c
    if c.isDefault then
      if marked.isSome then throw (.invalidHistogram c.name .secondDefault)
      let layout := { layout with enabled := true }
      let (layouts, marked) ← build (some layout) rest
      return (layout :: layouts, marked)
    else
      let (layouts, marked) ← build marked rest
      return (layout :: layouts, marked)

/-- Without a marked layout the first enabled one serves as fallback. -/
def ofConfig : List BlockConfig → Except ConfigError LayoutSet
  | [] => .ok standard
  | first :: rest => do
    let configs := first :: rest
    if Layout.maxLayouts < configs.length then throw (.tooManyHistograms configs.length)
    let (layouts, marked) ← build none configs
    match marked <|> layouts.find? (·.enabled) with
    | some fallback => return ⟨layouts, fallback⟩
    | none => throw (.invalidHistogram first.name .noneEnabled)

/-- The first enabled layout that selects the path, or else the fallback. -/
def resolve (s : LayoutSet) (path : String) : Layout :=
  (s.layouts.find? fun l => l.enabled && l.selection.selects path).getD s.fallback

end LayoutSet

end Rollup
