import Rollup.Config.Engine
import Rollup.Synthetic.Operation

/-!
Definitions of synthetic adders, checked.
-/
namespace Rollup

structure Definition where
  target : String
  sources : List String
  operation : Operation
  factor : Float
  maxAbsent : Nat
  deriving Repr

namespace Definition

/-- How many sources may be without data: as configured, or else as the operation has it. -/
def tolerance (op : Operation) (parts : Nat) (configured : Option Int) : Nat :=
  match configured with
  | some (.ofNat n) => n
  | _ => op.defaultMaxAbsent parts

def ofConfig (index : Nat) (c : SyntheticConfig) : Except ConfigError (Option Definition) := do
  if c.target.isEmpty then throw (.incompleteSynthetic index .target)
  if c.operation.isEmpty then throw (.incompleteSynthetic index .operation)
  if c.source.isEmpty then throw (.incompleteSynthetic index .source)
  let some op := Operation.ofName? c.operation | throw (.unknownOperation c.target c.operation)
  let parts := c.source.length
  if Operation.maxSources < parts then throw (.tooManySources c.target parts)
  if parts < op.leastSources then throw (.tooFewSources c.target op.leastSources parts)
  if !c.enable then return none
  return some ⟨c.target, c.source, op, c.factor, tolerance op parts c.maxAbsent⟩

def ofConfigs (index : Nat) : List SyntheticConfig → Except ConfigError (List Definition)
  | [] => .ok []
  | c :: rest => do
    let definition ← ofConfig index c
    let more ← ofConfigs (index + 1) rest
    return definition.toList ++ more

end Definition

end Rollup
