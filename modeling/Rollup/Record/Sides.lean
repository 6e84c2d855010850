/-!
Two sides of one accumulator: points go into one while the other is processed, and once per tick
they change places.
-/
namespace Rollup

structure Sides (α : Type u) where
  /-- Takes points. -/
  input : α
  /-- Holds what the last swap took. -/
  processed : α
  deriving Repr

namespace Sides

/-- Moves the input to the processed side. `recycle` prepares the side that was processed before,
given the one that is processed now, for new points. -/
def swap (recycle : α → α → α) (s : Sides α) : Sides α :=
  ⟨recycle s.processed s.input, s.input⟩

@[simp] theorem swap_processed (recycle : α → α → α) (s : Sides α) :
    (s.swap recycle).processed = s.input := rfl

@[simp] theorem swap_input (recycle : α → α → α) (s : Sides α) :
    (s.swap recycle).input = recycle s.processed s.input := rfl

end Sides

end Rollup
