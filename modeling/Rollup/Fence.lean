/-!
A fence that holds workers until a releaser has done its work for the generation in which they
arrived. The operations are what a thread does while it holds the lock; between them it waits.
-/
namespace Rollup

structure Fence where
  workers : Nat
  /-- Arrivals since the last release. -/
  ready : Nat
  generation : Nat
  closed : Bool
  deriving DecidableEq, Repr

namespace Fence

def create (workers : Nat) : Fence := ⟨max 1 workers, 0, 0, false⟩

/-- A worker arrives and gets the generation whose end it waits for. A closed fence lets no one
in. -/
def enter (f : Fence) : Option Nat × Fence :=
  if f.closed then (none, f) else (some f.generation, { f with ready := f.ready + 1 })

/-- What a worker finds that waits for the end of a generation: `none` to wait on, or else whether
the generation has ended. -/
def leave? (ticket : Nat) (f : Fence) : Option Bool :=
  if f.generation = ticket ∧ f.closed = false then none else some (f.generation != ticket)

/-- What the releaser finds: `none` to wait on, `false` if the fence is closed, or else `true`, and
with its work done in the same section the next generation. -/
def release? (f : Fence) : Option (Bool × Fence) :=
  if f.closed then some (false, f)
  else if f.ready < f.workers then none
  else some (true, { f with ready := 0, generation := f.generation + 1 })

def close (f : Fence) : Fence := { f with closed := true }

def enterAll : Nat → Fence → List (Option Nat) × Fence
  | 0, f => ([], f)
  | count + 1, f =>
    let (ticket, f) := f.enter
    let (tickets, f) := enterAll count f
    (ticket :: tickets, f)

def leaveAll (f : Fence) (tickets : List (Option Nat)) : List Bool :=
  tickets.map fun ticket => match ticket with
    | none => false
    | some ticket => (f.leave? ticket).getD false

/-- A whole generation: every worker arrives, and then the releaser. -/
def round (f : Fence) : Bool × List Bool × Fence :=
  let (tickets, f) := f.enterAll f.workers
  match f.release? with
  | none => (false, f.leaveAll tickets, f)
  | some (released, f) => (released, f.leaveAll tickets, f)

def finish (f : Fence) : List Bool × Fence :=
  let (tickets, f) := f.enterAll f.workers
  (f.close.leaveAll tickets, f.close)

theorem release?_close (f : Fence) : f.close.release? = some (false, f.close) := rfl

theorem enter_close (f : Fence) : f.close.enter = (none, f.close) := rfl

theorem leave?_of_release? {f g : Fence} (h : f.release? = some (true, g)) :
    g.leave? f.generation = some true := by
  unfold release? at h
  split at h
  · simp at h
  · split at h
    · simp at h
    · simp only [Option.some.injEq, Prod.mk.injEq, true_and] at h
      subst h
      simp [leave?]

end Fence

end Rollup
