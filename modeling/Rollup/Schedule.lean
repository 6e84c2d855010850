/-!
When ticks are due: at a fixed period on the wall clock. All times are in milliseconds.
-/
namespace Rollup

structure Schedule where
  period : Nat
  next : Nat
  deriving DecidableEq, Repr

namespace Schedule

/-- A schedule made at the time `now`. In sync, ticks fall on multiples of the period plus the
offset; otherwise the first one is a period and the offset away. -/
def start (period offset : Nat) (sync : Bool) (now : Nat) : Schedule :=
  let period := max 1 period
  let offset := offset % period
  ⟨period, if sync then (now / period + 1) * period + offset else now + period + offset⟩

def isDue (s : Schedule) (now : Nat) : Bool := s.next ≤ now

def fire (s : Schedule) : Nat × Schedule := (s.next, { s with next := s.next + s.period })

def missed (s : Schedule) (now : Nat) : Nat :=
  if s.isDue now then (now - s.next) / s.period + 1 else 0

def skip (count : Nat) (s : Schedule) : Schedule := { s with next := s.next + count * s.period }

/-- Waits for the next tick on successive readings of a clock: until one is not before the tick,
and with one more to skip the ticks that were missed. -/
def wait? : List Nat → Schedule → Option (Nat × Schedule × List Nat)
  | [], _ => none
  | now :: readings, s =>
    if s.isDue now then match readings with
      | [] => none
      | after :: readings =>
        let (tick, s) := s.fire
        some (tick, s.skip (s.missed after), readings)
    else wait? readings s

theorem next_fire (s : Schedule) : s.fire.2.next = s.fire.1 + s.period := rfl

end Schedule

end Rollup
