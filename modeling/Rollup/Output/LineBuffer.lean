import Rollup.Output.Dialect
import Rollup.Text.Inspection

/-!
Lines gather in a buffer and are handed off together once there are enough of them.
-/
namespace Rollup

/-- Where buffers go. Once the receiver is gone they are dropped. -/
structure Outlet where
  attached : Bool := true
  /-- The buffers that arrived, oldest first. -/
  delivered : Array String := #[]
  deriving Repr

namespace Outlet

def send (o : Outlet) (buffer : String) : Outlet :=
  if o.attached then { o with delivered := o.delivered.push buffer } else o

def detach (o : Outlet) : Outlet := { o with attached := false }

def drain (o : Outlet) : Array String × Outlet := (o.delivered, { o with delivered := #[] })

end Outlet

structure LineBuffer where
  pending : String
  /-- The number of bytes from which the buffer is handed off. -/
  highWater : Nat
  dialect : Dialect
  /-- Seconds, for the dialect that writes them. -/
  timestamp : Nat
  lines : Nat
  outlet : Outlet
  deriving Repr

namespace LineBuffer

/-- No buffer is handed off, unless flushed, below this many bytes. -/
def leastHighWater : Nat := 64

def empty (dialect : Dialect) (highWater : Nat) : LineBuffer :=
  { pending := "", highWater := max leastHighWater highWater, dialect := dialect, timestamp := 0,
    lines := 0, outlet := {} }

def setTimestamp (b : LineBuffer) (seconds : Nat) : LineBuffer := { b with timestamp := seconds }

def flush (b : LineBuffer) : LineBuffer :=
  if b.pending.isEmpty then b
  else { b with pending := "", outlet := b.outlet.send b.pending }

def push (b : LineBuffer) (r : Reading) : LineBuffer :=
  let b := { b with pending := b.pending ++ b.dialect.line b.timestamp r, lines := b.lines + 1 }
  if b.highWater ≤ b.pending.utf8ByteSize then b.flush else b

def pushAll (b : LineBuffer) (readings : List Reading) : LineBuffer := readings.foldl push b

def drain (b : LineBuffer) : Array String × LineBuffer :=
  let (sent, outlet) := b.outlet.drain
  (sent, { b with outlet := outlet })

def inspect (b : LineBuffer) : Inspection :=
  .record "LineBuffer" [("pending", .nat b.pending.utf8ByteSize), ("high_water", .nat b.highWater),
    ("dialect", .atom b.dialect.label)] false

end LineBuffer

end Rollup
