/-!
The hash of a path, stable across runs, which places the path in a table and is compared before its
bytes are.
-/
namespace Rollup

namespace PathHash

def seed : UInt64 := 5381

/-- Multipliers of the bytes that do not fill a word, for the last byte first. -/
def tailPrime : Nat → UInt64
  | 0 => 2909
  | 1 => 3001
  | _ => 3083

def signExtend (b : UInt8) : UInt64 := b.toInt8.toInt64.toUInt64

def word (a b c d : UInt8) : UInt64 :=
  a.toUInt64 + (b.toUInt64 <<< 8) + (c.toUInt64 <<< 16) + (d.toUInt64 <<< 24)

def addTail (sum : UInt64) : List UInt8 → UInt64
  | [] => sum
  | b :: rest => addTail (sum + signExtend b * tailPrime rest.length) rest

def addBytes (sum : UInt64) : List UInt8 → UInt64
  | a :: b :: c :: d :: rest => addBytes (sum + (sum <<< 5) + word a b c d) rest
  | tail => addTail sum tail

end PathHash

/-- All arithmetic wraps. -/
def hashBytes (bytes : List UInt8) : UInt64 := PathHash.addBytes PathHash.seed bytes

def pathHash (path : String) : UInt64 := hashBytes path.toUTF8.toList

end Rollup
