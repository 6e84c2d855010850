/-!
Raw samples in chunks of a fixed capacity, in order of arrival.
-/
namespace Rollup

structure Samples where
  chunks : Array (Array Float)
  count : Nat
  deriving Repr

namespace Samples

def chunkSize : Nat := 2046

def empty : Samples := ⟨#[], 0⟩

def needsChunk (s : Samples) : Bool := s.chunks.back?.all fun chunk => chunkSize ≤ chunk.size

/-- Appends a sample to the last chunk, to a new one if that is full. -/
def push (s : Samples) (value : Float) : Samples :=
  if s.needsChunk then ⟨s.chunks.push #[value], s.count + 1⟩
  else ⟨s.chunks.modify (s.chunks.size - 1) (·.push value), s.count + 1⟩

def flatten (s : Samples) : Array Float := s.chunks.flatten

def chunkCount (s : Samples) : Nat := s.chunks.countP fun chunk => !chunk.isEmpty

/-- Drops the samples, and all chunks but one. -/
def clear (s : Samples) : Samples := ⟨(s.chunks.take 1).map fun _ => #[], 0⟩

def recycle (old _ : Samples) : Samples := old.clear

end Samples

end Rollup
