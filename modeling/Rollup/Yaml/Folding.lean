import Rollup.Yaml.Character

/-!
Flow scalars over several lines: a line end within one stands for a space, and further line ends
for themselves.
-/
namespace Rollup.Yaml

inductive Gap
  | blanks (cs : List Char)
  /-- Line ends, without the blanks around them. -/
  | breaks (cs : List Char)
  /-- Line ends after one that was escaped. -/
  | joined (cs : List Char)
  deriving Repr

namespace Gap

def isBroken : Gap → Bool
  | blanks _ => false
  | _ => true

def isEmpty : Gap → Bool
  | blanks [] => true
  | _ => false

def add (c : Char) (g : Gap) : Gap :=
  if isBreak c then match g with
    | blanks _ => .breaks [c]
    | breaks cs => .breaks (c :: cs)
    | joined cs => .joined (c :: cs)
  else match g with
    | blanks cs => .blanks (c :: cs)
    | g => g

def folded : Gap → List Char
  | blanks cs => cs
  | joined cs => cs
  | breaks cs => match cs.reverse with
    | ['\n'] => [' ']
    | '\n' :: more => more.reverse
    | all => all.reverse

end Gap

structure Folding where
  /-- Newest first. -/
  text : List Char := []
  gap : Gap := .blanks []

namespace Folding

def space (c : Char) (f : Folding) : Folding := { f with gap := f.gap.add c }

def close (f : Folding) : Folding := ⟨f.gap.folded ++ f.text, .blanks []⟩

def add (c : Char) (f : Folding) : Folding := ⟨c :: (f.gap.folded ++ f.text), .blanks []⟩

def string (f : Folding) : String := String.ofList f.text.reverse

end Folding

end Rollup.Yaml
