/-!
Errors with what caused them, one below the other.
-/
namespace Rollup

structure Explained where
  message : String
  causes : List String := []
  deriving DecidableEq, Repr

namespace Explained

def text (e : Explained) : String :=
  e.message ++ String.join (e.causes.map fun cause => "\n  caused by: " ++ cause)

def because (message : String) (e : Explained) : Explained := ⟨message, e.message :: e.causes⟩

end Explained

end Rollup
