import Mathlib.Data.List.Count
import Mathlib.Data.Nat.PSub
import Rollup.Synthetic.Operation

/-! Where operations have a value. They are total, with a number at hand for whatever cannot be
computed. If their callers keep what they promise, none of these numbers is ever used. -/
namespace Rollup

namespace Operation

/-- What callers promise: enough sources, the number of those without data, and one that has
data. -/
structure Meets (op : Operation) (values : List Totals) (absent : Nat) : Prop where
  enough : op.leastSources ≤ values.length
  counted : absent = values.countP fun v => v.count = 0
  fewer : absent < values.length

def firstTwo? : List Totals → Option (Totals × Totals)
  | a :: b :: _ => some (a, b)
  | _ => none

def divide? (sum : Float) (parts : Nat) : Option Float :=
  if 0 < parts then some (sum / parts.toFloat) else none

/-- The value of an operation, with nothing at hand for a source that is missing, for data where no
source has any, for more absent sources than there are, and for no parts to divide by. -/
def value? (op : Operation) (values : List Totals) (factor : Float) (absent : Nat) :
    Option Float :=
  let scaledSum := Line.sum (values.map (·.total)) * factor
  let present := present values
  match op with
  | sum => some scaledSum
  | diff => (firstTwo? values).map fun (a, b) => factor * (a.total - b.total)
  | ratio => (firstTwo? values).map fun (a, b) =>
      if b.total == 0.0 then 0.0 else a.total * factor / b.total
  | product => some (present.foldl (· * ·) factor)
  | cap => (firstTwo? values).map fun (a, b) => lesser a.total b.total
  | max => (reduce greater present).map (· * factor)
  | min => (reduce lesser present).map (· * factor)
  | spread => (reduce greater present).bind fun high =>
      (reduce lesser present).map fun low => factor * (high - low)
  | mean => divide? scaledSum values.length
  | meanIf => (Nat.psub values.length absent).bind (divide? scaledSum)
  | count => (Nat.psub values.length absent).map fun parts => factor * parts.toFloat
  | active => if present.isEmpty then none else some 1.0

section Meets

variable {op : Operation} {values : List Totals} {absent : Nat}

theorem exists_cons_cons (h : 2 ≤ values.length) : ∃ a b rest, values = a :: b :: rest :=
  match values, h with
  | a :: b :: rest, _ => ⟨a, b, rest, rfl⟩

theorem Meets.exists_present (h : op.Meets values absent) :
    ∃ x rest, Operation.present values = x :: rest := by
  have hfewer := h.counted ▸ h.fewer
  obtain ⟨v, hv, hcount⟩ := List.countP_lt_length_iff.mp hfewer
  have hmem : v.total ∈ Operation.present values :=
    List.mem_map_of_mem (List.mem_filter.mpr ⟨hv, by simpa [Nat.pos_iff_ne_zero] using hcount⟩)
  exact List.exists_cons_of_ne_nil (List.ne_nil_of_mem hmem)

theorem Meets.value?_eq (h : op.Meets values absent) (factor : Float) :
    op.value? values factor absent = some (op.apply values factor absent) := by
  have henough := h.enough
  obtain ⟨x, rest, hpresent⟩ := h.exists_present
  have hparts : Nat.psub values.length absent = some (values.length - absent) :=
    Nat.psub_eq_sub (Nat.le_of_lt h.fewer)
  have hdivide : ∀ sum, divide? sum (values.length - absent) =
      some (sum / (values.length - absent).toFloat) := fun sum =>
    if_pos (Nat.sub_pos_of_lt h.fewer)
  cases op with
  | sum | product => rfl
  | diff | ratio | cap =>
    obtain ⟨a, b, rest, rfl⟩ := exists_cons_cons henough
    rfl
  | max | min | spread => simp only [value?, apply, hpresent, reduce, Option.map_some,
      Option.bind_some, Option.getD_some]
  | mean => exact if_pos (Nat.zero_lt_of_lt henough)
  | meanIf => simp only [value?, apply, hparts, hdivide, Option.bind_some]
  | count => simp only [value?, apply, hparts, Option.map_some]
  | active => simp only [value?, apply, hpresent, List.isEmpty_cons, Bool.false_eq_true, if_false]

example : meanIf.value? [⟨0.0, 0⟩, ⟨0.0, 0⟩] 1.0 2 = none := rfl

end Meets

end Operation

end Rollup
