import Rollup.Document

/-! What a reader can give at all: a number that was read is in the range of its form, a missing
value is the default, and a list has only items of its form. -/
namespace Rollup

theorem ok_bind (x : α) (f : α → Except ε β) : (Except.ok x >>= f) = f x := rfl

theorem bind_eq_ok_iff {r : Except ε α} {f : α → Except ε β} {y : β} :
    (r >>= f) = .ok y ↔ ∃ x, r = .ok x ∧ f x = .ok y := by
  cases r with
  | error cause => exact ⟨nofun, fun ⟨_, h, _⟩ => nomatch h⟩
  | ok x => exact ⟨fun h => ⟨x, rfl, h⟩, fun ⟨_, hx, h⟩ => by cases hx; exact h⟩

theorem of_check_eq_ok {p : Prop} [Decidable p] {cause : ε} {rest : PUnit → Except ε α} {x : α}
    (h : (if p then throw cause >>= rest else rest ()) = .ok x) : ¬ p ∧ rest () = .ok x := by
  split at h
  · cases h
  · exact ⟨‹¬ p›, h⟩

theorem mapError_eq_ok_iff {r : Except ε α} {f : ε → ε'} {x : α} :
    r.mapError f = .ok x ↔ r = .ok x := by
  cases r with
  | error cause => exact ⟨nofun, nofun⟩
  | ok y => exact Iff.intro (fun h => by cases h; rfl) fun h => by cases h; rfl

theorem toOption_eq_some_iff {r : Except ε α} {x : α} : r.toOption = some x ↔ r = .ok x := by
  cases r with
  | error cause => exact ⟨nofun, nofun⟩
  | ok y => exact Iff.intro (fun h => by cases h; rfl) fun h => by cases h; rfl

theorem forall_mem_of_mapM {read : α → Except ε β} {P : β → Prop}
    (h : ∀ item x, read item = .ok x → P x) {items : List α} {values : List β}
    (hvalues : items.mapM read = .ok values) : ∀ x ∈ values, P x := by
  induction items generalizing values with
  | nil =>
    cases hvalues
    exact nofun
  | cons item rest ih =>
    simp only [List.mapM_cons, bind_eq_ok_iff] at hvalues
    obtain ⟨x, hx, more, hmore, hvalues⟩ := hvalues
    cases hvalues
    exact List.forall_mem_cons.mpr ⟨h item x hx, ih hmore⟩

namespace Document

def Gives (read : Document → Except FormError α) (P : α → Prop) : Prop :=
  ∀ ⦃d : Document⦄ ⦃x : α⦄, read d = .ok x → P x

variable {read : Document → Except FormError α} {P : α → Prop}

theorem gives_readInt (low high : Int) : Gives (readInt low high) fun n => low ≤ n ∧ n ≤ high := by
  have hcheck : ∀ {n m : Int}, (if low ≤ n ∧ n ≤ high then Except.ok n
      else .error FormError.outOfRange) = .ok m → low ≤ m ∧ m ≤ high := by
    intro n m h
    split at h
    · cases h
      assumption
    · cases h
  intro d n h
  unfold readInt at h
  split at h
  · exact hcheck h
  · split at h
    · split at h
      · cases h
      · exact hcheck h
    · cases h
  · cases h

theorem gives_readWord : Gives readWord (· ≤ maxWord) := by
  intro d n h
  obtain ⟨m, hm, hn⟩ := bind_eq_ok_iff.mp h
  have hrange := gives_readInt _ _ hm
  cases hn
  omega

theorem gives_readOptional (h : Gives read P) :
    Gives (readOptional read) fun value => ∀ x ∈ value, P x := by
  have hsome : ∀ {d : Document} {value : Option α}, (read d).map some = .ok value →
      ∀ x ∈ value, P x := by
    intro d value hvalue x hx
    cases hread : read d with
    | error cause => rw [hread] at hvalue; cases hvalue
    | ok y =>
      rw [hread] at hvalue
      cases hvalue
      cases hx
      exact h hread
  intro d value hvalue
  unfold readOptional at hvalue
  split at hvalue
  · cases hvalue
    exact nofun
  · split at hvalue
    · cases hvalue
      exact nofun
    · exact hsome hvalue
  · exact hsome hvalue

theorem gives_readList (h : Gives read P) :
    Gives (readList read) fun values => ∀ x ∈ values, P x := by
  intro d values hvalues
  unfold readList at hvalues
  split at hvalues
  · exact forall_mem_of_mapM (fun _ _ hx => h hx) hvalues
  · cases hvalues
    exact nofun
  · cases hvalues

end Document

theorem Section.gives_read {s : Section} {key : String} {default : α}
    {read : Document → Except FormError α} {P : α → Prop} (h : Document.Gives read P)
    (hdefault : P default) : ∀ {x : α}, s.read key default read = .ok x → P x := by
  intro x hread
  unfold Section.read at hread
  split at hread
  · cases hread
    exact hdefault
  · exact h hread
  · cases hread

end Rollup
