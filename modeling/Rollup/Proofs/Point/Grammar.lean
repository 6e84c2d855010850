import Rollup.Proofs.Text.Lines

/-! The grammar of lines. What is a point, and what is wrong with a line that is not, is said of the
parts of the line; reading gives the point of a line that has one, and of the faults of any other
the first in a fixed order. -/
namespace Rollup

def Kind.types : Kind → List String
  | adder => ["c"]
  | gauge => ["g"]
  | stats => ["ms", "h"]
  | histogram => ["hg"]

theorem Kind.ofType?_eq_some_iff {type : List Char} {kind : Kind} :
    Kind.ofType? type = some kind ↔ String.ofList type ∈ kind.types := by
  unfold Kind.ofType?
  generalize String.ofList type = name
  split <;> cases kind <;> simp_all [types]

theorem Kind.ofType?_eq_none_iff {type : List Char} :
    Kind.ofType? type = none ↔ ∀ kind : Kind, String.ofList type ∉ kind.types := by
  simp only [← ofType?_eq_some_iff, Option.eq_none_iff_forall_ne_some]

def LineError.rank : LineError → Nat
  | missingValue => 0
  | emptyPath => 1
  | missingType => 2
  | unknownType _ => 3
  | invalidRate _ => 4
  | invalidValue _ => 5
  | nonFinite _ => 6

section Fields

variable {α : Type} [BEq α] [LawfulBEq α] {separator : α}

theorem fields_intercalate {first : List α} {rest : List (List α)}
    (h : ∀ field ∈ first :: rest, separator ∉ field) :
    fields separator ([separator].intercalate (first :: rest)) = first :: rest := by
  induction rest generalizing first with
  | nil => simpa using fields_of_notMem (h first List.mem_cons_self)
  | cons second rest ih =>
    rw [List.forall_mem_cons] at h
    rw [List.intercalate_cons_cons, List.append_assoc, List.singleton_append,
      fields_append h.1, ih h.2]

omit [LawfulBEq α] in
theorem fields_ne_nil (separator : α) (text : List α) : fields separator text ≠ [] := by
  rw [fields]
  split <;> exact List.cons_ne_nil _ _

theorem intercalate_fields (separator : α) (text : List α) :
    [separator].intercalate (fields separator text) = text := by
  induction text using fields_cases separator with
  | last field h => rw [fields_of_notMem h, List.intercalate_singleton]
  | more field rest h ih =>
    rw [fields_append h, List.intercalate_cons_of_ne_nil (fields_ne_nil _ _), ih,
      List.append_assoc, List.singleton_append]

end Fields

namespace Point

structure Cut (line path : List Char) (parts : List (List Char)) : Prop where
  line_eq : line = path ++ ':' :: ['|'].intercalate parts
  colon_notMem : ':' ∉ path
  bar_notMem : ∀ part ∈ parts, '|' ∉ part

def rateTexts (more : List (List Char)) : List (List Char) :=
  more.filterMap fun
    | '@' :: text => some text
    | _ => none

def IsRate (text : List Char) (rate : Float) : Prop :=
  readFloat text = some rate ∧ 0.0 < rate ∧ rate ≤ 1.0

/-- The last of the rates counts, one if there is none. -/
def LastRate (more : List (List Char)) (rate : Float) : Prop :=
  match (rateTexts more).getLast? with
  | none => rate = 1.0
  | some text => IsRate text rate

/-- What a sign means, which is the first character of the value of a gauge, before the digits. -/
inductive Signed : Kind → (value digits : List Char) → Adjustment → Prop
  | add (digits : List Char) : Signed .gauge ('+' :: digits) digits .add
  | subtract (digits : List Char) : Signed .gauge ('-' :: digits) digits .subtract
  | set {kind : Kind} {value : List Char} :
      (kind = .gauge → value.head? ≠ some '+' ∧ value.head? ≠ some '-') →
      Signed kind value value .set

inductive Spells (line : List Char) : Point → Prop
  | intro {path value type digits : List Char} {more : List (List Char)} {kind : Kind}
      {adjustment : Adjustment} {number rate : Float} :
      Cut line path (value :: type :: more) → path ≠ [] → String.ofList type ∈ kind.types →
      (∀ text ∈ rateTexts more, ∃ r, IsRate text r) → LastRate more rate →
      Signed kind value digits adjustment → readFloat digits = some number →
      number.isFinite = true →
      Spells line
        ⟨.ofList path, kind, if kind = .adder then number / rate else number, adjustment⟩

/-- What is wrong with a line. Several faults of one line are possible. -/
inductive Fault (line : List Char) : LineError → Prop
  | missingValue : ':' ∉ line → Fault line .missingValue
  | emptyPath : line.head? = some ':' → Fault line .emptyPath
  | missingType {path value : List Char} : Cut line path [value] → Fault line .missingType
  | unknownType {path value type : List Char} {more : List (List Char)} :
      Cut line path (value :: type :: more) → (∀ kind : Kind, String.ofList type ∉ kind.types) →
      Fault line (.unknownType (.ofList type))
  | invalidRate {path value type text : List Char} {more before after : List (List Char)} :
      Cut line path (value :: type :: more) → rateTexts more = before ++ text :: after →
      (∀ t ∈ before, ∃ r, IsRate t r) → (∀ r, ¬ IsRate text r) →
      Fault line (.invalidRate (.ofList text))
  | invalidValue {path value type digits : List Char} {more : List (List Char)} {kind : Kind}
      {adjustment : Adjustment} :
      Cut line path (value :: type :: more) → String.ofList type ∈ kind.types →
      Signed kind value digits adjustment → readFloat digits = none →
      Fault line (.invalidValue (.ofList value))
  | nonFinite {path value type digits : List Char} {more : List (List Char)} {kind : Kind}
      {adjustment : Adjustment} {number : Float} :
      Cut line path (value :: type :: more) → String.ofList type ∈ kind.types →
      Signed kind value digits adjustment → readFloat digits = some number →
      number.isFinite = false → Fault line (.nonFinite (.ofList value))

section Rates

theorem rateOf_eq_foldlM (rate : Float) (more : List (List Char)) :
    rateOf rate more = (rateTexts more).foldlM (fun _ text => readRate text) rate := by
  fun_induction rateOf rate more with
  | case1 => rfl
  | case2 rate text rest ih =>
    simp only [rateTexts, List.filterMap_cons, List.foldlM_cons]
    exact bind_congr ih
  | case3 rate field rest hother ih =>
    rw [ih, rateTexts, rateTexts, List.filterMap_cons_none]
    split
    · exact absurd rfl (hother _)
    · rfl

theorem readRate_eq_ok_iff {text : List Char} {rate : Float} :
    readRate text = .ok rate ↔ IsRate text rate := by
  unfold readRate IsRate
  cases readFloat text with
  | none => simp
  | some number =>
    simp only [Option.some.injEq]
    split
    · rename_i hwithin
      simp only [Bool.and_eq_true, decide_eq_true_eq] at hwithin
      constructor
      · rintro ⟨⟩
        exact ⟨rfl, hwithin⟩
      · rintro ⟨rfl, -⟩
        rfl
    · rename_i hwithin
      simp only [Bool.and_eq_true, decide_eq_true_eq] at hwithin
      constructor
      · rintro ⟨⟩
      · rintro ⟨rfl, hrate⟩
        exact absurd hrate hwithin

theorem readRate_eq_error {text : List Char} (h : ∀ rate, ¬ IsRate text rate) :
    readRate text = .error (.invalidRate (.ofList text)) := by
  cases hread : readRate text with
  | ok rate => exact absurd (readRate_eq_ok_iff.mp hread) (h rate)
  | error e =>
    unfold readRate at hread
    split at hread
    · split at hread <;> cases hread
      rfl
    · cases hread
      rfl

theorem rateOf_eq_ok_iff {default rate : Float} {more : List (List Char)} :
    rateOf default more = .ok rate ↔ (∀ text ∈ rateTexts more, ∃ r, IsRate text r) ∧
      match (rateTexts more).getLast? with
      | none => rate = default
      | some text => IsRate text rate := by
  rw [rateOf_eq_foldlM]
  induction rateTexts more generalizing default with
  | nil => simp [pure, Except.pure, eq_comm]
  | cons text rest ih =>
    rw [List.foldlM_cons, List.forall_mem_cons, List.getLast?_cons]
    cases hread : readRate text with
    | error e =>
      refine iff_of_false nofun fun h => ?_
      obtain ⟨r, hr⟩ := h.1.1
      rw [readRate_eq_ok_iff.mpr hr] at hread
      cases hread
    | ok first =>
      have hfirst := readRate_eq_ok_iff.mp hread
      refine ih.trans ?_
      rw [and_assoc, and_iff_right (a := ∃ r, IsRate text r) ⟨first, hfirst⟩]
      refine and_congr_right fun _ => ?_
      cases rest.getLast? with
      | none => exact ⟨fun h => h ▸ hfirst, fun h => Option.some.inj (h.1.symm.trans hfirst.1)⟩
      | some last => rfl

theorem rateOf_eq_error_iff {default : Float} {more : List (List Char)} {e : LineError} :
    rateOf default more = .error e ↔ ∃ before text after,
      rateTexts more = before ++ text :: after ∧ (∀ t ∈ before, ∃ r, IsRate t r) ∧
        (∀ r, ¬ IsRate text r) ∧ e = .invalidRate (.ofList text) := by
  rw [rateOf_eq_foldlM]
  induction rateTexts more generalizing default with
  | nil =>
    refine iff_of_false nofun ?_
    rintro ⟨before, text, after, h, -⟩
    simp at h
  | cons first rest ih =>
    rw [List.foldlM_cons]
    cases hread : readRate first with
    | ok rate =>
      have hfirst := readRate_eq_ok_iff.mp hread
      refine ih.trans ⟨?_, ?_⟩
      · rintro ⟨before, text, after, rfl, hbefore, hfault⟩
        exact ⟨first :: before, text, after, rfl,
          List.forall_mem_cons.mpr ⟨⟨rate, hfirst⟩, hbefore⟩, hfault⟩
      · rintro ⟨before, text, after, h, hbefore, hbad, he⟩
        cases before with
        | nil =>
          cases h
          exact absurd hfirst (hbad rate)
        | cons head before =>
          cases h
          exact ⟨before, text, after, rfl, (List.forall_mem_cons.mp hbefore).2, hbad, he⟩
    | error e' =>
      have hbad : ∀ r, ¬ IsRate first r := fun r hr => by
        rw [readRate_eq_ok_iff.mpr hr] at hread
        cases hread
      have he' := (Except.error.inj (hread.symm.trans (readRate_eq_error hbad)))
      refine ⟨?_, ?_⟩
      · rintro ⟨⟩
        exact ⟨[], first, rest, rfl, by simp, hbad, he'⟩
      · rintro ⟨before, text, after, h, hbefore, -, rfl⟩
        cases before with
        | nil =>
          cases h
          exact congrArg Except.error he'
        | cons head before =>
          cases h
          obtain ⟨⟨r, hr⟩, -⟩ := List.forall_mem_cons.mp hbefore
          exact absurd hr (hbad r)

end Rates

section Parts

theorem signed_splitSign (kind : Kind) (value : List Char) :
    Signed kind value (splitSign kind value).2 (splitSign kind value).1 := by
  fun_cases splitSign kind value with
  | case1 digits => exact .add digits
  | case2 digits => exact .subtract digits
  | case3 _ _ hadd hsubtract =>
    refine .set fun hkind => ⟨?_, ?_⟩ <;> intro hhead
    · obtain ⟨digits, rfl⟩ := List.head?_eq_some_iff.mp hhead
      exact hadd digits hkind rfl
    · obtain ⟨digits, rfl⟩ := List.head?_eq_some_iff.mp hhead
      exact hsubtract digits hkind rfl

theorem Signed.splitSign_eq {kind : Kind} {value digits : List Char} {adjustment : Adjustment}
    (h : Signed kind value digits adjustment) : splitSign kind value = (adjustment, digits) := by
  cases h with
  | add | subtract => rfl
  | set hplain =>
    fun_cases splitSign kind value with
    | case1 digits => exact absurd rfl (hplain rfl).1
    | case2 digits => exact absurd rfl (hplain rfl).2
    | case3 => rfl

theorem scale_eq (kind : Kind) (rate number : Float) :
    scale kind rate number = if kind = .adder then number / rate else number := by
  cases kind <;> rfl

variable {path value type : List Char} {more : List (List Char)} {kind : Kind} {rate : Float}

theorem ofFields_of_unknown (htype : Kind.ofType? type = none) :
    ofFields path value (type :: more) = .error (.unknownType (.ofList type)) := by
  simp only [ofFields, htype]
  rfl

theorem ofFields_of_badRate {e : LineError} (htype : Kind.ofType? type = some kind)
    (hrate : rateOf 1.0 more = .error e) : ofFields path value (type :: more) = .error e := by
  simp only [ofFields, htype, hrate]
  rfl

theorem ofFields_of_unread (htype : Kind.ofType? type = some kind)
    (hrate : rateOf 1.0 more = .ok rate) (hnumber : readFloat (splitSign kind value).2 = none) :
    ofFields path value (type :: more) = .error (.invalidValue (.ofList value)) := by
  simp only [ofFields, htype, hrate, bind, Except.bind, hnumber]
  rfl

theorem ofFields_of_read {number : Float} (htype : Kind.ofType? type = some kind)
    (hrate : rateOf 1.0 more = .ok rate)
    (hnumber : readFloat (splitSign kind value).2 = some number) :
    ofFields path value (type :: more) =
      if number.isFinite then
        .ok ⟨.ofList path, kind, scale kind rate number, (splitSign kind value).1⟩
      else .error (.nonFinite (.ofList value)) := by
  simp only [ofFields, htype, hrate, bind, Except.bind, hnumber]
  cases number.isFinite <;> rfl

theorem Signed.read_splitSign {digits : List Char} {adjustment : Adjustment}
    (h : Signed kind value digits adjustment) {x : Option Float} (hx : readFloat digits = x) :
    readFloat (splitSign kind value).2 = x := by
  rw [h.splitSign_eq]
  exact hx

end Parts

section Lines

variable {line : List Char}

theorem ofLine_of_notMem (h : ':' ∉ line) : ofLine line = .error .missingValue := by
  have hdrop := List.dropWhile_eq_nil_iff.mpr (keeps_of_notMem h)
  rw [ofLine, hdrop]

theorem exists_cut (h : ':' ∈ line) : ∃ path value more, Cut line path (value :: more) := by
  induction line using fields_cases ':' with
  | last line hline => exact absurd h hline
  | more path rest hpath _ =>
    obtain ⟨value, more, hparts⟩ := List.exists_cons_of_ne_nil (fields_ne_nil '|' rest)
    refine ⟨path, value, more, ?_, hpath, fun part hpart => ?_⟩
    · rw [← hparts, intercalate_fields]
    · exact notMem_of_mem_fields (hparts ▸ hpart)

theorem ofLine_of_cut {path value : List Char} {more : List (List Char)}
    (h : Cut line path (value :: more)) :
    ofLine line = if path.isEmpty then .error .emptyPath else ofFields path value more := by
  rw [ofLine, h.line_eq, takeWhile_append_separator h.colon_notMem,
    dropWhile_append_separator h.colon_notMem]
  simp only [fields_intercalate h.bar_notMem]

theorem Cut.head_eq_colon_iff {path value : List Char} {more : List (List Char)}
    (h : Cut line path (value :: more)) : line.head? = some ':' ↔ path = [] := by
  rw [h.line_eq]
  cases path with
  | nil => simp
  | cons c path =>
    have := h.colon_notMem
    simp_all [eq_comm]

def Justified (line : List Char) (outcome : Except LineError Point) : Prop :=
  (∃ p, outcome = .ok p ∧ Spells line p) ∨ ∃ e, outcome = .error e ∧ Fault line e

theorem justified_ofFields {path value type : List Char} {more : List (List Char)} {kind : Kind}
    (hcut : Cut line path (value :: type :: more)) (hpath : path ≠ [])
    (htype : Kind.ofType? type = some kind) :
    Justified line (ofFields path value (type :: more)) := by
  have hnamed := Kind.ofType?_eq_some_iff.mp htype
  have hsigned := signed_splitSign kind value
  cases hrate : rateOf 1.0 more with
  | error e =>
    obtain ⟨before, text, after, htexts, hbefore, hbad, rfl⟩ := rateOf_eq_error_iff.mp hrate
    exact .inr ⟨_, ofFields_of_badRate htype hrate, .invalidRate hcut htexts hbefore hbad⟩
  | ok rate =>
    obtain ⟨hrates, hlast⟩ := rateOf_eq_ok_iff.mp hrate
    cases hread : readFloat (splitSign kind value).2 with
    | none =>
      exact .inr ⟨_, ofFields_of_unread htype hrate hread, .invalidValue hcut hnamed hsigned hread⟩
    | some number =>
      rw [ofFields_of_read htype hrate hread, scale_eq]
      cases hfinite : number.isFinite with
      | false => exact .inr ⟨_, rfl, .nonFinite hcut hnamed hsigned hread hfinite⟩
      | true =>
        exact .inl ⟨_, rfl, .intro hcut hpath hnamed hrates hlast hsigned hread hfinite⟩

theorem justified_ofLine (line : List Char) : Justified line (ofLine line) := by
  by_cases hcolon : ':' ∈ line
  · obtain ⟨path, value, more, hcut⟩ := exists_cut hcolon
    rw [ofLine_of_cut hcut]
    split
    · rename_i hempty
      exact .inr ⟨_, rfl, .emptyPath (hcut.head_eq_colon_iff.mpr (List.isEmpty_iff.mp hempty))⟩
    · rename_i hpath
      cases more with
      | nil => exact .inr ⟨_, rfl, .missingType hcut⟩
      | cons type more =>
        cases htype : Kind.ofType? type with
        | none =>
          exact .inr ⟨_, ofFields_of_unknown htype,
            .unknownType hcut (Kind.ofType?_eq_none_iff.mp htype)⟩
        | some kind => exact justified_ofFields hcut (mt List.isEmpty_iff.mpr hpath) htype
  · exact .inr ⟨_, ofLine_of_notMem hcolon, .missingValue hcolon⟩

theorem Spells.ofLine_eq {p : Point} (h : Spells line p) : ofLine line = .ok p := by
  obtain ⟨hcut, hpath, htype, hrates, hlast, hsigned, hread, hfinite⟩ := h
  rw [ofLine_of_cut hcut, if_neg (by simpa using hpath),
    ofFields_of_read (Kind.ofType?_eq_some_iff.mpr htype)
      (rateOf_eq_ok_iff.mpr ⟨hrates, hlast⟩) (hsigned.read_splitSign hread),
    if_pos hfinite, scale_eq, hsigned.splitSign_eq]

/-- A fault is reported, or an earlier one in its place. -/
def Reports (outcome : Except LineError Point) (e : LineError) : Prop :=
  ∃ e', outcome = .error e' ∧ e'.rank ≤ e.rank ∧ (e'.rank = e.rank → e' = e)

theorem reports_self (e : LineError) : Reports (.error e) e :=
  ⟨e, rfl, Nat.le_refl _, fun _ => rfl⟩

theorem reports_of_lt {e e' : LineError} (h : e'.rank < e.rank) : Reports (.error e') e :=
  ⟨e', rfl, Nat.le_of_lt h, fun heq => absurd heq (Nat.ne_of_lt h)⟩

section Reports

variable {path value type : List Char} {more : List (List Char)} {e : LineError}

theorem reports_ofLine (hcut : Cut line path (value :: more))
    (he : LineError.emptyPath.rank < e.rank) (h : Reports (ofFields path value more) e) :
    Reports (ofLine line) e := by
  rw [ofLine_of_cut hcut]
  split
  · exact reports_of_lt he
  · exact h

theorem reports_of_rate {kind : Kind} (htype : Kind.ofType? type = some kind)
    (he : ∀ text, (LineError.invalidRate text).rank < e.rank)
    (h : ∀ rate, rateOf 1.0 more = .ok rate → Reports (ofFields path value (type :: more)) e) :
    Reports (ofFields path value (type :: more)) e := by
  cases hrate : rateOf 1.0 more with
  | ok rate => exact h rate hrate
  | error e' =>
    obtain ⟨_, text, _, -, -, -, rfl⟩ := rateOf_eq_error_iff.mp hrate
    rw [ofFields_of_badRate htype hrate]
    exact reports_of_lt (he _)

end Reports

theorem Fault.reports {e : LineError} (h : Fault line e) : Reports (ofLine line) e := by
  cases h with
  | missingValue hcolon =>
    rw [ofLine_of_notMem hcolon]
    exact reports_self _
  | emptyPath hhead =>
    obtain ⟨path, value, more, hcut⟩ := exists_cut (List.mem_of_mem_head? hhead)
    rw [ofLine_of_cut hcut, hcut.head_eq_colon_iff.mp hhead]
    exact reports_self _
  | missingType hcut => exact reports_ofLine hcut (by simp [LineError.rank]) (reports_self _)
  | unknownType hcut htype =>
    refine reports_ofLine hcut (by simp [LineError.rank]) ?_
    rw [ofFields_of_unknown (Kind.ofType?_eq_none_iff.mpr htype)]
    exact reports_self _
  | invalidRate hcut htexts hbefore hbad =>
    rename_i path value type text more before after
    refine reports_ofLine hcut (by simp [LineError.rank]) ?_
    cases htype : Kind.ofType? type with
    | none =>
      rw [ofFields_of_unknown htype]
      exact reports_of_lt (by simp [LineError.rank])
    | some kind =>
      rw [ofFields_of_badRate htype
        (rateOf_eq_error_iff.mpr ⟨before, text, after, htexts, hbefore, hbad, rfl⟩)]
      exact reports_self _
  | invalidValue hcut hnamed hsigned hread =>
    have htype := Kind.ofType?_eq_some_iff.mpr hnamed
    refine reports_ofLine hcut (by simp [LineError.rank])
      (reports_of_rate htype (fun _ => by simp [LineError.rank]) fun rate hrate => ?_)
    rw [ofFields_of_unread htype hrate (hsigned.read_splitSign hread)]
    exact reports_self _
  | nonFinite hcut hnamed hsigned hread hinfinite =>
    have htype := Kind.ofType?_eq_some_iff.mpr hnamed
    refine reports_ofLine hcut (by simp [LineError.rank])
      (reports_of_rate htype (fun _ => by simp [LineError.rank]) fun rate hrate => ?_)
    rw [ofFields_of_read htype hrate (hsigned.read_splitSign hread), hinfinite]
    exact reports_self _

end Lines

/-- A text as its rows, each ended by a line feed or by a carriage return and one; the last is not.
-/
inductive Rows : List Char → List (List Char) → Prop
  | last {row : List Char} : '\n' ∉ row → Rows row [row]
  | feed {row text : List Char} {rows : List (List Char)} :
      '\n' ∉ row → Rows text rows → Rows (row ++ '\n' :: text) (row :: rows)
  | returnFeed {row text : List Char} {rows : List (List Char)} :
      '\n' ∉ row → Rows text rows → Rows (row ++ '\r' :: '\n' :: text) (row :: rows)

theorem exists_rows (text : List Char) : ∃ rows, Rows text rows := by
  induction text using fields_cases '\n' with
  | last row hrow => exact ⟨_, .last hrow⟩
  | more row rest hrow ih =>
    obtain ⟨rows, hrows⟩ := ih
    exact ⟨_, .feed hrow hrows⟩

theorem Rows.candidates_eq {text : List Char} {rows : List (List Char)} (h : Rows text rows) :
    candidates text = (rows.map trimEnd).filter (!·.isEmpty) := by
  rw [Rollup.candidates_eq]
  induction h with
  | last hrow => rw [fields_of_notMem hrow]
  | feed hrow _ ih =>
    rw [fields_append hrow]
    simp only [List.map_cons, List.filter_cons, ih]
  | @returnFeed row text rows hrow _ ih =>
    have hreturn : trimEnd (row ++ ['\r']) = trimEnd row := by
      have hblank : isBlank '\r' := by decide
      simp [trimEnd, hblank]
    have hfeed : '\n' ∉ row ++ ['\r'] := by simp [hrow]
    rw [List.append_cons, fields_append hfeed]
    simp only [List.map_cons, List.filter_cons, ih, hreturn]

/-- Reading a line gives its point exactly if it spells one, and of the faults of any other line the
first; reading a text does so for each of its rows that are not blank. -/
theorem read_iff_spells (line text : List Char) :
    (∀ p, ofLine line = .ok p ↔ Spells line p) ∧
      (∀ e, ofLine line = .error e ↔ Fault line e ∧ ∀ e', Fault line e' → e.rank ≤ e'.rank) ∧
      (∃ rows, Rows text rows) ∧ ∀ rows, Rows text rows →
        ofText text = ((rows.map trimEnd).filter (!·.isEmpty)).map ofLine := by
  refine ⟨fun p => ⟨fun h => ?_, Spells.ofLine_eq⟩, fun e => ⟨fun h => ⟨?_, ?_⟩, ?_⟩,
    exists_rows text, fun rows hrows => congrArg (List.map ofLine) hrows.candidates_eq⟩
  · rcases justified_ofLine line with ⟨p', hp, hspells⟩ | ⟨e, he, -⟩
    · cases h.symm.trans hp
      exact hspells
    · cases h.symm.trans he
  · rcases justified_ofLine line with ⟨p, hp, -⟩ | ⟨e', he', hfault⟩
    · cases h.symm.trans hp
    · cases h.symm.trans he'
      exact hfault
  · intro e' he'
    obtain ⟨e'', he'', hle, -⟩ := he'.reports
    cases h.symm.trans he''
    exact hle
  · rintro ⟨hfault, hfirst⟩
    obtain ⟨e', he', hle, heq⟩ := hfault.reports
    rcases justified_ofLine line with ⟨p, hp, -⟩ | ⟨e'', he'', hfault'⟩
    · cases hp.symm.trans he'
    · cases he''.symm.trans he'
      rw [he', heq (Nat.le_antisymm hle (hfirst _ hfault'))]

end Point

end Rollup
