import Mathlib.Tactic.SplitIfs
import Rollup.Config.Schema
import Rollup.Proofs.Document.Reading
import Rollup.Yaml.Writer

/-! What has been written, as it is found: scalars are spelled out, without quotes where the writer
leaves them away. A reader that knows what to expect finds the value that was written, whether the
scalars have settled or not. -/
namespace Rollup

namespace PlainScalar

theorem toDigits_cases (n : Nat) : Nat.toDigits 10 n = ['0'] ∨
    ∃ first rest, Nat.toDigits 10 n = first :: rest ∧ first.isDigit ∧ first ≠ '0' := by
  induction n using Nat.strongRecOn with
  | ind n ih =>
    by_cases hlt : n < 10
    · rw [Nat.toDigits_of_lt_base hlt]
      by_cases hzero : n = 0
      · exact .inl (by rw [hzero]; rfl)
      · refine .inr ⟨n.digitChar, [], rfl, ?_, fun heq => hzero (Nat.digitChar_eq_zero.mp heq)⟩
        rw [Nat.isDigit_digitChar]
        exact decide_eq_true hlt
    · rw [Nat.toDigits_of_base_le (by decide) (Nat.not_lt.mp hlt)]
      obtain hten | ⟨first, rest, hrest, hfirst⟩ := ih (n / 10) (by omega)
      · have hvalue := congrArg (Nat.ofDigitChars 10 · 0) hten
        rw [Nat.ofDigitChars_ten_toDigits] at hvalue
        have : n / 10 = 0 := hvalue
        omega
      · exact .inr ⟨first, rest ++ [(n % 10).digitChar], by rw [hrest, List.cons_append], hfirst⟩

theorem splitSign_toDigits (n : Nat) :
    splitSign (Nat.toDigits 10 n) = (none, Nat.toDigits 10 n) := by
  have hdigit : ∀ c : Char, c.isDigit → c ≠ '-' ∧ c ≠ '+' := by
    intro c hc
    exact ⟨fun h => by simp [h] at hc, fun h => by simp [h] at hc⟩
  obtain hzero | ⟨first, rest, hrest, hfirst, -⟩ := toDigits_cases n
  · rw [hzero]
    rfl
  · rw [hrest]
    have hsign := hdigit first hfirst
    unfold splitSign
    split <;> simp_all

theorem isPaddedDigits_of_splitSign {source : List Char} {sign : Option Char} {n : Nat}
    (h : splitSign source = (sign, Nat.toDigits 10 n)) : isPaddedDigits source = false := by
  unfold isPaddedDigits
  rw [h]
  obtain hzero | ⟨first, rest, hrest, -, hne⟩ := toDigits_cases n
  · rw [hzero]
    rfl
  · rw [hrest]
    split <;> simp_all

theorem digitValue_of_isDigit {c : Char} (h : c.isDigit) :
    digitValue c = some (c.toNat - '0'.toNat) := if_pos h

theorem readDigitsIn_toDigits (n : Nat) : readDigitsIn 10 (Nat.toDigits 10 n) = some n := by
  have hfold : ∀ (digits : List Char) (soFar : Nat), (∀ c ∈ digits, c.isDigit) →
      digits.foldlM (fun n c => do
        let d ← digitValue c
        if d < 10 then some (10 * n + d) else none) soFar =
        some (Nat.ofDigitChars 10 digits soFar) := by
    intro digits
    induction digits with
    | nil => intros; rfl
    | cons c rest ih =>
      intro soFar h
      rw [List.forall_mem_cons] at h
      have hvalue : c.toNat - 48 < 10 := by
        have hc : c.toNat ≤ 57 := (Char.isDigit_iff_toNat.mp h.1).2
        omega
      rw [List.foldlM_cons, digitValue_of_isDigit h.1, Nat.ofDigitChars_cons, ← ih _ h.2]
      simp [hvalue]
  rw [readDigitsIn, if_neg (by simp [Nat.toDigits_ne_nil]), hfold _ _
    fun c hc => Nat.isDigit_of_mem_toDigits (by decide) (by decide) hc,
    Nat.ofDigitChars_ten_toDigits]

theorem readInt_of_splitSign {source : List Char} {sign : Option Char} {n : Nat}
    (h : splitSign source = (sign, Nat.toDigits 10 n)) :
    readInt source = some (if sign = some '-' then -(n : Int) else n) := by
  have hpadded := isPaddedDigits_of_splitSign h
  have hdigits := readDigitsIn_toDigits n
  unfold readInt
  rw [h]
  obtain hzero | ⟨first, rest, hrest, -, hne⟩ := toDigits_cases n
  · rw [hzero] at hdigits ⊢
    simp [hpadded, hdigits]
  · rw [hrest] at hdigits ⊢
    simp only
    split <;> simp_all

theorem toList_toString (n : Int) : (toString n).toList =
    if n < 0 then '-' :: Nat.toDigits 10 n.natAbs else Nat.toDigits 10 n.natAbs := by
  cases n with
  | ofNat m =>
    have hnonneg : ¬ Int.ofNat m < 0 := Int.not_lt.mpr (Int.natCast_nonneg m)
    rw [if_neg hnonneg]
    exact Nat.toList_repr
  | negSucc m =>
    rw [if_pos (Int.negSucc_lt_zero m)]
    change ("-" ++ (m + 1).repr).toList = _
    rw [String.toList_append, Nat.toList_repr]
    rfl

theorem splitSign_toString (n : Int) :
    splitSign (toString n).toList =
      (if n < 0 then some '-' else none, Nat.toDigits 10 n.natAbs) := by
  rw [toList_toString]
  by_cases hneg : n < 0
  · rw [if_pos hneg, if_pos hneg]
    rfl
  · rw [if_neg hneg, if_neg hneg]
    exact splitSign_toDigits n.natAbs

theorem head_toString (n : Int) :
    ∃ c rest, (toString n).toList = c :: rest ∧ (c.isDigit ∨ n < 0 ∧ c = '-') := by
  rw [toList_toString]
  by_cases hneg : n < 0
  · exact ⟨'-', Nat.toDigits 10 n.natAbs, if_pos hneg, .inr ⟨hneg, rfl⟩⟩
  · rw [if_neg hneg]
    obtain hzero | ⟨c, rest, hrest, hc, -⟩ := toDigits_cases n.natAbs
    · exact ⟨'0', [], hzero, .inl rfl⟩
    · exact ⟨c, rest, hrest, .inl hc⟩

theorem readInt_toString (n : Int) : readInt (toString n).toList = some n := by
  rw [readInt_of_splitSign (splitSign_toString n)]
  by_cases hneg : n < 0
  · rw [if_pos hneg, if_pos rfl]
    exact congrArg some (by omega)
  · rw [if_neg hneg, if_neg nofun]
    exact congrArg some (by omega)

theorem contains_toString {words : List String}
    (h : words.all fun word => word.toList.head?.all fun c => !c.isDigit && c != '-') (n : Int) :
    words.contains (toString n) = false := by
  obtain ⟨c, rest, hrest, hc⟩ := head_toString n
  rw [← Bool.not_eq_true, List.contains_iff_mem]
  intro hmem
  have hword := List.all_eq_true.mp h _ hmem
  rw [hrest, List.head?_cons, Option.all_some, Bool.and_eq_true, Bool.not_eq_true',
    bne_iff_ne] at hword
  exact hc.elim (Bool.eq_false_iff.mp hword.1) fun hminus => hword.2 hminus.2

theorem ofText_toString {n : Int} (hlow : -0x8000000000000000 ≤ n) (hhigh : n ≤ maxWord) :
    ofText (toString n).toList = .int n := by
  have hnull : isNull (toString n) = false := contains_toString (by decide) n
  have hbool : readBool (toString n) = none := by
    rw [readBool, contains_toString (by decide), contains_toString (by decide)]
    rfl
  simp only [ofText, String.ofList_toList, hnull, hbool, readInt_toString, hlow, hhigh, and_self,
    if_true, Bool.false_eq_true, if_false]

end PlainScalar

namespace Document

mutual

def spelled : Document → Document
  | .null => .plain "null"
  | .bool b => .plain (toString b)
  | .int n => .plain (toString n)
  | .float x => .plain (Yaml.floats.write x)
  | .text s => if Yaml.formOf s.toList = .plain then .plain s else .text s
  | .plain source => .plain source
  | .list items => .list (spelledItems items)
  | .map entries => .map (spelledEntries entries)

def spelledItems : List Document → List Document
  | [] => []
  | item :: rest => item.spelled :: spelledItems rest

def spelledEntries : List (String × Document) → List (String × Document)
  | [] => []
  | (key, value) :: rest => (key, value.spelled) :: spelledEntries rest

end

theorem settleItems_eq (items : List Document) : settleItems items = items.map settle := by
  induction items with
  | nil => rfl
  | cons item rest ih => rw [settleItems, ih, List.map_cons]

theorem spelledItems_eq (items : List Document) : spelledItems items = items.map spelled := by
  induction items with
  | nil => rfl
  | cons item rest ih => rw [spelledItems, ih, List.map_cons]

theorem spelledEntries_eq (entries : List (String × Document)) :
    spelledEntries entries = entries.map fun (key, d) => (key, d.spelled) := by
  induction entries with
  | nil => rfl
  | cons entry rest ih => rw [spelledEntries, ih, List.map_cons]

end Document

/-- Who has a map for itself finds its scalars as they are spelled, and who shares it with others
finds them settled. -/
inductive Access
  | own
  | shared

namespace Document

def found (a : Access) (d : Document) : Document :=
  match a with
  | .own => d.spelled
  | .shared => d.spelled.settle

variable (a : Access)

theorem found_list (items : List Document) :
    (list items).found a = .list (items.map (·.found a)) := by
  cases a <;> simp [found, spelled, settle, spelledItems_eq, settleItems_eq]

theorem readBool_found (b : Bool) : readBool ((bool b).found a) = .ok b := by
  cases a <;> cases b <;> rfl

section Int

variable {n : Int} (hleast : -0x8000000000000000 ≤ n) (hword : n ≤ maxWord)

include hleast hword in
theorem found_int_shared : (int n).found .shared = .int n := by
  rw [found, spelled, settle, PlainScalar.ofText_toString hleast hword]

include hleast hword in
theorem readInt_found {low high : Int} (hlow : low ≤ n) (hhigh : n ≤ high) :
    readInt low high ((int n).found a) = .ok n := by
  cases a with
  | own =>
    have hsign : ¬ (low = 0 ∧ (toString n).startsWith "-") := by
      rintro ⟨rfl, hminus⟩
      obtain ⟨c, rest, hrest, hc⟩ := PlainScalar.head_toString n
      have hdigit : c.isDigit := hc.resolve_right fun hneg => Int.not_lt.mpr hlow hneg.1
      rw [String.startsWith_string_iff, hrest] at hminus
      have hfirst : '-' = c := (List.cons_prefix_cons.mp hminus).1
      rw [← hfirst] at hdigit
      cases hdigit
    simp only [found, spelled, readInt, PlainScalar.readInt_toString]
    rw [if_neg hsign, if_pos ⟨hlow, hhigh⟩]
  | shared =>
    rw [found_int_shared hleast hword]
    exact if_pos ⟨hlow, hhigh⟩

include hleast hword in
theorem readOptional_found_int (read : Document → Except FormError α) :
    readOptional read ((int n).found a) = (read ((int n).found a)).map some := by
  cases a with
  | own =>
    have hnull : PlainScalar.isNull (toString n) = false :=
      PlainScalar.contains_toString (by decide) n
    simp only [found, spelled, readOptional, hnull]
    rfl
  | shared =>
    rw [found_int_shared hleast hword]
    rfl

end Int

theorem readWord_found {n : Nat} (h : n ≤ maxWord) : readWord ((ofNat n).found a) = .ok n := by
  have hn : (n : Int) ≤ maxWord := Int.ofNat_le.mpr h
  rw [readWord, ofNat, readInt_found a (by omega) hn (Int.natCast_nonneg n) hn]
  rfl

theorem readOptional_found_word {n : Nat} (h : n ≤ maxWord) :
    readOptional readWord ((ofNat n).found a) = .ok (some n) := by
  have hn : (n : Int) ≤ maxWord := Int.ofNat_le.mpr h
  have hread := readWord_found a h
  rw [ofNat] at hread ⊢
  rw [readOptional_found_int a (by omega) hn, hread]
  rfl

theorem readOptional_found_int32 {n : Int} (h : -2147483648 ≤ n ∧ n ≤ 2147483647) :
    readOptional (readInt (-2147483648) 2147483647) ((int n).found a) = .ok (some n) := by
  have hleast : -0x8000000000000000 ≤ n := by omega
  have hword : n ≤ maxWord := Int.le_trans h.2 (by decide)
  rw [readOptional_found_int a hleast hword, readInt_found a hleast hword h.1 h.2]
  rfl

def KeepsFloat (x : Float) : Prop := PlainScalar.readFloat (Yaml.floats.write x).toList = some x

theorem readFloat_spelled {x : Float} (h : KeepsFloat x) : readFloat (float x).spelled = .ok x := by
  simp only [spelled, readFloat, show PlainScalar.readFloat _ = _ from h]

section Text

theorem ofText_of_plain {text : List Char} (h : Yaml.formOf text = .plain) :
    PlainScalar.ofText text = .text := by
  have hreads : Yaml.readsAsText text = true := by
    cases hreads : Yaml.readsAsText text with
    | true => rfl
    | false =>
      simp only [Yaml.formOf, hreads, Bool.not_false, Bool.or_true, if_true] at h
      split_ifs at h
  unfold Yaml.readsAsText at hreads
  split at hreads
  · assumption
  · cases hreads

theorem isNull_of_plain {s : String} (h : Yaml.formOf s.toList = .plain) :
    PlainScalar.isNull s = false := by
  have htext := ofText_of_plain h
  unfold PlainScalar.ofText at htext
  rw [String.ofList_toList] at htext
  cases hnull : PlainScalar.isNull s with
  | false => rfl
  | true => simp [hnull] at htext

theorem found_text (s : String) :
    (text s).found a = .text s ∨
      (text s).found a = .plain s ∧ PlainScalar.isNull s = false := by
  have hspelled : (text s).spelled =
      if Yaml.formOf s.toList = .plain then .plain s else .text s := by
    rw [spelled]
  by_cases hform : Yaml.formOf s.toList = .plain
  · rw [if_pos hform] at hspelled
    cases a with
    | own => exact .inr ⟨hspelled, isNull_of_plain hform⟩
    | shared => exact .inl (by rw [found, hspelled, settle, ofText_of_plain hform])
  · rw [if_neg hform] at hspelled
    cases a with
    | own => exact .inl hspelled
    | shared => exact .inl (congrArg settle hspelled)

theorem readText_found (s : String) : readText ((text s).found a) = .ok s := by
  obtain h | ⟨h, -⟩ := found_text a s
  · rw [h]
    rfl
  · rw [h]
    rfl

theorem readOptional_found_text (s : String) :
    readOptional readText ((text s).found a) = .ok (some s) := by
  obtain h | ⟨h, hnull⟩ := found_text a s
  · rw [h]
    rfl
  · rw [h, readOptional, hnull]
    rfl

theorem readName_found {all : List α} {name : α → String} {x : α}
    (h : all.find? (fun y => name y == name x) = some x) :
    readName all name ((text (name x)).found a) = .ok x := by
  simp only [readName, readText_found, ok_bind, h]
  rfl

end Text

theorem readList_found {read : Document → Except FormError α} {write : α → Document}
    {values : List α} (h : ∀ x ∈ values, read ((write x).found a) = .ok x) :
    readList read ((list (values.map write)).found a) = .ok values := by
  rw [found_list, readList]
  induction values with
  | nil => rfl
  | cons x rest ih =>
    rw [List.forall_mem_cons] at h
    rw [List.map_cons, List.map_cons, List.mapM_cons, h.1, ih h.2]
    rfl

theorem readTexts_found (texts : List String) :
    readList readText ((ofTexts texts).found a) = .ok texts :=
  readList_found a fun s _ => readText_found a s

end Document

namespace Section

def found (a : Access) (entries : List (String × Document)) : Section :=
  ⟨entries.map fun (key, d) => (key, d.found a)⟩

variable (a : Access) {entries : List (String × Document)} {key : String}

theorem settle_found (entries : List (String × Document)) :
    (found .own entries).settle = found .shared entries := by
  rw [settle, found, found, List.map_map]
  rfl

theorem ofDocument_spelled (entries : List (String × Document)) :
    ofDocument (Document.map entries).spelled = .ok (found .own entries) := by
  rw [Document.spelled, Document.spelledEntries_eq]
  rfl

theorem ofFields_spelled (names : List String) (entries : List (String × Document)) :
    ofFields names (Document.map entries).spelled = .ok (found .own entries) := by
  rw [Document.spelled, Document.spelledEntries_eq]
  rfl

theorem filter_found : (found a entries).entries.filter (·.1 == key) =
    (entries.filter (·.1 == key)).map fun (key, d) => (key, d.found a) := by
  rw [found, List.filter_map]
  rfl

theorem read_found {d : Document} {default x : α} {read : Document → Except FormError α}
    (hkey : entries.filter (·.1 == key) = [(key, d)]) (hread : read (d.found a) = .ok x) :
    (found a entries).read key default read = .ok x := by
  rw [Section.read, filter_found, hkey]
  exact hread

theorem filter_of_mem {d : Document} (hnames : (entries.map Prod.fst).Nodup)
    (hmem : (key, d) ∈ entries) : entries.filter (·.1 == key) = [(key, d)] := by
  induction entries with
  | nil => cases hmem
  | cons first rest ih =>
    rw [List.map_cons, List.nodup_cons] at hnames
    rw [List.filter_cons]
    obtain rfl | hrest := List.mem_cons.mp hmem
    · have hnone : rest.filter (·.1 == key) = [] := by
        rw [List.filter_eq_nil_iff]
        intro entry hentry heq
        exact hnames.1 (List.mem_map.mpr ⟨entry, hentry, eq_of_beq heq⟩)
      rw [if_pos (beq_self_eq_true key), hnone]
    · have hne : ¬ (first.1 == key) = true := by
        intro heq
        exact hnames.1 (List.mem_map.mpr ⟨(key, d), hrest, (eq_of_beq heq).symm⟩)
      rw [if_neg hne, ih hnames.2 hrest]

theorem read_entry {d : Document} {default x : α} {read : Document → Except FormError α}
    (hnames : (entries.map Prod.fst).Nodup) (hmem : (key, d) ∈ entries)
    (hread : read (d.found a) = .ok x) : (found a entries).read key default read = .ok x :=
  read_found a (filter_of_mem hnames hmem) hread

theorem read_optional {value : Option α} {read : Document → Except FormError α}
    {write : α → Document} (hkey : entries.filter (·.1 == key) = optionalEntry key write value)
    (hread : ∀ x ∈ value, Document.readOptional read ((write x).found a) = .ok (some x)) :
    (found a entries).read key none (Document.readOptional read) = .ok value := by
  rw [Section.read, filter_found, hkey]
  cases value with
  | none => rfl
  | some x => exact hread x rfl

end Section

theorem filter_optionalEntry (key other : String) (write : α → Document) (value : Option α) :
    (optionalEntry key write value).filter (·.1 == other) =
      if key = other then optionalEntry key write value else [] := by
  cases value with
  | none => simp [optionalEntry]
  | some x =>
    by_cases h : key = other <;> simp [optionalEntry, h]

end Rollup
