import Mathlib.Data.List.TakeWhile
import Rollup.Point.Line
import Rollup.Text.Utf8

/-! Lines of bytes and lines of text. A line end is never part of a longer sequence of UTF-8, so
that bytes are well formed exactly if each of their lines is, and decoding and cutting into lines
may come in either order. -/
namespace Rollup

section Fields

variable {α : Type} [BEq α] [LawfulBEq α] {separator : α}

theorem keeps_of_notMem {field : List α} (h : separator ∉ field) :
    ∀ c ∈ field, (c != separator) = true := by
  intro c hc
  simpa using fun heq : c = separator => h (heq ▸ hc)

theorem takeWhile_append_separator {field : List α} (h : separator ∉ field)
    (rest : List α) : (field ++ separator :: rest).takeWhile (· != separator) = field := by
  rw [List.takeWhile_append_of_pos (keeps_of_notMem h)]
  simp

theorem dropWhile_append_separator {field : List α} (h : separator ∉ field)
    (rest : List α) :
    (field ++ separator :: rest).dropWhile (· != separator) = separator :: rest := by
  rw [List.dropWhile_append_of_pos (keeps_of_notMem h)]
  simp

theorem fields_of_notMem {text : List α} (h : separator ∉ text) :
    fields separator text = [text] := by
  have hdrop := List.dropWhile_eq_nil_iff.mpr (keeps_of_notMem h)
  have htake := List.takeWhile_eq_self_iff.mpr (keeps_of_notMem h)
  rw [fields]
  split
  · rw [htake]
  · simp_all

theorem fields_append {field : List α} (h : separator ∉ field) (rest : List α) :
    fields separator (field ++ separator :: rest) = field :: fields separator rest := by
  have hdrop := dropWhile_append_separator h rest
  rw [fields]
  split
  · simp_all
  · rename_i heq
    rw [hdrop, List.cons.injEq] at heq
    rw [takeWhile_append_separator h, heq.2]

theorem fields_cases (separator : α) {motive : List α → Prop}
    (last : ∀ field, separator ∉ field → motive field)
    (more : ∀ field rest, separator ∉ field → motive rest → motive (field ++ separator :: rest))
    (text : List α) : motive text := by
  have hfield : ∀ text : List α, separator ∉ text.takeWhile (· != separator) := by
    intro text hmem
    simpa using List.mem_takeWhile_imp hmem
  induction text using fields.induct separator with
  | case1 text hdrop =>
    rw [← List.takeWhile_append_dropWhile (p := (· != separator)) (l := text), hdrop,
      List.append_nil]
    exact last _ (hfield text)
  | case2 text head rest hdrop ih =>
    have hhead : head = separator := by
      have hne : text.dropWhile (· != separator) ≠ [] := by simp [hdrop]
      simpa [hdrop] using List.head_dropWhile_not (· != separator) hne
    rw [← List.takeWhile_append_dropWhile (p := (· != separator)) (l := text), hdrop, hhead]
    exact more _ rest (hfield text) ih

theorem fields_append_fields (text rest : List α) :
    fields separator (text ++ separator :: rest) =
      fields separator text ++ fields separator rest := by
  induction text using fields_cases separator with
  | last field h => rw [fields_append h, fields_of_notMem h, List.singleton_append]
  | more field more h ih =>
    rw [List.append_assoc, List.cons_append, fields_append h, fields_append h, ih, List.cons_append]

theorem exists_prefix_mem_fields {start : List α} (h : separator ∉ start) (text : List α) :
    ∃ field ∈ fields separator (start ++ text), start <+: field := by
  induction text using fields_cases separator with
  | last field hfield =>
    refine ⟨start ++ field, ?_, List.prefix_append start field⟩
    rw [fields_of_notMem (by simp [h, hfield])]
    exact List.mem_singleton_self _
  | more field rest hfield ih =>
    refine ⟨start ++ field, ?_, List.prefix_append start field⟩
    rw [← List.append_assoc, fields_append (by simp [h, hfield])]
    exact List.mem_cons_self

theorem notMem_of_mem_fields {text field : List α} (h : field ∈ fields separator text) :
    separator ∉ field := by
  induction text using fields_cases separator with
  | last whole hwhole =>
    rw [fields_of_notMem hwhole, List.mem_singleton] at h
    exact h ▸ hwhole
  | more first rest hfirst ih =>
    rw [fields_append hfirst, List.mem_cons] at h
    exact h.elim (· ▸ hfirst) ih

end Fields

section Utf8

/-- A character under way is none of one byte, whatever its next byte. -/
structure Partial.Sound (p : Partial) : Prop where
  low : 0x80 ≤ p.low.toNat
  high : p.high.toNat ≤ 0xBF
  bits : 16 ≤ p.bits * 64 + p.low.toNat % 64

def openUnit (b : UInt8) : List (Option Char) × Option Partial :=
  match Lead.ofByte b with
  | none => ([none], none)
  | some lead =>
    if lead.following = 0 then ([some (Char.ofNat lead.bits)], none)
    else ([], some ⟨lead.following, lead.low, lead.high, lead.bits⟩)

def nextUnit : Option Partial → UInt8 → List (Option Char) × Option Partial
  | none, b => openUnit b
  | some p, b =>
    if p.low ≤ b && b ≤ p.high then
      let bits := p.bits * 64 + b.toNat % 64
      if p.owed ≤ 1 then ([some (Char.ofNat bits)], none)
      else ([], some ⟨p.owed - 1, 0x80, 0xBF, bits⟩)
    else (none :: (openUnit b).1, (openUnit b).2)

def unitsAfter : Option Partial → List UInt8 → List (Option Char)
  | none, [] => []
  | some _, [] => [none]
  | p, b :: rest => (nextUnit p b).1 ++ unitsAfter (nextUnit p b).2 rest

theorem unitsFrom_eq (done : List (Option Char)) (p : Option Partial) (bytes : List UInt8) :
    unitsFrom done p bytes = done.reverse ++ unitsAfter p bytes := by
  have hstart : ∀ (rest : List UInt8), (∀ done p, unitsFrom done p rest =
      done.reverse ++ unitsAfter p rest) → ∀ done b, unitsFrom.start done b rest =
        done.reverse ++ ((openUnit b).1 ++ unitsAfter (openUnit b).2 rest) := by
    intro rest ih done b
    cases hlead : Lead.ofByte b with
    | none => simp [unitsFrom.start, openUnit, hlead, ih]
    | some lead =>
      by_cases hlast : lead.following = 0 <;> simp [unitsFrom.start, openUnit, hlead, hlast, ih]
  induction bytes generalizing done p with
  | nil => cases p <;> simp [unitsFrom, unitsAfter]
  | cons b rest ih =>
    cases p with
    | none => simp only [unitsFrom, hstart rest ih, unitsAfter, nextUnit]
    | some p =>
      simp only [unitsFrom, hstart rest ih, unitsAfter, nextUnit]
      split
      · split <;> simp [ih]
      · simp

theorem openUnit_ascii {b : UInt8} (h : b.toNat < 0x80) :
    openUnit b = ([some (Char.ofNat b.toNat)], none) := by
  have hlt : b < 0x80 := UInt8.lt_iff_toNat_lt.mpr h
  simp [openUnit, Lead.ofByte, hlt]

theorem Lead.ofByte_spec {b : UInt8} {lead : Lead} (h : Lead.ofByte b = some lead) :
    (lead.following = 0 → lead.bits = b.toNat) ∧
      (lead.following ≠ 0 →
        Partial.Sound ⟨lead.following, lead.low, lead.high, lead.bits⟩) := by
  unfold Lead.ofByte at h
  simp only [UInt8.lt_iff_toNat_lt, ← UInt8.toNat_inj] at h
  split_ifs at h <;> cases h
  · exact ⟨fun _ => rfl, fun hmore => absurd rfl hmore⟩
  all_goals
    refine ⟨by simp, fun _ => ?_⟩
    constructor <;> simp_all <;> omega

theorem sound_openUnit {b : UInt8} {p : Partial} (h : (openUnit b).2 = some p) : p.Sound := by
  unfold openUnit at h
  cases hlead : Lead.ofByte b with
  | none => simp [hlead] at h
  | some lead =>
    by_cases hlast : lead.following = 0
    · simp [hlead, hlast] at h
    · simp only [hlead, hlast, if_false, Option.some.injEq] at h
      exact h ▸ (Lead.ofByte_spec hlead).2 hlast

theorem sound_nextUnit {p : Option Partial} (hp : ∀ under ∈ p, under.Sound) (b : UInt8) :
    ∀ under ∈ (nextUnit p b).2, under.Sound := by
  intro under hafter
  cases p with
  | none => exact sound_openUnit hafter
  | some p =>
    obtain ⟨hlow, hhigh, hbits⟩ := hp p rfl
    simp only [nextUnit, Bool.and_eq_true, decide_eq_true_eq, UInt8.le_iff_toNat_le] at hafter
    split_ifs at hafter with hin howed
    · cases hafter
    · cases hafter
      constructor
      · simp
      · simp
      · have hsixteen : 16 ≤ p.bits * 64 + b.toNat % 64 := by omega
        exact Nat.le_trans hsixteen (by simp only []; omega)
    · exact sound_openUnit hafter

theorem ofNat_ne_newline {n : Nat} (h : n ≠ 10) : Char.ofNat n ≠ '\n' := by
  intro heq
  by_cases hvalid : n.isValidChar
  · have hchar : Char.ofNat n = Char.ofNatAux n hvalid := dif_pos hvalid
    rw [hchar] at heq
    exact h (congrArg Char.toNat heq)
  · have hchar : Char.ofNat n = _ := dif_neg hvalid
    rw [hchar] at heq
    cases heq

theorem nextUnit_newline {p : Option Partial} (hp : ∀ under ∈ p, under.Sound) :
    nextUnit p 10 = (unitsAfter p [] ++ [some '\n'], none) := by
  have hopen : openUnit 10 = ([some '\n'], none) := openUnit_ascii (by decide)
  cases p with
  | none => exact hopen
  | some p =>
    have hlow : ¬ p.low ≤ 10 := by
      have := (hp p rfl).low
      simp only [UInt8.le_iff_toNat_le]
      change ¬ p.low.toNat ≤ 10
      omega
    simp [nextUnit, hopen, hlow, unitsAfter]

theorem newline_notMem_openUnit {b : UInt8} (h : b ≠ 10) : some '\n' ∉ (openUnit b).1 := by
  unfold openUnit
  cases hlead : Lead.ofByte b with
  | none => simp
  | some lead =>
    by_cases hlast : lead.following = 0
    · have hbits : lead.bits ≠ 10 := by
        rw [(Lead.ofByte_spec hlead).1 hlast]
        exact fun heq => h (UInt8.toNat_inj.mp heq)
      simpa [hlast] using (ofNat_ne_newline hbits).symm
    · simp [hlast]

theorem newline_notMem_nextUnit {p : Option Partial} {b : UInt8}
    (hp : ∀ under ∈ p, under.Sound) (h : b ≠ 10) : some '\n' ∉ (nextUnit p b).1 := by
  cases p with
  | none => exact newline_notMem_openUnit h
  | some p =>
    obtain ⟨hlow, hhigh, hbits⟩ := hp p rfl
    simp only [nextUnit, Bool.and_eq_true, decide_eq_true_eq, UInt8.le_iff_toNat_le]
    split_ifs with hin howed
    · have hne : p.bits * 64 + b.toNat % 64 ≠ 10 := by omega
      simpa using (ofNat_ne_newline hne).symm
    · simp
    · simpa using newline_notMem_openUnit h

theorem unitsAfter_newline {p : Option Partial} (hp : ∀ under ∈ p, under.Sound)
    (line rest : List UInt8) :
    unitsAfter p (line ++ 10 :: rest) = unitsAfter p line ++ some '\n' :: unitsAfter none rest := by
  induction line generalizing p with
  | nil => simp [unitsAfter, nextUnit_newline hp]
  | cons b line ih => simp [unitsAfter, ih (sound_nextUnit hp b)]

theorem newline_notMem_unitsAfter {p : Option Partial} (hp : ∀ under ∈ p, under.Sound)
    {bytes : List UInt8} (h : 10 ∉ bytes) : some '\n' ∉ unitsAfter p bytes := by
  induction bytes generalizing p with
  | nil => cases p <;> simp [unitsAfter]
  | cons b rest ih =>
    rw [List.mem_cons, not_or] at h
    rw [unitsAfter, List.mem_append, not_or]
    exact ⟨newline_notMem_nextUnit hp (Ne.symm h.1), ih (sound_nextUnit hp b) h.2⟩

theorem utf8Units_newline (line rest : List UInt8) :
    utf8Units (line ++ 10 :: rest) = utf8Units line ++ some '\n' :: utf8Units rest := by
  simp only [utf8Units, unitsFrom_eq, List.reverse_nil, List.nil_append]
  exact unitsAfter_newline (by simp) line rest

theorem decodeStrict_ascii {bytes : List UInt8} (h : ∀ b ∈ bytes, b.toNat < 0x80) :
    decodeStrict bytes = some (bytes.map fun b => Char.ofNat b.toNat) := by
  have hunits : utf8Units bytes = bytes.map fun b => some (Char.ofNat b.toNat) := by
    rw [utf8Units, unitsFrom_eq, List.reverse_nil, List.nil_append]
    induction bytes with
    | nil => rfl
    | cons b rest ih =>
      rw [List.forall_mem_cons] at h
      rw [unitsAfter, nextUnit, openUnit_ascii h.1, ih h.2]
      rfl
  simp [decodeStrict, hunits, Function.comp_def]

theorem newline_notMem_decodeStrict {bytes : List UInt8} {text : List Char} (h : 10 ∉ bytes)
    (htext : decodeStrict bytes = some text) : '\n' ∉ text := by
  have hunits : some '\n' ∉ utf8Units bytes := by
    simp only [utf8Units, unitsFrom_eq, List.reverse_nil, List.nil_append]
    exact newline_notMem_unitsAfter (by simp) h
  simp only [decodeStrict] at htext
  split_ifs at htext
  cases htext
  simpa using hunits

theorem decodeStrict_newline (line rest : List UInt8) :
    decodeStrict (line ++ 10 :: rest) =
      (decodeStrict line).bind fun text => (decodeStrict rest).map (text ++ '\n' :: ·) := by
  simp only [decodeStrict, utf8Units_newline]
  by_cases hline : (utf8Units line).all Option.isSome <;>
    by_cases hrest : (utf8Units rest).all Option.isSome <;> simp [hline, hrest]

theorem wellFormedLines_of_decodeStrict {bytes : List UInt8} {text : List Char}
    (h : decodeStrict bytes = some text) :
    (fields 10 bytes).map decodeStrict = (fields '\n' text).map some := by
  induction bytes using fields_cases (10 : UInt8) generalizing text with
  | last line hline =>
    rw [fields_of_notMem hline, fields_of_notMem (newline_notMem_decodeStrict hline h)]
    simp [h]
  | more line rest hline ih =>
    simp only [decodeStrict_newline, Option.bind_eq_some_iff, Option.map_eq_some_iff] at h
    obtain ⟨first, hfirst, more, hmore, rfl⟩ := h
    rw [fields_append hline, fields_append (newline_notMem_decodeStrict hline hfirst)]
    simp [hfirst, ih hmore]

end Utf8

section Candidates

theorem trimEnd_withoutReturn (line : List Char) : trimEnd (withoutReturn line) = trimEnd line := by
  unfold withoutReturn
  split_ifs with hlast
  · obtain ⟨front, rfl⟩ := List.getLast?_eq_some_iff.mp hlast
    have hblank : isBlank '\r' := by decide
    simp [trimEnd, hblank]
  · rfl

theorem lines_of_notMem {line : List Char} (h : '\n' ∉ line) :
    lines line = if line.isEmpty then [] else [line] := by
  have hdrop := List.dropWhile_eq_nil_iff.mpr (keeps_of_notMem h)
  have htake := List.takeWhile_eq_self_iff.mpr (keeps_of_notMem h)
  rw [lines]
  split_ifs
  · rfl
  · split
    · rw [htake]
    · simp_all

theorem lines_append {line : List Char} (h : '\n' ∉ line) (rest : List Char) :
    lines (line ++ '\n' :: rest) = withoutReturn line :: lines rest := by
  have hdrop := dropWhile_append_separator h rest
  rw [lines, if_neg (by simp)]
  split
  · simp_all
  · rename_i heq
    rw [hdrop, List.cons.injEq] at heq
    rw [takeWhile_append_separator h, heq.2]

/-- A carriage return before a line end is blank, and so is what follows the last line end if there
is nothing. -/
theorem candidates_eq (text : List Char) :
    Point.candidates text = ((fields '\n' text).map trimEnd).filter (!·.isEmpty) := by
  unfold Point.candidates
  induction text using fields_cases '\n' with
  | last line hline =>
    rw [fields_of_notMem hline, lines_of_notMem hline]
    split_ifs with hempty
    · simp [List.isEmpty_iff.mp hempty, trimEnd]
    · rfl
  | more line rest hline ih =>
    rw [fields_append hline, lines_append hline]
    simp only [List.map_cons, List.filter_cons, trimEnd_withoutReturn, ih]

end Candidates

end Rollup
