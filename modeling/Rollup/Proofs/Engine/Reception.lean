import Rollup.Proofs.Engine.Stream

/-! What becomes of lines that are too long. A line is given up once too much of it has come in
without its end. A line whose end comes in before that is treated whole, however long it is: whether
a line is given up depends on the fills. -/
namespace Rollup

open Intake (newline maxLine)

section Fields

variable {α : Type} [BEq α] [LawfulBEq α] {separator : α}

theorem fields_append_of_notMem {text more last : List α} {before : List (List α)}
    (h : fields separator text = before ++ [last]) (hmore : separator ∉ more) :
    fields separator (text ++ more) = before ++ [last ++ more] := by
  induction text using fields_cases separator generalizing before with
  | last field hfield =>
    rw [fields_of_notMem hfield] at h
    obtain ⟨rfl, hlast⟩ := List.append_inj' ((List.nil_append [field]).trans h) rfl
    rw [fields_of_notMem (by simp [hfield, hmore]), List.singleton_inj.mp hlast, List.nil_append]
  | more field rest hfield ih =>
    rw [fields_append hfield] at h
    cases before with
    | nil =>
      have hrest : fields separator rest = [] := (List.cons.inj h).2
      rw [fields] at hrest
      split at hrest <;> cases hrest
    | cons first others =>
      obtain ⟨rfl, hrest⟩ := List.cons.inj h
      rw [List.append_assoc, List.cons_append, fields_append hfield, ih hrest, List.cons_append]

theorem fields_notMem_append {start text first : List α} {others : List (List α)}
    (hstart : separator ∉ start) (h : fields separator text = first :: others) :
    fields separator (start ++ text) = (start ++ first) :: others := by
  induction text using fields_cases separator with
  | last field hfield =>
    rw [fields_of_notMem hfield] at h
    rw [fields_of_notMem (by simp [hstart, hfield])]
    simpa using h
  | more field rest hfield ih =>
    rw [fields_append hfield] at h
    rw [← List.append_assoc, fields_append (by simp [hstart, hfield])]
    simpa using h

end Fields

/-- A line of a stream, in two parts. What follows the last line end of a stream is a line as well,
which ends with the stream and after all of its fills. -/
structure ReceivedLine where
  /-- What came in before the fill with the end of the line. -/
  early : List UInt8 := []
  /-- What came in together with the end of the line. -/
  late : List UInt8 := []

namespace ReceivedLine

def bytes (l : ReceivedLine) : List UInt8 := l.early ++ l.late

def Overlong (l : ReceivedLine) : Prop := maxLine < l.bytes.length

def Exposed (l : ReceivedLine) : Prop := maxLine < l.early.length

instance : DecidablePred Overlong := fun l => inferInstanceAs (Decidable (maxLine < l.bytes.length))

instance : DecidablePred Exposed := fun l => inferInstanceAs (Decidable (maxLine < l.early.length))

theorem Exposed.overlong {l : ReceivedLine} (h : l.Exposed) : l.Overlong :=
  Nat.lt_of_lt_of_le h (by simp [bytes])

theorem not_exposed_late {line : List UInt8} : ¬ (mk [] line).Exposed := Nat.not_lt_zero _

theorem countP_late (lines : List (List UInt8)) : (lines.map (mk [])).countP (·.Exposed) = 0 := by
  rw [List.countP_map]
  exact List.countP_eq_zero.mpr fun line _ => by simpa using not_exposed_late

end ReceivedLine

structure Reception where
  ended : List ReceivedLine := []
  current : ReceivedLine := {}

namespace Reception

def byte (r : Reception) (b : UInt8) : Reception :=
  if b = newline then ⟨r.ended ++ [r.current], {}⟩
  else ⟨r.ended, ⟨r.current.early, r.current.late ++ [b]⟩⟩

/-- Receives a fill; what it leaves under way is early for the next one. -/
def fill (r : Reception) (bytes : List UInt8) : Reception :=
  let r := bytes.foldl byte r
  ⟨r.ended, ⟨r.current.bytes, []⟩⟩

def lines (r : Reception) : List ReceivedLine := r.ended ++ [r.current]

variable {r : Reception}

theorem foldl_byte_of_notMem {bytes : List UInt8} (h : newline ∉ bytes) (r : Reception) :
    bytes.foldl byte r = ⟨r.ended, ⟨r.current.early, r.current.late ++ bytes⟩⟩ := by
  induction bytes generalizing r with
  | nil => simp
  | cons b rest ih =>
    rw [List.mem_cons, not_or] at h
    rw [List.foldl_cons, ih h.2, byte, if_neg (Ne.symm h.1), List.append_assoc]
    rfl

theorem foldl_byte_newline {first : List UInt8} (h : newline ∉ first) (rest : List UInt8)
    (r : Reception) :
    (first ++ newline :: rest).foldl byte r = rest.foldl byte
      ⟨r.ended ++ [⟨r.current.early, r.current.late ++ first⟩], {}⟩ := by
  rw [List.foldl_append, foldl_byte_of_notMem h, List.foldl_cons, byte, if_pos rfl]

theorem foldl_byte_lines (front : List UInt8) (r : Reception) :
    ∃ first others, fields newline front = first :: others ∧
      (front ++ [newline]).foldl byte r = ⟨r.ended ++
        ⟨r.current.early, r.current.late ++ first⟩ :: others.map (ReceivedLine.mk []), {}⟩ := by
  induction front using fields_cases newline generalizing r with
  | last first h => exact ⟨first, [], fields_of_notMem h, foldl_byte_newline h [] r⟩
  | more first rest h ih =>
    obtain ⟨next, others, hfields, hrest⟩ :=
      ih ⟨r.ended ++ [⟨r.current.early, r.current.late ++ first⟩], {}⟩
    refine ⟨first, next :: others, by rw [fields_append h, hfields], ?_⟩
    rw [List.append_assoc, List.cons_append, foldl_byte_newline h, hrest]
    simp

theorem foldl_fill_of_notMem {stream : List (List UInt8)} (h : newline ∉ stream.flatten)
    (ended : List ReceivedLine) (early : List UInt8) :
    stream.foldl fill ⟨ended, ⟨early, []⟩⟩ = ⟨ended, ⟨early ++ stream.flatten, []⟩⟩ := by
  induction stream generalizing early with
  | nil => simp
  | cons first rest ih =>
    rw [List.flatten_cons, List.mem_append, not_or] at h
    rw [List.foldl_cons, fill, foldl_byte_of_notMem h.1, ReceivedLine.bytes, List.nil_append,
      ih h.2, List.flatten_cons, List.append_assoc]

theorem lines_byte {seen : List UInt8} (h : r.lines.map ReceivedLine.bytes = fields newline seen)
    (b : UInt8) :
    (r.byte b).lines.map ReceivedLine.bytes = fields newline (seen ++ [b]) := by
  by_cases hb : b = newline
  · have hempty : fields newline ([] : List UInt8) = [[]] := fields_of_notMem List.not_mem_nil
    rw [hb, fields_append_fields, ← h, hempty, byte, if_pos rfl]
    simp [lines, ReceivedLine.bytes]
  · rw [lines, List.map_append, List.map_singleton] at h
    rw [fields_append_of_notMem h.symm (by simpa using Ne.symm hb), byte, if_neg hb]
    simp [lines, ReceivedLine.bytes]

theorem lines_fill {seen : List UInt8} (h : r.lines.map ReceivedLine.bytes = fields newline seen)
    (bytes : List UInt8) :
    (r.fill bytes).lines.map ReceivedLine.bytes = fields newline (seen ++ bytes) := by
  have hbytes : ∀ (r : Reception) (seen : List UInt8),
      r.lines.map ReceivedLine.bytes = fields newline seen →
        (bytes.foldl byte r).lines.map ReceivedLine.bytes = fields newline (seen ++ bytes) := by
    induction bytes with
    | nil => simp
    | cons b rest ih =>
      intro r seen h
      rw [List.foldl_cons, ih _ _ (lines_byte h b), List.append_assoc, List.singleton_append]
  rw [← hbytes r seen h]
  simp [fill, lines, ReceivedLine.bytes]

end Reception

def received (stream : List (List UInt8)) : List ReceivedLine :=
  (stream.foldl Reception.fill {}).lines

theorem received_bytes (stream : List (List UInt8)) :
    (received stream).map ReceivedLine.bytes = fields newline stream.flatten := by
  have hstream : ∀ (r : Reception) (seen : List UInt8),
      r.lines.map ReceivedLine.bytes = fields newline seen →
        (stream.foldl Reception.fill r).lines.map ReceivedLine.bytes =
          fields newline (seen ++ stream.flatten) := by
    induction stream with
    | nil => simp
    | cons fill rest ih =>
      intro r seen h
      rw [List.foldl_cons, ih _ _ (Reception.lines_fill h fill), List.flatten_cons,
        List.append_assoc]
  exact hstream {} [] (fields_of_notMem List.not_mem_nil).symm

namespace Engine.Treatment

def ofLines (lines : List (List UInt8)) : Treatment :=
  inTurn (lines.map fun line => decoded (decodeStrict line))

def ofReceived (l : ReceivedLine) : Treatment :=
  if l.Exposed then reject 1 else decoded (decodeStrict l.bytes)

def soFar (r : Reception) : Treatment :=
  (inTurn (r.ended.map ofReceived)).andThen (if r.current.Exposed then reject 1 else skip)

theorem ofReceived_waiting {l : ReceivedLine} (h : ¬ l.Exposed) :
    ofReceived l = decoded (decodeStrict l.bytes) := if_neg h

theorem ofReceived_late (line : List UInt8) :
    ofReceived ⟨[], line⟩ = decoded (decodeStrict line) := if_neg ReceivedLine.not_exposed_late

theorem inTurn_late (lines : List (List UInt8)) :
    inTurn ((lines.map (ReceivedLine.mk [])).map ofReceived) = ofLines lines := by
  rw [List.map_map]
  exact congrArg inTurn (List.map_congr_left fun line _ => ofReceived_late line)

/-- Lines that are given up may as well be rejected after all others. -/
theorem inTurn_ofReceived (lines : List ReceivedLine) :
    inTurn (lines.map ofReceived) =
      (ofLines ((lines.filter (¬ ·.Exposed)).map ReceivedLine.bytes)).andThen
        (reject (lines.countP (·.Exposed))) := by
  induction lines with
  | nil => rfl
  | cons first rest ih =>
    rw [List.map_cons, inTurn_cons, ih, ofReceived]
    by_cases hfirst : first.Exposed
    · rw [if_pos hfirst, List.filter_cons_of_neg (by simpa using hfirst),
        List.countP_cons_of_pos (by simpa using hfirst), reject_andThen_comm, andThen_assoc,
        ← reject_add]
    · rw [if_neg hfirst, List.filter_cons_of_pos (by simpa using hfirst),
        List.countP_cons_of_neg (by simpa using hfirst), ← andThen_assoc]
      rfl

theorem linewise_newline (front : List UInt8) : linewise (front ++ [newline]) = linewise front := by
  rw [linewise, fields_append_fields, List.map_append, inTurn_append]
  exact (congrArg (andThen _) linewise_nil).trans (andThen_skip _)

theorem soFar_waiting {r : Reception} (h : ¬ r.current.Exposed) :
    soFar r = inTurn (r.ended.map ofReceived) := by
  rw [soFar, if_neg h, andThen_skip]

theorem soFar_exposed {r : Reception} (h : r.current.Exposed) :
    soFar r = (inTurn (r.ended.map ofReceived)).andThen (reject 1) := by
  rw [soFar, if_pos h]

end Engine.Treatment

namespace Intake

theorem Ends.first_line (front : List UInt8) :
    ∃ first kept, front ++ [newline] = first ++ newline :: kept ∧ newline ∉ first ∧ Ends kept := by
  induction front using fields_cases newline with
  | last field h => exact ⟨field, [], rfl, h, .inl rfl⟩
  | more field rest h _ =>
    exact ⟨field, rest ++ [newline], by rw [List.append_assoc, List.cons_append], h,
      .inr ⟨rest, rfl⟩⟩

theorem addLines_discarding {i : Intake} (hi : i = ⟨#[], true⟩) {first : List UInt8}
    (h : newline ∉ first) (kept : List UInt8) :
    i.addLines (first ++ newline :: kept) = ({} : Intake).addLines kept := by
  have hdrop : (first ++ newline :: kept).dropWhile (· != newline) = newline :: kept := by
    rw [List.dropWhile_append_of_pos fun b hb => by simpa using ne_of_mem_of_not_mem hb h]
    simp
  simp [hi, addLines, hdrop]

theorem settle_of_exceeds {i : Intake} (h : newline ∉ i.pending.toList)
    (hexceeds : maxLine < i.pending.size) : i.settle = (.overlong, ⟨#[], true⟩) := by
  have hback : i.pending.back? ≠ some newline := by
    rw [← Array.getLast?_toList]
    exact fun hlast => h (List.mem_of_getLast? hlast)
  rw [settle, if_neg hback, if_pos hexceeds]

end Intake

namespace StreamState

open Intake Engine.Treatment

/-- What the intake has done about the lines received, given up or treated, and what it holds of the
line under way. -/
structure Follows (e : Engine) (r : Reception) (s : StreamState) : Prop where
  early : newline ∉ r.current.early
  late : r.current.late = []
  intake : s.intake = if r.current.Exposed then ⟨#[], true⟩ else ⟨r.current.early.toArray, false⟩
  overlong : s.report.overlong = r.lines.countP (·.Exposed)
  counts : s.report.counts = (soFar r e).1
  engine : s.engine.silent = (soFar r e).2.silent

variable {e : Engine} {r : Reception} {s : StreamState}

theorem follows_start (e : Engine) : Follows e {} (start e) where
  early := List.not_mem_nil
  late := rfl
  intake := rfl
  overlong := rfl
  counts := rfl
  engine := rfl

theorem Follows.apply_whole (h : Follows e r s) (bytes : List UInt8) :
    (s.apply (.whole bytes)).report.counts = ((soFar r).andThen (linewise bytes) e).1 ∧
      (s.apply (.whole bytes)).engine.silent = ((soFar r).andThen (linewise bytes) e).2.silent := by
  have hbytes := alike_ingestBytes bytes h.engine
  exact ⟨congrArg₂ (· + ·) h.counts hbytes.1, hbytes.2⟩

theorem Follows.lines_waiting (h : Follows e r s) (hwaiting : ¬ r.current.Exposed)
    {bytes : List UInt8} (hbytes : Ends bytes) :
    Follows e (bytes.foldl Reception.byte r)
      { s with intake := s.intake.addLines bytes }.settle := by
  have hintake : s.intake = ⟨r.current.early.toArray, false⟩ := by rw [h.intake, if_neg hwaiting]
  have hadd : s.intake.addLines bytes = ⟨(r.current.early ++ bytes).toArray, false⟩ := by
    simp [hintake, addLines]
  obtain rfl | ⟨front, rfl⟩ := hbytes
  · have hsettle : (s.intake.addLines []).settle = (.waiting, s.intake) := by
      rw [hadd, List.append_nil, ← hintake]
      exact settle_of_fits (by rw [hintake]; exact h.early)
        (by rw [hintake]; exact Nat.not_lt.mp hwaiting)
    simp only [settle, hsettle, apply, List.foldl_nil]
    exact h
  · obtain ⟨first, others, hfields, hfold⟩ := Reception.foldl_byte_lines front r
    have hfirst : ¬ (ReceivedLine.mk r.current.early first).Exposed := hwaiting
    have hpending : (s.intake.addLines (front ++ [newline])).pending.toList =
        r.current.early ++ front ++ [newline] := by
      rw [hadd, List.append_assoc]
    have hsettle : (s.intake.addLines (front ++ [newline])).settle =
        (.whole (r.current.early ++ front ++ [newline]), {}) := by
      rw [settle_of_ends hpending, hpending, hadd]
    have hlines : linewise (r.current.early ++ front ++ [newline]) =
        inTurn ((⟨r.current.early, first⟩ :: others.map (ReceivedLine.mk [])).map ofReceived) := by
      rw [linewise_newline, linewise, fields_notMem_append h.early hfields, List.map_cons,
        inTurn_cons, List.map_cons, inTurn_cons, inTurn_late, ofReceived_waiting hfirst]
      rfl
    have hlate : ⟨r.current.early, r.current.late ++ first⟩ =
        ReceivedLine.mk r.current.early first := by
      rw [h.late, List.nil_append]
    obtain ⟨hcounts, hengine⟩ := h.apply_whole (r.current.early ++ front ++ [newline])
    have hdone : soFar ((front ++ [newline]).foldl Reception.byte r) =
        (soFar r).andThen (linewise (r.current.early ++ front ++ [newline])) := by
      rw [hfold, hlate, soFar_waiting ReceivedLine.not_exposed_late, soFar_waiting hwaiting,
        List.map_append, inTurn_append, hlines]
    simp only [settle, hsettle]
    exact {
      early := by rw [hfold]; exact List.not_mem_nil
      late := by rw [hfold]
      intake := by rw [hfold]; rfl
      overlong := by
        have hnone : ¬ (ReceivedLine.mk [] []).Exposed := ReceivedLine.not_exposed_late
        refine h.overlong.trans ?_
        simp [hfold, hlate, Reception.lines, ReceivedLine.countP_late, hfirst, hwaiting, hnone,
          -List.countP_map]
      counts := by rw [hdone]; exact hcounts
      engine := by rw [hdone]; exact hengine }

theorem Follows.lines_exposed (h : Follows e r s) (hexposed : r.current.Exposed)
    (first : List UInt8) :
    Follows e ⟨r.ended ++ [⟨r.current.early, first⟩], {}⟩ { s with intake := {} } := by
  have hfirst : (ReceivedLine.mk r.current.early first).Exposed := hexposed
  have hnone : ¬ (ReceivedLine.mk [] []).Exposed := ReceivedLine.not_exposed_late
  have hdone : soFar ⟨r.ended ++ [⟨r.current.early, first⟩], {}⟩ = soFar r := by
    rw [soFar_waiting hnone, soFar_exposed hexposed, List.map_append, inTurn_append,
      List.map_singleton, ofReceived, if_pos hfirst]
    rfl
  exact {
    early := List.not_mem_nil
    late := rfl
    intake := rfl
    overlong := by
      refine h.overlong.trans ?_
      simp [Reception.lines, hfirst, hexposed, hnone]
    counts := by rw [hdone]; exact h.counts
    engine := by rw [hdone]; exact h.engine }

theorem Follows.lines (h : Follows e r s) {bytes : List UInt8} (hbytes : Ends bytes) :
    Follows e (bytes.foldl Reception.byte r)
      (if bytes.isEmpty then s else { s with intake := s.intake.addLines bytes }.settle) := by
  obtain rfl | ⟨front, rfl⟩ := hbytes
  · exact h
  · rw [if_neg (by simp)]
    by_cases hexposed : r.current.Exposed
    · obtain ⟨first, kept, hfront, hfirst, hkept⟩ := Ends.first_line front
      have hintake : s.intake = ⟨#[], true⟩ := by rw [h.intake, if_pos hexposed]
      have hcleared := h.lines_exposed hexposed first
      have hrest := hcleared.lines_waiting ReceivedLine.not_exposed_late hkept
      rw [hfront, Reception.foldl_byte_newline hfirst, h.late, List.nil_append,
        addLines_discarding hintake hfirst]
      exact hrest
    · exact h.lines_waiting hexposed (.inr ⟨front, rfl⟩)

theorem Follows.part_exposed (h : Follows e r s) (hexposed : r.current.Exposed)
    {bytes : List UInt8} (hbytes : newline ∉ bytes) :
    Follows e ⟨r.ended, ⟨r.current.early ++ bytes, []⟩⟩
      { s with intake := s.intake.addPart bytes }.settle := by
  have hintake : s.intake = ⟨#[], true⟩ := by rw [h.intake, if_pos hexposed]
  have hsettle : (s.intake.addPart bytes).settle = (.waiting, ⟨#[], true⟩) := by
    rw [hintake]
    exact settle_of_fits List.not_mem_nil (Nat.zero_le _)
  have hlonger : (ReceivedLine.mk (r.current.early ++ bytes) []).Exposed :=
    Nat.lt_of_lt_of_le hexposed (by simp)
  have hdone : soFar ⟨r.ended, ⟨r.current.early ++ bytes, []⟩⟩ = soFar r := by
    rw [soFar_exposed hexposed, soFar_exposed hlonger]
  simp only [settle, hsettle]
  exact {
    early := by simp [h.early, hbytes]
    late := rfl
    intake := by rw [if_pos hlonger]; rfl
    overlong := by
      refine h.overlong.trans ?_
      simp [Reception.lines, hexposed, hlonger]
    counts := by rw [hdone]; exact h.counts
    engine := by rw [hdone]; exact h.engine }

theorem Follows.part_waiting (h : Follows e r s) (hwaiting : ¬ r.current.Exposed)
    {bytes : List UInt8} (hbytes : newline ∉ bytes) :
    Follows e ⟨r.ended, ⟨r.current.early ++ bytes, []⟩⟩
      { s with intake := s.intake.addPart bytes }.settle := by
  have hadd : s.intake.addPart bytes = ⟨(r.current.early ++ bytes).toArray, false⟩ := by
    simp [h.intake, hwaiting, addPart]
  have hfree : newline ∉ (s.intake.addPart bytes).pending.toList := by
    simp [hadd, h.early, hbytes]
  have hcounts := h.counts
  have hengine := h.engine
  rw [soFar_waiting hwaiting] at hcounts hengine
  by_cases hlonger : (ReceivedLine.mk (r.current.early ++ bytes) []).Exposed
  · have hsettle : (s.intake.addPart bytes).settle = (.overlong, ⟨#[], true⟩) :=
      settle_of_exceeds hfree (by rw [hadd]; exact hlonger)
    simp only [settle, hsettle]
    exact {
      early := by simp [h.early, hbytes]
      late := rfl
      intake := by rw [if_pos hlonger]; rfl
      overlong := by
        refine (congrArg (· + 1) h.overlong).trans ?_
        simp [Reception.lines, hwaiting, hlonger]
      counts := by
        rw [soFar_exposed hlonger]
        exact congrArg (· + _) hcounts
      engine := by
        rw [soFar_exposed hlonger]
        exact hengine }
  · have hsettle : (s.intake.addPart bytes).settle = (.waiting, s.intake.addPart bytes) :=
      settle_of_fits hfree (by rw [hadd]; exact Nat.not_lt.mp hlonger)
    simp only [settle, hsettle]
    exact {
      early := by simp [h.early, hbytes]
      late := rfl
      intake := by rw [if_neg hlonger]; exact hadd
      overlong := by
        refine h.overlong.trans ?_
        simp [Reception.lines, hwaiting, hlonger]
      counts := by
        rw [soFar_waiting hlonger]
        exact hcounts
      engine := by
        rw [soFar_waiting hlonger]
        exact hengine }

theorem Follows.part (h : Follows e r s) {bytes : List UInt8} (hbytes : newline ∉ bytes) :
    Follows e ⟨r.ended, ⟨r.current.early ++ bytes, []⟩⟩
      (if bytes.isEmpty then s else { s with intake := s.intake.addPart bytes }.settle) := by
  cases hempty : bytes.isEmpty with
  | true =>
    rw [List.isEmpty_iff.mp hempty, List.append_nil, ← h.late]
    exact h
  | false =>
    by_cases hexposed : r.current.Exposed
    · exact h.part_exposed hexposed hbytes
    · exact h.part_waiting hexposed hbytes

theorem Follows.absorb (h : Follows e r s) (fill : List UInt8) :
    Follows e (r.fill fill) (s.absorb fill) := by
  have hlines := h.lines (ends_cut fill)
  have hpart := hlines.part (newline_notMem_cut fill)
  have hfill : r.fill fill = ⟨((cut fill).1.foldl Reception.byte r).ended,
      ⟨((cut fill).1.foldl Reception.byte r).current.early ++ (cut fill).2, []⟩⟩ := by
    rw [Reception.fill, ← cut_append fill, List.foldl_append,
      Reception.foldl_byte_of_notMem (newline_notMem_cut fill), hlines.late, cut_append]
    rfl
  rw [hfill]
  exact hpart

theorem Follows.foldl (h : Follows e r s) (stream : List (List UInt8)) :
    Follows e (stream.foldl Reception.fill r) (stream.foldl StreamState.absorb s) := by
  induction stream generalizing r s with
  | nil => exact h
  | cons fill rest ih => exact ih (h.absorb fill)

theorem Follows.finish (h : Follows e r s) :
    s.finish.1.counts = (inTurn (r.lines.map ofReceived) e).1 ∧
      s.finish.2.silent = (inTurn (r.lines.map ofReceived) e).2.silent ∧
      s.finish.1.overlong = r.lines.countP (·.Exposed) := by
  have hlines : inTurn (r.lines.map ofReceived) =
      (inTurn (r.ended.map ofReceived)).andThen (ofReceived r.current) := by
    rw [Reception.lines, List.map_append, inTurn_append]
    exact congrArg (andThen _) (andThen_skip _)
  have hcurrent : r.current.bytes = r.current.early := by
    rw [ReceivedLine.bytes, h.late, List.append_nil]
  unfold StreamState.finish
  by_cases hexposed : r.current.Exposed
  · have hdone : soFar r = inTurn (r.lines.map ofReceived) := by
      rw [hlines, soFar, ofReceived, if_pos hexposed, if_pos hexposed]
    have hempty : s.intake.pending.isEmpty := by rw [h.intake, if_pos hexposed]; rfl
    rw [if_pos hempty, ← hdone]
    exact ⟨h.counts, h.engine, h.overlong⟩
  · have hpending : s.intake.pending.toList = r.current.early := by
      rw [h.intake, if_neg hexposed]
    have hdone : inTurn (r.lines.map ofReceived) =
        (soFar r).andThen (linewise s.intake.pending.toList) := by
      rw [hlines, soFar_waiting hexposed, ofReceived_waiting hexposed, hcurrent, hpending,
        linewise, fields_of_notMem h.early, List.map_singleton, inTurn_cons]
      exact congrArg (andThen _) (andThen_skip _).symm
    rw [hdone]
    by_cases hempty : s.intake.pending.isEmpty
    · rw [if_pos hempty, Array.isEmpty_iff.mp hempty, linewise_nil, andThen_skip]
      exact ⟨h.counts, h.engine, h.overlong⟩
    · rw [if_neg hempty]
      exact ⟨(h.apply_whole _).1, (h.apply_whole _).2, h.overlong⟩

end StreamState

theorem countP_exposed_eq_iff (lines : List ReceivedLine) :
    lines.countP (·.Exposed) = lines.countP (·.Overlong) ↔
      ∀ l ∈ lines, l.Overlong → l.Exposed := by
  have hexposed : (lines.filter (·.Exposed)).countP (·.Overlong) = lines.countP (·.Exposed) := by
    refine (List.countP_eq_length.mpr fun l hl => ?_).trans List.countP_eq_length_filter.symm
    exact decide_eq_true (of_decide_eq_true (List.mem_filter.mp hl).2).overlong
  rw [List.countP_eq_countP_filter_add lines (·.Overlong) (·.Exposed), hexposed, eq_comm,
    Nat.add_eq_left, List.countP_eq_zero]
  simp only [List.mem_filter, decide_eq_true_eq, Bool.not_eq_true', decide_eq_false_iff_not]
  exact ⟨fun h l hl hlong => by_contra fun hne => h l ⟨hl, hne⟩ hlong,
    fun h l hl hlong => hl.2 (h l hl.1 hlong)⟩

namespace Engine

/-- What comes of a stream: `lines` are treated one by one, and `given` more are given up. -/
def TreatsAs (e : Engine) (stream lines : List (List UInt8)) (given : Nat) : Prop :=
  (e.ingestStream stream).1.counts = (Treatment.ofLines lines e).1 + ⟨0, given⟩ ∧
    (e.ingestStream stream).2.silent = (Treatment.ofLines lines e).2.silent ∧
    (e.ingestStream stream).1.overlong = given

theorem treatsAs_received (e : Engine) (stream : List (List UInt8)) :
    e.TreatsAs stream (((received stream).filter (¬ ·.Exposed)).map ReceivedLine.bytes)
      ((received stream).countP (·.Exposed)) := by
  have hfinish := ((StreamState.follows_start e).foldl stream).finish
  rw [Treatment.inTurn_ofReceived] at hfinish
  exact hfinish

/-- A line is given up exactly if too much of it comes in before the fill with its end, and all
others are treated one by one. So the limit holds if no line that is too long escapes this way. -/
theorem ingestStream_received (e : Engine) (stream : List (List UInt8)) :
    (received stream).map ReceivedLine.bytes = fields newline stream.flatten ∧
      e.TreatsAs stream (((received stream).filter (¬ ·.Exposed)).map ReceivedLine.bytes)
        ((received stream).countP (·.Exposed)) ∧
      (e.TreatsAs stream ((fields newline stream.flatten).filter (·.length ≤ maxLine))
          ((fields newline stream.flatten).countP (maxLine < ·.length)) ↔
        ∀ l ∈ received stream, l.Overlong → l.Exposed) := by
  have htreats := treatsAs_received e stream
  have hlong : (fields newline stream.flatten).countP (maxLine < ·.length) =
      (received stream).countP (·.Overlong) := by
    rw [← received_bytes, List.countP_map]
    rfl
  refine ⟨received_bytes stream, htreats, fun h => ?_, fun hcaught => ?_⟩
  · rw [← countP_exposed_eq_iff, ← hlong, ← h.2.2, htreats.2.2]
  · have hkept : ((received stream).filter (¬ ·.Exposed)).map ReceivedLine.bytes =
        (fields newline stream.flatten).filter (·.length ≤ maxLine) := by
      rw [← received_bytes, List.filter_map]
      refine congrArg _ (List.filter_congr fun l hl => decide_eq_decide.mpr ?_)
      exact ⟨fun hne => Nat.not_lt.mp (hne ∘ hcaught l hl),
        fun hle hexposed => Nat.not_lt.mpr hle hexposed.overlong⟩
    rw [hlong, ← (countP_exposed_eq_iff _).mpr hcaught, ← hkept]
    exact htreats

/-- A point with a path as long as a line may be. The limit is reached with the eighth fill and
exceeded in the ninth, together with the end of the line. -/
def escaping : List (List UInt8) :=
  List.replicate 8 (List.replicate 8192 120) ++ [[58, 49, 124, 99] ++ [newline]]

theorem received_escaping :
    received escaping = [⟨List.replicate maxLine 120, [58, 49, 124, 99]⟩, {}] := by
  have hearly : (List.replicate 8 (List.replicate 8192 (120 : UInt8))).flatten =
      List.replicate maxLine 120 := List.flatten_replicate_replicate
  have hfree : newline ∉ (List.replicate 8 (List.replicate 8192 (120 : UInt8))).flatten := by
    rw [hearly, List.mem_replicate]
    decide
  have hlate : newline ∉ [58, 49, 124, 99] := by decide
  rw [received, escaping, List.foldl_append, Reception.foldl_fill_of_notMem hfree, hearly,
    List.foldl_cons, Reception.fill, Reception.foldl_byte_newline hlate]
  rfl

theorem ofLine_adder {path : List Char} (hpath : ':' ∉ path) (hne : path ≠ []) :
    Point.ofLine (path ++ [':', '1', '|', 'c']) =
      .ok ⟨.ofList path, .adder, Point.scale .adder 1.0 1.0, .set⟩ := by
  have hkeeps : ∀ c ∈ path, (c != ':') = true := by
    intro c hc
    simpa using ne_of_mem_of_not_mem hc hpath
  have htake : (path ++ [':', '1', '|', 'c']).takeWhile (· != ':') = path := by
    rw [List.takeWhile_append_of_pos hkeeps]
    simp
  have hdrop : (path ++ [':', '1', '|', 'c']).dropWhile (· != ':') = [':', '1', '|', 'c'] := by
    rw [List.dropWhile_append_of_pos hkeeps]
    simp
  have hfields : fields '|' ['1', '|', 'c'] = [['1'], ['c']] := by decide +kernel
  have hkind : Kind.ofType? ['c'] = some .adder := by decide
  have hvalue : readFloat ['1'] = some 1.0 := by decide +kernel
  have hfinite : (1.0 : Float).isFinite = true := by decide +kernel
  simp [Point.ofLine, htake, hdrop, hne, hfields, Point.ofFields, hkind, Point.rateOf,
    Point.splitSign, hvalue, hfinite]

theorem decodeStrict_escaping :
    decodeStrict (List.replicate maxLine 120 ++ [58, 49, 124, 99]) =
      some (List.replicate maxLine 'x' ++ [':', '1', '|', 'c']) := by
  have hlate : [58, 49, 124, 99].all fun b : UInt8 => b.toNat < 0x80 := by decide
  rw [decodeStrict_ascii, List.map_append, List.map_replicate]
  · rfl
  · intro b hb
    obtain hb | hb := List.mem_append.mp hb
    · rw [List.eq_of_mem_replicate hb]
      decide
    · exact of_decide_eq_true (List.all_eq_true.mp hlate b hb)

theorem decoded_escaping {e : Engine}
    (haccepts : (e.refusal? .adder (Point.scale .adder 1.0 1.0)).isNone) :
    Treatment.decoded (decodeStrict (List.replicate maxLine 120 ++ [58, 49, 124, 99])) e =
      (⟨1, 0⟩, e.accept ⟨.ofList (List.replicate maxLine 'x'), .adder,
        Point.scale .adder 1.0 1.0, .set⟩) := by
  have hpath : ':' ∉ List.replicate maxLine 'x' := by
    rw [List.mem_replicate]
    decide
  have hne : List.replicate maxLine 'x' ≠ [] := by decide
  have htrim : ∀ path : List Char,
      trimEnd (path ++ [':', '1', '|', 'c']) = path ++ [':', '1', '|', 'c'] := by
    intro path
    simp [trimEnd, isBlank]
  rw [decodeStrict_escaping, Treatment.decoded, htrim, if_neg (by simp), Treatment.line,
    ofLine_adder hpath hne]
  simp [ingest, Option.isNone_iff_eq_none.mp haccepts]

/-- Nothing is given up of a line that is too long, and its point is accepted. -/
theorem overlong_accepted : ∃ e, ofConfig (compact {}) = .ok e ∧
    (fields newline escaping.flatten).map List.length = [maxLine + 4, 0] ∧
    (e.ingestStream escaping).1.counts = ⟨1, 0⟩ ∧
    ¬ e.TreatsAs escaping ((fields newline escaping.flatten).filter (·.length ≤ maxLine))
      ((fields newline escaping.flatten).countP (maxLine < ·.length)) := by
  have hbuilt : (ofConfig (compact {})).toOption.any
      (fun e => (e.refusal? .adder (Point.scale .adder 1.0 1.0)).isNone) = true := by
    decide +kernel
  obtain ⟨e, he, haccepts⟩ := exists_ofConfig hbuilt
  have hwaiting : ∀ l ∈ received escaping, ¬ l.Exposed := by
    rw [received_escaping]
    simp [ReceivedLine.Exposed]
  have hgiven : (received escaping).countP (·.Exposed) = 0 := by
    simpa [List.countP_eq_zero] using hwaiting
  have hkept : (received escaping).filter (¬ ·.Exposed) = received escaping := by
    simpa [List.filter_eq_self] using hwaiting
  have hlines := received_bytes escaping
  have htreats := treatsAs_received e escaping
  rw [hkept, hgiven, received_escaping] at htreats
  rw [received_escaping] at hlines
  have hcounts : (e.ingestStream escaping).1.counts = ⟨1, 0⟩ := by
    have hsecond : Treatment.ofLines [[]] = Treatment.skip := by
      rw [← Treatment.linewise_nil, Treatment.linewise, fields_of_notMem List.not_mem_nil]
      rfl
    have hfirst : Treatment.ofLines ([⟨List.replicate maxLine 120, [58, 49, 124, 99]⟩, {}].map
        ReceivedLine.bytes) =
          Treatment.decoded (decodeStrict (List.replicate maxLine 120 ++ [58, 49, 124, 99])) :=
      (congrArg (Treatment.andThen _) hsecond).trans (Treatment.andThen_skip _)
    rw [htreats.1, hfirst, decoded_escaping haccepts]
    rfl
  refine ⟨e, he, ?_, hcounts, fun h => ?_⟩
  · rw [← hlines]
    simp [ReceivedLine.bytes]
  · have hnone := htreats.2.2.symm.trans h.2.2
    rw [← hlines] at hnone
    simp [ReceivedLine.bytes] at hnone

end Engine

end Rollup
