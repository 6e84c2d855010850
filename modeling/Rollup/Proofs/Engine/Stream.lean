import Mathlib.Algebra.Group.Defs
import Rollup.Engine.Stream
import Rollup.Proofs.Engine.Calls
import Rollup.Proofs.Text.Lines

/-! A stream is treated as if its lines came one by one: neither its division into fills nor what
else stands in a fill matters to a line. Only the signals of the engine, which it sends for every
run of lines, tell the difference. -/
namespace Rollup

theorem IngestCounts.add_def (a b : IngestCounts) :
    a + b = ⟨a.accepted + b.accepted, a.rejected + b.rejected⟩ := rfl

instance : Zero IngestCounts := ⟨{}⟩

theorem IngestCounts.zero_def : (0 : IngestCounts) = ⟨0, 0⟩ := rfl

instance : AddCommMonoid IngestCounts where
  add_assoc a b c := by simp only [IngestCounts.add_def, Nat.add_assoc]
  zero_add a := by simp only [IngestCounts.add_def, IngestCounts.zero_def, Nat.zero_add]
  add_zero a := rfl
  add_comm a b := by
    simp only [IngestCounts.add_def, Nat.add_comm a.accepted, Nat.add_comm a.rejected]
  nsmul := nsmulRec

namespace Engine

def silent (e : Engine) : Engine := { e with signals := #[] }

@[simp] theorem silent_measure (s : Signal) (e : Engine) : (e.measure s).silent = e.silent := rfl

@[simp] theorem silent_measureAll (signals : List Signal) (e : Engine) :
    (e.measureAll signals).silent = e.silent :=
  foldl_keeps silent (flip measure) (fun _ _ => rfl) signals e

theorem refusal?_silent (e : Engine) : e.silent.refusal? = e.refusal? := rfl

theorem silent_accept (p : Point) (e : Engine) :
    (e.accept p).silent = (e.silent.accept p).silent := by
  simp only [accept, getOrCreate]
  have hlocate : e.silent.store.locate p.kind p.path = e.store.locate p.kind p.path := rfl
  rw [hlocate]
  cases e.store.locate p.kind p.path <;> rfl

/-- Something that lines go through: it counts their points and may change the engine. -/
abbrev Treatment : Type := Engine → IngestCounts × Engine

namespace Treatment

def skip : Treatment := fun e => (0, e)

def reject (n : Nat) : Treatment := fun e => (⟨0, n⟩, e)

def andThen (first next : Treatment) : Treatment := fun e =>
  let (counts, e) := first e
  let (more, e) := next e
  (counts + more, e)

def inTurn (treatments : List Treatment) : Treatment := treatments.foldr andThen skip

def Alike (a b : Treatment) : Prop :=
  ∀ ⦃e e' : Engine⦄, e.silent = e'.silent →
    (a e).1 = (b e').1 ∧ (a e).2.silent = (b e').2.silent

theorem skip_andThen (t : Treatment) : andThen skip t = t := by
  funext e
  simp [andThen, skip]

theorem andThen_skip (t : Treatment) : andThen t skip = t := by
  funext e
  simp [andThen, skip]

theorem andThen_assoc (a b c : Treatment) : andThen (andThen a b) c = andThen a (andThen b c) := by
  funext e
  simp [andThen, add_assoc]

theorem reject_andThen_comm (t : Treatment) (n : Nat) :
    andThen (reject n) t = andThen t (reject n) := by
  funext e
  simp [andThen, reject, add_comm]

theorem reject_add (m n : Nat) : reject (m + n) = andThen (reject m) (reject n) := rfl

theorem inTurn_cons (first : Treatment) (rest : List Treatment) :
    inTurn (first :: rest) = andThen first (inTurn rest) := rfl

theorem inTurn_append (before after : List Treatment) :
    inTurn (before ++ after) = andThen (inTurn before) (inTurn after) := by
  induction before with
  | nil => exact (skip_andThen _).symm
  | cons first rest ih => rw [List.cons_append, inTurn_cons, inTurn_cons, ih, andThen_assoc]

theorem Alike.andThen {a b a' b' : Treatment} (ha : Alike a a') (hb : Alike b b') :
    Alike (a.andThen b) (a'.andThen b') := by
  intro e e' hsame
  have hfirst := ha hsame
  have hnext := hb hfirst.2
  exact ⟨congrArg₂ (· + ·) hfirst.1 hnext.1, hnext.2⟩

theorem alike_reject (n : Nat) : Alike (reject n) (reject n) := fun _ _ hsame => ⟨rfl, hsame⟩

def line (text : List Char) : Treatment := fun e =>
  match Point.ofLine text with
  | .error _ => reject 1 e
  | .ok p =>
    match e.ingest p with
    | .error _ => reject 1 e
    | .ok e => (⟨1, 0⟩, e)

/-- A line as it was read: one that is not well formed is rejected, a blank one is passed over. -/
def decoded : Option (List Char) → Treatment
  | none => reject 1
  | some text => if (trimEnd text).isEmpty then skip else line (trimEnd text)

def linewise (bytes : List UInt8) : Treatment :=
  inTurn ((fields Intake.newline bytes).map fun line => decoded (decodeStrict line))

theorem total_modify (counts : LineCounts) (kind : Kind) :
    LineCounts.total { counts with accepted := counts.accepted.modify kind (· + 1) } =
      counts.total + ⟨1, 0⟩ := by
  obtain ⟨⟨adders, gauges, stats, histograms⟩, rejected⟩ := counts
  cases kind <;>
    simp [LineCounts.total, PerKind.modify, PerKind.toList, PerKind.get, Kind.all,
      IngestCounts.add_def] <;> omega

theorem ingestLine_line (counts : LineCounts) (text : List Char) {e e' : Engine}
    (h : e.silent = e'.silent) :
    (ingestLine (counts, e) (Point.ofLine text)).1.total = counts.total + (line text e').1 ∧
      (ingestLine (counts, e) (Point.ofLine text)).2.silent = (line text e').2.silent := by
  have hrefusal : e.refusal? = e'.refusal? := by
    rw [← refusal?_silent, h, refusal?_silent]
  simp only [ingestLine, line]
  cases Point.ofLine text with
  | error cause => exact ⟨rfl, h⟩
  | ok p =>
    simp only [rejection?, ingest, hrefusal]
    cases e'.refusal? p.kind p.value with
    | some cause => exact ⟨rfl, h⟩
    | none =>
      have haccept : (e.accept p).silent = (e'.accept p).silent := by
        rw [silent_accept, h, ← silent_accept]
      exact ⟨total_modify counts p.kind, haccept⟩

theorem inTurn_candidates (text : List Char) :
    inTurn ((Point.candidates text).map line) =
      inTurn ((fields '\n' text).map fun line => decoded (some line)) := by
  rw [candidates_eq]
  induction fields '\n' text with
  | nil => rfl
  | cons first rest ih =>
    rw [List.map_cons, List.map_cons, inTurn_cons, ← ih, List.filter_cons, decoded]
    cases (trimEnd first).isEmpty
    · rfl
    · exact (skip_andThen _).symm

theorem alike_ingestText (text : List Char) :
    Alike (ingestText text) (inTurn ((fields '\n' text).map fun line => decoded (some line))) := by
  have hlines : ∀ (texts : List (List Char)) (counts : LineCounts) (e e' : Engine),
      e.silent = e'.silent →
        ((texts.map Point.ofLine).foldl ingestLine (counts, e)).1.total =
            counts.total + (inTurn (texts.map line) e').1 ∧
          ((texts.map Point.ofLine).foldl ingestLine (counts, e)).2.silent =
            (inTurn (texts.map line) e').2.silent := by
    intro texts
    induction texts with
    | nil => exact fun counts e e' hsame => ⟨(add_zero _).symm, hsame⟩
    | cons first rest ih =>
      intro counts e e' hsame
      have hfirst := ingestLine_line counts first hsame
      have hrest := ih (ingestLine (counts, e) (Point.ofLine first)).1 _ _ hfirst.2
      rw [hfirst.1, add_assoc] at hrest
      exact hrest
  intro e e' hsame
  have hall := hlines (Point.candidates text) {} e e' hsame
  rw [inTurn_candidates, show LineCounts.total {} = 0 from rfl, zero_add] at hall
  refine ⟨hall.1, ?_⟩
  rw [← hall.2]
  exact silent_measureAll _ _

/-- Lines that are not well formed may as well be rejected after all others. -/
theorem inTurn_decoded (texts : List (Option (List Char))) :
    inTurn (texts.map decoded) =
      (inTurn ((texts.filterMap id).map fun line => decoded (some line))).andThen
        (reject (texts.countP Option.isNone)) := by
  induction texts with
  | nil => rfl
  | cons first rest ih =>
    rw [List.map_cons, inTurn_cons, ih]
    cases first with
    | some text =>
      rw [← andThen_assoc]
      rfl
    | none =>
      have hcount : (none :: rest).countP Option.isNone = rest.countP Option.isNone + 1 := by simp
      rw [hcount, decoded, reject_andThen_comm, andThen_assoc, ← reject_add]
      rfl

theorem fields_flatMap {texts : List (List Char)} (h : ∀ text ∈ texts, '\n' ∉ text) :
    fields '\n' (texts.flatMap (· ++ ['\n'])) = texts ++ [[]] := by
  induction texts with
  | nil => exact fields_of_notMem (by simp)
  | cons first rest ih =>
    rw [List.flatMap_cons, List.append_assoc, List.singleton_append,
      fields_append (h first List.mem_cons_self),
      ih fun text ht => h text (List.mem_cons_of_mem _ ht), List.cons_append]

theorem alike_ingestBytes (bytes : List UInt8) : Alike (ingestBytes bytes) (linewise bytes) := by
  have hlinewise : linewise bytes = inTurn ((wellFormedLines bytes).map decoded) := by
    rw [linewise, wellFormedLines, List.map_map]
    rfl
  cases htext : decodeStrict bytes with
  | some text =>
    have hingest : ingestBytes bytes = ingestText text := by
      funext e
      simp [ingestBytes, htext]
    have hlines : wellFormedLines bytes = (fields '\n' text).map some :=
      wellFormedLines_of_decodeStrict htext
    rw [hingest, hlinewise, hlines, List.map_map]
    exact alike_ingestText text
  | none =>
    have hfree : ∀ text ∈ (wellFormedLines bytes).filterMap id, '\n' ∉ text := by
      intro text hmem
      obtain ⟨line, hline, htext⟩ : ∃ line ∈ fields Intake.newline bytes,
          decodeStrict line = some text := by
        simpa [wellFormedLines] using hmem
      exact newline_notMem_decodeStrict (notMem_of_mem_fields hline) htext
    have hblank : inTurn [decoded (some [])] = skip := rfl
    have hgood := alike_ingestText (((wellFormedLines bytes).filterMap id).flatMap (· ++ ['\n']))
    rw [fields_flatMap hfree, List.map_append, inTurn_append, List.map_singleton, hblank,
      andThen_skip] at hgood
    have hingest : ingestBytes bytes =
        andThen (ingestText (((wellFormedLines bytes).filterMap id).flatMap (· ++ ['\n'])))
          (reject ((wellFormedLines bytes).countP Option.isNone)) := by
      funext e
      simp only [ingestBytes, htext]
      rfl
    rw [hingest, hlinewise, inTurn_decoded]
    exact hgood.andThen (alike_reject _)

end Treatment

end Engine

namespace Intake

def Ends (bytes : List UInt8) : Prop := bytes = [] ∨ ∃ front, bytes = front ++ [newline]

theorem cut_eq (fill : List UInt8) :
    cut fill = ((fill.reverse.dropWhile (· != newline)).reverse,
      (fill.reverse.takeWhile (· != newline)).reverse) := by
  have hfill : (fill.reverse.dropWhile (· != newline)).reverse ++
      (fill.reverse.takeWhile (· != newline)).reverse = fill := by
    rw [← List.reverse_append, List.takeWhile_append_dropWhile, List.reverse_reverse]
  have hlength := congrArg List.length hfill
  rw [List.length_append] at hlength
  have htake : fill.take (fill.length - (fill.reverse.takeWhile (· != newline)).reverse.length) =
      (fill.reverse.dropWhile (· != newline)).reverse := by
    rw [← hlength, Nat.add_sub_cancel]
    exact (congrArg (List.take _) hfill).symm.trans List.take_left
  rw [cut, htake]

theorem cut_append (fill : List UInt8) : (cut fill).1 ++ (cut fill).2 = fill := by
  rw [cut_eq, ← List.reverse_append, List.takeWhile_append_dropWhile, List.reverse_reverse]

theorem ends_cut (fill : List UInt8) : Ends (cut fill).1 := by
  rw [cut_eq]
  cases hdrop : fill.reverse.dropWhile (· != newline) with
  | nil => exact .inl rfl
  | cons last front =>
    have hne : fill.reverse.dropWhile (· != newline) ≠ [] := by simp [hdrop]
    have hlast : last = newline := by
      simpa [hdrop] using List.head_dropWhile_not (· != newline) hne
    exact .inr ⟨front.reverse, by rw [hlast, List.reverse_cons]⟩

theorem newline_notMem_cut (fill : List UInt8) : newline ∉ (cut fill).2 := by
  intro hmem
  simpa using List.mem_takeWhile_imp (List.mem_reverse.mp hmem)

theorem settle_of_ends {i : Intake} {front : List UInt8}
    (h : i.pending.toList = front ++ [newline]) :
    i.settle = (.whole i.pending.toList, { i with pending := #[] }) := by
  have hback : i.pending.back? = some newline := by
    rw [← Array.getLast?_toList, h, List.getLast?_concat]
  rw [settle, if_pos hback]

theorem settle_of_fits {i : Intake} (h : newline ∉ i.pending.toList)
    (hfits : i.pending.size ≤ maxLine) : i.settle = (.waiting, i) := by
  have hback : i.pending.back? ≠ some newline := by
    rw [← Array.getLast?_toList]
    exact fun hlast => h (List.mem_of_getLast? hlast)
  rw [settle, if_neg hback, if_neg (Nat.not_lt.mpr hfits)]

end Intake

namespace Engine.Treatment

theorem linewise_nil : linewise [] = skip := by
  have hdecoded : decodeStrict [] = some [] := by
    simp [decodeStrict, utf8Units, unitsFrom_eq, unitsAfter]
  rw [linewise, fields_of_notMem List.not_mem_nil, List.map_singleton, hdecoded]
  rfl

theorem linewise_append {whole : List UInt8} (h : Intake.Ends whole) (rest : List UInt8) :
    linewise (whole ++ rest) = andThen (linewise whole) (linewise rest) := by
  have hsplit : ∀ front rest : List UInt8, linewise (front ++ Intake.newline :: rest) =
      andThen (linewise front) (linewise rest) := by
    intro front rest
    rw [linewise, fields_append_fields, List.map_append, inTurn_append]
    rfl
  obtain rfl | ⟨front, rfl⟩ := h
  · rw [linewise_nil, skip_andThen, List.nil_append]
  · rw [List.append_assoc, List.singleton_append, hsplit, hsplit, linewise_nil, andThen_skip]

end Engine.Treatment

namespace StreamState

open Intake Engine.Treatment

/-- `whole` has been treated line by line, and nothing but the beginning of a line is left over. -/
structure Tracks (e : Engine) (whole : List UInt8) (s : StreamState) : Prop where
  ends : Ends whole
  pending : newline ∉ s.intake.pending.toList
  keeping : s.intake.discarding = false
  overlong : s.report.overlong = 0
  counts : s.report.counts = (linewise whole e).1
  engine : s.engine.silent = (linewise whole e).2.silent

variable {e : Engine} {whole : List UInt8} {s : StreamState}

theorem tracks_start (e : Engine) : Tracks e [] (start e) where
  ends := .inl rfl
  pending := List.not_mem_nil
  keeping := rfl
  overlong := rfl
  counts := by rw [linewise_nil]; rfl
  engine := by rw [linewise_nil]; rfl

theorem Tracks.apply_whole (h : Tracks e whole s) (bytes : List UInt8) :
    (s.apply (.whole bytes)).report.counts = (linewise (whole ++ bytes) e).1 ∧
      (s.apply (.whole bytes)).engine.silent = (linewise (whole ++ bytes) e).2.silent ∧
      (s.apply (.whole bytes)).report.overlong = 0 := by
  have hbytes := alike_ingestBytes bytes h.engine
  rw [linewise_append h.ends]
  exact ⟨congrArg₂ (· + ·) h.counts hbytes.1, hbytes.2, h.overlong⟩

theorem Tracks.lines (h : Tracks e whole s) {bytes : List UInt8} (hbytes : Ends bytes) :
    ∃ whole' s', s' = (if bytes.isEmpty then s
          else { s with intake := s.intake.addLines bytes }.settle) ∧
      Tracks e whole' s' ∧
      whole' ++ s'.intake.pending.toList = whole ++ s.intake.pending.toList ++ bytes := by
  obtain rfl | ⟨front, rfl⟩ := hbytes
  · exact ⟨whole, s, rfl, h, (List.append_nil _).symm⟩
  · have hpending : (s.intake.addLines (front ++ [newline])).pending.toList =
        s.intake.pending.toList ++ (front ++ [newline]) := by
      simp [addLines, h.keeping]
    have hsettle := settle_of_ends (hpending.trans (List.append_assoc ..).symm)
    obtain ⟨hcounts, hengine, hoverlong⟩ :=
      h.apply_whole (s.intake.pending.toList ++ (front ++ [newline]))
    refine ⟨whole ++ (s.intake.pending.toList ++ (front ++ [newline])), _,
      (if_neg (by simp)).symm, ?_, ?_⟩
    · simp only [settle, hsettle, hpending]
      refine ⟨.inr ⟨whole ++ (s.intake.pending.toList ++ front), ?_⟩, List.not_mem_nil, rfl,
        hoverlong, hcounts, hengine⟩
      simp only [List.append_assoc]
    · simp [settle, hsettle, apply]

theorem Tracks.part (h : Tracks e whole s) {bytes : List UInt8} (hbytes : newline ∉ bytes)
    (hfits : (s.intake.pending.toList ++ bytes).length ≤ maxLine) :
    ∃ s', s' = (if bytes.isEmpty then s
          else { s with intake := s.intake.addPart bytes }.settle) ∧
      Tracks e whole s' ∧
      s'.intake.pending.toList = s.intake.pending.toList ++ bytes := by
  cases hempty : bytes.isEmpty with
  | true =>
    rw [List.isEmpty_iff.mp hempty, List.append_nil]
    exact ⟨s, rfl, h, rfl⟩
  | false =>
    have hadd : s.intake.addPart bytes =
        { s.intake with pending := s.intake.pending ++ bytes } := by
      simp [addPart, h.keeping]
    have hpending : (s.intake.addPart bytes).pending.toList =
        s.intake.pending.toList ++ bytes := by
      rw [hadd, Array.toList_appendList]
    have hfree : newline ∉ (s.intake.addPart bytes).pending.toList := by
      simp [hpending, h.pending, hbytes]
    have hsettle := settle_of_fits hfree (by rw [← Array.length_toList, hpending]; exact hfits)
    refine ⟨{ s with intake := s.intake.addPart bytes }, ?_, ?_, hpending⟩
    · simp only [settle, hsettle]
      rfl
    · exact ⟨h.ends, hfree, by rw [hadd]; exact h.keeping, h.overlong, h.counts, h.engine⟩

theorem part_le {part later : List UInt8} (hwhole : Ends whole) (hpart : newline ∉ part)
    (hfits : ∀ line ∈ fields newline (whole ++ (part ++ later)), line.length ≤ maxLine) :
    part.length ≤ maxLine := by
  obtain ⟨line, hline, hprefix⟩ := exists_prefix_mem_fields hpart later
  refine Nat.le_trans hprefix.length_le (hfits line ?_)
  obtain rfl | ⟨front, rfl⟩ := hwhole
  · exact hline
  · rw [List.append_assoc, List.singleton_append, fields_append_fields]
    exact List.mem_append_right _ hline

theorem Tracks.absorb (h : Tracks e whole s) (fill later : List UInt8)
    (hfits : ∀ line ∈ fields newline (whole ++ s.intake.pending.toList ++ fill ++ later),
      line.length ≤ maxLine) :
    ∃ whole', Tracks e whole' (s.absorb fill) ∧
      whole' ++ (s.absorb fill).intake.pending.toList =
        whole ++ s.intake.pending.toList ++ fill := by
  obtain ⟨whole', middle, hmiddle, htracks, hseen⟩ := h.lines (ends_cut fill)
  have hfill : whole' ++ (middle.intake.pending.toList ++ (cut fill).2) =
      whole ++ s.intake.pending.toList ++ fill := by
    rw [← List.append_assoc, hseen, List.append_assoc _ (cut fill).1, cut_append]
  have hfree : newline ∉ middle.intake.pending.toList ++ (cut fill).2 := by
    simp [htracks.pending, newline_notMem_cut]
  rw [← hfill, List.append_assoc] at hfits
  obtain ⟨last, hlast, htracks, hpending⟩ :=
    htracks.part (newline_notMem_cut fill) (part_le htracks.ends hfree hfits)
  have habsorb : s.absorb fill = last := by
    rw [hlast, hmiddle]
    rfl
  exact ⟨whole', habsorb ▸ htracks, by rw [habsorb, hpending, hfill]⟩

theorem Tracks.foldl (h : Tracks e whole s) (stream : List (List UInt8))
    (hfits : ∀ line ∈ fields newline (whole ++ s.intake.pending.toList ++ stream.flatten),
      line.length ≤ maxLine) :
    ∃ whole', Tracks e whole' (stream.foldl StreamState.absorb s) ∧
      whole' ++ (stream.foldl StreamState.absorb s).intake.pending.toList =
        whole ++ s.intake.pending.toList ++ stream.flatten := by
  induction stream generalizing whole s with
  | nil => exact ⟨whole, h, by simp⟩
  | cons fill rest ih =>
    rw [List.flatten_cons, ← List.append_assoc] at hfits
    obtain ⟨middle, hmiddle, hseen⟩ := h.absorb fill rest.flatten hfits
    rw [← hseen] at hfits
    obtain ⟨whole', hwhole', hall⟩ := ih hmiddle hfits
    refine ⟨whole', hwhole', ?_⟩
    rw [List.foldl_cons, hall, hseen, List.flatten_cons, List.append_assoc _ fill]

theorem Tracks.finish (h : Tracks e whole s) :
    s.finish.1.counts = (linewise (whole ++ s.intake.pending.toList) e).1 ∧
      s.finish.2.silent = (linewise (whole ++ s.intake.pending.toList) e).2.silent ∧
      s.finish.1.overlong = 0 := by
  unfold StreamState.finish
  by_cases hempty : s.intake.pending.isEmpty
  · rw [if_pos hempty, Array.isEmpty_iff.mp hempty]
    simpa using ⟨h.counts, h.engine, h.overlong⟩
  · rw [if_neg hempty]
    exact h.apply_whole _

end StreamState

namespace Engine

/-- However a stream of lines that are not too long comes in, each of its lines counts and acts as
if it came alone. -/
theorem ingestStream_linewise (e : Engine) (stream : List (List UInt8))
    (hfits : ∀ line ∈ fields Intake.newline stream.flatten, line.length ≤ Intake.maxLine) :
    (e.ingestStream stream).1.counts = (Treatment.linewise stream.flatten e).1 ∧
      (e.ingestStream stream).2.silent = (Treatment.linewise stream.flatten e).2.silent ∧
      (e.ingestStream stream).1.overlong = 0 := by
  obtain ⟨whole, hwhole, hseen⟩ := (StreamState.tracks_start e).foldl stream hfits
  have hfinish := hwhole.finish
  rw [hseen] at hfinish
  exact hfinish

/-- A malformed line, a blank one, and one without an end, each cut into two. -/
def torn : List (List UInt8) := [[120, 58], [255, 10, 13], [10, 58], [49]]

theorem ingestStream_linewise_torn : ∃ e, ofConfig (compact {}) = .ok e ∧
    (∀ line ∈ fields Intake.newline torn.flatten, line.length ≤ Intake.maxLine) ∧
    (e.ingestStream torn).1.counts = (Treatment.linewise torn.flatten e).1 ∧
    (e.ingestStream torn).2.silent = (Treatment.linewise torn.flatten e).2.silent ∧
    (e.ingestStream torn).1.overlong = 0 := by
  have hbuilt : (ofConfig (compact {})).toOption.any (fun _ => true) = true := by decide +kernel
  have hfits : ∀ line ∈ fields Intake.newline torn.flatten, line.length ≤ Intake.maxLine := by
    decide +kernel
  obtain ⟨e, he, -⟩ := exists_ofConfig hbuilt
  exact ⟨e, he, hfits, ingestStream_linewise e torn hfits⟩

end Engine

end Rollup
