import Rollup.Output.LineBuffer
import Rollup.Proofs.Text.Lines

/-! What a line buffer hands off. From whatever number of bytes on it does so, the buffers handed
off and what is pending are together the lines that were pushed, in their order. -/
namespace Rollup

section Lines

theorem lines_append_lines (text rest : List Char) :
    lines (text ++ '\n' :: rest) = lines (text ++ ['\n']) ++ lines rest := by
  have hnil : lines [] = [] := by rw [lines]; rfl
  induction text using fields_cases '\n' with
  | last line hline => rw [lines_append hline, lines_append hline, hnil, List.singleton_append]
  | more line more hline ih =>
    rw [List.append_assoc, List.cons_append, lines_append hline, ih, List.append_assoc,
      List.cons_append, lines_append hline, List.cons_append]

theorem lines_flatten {rows : List (List Char)} (h : ∀ row ∈ rows, ∃ front, row = front ++ ['\n']) :
    lines rows.flatten = rows.flatMap lines := by
  induction rows with
  | nil => rw [List.flatten_nil, lines]; rfl
  | cons row rest ih =>
    obtain ⟨front, rfl⟩ := h row List.mem_cons_self
    rw [List.flatten_cons, List.append_assoc, List.singleton_append, lines_append_lines,
      ih fun row hrow => h row (List.mem_cons_of_mem _ hrow), List.flatMap_cons]

end Lines

namespace Dialect

theorem line_ended (dialect : Dialect) (timestamp : Nat) (r : Reading) :
    ∃ front, (dialect.line timestamp r).toList = front ++ ['\n'] := by
  cases dialect <;> simp only [line, String.toList_append]
  · exact ⟨_, rfl⟩
  · exact ⟨_, rfl⟩
  · exact ⟨_, (List.append_assoc _ ['|', 'g'] ['\n']).symm⟩

def rows (dialect : Dialect) (timestamp : Nat) (readings : List Reading) : List (List Char) :=
  readings.map fun r => (dialect.line timestamp r).toList

variable (dialect : Dialect) (timestamp : Nat)

theorem ended_of_mem_rows {readings : List Reading} :
    ∀ row ∈ dialect.rows timestamp readings, ∃ front, row = front ++ ['\n'] := by
  intro row hrow
  obtain ⟨r, -, rfl⟩ := List.mem_map.mp hrow
  exact dialect.line_ended timestamp r

def Writes (text : List Char) (readings : List Reading) : Prop :=
  ∃ order : List Reading, order.Perm readings ∧ text = (dialect.rows timestamp order).flatten

variable {dialect timestamp}

theorem Writes.perm {text : List Char} {readings readings' : List Reading}
    (h : dialect.Writes timestamp text readings) (hperm : readings.Perm readings') :
    dialect.Writes timestamp text readings' := by
  obtain ⟨order, horder, htext⟩ := h
  exact ⟨order, horder.trans hperm, htext⟩

theorem Writes.flatMap {α : Type} {as : List α} {texts : α → List Char}
    {readings : α → List Reading}
    (h : ∀ a ∈ as, dialect.Writes timestamp (texts a) (readings a)) :
    dialect.Writes timestamp (as.flatMap texts) (as.flatMap readings) := by
  induction as with
  | nil => exact ⟨[], .refl _, rfl⟩
  | cons a rest ih =>
    obtain ⟨first, hfirst, htext⟩ := h a List.mem_cons_self
    obtain ⟨more, hmore, htexts⟩ := ih fun b hb => h b (List.mem_cons_of_mem _ hb)
    refine ⟨first ++ more, hfirst.append hmore, ?_⟩
    rw [List.flatMap_cons, htext, htexts, rows, rows, rows, List.map_append, List.flatten_append]

theorem Writes.lines_perm {text text' : List Char} {readings : List Reading}
    (h : dialect.Writes timestamp text readings) (h' : dialect.Writes timestamp text' readings) :
    (lines text).Perm (lines text') := by
  obtain ⟨order, horder, rfl⟩ := h
  obtain ⟨order', horder', rfl⟩ := h'
  rw [lines_flatten (dialect.ended_of_mem_rows timestamp),
    lines_flatten (dialect.ended_of_mem_rows timestamp)]
  exact ((horder.trans horder'.symm).map _).flatMap_right lines

end Dialect

namespace LineBuffer

def text (b : LineBuffer) : List Char :=
  b.outlet.delivered.toList.flatMap String.toList ++ b.pending.toList

def sent (b : LineBuffer) : List String := b.outlet.delivered.toList

def write (b : LineBuffer) (r : Reading) : LineBuffer :=
  { b with pending := b.pending ++ b.dialect.line b.timestamp r, lines := b.lines + 1 }

theorem push_eq (b : LineBuffer) (r : Reading) : b.push r =
    if b.highWater ≤ (b.write r).pending.utf8ByteSize then (b.write r).flush else b.write r := rfl

theorem pending_flush (b : LineBuffer) : b.flush.pending = "" := by
  unfold flush
  split
  · rename_i hempty
    exact String.isEmpty_iff.mp hempty
  · rfl

section Sent

theorem sent_flush (b : LineBuffer) : b.sent <+: b.flush.sent := by
  unfold flush
  split
  · exact List.prefix_rfl
  · unfold sent Outlet.send
    split
    · rw [Array.toList_push]
      exact List.prefix_append _ _
    · exact List.prefix_rfl

theorem sent_push (b : LineBuffer) (r : Reading) : b.sent <+: (b.push r).sent := by
  rw [push_eq]
  split
  · exact sent_flush (b.write r)
  · exact List.prefix_rfl

theorem sent_pushAll (b : LineBuffer) (readings : List Reading) :
    b.sent <+: (b.pushAll readings).sent := by
  induction readings generalizing b with
  | nil => exact List.prefix_rfl
  | cons r rest ih => exact (b.sent_push r).trans (ih _)

end Sent

structure Open (b : LineBuffer) (dialect : Dialect) (timestamp : Nat) : Prop where
  attached : b.outlet.attached = true
  dialect : b.dialect = dialect
  timestamp : b.timestamp = timestamp

structure Settled (b : LineBuffer) (dialect : Dialect) : Prop where
  attached : b.outlet.attached = true
  dialect : b.dialect = dialect
  pending : b.pending = ""

structure Reports (b b' : LineBuffer) (dialect : Dialect) (timestamp : Nat)
    (readings : List Reading) : Prop where
  settled : b'.Settled dialect
  text : b'.text = b.text ++ (dialect.rows timestamp readings).flatten

variable {b : LineBuffer} {dialect : Dialect} {timestamp : Nat}

theorem Settled.open (h : b.Settled dialect) (timestamp : Nat) :
    (b.setTimestamp timestamp).Open dialect timestamp := ⟨h.attached, h.dialect, rfl⟩

theorem Open.flush (h : b.Open dialect timestamp) :
    b.flush.Open dialect timestamp ∧ b.flush.text = b.text := by
  unfold LineBuffer.flush
  split
  · exact ⟨h, rfl⟩
  · refine ⟨⟨?_, h.dialect, h.timestamp⟩, ?_⟩
    · simp [Outlet.send, h.attached]
    · simp [text, Outlet.send, h.attached]

theorem Open.push (h : b.Open dialect timestamp) (r : Reading) :
    (b.push r).Open dialect timestamp ∧
      (b.push r).text = b.text ++ (dialect.line timestamp r).toList := by
  have hwritten : (b.write r).Open dialect timestamp := ⟨h.attached, h.dialect, h.timestamp⟩
  have htext : (b.write r).text = b.text ++ (dialect.line timestamp r).toList := by
    simp [text, write, h.dialect, h.timestamp]
  rw [push_eq]
  split
  · exact ⟨hwritten.flush.1, hwritten.flush.2.trans htext⟩
  · exact ⟨hwritten, htext⟩

theorem Open.pushAll (h : b.Open dialect timestamp) (readings : List Reading) :
    (b.pushAll readings).Open dialect timestamp ∧
      (b.pushAll readings).text = b.text ++ (dialect.rows timestamp readings).flatten := by
  induction readings generalizing b with
  | nil => exact ⟨h, by simp [pushAll, Dialect.rows]⟩
  | cons r rest ih =>
    obtain ⟨hopen, htext⟩ := h.push r
    obtain ⟨hopen', htext'⟩ := ih hopen
    refine ⟨hopen', htext'.trans ?_⟩
    rw [htext, List.append_assoc]
    rfl

theorem pushAll_append (b : LineBuffer) (readings more : List Reading) :
    b.pushAll (readings ++ more) = (b.pushAll readings).pushAll more :=
  List.foldl_append

theorem Open.reports (h : b.Open dialect timestamp) (readings : List Reading) :
    b.Reports (b.pushAll readings).flush dialect timestamp readings := by
  obtain ⟨hopen, htext⟩ := h.pushAll readings
  obtain ⟨hflushed, hsame⟩ := hopen.flush
  exact ⟨⟨hflushed.attached, hflushed.dialect, pending_flush _⟩, hsame.trans htext⟩

end LineBuffer

end Rollup
