import SemanticDiagnostics.Emission
import SemanticDiagnostics.Proofs.Reading

/-! # What a block shows of the file

A block depends on the file by three things: its name, the number of the line, and the line without
the characters at its end that are cut off for the label and for display. Where in the file the line
starts makes no difference, nor does what stands on other lines. A column past the text of the line
is drawn behind it. -/
namespace SemanticDiagnostics

/-! ## The text of a line -/

namespace SourceFile

variable {f : SourceFile} {index : Nat} {l : Line}

theorem feed_not_mem_text (hline : f.lines[index]? = some l) : '\n' ∉ l.text := by
  rw [f.lines_eq, List.getElem?_toArray] at hline
  have hpart : l.text ⊆ l.chars := l.text_isPrefix_chars.subset
  obtain ⟨-, -, -, -, -, ⟨hfeed, -⟩ | ⟨body, -, hbody, hchars, -⟩⟩ := Line.exists_of_getElem? hline
  · exact fun hmem => hfeed (hpart hmem)
  · unfold Line.text
    rw [hchars, Text.dropTrailing_concat rfl]
    exact fun hmem => hbody ((Text.dropTrailing_isPrefix ..).subset hmem)

theorem positionAt_end (hline : f.lines[index]? = some l) (hfeed : '\n' ∉ l.chars) :
    f.positionAt (l.start + Text.byteLength l.chars) = .behind index l.chars.length := by
  rw [f.lines_eq, List.getElem?_toArray] at hline
  obtain ⟨front, back, hcs, hfront, hafter, ⟨-, rfl⟩ | ⟨body, -, -, hbody, -⟩⟩ :=
    Line.exists_of_getElem? hline
  · rw [Nat.zero_add] at hfront
    rw [List.append_nil] at hcs
    have hpassed : Text.passed f.source.toList (l.start + Text.byteLength l.chars) =
        f.source.toList :=
      Text.passed_of_le (Nat.le_of_eq (by rw [hcs, Text.byteLength_append, hfront]))
    rw [positionAt_eq_after, hpassed, hcs, Position.after_append, hafter,
      Position.after_of_not_mem hfeed]
    simp only [Position.lineStart, Position.behind, Position.mk.injEq]
    omega
  · exact absurd (hbody ▸ List.mem_concat_self) hfeed

/-- Up to the end of its text, the line is found again by the offsets in it. -/
theorem positionAt_text {before after : List Char} (hline : f.lines[index]? = some l)
    (htext : l.text = before ++ after) :
    f.positionAt (l.start + Text.byteLength before) = .behind index before.length := by
  have hchars : l.chars = before ++ (after ++ l.terminators) := by
    rw [← l.text_append_terminators, htext, List.append_assoc]
  cases hrest : after ++ l.terminators with
  | nil =>
    have hfeed : '\n' ∉ l.chars := by
      rw [← l.text_append_terminators, (List.append_eq_nil_iff.1 hrest).2, List.append_nil]
      exact feed_not_mem_text hline
    rw [hrest, List.append_nil] at hchars
    rw [← hchars]
    exact positionAt_end hline hfeed
  | cons c rest =>
    have hc := c.utf8Size_pos
    rw [hrest] at hchars
    exact positionAt_inside hline hchars (Nat.le_refl _) (by omega)

theorem lineAt_of_positionAt {offset : Nat} {p : Position} (hline : f.lines[index]? = some l)
    (hposition : f.positionAt offset = p) (hp : p.line = index + 1) : f.lineAt offset = l := by
  have hindex : f.lineIndex offset = index := by
    rw [← hposition] at hp
    exact Nat.succ.inj hp
  have hfound := f.getElem?_lineIndex offset
  rw [hindex, hline] at hfound
  exact (Option.some.inj hfound).symm

/-- The span of a column starts at the character of that column or at the end of the text. -/
theorem positionAt_lo_charSpan (hline : f.lines[index]? = some l) (column : Nat) :
    f.positionAt (l.charSpan column).lo = .behind index (min (column - 1) l.text.length) := by
  rw [Line.charSpan, Line.lo_spanOf, positionAt_text hline (List.take_append_drop _ _).symm,
    List.length_take]

end SourceFile

/-! ## Blocks -/

namespace Snippet

/-- The snippet of a column in the line with this index, made of the text of the line and of its
shown part. -/
def ofTrimmed (fileName : String) (index : Nat) (text shown : List Char) (column : Nat) : Snippet :=
  let label := Label.ofSpan 0 (Line.spanOf 0 text (column - 1))
  { fileName
    locus := .behind index (min (column - 1) text.length)
    cells := layOut label 0 0 shown
    placeholder := .behind label shown }

theorem Label.ofSpan_spanOf (start : Nat) (cs : List Char) (index : Nat) :
    Label.ofSpan start (Line.spanOf start cs index) = Label.ofSpan 0 (Line.spanOf 0 cs index) := by
  obtain ⟨hlo, hhi⟩ := Line.spanOf_add start 0 cs index
  rw [Nat.add_zero] at hlo hhi
  simp only [Label.ofSpan, hlo, hhi, Nat.add_sub_cancel_left, Nat.sub_zero]

theorem ofSpan_charSpan {f : SourceFile} {index : Nat} {l : Line}
    (hline : f.lines[index]? = some l) (column : Nat) :
    ofSpan f (l.charSpan column) = ofTrimmed f.name index l.text l.shown column := by
  have hposition := SourceFile.positionAt_lo_charSpan hline column
  have hlineAt : f.lineAt (l.charSpan column).lo = l :=
    SourceFile.lineAt_of_positionAt hline hposition rfl
  have hlabel : Label.ofSpan l.start (l.charSpan column) = Label.ofSpan 0 _ :=
    Label.ofSpan_spanOf l.start l.text (column - 1)
  simp only [ofSpan, hposition, hlineAt, hlabel, ofTrimmed]

end Snippet

/-- What is left of a line for labels, and what is left of it for display. -/
def Line.trimmed (l : Line) : List Char × List Char := (l.text, l.shown)

/-- What a record is shown by in a file of this name, if its line has been trimmed to this. -/
def Block.ofTrimmed (fileName : String) (line? : Option (List Char × List Char)) (r : Record) :
    Block :=
  { code := r.code
    message := r.message
    body :=
      match line? with
      | some (text, shown) =>
        .snippet (.ofTrimmed fileName (r.position.line - 1) text shown r.position.column)
      | none => .note r.position }

/-- A block depends on the name of the file and on the trimmed line. -/
theorem Block.ofRecord_eq_ofTrimmed (f : SourceFile) (r : Record) :
    ofRecord f r = ofTrimmed f.name ((f.line? r.position.line).map Line.trimmed) r := by
  unfold ofRecord ofTrimmed SourceFile.charRange
  cases hline : f.line? r.position.line with
  | none => rfl
  | some l =>
    show Block.mk r.code r.message (.snippet (.ofSpan f (l.charSpan r.position.column))) = _
    rw [Snippet.ofSpan_charSpan hline]
    rfl

/-- Files of one name whose trimmed lines are the same look the same in rich output. -/
theorem Report.blocks_eq_of_trimmed {f g : SourceFile} (hname : f.name = g.name)
    (hlines : f.lines.toList.map Line.trimmed = g.lines.toList.map Line.trimmed) (r : Report) :
    r.blocks f = r.blocks g := by
  unfold blocks
  refine List.map_congr_left ?_
  intro record _
  have hline : (f.line? record.position.line).map Line.trimmed =
      (g.line? record.position.line).map Line.trimmed := by
    unfold SourceFile.line?
    rw [← Array.getElem?_toList, ← Array.getElem?_toList, ← List.getElem?_map, ← List.getElem?_map,
      hlines]
  rw [Block.ofRecord_eq_ofTrimmed, Block.ofRecord_eq_ofTrimmed, hname, hline]

end SemanticDiagnostics
