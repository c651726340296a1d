import SemanticDiagnostics.Proofs.LineCuts
import SemanticDiagnostics.Proofs.Walking

/-! # From offsets to positions and back

The position of an offset counts every character of the line, terminators included; what a position
points at never lies in the terminators at the end of a line. All the same the two ways are inverse to
each other on the text of the lines: an offset leads to a position that points at the character of the
offset, and a position points at an offset that leads to this position, or to the end of the text if
the line ends before it. -/
namespace SemanticDiagnostics

theorem Text.isBorder_append (front back : List Char) :
    isBorder (front ++ back) (byteLength front) = true := by
  rw [isBorder_iff, passed_byteLength]

/-! ## Characters of a line -/

namespace Line

variable (l : Line)

/-- A column holds the character with its index in the text, or nothing. -/
theorem hi_charSpan (column : Nat) :
    (l.charSpan column).hi =
      (l.charSpan column).lo + Text.byteLength (l.text[column - 1]?).toList := by
  rw [charSpan, hi_spanOf, lo_spanOf, List.take_add_one, Text.byteLength_append, Nat.add_assoc]

theorem lo_charSpan_eq_hi_iff {column : Nat} (h : 1 ≤ column) :
    (l.charSpan column).lo = (l.charSpan column).hi ↔ l.text.length < column := by
  rw [hi_charSpan, Nat.left_eq_add, Text.byteLength_eq_zero_iff, Option.toList_eq_nil_iff,
    List.getElem?_eq_none_iff]
  omega

/-- Columns behind the text are as good as the one right behind it. -/
theorem charSpan_of_length_lt {l : Line} {column : Nat} (h : l.text.length < column) :
    l.charSpan column = .emptyAt (l.start + Text.byteLength l.text) :=
  spanOf_of_le l.start (Nat.le_sub_one_of_lt h)

theorem charSpan_min (column : Nat) :
    l.charSpan (min column (l.text.length + 1)) = l.charSpan column := by
  rcases Nat.lt_or_ge (l.text.length + 1) column with h | h
  · rw [Nat.min_eq_right (Nat.le_of_lt h), charSpan_of_length_lt (Nat.lt_succ_self _),
      charSpan_of_length_lt (Nat.lt_of_succ_lt h)]
  · rw [Nat.min_eq_left h]

/-- Inside a character of the text, the characters before it are counted, and the column is its own. -/
theorem charSpan_columnAt {l : Line} {as bs : List Char} {c : Char} {offset : Nat}
    (htext : l.text = as ++ c :: bs) (h : l.start + Text.byteLength as ≤ offset)
    (h' : offset < l.start + Text.byteLength as + c.utf8Size) :
    l.columnAt offset = as.length + 1 ∧
      l.charSpan (as.length + 1) =
        { lo := l.start + Text.byteLength as
          hi := l.start + Text.byteLength as + c.utf8Size } := by
  have hchars : l.chars = as ++ c :: (bs ++ l.terminators) := by
    rw [← l.text_append_terminators, htext, List.append_assoc, List.cons_append]
  constructor
  · rw [columnAt, hchars, countP_charEnds h h']
  · rw [charSpan, htext, Nat.add_sub_cancel, spanOf_append]

/-- Behind the text of a line, all of its characters are counted. -/
theorem length_lt_columnAt {l : Line} {offset : Nat}
    (h : l.start + Text.byteLength l.text ≤ offset) : l.text.length < l.columnAt offset := by
  rw [columnAt, ← l.text_append_terminators, charEnds_append, List.countP_append,
    countP_charEnds_of_le h]
  omega

end Line

namespace SourceFile

variable {f : SourceFile} {index : Nat} {l : Line}

/-- What stands in a source around the character of a column. -/
theorem exists_source_eq (hline : f.lines[index]? = some l) (column : Nat) :
    ∃ front back, f.source.toList = front ++ ((l.text[column - 1]?).toList ++ back) ∧
      (l.charSpan column).lo = Text.byteLength front := by
  rw [f.lines_eq, List.getElem?_toArray] at hline
  obtain ⟨front, back, hsource, hstart, -, -⟩ := Line.exists_of_getElem? hline
  have htext (rest : List Char) : l.text ++ rest = l.text.take (column - 1) ++
      ((l.text[column - 1]?).toList ++ (l.text.drop (column - 1 + 1) ++ rest)) := by
    rw [← List.append_assoc _ _ rest, ← List.drop_eq_getElem?_toList_append, ← List.append_assoc,
      List.take_append_drop]
  refine ⟨front ++ l.text.take (column - 1), l.text.drop (column - 1 + 1) ++ (l.terminators ++ back),
    ?_, ?_⟩
  · rw [hsource, ← l.text_append_terminators, List.append_assoc l.text, htext, List.append_assoc]
  · rw [Line.charSpan, Line.lo_spanOf, hstart, Nat.zero_add, Text.byteLength_append]

/-- The bytes that a position points at are those of a character, or none. -/
theorem slice?_charSpan (hline : f.lines[index]? = some l) (column : Nat) :
    f.slice? (l.charSpan column) = some (String.ofList (l.text[column - 1]?).toList) := by
  obtain ⟨front, back, hsource, hlo⟩ := exists_source_eq hline column
  exact slice?_of_append hsource hlo (l.hi_charSpan column)

/-- What a position points at starts and ends between characters of the source. -/
theorem isBorder_charSpan (hline : f.lines[index]? = some l) (column : Nat) :
    Text.isBorder f.source.toList (l.charSpan column).lo = true ∧
      Text.isBorder f.source.toList (l.charSpan column).hi = true := by
  obtain ⟨front, back, hsource, hlo⟩ := exists_source_eq hline column
  rw [l.hi_charSpan, hlo, hsource, ← Text.byteLength_append]
  refine ⟨Text.isBorder_append .., ?_⟩
  rw [← List.append_assoc]
  exact Text.isBorder_append ..

/-- The position of an offset points at the column of the offset in its line. -/
theorem charRange_positionAt (f : SourceFile) (offset : Nat) :
    f.charRange (f.positionAt offset) =
      some ((f.lineAt offset).charSpan ((f.lineAt offset).columnAt offset)) :=
  charRange_of_line (f.getElem?_lineIndex offset)

end SourceFile

/-! ## There and back -/

/-- **An offset leads back to its character.** The position of any offset points at something. On the
line that holds the offset, this is the character of the offset if the offset lies in the text of the
line; if it lies in the terminators or behind the source, it is the end of the text of the line. -/
theorem offset_leads_back_to_its_character (f : SourceFile) (offset : Nat) :
    ∃ (index : Nat) (cut : Line.Cut f.source.toList index) (span : Span),
      (f.positionAt offset).line = index + 1 ∧ cut.Holds offset ∧
      f.charRange (f.positionAt offset) = some span ∧
      (offset < cut.textEnd →
        span.lo ≤ offset ∧ offset < span.hi ∧
        ∃ before c after, cut.text = before ++ c :: after ∧
          span.lo = cut.start + Text.byteLength before ∧ span.hi = span.lo + c.utf8Size ∧
          f.slice? span = some (String.ofList [c])) ∧
      (cut.textEnd ≤ offset → span = .emptyAt cut.textEnd) := by
  have hline := f.getElem?_lineIndex offset
  have hspan := f.charRange_positionAt offset
  -- From here on only this is known of the line: it stands at the index of the offset.
  generalize f.lineAt offset = l at hline hspan
  obtain ⟨cut, hstart, htext, htextEnd, hholds⟩ := SourceFile.exists_cut hline
  have hholds := hholds offset rfl
  refine ⟨f.lineIndex offset, cut, _, rfl, hholds, hspan, ?_, ?_⟩
  · intro h
    have hle := hholds.1
    rw [htextEnd] at h
    rw [hstart] at hle ⊢
    rw [htext]
    rcases Text.le_or_inside l.text (offset - l.start) with
      hend | ⟨before, c, after, hchars, hbefore, hbehind⟩
    · omega
    · have hbefore : l.start + Text.byteLength before ≤ offset := by omega
      have hbehind : offset < l.start + Text.byteLength before + c.utf8Size := by omega
      obtain ⟨hcolumn, hchar⟩ := Line.charSpan_columnAt hchars hbefore hbehind
      have hself : l.text[before.length]? = some c := by simp [hchars]
      have hslice := SourceFile.slice?_charSpan hline (before.length + 1)
      rw [hchar, Nat.add_sub_cancel, hself] at hslice
      rw [hcolumn, hchar]
      exact ⟨hbefore, hbehind, before, c, after, hchars, rfl, rfl, hslice⟩
  · intro h
    rw [htextEnd] at h ⊢
    exact Line.charSpan_of_length_lt (Line.length_lt_columnAt h)

/-- **A position leads back to itself, or to the end of its line.** A position points at nothing exactly
if the source has not so many lines. Otherwise it points at bytes between two characters of the source,
in the text of its line, and these are the character in the column or, exactly if the text has not so
many characters, none. They start at the position, or right behind the text if the line ends before
the column, and the position at which they start points at them again. -/
theorem position_leads_back_clamped (f : SourceFile) (p : Position) :
    (f.charRange p = none ↔ 1 + f.source.toList.count '\n' < p.line) ∧
    (p.line ≤ 1 + f.source.toList.count '\n' →
      ∃ (index : Nat) (cut : Line.Cut f.source.toList index) (span : Span),
        p.line = index + 1 ∧
        f.charRange p = some span ∧
        span.lo ≤ span.hi ∧ span.hi ≤ Text.byteLength f.source.toList ∧
        Text.isBorder f.source.toList span.lo = true ∧
        Text.isBorder f.source.toList span.hi = true ∧
        cut.start ≤ span.lo ∧ span.hi ≤ cut.textEnd ∧
        (f.positionAt span.lo).line = p.line ∧ (f.positionAt span.hi).line = p.line ∧
        (f.positionAt span.lo).column = min p.column (cut.text.length + 1) ∧
        (span.lo = span.hi ↔ cut.text.length < p.column) ∧
        f.slice? span = some (String.ofList (cut.text[p.column - 1]?).toList) ∧
        f.charRange (f.positionAt span.lo) = some span) := by
  have hnone : f.charRange p = none ↔ f.line? p.line = none := by
    rw [SourceFile.charRange, Option.map_eq_none_iff]
  refine ⟨hnone.trans SourceFile.line?_eq_none_iff, ?_⟩
  intro hcount
  cases hline : f.line? p.line with
  | none => exact absurd (SourceFile.line?_eq_none_iff.1 hline) (Nat.not_lt.2 hcount)
  | some l =>
    obtain ⟨cut, hstart, htext, htextEnd, -⟩ := SourceFile.exists_cut hline
    obtain ⟨span, hspan, hlo, hhi, hfirst, hlast, hcolumn⟩ :=
      SourceFile.exists_charRange_of_line hline
    obtain rfl : l.charSpan p.column = span :=
      Option.some.inj ((SourceFile.charRange_of_line hline).symm.trans hspan)
    obtain ⟨hborder, hborder'⟩ := SourceFile.isBorder_charSpan hline p.column
    have hend : (l.charSpan p.column).hi ≤ cut.textEnd := htextEnd ▸ hhi
    -- The start is on the same line again, and clamping its column changes nothing.
    have hagain : f.charRange (f.positionAt (l.charSpan p.column).lo) =
        some (l.charSpan p.column) := by
      rw [SourceFile.charRange_of_line (hfirst ▸ hline), hcolumn, l.charSpan_min]
    refine ⟨p.line - 1, cut, _, (Nat.sub_add_cancel p.one_le_line).symm, hspan,
      (l.charSpan p.column).lo_le_hi, Nat.le_trans hend cut.textEnd_le, hborder, hborder',
      hstart ▸ hlo, hend, hfirst, hlast, ?_, ?_, ?_, hagain⟩
    · rw [htext, hcolumn]
    · rw [htext]
      exact l.lo_charSpan_eq_hi_iff p.one_le_column
    · rw [htext]
      exact SourceFile.slice?_charSpan hline p.column

/-- A character behind a carriage return, the end of its line, the empty line behind it, and no line. -/
example :
    [.behind 0 2, .behind 0 8, .behind 1 0, .behind 2 0].map
        (SourceFile.ofText "input.asl" "a\r字\r\n").charRange =
      [some ⟨2, 5, by decide⟩, some (.emptyAt 5), some (.emptyAt 7), none] := by decide

end SemanticDiagnostics
