import SemanticDiagnostics.Proofs.Appending
import SemanticDiagnostics.Proofs.CaretRow
import SemanticDiagnostics.Proofs.TrimmedLines

/-! # From a span to its caret

An offset inside a character of a line goes through four systems of coordinates: bytes of the file,
line and column of the record, bytes of the line, and columns of the terminal. What rich output shows
in the end is that line, with carets under that character. -/
namespace SemanticDiagnostics
open Session Output

/-! ## The block of an error at a shown character -/

/-- How rich output without colors shows an error at a character of a line, `before` and `after` it
the other characters of the line: the place is that of the record, the source row is the line, and
carets as wide as the character stand as far to the right as the characters before it reach. -/
def Record.caretBlock (r : Record) (fileName : String) (before : List Char) (c : Char)
    (after : List Char) : String :=
  let number := toString r.position.line
  let pad := Snippet.repeated ' ' number.length
  let left := Snippet.reach 0 before
  "error[" ++ r.code ++ "]: " ++ r.message ++ "\n" ++
  (pad ++ " ┌─ " ++ fileName ++ ":" ++ number ++ ":" ++ toString r.position.column ++ "\n") ++
  (pad ++ " │" ++ "\n") ++
  (number ++ " │ " ++ Snippet.expand 0 (before ++ c :: after) ++ "\n") ++
  (pad ++ " │ " ++ (Snippet.repeated ' ' left ++ Snippet.repeated '^' (Snippet.widthAt left c)) ++
    "\n") ++
  "\n"

variable {f : SourceFile} {index : Nat} {l : Line} {before after : List Char} {c : Char}

/-- The bytes of a character that stands behind some others in a line. -/
def Line.spanBehind (l : Line) (before : List Char) (c : Char) : Span :=
  { lo := l.start + Text.byteLength before
    hi := l.start + Text.byteLength before + c.utf8Size }

theorem SourceFile.charRange_shown (hline : f.lines[index]? = some l)
    (hshown : l.shown = before ++ c :: after) :
    f.charRange (.behind index before.length) = some (l.spanBehind before c) := by
  obtain ⟨rest, hrest⟩ := l.shown_isPrefix_text
  rw [hshown, List.append_assoc, List.cons_append] at hrest
  have hline? : f.line? (index + 1) = some l := hline
  have hspan : l.charSpan (before.length + 1) = l.spanBehind before c := by
    rw [Line.charSpan, ← hrest, Nat.add_sub_cancel, Line.spanOf_append]
    rfl
  rw [← hspan]
  exact congrArg (Option.map _) hline?

/-- The snippet of a shown character. -/
theorem Snippet.ofSpan_shown (hline : f.lines[index]? = some l)
    (hshown : l.shown = before ++ c :: after) :
    ∃ label : Label, label.first = Text.byteLength before ∧
      label.past = Text.byteLength before + c.utf8Size ∧
      ofSpan f (l.spanBehind before c) =
        { fileName := f.name
          locus := .behind index before.length
          cells := layOut label 0 0 (before ++ c :: after)
          placeholder := .behind label (before ++ c :: after) } := by
  have hc := c.utf8Size_pos
  obtain ⟨rest, hrest⟩ := l.shown_isPrefix_text.trans l.text_isPrefix_chars
  rw [hshown, List.append_assoc, List.cons_append] at hrest
  have hlineAt : f.lineAt (l.start + Text.byteLength before) = l :=
    SourceFile.lineAt_inside hline hrest.symm (Nat.le_refl _) (by omega)
  have hlocus : f.positionAt (l.start + Text.byteLength before) = .behind index before.length :=
    SourceFile.positionAt_inside hline hrest.symm (Nat.le_refl _) (by omega)
  refine ⟨Label.ofSpan l.start (l.spanBehind before c), Nat.add_sub_cancel_left .., ?_, ?_⟩
  · simp only [Label.ofSpan, Line.spanBehind]
    omega
  · simp only [ofSpan, Line.spanBehind, hlineAt, hlocus, hshown]

theorem Block.text_ofRecord_shown {r : Record} (hline : f.lines[index]? = some l)
    (hshown : l.shown = before ++ c :: after)
    (hposition : r.position = .behind index before.length) :
    (Block.ofRecord f r).text .plain = r.caretBlock f.name before c after := by
  obtain ⟨label, hfirst, hpast, hsnippet⟩ := Snippet.ofSpan_shown hline hshown
  have hrange : f.charRange r.position = _ :=
    hposition ▸ SourceFile.charRange_shown hline hshown
  rw [← hposition] at hsnippet
  rw [Block.ofRecord_of_charRange hrange, hsnippet, Block.text_plain_snippet,
    Snippet.join_underline_char hfirst hpast, Snippet.join_shown_layOut]
  rfl

/-! ## End to end -/

/-- **The caret stands under the character that a span starts in.** An operation reports over a span
of a file that starts inside a character of the shown part of a line. Whatever the sink holds and
whatever else is reported to it before it is finished, the record has the line and the column of the
character, and rich output of the report without colors shows it by its block, between those of the
other records. -/
theorem caret_under_span_start (s : State) {operation : Sink.Operation} {span : Span}
    {later : List Step} (color : ColorChoice)
    (hline : f.lines[index]? = some l) (hshown : l.shown = before ++ c :: after)
    (hlo : l.start + Text.byteLength before ≤ span.lo)
    (hlo' : span.lo < l.start + Text.byteLength before + c.utf8Size)
    (hanchor : operation.anchor.IsOver f span)
    (hcall : ∀ call ∈ operation.call?, ∃ node, call.build = .ok node)
    (hlater : ∀ x ∈ later, x.startsSink = false) :
    ∃ r : Record,
      (s.step (.append operation)).1 = .appended (s.sink.count + 1) (some r) ∧
      r.position.line = index + 1 ∧ r.position.column = before.length + 1 ∧
      r.render =
        toString (index + 1) ++ "." ++ toString (before.length + 1) ++ ": " ++ r.message ∧
      (∀ p, (Block.ofRecord f r).body ≠ .note p) ∧
      let finished := (s.run (.append operation :: later ++ [.finish])).2
      ∃ report earlier rest,
        finished.reports[s.reports.length]? = some report ∧
        report.records = earlier ++ r :: rest ∧
        (finished.step (.readReport s.reports.length
            (.emit f { style := .rich, color } .plain none))).1 =
          .written (.complete (Block.texts .plain f earlier ++
            (r.caretBlock f.name before c after ++ Block.texts .plain f rest))) := by
  obtain ⟨r, hr⟩ := Sink.Operation.exists_record_of_isOver hanchor hcall
  obtain ⟨cut, hcut⟩ := l.shown_isPrefix_text.trans l.text_isPrefix_chars
  rw [hshown, List.append_assoc, List.cons_append] at hcut
  have hposition : r.position = .behind index before.length :=
    (Sink.Operation.position_of_isOver hanchor hr).trans
      (SourceFile.positionAt_inside hline hcut.symm hlo hlo')
  have hkeeps : ∀ x ∈ Step.append operation :: later, x.startsSink = false :=
    List.forall_mem_cons.2 ⟨rfl, hlater⟩
  obtain ⟨report, hreport, hsorted⟩ : ∃ report,
      (s.run (.append operation :: later ++ [.finish])).2.reports[s.reports.length]? = some report ∧
      report.records = Record.sort
        (s.sink.records ++ (Step.append operation :: later).filterMap Step.record?) :=
    ⟨_, s.report_of_run hkeeps, rfl⟩
  have hmem : r ∈ report.records := by
    rw [hsorted, (Record.sort_perm _).mem_iff, List.mem_append, List.mem_filterMap]
    exact .inr ⟨_, List.mem_cons_self, by rw [Step.record?_append, hr]; rfl⟩
  obtain ⟨earlier, rest, hrecords⟩ := List.append_of_mem hmem
  refine ⟨r, ?_, congrArg Position.line hposition, congrArg Position.column hposition, ?_, ?_,
    report, earlier, rest, hreport, hrecords, ?_⟩
  · rw [State.step_append_of_ok hr]
  · show toString r.position.line ++ "." ++ toString r.position.column ++ ": " ++ r.message = _
    rw [hposition]
    rfl
  · intro p hp
    rw [Block.ofRecord_of_charRange (hposition ▸ SourceFile.charRange_shown hline hshown)] at hp
    cases hp
  · have hblock : (Block.ofRecord f r).text .plain = r.caretBlock f.name before c after :=
      Block.text_ofRecord_shown hline hshown hposition
    have hemit := report.emit_rich f color .plain
    rw [hrecords, Block.texts_append, Block.texts_cons, hblock] at hemit
    rw [State.step_readReport hreport]
    exact congrArg Answer.written hemit

/-- A text whose second line has a tab, a character of two bytes and one of three bytes and two
columns, and ends in characters that are not shown. -/
def mixedText : SourceFile := .ofText "input.asl" "a\r\n\té字x\x00\r\n"

def mixedLine : Line := ⟨3, ['\t', 'é', '字', 'x', '\x00', '\r', '\n']⟩

theorem caret_under_span_start_of_wide :
    let s : State := (State.initial.run [.append (.atNode .booleanRequired (.position 9 9))]).2
    let operation : Sink.Operation :=
      .atArgument .incompatibleParameter (.forwarded (.span mixedText 7 8)) 2 (.bare "g" 0 0)
    let later : List Step := [.append (.atNode .incompatibleReturn (.token "x" 1 1))]
    let finished := (s.run (.append operation :: later ++ [.finish])).2
    mixedText.lines[1]? = some mixedLine ∧
      mixedLine.shown = ['\t', 'é'] ++ '字' :: ['x'] ∧
      mixedLine.start + Text.byteLength ['\t', 'é'] ≤ 7 ∧
      7 < mixedLine.start + Text.byteLength ['\t', 'é'] + '字'.utf8Size ∧
      (∀ x ∈ later, x.startsSink = false) ∧
      ∃ (r : Record) (earlier rest : List Record),
        (r.position.line = 2 ∧ r.position.column = 3) ∧
        (finished.step (.readReport 0 (.emit mixedText { style := .rich } .plain none))).1 =
          .written (.complete (Block.texts .plain mixedText earlier ++
            (r.caretBlock "input.asl" ['\t', 'é'] '字' ['x'] ++
              Block.texts .plain mixedText rest))) := by
  intro s operation later finished
  have hline : mixedText.lines[1]? = some mixedLine := by decide
  have hshown : mixedLine.shown = ['\t', 'é'] ++ '字' :: ['x'] := by decide
  have hlo : mixedLine.start + Text.byteLength ['\t', 'é'] ≤ 7 := by decide
  have hlo' : 7 < mixedLine.start + Text.byteLength ['\t', 'é'] + '字'.utf8Size := by decide
  have hanchor : operation.anchor.IsOver mixedText ⟨7, 8, by decide⟩ := .forwarded .span
  have hcall : ∀ call ∈ operation.call?, ∃ node, call.build = .ok node := by
    intro call hcall
    obtain rfl := Option.some.inj hcall
    exact ⟨_, rfl⟩
  have hlater : ∀ x ∈ later, x.startsSink = false := List.forall_mem_singleton.2 rfl
  obtain ⟨r, -, hnumber, hcolumn, -, -, report, earlier, rest, -, -, hemit⟩ :=
    caret_under_span_start s .never hline hshown hlo hlo' hanchor hcall hlater
  exact ⟨hline, hshown, hlo, hlo', hlater, r, earlier, rest, ⟨hnumber, hcolumn⟩, hemit⟩

end SemanticDiagnostics
