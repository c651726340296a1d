import SemanticDiagnostics.Proofs.CaretRow
import SemanticDiagnostics.Proofs.History
import SemanticDiagnostics.Proofs.LineRanges
import SemanticDiagnostics.Proofs.PlainPaths

/-! # Places that the file does not have

A record may stand behind the end of its line or in a line that the file does not have. Rich output
goes through all the same: the first kind is shown at the end of the line, the second by a note. -/
namespace SemanticDiagnostics
open Session Output

/-! ## The border of a snippet -/

namespace Text

theorem CodePoints.has_eq_false {set : CodePoints} {first last : Nat} {c : Char}
    (h : set.all (fun range => range.2 < first || last < range.1) = true)
    (hc : first ≤ c.toNat ∧ c.toNat ≤ last) : set.has c = false := by
  rw [Bool.eq_false_iff, ne_eq, has_iff]
  intro ⟨range, hrange, hfirst, hlast⟩
  have hapart := List.all_eq_true.1 h range hrange
  rw [Bool.or_eq_true, decide_eq_true_eq, decide_eq_true_eq] at hapart
  omega

theorem width_of_printable {c : Char} (h : 0x20 ≤ c.toNat ∧ c.toNat ≤ 0x7E) : width c = 1 := by
  have hzero : zeroWidth.has c = false := CodePoints.has_eq_false (by decide +kernel) h
  have hdouble : doubleWidth.has c = false := CodePoints.has_eq_false (by decide +kernel) h
  have htriple : tripleWidth.has c = false := CodePoints.has_eq_false (by decide +kernel) h
  simp [width, hzero, hdouble, htriple]

end Text

namespace Snippet

/-- Whether a border is drawn with the character. -/
def isBorder (c : Char) : Bool := c = '┌' || c = '│'

/-- The display column of the first border character in a row that is written from a column on. -/
def borderColumn? : Nat → List Char → Option Nat
  | _, [] => none
  | column, c :: cs =>
    if isBorder c then some column else borderColumn? (column + widthAt column c) cs

/-- Whether the character is one of those that stand left of the border. -/
def isGutter (c : Char) : Bool := c = ' ' || c.isDigit

variable {c : Char}

theorem toNat_of_isGutter (h : isGutter c = true) : 0x20 ≤ c.toNat ∧ c.toNat ≤ 0x39 := by
  rcases Bool.or_eq_true_iff.1 h with h | h
  · obtain rfl := of_decide_eq_true h
    decide
  · have hdigit : 0x30 ≤ c.toNat ∧ c.toNat ≤ 0x39 := Char.isDigit_iff_toNat.1 h
    omega

theorem isBorder_of_isGutter (h : isGutter c = true) : isBorder c = false := by
  have hrange := (toNat_of_isGutter h).2
  have hcorner : c ≠ '┌' := fun hc => absurd (hc ▸ hrange) (by decide)
  have hbar : c ≠ '│' := fun hc => absurd (hc ▸ hrange) (by decide)
  simp [isBorder, hcorner, hbar]

theorem widthAt_of_isGutter (h : isGutter c = true) (column : Nat) : widthAt column c = 1 := by
  have hrange := toNat_of_isGutter h
  have htab : c ≠ '\t' := fun hc => absurd (hc ▸ hrange.1) (by decide)
  rw [widthAt, if_neg htab]
  exact Text.width_of_printable ⟨hrange.1, by omega⟩

/-- The border stands behind the gutter, whatever follows it. -/
theorem borderColumn?_append {left : List Char} (hleft : ∀ c ∈ left, isGutter c = true)
    (h : isBorder c = true) (column : Nat) (rest : List Char) :
    borderColumn? column (left ++ c :: rest) = some (column + left.length) := by
  induction left generalizing column with
  | nil => exact if_pos h
  | cons d ds ih =>
    obtain ⟨hd, hds⟩ := List.forall_mem_cons.1 hleft
    rw [List.cons_append, borderColumn?, isBorder_of_isGutter hd, widthAt_of_isGutter hd,
      if_neg Bool.false_ne_true, ih hds, List.length_cons, Nat.add_assoc, Nat.add_comm 1]

theorem isGutter_of_mem_repeated {width : Nat} (h : c ∈ (repeated ' ' width).toList) :
    isGutter c = true := by
  rw [eq_of_mem_repeated h]
  rfl

theorem isGutter_of_mem_toString {n : Nat} (h : c ∈ (toString n).toList) : isGutter c = true := by
  rw [Nat.toString_eq_repr, Nat.toList_repr] at h
  have hdigit := Nat.isDigit_of_mem_toDigits (by decide) (by decide) h
  exact Bool.or_eq_true_iff.2 (.inr hdigit)

@[simp] theorem length_repeated (c : Char) (width : Nat) : (repeated c width).length = width := by
  rw [repeated, ← String.length_toList, String.toList_ofList, List.length_replicate]

theorem borderColumn?_row {left : String} (hleft : ∀ c ∈ left.toList, isGutter c = true)
    (h : isBorder c = true) (rest : List Char) :
    borderColumn? 0 (left.toList ++ ' ' :: c :: rest) = some (left.length + 1) := by
  have hgutter : ∀ c ∈ left.toList ++ [' '], isGutter c = true := by
    intro d hd
    rcases List.mem_append.1 hd with hd | hd
    · exact hleft d hd
    · obtain rfl := List.mem_singleton.1 hd
      rfl
  rw [List.append_cons, borderColumn?_append hgutter h, Nat.zero_add, List.length_append,
    String.length_toList]
  rfl

/-- All rows of a snippet have the border in one column. -/
theorem borderColumn?_rows (s : Snippet) :
    ∀ row ∈ s.rows.map (textOf .plain), borderColumn? 0 row.toList = some (s.number.length + 1) := by
  have hpad : ∀ c ∈ s.pad.toList, isGutter c = true := fun c => isGutter_of_mem_repeated
  have hnumber : ∀ c ∈ s.number.toList, isGutter c = true := fun c => isGutter_of_mem_toString
  have hlength : s.pad.length = s.number.length := length_repeated ..
  rw [plain_rows]
  simp only [List.forall_mem_cons, String.toList_append, List.append_assoc]
  refine ⟨?_, ?_, ?_, ?_, fun row hrow => nomatch hrow⟩
  · rw [← hlength]
    exact borderColumn?_row hpad rfl _
  · rw [← hlength]
    exact borderColumn?_row hpad rfl _
  · exact borderColumn?_row hnumber rfl _
  · rw [← hlength]
    exact borderColumn?_row hpad rfl _

end Snippet

/-! ## Carets behind a line -/

/-- The bytes of a place in a text of which a part is shown. Either they are those of a character of
this part, or they start behind the part, and right behind it if the place is clamped to its end. -/
theorem Line.spanOf_cases {text shown : List Char} (h : shown <+: text) (start index : Nat) :
    let span := spanOf start text index
    (∃ before c after, shown = before ++ c :: after ∧ index = before.length ∧
      span.lo = start + Text.byteLength before ∧ span.hi = span.lo + c.utf8Size) ∨
    (shown.length ≤ index ∧ start + Text.byteLength shown ≤ span.lo ∧
      (span.lo = start + Text.byteLength shown ↔ min index text.length = shown.length)) := by
  intro span
  obtain ⟨rest, rfl⟩ := h
  rcases Nat.lt_or_ge index shown.length with hindex | hindex
  · obtain ⟨before, c, after, rfl, rfl⟩ :
        ∃ before c after, shown = before ++ c :: after ∧ index = before.length := by
      refine ⟨shown.take index, shown[index], shown.drop (index + 1), ?_, ?_⟩
      · rw [← List.drop_eq_getElem_cons hindex, List.take_append_drop]
      · rw [List.length_take]
        omega
    have hspan : span = { lo := start + Text.byteLength before,
                          hi := start + Text.byteLength before + c.utf8Size } := by
      show spanOf start (before ++ c :: after ++ rest) before.length = _
      rw [List.append_assoc, List.cons_append, spanOf_append]
    exact .inl ⟨before, c, after, rfl, rfl, by rw [hspan], by rw [hspan]⟩
  · have hlo : span.lo = start + Text.byteLength (shown ++ rest.take (index - shown.length)) := by
      rw [lo_spanOf, List.take_append, List.take_of_length_le hindex]
    have hnone : Text.byteLength (rest.take (index - shown.length)) = 0 ↔ _ :=
      Text.byteLength_eq_zero_iff
    rw [Text.byteLength_append, ← Nat.add_assoc] at hlo
    refine .inr ⟨hindex, by omega, ?_⟩
    rw [hlo, Nat.add_eq_left, hnone, List.take_eq_nil_iff, List.length_append,
      ← List.length_eq_zero_iff]
    omega

namespace Snippet

/-- The row of carets for the character with this index in the shown part of a line. Right behind the
shown part stands a single caret, and farther behind it nothing can be seen. -/
def caretsAt (shown : List Char) (index : Nat) : String :=
  let left := reach 0 (shown.take index)
  repeated ' ' left ++
    match shown[index]? with
    | some c => repeated '^' (widthAt left c)
    | none => if index = shown.length then "^" else " "

theorem caretsAt_length (before : List Char) (c : Char) (after : List Char) :
    caretsAt (before ++ c :: after) before.length =
      repeated ' ' (reach 0 before) ++ repeated '^' (widthAt (reach 0 before) c) := by
  rw [caretsAt, List.take_left]
  simp

theorem caretsAt_of_le {shown : List Char} {index : Nat} (h : shown.length ≤ index) :
    caretsAt shown index =
      repeated ' ' (reach 0 shown) ++ if index = shown.length then "^" else " " := by
  rw [caretsAt, List.take_of_length_le h, List.getElem?_eq_none h]

/-- The label of a place in a text is drawn at the place or where the text ends, whatever part of the
text is shown. -/
theorem join_underline_ofTrimmed {text shown : List Char} (h : shown <+: text) (fileName : String)
    (index column : Nat) :
    let s := ofTrimmed fileName index text shown column
    String.join ((s.cells ++ [s.placeholder]).map Cell.underline) =
      caretsAt shown (min (column - 1) text.length) := by
  intro s
  let label := Label.ofSpan 0 (Line.spanOf 0 text (column - 1))
  have hlabel : label = Label.ofSpan 0 (Line.spanOf 0 text (column - 1)) := rfl
  have hlength := h.length_le
  obtain ⟨before, c, after, rfl, hindex, hlo, hhi⟩ | ⟨hindex, hlo, hend⟩ :=
    Line.spanOf_cases h 0 (column - 1)
  · have hsize := c.utf8Size_pos
    have hbefore : min (column - 1) text.length = before.length := by
      rw [List.length_append] at hlength
      omega
    have hfirst : label.first = Text.byteLength before := by
      simp only [hlabel, Label.ofSpan]
      omega
    have hpast : label.past = Text.byteLength before + c.utf8Size := by
      simp only [hlabel, Label.ofSpan]
      omega
    rw [hbefore, caretsAt_length]
    exact join_underline_char hfirst hpast
  · rw [Nat.zero_add] at hlo hend
    rw [caretsAt_of_le (by omega)]
    simp only [← hend]
    exact join_underline_past hlo

end Snippet

/-! ## Blocks in the file and outside -/

namespace Block

variable {f : SourceFile} {r : Record} {l : Line}

theorem plain_rows_of_line (hline : f.line? r.position.line = some l) :
    let number := toString r.position.line
    let pad := Snippet.repeated ' ' number.length
    let snippet :=
      [pad ++ " ┌─ " ++ f.name ++ ":" ++ number ++ ":" ++
         toString (min r.position.column (l.text.length + 1)),
       pad ++ " │",
       number ++ " │ " ++ Snippet.expand 0 l.shown,
       pad ++ " │ " ++ Snippet.caretsAt l.shown (min (r.position.column - 1) l.text.length)]
    (ofRecord f r).rows.map (textOf .plain) =
        ("error[" ++ r.code ++ "]: " ++ r.message) :: snippet ++ [""] ∧
      ∀ row ∈ snippet, Snippet.borderColumn? 0 row.toList = some (number.length + 1) := by
  let s := Snippet.ofTrimmed f.name (r.position.line - 1) l.text l.shown r.position.column
  have hblock : ofRecord f r = ⟨r.code, r.message, .snippet s⟩ := by
    rw [ofRecord_eq_ofTrimmed, hline]
    rfl
  have hnumber : s.number = toString r.position.line :=
    congrArg toString (r.position.line_behind_pred _)
  have hcolumn : s.locus.column = min r.position.column (l.text.length + 1) :=
    r.position.column_behind_min ..
  have hshown : String.join (s.cells.map Snippet.Cell.shown) = Snippet.expand 0 l.shown :=
    Snippet.join_shown_layOut ..
  have hcarets : String.join ((s.cells ++ [s.placeholder]).map Snippet.Cell.underline) =
      Snippet.caretsAt l.shown (min (r.position.column - 1) l.text.length) :=
    Snippet.join_underline_ofTrimmed l.shown_isPrefix_text ..
  have hrows := s.plain_rows
  have hborder := s.borderColumn?_rows
  rw [hrows] at hborder
  rw [Snippet.pad, hnumber, hcolumn, hshown, hcarets] at hrows hborder
  refine ⟨?_, hborder⟩
  rw [hblock, plain_rows, Body.rows, hrows]
  rfl

theorem plain_rows_of_no_line (hline : f.line? r.position.line = none) :
    (ofRecord f r).rows.map (textOf .plain) =
      ["error[" ++ r.code ++ "]: " ++ r.message, " = at " ++ r.position.render, ""] := by
  have hblock : ofRecord f r = ⟨r.code, r.message, .note r.position⟩ := by
    rw [ofRecord_eq_ofTrimmed, hline]
    rfl
  rw [hblock, plain_rows, Body.rows, List.map_singleton, plain_noteRow]
  rfl

end Block

/-- **Rich output shows every record in the file.** Whatever session a report comes from, no lookup
for its rich output fails, only a writer can, and all that is written is a block for every record, in
order. The rows of a block begin with the code, which is not empty, and the message. If the file has
the line of the record, four rows of a snippet follow, with one border, the number of the line, the
line itself, and carets; they name and point at the column of the record or, if the line ends before
it, the column behind its last character, and the span that they point at does not leave the line. If
the file does not have the line, a note of the position follows. -/
theorem rich_output_is_clamped {steps : List Step} {index : Nat} {report : Report}
    (h : (State.initial.run steps).2.reports[index]? = some report) (f : SourceFile) :
    let read (reading : ReportReading) : Answer :=
      ((State.initial.run steps).2.step (.readReport index reading)).1
    let rows (r : Record) : List (List Piece) := (Block.ofRecord f r).rows
    let text (medium : Medium) : String := String.join (report.records.map fun r =>
      String.join ((rows r).map fun row => textOf medium row ++ "\n"))
    report.drawn? f = .ok (report.blocks f) ∧
    (∀ color medium limit, read (.emit f { style := .rich, color } medium limit) =
      .written (writeWhole limit (text medium))) ∧
    (∀ color, read (.emitToStandardError f { style := .rich, color }) =
      .standardError (text color.medium)) ∧
    report.records.Pairwise (fun a b => a.le b = true) ∧
    ∀ r ∈ report.records,
      let header := "error[" ++ r.code ++ "]: " ++ r.message
      let visible := (rows r).map (textOf .plain)
      r.code ≠ "" ∧
      (r.position.line ≤ 1 + f.source.toList.count '\n' →
        ∃ l span, f.line? r.position.line = some l ∧
          f.charRange r.position = some span ∧
          l.start ≤ span.lo ∧ span.hi ≤ l.start + Text.byteLength l.text ∧
          (f.positionAt span.lo).line = r.position.line ∧
          (f.positionAt span.hi).line = r.position.line ∧
          (f.positionAt span.lo).column = min r.position.column (l.text.length + 1) ∧
          let number := toString r.position.line
          let pad := Snippet.repeated ' ' number.length
          let snippet :=
            [pad ++ " ┌─ " ++ f.name ++ ":" ++ number ++ ":" ++
               toString (min r.position.column (l.text.length + 1)),
             pad ++ " │",
             number ++ " │ " ++ Snippet.expand 0 l.shown,
             pad ++ " │ " ++
               Snippet.caretsAt l.shown (min (r.position.column - 1) l.text.length)]
          visible = header :: snippet ++ [""] ∧
          ∀ row ∈ snippet, Snippet.borderColumn? 0 row.toList = some (number.length + 1)) ∧
      (1 + f.source.toList.count '\n' < r.position.line →
        visible = [header, " = at " ++ r.position.render, ""]) := by
  intro read rows text
  have hread (reading : ReportReading) : read reading = (reading.answer report).value :=
    State.step_readReport h reading
  have htext (medium : Medium) : String.join (report.chunks f .rich medium) = text medium := by
    rw [Report.join_chunks_rich, Block.texts]
    simp only [Block.text_eq_rows]
    rfl
  refine ⟨report.drawn?_eq f, ?_, ?_, report.ordered, ?_⟩
  · intro color medium limit
    rw [hread, ← htext, ← write_eq_writeWhole]
    rfl
  · intro color
    rw [hread, ← htext]
    rfl
  intro r hr header visible
  obtain ⟨kind, p, hkind⟩ := exists_ofKind_of_mem (List.mem_of_getElem? h) hr
  refine ⟨hkind ▸ kind.code_ne_empty, ?_, ?_⟩
  · intro hcount
    cases hline : f.line? r.position.line with
    | none => exact absurd (SourceFile.line?_eq_none_iff.1 hline) (Nat.not_lt.2 hcount)
    | some l =>
      obtain ⟨span, hspan, hstart, hend, hlo, hhi, hcolumn⟩ :=
        SourceFile.exists_charRange_of_line hline
      obtain ⟨hrows, hborder⟩ := Block.plain_rows_of_line hline
      exact ⟨l, span, rfl, hspan, hstart, hend, hlo, hhi, hcolumn, hrows, hborder⟩
  · intro hcount
    exact Block.plain_rows_of_no_line (SourceFile.line?_eq_none_iff.2 hcount)

/-- A text whose second line begins with a tab. -/
def tabbed : SourceFile := .ofText "input.asl" "\n\tb := 1\r\n"

/-- An error behind the end of that line, found after one in a line that the text does not have. -/
def strays : List Step :=
  [.append (.atNode .incompatibleReturn (.position 99 1)),
    .append (.atNode .booleanRequired (.position 2 40)), .finish]

def strayLine : Record := .ofKind .incompatibleReturn (.behind 98 0)

def strayColumn : Record := .ofKind .booleanRequired (.behind 1 39)

theorem rich_output_is_clamped_of_strays :
    let report := Report.ofRecords [strayLine, strayColumn]
    (State.initial.run strays).2.reports[0]? = some report ∧
      (Block.ofRecord tabbed strayLine).rows.map (textOf .plain) =
        ["error[incompatibleReturn]: return with incompatible type", " = at 99.1", ""] ∧
      (Block.ofRecord tabbed strayColumn).rows.map (textOf .plain) =
        ["error[booleanRequired]: boolean condition required",
         "  ┌─ input.asl:2:8",
         "  │",
         "2 │     b := 1",
         "  │           ^",
         ""] := by
  intro report
  have h : (State.initial.run strays).2.reports[0]? = some report := rfl
  have hmem (r : Record) (hr : r ∈ [strayLine, strayColumn]) : r ∈ report.records :=
    (Record.sort_perm _).mem_iff.2 hr
  obtain ⟨-, -, -, -, hrecords⟩ := rich_output_is_clamped h tabbed
  obtain ⟨-, -, hnote⟩ := hrecords strayLine (hmem strayLine (by decide))
  obtain ⟨-, hline, -⟩ := hrecords strayColumn (hmem strayColumn (by decide))
  obtain ⟨l, span, hl, -, -, -, -, -, -, hrows, -⟩ := hline (by decide)
  obtain rfl : Line.mk 1 "\tb := 1\r\n".toList = l := Option.some.inj hl
  exact ⟨h, (hnote (by decide)).trans (by decide), hrows.trans (by decide +kernel)⟩

end SemanticDiagnostics
