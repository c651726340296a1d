import SemanticDiagnostics.Proofs.Clamping

/-! # Carets below a character

The source row and the row of carets are written by separate passes over the cells of a line. They
stay in step whatever the line is made of: the blanks before the carets are as many columns as the
printed text takes that stands before the character, and the carets as many as the character takes.
This is so for every medium; one with colors marks the character and the carets. -/
namespace SemanticDiagnostics
open Output

/-! ## The width of printed text -/

namespace Text

/-- How many columns some characters take. A tab is counted as a control character. -/
def columns : List Char → Nat
  | [] => 0
  | c :: cs => width c + columns cs

theorem columns_append (as bs : List Char) : columns (as ++ bs) = columns as + columns bs := by
  induction as with
  | nil => exact (Nat.zero_add _).symm
  | cons a as ih => rw [List.cons_append, columns, ih, columns, Nat.add_assoc]

theorem columns_replicate (n : Nat) (c : Char) : columns (List.replicate n c) = n * width c := by
  induction n with
  | zero => exact (Nat.zero_mul _).symm
  | succ n ih => rw [List.replicate_succ, columns, ih, Nat.succ_mul, Nat.add_comm]

/-- How many columns a text takes. The source row has no tabs, whose width depends on the column. -/
def displayWidth (s : String) : Nat := columns s.toList

theorem displayWidth_append (s t : String) :
    displayWidth (s ++ t) = displayWidth s + displayWidth t := by
  rw [displayWidth, String.toList_append, columns_append]
  rfl

end Text

namespace Snippet

variable {column : Nat} {c : Char} {cs : List Char}

theorem displayWidth_showAt (column : Nat) (c : Char) :
    Text.displayWidth (showAt column c) = widthAt column c := by
  have hblank : Text.width ' ' = 1 := Text.width_of_printable (by decide)
  by_cases h : c = '\t'
  · rw [showAt, if_pos h, Text.displayWidth, repeated, String.toList_ofList, Text.columns_replicate,
      hblank, Nat.mul_one]
  · rw [showAt, if_neg h, widthAt, if_neg h]
    simp [Text.displayWidth, Text.columns]

theorem displayWidth_expand (column : Nat) (cs : List Char) :
    column + Text.displayWidth (expand column cs) = reach column cs := by
  induction cs generalizing column with
  | nil => rfl
  | cons c cs ih =>
    rw [expand, Text.displayWidth_append, displayWidth_showAt, ← Nat.add_assoc, ih, reach]

theorem reach_zero (cs : List Char) : reach 0 cs = Text.displayWidth (expand 0 cs) := by
  rw [← displayWidth_expand, Nat.zero_add]

theorem tab_not_mem_showAt : '\t' ∉ (showAt column c).toList := by
  intro h
  obtain hblank | ⟨htab, hc⟩ := of_mem_showAt h
  · exact absurd hblank (by decide)
  · exact hc htab.symm

theorem tab_not_mem_expand : '\t' ∉ (expand column cs).toList := by
  induction cs generalizing column with
  | nil => exact List.not_mem_nil
  | cons c cs ih =>
    rw [expand, String.toList_append, List.mem_append]
    exact not_or.2 ⟨tab_not_mem_showAt, ih⟩

/-- A tab is shown as blanks up to the next tab stop. -/
theorem showAt_tab (column : Nat) :
    ∃ n, 0 < n ∧ n ≤ tabStop ∧ tabStop ∣ column + n ∧ showAt column '\t' = repeated ' ' n := by
  have hmod : column % tabStop < tabStop := Nat.mod_lt _ (by decide)
  refine ⟨tabStop - column % tabStop, by omega, by omega, ?_, rfl⟩
  exact ⟨column / tabStop + 1, by unfold tabStop at *; omega⟩

/-! ## The rows of a block -/

variable {medium : Medium}

/-- A text in the color of borders. -/
def framed (medium : Medium) (s : String) : String := textOf medium (Piece.styled border s)

/-- A row behind the number of its line and the border. -/
def numbered (medium : Medium) (line : Nat) (s : String) : String :=
  framed medium (toString line) ++ " " ++ framed medium "│" ++ " " ++ s

/-- A row behind the border, without a number. -/
def indented (medium : Medium) (line : Nat) (s : String) : String :=
  repeated ' ' (toString line).length ++ " " ++ framed medium "│" ++ " " ++ s

theorem textOf_sourceRow (s : Snippet) (medium : Medium) : textOf medium s.sourceRow =
    numbered medium s.locus.line (textOf medium (highlight false (texts Cell.shown s.cells))) := by
  simp only [sourceRow, textOf_append, textOf_cons, Piece.render, numbered, String.append_assoc]
  rfl

theorem textOf_caretRow (s : Snippet) (medium : Medium) : textOf medium s.caretRow =
    indented medium s.locus.line
      (textOf medium (highlight false (texts Cell.underline (s.cells ++ [s.placeholder])))) := by
  simp only [caretRow, emptyRow, List.cons_append, textOf_append, textOf_cons, Piece.render, indented,
    String.append_assoc]
  rfl

/-- Styles add no character that their escape sequences do not have. -/
theorem mem_textOf_styled {style : Style} {d : Char} (h : d ∉ style.escape.toList)
    (hreset : d ∉ (Style.escape {}).toList) (s : String) :
    d ∈ (textOf medium (Piece.styled style s)).toList ↔ d ∈ s.toList := by
  cases medium <;> simp [Piece.styled, Piece.render, Piece.reset, h, hreset]

/-- Only a text that has a tab makes a row with one. -/
theorem tab_not_mem_numbered (line : Nat) {s : String} (h : '\t' ∉ s.toList) :
    '\t' ∉ (numbered medium line s).toList := by
  have hnumber : '\t' ∉ (framed medium (toString line)).toList := by
    rw [framed, mem_textOf_styled (by decide) (by decide)]
    exact fun hmem => absurd (isGutter_of_mem_toString hmem) (by decide)
  have hborder : '\t' ∉ (framed medium "│").toList := by
    rw [framed, mem_textOf_styled (by decide) (by decide)]
    decide
  simp only [numbered, String.toList_append, List.mem_append, not_or]
  exact ⟨⟨⟨⟨hnumber, by decide⟩, hborder⟩, by decide⟩, h⟩

theorem tab_not_mem_mark {left pointed right : String}
    (h : '\t' ∉ (left ++ (pointed ++ right)).toList) :
    '\t' ∉ (left ++ (marked medium pointed ++ right)).toList := by
  simp only [String.toList_append, List.mem_append, not_or] at h ⊢
  refine ⟨h.1, ?_, h.2.2⟩
  rw [marked, mem_textOf_styled (by decide) (by decide)]
  exact h.2.1

theorem expand_append (column : Nat) (as bs : List Char) :
    expand column (as ++ bs) = expand column as ++ expand (reach column as) bs := by
  induction as generalizing column with
  | nil => exact (String.empty_append ..).symm
  | cons a as ih => rw [List.cons_append, expand, ih, expand, reach, String.append_assoc]

/-- In the source row a tab is blanks up to the next tab stop. -/
theorem exists_expand_tab (before after : List Char) :
    ∃ blanks, 0 < blanks ∧ blanks ≤ tabStop ∧
      tabStop ∣ Text.displayWidth (expand 0 before) + blanks ∧
      ∃ rest, expand 0 (before ++ '\t' :: after) =
        expand 0 before ++ (repeated ' ' blanks ++ rest) := by
  obtain ⟨blanks, hpos, hle, hstop, hshow⟩ := showAt_tab (reach 0 before)
  rw [reach_zero] at hstop
  refine ⟨blanks, hpos, hle, hstop, expand (reach 0 before + widthAt (reach 0 before) '\t') after, ?_⟩
  rw [expand_append, expand, hshow]

end Snippet

namespace Block

variable {f : SourceFile} {r : Record} {l : Line} {span : Span}

/-- The rows of a block are those of the label that its span makes in the line. -/
theorem rows_of_label (hline : f.line? r.position.line = some l)
    (hspan : f.charRange r.position = some span) (medium : Medium) :
    let label := Snippet.Label.ofSpan l.start span
    ∃ header locus border, (ofRecord f r).rows.map (textOf medium) =
      [header, locus, border,
       Snippet.numbered medium r.position.line (Snippet.sourceText medium label l.shown),
       Snippet.indented medium r.position.line (Snippet.caretText medium label l.shown),
       ""] := by
  intro label
  obtain rfl : l.charSpan r.position.column = span :=
    Option.some.inj ((SourceFile.charRange_of_line hline).symm.trans hspan)
  have hlo := SourceFile.positionAt_lo_charSpan hline r.position.column
  have hlineAt := SourceFile.lineAt_of_positionAt hline hlo rfl
  let s := Snippet.ofSpan f (l.charSpan r.position.column)
  have hcells : s.cells = Snippet.layOut label 0 0 l.shown := by
    simp only [s, Snippet.ofSpan, hlineAt, label]
  have hplaceholder : s.placeholder = .behind label l.shown := by
    simp only [s, Snippet.ofSpan, hlineAt, label]
  have hnumber : s.locus.line = r.position.line :=
    (congrArg Position.line hlo).trans (r.position.line_behind_pred _)
  have hsource := s.textOf_sourceRow medium
  have hcarets := s.textOf_caretRow medium
  rw [hnumber, hcells] at hsource
  rw [hnumber, hcells, hplaceholder] at hcarets
  have hrows : (ofRecord f r).rows.map (textOf medium) =
      [textOf medium (ofRecord f r).headRow, textOf medium s.locusRow, textOf medium s.emptyRow,
       textOf medium s.sourceRow, textOf medium s.caretRow, ""] := by
    rw [ofRecord_of_charRange hspan]
    rfl
  rw [hsource, hcarets] at hrows
  exact ⟨_, _, _, hrows⟩

/-- The rows for a place in a line. The source row has the character of the place between those before
and behind it, or no character is at the place and the source row is the whole line. -/
theorem rows_of_line (hline : f.line? r.position.line = some l)
    (hspan : f.charRange r.position = some span) (medium : Medium) :
    let index := r.position.column - 1
    let left := Snippet.expand 0 (l.shown.take index)
    let column := Text.displayWidth left
    ∃ header locus border source carets, (ofRecord f r).rows.map (textOf medium) =
        [header, locus, border, Snippet.numbered medium r.position.line source,
          Snippet.indented medium r.position.line (Snippet.repeated ' ' column ++ carets), ""] ∧
      ((∃ c,
          let pointed := Snippet.showAt column c
          l.shown[index]? = some c ∧ span.lo = l.start + Text.byteLength (l.shown.take index) ∧
          span.hi = span.lo + c.utf8Size ∧
          (∃ right, Snippet.expand 0 l.shown = left ++ (pointed ++ right) ∧
            source = left ++ (Snippet.marked medium pointed ++ right)) ∧
          carets = Snippet.marked medium (Snippet.repeated '^' (Text.displayWidth pointed))) ∨
        (l.shown.length ≤ index ∧ l.start + Text.byteLength l.shown ≤ span.lo ∧
          Snippet.expand 0 l.shown = left ∧ source = left ∧
          carets = if span.lo = l.start + Text.byteLength l.shown then Snippet.marked medium "^"
            else " ")) := by
  intro index left column
  obtain ⟨header, locus, border, hrows⟩ := rows_of_label hline hspan medium
  have hindexed : Line.spanOf l.start l.text index = span :=
    Option.some.inj ((SourceFile.charRange_of_line hline).symm.trans hspan)
  have hplace := Line.spanOf_cases l.shown_isPrefix_text l.start index
  rw [hindexed] at hplace
  obtain ⟨before, c, after, hshown, hindex, hlo, hhi⟩ | ⟨hindex, hlo, -⟩ := hplace
  -- The character is shown, and the label covers its bytes and no others.
  · have hbefore : l.shown.take index = before := by rw [hshown, hindex, List.take_left]
    have hchar : l.shown[index]? = some c := by
      rw [hshown, hindex, List.getElem?_append_right (Nat.le_refl _), Nat.sub_self]
      rfl
    have hfirst : span.lo - l.start = Text.byteLength before := by omega
    have hpast : max (span.hi - l.start) (span.lo - l.start + 1) =
        Text.byteLength before + c.utf8Size := by
      have hsize := c.utf8Size_pos
      omega
    obtain ⟨hsource, hcarets⟩ :=
      Snippet.rows_char medium (.ofSpan l.start span) after hfirst hpast
    have hexpand := Snippet.expand_append 0 before (c :: after)
    rw [← hshown, ← hbefore, Snippet.reach_zero] at hsource hcarets hexpand
    rw [← Snippet.displayWidth_showAt] at hcarets
    rw [← hbefore] at hlo
    rw [hcarets] at hrows
    exact ⟨header, locus, border, _, _, hrows,
      .inl ⟨c, hchar, hlo, hhi, ⟨_, hexpand, hsource⟩, rfl⟩⟩
  -- The label starts behind all that is shown, right behind it or past NUL characters.
  · have hleft : Snippet.expand 0 l.shown = left :=
      (congrArg (Snippet.expand 0) (List.take_of_length_le hindex)).symm
    have hfirst : Text.byteLength l.shown ≤ span.lo - l.start := by omega
    have hend : span.lo = l.start + Text.byteLength l.shown ↔
        span.lo - l.start = Text.byteLength l.shown := by omega
    obtain ⟨hsource, hcarets⟩ := Snippet.rows_past medium (.ofSpan l.start span) hfirst
    rw [hsource, hcarets, Snippet.reach_zero, hleft] at hrows
    refine ⟨header, locus, border, left, _, hrows, .inr ⟨hindex, hlo, hleft, rfl, ?_⟩⟩
    simp only [hend]
    rfl

/-- A report shows the rows of a block one under the other, between the blocks of other records. -/
theorem exists_emit_rich {report : Report} (h : r ∈ report.records) (f : SourceFile)
    (medium : Medium) :
    ∃ earlier rest, report.records = earlier ++ r :: rest ∧
      ∀ color, (report.emit f { style := .rich, color } medium none).value =
        .complete (texts medium f earlier ++
          (String.join (((ofRecord f r).rows.map (textOf medium)).map (· ++ "\n")) ++
            texts medium f rest)) := by
  obtain ⟨earlier, rest, hrecords⟩ := List.append_of_mem h
  refine ⟨earlier, rest, hrecords, fun color => ?_⟩
  rw [report.emit_rich, hrecords, texts_append, texts_cons, text_eq_rows, List.map_map]
  rfl

end Block

/-- **Carets stand below the character.** A record stands in a line of a file, at a place that starts
not behind the end of the shown part of the line. For every medium its block has a source row and a
row of carets behind the same border. The source row holds no tab: those of the line are shown as
blanks up to the next multiple of four columns. In front of the carets stand as many blanks as the
text of the source row in front of the character takes columns. If the shown part has the character,
carets follow for as many columns as the character takes in the source row; if it ends before the
character, a single caret follows, right behind its end. Nothing follows the carets. -/
theorem carets_stand_below_the_character {f : SourceFile} {r : Record} {l : Line} {span : Span}
    (hline : f.line? r.position.line = some l) (hspan : f.charRange r.position = some span)
    (hlo : span.lo ≤ l.start + Text.byteLength l.shown) (medium : Medium) :
    let index := r.position.column - 1
    let left := Snippet.expand 0 (l.shown.take index)
    let column := Text.displayWidth left
    ∃ header locus border source carets,
      let above := Snippet.numbered medium r.position.line source
      let below := Snippet.indented medium r.position.line
        (Snippet.repeated ' ' column ++ Snippet.marked medium (Snippet.repeated '^' carets))
      let rows := [header, locus, border, above, below, ""]
      (Block.ofRecord f r).rows.map (textOf medium) = rows ∧
      (∀ report : Report, r ∈ report.records →
        ∃ earlier rest, report.records = earlier ++ r :: rest ∧
          ∀ color, (report.emit f { style := .rich, color } medium none).value =
            .complete (Block.texts medium f earlier ++
              (String.join (rows.map (· ++ "\n")) ++ Block.texts medium f rest))) ∧
      '\t' ∉ above.toList ∧
      (∀ before after, l.shown = before ++ '\t' :: after →
        ∃ blanks, 0 < blanks ∧ blanks ≤ 4 ∧
          4 ∣ Text.displayWidth (Snippet.expand 0 before) + blanks ∧
          ∃ rest, Snippet.expand 0 l.shown =
            Snippet.expand 0 before ++ (Snippet.repeated ' ' blanks ++ rest)) ∧
      ((∃ c, l.shown[index]? = some c ∧
          span.lo = l.start + Text.byteLength (l.shown.take index) ∧
          span.hi = span.lo + c.utf8Size ∧
          let pointed := Snippet.showAt column c
          carets = Text.displayWidth pointed ∧
          ∃ right, Snippet.expand 0 l.shown = left ++ (pointed ++ right) ∧
            source = left ++ (Snippet.marked medium pointed ++ right)) ∨
        (l.shown.length ≤ index ∧ span.lo = l.start + Text.byteLength l.shown ∧ carets = 1 ∧
          Snippet.expand 0 l.shown = left ∧ source = left)) := by
  intro index left column
  obtain ⟨header, locus, border, source, carets, hrows, hplace⟩ :=
    Block.rows_of_line hline hspan medium
  have hemit {report : Report} (h : r ∈ report.records) := Block.exists_emit_rich h f medium
  rw [hrows] at hemit
  have htab : '\t' ∉ (Snippet.expand 0 l.shown).toList := Snippet.tab_not_mem_expand
  have hstops {before after : List Char} (h : l.shown = before ++ '\t' :: after) :
      ∃ blanks, 0 < blanks ∧ blanks ≤ 4 ∧
        4 ∣ Text.displayWidth (Snippet.expand 0 before) + blanks ∧
        ∃ rest, Snippet.expand 0 l.shown =
          Snippet.expand 0 before ++ (Snippet.repeated ' ' blanks ++ rest) := by
    rw [h]
    exact Snippet.exists_expand_tab before after
  obtain ⟨c, hchar, hbegin, hend, ⟨right, hexpand, rfl⟩, rfl⟩ |
    ⟨hindex, hbegin, hleft, rfl, rfl⟩ := hplace
  · rw [hexpand] at htab
    exact ⟨header, locus, border, _, _, hrows, fun report h => hemit h,
      Snippet.tab_not_mem_numbered _ (Snippet.tab_not_mem_mark htab), fun before after h => hstops h,
      .inl ⟨c, hchar, hbegin, hend, rfl, right, hexpand, rfl⟩⟩
  -- By the bound on its start, the span is right behind what is shown, where a caret is drawn.
  · have hend : span.lo = l.start + Text.byteLength l.shown := Nat.le_antisymm hlo hbegin
    rw [if_pos hend] at hrows hemit
    rw [hleft] at htab
    exact ⟨header, locus, border, left, 1, hrows, fun report h => hemit h,
      Snippet.tab_not_mem_numbered _ htab, fun before after h => hstops h,
      .inr ⟨hindex, hend, rfl, hleft, rfl⟩⟩

/-- A line with a tab and a character of two columns. -/
def alignedText : SourceFile := .ofText "input.asl" "\t字 := 1\r\n"

def alignedLine : Line := ⟨0, ['\t', '字', ' ', ':', '=', ' ', '1', '\r', '\n']⟩

theorem carets_stand_below_the_character_of_wide :
    let inside : Record := .ofKind .booleanRequired (.behind 0 1)
    let past : Record := .ofKind .incompatibleReturn (.behind 0 39)
    alignedText.line? 1 = some alignedLine ∧
      alignedText.charRange inside.position = some ⟨1, 4, by decide⟩ ∧
      alignedText.charRange past.position = some ⟨9, 9, by decide⟩ ∧
      alignedLine.start + Text.byteLength alignedLine.shown = 9 ∧
      (∃ header locus border, (Block.ofRecord alignedText inside).rows.map (textOf .plain) =
        [header, locus, border,
         "1 │     字 := 1",
         "  │     ^^",
         ""]) ∧
      (∃ header locus border, (Block.ofRecord alignedText past).rows.map (textOf .plain) =
        [header, locus, border,
         "1 │     字 := 1",
         "  │            ^",
         ""]) := by
  intro inside past
  have hline : alignedText.line? 1 = some alignedLine := by decide
  have hinside : alignedText.charRange inside.position = some ⟨1, 4, by decide⟩ := by decide
  have hpast : alignedText.charRange past.position = some ⟨9, 9, by decide⟩ := by decide
  have hshown : alignedLine.start + Text.byteLength alignedLine.shown = 9 := by decide
  refine ⟨hline, hinside, hpast, hshown, ?_, ?_⟩
  · obtain ⟨header, locus, border, source, carets, hrows, -, -, -, hplace⟩ :=
      carets_stand_below_the_character hline hinside (by decide) .plain
    obtain ⟨c, hchar, -, -, rfl, right, hexpand, rfl⟩ | ⟨hindex, -⟩ := hplace
    · obtain rfl : '字' = c := Option.some.inj hchar
      rw [Snippet.marked, textOf_plain_styled, ← hexpand] at hrows
      refine ⟨header, locus, border, hrows.trans ?_⟩
      simp only [List.cons.injEq, true_and, and_true]
      decide +kernel
    · exact absurd hindex (by decide)
  · obtain ⟨header, locus, border, source, carets, hrows, -, -, -, hplace⟩ :=
      carets_stand_below_the_character hline hpast (Nat.le_of_eq hshown.symm) .plain
    obtain ⟨c, hchar, -⟩ | ⟨-, -, rfl, -, rfl⟩ := hplace
    · cases hchar
    · refine ⟨header, locus, border, hrows.trans ?_⟩
      simp only [List.cons.injEq, true_and, and_true]
      decide +kernel

end SemanticDiagnostics
