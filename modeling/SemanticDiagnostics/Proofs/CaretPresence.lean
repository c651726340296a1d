import SemanticDiagnostics.Proofs.Alignment

/-! # Snippets without a caret

A caret is as wide as what it stands under. The row of carets is blank where a record points at a
character that takes no column, such as a combining mark, and behind a NUL character at the end of a
line, which is cut off for display but not for labels. Everywhere else in a line it has a caret. -/
namespace SemanticDiagnostics
open Session Output

namespace Snippet

variable {medium : Medium}

theorem caret_mem_repeated {width : Nat} : '^' ∈ (repeated '^' width).toList ↔ width ≠ 0 := by
  rw [repeated, String.toList_ofList, List.mem_replicate]
  exact and_iff_left rfl

theorem caret_mem_marked (s : String) : '^' ∈ (marked medium s).toList ↔ '^' ∈ s.toList :=
  mem_textOf_styled (by decide) (by decide) s

/-- Neither the border nor the blanks behind it have a caret. -/
theorem caret_mem_indented (line column : Nat) (s : String) :
    '^' ∈ (indented medium line (repeated ' ' column ++ s)).toList ↔ '^' ∈ s.toList := by
  have hblanks (width : Nat) : '^' ∉ (repeated ' ' width).toList :=
    fun hmem => absurd (eq_of_mem_repeated hmem) (by decide)
  have hborder : '^' ∉ (framed medium "│").toList := by
    rw [framed, mem_textOf_styled (by decide) (by decide)]
    decide
  have hblank : '^' ∉ " ".toList := by decide
  simp only [indented, String.toList_append, List.mem_append, hblanks, hborder, hblank, or_false,
    false_or]

/-- Every tab is shown by at least one blank. -/
theorem widthAt_ne_zero {column : Nat} {c : Char} :
    widthAt column c ≠ 0 ↔ c = '\t' ∨ Text.width c ≠ 0 := by
  unfold widthAt
  split
  · rename_i htab
    have hmod : column % tabStop < tabStop := Nat.mod_lt _ (by decide)
    exact iff_of_true (Nat.sub_ne_zero_of_lt hmod) (.inl htab)
  · rename_i htab
    exact (or_iff_right htab).symm

end Snippet

/-- **Where a snippet has a caret.** In the block of a record whose line the file has, the last row
of the snippet has a caret exactly if the shown part of the line has a character in the column of the
record that is a tab or takes a column, or if the record points right behind the shown part. This is
so for every medium. -/
theorem caret_iff_visible {f : SourceFile} {r : Record} {l : Line} {span : Span}
    (hline : f.line? r.position.line = some l) (hspan : f.charRange r.position = some span)
    (medium : Medium) :
    ∃ header locus border source carets,
      (Block.ofRecord f r).rows.map (textOf medium) =
        [header, locus, border, source, carets, ""] ∧
      ('^' ∈ carets.toList ↔
        (∃ c, l.shown[r.position.column - 1]? = some c ∧ (c = '\t' ∨ Text.width c ≠ 0)) ∨
        span.lo = l.start + Text.byteLength l.shown) := by
  obtain ⟨header, locus, border, source, carets, hrows, hplace⟩ :=
    Block.rows_of_line hline hspan medium
  refine ⟨header, locus, border, _, _, hrows, ?_⟩
  rw [Snippet.caret_mem_indented]
  obtain ⟨c, hchar, hlo, -, -, rfl⟩ | ⟨hindex, hlo, -, -, rfl⟩ := hplace
  -- A shown character has carets as wide as itself, and its span starts before the end.
  · have hbefore := Text.byteLength_take_lt hchar
    have hinside : span.lo ≠ l.start + Text.byteLength l.shown := by omega
    rw [Snippet.caret_mem_marked, Snippet.caret_mem_repeated, Snippet.displayWidth_showAt,
      Snippet.widthAt_ne_zero, or_iff_left hinside, hchar]
    simp only [Option.some.injEq, exists_eq_left']
  -- Behind what is shown there is only the placeholder.
  · have hnone : ¬∃ c, l.shown[r.position.column - 1]? = some c ∧
        (c = '\t' ∨ Text.width c ≠ 0) := by
      rw [List.getElem?_eq_none hindex]
      exact fun ⟨c, hc, _⟩ => nomatch hc
    rw [or_iff_right hnone]
    split
    · rename_i hend
      exact iff_of_true ((Snippet.caret_mem_marked "^").2 (by decide)) hend
    · rename_i hend
      exact iff_of_false (by decide) hend

/-- A line with a combining mark, and one that ends in two NUL characters. -/
def blindText : SourceFile := .ofText "input.asl" "e\u0301 := 1\na\x00\x00\n"

def accentLine : Line := ⟨0, ['e', '\u0301', ' ', ':', '=', ' ', '1', '\n']⟩

def nulLine : Line := ⟨9, ['a', '\x00', '\x00', '\n']⟩

/-- An error at the combining mark. -/
def atAccent : Record := .ofKind .booleanRequired (.behind 0 1)

/-- An error at the second NUL character. -/
def atNul : Record := .ofKind .booleanRequired (.behind 1 2)

theorem caret_iff_visible_of_nul :
    blindText.line? 2 = some nulLine ∧
      blindText.charRange atNul.position = some ⟨11, 12, by decide⟩ ∧
      nulLine.start + Text.byteLength nulLine.shown = 10 ∧
      ∃ header locus border source carets,
        (Block.ofRecord blindText atNul).rows.map (textOf .ansi) =
          [header, locus, border, source, carets, ""] ∧
        '^' ∉ carets.toList := by
  have hline : blindText.line? 2 = some nulLine := by decide
  have hspan : blindText.charRange atNul.position = some ⟨11, 12, by decide⟩ := by decide
  have hshown : nulLine.start + Text.byteLength nulLine.shown = 10 := by decide
  obtain ⟨header, locus, border, source, carets, hrows, hcaret⟩ :=
    caret_iff_visible hline hspan .ansi
  refine ⟨hline, hspan, hshown, header, locus, border, source, carets, hrows, hcaret.not.2 ?_⟩
  rintro (⟨c, hc, -⟩ | hend)
  · exact nomatch hc
  · exact absurd hend (by decide)

/-- Errors at the combining mark and at the second NUL character. -/
def blindSteps : List Step :=
  [.append (.atNode .booleanRequired (.position 1 2)),
    .append (.atNode .booleanRequired (.position 2 3)), .finish]

/-- A report may have records whose lines the file has and whose snippets have no caret. -/
theorem not_every_snippet_has_caret :
    ¬ ∀ (steps : List Step) (index : Nat) (report : Report) (f : SourceFile) (r : Record) (l : Line),
      (State.initial.run steps).2.reports[index]? = some report → r ∈ report.records →
        f.line? r.position.line = some l →
          ∃ row, ((Block.ofRecord f r).rows.map (textOf .plain))[4]? = some row ∧
            '^' ∈ row.toList := by
  intro hall
  have hreport : (State.initial.run blindSteps).2.reports[0]? =
      some (Report.ofRecords [atAccent, atNul]) := rfl
  have hmem : atAccent ∈ (Report.ofRecords [atAccent, atNul]).records :=
    (Record.sort_perm _).mem_iff.2 List.mem_cons_self
  obtain ⟨row, hrow, hcaret⟩ := hall blindSteps 0 _ blindText atAccent accentLine hreport hmem
    (by decide)
  have hblank : ((Block.ofRecord blindText atAccent).rows.map (textOf .plain))[4]? =
      some "  │  " := by decide +kernel
  obtain rfl := Option.some.inj (hblank.symm.trans hrow)
  exact absurd hcaret (by decide)

end SemanticDiagnostics
