import SemanticDiagnostics.Output
import SemanticDiagnostics.SourceFile
import SemanticDiagnostics.Text.Width

/-!
Snippets: the line of the source that a span starts on, with carets under the span. Every character of
the line gets a cell as wide as the terminal shows it; the carets stand under the cells that a label
covers. The rows of a snippet share a gutter as wide as the number of the line.
-/

namespace SemanticDiagnostics

open Output

/-! ## The layout of a line -/

namespace Snippet

/-- A stretch of at least one byte, counted from the start of the line. -/
structure Label where
  first : Nat
  past : Nat
  first_lt_past : first < past := by omega
  deriving DecidableEq

namespace Label

/-- The label of a span in a line that starts at `lineStart`. An empty span is drawn as one byte. -/
def ofSpan (lineStart : Nat) (s : Span) : Label :=
  { first := s.lo - lineStart
    past := max (s.hi - lineStart) (s.lo - lineStart + 1) }

/-- Whether the label shares a byte with the `size` bytes from `offset` on. -/
def covers (l : Label) (offset size : Nat) : Bool := max offset l.first < min (offset + size) l.past

end Label

structure Cell where
  /-- How the source row shows the character. -/
  shown : String
  /-- How many columns it takes. -/
  width : Nat
  /-- Whether the label covers it. -/
  covered : Bool
  /-- Whether it starts before the label ends. -/
  ahead : Bool
  deriving DecidableEq, Repr

def repeated (c : Char) (width : Nat) : String := String.ofList (List.replicate width c)

theorem repeated_add (c : Char) (m n : Nat) : repeated c (m + n) = repeated c m ++ repeated c n := by
  rw [repeated, ← List.replicate_append_replicate, String.ofList_append]
  rfl

theorem eq_of_mem_repeated {c d : Char} {width : Nat} (h : d ∈ (repeated c width).toList) : d = c := by
  rw [repeated, String.toList_ofList] at h
  exact List.eq_of_mem_replicate h

/-- What stands under the cell: carets if it is covered, blanks up to the end of the label. -/
def Cell.underline (c : Cell) : String :=
  if c.covered then repeated '^' c.width else if c.ahead then repeated ' ' c.width else ""

/-- Tabs reach to the next multiple of this many columns. -/
def tabStop : Nat := 4

/-- How many columns a character takes that starts in a column. -/
def widthAt (column : Nat) (c : Char) : Nat :=
  if c = '\t' then tabStop - column % tabStop else Text.width c

/-- How the source row shows a character: a tab as blanks, all else as it is. -/
def showAt (column : Nat) (c : Char) : String :=
  if c = '\t' then repeated ' ' (widthAt column c) else String.singleton c

/-- A character is shown by blanks, or by itself if it is no tab. -/
theorem of_mem_showAt {column : Nat} {c d : Char} (h : d ∈ (showAt column c).toList) :
    d = ' ' ∨ d = c ∧ c ≠ '\t' := by
  unfold showAt at h
  split at h
  · exact .inl (eq_of_mem_repeated h)
  · rename_i hc
    exact .inr ⟨by simpa using h, hc⟩

/-- The cell of a character at an offset and in a column. -/
def Cell.ofChar (label : Label) (offset column : Nat) (c : Char) : Cell :=
  { shown := showAt column c
    width := widthAt column c
    covered := label.covers offset c.utf8Size
    ahead := offset < label.past }

/-- The cells of the characters that follow an offset and a column. -/
def layOut (label : Label) : Nat → Nat → List Char → List Cell
  | _, _, [] => []
  | offset, column, c :: cs =>
    .ofChar label offset column c ::
      layOut label (offset + c.utf8Size) (column + widthAt column c) cs

/-- The cell behind the line, one column wide, where labels of empty spans are drawn. -/
def Cell.behind (label : Label) (cs : List Char) : Cell :=
  { shown := ""
    width := 1
    covered := label.covers (Text.byteLength cs) 1
    ahead := Text.byteLength cs < label.past }

end Snippet

/-! ## Snippets -/

/-- A line of a file laid out for display. -/
structure Snippet where
  fileName : String
  /-- The place that the carets point at. -/
  locus : Position
  /-- The shown characters of the line. -/
  cells : List Snippet.Cell
  /-- The cell behind them. -/
  placeholder : Snippet.Cell
  deriving DecidableEq

namespace Snippet

def ofSpan (file : SourceFile) (s : Span) : Snippet :=
  let line := file.lineAt s.lo
  let label := Label.ofSpan line.start s
  { fileName := file.name
    locus := file.positionAt s.lo
    cells := layOut label 0 0 line.shown
    placeholder := .behind label line.shown }

/-- The color of line numbers and borders. -/
def border : Style := { color := some .blue }

/-- The color of what the label covers. -/
def marker : Style := { color := some .red }

/-- The change of style between two texts, by whether they are marked. -/
def switch : Bool → Bool → List Piece
  | false, true => [.style marker]
  | true, false => [.reset]
  | false, false | true, true => []

/-- Texts of which some are marked, each stretch of marked ones in the color of the label. The flag
says whether the text before was marked. -/
def highlight : Bool → List (Bool × String) → List Piece
  | lit, [] => switch lit false
  | lit, (mark, s) :: rest => switch lit mark ++ .text s :: highlight mark rest

/-- Without styles, a highlighted row is its texts. -/
theorem render_plain_highlight (lit : Bool) (texts : List (Bool × String)) :
    String.join ((highlight lit texts).map (Piece.render .plain)) =
      String.join (texts.map Prod.snd) := by
  induction texts generalizing lit with
  | nil => cases lit <;> simp [highlight, switch, Piece.render, Piece.reset]
  | cons t ts ih =>
    obtain ⟨mark, s⟩ := t
    cases lit <;> cases mark <;>
      simp [highlight, switch, Piece.render, Piece.reset, ih]

def number (s : Snippet) : String := toString s.locus.line

/-- Blanks as wide as the number of the line. -/
def pad (s : Snippet) : String := repeated ' ' s.number.length

def locusRow (s : Snippet) : List Piece :=
  .text (s.pad ++ " ") :: Piece.styled border "┌─" ++
    [.text (" " ++ s.fileName ++ ":" ++ toString s.locus.line ++ ":" ++ toString s.locus.column)]

def emptyRow (s : Snippet) : List Piece := .text (s.pad ++ " ") :: Piece.styled border "│"

/-- The row of the source, with its number. -/
def sourceRow (s : Snippet) : List Piece :=
  Piece.styled border s.number ++ .text " " :: Piece.styled border "│" ++
    .text " " :: highlight false (s.cells.map fun c => (c.covered, c.shown))

def caretRow (s : Snippet) : List Piece :=
  s.emptyRow ++
    .text " " :: highlight false ((s.cells ++ [s.placeholder]).map fun c => (c.covered, c.underline))

def rows (s : Snippet) : List (List Piece) := [s.locusRow, s.emptyRow, s.sourceRow, s.caretRow]

end Snippet

end SemanticDiagnostics
