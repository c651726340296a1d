import SemanticDiagnostics.Emission

/-! # Output as a text

What a writer without a limit receives is put together from parts: a line for every record in plain
output, a block for every record in rich output, and in a block the rows of the snippet. For a
medium without colors the rows are given as plain texts. -/
namespace SemanticDiagnostics
open Output

namespace Output

/-- The text that a medium shows for some pieces. -/
def textOf (medium : Medium) (pieces : List Piece) : String :=
  String.join (pieces.map (Piece.render medium))

variable {medium : Medium}

@[simp] theorem textOf_nil : textOf medium [] = "" := rfl

@[simp] theorem textOf_cons (p : Piece) (ps : List Piece) :
    textOf medium (p :: ps) = p.render medium ++ textOf medium ps := String.join_cons

@[simp] theorem textOf_append (ps qs : List Piece) :
    textOf medium (ps ++ qs) = textOf medium ps ++ textOf medium qs := by
  rw [textOf, List.map_append, String.join_append]
  rfl

theorem textOf_flatMap {α : Type} (f : α → List Piece) (xs : List α) :
    textOf medium (xs.flatMap f) = String.join (xs.map fun x => textOf medium (f x)) := by
  induction xs with
  | nil => rfl
  | cons x xs ih => rw [List.flatMap_cons, textOf_append, ih, List.map_cons, String.join_cons]

@[simp] theorem textOf_plain_styled (style : Style) (s : String) :
    textOf .plain (Piece.styled style s) = s := by
  simp [Piece.styled, Piece.render, Piece.reset]

theorem textOf_plain_highlight (lit : Bool) (texts : List (Bool × String)) :
    textOf .plain (Snippet.highlight lit texts) = String.join (texts.map Prod.snd) :=
  Snippet.render_plain_highlight lit texts

end Output

/-! ## Plain output -/

namespace Record

/-- The lines of some records, one behind the other. -/
def lines (rs : List Record) : String := String.join (rs.map fun r => r.render ++ "\n")

theorem join_plainChunks (rs : List Record) : String.join (plainChunks rs) = lines rs := by
  induction rs with
  | nil => rfl
  | cons r rs ih =>
    show String.join (r.render :: "\n" :: plainChunks rs) = lines (r :: rs)
    rw [String.join_cons, String.join_cons, ih, lines, lines, List.map_cons,
      String.join_cons, String.append_assoc]

end Record

/-! ## Rich output -/

namespace Block

def text (medium : Medium) (b : Block) : String := textOf medium b.pieces

/-- The blocks of some records, one behind the other. -/
def texts (medium : Medium) (file : SourceFile) (rs : List Record) : String :=
  String.join (rs.map fun r => (ofRecord file r).text medium)

theorem texts_append (medium : Medium) (file : SourceFile) (as bs : List Record) :
    texts medium file (as ++ bs) = texts medium file as ++ texts medium file bs := by
  rw [texts, List.map_append, String.join_append]
  rfl

theorem texts_cons (medium : Medium) (file : SourceFile) (r : Record) (rs : List Record) :
    texts medium file (r :: rs) = (ofRecord file r).text medium ++ texts medium file rs :=
  String.join_cons

theorem text_eq_rows (medium : Medium) (b : Block) :
    b.text medium = String.join (b.rows.map fun row => textOf medium row ++ "\n") := by
  rw [text, pieces, textOf_flatMap]
  simp [Piece.render]

end Block

/-- Plain output to a writer without a limit is the lines of the records, for every medium. -/
theorem Report.emit_plain (r : Report) (file : SourceFile) (color : ColorChoice) (medium : Medium) :
    (r.emit file { style := .plain, color } medium none).value =
      .complete (Record.lines r.records) := by
  show Written.complete (textOf medium (r.pieces file .plain)) = _
  simp only [pieces, textOf_flatMap, textOf_cons, Piece.render, textOf_nil, String.append_empty]
  rfl

theorem Report.join_chunks_rich (r : Report) (file : SourceFile) (medium : Medium) :
    String.join (r.chunks file .rich medium) = Block.texts medium file r.records := by
  show textOf medium (r.pieces file .rich) = _
  simp only [pieces, textOf_flatMap, blocks, List.map_map]
  rfl

/-- Rich output to a writer without a limit is the blocks of the records. -/
theorem Report.emit_rich (r : Report) (file : SourceFile) (color : ColorChoice) (medium : Medium) :
    (r.emit file { style := .rich, color } medium none).value =
      .complete (Block.texts medium file r.records) :=
  congrArg Written.complete (r.join_chunks_rich file medium)

/-! ## Rows without colors -/

namespace Snippet

/-- The texts of a row, with whether the label covers their cells. -/
def texts (f : Cell → String) (cells : List Cell) : List (Bool × String) :=
  cells.map fun cell => (cell.covered, f cell)

theorem textOf_plain_texts (f : Cell → String) (cells : List Cell) :
    textOf .plain (highlight false (texts f cells)) = String.join (cells.map f) := by
  rw [textOf_plain_highlight, texts, List.map_map]
  rfl

variable (s : Snippet)

theorem plain_rows :
    s.rows.map (textOf .plain) =
      [s.pad ++ " ┌─ " ++ s.fileName ++ ":" ++ s.number ++ ":" ++ toString s.locus.column,
       s.pad ++ " │",
       s.number ++ " │ " ++ String.join (s.cells.map Cell.shown),
       s.pad ++ " │ " ++ String.join ((s.cells ++ [s.placeholder]).map Cell.underline)] := by
  have hcorner : " ┌─ " = " " ++ "┌─" ++ " " := rfl
  have hborder : " │" = " " ++ "│" := rfl
  have hmargin : " │ " = " " ++ "│" ++ " " := rfl
  have htexts (cells : List Cell) (f : Cell → String) :
      textOf .plain (highlight false (cells.map fun c => (c.covered, f c))) =
        String.join (cells.map f) := textOf_plain_texts f cells
  rw [hcorner, hborder, hmargin]
  simp only [rows, List.map_cons, List.map_nil, locusRow, emptyRow, sourceRow, caretRow,
    List.cons_append, textOf_cons, textOf_append, textOf_plain_styled, Piece.render, htexts,
    number, textOf_nil, String.append_assoc, String.append_empty]

end Snippet

namespace Block

theorem ofRecord_of_charRange {file : SourceFile} {r : Record} {span : Span}
    (h : file.charRange r.position = some span) :
    ofRecord file r = ⟨r.code, r.message, .snippet (.ofSpan file span)⟩ := by
  rw [ofRecord, h]

theorem plain_rows (b : Block) :
    b.rows.map (textOf .plain) =
      ("error[" ++ b.code ++ "]: " ++ b.message) :: b.body.rows.map (textOf .plain) ++ [""] := by
  have hhead : textOf .plain b.headRow = "error[" ++ b.code ++ "]: " ++ b.message := by
    have hclose : "]: " = "]" ++ ": " := rfl
    rw [hclose]
    simp only [headRow, textOf_cons, textOf_nil, Piece.render, Piece.reset, String.empty_append,
      String.append_empty, String.append_assoc]
  rw [rows, List.map_append, List.map_cons, hhead, List.map_cons, textOf_nil, List.map_nil]

theorem plain_noteRow (p : Position) : textOf .plain (noteRow p) = " = at " ++ p.render := by
  have hnote : " = at " = " " ++ "=" ++ " at " := rfl
  rw [hnote]
  simp only [noteRow, List.cons_append, textOf_cons, textOf_append, textOf_plain_styled,
    Piece.render, textOf_nil, String.append_assoc, String.append_empty]

theorem text_plain_snippet (code message : String) (s : Snippet) :
    (Block.mk code message (.snippet s)).text .plain =
      "error[" ++ code ++ "]: " ++ message ++ "\n" ++
      (s.pad ++ " ┌─ " ++ s.fileName ++ ":" ++ s.number ++ ":" ++ toString s.locus.column ++ "\n") ++
      (s.pad ++ " │" ++ "\n") ++
      (s.number ++ " │ " ++ String.join (s.cells.map Snippet.Cell.shown) ++ "\n") ++
      (s.pad ++ " │ " ++
        String.join ((s.cells ++ [s.placeholder]).map Snippet.Cell.underline) ++ "\n") ++
      "\n" := by
  have hrows (rows : List (List Piece)) : (rows.map fun row => textOf .plain row ++ "\n") =
      (rows.map (textOf .plain)).map (· ++ "\n") := by
    rw [List.map_map]
    rfl
  rw [text_eq_rows, hrows, plain_rows, Body.rows, s.plain_rows]
  simp only [List.map_cons, List.map_nil, List.cons_append, List.nil_append, String.join_cons,
    String.join_nil, String.append_assoc, String.empty_append, String.append_empty]

end Block

end SemanticDiagnostics
