import SemanticDiagnostics.Sink
import SemanticDiagnostics.Snippet

/-!
Emission: a report written out in one of two styles. Plain output is a line per record and never
colored. Rich output is a block per record, colored if the medium can show colors. A headline gives the
code and the message; under it stands the snippet of the place, or a note if the file has no such line;
an empty row ends the block.
-/

namespace SemanticDiagnostics

open Output

/-! ## Blocks -/

/-- What stands under the headline. -/
inductive Block.Body where
  | snippet (s : Snippet)
  /-- The place is outside the file. -/
  | note (position : Position)
  deriving DecidableEq

/-- What rich output shows for one record. -/
structure Block where
  code : String
  message : String
  body : Block.Body
  deriving DecidableEq

namespace Block

/-- The block of a record whose positions belong to the file. -/
def ofRecord (file : SourceFile) (r : Record) : Block :=
  { code := r.code
    message := r.message
    body :=
      match file.charRange r.position with
      | some s => .snippet (.ofSpan file s)
      | none => .note r.position }

def severity : Style := { bold := true, color := some .brightRed }

def headline : Style := { bold := true }

/-- The row of the code and the message. The message may hold line feeds of its own. -/
def headRow (b : Block) : List Piece :=
  [.style severity, .text ("error[" ++ b.code ++ "]"), .style headline, .text (": " ++ b.message),
    .reset]

/-- The row that names a place outside the file. -/
def noteRow (p : Position) : List Piece :=
  .text " " :: Piece.styled Snippet.border "=" ++ [.text (" at " ++ p.render)]

def Body.rows : Body → List (List Piece)
  | .snippet s => s.rows
  | .note p => [noteRow p]

def rows (b : Block) : List (List Piece) := b.headRow :: b.body.rows ++ [[]]

/-- The block as output: every row ends in a line feed. -/
def pieces (b : Block) : List Piece := b.rows.flatMap (· ++ [.text "\n"])

end Block

/-! ## Reports -/

/-- The medium that standard error is for a choice of colors. -/
def ColorChoice.medium : ColorChoice → Medium
  | .never => .plain
  | .always | .alwaysAnsi => .ansi

namespace Report

def blocks (r : Report) (file : SourceFile) : List Block := r.records.map (Block.ofRecord file)

def pieces (r : Report) (file : SourceFile) : EmitStyle → List Piece
  | .plain => r.records.flatMap fun record => [.text record.render, .text "\n"]
  | .rich => (r.blocks file).flatMap Block.pieces

/-- The output in a style for a medium, call by call. -/
def chunks (r : Report) (file : SourceFile) (style : EmitStyle) (medium : Medium) : List String :=
  (r.pieces file style).map (Piece.render medium)

/-- Emits the report to a writer. The writer decides about colors, not the configuration. -/
def emit (r : Report) (file : SourceFile) (config : EmitConfig) (medium : Medium)
    (limit : Option Nat) : Logged Written :=
  { value := Output.write limit (r.chunks file config.style medium)
    events := [.emitting r.length config.style] }

def emitToStandardError (r : Report) (file : SourceFile) (config : EmitConfig) : Logged String :=
  { value := String.join (r.chunks file config.style config.color.medium)
    events := [.emitting r.length config.style] }

end Report

end SemanticDiagnostics
