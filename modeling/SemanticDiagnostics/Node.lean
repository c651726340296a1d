import SemanticDiagnostics.SourceFile

/-!
Nodes of the caller's syntax tree, as far as diagnostics need them: coordinates and a text. The
coordinates are the caller's word; they are checked when a position is made of them. The shapes say
in which forms callers hand nodes over, and which of them are checked on the way.
-/

namespace SemanticDiagnostics

/-- What a node says about itself. -/
structure Node where
  line : Nat
  column : Nat
  text : String
  deriving DecidableEq, Repr

namespace Node

/-- Where the node starts. A node with a zero coordinate starts nowhere. -/
def position (n : Node) : Except Fault Position := Position.ofCoordinates n.line n.column

/-- A place alone, as a node without text. -/
def ofPosition (p : Position) : Node := { line := p.line, column := p.column, text := "" }

def ofToken (t : Token) : Node :=
  { line := t.position.line, column := t.position.column, text := t.text }

/-- A node over a part of a file. Its text is empty if the span does not cut the source cleanly. -/
def ofSpan (file : SourceFile) (s : Span) : Node :=
  { line := (file.positionOf s).line
    column := (file.positionOf s).column
    text := (file.slice? s).getD "" }

/-- A node that answers for another one. -/
def forward (n : Node) : Node := { line := n.line, column := n.column, text := n.text }

@[simp] theorem position_ofPosition (p : Position) : (ofPosition p).position = .ok p := by
  simp [position, ofPosition]

@[simp] theorem position_ofToken (t : Token) : (ofToken t).position = .ok t.position := by
  simp [position, ofToken]

@[simp] theorem position_ofSpan (file : SourceFile) (s : Span) :
    (ofSpan file s).position = .ok (file.positionOf s) := by
  simp [position, ofSpan]

@[simp] theorem forward_eq (n : Node) : n.forward = n := rfl

/-- The forms in which a caller hands a node over. -/
inductive Shape where
  | position (line column : Nat)
  | token (text : String) (line column : Nat)
  /-- A node of the caller's own, whose coordinates nobody has checked. -/
  | bare (text : String) (line column : Nat)
  | span (file : SourceFile) (lo hi : Nat)
  /-- A node reached through another one. -/
  | forwarded (inner : Shape)

namespace Shape

/-- Makes the node. Positions, tokens and spans are checked here, bare nodes are not. -/
def build : Shape → Except Fault Node
  | .position line column => (Position.ofCoordinates line column).map ofPosition
  | .token text line column => (Token.ofCoordinates text line column).map ofToken
  | .bare text line column => .ok { line, column, text }
  | .span file lo hi => (Span.ofBounds lo hi).map (ofSpan file)
  | .forwarded inner => inner.build.map forward

end Shape

end Node

end SemanticDiagnostics
