import SemanticDiagnostics.Text.CodePoints

/-!
Places in a program text: positions, which are a line and a column, ranges of bytes, and lexemes with
the position at which they start. Positions are ordered as they are read. There are two rules that a
caller can break: coordinates are not zero, and a span does not end before it starts.
-/

namespace SemanticDiagnostics

/-! ## Faults -/

/-- A broken precondition. Nothing is changed by the request that breaks it. -/
inductive Fault where
  /-- Lines and columns are counted from one. -/
  | coordinateBelowOne
  /-- A span may not end before it starts. -/
  | reversedSpan
  deriving DecidableEq, Repr

def Fault.message : Fault → String
  | .coordinateBelowOne => "assertion failed: line >= 1 && column >= 1"
  | .reversedSpan => "assertion failed: lo <= hi"

/-! ## Positions -/

/-- A place in the text. The column counts characters. -/
@[ext]
structure Position where
  line : Nat
  column : Nat
  one_le_line : 1 ≤ line := by omega
  one_le_column : 1 ≤ column := by omega
  deriving DecidableEq

namespace Position

/-- The position with these coordinates, neither of which may be zero. -/
def ofCoordinates (line column : Nat) : Except Fault Position :=
  if h : 1 ≤ line ∧ 1 ≤ column then
    .ok { line, column, one_le_line := h.1, one_le_column := h.2 }
  else
    .error .coordinateBelowOne

/-- A position of given coordinates can be made again from them. -/
@[simp] theorem ofCoordinates_self (p : Position) : ofCoordinates p.line p.column = .ok p := by
  simp [ofCoordinates, p.one_le_line, p.one_le_column]

theorem ofCoordinates_eq_error_iff {line column : Nat} {f : Fault} :
    ofCoordinates line column = .error f ↔
      f = .coordinateBelowOne ∧ (line = 0 ∨ column = 0) := by
  unfold ofCoordinates
  split
  · simp; omega
  · rw [Except.error.injEq, eq_comm]
    exact ⟨fun h => ⟨h, by omega⟩, And.left⟩

theorem coordinates_of_ofCoordinates {line column : Nat} {p : Position}
    (h : ofCoordinates line column = .ok p) : line = p.line ∧ column = p.column := by
  unfold ofCoordinates at h
  split at h
  · cases h
    exact ⟨rfl, rfl⟩
  · cases h

/-- Positions on an earlier line come first, then those in an earlier column. -/
instance : Ord Position where
  compare p q := (compare p.line q.line).then (compare p.column q.column)

/-- Whether `p` comes before `q` or is the same place. -/
def le (p q : Position) : Bool := (compare p q).isLE

theorem le_iff {p q : Position} :
    p.le q = true ↔ p.line < q.line ∨ p.line = q.line ∧ p.column ≤ q.column := by
  change ((compare p.line q.line).then (compare p.column q.column)).isLE = true ↔ _
  rcases Nat.lt_trichotomy p.line q.line with h | h | h
  · simp [Nat.compare_eq_lt.2 h, h]
  · simp [h, Nat.isLE_compare]
  · rw [Nat.compare_eq_gt.2 h]
    simp only [Ordering.gt_then, Ordering.isLE_gt, Bool.false_eq_true, false_iff]
    omega

theorem le_refl (p : Position) : p.le p = true := le_iff.2 (.inr ⟨rfl, Nat.le_refl _⟩)

theorem le_trans {p q r : Position} (h : p.le q = true) (h' : q.le r = true) : p.le r = true := by
  rw [le_iff] at *
  omega

theorem le_total (p q : Position) : (p.le q || q.le p) = true := by
  rw [Bool.or_eq_true, le_iff, le_iff]
  omega

theorem le_antisymm {p q : Position} (h : p.le q = true) (h' : q.le p = true) : p = q := by
  rw [le_iff] at h h'
  exact Position.ext (by omega) (by omega)

/-- The line and the column with a point between them. -/
def render (p : Position) : String := toString p.line ++ "." ++ toString p.column

def inspect (p : Position) : String := "Position(" ++ p.render ++ ")"

/-- Positions from the first to the last, equal ones side by side. -/
def sort (ps : List Position) : List Position := ps.mergeSort le

/-- How many different places the list names. -/
def distinctCount (ps : List Position) : Nat := ps.eraseDups.length

/-- The earliest place of the list. -/
def earliest? (ps : List Position) : Option Position := (sort ps).head?

/-- The latest place of the list. -/
def latest? (ps : List Position) : Option Position := (sort ps).getLast?

end Position

/-! ## Spans -/

/-- The bytes from offset `lo` up to, but not including, offset `hi`. -/
structure Span where
  lo : Nat
  hi : Nat
  lo_le_hi : lo ≤ hi := by omega
  deriving DecidableEq

namespace Span

/-- The span with these bounds, which must be in order. -/
def ofBounds (lo hi : Nat) : Except Fault Span :=
  if h : lo ≤ hi then .ok { lo, hi, lo_le_hi := h } else .error .reversedSpan

theorem ofBounds_of_le {lo hi : Nat} (h : lo ≤ hi) : ofBounds lo hi = .ok ⟨lo, hi, h⟩ := by
  simp [ofBounds, h]

theorem ofBounds_of_lt {lo hi : Nat} (h : hi < lo) : ofBounds lo hi = .error .reversedSpan := by
  simp [ofBounds, Nat.not_le.2 h]

/-- The span of no bytes at an offset. -/
def emptyAt (offset : Nat) : Span := { lo := offset, hi := offset }

def inspect (s : Span) : String := "Span(" ++ toString s.lo ++ ".." ++ toString s.hi ++ ")"

end Span

/-! ## Tokens -/

/-- A lexeme and the place where it starts. -/
@[ext]
structure Token where
  text : String
  position : Position
  deriving DecidableEq

namespace Token

/-- The token at these coordinates, neither of which may be zero. -/
def ofCoordinates (text : String) (line column : Nat) : Except Fault Token :=
  (Position.ofCoordinates line column).map fun position => { text, position }

def inspect (t : Token) : String :=
  "Token(" ++ Text.Quoted.quote t.text ++ ", " ++ t.position.inspect ++ ")"

end Token

end SemanticDiagnostics
