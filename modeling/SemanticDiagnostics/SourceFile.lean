import SemanticDiagnostics.SourceFile.Line

/-!
The text of one compilation unit, and the way from byte offsets to positions in it and back. The
line of an offset is found by halving the table of lines; inside the line, characters are counted.
-/

namespace SemanticDiagnostics

/-- A named source text with its table of lines. -/
structure SourceFile where
  name : String
  source : String
  lines : Array Line := (Line.ofText source.toList).toArray
  lines_eq : lines = (Line.ofText source.toList).toArray := by rfl

namespace SourceFile

def ofText (name source : String) : SourceFile := { name, source }

/-- The first line starts the text. -/
theorem start_first {f : SourceFile} {l : Line} (h : f.lines[0]? = some l) : l.start = 0 := by
  obtain ⟨cs, rest, hs⟩ := List.exists_cons_of_ne_nil (Line.split_ne_nil f.source.toList)
  rw [f.lines_eq, List.getElem?_toArray, Line.ofText, hs] at h
  obtain rfl := Option.some.inj h
  rfl

/-- There is one line more than there are line feeds. -/
theorem size_lines (f : SourceFile) : f.lines.size = f.source.toList.count '\n' + 1 := by
  simp [f.lines_eq]

/-! ## From offsets to positions -/

/-- The first index from `lo` on, and before `hi`, at which `p` fails; `hi` if there is none. The
interval is halved, so `p` must not hold again after it has failed. -/
def firstFailing (p : Nat → Bool) (lo hi : Nat) : Nat :=
  if lo < hi then
    let middle := lo + (hi - lo) / 2
    if p middle then firstFailing p (middle + 1) hi else firstFailing p lo middle
  else lo
termination_by hi - lo

theorem firstFailing_le {p : Nat → Bool} {lo hi : Nat} (h : lo ≤ hi) :
    firstFailing p lo hi ≤ hi := by
  fun_induction firstFailing p lo hi with
  | case1 lo hi _ middle _ ih => exact ih (by omega)
  | case2 lo hi _ middle _ ih => exact Nat.le_trans (ih (by omega)) (by omega)
  | case3 => exact h

theorem le_firstFailing (p : Nat → Bool) (lo hi : Nat) : lo ≤ firstFailing p lo hi := by
  fun_induction firstFailing p lo hi with
  | case1 lo hi _ middle _ ih => omega
  | case2 lo hi _ middle _ ih => exact ih
  | case3 => exact Nat.le_refl _

/-- Before the index that was found, `p` holds, or the interval starts there. -/
theorem before_firstFailing {p : Nat → Bool} {lo hi : Nat} (h : lo < firstFailing p lo hi) :
    p (firstFailing p lo hi - 1) = true := by
  fun_induction firstFailing p lo hi with
  | case1 lo hi _ middle hp ih =>
    have := le_firstFailing p (middle + 1) hi
    rcases Nat.lt_or_eq_of_le this with h' | h'
    · exact ih h'
    · rw [← h']
      exact hp
  | case2 lo hi _ middle _ ih => exact ih h
  | case3 lo hi hlt => omega

/-- At the index that was found, `p` fails, or the interval ends there. -/
theorem at_firstFailing {p : Nat → Bool} {lo hi : Nat} (h : firstFailing p lo hi < hi) :
    p (firstFailing p lo hi) = false := by
  fun_induction firstFailing p lo hi with
  | case1 lo hi _ middle _ ih => exact ih h
  | case2 lo hi hlt middle hp ih =>
    have := firstFailing_le (p := p) (show lo ≤ middle by omega)
    rcases Nat.lt_or_eq_of_le this with h' | h'
    · exact ih h'
    · rw [h']
      simpa using hp
  | case3 lo hi hlt => omega

/-- Whether a line of the table starts at or before the offset. -/
def startsBy (f : SourceFile) (offset index : Nat) : Bool :=
  f.lines[index]?.any (·.start ≤ offset)

theorem startsBy_iff {f : SourceFile} {offset index : Nat} :
    f.startsBy offset index = true ↔ ∃ l, f.lines[index]? = some l ∧ l.start ≤ offset := by
  cases h : f.lines[index]? <;> simp [startsBy, h]

/-- The index of the line that the offset lies on: the last that starts at or before it. -/
def lineIndex (f : SourceFile) (offset : Nat) : Nat :=
  firstFailing (f.startsBy offset) 0 f.lines.size - 1

theorem lineIndex_lt (f : SourceFile) (offset : Nat) : f.lineIndex offset < f.lines.size := by
  have := firstFailing_le (p := f.startsBy offset) (Nat.zero_le f.lines.size)
  have := f.size_lines
  unfold lineIndex
  omega

/-- The line that the offset lies on. -/
def lineAt (f : SourceFile) (offset : Nat) : Line :=
  have := f.lineIndex_lt offset
  f.lines[f.lineIndex offset]

theorem getElem?_lineIndex (f : SourceFile) (offset : Nat) :
    f.lines[f.lineIndex offset]? = some (f.lineAt offset) :=
  Array.getElem?_eq_getElem (f.lineIndex_lt offset)

/-- The first line starts at or before every offset. -/
theorem firstFailing_startsBy_pos (f : SourceFile) (offset : Nat) :
    0 < firstFailing (f.startsBy offset) 0 f.lines.size := by
  refine Nat.pos_of_ne_zero fun h => ?_
  have hsize : 0 < f.lines.size := by
    rw [f.size_lines]
    omega
  have hfails := at_firstFailing (Nat.lt_of_le_of_lt (Nat.le_of_eq h) hsize)
  have hfirst := Array.getElem?_eq_getElem hsize
  have := start_first hfirst
  rw [h, Bool.eq_false_iff, ne_eq, startsBy_iff] at hfails
  exact hfails ⟨_, hfirst, by omega⟩

/-- The line of an offset does not start behind it. -/
theorem start_lineAt_le (f : SourceFile) (offset : Nat) : (f.lineAt offset).start ≤ offset := by
  have h := before_firstFailing (f.firstFailing_startsBy_pos offset)
  obtain ⟨l, hl, hle⟩ := startsBy_iff.1 h
  have := f.getElem?_lineIndex offset
  rw [lineIndex] at this
  rw [hl] at this
  obtain rfl := Option.some.inj this
  exact hle

/-- The line after that of an offset starts behind it. -/
theorem lt_start_of_lineIndex {f : SourceFile} {offset : Nat} {l : Line}
    (h : f.lines[f.lineIndex offset + 1]? = some l) : offset < l.start := by
  have hpos := f.firstFailing_startsBy_pos offset
  rw [lineIndex, Nat.sub_add_cancel hpos] at h
  obtain ⟨hlt, _⟩ := Array.getElem?_eq_some_iff.1 h
  have hfails := at_firstFailing hlt
  rw [Bool.eq_false_iff, ne_eq, startsBy_iff] at hfails
  exact Nat.lt_of_not_le fun hle => hfails ⟨l, h, hle⟩

/-- The position of the character at a byte offset. Inside a character, that character's; past the
end of the text, the end of the last line. -/
def positionAt (f : SourceFile) (offset : Nat) : Position :=
  { line := f.lineIndex offset + 1
    column := (f.lineAt offset).columnAt offset
    one_le_column := by simp [Line.columnAt] }

/-- The position at which a span starts. -/
def positionOf (f : SourceFile) (s : Span) : Position := f.positionAt s.lo

/-! ## From positions to offsets -/

/-- The line with this number, if the text has it. -/
def line? (f : SourceFile) (number : Nat) : Option Line := f.lines[number - 1]?

/-- The bytes of the character at a position; the empty span at the end of the line's text if the
column lies past it; nothing if there is no such line. -/
def charRange (f : SourceFile) (p : Position) : Option Span :=
  (f.line? p.line).map (·.charSpan p.column)

/-- The text of a span, if the span lies in the source and on the borders of characters. -/
def slice? (f : SourceFile) (s : Span) : Option String :=
  (Text.dropBytes f.source.toList s.lo).bind fun rest =>
    (Text.takeBytes rest (s.hi - s.lo)).map String.ofList

/-- The form in which an inspected value shows a file, with the offsets at which lines start. -/
def inspect (f : SourceFile) : String :=
  "SourceFile \x7b file: SimpleFile \x7b name: " ++ Text.Quoted.quote f.name ++ ", source: " ++
    Text.Quoted.quote f.source ++ ", line_starts: [" ++
    ", ".intercalate (f.lines.toList.map fun l => toString l.start) ++ "] \x7d \x7d"

end SourceFile

end SemanticDiagnostics
