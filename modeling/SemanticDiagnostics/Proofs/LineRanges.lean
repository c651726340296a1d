import SemanticDiagnostics.Proofs.TrimmedLines

/-! # Lookups that can fail

To show a span, a renderer asks the file for the bytes of a line by its index, cuts the source there,
and draws carets if the span ends on the line it starts on. A line may not exist, the source may not
be cut between two characters, and a span may go on for several lines. `Report.drawn?` is rich output
made with such lookups; none of them fails on the character at a position, so it is `Report.blocks`. -/
namespace SemanticDiagnostics

/-! ## Lines by their bytes -/

/-- What keeps a span from being shown by carets under its line. -/
inductive Misfit where
  | noSuchLine (index last : Nat)
  /-- The bytes do not lie in the source, or they start or end inside a character. -/
  | noSuchText (lo hi : Nat)
  | severalLines (first last : Nat)
  deriving DecidableEq, Repr

/-- A line ends where the next one starts, and the last one where the text ends. -/
theorem Line.start_next {ls : List (List Char)} {start index : Nat} {l : Line}
    (h : (layOut start ls)[index]? = some l) :
    ((layOut start ls)[index + 1]?.map Line.start).getD (start + Text.byteLength ls.flatten) =
      l.start + Text.byteLength l.chars := by
  induction ls generalizing start index with
  | nil => cases h
  | cons cs rest ih =>
    cases index with
    | zero =>
      obtain rfl := Option.some.inj h
      cases rest with
      | nil => simp [layOut]
      | cons ds rest => rfl
    | succ index =>
      have hnext := ih h
      rw [List.flatten_cons, Text.byteLength_append, ← Nat.add_assoc]
      exact hnext

namespace SourceFile

variable {f : SourceFile} {index : Nat} {l : Line}

/-- The offset at which a line starts. The end of the source counts as the start of one line more. -/
def lineStart (f : SourceFile) (index : Nat) : Except Misfit Nat :=
  match f.lines[index]? with
  | some l => .ok l.start
  | none =>
    if index = f.lines.size then .ok (Text.byteLength f.source.toList)
    else .error (.noSuchLine index (f.lines.size - 1))

/-- Where a line starts, and where the next one does. -/
def lineRange (f : SourceFile) (index : Nat) : Except Misfit (Nat × Nat) := do
  return (← f.lineStart index, ← f.lineStart (index + 1))

/-- The text between two offsets. -/
def cut (f : SourceFile) (lo hi : Nat) : Except Misfit (List Char) :=
  if h : lo ≤ hi then
    match f.slice? ⟨lo, hi, h⟩ with
    | some s => .ok s.toList
    | none => .error (.noSuchText lo hi)
  else .error (.noSuchText lo hi)

theorem lineStart_next (hline : f.lines[index]? = some l) :
    f.lineStart (index + 1) = .ok (l.start + Text.byteLength l.chars) := by
  have hindex := (Array.getElem?_eq_some_iff.1 hline).1
  have hnext : (f.lines[index + 1]?.map Line.start).getD (Text.byteLength f.source.toList) =
      l.start + Text.byteLength l.chars := by
    rw [f.lines_eq, List.getElem?_toArray] at hline ⊢
    have := Line.start_next hline
    rwa [Line.flatten_split, Nat.zero_add] at this
  rw [lineStart, ← hnext]
  cases h : f.lines[index + 1]? with
  | some next => rfl
  | none =>
    have hsize := Array.getElem?_eq_none_iff.1 h
    rw [if_pos (by omega)]
    rfl

theorem lineRange_of_getElem? (hline : f.lines[index]? = some l) :
    f.lineRange index = .ok (l.start, l.start + Text.byteLength l.chars) := by
  have hstart : f.lineStart index = .ok l.start := by rw [lineStart, hline]
  rw [lineRange, hstart, lineStart_next hline]
  rfl

theorem lineStart_of_size_lt (h : f.lines.size < index) :
    f.lineStart index = .error (.noSuchLine index (f.lines.size - 1)) := by
  rw [lineStart, Array.getElem?_eq_none (Nat.le_of_lt h)]
  exact if_neg (Nat.ne_of_gt h)

/-- The end of the source alone makes no line. -/
theorem exists_lineRange_eq_error (h : f.lines.size ≤ index) :
    ∃ e, f.lineRange index = .error e := by
  unfold lineRange
  rcases Nat.lt_or_eq_of_le h with h | rfl
  · rw [lineStart_of_size_lt h]
    exact ⟨_, rfl⟩
  · rw [lineStart_of_size_lt (Nat.lt_succ_self f.lines.size)]
    cases f.lineStart f.lines.size <;> exact ⟨_, rfl⟩

/-- The text of a span is what stands between the characters in front of it and those behind it. -/
theorem slice?_of_append {s : Span} {front mid back : List Char}
    (hsource : f.source.toList = front ++ (mid ++ back)) (hlo : s.lo = Text.byteLength front)
    (hhi : s.hi = s.lo + Text.byteLength mid) : f.slice? s = some (String.ofList mid) := by
  have hdrop : Text.dropBytes f.source.toList s.lo = some (mid ++ back) :=
    Text.dropBytes_eq_some_iff.2 ⟨front, hsource, hlo.symm⟩
  have htake : Text.takeBytes (mid ++ back) (s.hi - s.lo) = some mid :=
    Text.takeBytes_eq_some_iff.2 ⟨back, rfl, by omega⟩
  rw [slice?, hdrop, Option.bind_some, htake]
  rfl

theorem cut_line (hline : f.lines[index]? = some l) :
    f.cut l.start (l.start + Text.byteLength l.chars) = .ok l.chars := by
  have hindex := hline
  rw [f.lines_eq, List.getElem?_toArray] at hindex
  obtain ⟨front, back, hcs, hfront, -, -⟩ := Line.exists_of_getElem? hindex
  rw [Nat.zero_add] at hfront
  have hslice : f.slice? ⟨l.start, l.start + Text.byteLength l.chars, Nat.le_add_right ..⟩ =
      some (String.ofList l.chars) := slice?_of_append hcs hfront rfl
  rw [cut, dif_pos (Nat.le_add_right ..), hslice]
  exact congrArg Except.ok String.toList_ofList

theorem lineIndex_of_positionAt {offset chars : Nat}
    (h : f.positionAt offset = .behind index chars) : f.lineIndex offset = index :=
  Nat.succ.inj (congrArg Position.line h)

end SourceFile

/-! ## Spans of characters stay in their line -/

namespace Line

theorem hi_spanOf (offset : Nat) (cs : List Char) (index : Nat) :
    (spanOf offset cs index).hi = offset + Text.byteLength (cs.take (index + 1)) := by
  induction cs generalizing offset index with
  | nil => simp [spanOf, Span.emptyAt]
  | cons c cs ih =>
    cases index with
    | zero => rfl
    | succ index => rw [spanOf, ih, List.take_succ_cons, Text.byteLength_cons, Nat.add_assoc]

theorem charSpan_bounds (l : Line) (column : Nat) :
    l.start ≤ (l.charSpan column).lo ∧
      (l.charSpan column).hi ≤ l.start + Text.byteLength l.text := by
  have htext := congrArg Text.byteLength (List.take_append_drop (column - 1 + 1) l.text)
  rw [Text.byteLength_append] at htext
  rw [charSpan, lo_spanOf, hi_spanOf]
  omega

end Line

namespace SourceFile

variable {f : SourceFile} {index : Nat} {l : Line}

theorem lineIndex_lo_charSpan (hline : f.lines[index]? = some l) (column : Nat) :
    f.lineIndex (l.charSpan column).lo = index :=
  lineIndex_of_positionAt (positionAt_lo_charSpan hline column)

theorem lineIndex_hi_charSpan (hline : f.lines[index]? = some l) (column : Nat) :
    f.lineIndex (l.charSpan column).hi = index := by
  have hposition : f.positionAt (l.charSpan column).hi =
      .behind index (l.text.take (column - 1 + 1)).length := by
    rw [Line.charSpan, Line.hi_spanOf]
    exact positionAt_text hline (List.take_append_drop _ _).symm
  exact lineIndex_of_positionAt hposition

end SourceFile

/-! ## Lines that the file has -/

namespace Position

variable (p : Position)

theorem line_behind_pred (chars : Nat) : (behind (p.line - 1) chars).line = p.line :=
  Nat.sub_add_cancel p.one_le_line

/-- A column that is cut off behind the last of so many characters. -/
theorem column_behind_min (index chars : Nat) :
    (behind index (min (p.column - 1) chars)).column = min p.column (chars + 1) := by
  have hcolumn := p.one_le_column
  show min (p.column - 1) chars + 1 = _
  omega

end Position

namespace SourceFile

variable {f : SourceFile} {index : Nat} {l : Line}

theorem line?_eq_none_iff {p : Position} :
    f.line? p.line = none ↔ 1 + f.source.toList.count '\n' < p.line := by
  have hline := p.one_le_line
  rw [line?, Array.getElem?_eq_none_iff, size_lines]
  omega

theorem charRange_of_line {p : Position} (hline : f.line? p.line = some l) :
    f.charRange p = some (l.charSpan p.column) := by
  rw [charRange, hline]
  rfl

/-- What a position points at lies in its line, at the column or else at the end of the text. -/
theorem exists_charRange_of_line {p : Position} (hline : f.line? p.line = some l) :
    ∃ span, f.charRange p = some span ∧
      l.start ≤ span.lo ∧ span.hi ≤ l.start + Text.byteLength l.text ∧
      (f.positionAt span.lo).line = p.line ∧ (f.positionAt span.hi).line = p.line ∧
      (f.positionAt span.lo).column = min p.column (l.text.length + 1) := by
  have hlo := positionAt_lo_charSpan hline p.column
  have hhi := lineIndex_hi_charSpan hline p.column
  obtain ⟨hstart, hend⟩ := l.charSpan_bounds p.column
  refine ⟨l.charSpan p.column, charRange_of_line hline, hstart, hend, ?_, ?_, ?_⟩
  · rw [hlo, p.line_behind_pred]
  · exact (congrArg (· + 1) hhi).trans (p.line_behind_pred 0)
  · rw [hlo, p.column_behind_min]

end SourceFile

/-! ## Rich output by lookups -/

/-- The snippet of a span, if its line can be looked up and the span does not leave it. -/
def Snippet.drawn? (f : SourceFile) (s : Span) : Except Misfit Snippet := do
  let first := f.lineIndex s.lo
  let last := f.lineIndex s.hi
  let (start, past) ← f.lineRange first
  let _ ← f.lineRange last
  if first = last then
    let line : Line := { start, chars := ← f.cut start past }
    let label := Label.ofSpan start s
    return { fileName := f.name
             locus := { line := first + 1
                        column := line.columnAt s.lo
                        one_le_column := by simp [Line.columnAt] }
             cells := layOut label 0 0 line.shown
             placeholder := .behind label line.shown }
  else throw (.severalLines first last)

/-- The block of a record. Only a line that cannot be looked up at all makes it a note. -/
def Block.drawn? (f : SourceFile) (r : Record) : Except Misfit Block :=
  match f.lineRange (r.position.line - 1) with
  | .error _ => return { code := r.code, message := r.message, body := .note r.position }
  | .ok (start, past) => do
    let chars ← f.cut start past
    let snippet ← Snippet.drawn? f (Line.charSpan { start, chars } r.position.column)
    return { code := r.code, message := r.message, body := .snippet snippet }

theorem Snippet.drawn?_charSpan {f : SourceFile} {index : Nat} {l : Line}
    (hline : f.lines[index]? = some l) (column : Nat) :
    drawn? f (l.charSpan column) = .ok (ofSpan f (l.charSpan column)) := by
  have hfirst := SourceFile.lineIndex_lo_charSpan hline column
  have hlast := SourceFile.lineIndex_hi_charSpan hline column
  have hlineAt := SourceFile.lineAt_of_positionAt hline
    (SourceFile.positionAt_lo_charSpan hline column) rfl
  have hrange := SourceFile.lineRange_of_getElem? hline
  have hcut := SourceFile.cut_line hline
  unfold drawn? ofSpan SourceFile.positionAt
  simp only [hfirst, hlast, hlineAt, hrange, bind, Except.bind, if_true, hcut]
  rfl

/-- No lookup for a block fails. -/
theorem Block.drawn?_eq (f : SourceFile) (r : Record) : drawn? f r = .ok (ofRecord f r) := by
  unfold drawn? ofRecord SourceFile.charRange SourceFile.line?
  cases hline : f.lines[r.position.line - 1]? with
  | none =>
    obtain ⟨e, he⟩ := SourceFile.exists_lineRange_eq_error (Array.getElem?_eq_none_iff.1 hline)
    rw [he]
    rfl
  | some l =>
    have hsnippet := Snippet.drawn?_charSpan hline r.position.column
    have hcut := SourceFile.cut_line hline
    rw [SourceFile.lineRange_of_getElem? hline]
    simp only [hcut]
    show (Snippet.drawn? f (l.charSpan r.position.column)).bind _ = _
    rw [hsnippet]
    rfl

def Report.drawn? (r : Report) (f : SourceFile) : Except Misfit (List Block) :=
  r.records.mapM (Block.drawn? f)

theorem Report.drawn?_eq (r : Report) (f : SourceFile) : r.drawn? f = .ok (r.blocks f) := by
  have hblock : Block.drawn? f = fun r => pure (Block.ofRecord f r) := funext (Block.drawn?_eq f)
  rw [drawn?, hblock]
  exact List.mapM_pure

end SemanticDiagnostics
