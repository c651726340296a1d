import SemanticDiagnostics.Proofs.LineRanges

/-! # Positions by walking

An offset is located by halving the table of lines and by counting, in the bytes of the line, the
places at which a character ends. None of this is needed to say where the offset is: walk through the
text from line 1, column 1 on and stop before the first character that does not end by the offset. -/
namespace SemanticDiagnostics

/-! ## The walk -/

/-- Where a walk stops that starts at a position and an offset: before the first character whose last
byte is not before `goal`. A line feed leads to the start of the next line, every other character to
the next column. -/
def Position.walk (goal : Nat) : Position → Nat → List Char → Position
  | p, _, [] => p
  | p, start, c :: cs =>
    let last := start + c.utf8Size - 1
    if last < goal then walk goal (p.advance c) (last + 1) cs else p

theorem Position.walk_eq_after (goal : Nat) (p : Position) (start : Nat) (cs : List Char) :
    p.walk goal start cs = p.after (Text.passed cs (goal - start)) := by
  induction cs generalizing p start with
  | nil => rfl
  | cons c cs ih =>
    have hsize := c.utf8Size_pos
    by_cases h : c.utf8Size ≤ goal - start
    · have hlast : start + c.utf8Size - 1 < goal := by omega
      have hrest : goal - (start + c.utf8Size - 1 + 1) = goal - start - c.utf8Size := by omega
      rw [walk, if_pos hlast, ih, hrest, Text.passed, if_pos h]
      rfl
    · have hlast : ¬ start + c.utf8Size - 1 < goal := by omega
      rw [walk, if_neg hlast, Text.passed, if_neg h]
      rfl

/-! ## Borders between characters -/

namespace Text

theorem passed_byteLength (as bs : List Char) : passed (as ++ bs) (byteLength as) = as := by
  cases bs with
  | nil =>
    rw [List.append_nil]
    exact passed_of_le (Nat.le_refl _)
  | cons c bs =>
    have hsize := c.utf8Size_pos
    exact passed_append (Nat.le_refl _) (by omega)

/-- An offset behind the end of a text is as good as the end. -/
theorem passed_min (cs : List Char) (n : Nat) : passed cs (min n (byteLength cs)) = passed cs n := by
  rcases Nat.le_total n (byteLength cs) with h | h
  · rw [Nat.min_eq_left h]
  · rw [Nat.min_eq_right h, passed_of_le h, passed_of_le (Nat.le_refl _)]

/-- Whether a character starts at the offset or the text ends there. -/
def isBorder (cs : List Char) (offset : Nat) : Bool := (dropBytes cs offset).isSome

theorem isBorder_iff {cs : List Char} {n : Nat} :
    isBorder cs n = true ↔ byteLength (passed cs n) = n := by
  rw [isBorder, Option.isSome_iff_exists]
  constructor
  · rintro ⟨rest, hrest⟩
    obtain ⟨front, rfl, rfl⟩ := dropBytes_eq_some_iff.1 hrest
    rw [passed_byteLength]
  · intro h
    obtain ⟨rest, hrest⟩ := passed_isPrefix cs n
    exact ⟨rest, dropBytes_eq_some_iff.2 ⟨passed cs n, hrest.symm, h⟩⟩

variable {front back : List Char} {c : Char} {offset : Nat}

/-- A character ends at one border only. -/
theorem countP_isBorder_inside (front back : List Char) {c : Char} {n : Nat} (h : n < c.utf8Size) :
    (List.range' (byteLength front) n).countP
      (fun i => isBorder (front ++ c :: back) (i + 1)) = 0 := by
  rw [List.countP_eq_zero]
  intro i hi hborder
  rw [List.mem_range'_1] at hi
  rw [isBorder_iff, passed_append (by omega) (by omega)] at hborder
  omega

theorem countP_isBorder_char :
    (List.range' (byteLength front) c.utf8Size).countP
      (fun i => isBorder (front ++ c :: back) (i + 1)) = 1 := by
  obtain ⟨n, hn⟩ := Nat.exists_eq_succ_of_ne_zero (Nat.ne_of_gt c.utf8Size_pos)
  have hend : isBorder (front ++ c :: back) (byteLength front + n + 1) = true := by
    have hlength : byteLength front + n + 1 = byteLength (front ++ [c]) := by
      rw [byteLength_append, byteLength_cons, byteLength_nil]
      omega
    rw [isBorder_iff, List.append_cons, hlength, passed_byteLength]
  have hinside := countP_isBorder_inside front back (show n < c.utf8Size by omega)
  rw [hn, List.range'_concat, List.countP_append, hinside, Nat.one_mul, List.countP_singleton, hend]
  rfl

/-- Between the bytes of some characters lie as many ends of characters as there are characters. -/
theorem countP_isBorder (front cs back : List Char) :
    (List.range' (byteLength front) (byteLength cs)).countP
      (fun i => isBorder (front ++ (cs ++ back)) (i + 1)) = cs.length := by
  induction cs generalizing front with
  | nil => rfl
  | cons c cs ih =>
    have hrest := ih (front ++ [c])
    have hlength : byteLength (front ++ [c]) = byteLength front + c.utf8Size := by
      rw [byteLength_append, byteLength_cons, byteLength_nil, Nat.add_zero]
    rw [List.append_assoc, List.singleton_append, hlength] at hrest
    rw [byteLength_cons, ← List.range'_append_1, List.countP_append, List.cons_append,
      countP_isBorder_char, hrest, List.length_cons, Nat.add_comm]

/-- Up to a place inside a character, exactly the characters before it have ended. -/
theorem countP_isBorder_append {as bs : List Char} (h : byteLength front + byteLength as ≤ offset)
    (h' : offset < byteLength front + byteLength as + c.utf8Size) :
    (List.range' (byteLength front) (offset - byteLength front)).countP
      (fun i => isBorder (front ++ (as ++ c :: bs)) (i + 1)) = as.length := by
  have hwhole := countP_isBorder front as (c :: bs)
  have hpart := countP_isBorder_inside (front ++ as) bs
    (show offset - byteLength front - byteLength as < c.utf8Size by omega)
  rw [byteLength_append, List.append_assoc] at hpart
  have hsplit : offset - byteLength front =
      byteLength as + (offset - byteLength front - byteLength as) := by omega
  rw [hsplit, ← List.range'_append_1, List.countP_append, hwhole, hpart, Nat.add_zero]

end Text

/-! ## Offsets by lookups -/

namespace SourceFile

variable {f : SourceFile} {index : Nat} {l : Line}

/-- How many characters end behind the first byte of a range and at or before an offset, found by
testing every byte of the range. -/
def columnIndex (f : SourceFile) (start past offset : Nat) : Nat :=
  let stop := min offset (min past (Text.byteLength f.source.toList))
  (List.range' start (stop - start)).countP fun i => Text.isBorder f.source.toList (i + 1)

/-- The line and the column of an offset, if the bytes of its line can be looked up. -/
def located? (f : SourceFile) (offset : Nat) : Except Misfit (Nat × Nat) := do
  let index := f.lineIndex offset
  let (start, past) ← f.lineRange index
  return (index + 1, f.columnIndex start past offset + 1)

theorem columnIndex_eq (hline : f.lines[index]? = some l) {offset : Nat} (h : l.start ≤ offset) :
    f.columnIndex l.start (l.start + Text.byteLength l.chars) offset + 1 = l.columnAt offset := by
  have hindex := hline
  rw [f.lines_eq, List.getElem?_toArray] at hindex
  obtain ⟨front, back, hsource, hstart, -, -⟩ := Line.exists_of_getElem? hindex
  rw [Nat.zero_add] at hstart
  have hlength := congrArg Text.byteLength hsource
  rw [Text.byteLength_append, Text.byteLength_append] at hlength
  rw [columnIndex, Line.columnAt, hstart]
  congr 1
  rcases Text.le_or_inside l.chars (offset - l.start) with hend | ⟨as, c, bs, hchars, hle, hlt⟩
  · have hstop : min offset (min (Text.byteLength front + Text.byteLength l.chars)
        (Text.byteLength f.source.toList)) - Text.byteLength front = Text.byteLength l.chars := by
      omega
    rw [hstop, hsource, Text.countP_isBorder, Line.countP_charEnds_of_le (by omega)]
  · have hstop : min offset (min (Text.byteLength front + Text.byteLength l.chars)
        (Text.byteLength f.source.toList)) = offset := by
      rw [hchars, Text.byteLength_append, Text.byteLength_cons] at hlength ⊢
      omega
    rw [hstop, hsource, hchars, List.append_assoc, List.cons_append,
      Text.countP_isBorder_append (by omega) (by omega),
      Line.countP_charEnds (by omega) (by omega)]

theorem located?_eq (f : SourceFile) (offset : Nat) :
    f.located? offset = .ok ((f.positionAt offset).line, (f.positionAt offset).column) := by
  have hline := f.getElem?_lineIndex offset
  have hcolumn := columnIndex_eq hline (f.start_lineAt_le offset)
  rw [located?, lineRange_of_getElem? hline]
  show Except.ok (f.lineIndex offset + 1, f.columnIndex _ _ offset + 1) = _
  rw [hcolumn]
  rfl

end SourceFile

/-- **An offset is where a walk through the text stops.** The line that is found by halving the table
of lines and the column that is found by testing the bytes of this line are, for every offset, those
of a walk from line 1, column 1 up to the offset or the end of the text. Looking them up never
fails. -/
theorem offset_is_located_by_walking (f : SourceFile) (offset : Nat) :
    let walked := Position.walk (min offset (Text.byteLength f.source.toList))
      { line := 1, column := 1 } 0 f.source.toList
    f.positionAt offset = walked ∧ f.located? offset = .ok (walked.line, walked.column) := by
  intro walked
  have hwalked : f.positionAt offset = walked := by
    have hwalk : walked = Position.after { line := 1, column := 1 } _ := Position.walk_eq_after ..
    rw [hwalk, Nat.sub_zero, Text.passed_min]
    exact f.positionAt_eq_after offset
  refine ⟨hwalked, ?_⟩
  rw [← hwalked]
  exact f.located?_eq offset

/-- The second byte of a character, a line feed, and the empty line behind it. -/
example : [4, 5, 9].map (Position.walk · { line := 1, column := 1 } 0 "a\r字\n".toList) =
    [.behind 0 2, .behind 0 3, .behind 1 0] := by decide

end SemanticDiagnostics
