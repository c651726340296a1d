import SemanticDiagnostics.SourceFile

/-! # Positions by reading

A text is read from line 1, column 1 on: every character moves the reader one column further, and a
line feed to the start of the next line. `positionAt_eq_after` says that the position of an offset,
found by halving the table of lines and counting in one of them, is where the reader stands after
the characters that end at or before the offset. -/
namespace SemanticDiagnostics

/-! ## Characters up to an offset -/

namespace Text

/-- The characters at the front of a text that end at or before an offset. -/
def passed : List Char → Nat → List Char
  | [], _ => []
  | c :: cs, n => if c.utf8Size ≤ n then c :: passed cs (n - c.utf8Size) else []

theorem passed_append {as : List Char} {c : Char} {bs : List Char} {n : Nat}
    (h : byteLength as ≤ n) (h' : n < byteLength as + c.utf8Size) :
    passed (as ++ c :: bs) n = as := by
  induction as generalizing n with
  | nil =>
    rw [byteLength_nil, Nat.zero_add] at h'
    exact ite_eq_right_iff.2 fun hle => absurd hle (Nat.not_le.2 h')
  | cons a as ih =>
    rw [byteLength_cons] at h h'
    rw [List.cons_append, passed, if_pos (by omega), ih (by omega) (by omega)]

/-- Two cuts of a text at a character are the same if one lies at a byte of the other's character. -/
theorem append_cons_inj {as bs front rest : List Char} {c d : Char}
    (h : as ++ c :: bs = front ++ d :: rest) (hle : byteLength front ≤ byteLength as)
    (hlt : byteLength as < byteLength front + d.utf8Size) : as = front ∧ c = d ∧ bs = rest := by
  have hc := c.utf8Size_pos
  have hpassed : passed (as ++ c :: bs) (byteLength as) = as :=
    passed_append (Nat.le_refl _) (by omega)
  rw [h, passed_append hle hlt] at hpassed
  subst hpassed
  obtain ⟨rfl, rfl⟩ := List.cons.inj (List.append_cancel_left h)
  exact ⟨rfl, rfl, rfl⟩

theorem passed_of_le {cs : List Char} {n : Nat} (h : byteLength cs ≤ n) : passed cs n = cs := by
  induction cs generalizing n with
  | nil => rfl
  | cons c cs ih =>
    rw [byteLength_cons] at h
    rw [passed, if_pos (by omega), ih (by omega)]

theorem le_or_inside (cs : List Char) (n : Nat) :
    byteLength cs ≤ n ∨ ∃ as c bs, cs = as ++ c :: bs ∧
      byteLength as ≤ n ∧ n < byteLength as + c.utf8Size := by
  induction cs generalizing n with
  | nil => exact .inl (Nat.zero_le n)
  | cons c cs ih =>
    by_cases hc : n < c.utf8Size
    · exact .inr ⟨[], c, cs, rfl, Nat.zero_le n, by simpa using hc⟩
    · rcases ih (n - c.utf8Size) with h | ⟨as, d, bs, rfl, h, h'⟩
      · left
        rw [byteLength_cons]
        omega
      · refine .inr ⟨c :: as, d, bs, rfl, ?_, ?_⟩ <;> rw [byteLength_cons] <;> omega

theorem passed_isPrefix (cs : List Char) (n : Nat) : passed cs n <+: cs := by
  rcases le_or_inside cs n with h | ⟨as, c, bs, rfl, h, h'⟩
  · exact ⟨[], by rw [passed_of_le h, List.append_nil]⟩
  · rw [passed_append h h']
    exact List.prefix_append ..

end Text

/-! ## Where the reader stands -/

namespace Position

/-- The place behind some whole lines and some characters of the next one. -/
def behind (lines chars : Nat) : Position := { line := lines + 1, column := chars + 1 }

def lineStart (index : Nat) : Position := behind index 0

/-- Where a reader stands who has read one more character. -/
def advance (p : Position) (c : Char) : Position :=
  if c = '\n' then lineStart p.line
  else { line := p.line, column := p.column + 1, one_le_line := p.one_le_line }

/-- Where a reader stands who has read some characters from a position on. -/
def after (p : Position) (cs : List Char) : Position := cs.foldl advance p

theorem after_append (p : Position) (as bs : List Char) :
    p.after (as ++ bs) = (p.after as).after bs := List.foldl_append

theorem after_of_not_mem {p : Position} {cs : List Char} (h : '\n' ∉ cs) :
    p.after cs =
      { line := p.line, column := p.column + cs.length, one_le_line := p.one_le_line
        one_le_column := Nat.le_add_right_of_le p.one_le_column } := by
  induction cs generalizing p with
  | nil => rfl
  | cons c cs ih =>
    obtain ⟨hc, hcs⟩ := not_or.1 (mt List.mem_cons.2 h)
    have hstep : p.advance c =
        { line := p.line, column := p.column + 1, one_le_line := p.one_le_line } :=
      if_neg (Ne.symm hc)
    rw [after, List.foldl_cons, hstep, ← after, ih hcs]
    simp only [List.length_cons, mk.injEq, true_and]
    omega

theorem after_line {p : Position} {body : List Char} (h : '\n' ∉ body) :
    p.after (body ++ ['\n']) = lineStart p.line := by
  rw [after_append, after_of_not_mem h]
  rfl

end Position

/-! ## Where a line stands -/

namespace Line

/-- A text is a line without a line feed, or a line with one at its end and the text behind it. -/
@[elab_as_elim]
theorem linewise {motive : List Char → Prop} (last : ∀ cs, '\n' ∉ cs → motive cs)
    (more : ∀ body rest, '\n' ∉ body → motive rest → motive (body ++ '\n' :: rest))
    (cs : List Char) : motive cs := by
  by_cases h : '\n' ∈ cs
  · obtain ⟨body, rest, rfl, hbody⟩ := List.eq_append_cons_of_mem h
    exact more body rest hbody (linewise last more rest)
  · exact last cs h
termination_by cs.length

/-- What stands around a line of a text: the characters before it, which take a reader to its
start, and behind it either nothing or, after its line feed, the next line. -/
theorem exists_of_getElem? {cs : List Char} {start index : Nat} {l : Line}
    (h : (layOut start (split cs))[index]? = some l) :
    ∃ front back, cs = front ++ (l.chars ++ back) ∧ l.start = start + Text.byteLength front ∧
      (∀ n, (Position.lineStart n).after front = .lineStart (n + index)) ∧
      ('\n' ∉ l.chars ∧ back = [] ∨
        ∃ body next, '\n' ∉ body ∧ l.chars = body ++ ['\n'] ∧
          (layOut start (split cs))[index + 1]? = some next ∧
          next.start = l.start + Text.byteLength l.chars) := by
  induction cs using linewise generalizing start index with
  | last cs hcs =>
    rw [split_of_not_mem hcs] at h
    cases index with
    | zero =>
      obtain rfl := Option.some.inj h
      exact ⟨[], [], by simp, rfl, fun n => rfl, .inl ⟨hcs, rfl⟩⟩
    | succ index => simp [layOut] at h
  | more body rest hbody ih =>
    rw [split_append hbody, layOut] at h ⊢
    cases index with
    | zero =>
      obtain rfl := Option.some.inj h
      obtain ⟨next, ls, hnext⟩ := List.exists_cons_of_ne_nil (split_ne_nil rest)
      refine ⟨[], rest, by simp, rfl, fun n => rfl, .inr ⟨body, ⟨_, next⟩, hbody, rfl, ?_, rfl⟩⟩
      rw [hnext]
      rfl
    | succ index =>
      obtain ⟨front, back, rfl, hstart, hafter, hend⟩ := ih h
      refine ⟨body ++ '\n' :: front, back, by simp, ?_, ?_, hend⟩
      · rw [hstart]
        simp only [Text.byteLength_append, Text.byteLength_cons, Text.byteLength_nil]
        omega
      · intro n
        have hline : (Position.lineStart n).after (body ++ ['\n']) = .lineStart (n + 1) :=
          Position.after_line hbody
        rw [List.append_cons, Position.after_append, hline, hafter, Nat.add_right_comm,
          Nat.add_assoc]

theorem newline_not_mem_front {cs : List Char} {index : Nat} {l : Line} {as : List Char} {c : Char}
    {bs : List Char} (hline : (ofText cs)[index]? = some l) (hchars : l.chars = as ++ c :: bs) :
    '\n' ∉ as := by
  obtain ⟨-, -, -, -, -, ⟨hfeed, -⟩ | ⟨body, -, hbody, hfeed, -⟩⟩ := exists_of_getElem? hline
  · exact fun hmem => hfeed (by simp [hchars, hmem])
  · rw [hchars, ← List.dropLast_concat_getLast (List.cons_ne_nil c bs), ← List.append_assoc] at hfeed
    have hfront := List.append_inj_left' hfeed rfl
    exact fun hmem => hbody (by simp [← hfront, hmem])

theorem after_passed_inside {cs : List Char} {index offset : Nat} {l : Line} {as : List Char}
    {c : Char} {bs : List Char} (hline : (ofText cs)[index]? = some l)
    (hchars : l.chars = as ++ c :: bs) (h : l.start + Text.byteLength as ≤ offset)
    (h' : offset < l.start + Text.byteLength as + c.utf8Size) :
    (Position.lineStart 0).after (Text.passed cs offset) = .behind index as.length := by
  obtain ⟨front, back, hcs, hfront, hafter, -⟩ := exists_of_getElem? hline
  have hcut : cs = (front ++ as) ++ c :: (bs ++ back) := by
    rw [hcs, hchars]
    simp
  have hlength : Text.byteLength (front ++ as) = l.start + Text.byteLength as := by
    rw [Text.byteLength_append, hfront, Nat.zero_add]
  rw [hcut, Text.passed_append (by omega) (by omega), Position.after_append, hafter,
    Position.after_of_not_mem (newline_not_mem_front hline hchars)]
  simp only [Position.lineStart, Position.behind, Position.mk.injEq]
  omega

/-- A reader who has passed the characters up to an offset stands in the line that starts at or
before it, if the next line does not, and in the column that counting in this line gives. -/
theorem after_passed {cs : List Char} {index offset : Nat} {l : Line}
    (hline : (ofText cs)[index]? = some l) (hstart : l.start ≤ offset)
    (hnext : ∀ next, (ofText cs)[index + 1]? = some next → offset < next.start) :
    ((Position.lineStart 0).after (Text.passed cs offset)).line = index + 1 ∧
      ((Position.lineStart 0).after (Text.passed cs offset)).column = l.columnAt offset := by
  rcases Text.le_or_inside l.chars (offset - l.start) with h | ⟨as, c, bs, hchars, h, h'⟩
  · obtain ⟨front, back, hcs, hfront, hafter, hend⟩ := exists_of_getElem? hline
    -- past a line that is followed by another one, the offset would not be in the line
    rcases hend with ⟨hfeed, rfl⟩ | ⟨body, next, _, _, hget, heq⟩
    · rw [Nat.zero_add] at hfront
      rw [List.append_nil] at hcs
      have hend : l.start + Text.byteLength l.chars ≤ offset := by omega
      have hpassed : Text.passed cs offset = cs :=
        Text.passed_of_le (by rw [hcs, Text.byteLength_append]; omega)
      rw [hpassed, hcs, Position.after_append, hafter, Position.after_of_not_mem hfeed]
      simp only [columnAt, countP_charEnds_of_le hend, Position.lineStart, Position.behind]
      omega
    · have := hnext next hget
      omega
  · have h : l.start + Text.byteLength as ≤ offset := by omega
    have h' : offset < l.start + Text.byteLength as + c.utf8Size := by omega
    rw [after_passed_inside hline hchars h h', columnAt, hchars, countP_charEnds h h']
    exact ⟨rfl, rfl⟩

end Line

/-! ## The position of an offset -/

namespace SourceFile

/-- The position of an offset is where a reader stands after the characters that end at or before
it: the search for the line and the count in the line agree with reading the whole text. -/
theorem positionAt_eq_after (f : SourceFile) (offset : Nat) :
    f.positionAt offset = (Position.lineStart 0).after (Text.passed f.source.toList offset) := by
  have hline := f.getElem?_lineIndex offset
  rw [f.lines_eq, List.getElem?_toArray] at hline
  have hnext : ∀ next, (Line.ofText f.source.toList)[f.lineIndex offset + 1]? = some next →
      offset < next.start := by
    intro next hnext
    refine lt_start_of_lineIndex (f := f) ?_
    rw [f.lines_eq, List.getElem?_toArray]
    exact hnext
  obtain ⟨hnumber, hcolumn⟩ := Line.after_passed hline (f.start_lineAt_le offset) hnext
  exact Position.ext hnumber.symm hcolumn.symm

variable {f : SourceFile} {index offset : Nat} {l : Line} {as bs : List Char} {c : Char}

/-- Inside a character of a line, the position is that of the character. -/
theorem positionAt_inside (hline : f.lines[index]? = some l) (hchars : l.chars = as ++ c :: bs)
    (h : l.start + Text.byteLength as ≤ offset)
    (h' : offset < l.start + Text.byteLength as + c.utf8Size) :
    f.positionAt offset = .behind index as.length := by
  rw [f.lines_eq, List.getElem?_toArray] at hline
  rw [positionAt_eq_after, Line.after_passed_inside hline hchars h h']

theorem lineAt_inside (hline : f.lines[index]? = some l) (hchars : l.chars = as ++ c :: bs)
    (h : l.start + Text.byteLength as ≤ offset)
    (h' : offset < l.start + Text.byteLength as + c.utf8Size) : f.lineAt offset = l := by
  have hindex : f.lineIndex offset = index :=
    Nat.succ.inj (congrArg Position.line (positionAt_inside hline hchars h h'))
  have hfound := f.getElem?_lineIndex offset
  rw [hindex, hline] at hfound
  exact (Option.some.inj hfound).symm

end SourceFile

end SemanticDiagnostics
