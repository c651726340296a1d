import SemanticDiagnostics.Position
import SemanticDiagnostics.Text.Cutting

/-!
The lines of a source text. A line feed ends a line and belongs to it; every other character,
carriage returns included, is an ordinary one. The lines laid out one behind the other are the text.
-/

namespace SemanticDiagnostics

/-- A line: the byte offset at which it starts, and its characters with the line feed that ends it. -/
structure Line where
  start : Nat
  chars : List Char
  deriving DecidableEq, Repr

namespace Line

/-! ## Cutting a text into lines -/

/-- Cuts a text after every line feed. What follows the last one is a line too, even if empty. -/
def split : List Char → List (List Char)
  | [] => [[]]
  | c :: cs => if c = '\n' then [c] :: split cs else (split cs).modifyHead (c :: ·)

theorem split_ne_nil (cs : List Char) : split cs ≠ [] := by
  induction cs with
  | nil => simp [split]
  | cons c cs ih => by_cases h : c = '\n' <;> simp [split, h, ih]

/-- No character is lost or moved by the cuts. -/
@[simp] theorem flatten_split (cs : List Char) : (split cs).flatten = cs := by
  induction cs with
  | nil => rfl
  | cons c cs ih =>
    by_cases h : c = '\n'
    · simp [split, h, ih]
    · obtain ⟨l, ls, hl⟩ := List.exists_cons_of_ne_nil (split_ne_nil cs)
      simp_all [split]

/-- There is one line more than there are line feeds. -/
@[simp] theorem length_split (cs : List Char) : (split cs).length = cs.count '\n' + 1 := by
  induction cs with
  | nil => rfl
  | cons c cs ih => by_cases h : c = '\n' <;> simp [split, h, ih]

theorem split_of_not_mem {cs : List Char} (h : '\n' ∉ cs) : split cs = [cs] := by
  induction cs with
  | nil => rfl
  | cons c cs ih =>
    obtain ⟨hc, hcs⟩ := not_or.1 (mt List.mem_cons.2 h)
    rw [split, if_neg (Ne.symm hc), ih hcs]
    rfl

theorem split_append {body : List Char} (h : '\n' ∉ body) (rest : List Char) :
    split (body ++ '\n' :: rest) = (body ++ ['\n']) :: split rest := by
  induction body with
  | nil => rfl
  | cons c cs ih =>
    obtain ⟨hc, hcs⟩ := not_or.1 (mt List.mem_cons.2 h)
    rw [List.cons_append, split, if_neg (Ne.symm hc), ih hcs]
    rfl

/-- Lays lines out one behind the other, the first at offset `start`. -/
def layOut : Nat → List (List Char) → List Line
  | _, [] => []
  | start, cs :: rest => ⟨start, cs⟩ :: layOut (start + Text.byteLength cs) rest

@[simp] theorem length_layOut (start : Nat) (ls : List (List Char)) :
    (layOut start ls).length = ls.length := by
  induction ls generalizing start with
  | nil => rfl
  | cons l ls ih => simp [layOut, ih]

/-- The lines of a text, the first at offset zero. -/
def ofText (cs : List Char) : List Line := layOut 0 (split cs)

@[simp] theorem length_ofText (cs : List Char) : (ofText cs).length = cs.count '\n' + 1 := by
  simp [ofText]

/-! ## Inside a line -/

/-- Line feeds and carriage returns end a line when they stand at its end. -/
def isTerminator (c : Char) : Bool := c = '\n' || c = '\r'

/-- The line without all the terminators at its end. -/
def text (l : Line) : List Char := Text.dropTrailing isTerminator l.chars

/-- The terminators at the end of the line. -/
def terminators (l : Line) : List Char := Text.trailing isTerminator l.chars

/-- The part of the line that a snippet shows: terminators and NUL characters at the end are cut. -/
def shown (l : Line) : List Char :=
  Text.dropTrailing (fun c => isTerminator c || c = '\x00') l.chars

@[simp] theorem text_append_terminators (l : Line) : l.text ++ l.terminators = l.chars :=
  Text.dropTrailing_append_trailing ..

theorem text_isPrefix_chars (l : Line) : l.text <+: l.chars := Text.dropTrailing_isPrefix ..

theorem shown_isPrefix_text (l : Line) : l.shown <+: l.text :=
  Text.dropTrailing_isPrefix_of_imp (fun c hc => by simp [hc]) l.chars

/-- The offsets at which the characters end, the first of them starting at `offset`. -/
def charEnds : Nat → List Char → List Nat
  | _, [] => []
  | offset, c :: cs => (offset + c.utf8Size) :: charEnds (offset + c.utf8Size) cs

@[simp] theorem length_charEnds (offset : Nat) (cs : List Char) :
    (charEnds offset cs).length = cs.length := by
  induction cs generalizing offset with
  | nil => rfl
  | cons c cs ih => simp [charEnds, ih]

theorem charEnds_append (offset : Nat) (as bs : List Char) :
    charEnds offset (as ++ bs) =
      charEnds offset as ++ charEnds (offset + Text.byteLength as) bs := by
  induction as generalizing offset with
  | nil => rfl
  | cons a as ih => simp [charEnds, ih, Nat.add_assoc]

/-- Characters end behind the start of the first and not behind the end of the last. -/
theorem bounds_of_mem_charEnds {offset bound : Nat} {cs : List Char}
    (h : bound ∈ charEnds offset cs) : offset < bound ∧ bound ≤ offset + Text.byteLength cs := by
  induction cs generalizing offset with
  | nil => simp [charEnds] at h
  | cons c cs ih =>
    have := c.utf8Size_pos
    rw [Text.byteLength_cons]
    rcases List.mem_cons.1 h with rfl | h
    · omega
    · have := ih h
      omega

/-- Up to a place inside a character, exactly the characters before it have ended. -/
theorem countP_charEnds {offset : Nat} {as : List Char} {c : Char} {bs : List Char} {x : Nat}
    (h : offset + Text.byteLength as ≤ x) (h' : x < offset + Text.byteLength as + c.utf8Size) :
    (charEnds offset (as ++ c :: bs)).countP (· ≤ x) = as.length := by
  rw [charEnds_append, List.countP_append, charEnds]
  have hfront : (charEnds offset as).countP (· ≤ x) = as.length := by
    rw [List.countP_eq_length.2, length_charEnds]
    intro bound hbound
    have := bounds_of_mem_charEnds hbound
    simpa using by omega
  have hback : ((offset + Text.byteLength as + c.utf8Size) ::
      charEnds (offset + Text.byteLength as + c.utf8Size) bs).countP (· ≤ x) = 0 := by
    rw [List.countP_eq_zero]
    intro bound hbound
    rcases List.mem_cons.1 hbound with rfl | hbound
    · simpa using h'
    · have := bounds_of_mem_charEnds hbound
      simpa using by omega
  rw [hfront, hback, Nat.add_zero]

/-- Up to the end of the last character, all have ended. -/
theorem countP_charEnds_of_le {offset : Nat} {cs : List Char} {x : Nat}
    (h : offset + Text.byteLength cs ≤ x) : (charEnds offset cs).countP (· ≤ x) = cs.length := by
  rw [List.countP_eq_length.2, length_charEnds]
  intro bound hbound
  have := bounds_of_mem_charEnds hbound
  simpa using by omega

/-- The column of an offset in the line: one more than the characters that end at or before it. -/
def columnAt (l : Line) (offset : Nat) : Nat :=
  (charEnds l.start l.chars).countP (· ≤ offset) + 1

/-- The bytes of the character with this index, the first character starting at `offset`; past the
last character, the empty span at the end. -/
def spanOf : Nat → List Char → Nat → Span
  | offset, [], _ => .emptyAt offset
  | offset, c :: _, 0 => { lo := offset, hi := offset + c.utf8Size }
  | offset, c :: cs, index + 1 => spanOf (offset + c.utf8Size) cs index

theorem spanOf_append (offset : Nat) (as : List Char) (c : Char) (bs : List Char) :
    spanOf offset (as ++ c :: bs) as.length =
      { lo := offset + Text.byteLength as, hi := offset + Text.byteLength as + c.utf8Size } := by
  induction as generalizing offset with
  | nil => rfl
  | cons a as ih => simp [spanOf, ih, Nat.add_assoc]

theorem spanOf_of_le {cs : List Char} {index : Nat} (offset : Nat) (h : cs.length ≤ index) :
    spanOf offset cs index = .emptyAt (offset + Text.byteLength cs) := by
  induction cs generalizing offset index with
  | nil => simp [spanOf]
  | cons c cs ih =>
    cases index with
    | zero => simp at h
    | succ index => simp [spanOf, ih _ (Nat.le_of_succ_le_succ h), Nat.add_assoc]

theorem spanOf_add (start offset : Nat) (cs : List Char) (index : Nat) :
    (spanOf (start + offset) cs index).lo = start + (spanOf offset cs index).lo ∧
      (spanOf (start + offset) cs index).hi = start + (spanOf offset cs index).hi := by
  induction cs generalizing offset index with
  | nil => simp [spanOf, Span.emptyAt]
  | cons c cs ih =>
    cases index with
    | zero => exact ⟨rfl, Nat.add_assoc ..⟩
    | succ index =>
      rw [spanOf, spanOf, Nat.add_assoc]
      exact ih _ index

theorem lo_spanOf (offset : Nat) (cs : List Char) (index : Nat) :
    (spanOf offset cs index).lo = offset + Text.byteLength (cs.take index) := by
  induction cs generalizing offset index with
  | nil => simp [spanOf, Span.emptyAt]
  | cons c cs ih =>
    cases index with
    | zero => rfl
    | succ index => rw [spanOf, ih, List.take_succ_cons, Text.byteLength_cons, Nat.add_assoc]

/-- The bytes of the character in a column, the terminators at the end of the line not counted. -/
def charSpan (l : Line) (column : Nat) : Span := spanOf l.start l.text (column - 1)

end Line

end SemanticDiagnostics
