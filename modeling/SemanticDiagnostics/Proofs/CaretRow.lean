import SemanticDiagnostics.Proofs.Rendering

/-! # The row of carets

The source row and the row of carets come from one layout of the line. Along the line the layout
counts bytes, which decide what the label covers, and columns, which decide how wide things are
drawn. Before the label the row of carets is blank, as wide as the characters above it; under the
label stand carets; behind the label stands nothing. A medium with styles marks what the label covers
in both rows. -/
namespace SemanticDiagnostics
open Output

/-! ## Display width -/

namespace Snippet

/-- The column that is reached by writing a text from a column on. -/
def reach : Nat → List Char → Nat
  | column, [] => column
  | column, c :: cs => reach (column + widthAt column c) cs

theorem le_reach (column : Nat) (cs : List Char) : column ≤ reach column cs := by
  induction cs generalizing column with
  | nil => exact Nat.le_refl column
  | cons c cs ih => exact Nat.le_trans (Nat.le_add_right ..) (ih _)

/-- A text as the source row shows it from a column on: tabs as blanks, all else as it is. -/
def expand : Nat → List Char → String
  | _, [] => ""
  | column, c :: cs => showAt column c ++ expand (column + widthAt column c) cs

/-! ## Along the line -/

theorem layOut_append (label : Label) (offset column : Nat) (as bs : List Char) :
    layOut label offset column (as ++ bs) =
      layOut label offset column as ++
        layOut label (offset + Text.byteLength as) (reach column as) bs := by
  induction as generalizing offset column with
  | nil => rfl
  | cons a as ih =>
    simp only [List.cons_append, layOut, ih, reach, Text.byteLength_cons, Nat.add_assoc]

theorem join_shown_layOut (label : Label) (offset column : Nat) (cs : List Char) :
    String.join ((layOut label offset column cs).map Cell.shown) = expand column cs := by
  induction cs generalizing offset column with
  | nil => rfl
  | cons c cs ih =>
    rw [layOut, List.map_cons, String.join_cons, ih]
    rfl

variable {label : Label} {offset column : Nat}

/-- Before the label stand blanks, as wide as the characters above them. -/
theorem join_underline_before {cs : List Char} (h : offset + Text.byteLength cs ≤ label.first) :
    String.join ((layOut label offset column cs).map Cell.underline) =
      repeated ' ' (reach column cs - column) := by
  induction cs generalizing offset column with
  | nil =>
    rw [reach, Nat.sub_self]
    rfl
  | cons c cs ih =>
    rw [Text.byteLength_cons] at h
    have hlabel := label.first_lt_past
    have hsize := c.utf8Size_pos
    have hcell : (Cell.ofChar label offset column c).underline =
        repeated ' ' (widthAt column c) := by
      have hcovered : label.covers offset c.utf8Size = false := by
        simp only [Label.covers, decide_eq_false_iff_not]
        omega
      have hahead : offset < label.past := by omega
      simp [Cell.underline, Cell.ofChar, hcovered, hahead]
    have hreach := le_reach (column + widthAt column c) cs
    rw [layOut, List.map_cons, String.join_cons, hcell, ih (by omega), ← repeated_add, reach]
    congr 1
    omega

/-- Under the label stand carets, as wide as the character above them. -/
theorem underline_ofChar {c : Char} (h : label.first ≤ offset) (h' : offset < label.past) :
    (Cell.ofChar label offset column c).underline = repeated '^' (widthAt column c) := by
  have hsize := c.utf8Size_pos
  have hcovered : label.covers offset c.utf8Size = true := by
    simp only [Label.covers, decide_eq_true_eq]
    omega
  simp [Cell.underline, Cell.ofChar, hcovered]

theorem covers_of_past_le {size : Nat} (h : label.past ≤ offset) :
    label.covers offset size = false := by
  simp only [Label.covers, decide_eq_false_iff_not]
  omega

/-- Behind the label stands nothing. -/
theorem join_underline_behind {cs : List Char} (h : label.past ≤ offset) :
    String.join ((layOut label offset column cs).map Cell.underline) = "" := by
  induction cs generalizing offset column with
  | nil => rfl
  | cons c cs ih =>
    have hcell : (Cell.ofChar label offset column c).underline = "" := by
      simp [Cell.underline, Cell.ofChar, covers_of_past_le h, Nat.not_lt.2 h]
    rw [layOut, List.map_cons, String.join_cons, hcell, ih (by omega), String.append_empty]

theorem underline_behind {cs : List Char} (h : label.past ≤ Text.byteLength cs) :
    (Cell.behind label cs).underline = "" := by
  simp [Cell.underline, Cell.behind, covers_of_past_le h, Nat.not_lt.2 h]

/-! ## Marked cells -/

variable {medium : Medium} {c : Char} {cs : List Char}

/-- A text in the color of labels. -/
def marked (medium : Medium) (s : String) : String := textOf medium (Piece.styled marker s)

theorem textOf_texts (medium : Medium) (ss : List String) :
    textOf medium (ss.map .text) = String.join ss := by
  rw [textOf, List.map_map]
  exact congrArg String.join (List.map_id ss)

/-- Without marked texts, there is no change of style. -/
theorem highlight_unmarked (ss : List String) :
    highlight false (ss.map (false, ·)) = ss.map .text := by
  induction ss with
  | nil => rfl
  | cons s ss ih => exact congrArg (Piece.text s :: ·) ih

/-- Around a single marked text, the style is set and reset. -/
theorem highlight_marked (as : List String) (s : String) (bs : List String) :
    highlight false (as.map (false, ·) ++ (true, s) :: bs.map (false, ·)) =
      as.map .text ++ (Piece.styled marker s ++ bs.map .text) := by
  induction as with
  | nil =>
    have hreset : highlight true (bs.map (false, ·)) = Piece.reset :: bs.map .text := by
      rw [← highlight_unmarked]
      cases bs <;> rfl
    show .style marker :: .text s :: highlight true (bs.map (false, ·)) = _
    rw [hreset]
    rfl
  | cons a as ih => exact congrArg (Piece.text a :: ·) ih

/-- The cells of which none is covered. -/
def Uncovered (cells : List Cell) : Prop := ∀ cell ∈ cells, cell.covered = false

theorem texts_of_uncovered {cells : List Cell} (h : Uncovered cells) (f : Cell → String) :
    texts f cells = (cells.map f).map (false, ·) := by
  rw [texts, List.map_map]
  exact List.map_congr_left fun cell hcell => congrArg (·, f cell) (h cell hcell)

theorem textOf_highlight_uncovered {cells : List Cell} (h : Uncovered cells) (f : Cell → String) :
    textOf medium (highlight false (texts f cells)) = String.join (cells.map f) := by
  rw [texts_of_uncovered h, highlight_unmarked, textOf_texts]

theorem textOf_highlight_covered {before after : List Cell} {cell : Cell} (hbefore : Uncovered before)
    (hcell : cell.covered = true) (hafter : Uncovered after) (f : Cell → String) :
    textOf medium (highlight false (texts f (before ++ cell :: after))) =
      String.join (before.map f) ++ (marked medium (f cell) ++ String.join (after.map f)) := by
  have hsplit : texts f (before ++ cell :: after) =
      texts f before ++ (true, f cell) :: texts f after := by
    rw [texts, List.map_append, List.map_cons, hcell]
    rfl
  rw [hsplit, texts_of_uncovered hbefore, texts_of_uncovered hafter, highlight_marked, textOf_append,
    textOf_append, textOf_texts, textOf_texts, marked]

/-! ## Rows for any medium -/

theorem uncovered_before (h : offset + Text.byteLength cs ≤ label.first) :
    Uncovered (layOut label offset column cs) := by
  induction cs generalizing offset column with
  | nil => exact fun cell hcell => nomatch hcell
  | cons c cs ih =>
    have hsize := c.utf8Size_pos
    rw [Text.byteLength_cons] at h
    exact List.forall_mem_cons.2 ⟨decide_eq_false (by omega), ih (by omega)⟩

theorem uncovered_behind (h : label.past ≤ offset) : Uncovered (layOut label offset column cs) := by
  induction cs generalizing offset column with
  | nil => exact fun cell hcell => nomatch hcell
  | cons c cs ih => exact List.forall_mem_cons.2 ⟨covers_of_past_le h, ih (by omega)⟩

/-- The source row for a label, behind the border. -/
def sourceText (medium : Medium) (label : Label) (cs : List Char) : String :=
  textOf medium (highlight false (texts Cell.shown (layOut label 0 0 cs)))

/-- The row of carets for a label, behind the border. -/
def caretText (medium : Medium) (label : Label) (cs : List Char) : String :=
  textOf medium
    (highlight false (texts Cell.underline (layOut label 0 0 cs ++ [.behind label cs])))

/-- Both rows for a label on one character of the line. -/
theorem rows_char (medium : Medium) (label : Label) {before : List Char} (after : List Char)
    (hfirst : label.first = Text.byteLength before)
    (hpast : label.past = Text.byteLength before + c.utf8Size) :
    let left := reach 0 before
    sourceText medium label (before ++ c :: after) =
        expand 0 before ++ (marked medium (showAt left c) ++ expand (left + widthAt left c) after) ∧
      caretText medium label (before ++ c :: after) =
        repeated ' ' left ++ marked medium (repeated '^' (widthAt left c)) := by
  intro left
  have hsize := c.utf8Size_pos
  -- Of all cells, the placeholder included, the label covers just that of the character.
  have hcells : layOut label 0 0 (before ++ c :: after) = layOut label 0 0 before ++
      .ofChar label (Text.byteLength before) left c ::
        layOut label (Text.byteLength before + c.utf8Size) (left + widthAt left c) after := by
    rw [← Nat.zero_add (Text.byteLength before)]
    exact layOut_append ..
  have hend : label.past ≤ Text.byteLength (before ++ c :: after) := by
    rw [Text.byteLength_append, Text.byteLength_cons]
    omega
  have hbefore : Uncovered (layOut label 0 0 before) := uncovered_before (by omega)
  have hcell : (Cell.ofChar label (Text.byteLength before) left c).covered = true :=
    decide_eq_true (by omega)
  have hafter : Uncovered (layOut label (Text.byteLength before + c.utf8Size)
      (left + widthAt left c) after) := uncovered_behind (by omega)
  have hplaceholder : Uncovered [.behind label (before ++ c :: after)] :=
    List.forall_mem_singleton.2 (covers_of_past_le hend)
  constructor
  · rw [sourceText, hcells, textOf_highlight_covered hbefore hcell hafter, join_shown_layOut,
      join_shown_layOut]
    rfl
  · rw [caretText, hcells, List.append_assoc, List.cons_append, textOf_highlight_covered hbefore
      hcell (List.forall_mem_append.2 ⟨hafter, hplaceholder⟩), List.map_append, List.map_singleton,
      String.join_append, String.join_cons, join_underline_before (by omega),
      underline_ofChar (by omega) (by omega), join_underline_behind (by omega),
      underline_behind hend, Nat.sub_zero]
    simp only [String.join_nil, String.append_empty]
    rfl

/-- Both rows for a label that starts behind the line. A caret is drawn only right behind it. -/
theorem rows_past (medium : Medium) (label : Label) (h : Text.byteLength cs ≤ label.first) :
    sourceText medium label cs = expand 0 cs ∧
      caretText medium label cs = repeated ' ' (reach 0 cs) ++
        if label.first = Text.byteLength cs then marked medium "^" else " " := by
  have hlabel := label.first_lt_past
  have hcells : Uncovered (layOut label 0 0 cs) := uncovered_before (by omega)
  have hblanks : String.join ((layOut label 0 0 cs).map Cell.underline) =
      repeated ' ' (reach 0 cs) := join_underline_before (by omega)
  constructor
  · rw [sourceText, textOf_highlight_uncovered hcells, join_shown_layOut]
  by_cases hfirst : label.first = Text.byteLength cs
  · have hcovered : (Cell.behind label cs).covered = true := decide_eq_true (by omega)
    have hcaret : (Cell.behind label cs).underline = "^" := if_pos hcovered
    have hnone : Uncovered [] := fun cell hcell => nomatch hcell
    rw [caretText, textOf_highlight_covered hcells hcovered hnone, hblanks, hcaret, if_pos hfirst]
    exact congrArg _ (String.append_empty ..)
  · have huncovered : (Cell.behind label cs).covered = false := decide_eq_false (by omega)
    have hahead : (Cell.behind label cs).ahead = true := decide_eq_true (by omega)
    have hblank : (Cell.behind label cs).underline = " " :=
      (if_neg (by rw [huncovered]; exact Bool.false_ne_true)).trans (if_pos hahead)
    have hall : Uncovered (layOut label 0 0 cs ++ [.behind label cs]) :=
      List.forall_mem_append.2 ⟨hcells, List.forall_mem_singleton.2 huncovered⟩
    rw [caretText, textOf_highlight_uncovered hall, List.map_append, String.join_append, hblanks,
      List.map_singleton, hblank, if_neg hfirst]
    rfl

/-! ## Without styles -/

/-- The row of carets for a label on one character of the line. -/
theorem join_underline_char {before after : List Char}
    (hfirst : label.first = Text.byteLength before)
    (hpast : label.past = Text.byteLength before + c.utf8Size) :
    String.join ((layOut label 0 0 (before ++ c :: after) ++
        [Cell.behind label (before ++ c :: after)]).map Cell.underline) =
      repeated ' ' (reach 0 before) ++ repeated '^' (widthAt (reach 0 before) c) := by
  have hcarets := (rows_char .plain label after hfirst hpast).2
  rwa [caretText, textOf_plain_texts, marked, textOf_plain_styled] at hcarets

/-- The row of carets for a label that starts behind the line. A caret is drawn only right behind it. -/
theorem join_underline_past (h : Text.byteLength cs ≤ label.first) :
    String.join ((layOut label 0 0 cs ++ [Cell.behind label cs]).map Cell.underline) =
      repeated ' ' (reach 0 cs) ++ if label.first = Text.byteLength cs then "^" else " " := by
  have hcarets := (rows_past .plain label h).2
  rwa [caretText, textOf_plain_texts, marked, textOf_plain_styled] at hcarets

end Snippet

end SemanticDiagnostics
