import SemanticDiagnostics.Proofs.Colors
import SemanticDiagnostics.Proofs.Decoding

/-! # Colors on a terminal

A terminal follows the escape sequences that it reads: what it shows next is in the style that those
since the last return to the default have set. Rich output with colors sets a style only within a row
and goes back to the default before the row ends, whatever the row shows. The message of a record may
go over several rows, and it has its own style in all of them. -/
namespace SemanticDiagnostics
open Session Output

/-! ## A terminal -/

namespace Output

/-- How far a terminal is in an escape sequence. -/
inductive Terminal.Mode where
  | text
  | escape
  | sequence (parameters : List Char)
  deriving DecidableEq, Repr

structure Terminal where
  mode : Terminal.Mode := .text
  /-- The parameters of the sequences since the last that went back to the default style. -/
  active : List (List Char) := []
  deriving DecidableEq, Repr

namespace Terminal

/-- What is in effect behind one more sequence. -/
def activate (active : List (List Char)) (parameters : List Char) : List (List Char) :=
  if parameters = ['0'] then [] else active ++ [parameters]

def step (t : Terminal) (c : Char) : Terminal :=
  match t.mode with
  | .text => if c = '\x1b' then { t with mode := .escape } else t
  | .escape => { t with mode := if c = '[' then .sequence [] else .text }
  | .sequence parameters =>
    if c = 'm' then { active := activate t.active parameters }
    else { t with mode := .sequence (parameters ++ [c]) }

def run (t : Terminal) (cs : List Char) : Terminal := cs.foldl step t

/-- A terminal that has read nothing, and one that is as if it had not. -/
def initial : Terminal := {}

theorem run_append (t : Terminal) (as bs : List Char) : t.run (as ++ bs) = (t.run as).run bs :=
  List.foldl_append

variable {cs : List Char} {active : List (List Char)}

/-- Text changes nothing. -/
theorem run_text (h : '\x1b' ∉ cs) : run { active } cs = { active } := by
  induction cs with
  | nil => rfl
  | cons c cs ih =>
    obtain ⟨hc, hcs⟩ := not_or.1 (mt List.mem_cons.2 h)
    have hstep : step { active } c = { active } := if_neg (Ne.symm hc)
    show run (step { active } c) cs = _
    rw [hstep, ih hcs]

theorem run_parameters (h : 'm' ∉ cs) (read : List Char) :
    run { mode := .sequence read, active } (cs ++ ['m']) =
      { active := activate active (read ++ cs) } := by
  induction cs generalizing read with
  | nil =>
    rw [List.append_nil]
    rfl
  | cons c cs ih =>
    obtain ⟨hc, hcs⟩ := not_or.1 (mt List.mem_cons.2 h)
    have hstep : step { mode := .sequence read, active } c =
        { mode := .sequence (read ++ [c]), active } := if_neg (Ne.symm hc)
    show run (step { mode := .sequence read, active } c) (cs ++ ['m']) = _
    rw [hstep, ih hcs, List.append_assoc, List.singleton_append]

theorem run_sequence {parameters : String} (h : 'm' ∉ parameters.toList) :
    run { active } (sequence parameters).toList =
      { active := activate active parameters.toList } := by
  have hsequence : (sequence parameters).toList =
      '\x1b' :: '[' :: (parameters.toList ++ ['m']) := by
    simp [sequence, String.toList_append]
  rw [hsequence]
  exact run_parameters h []

example : initial.run "a\x1b[0m\x1b[1mb\x1b[38;5;9mc\x1b[3".toList =
    { mode := .sequence ['3'], active := [['1'], ['3', '8', ';', '5', ';', '9']] } := by decide

end Terminal

/-! ## Styles on a terminal -/

def Color.parameters : Color → List Char
  | .blue => ['3', '4']
  | .red => ['3', '1']
  | .brightRed => ['3', '8', ';', '5', ';', '9']

/-- What is in effect in a style. -/
def Style.active (s : Style) : List (List Char) :=
  (if s.bold then [['1']] else []) ++ (s.color.map Color.parameters).toList

/-- A terminal that reads text in a style. -/
def Terminal.showing (s : Style) : Terminal := { active := s.active }

theorem Terminal.showing_default : showing {} = initial := rfl

/-- Whatever is in effect, behind the sequences of a style it is that style. -/
theorem Terminal.run_style (active : List (List Char)) (s : Style) :
    run { active } s.escape.toList = showing s := by
  obtain ⟨bold, color⟩ := s
  rw [Style.escape, String.toList_append, String.toList_append, run_append, run_append,
    run_sequence (by decide)]
  have hbold : run { active := [] } (if bold then sequence "1" else "").toList =
      { active := if bold then [['1']] else [] } := by
    cases bold with
    | false => rfl
    | true => exact run_sequence (by decide)
  have hcolor (active : List (List Char)) :
      run { active } ((color.map Color.escape).getD "").toList =
        { active := active ++ (color.map Color.parameters).toList } := by
    cases color with
    | none => exact congrArg (Terminal.mk .text) (List.append_nil _).symm
    | some color => cases color <;> exact run_sequence (by decide)
  exact (congrArg (run · _) hbold).trans (hcolor _)

/-- The style behind some pieces. -/
def Style.after : Style → List Piece → Style
  | s, [] => s
  | s, .text _ :: ps => s.after ps
  | _, .style s :: ps => s.after ps

theorem Style.after_append (s : Style) (ps qs : List Piece) :
    s.after (ps ++ qs) = (s.after ps).after qs := by
  induction ps generalizing s with
  | nil => rfl
  | cons p ps ih => cases p <;> exact ih _

/-- A terminal shows what stands behind some pieces in the style that they end with. -/
theorem Terminal.run_textOf {ps : List Piece} (h : Text.IsClean (textOf .plain ps)) (s : Style) :
    (showing s).run (textOf .ansi ps).toList = showing (s.after ps) := by
  induction ps generalizing s with
  | nil => rfl
  | cons p ps ih =>
    rw [textOf_cons, Text.isClean_append] at h
    rw [textOf_cons, String.toList_append, run_append]
    cases p with
    | text t => exact (congrArg (run · _) (run_text h.1)).trans (ih h.2 s)
    | style t => exact (congrArg (run · _) (run_style _ t)).trans (ih h.2 t)

/-! ## Pieces that hold a character -/

/-- A place in what items are written as is a place in what one of them is written as. -/
theorem exists_of_flatMap_eq {α β : Type} {write : α → List β} {xs : List α} {front back : List β}
    {b : β} (h : xs.flatMap write = front ++ b :: back) :
    ∃ earlier x later before after, xs = earlier ++ x :: later ∧ write x = before ++ b :: after ∧
      front = earlier.flatMap write ++ before := by
  induction xs generalizing front with
  | nil => simp at h
  | cons x xs ih =>
    rw [List.flatMap_cons] at h
    obtain ⟨more, rfl, hrest⟩ | ⟨more, hwrite, hrest⟩ := List.append_eq_append_iff.1 h
    · obtain ⟨earlier, y, later, before, after, rfl, hy, rfl⟩ := ih hrest
      exact ⟨x :: earlier, y, later, before, after, rfl, hy, by simp⟩
    · cases more with
      -- All of `x` stands before the place.
      | nil =>
        have hnext : xs.flatMap write = [] ++ b :: back := hrest.symm
        obtain ⟨earlier, y, later, before, after, rfl, hy, hbefore⟩ := ih hnext
        refine ⟨x :: earlier, y, later, before, after, rfl, hy, ?_⟩
        rw [List.flatMap_cons, List.append_assoc, ← hbefore, hwrite, List.append_nil, List.append_nil]
      | cons c more =>
        obtain ⟨rfl, -⟩ := List.cons.inj hrest
        exact ⟨[], x, xs, front, more, rfl, hwrite, rfl⟩

/-- A place behind a part without the item is a place in what follows the part. -/
theorem exists_of_append_eq {α : Type} {as bs front back : List α} {b : α} (hb : b ∉ as)
    (h : as ++ bs = front ++ b :: back) : ∃ more, front = as ++ more ∧ bs = more ++ b :: back := by
  induction as generalizing front with
  | nil => exact ⟨front, rfl, h⟩
  | cons a as ih =>
    obtain ⟨ha, has⟩ := not_or.1 (mt List.mem_cons.2 hb)
    cases front with
    | nil => exact absurd (List.cons.inj h).1.symm ha
    | cons c front =>
      obtain ⟨rfl, hrest⟩ := List.cons.inj h
      obtain ⟨more, rfl, hbs⟩ := ih has hrest
      exact ⟨more, rfl, hbs⟩

theorem feed_not_mem_escape (s : Style) : '\n' ∉ s.escape.toList := by
  obtain ⟨bold, color⟩ := s
  have hnone (bold : Bool) : '\n' ∉ (Style.escape ⟨bold, none⟩).toList := by
    cases bold <;> decide
  have hsome (bold : Bool) (color : Color) : '\n' ∉ (Style.escape ⟨bold, some color⟩).toList := by
    cases bold <;> cases color <;> decide
  cases color with
  | none => exact hnone bold
  | some color => exact hsome bold color

theorem toList_textOf (medium : Medium) (ps : List Piece) :
    (textOf medium ps).toList = ps.flatMap fun p => (p.render medium).toList := by
  rw [textOf, String.toList_join, List.flatMap_map]

/-- A line feed in output is one of a text. -/
theorem exists_text_of_feed {ps : List Piece} {before after : List Char}
    (h : (textOf .ansi ps).toList = before ++ '\n' :: after) :
    ∃ earlier t later front back, ps = earlier ++ .text t :: later ∧
      t.toList = front ++ '\n' :: back ∧ before = (textOf .ansi earlier).toList ++ front := by
  rw [toList_textOf] at h
  obtain ⟨earlier, p, later, front, back, rfl, hp, rfl⟩ := exists_of_flatMap_eq h
  rw [← toList_textOf]
  cases p with
  | text t => exact ⟨earlier, t, later, front, back, rfl, hp, rfl⟩
  | style s =>
    have hfeed : '\n' ∈ s.escape.toList := hp ▸ List.mem_append_right front List.mem_cons_self
    exact absurd hfeed (feed_not_mem_escape s)

/-- Behind pieces in this style, a line feed is in the default style. -/
def FeedsPlain : Style → List Piece → Prop
  | _, [] => True
  | s, .text t :: ps => ('\n' ∈ t.toList → s = {}) ∧ FeedsPlain s ps
  | _, .style s :: ps => FeedsPlain s ps

theorem feedsPlain_append {s : Style} {ps qs : List Piece} :
    FeedsPlain s (ps ++ qs) ↔ FeedsPlain s ps ∧ FeedsPlain (s.after ps) qs := by
  induction ps generalizing s with
  | nil => exact (iff_of_eq (true_and _)).symm
  | cons p ps ih =>
    cases p with
    | text t => exact (and_congr_right fun _ => ih).trans and_assoc.symm
    | style s => exact ih

theorem FeedsPlain.after_eq {s : Style} {ps earlier later : List Piece} {t : String}
    (h : FeedsPlain s ps) (hps : ps = earlier ++ .text t :: later) (hfeed : '\n' ∈ t.toList) :
    s.after earlier = {} := by
  rw [hps, feedsPlain_append] at h
  exact h.2.1 hfeed

/-- Pieces that start and end in the default style, with no line feed in another. -/
structure Settled (ps : List Piece) : Prop where
  feeds : FeedsPlain {} ps
  restores : Style.after {} ps = {}

namespace Settled

variable {ps qs : List Piece}

theorem nil : Settled [] := ⟨trivial, rfl⟩

theorem text (t : String) : Settled [.text t] := ⟨⟨fun _ => rfl, trivial⟩, rfl⟩

theorem styled (style : Style) {t : String} (h : '\n' ∉ t.toList) : Settled (Piece.styled style t) :=
  ⟨⟨fun hfeed => absurd hfeed h, trivial⟩, rfl⟩

theorem append (hps : Settled ps) (hqs : Settled qs) : Settled (ps ++ qs) := by
  refine ⟨feedsPlain_append.2 ⟨hps.feeds, ?_⟩, ?_⟩
  · rw [hps.restores]
    exact hqs.feeds
  · rw [Style.after_append, hps.restores, hqs.restores]

theorem flatMap {α : Type} {write : α → List Piece} {xs : List α} (h : ∀ x ∈ xs, Settled (write x)) :
    Settled (xs.flatMap write) := by
  induction xs with
  | nil => exact nil
  | cons x xs ih =>
    obtain ⟨hx, hxs⟩ := List.forall_mem_cons.1 h
    exact hx.append (ih hxs)

end Settled

end Output

/-! ## Rows -/

namespace Snippet

/-- The style between two texts, by whether those before are marked. -/
def styleOf (lit : Bool) : Style := if lit then marker else {}

theorem after_switch (lit mark : Bool) : (styleOf lit).after (switch lit mark) = styleOf mark := by
  cases lit <;> cases mark <;> rfl

theorem feedsPlain_switch (lit mark : Bool) : FeedsPlain (styleOf lit) (switch lit mark) := by
  cases lit <;> cases mark <;> trivial

/-- A row that marks some of its texts goes back to the default style behind the last of them. -/
theorem after_highlight (lit : Bool) (texts : List (Bool × String)) :
    (styleOf lit).after (highlight lit texts) = {} := by
  induction texts generalizing lit with
  | nil => exact after_switch lit false
  | cons t texts ih =>
    obtain ⟨mark, t⟩ := t
    rw [highlight, Style.after_append, after_switch]
    exact ih mark

theorem feedsPlain_highlight (lit : Bool) {texts : List (Bool × String)}
    (h : ∀ t ∈ texts, '\n' ∉ t.2.toList) : FeedsPlain (styleOf lit) (highlight lit texts) := by
  induction texts generalizing lit with
  | nil => exact feedsPlain_switch lit false
  | cons t texts ih =>
    obtain ⟨ht, htexts⟩ := List.forall_mem_cons.1 h
    obtain ⟨mark, t⟩ := t
    rw [highlight, feedsPlain_append, after_switch]
    exact ⟨feedsPlain_switch lit mark, fun hfeed => absurd hfeed ht, ih mark htexts⟩

theorem settled_highlight {cells : List Cell} {text : Cell → String}
    (h : ∀ cell ∈ cells, '\n' ∉ (text cell).toList) :
    Settled (highlight false (cells.map fun cell => (cell.covered, text cell))) := by
  refine ⟨feedsPlain_highlight false ?_, after_highlight false _⟩
  rw [List.forall_mem_map]
  exact h

theorem Cell.feed_not_mem_underline (cell : Cell) : '\n' ∉ cell.underline.toList := by
  unfold underline
  split
  · exact fun hmem => absurd (eq_of_mem_repeated hmem) (by decide)
  · split
    · exact fun hmem => absurd (eq_of_mem_repeated hmem) (by decide)
    · exact List.not_mem_nil

theorem feed_not_mem_shown {cs : List Char} (h : '\n' ∉ cs) (label : Label) (offset column : Nat) :
    ∀ cell ∈ layOut label offset column cs, '\n' ∉ cell.shown.toList := by
  induction cs generalizing offset column with
  | nil => exact fun _ hmem => absurd hmem List.not_mem_nil
  | cons c cs ih =>
    obtain ⟨hc, hcs⟩ := not_or.1 (mt List.mem_cons.2 h)
    refine List.forall_mem_cons.2 ⟨?_, ih hcs _ _⟩
    intro hmem
    obtain hblank | ⟨hfeed, -⟩ := of_mem_showAt hmem
    · exact absurd hblank (by decide)
    · exact hc hfeed

theorem settled_emptyRow (s : Snippet) : Settled s.emptyRow :=
  (Settled.text _).append (.styled border (by decide))

/-- Each row of a snippet goes back to the default style, wherever its label is. -/
theorem settled_of_mem_rows {s : Snippet} (h : ∀ cell ∈ s.cells, '\n' ∉ cell.shown.toList) :
    ∀ row ∈ s.rows, Settled row := by
  have hlocus : Settled s.locusRow :=
    ((Settled.text _).append (.styled border (by decide))).append (.text _)
  have hsource : Settled s.sourceRow := by
    have hnumber : Settled (Piece.styled border s.number) :=
      .styled border (Record.feed_not_mem_toString s.locus.line)
    have hborder : Settled (.text " " :: Piece.styled border "│") :=
      (Settled.text _).append (.styled border (by decide))
    exact (hnumber.append hborder).append ((Settled.text _).append (settled_highlight h))
  have hcarets : Settled s.caretRow := by
    have hcells : Settled (highlight false
        ((s.cells ++ [s.placeholder]).map fun cell => (cell.covered, cell.underline))) :=
      settled_highlight fun cell _ => cell.feed_not_mem_underline
    exact s.settled_emptyRow.append ((Settled.text _).append hcells)
  simp only [rows, List.forall_mem_cons]
  exact ⟨hlocus, s.settled_emptyRow, hsource, hcarets, fun _ hmem => absurd hmem List.not_mem_nil⟩

end Snippet

/-! ## Blocks -/

theorem Kind.feed_not_mem_code (k : Kind) : '\n' ∉ k.code.toList :=
  fun hmem => absurd (k.isAlpha_of_mem_code hmem) (by decide)

namespace Block

/-- The headline up to the message. -/
def opening (b : Block) : List Piece :=
  [.style severity, .text ("error[" ++ b.code ++ "]"), .style headline]

/-- What stands behind the message. -/
def closing (b : Block) : List Piece :=
  .reset :: .text "\n" :: (b.body.rows ++ [[]]).flatMap fun row => row ++ [Piece.text "\n"]

theorem pieces_eq (b : Block) :
    b.pieces = b.opening ++ .text (": " ++ b.message) :: b.closing := rfl

theorem settled_ofRecord (f : SourceFile) (r : Record) :
    ∀ row ∈ (ofRecord f r).body.rows, Settled row := by
  have hnote (p : Position) : Settled (noteRow p) :=
    ((Settled.text _).append (.styled Snippet.border (by decide))).append (.text _)
  unfold ofRecord
  cases f.charRange r.position with
  | none => exact List.forall_mem_singleton.2 (hnote r.position)
  | some s =>
    have hline : '\n' ∉ (f.lineAt s.lo).shown := fun hmem =>
      f.feed_not_mem_text (f.getElem?_lineIndex s.lo) ((f.lineAt s.lo).shown_isPrefix_text.subset hmem)
    exact Snippet.settled_of_mem_rows (Snippet.feed_not_mem_shown hline _ 0 0)

variable {b : Block}

/-- Behind the message the style is the default one, whichever the message is in. -/
theorem settled_closing (h : ∀ row ∈ b.body.rows, Settled row) (style : Style) :
    FeedsPlain style b.closing ∧ style.after b.closing = {} := by
  have hrows : Settled ((b.body.rows ++ [[]]).flatMap fun row => row ++ [Piece.text "\n"]) := by
    refine .flatMap ?_
    intro row hrow
    obtain hrow | hempty := List.mem_append.1 hrow
    · exact (h row hrow).append (.text "\n")
    · rw [List.mem_singleton.1 hempty]
      exact .text "\n"
  exact ⟨⟨fun _ => rfl, hrows.feeds⟩, hrows.restores⟩

theorem after_pieces (h : ∀ row ∈ b.body.rows, Settled row) : Style.after {} b.pieces = {} := by
  rw [pieces_eq, Style.after_append]
  exact (settled_closing h headline).2

/-- A line feed in a block is in the message or in the default style. -/
theorem feed_cases (hcode : '\n' ∉ b.code.toList) (h : ∀ row ∈ b.body.rows, Settled row)
    {earlier later : List Piece} {t : String} (hpieces : b.pieces = earlier ++ .text t :: later)
    (hfeed : '\n' ∈ t.toList) :
    Style.after {} earlier = {} ∨ earlier = b.opening ∧ t = ": " ++ b.message := by
  have hopening : .text t ∉ b.opening := by
    intro hmem
    obtain rfl : t = "error[" ++ b.code ++ "]" := by simpa [opening] using hmem
    simp [String.toList_append, hcode] at hfeed
  rw [pieces_eq] at hpieces
  obtain ⟨more, rfl, hrest⟩ := exists_of_append_eq hopening hpieces
  cases more with
  | nil =>
    obtain ⟨hmessage, -⟩ := List.cons.inj hrest
    exact .inr ⟨List.append_nil _, (Piece.text.inj hmessage).symm⟩
  | cons p more =>
    obtain ⟨rfl, hclosing⟩ := List.cons.inj hrest
    refine .inl ?_
    rw [Style.after_append]
    show headline.after more = {}
    exact (settled_closing h headline).1.after_eq hclosing hfeed

/-- The pieces of the blocks of some records. -/
def piecesOf (f : SourceFile) (rs : List Record) : List Piece :=
  rs.flatMap fun r => (ofRecord f r).pieces

theorem texts_eq (medium : Medium) (f : SourceFile) (rs : List Record) :
    texts medium f rs = textOf medium (piecesOf f rs) := (textOf_flatMap _ rs).symm

theorem after_piecesOf (f : SourceFile) (rs : List Record) : Style.after {} (piecesOf f rs) = {} := by
  induction rs with
  | nil => rfl
  | cons r rs ih =>
    rw [piecesOf, List.flatMap_cons, Style.after_append, after_pieces (settled_ofRecord f r)]
    exact ih

theorem run_texts {f : SourceFile} {rs : List Record} (h : Text.IsClean (texts .plain f rs)) :
    Terminal.initial.run (texts .ansi f rs).toList = .initial := by
  rw [texts_eq] at h ⊢
  rw [← Terminal.showing_default, Terminal.run_textOf h, after_piecesOf]

/-- At a line feed of some blocks a terminal shows the default style, or the line feed is one of a
message, which is shown in its own style. -/
theorem run_feed {f : SourceFile} {rs : List Record} (h : Text.IsClean (texts .plain f rs))
    (hcode : ∀ r ∈ rs, '\n' ∉ r.code.toList) {before after : List Char}
    (hfeed : (texts .ansi f rs).toList = before ++ '\n' :: after) :
    Terminal.initial.run before = .initial ∨
      Terminal.initial.run before = .showing headline ∧
        ∃ earlier r later front back, rs = earlier ++ r :: later ∧
          r.message.toList = front ++ '\n' :: back ∧
          before =
            (texts .ansi f earlier ++ textOf .ansi (ofRecord f r).opening ++ ": ").toList ++ front := by
  rw [texts_eq] at h hfeed
  obtain ⟨earlierPieces, t, laterPieces, front, back, hpieces, ht, rfl⟩ := exists_text_of_feed hfeed
  obtain ⟨earlier, r, later, inside, rest, rfl, hblock, rfl⟩ := exists_of_flatMap_eq hpieces
  have hmem : '\n' ∈ t.toList := ht ▸ List.mem_append_right front List.mem_cons_self
  rw [hpieces, textOf_append, textOf_cons, Text.isClean_append, Text.isClean_append] at h
  have hclean : Text.IsClean (textOf .plain (piecesOf f earlier ++ inside)) := h.1
  have hfront : '\x1b' ∉ front := by
    have htext : '\x1b' ∉ t.toList := h.2.1
    rw [ht] at htext
    exact fun hmem => htext (List.mem_append_left _ hmem)
  have hrun (style : Style) (hafter : Style.after {} (piecesOf f earlier ++ inside) = style) :
      Terminal.initial.run ((textOf .ansi (piecesOf f earlier ++ inside)).toList ++ front) =
        .showing style := by
    rw [Terminal.run_append, ← Terminal.showing_default, Terminal.run_textOf hclean, hafter]
    exact Terminal.run_text hfront
  have hinside : Style.after {} (piecesOf f earlier ++ inside) = Style.after {} inside := by
    rw [Style.after_append, after_piecesOf]
  obtain hdefault | ⟨rfl, rfl⟩ := feed_cases (hcode r (by simp)) (settled_ofRecord f r) hblock hmem
  · exact .inl (hrun {} (hinside.trans hdefault))
  -- The text is that of the message, behind a colon and a blank.
  · rw [String.toList_append] at ht
    obtain ⟨more, rfl, hmessage⟩ := exists_of_append_eq (by decide) ht
    refine .inr ⟨hrun headline (hinside.trans rfl), earlier, r, later, more, back, rfl, hmessage, ?_⟩
    rw [texts_eq, ← textOf_append, String.toList_append, List.append_assoc]
    rfl

end Block

/-- **No color outlives its row.** Whatever session a report comes from and wherever its errors are, if
the character that escape sequences start with is neither in the name nor in the source of the file nor
in a message, a terminal that reads the rich output with colors is in its default style behind the
block of every record. It is so at every line feed too, unless the line feed is one of a message;
messages are shown in the style of headlines. The same goes for standard error with colors. -/
theorem no_color_outlives_its_row {steps : List Step} {index : Nat} {report : Report}
    {f : SourceFile} (h : (State.initial.run steps).2.reports[index]? = some report)
    (hname : '\x1b' ∉ f.name.toList) (hsource : '\x1b' ∉ f.source.toList)
    (hmessage : ∀ r ∈ report.records, '\x1b' ∉ r.message.toList) :
    let read (reading : ReportReading) : Answer :=
      ((State.initial.run steps).2.step (.readReport index reading)).1
    ∃ text : String,
      (∀ color, read (.emit f { style := .rich, color } .ansi none) = .written (.complete text)) ∧
      (∀ color ≠ .never, read (.emitToStandardError f { style := .rich, color }) =
        .standardError text) ∧
      (∀ earlier later, report.records = earlier ++ later →
        text = Block.texts .ansi f earlier ++ Block.texts .ansi f later ∧
          Terminal.initial.run (Block.texts .ansi f earlier).toList = .initial) ∧
      ∀ before after, text.toList = before ++ '\n' :: after →
        Terminal.initial.run before = .initial ∨
          Terminal.initial.run before = .showing Block.headline ∧
            ∃ earlier r later front back, report.records = earlier ++ r :: later ∧
              r.message.toList = front ++ '\n' :: back ∧
              before = (Block.texts .ansi f earlier ++
                textOf .ansi (Block.ofRecord f r).opening ++ ": ").toList ++ front := by
  intro read
  have hread (reading : ReportReading) : read reading = (reading.answer report).value :=
    State.step_readReport h reading
  have hcode : ∀ r ∈ report.records, Text.IsClean r.code ∧ '\n' ∉ r.code.toList := by
    intro r hr
    obtain ⟨kind, p, rfl⟩ := exists_ofKind_of_mem (List.mem_of_getElem? h) hr
    exact ⟨kind.isClean_code, kind.feed_not_mem_code⟩
  have hclean (rs : List Record) (hrs : rs ⊆ report.records) : Text.IsClean (Block.texts .plain f rs) :=
    Block.isClean_texts hname hsource (fun r hr => (hcode r (hrs hr)).1)
      fun r hr => hmessage r (hrs hr)
  refine ⟨Block.texts .ansi f report.records, ?_, ?_, ?_, ?_⟩
  · intro color
    exact (hread _).trans (congrArg Answer.written (report.emit_rich f color .ansi))
  · intro color hcolor
    have hmedium : color.medium = .ansi := by
      cases color with
      | never => exact absurd rfl hcolor
      | always | alwaysAnsi => rfl
    have hemit : String.join (report.chunks f .rich color.medium) =
        Block.texts .ansi f report.records := by
      rw [hmedium]
      exact report.join_chunks_rich f .ansi
    exact (hread _).trans (congrArg Answer.standardError hemit)
  · intro earlier later hrecords
    refine ⟨?_, Block.run_texts (hclean earlier ?_)⟩
    · rw [hrecords, Block.texts_append]
    · exact hrecords ▸ List.subset_append_left earlier later
  · intro before after hfeed
    exact Block.run_feed (hclean _ (List.Subset.refl _)) (fun r hr => (hcode r hr).2) hfeed

/-- An error in a line that the text does not have, one behind the end of its second line, and one at
the wide character there, whose message goes over two rows. -/
def spilling : List Step :=
  [.append (.atNode .noMainProperlyDeclared (.position 9 1)),
    .append (.atNode .booleanRequired (.position 2 7)),
    .append (.atNode .undeclaredIdent (.token "字\n字" 2 3)), .finish]

def spillingRecords : List Record :=
  [.ofKind .noMainProperlyDeclared (.behind 8 0), .ofKind .booleanRequired (.behind 1 6),
    .ofKind (.undeclaredIdent "字\n字") (.behind 1 2)]

theorem no_color_outlives_its_row_of_spilling :
    let s := (State.initial.run spilling).2
    s.reports[0]? = some (.ofRecords spillingRecords) ∧
      '\x1b' ∉ wideText.name.toList ∧ '\x1b' ∉ wideText.source.toList ∧
      (∀ r ∈ (Report.ofRecords spillingRecords).records, '\x1b' ∉ r.message.toList) ∧
      ∃ text : String,
        (s.step (.readReport 0 (.emit wideText { style := .rich } .ansi none))).1 =
          .written (.complete text) ∧
        Terminal.initial.run text.toList = .initial ∧
        ∀ before after, text.toList = before ++ '\n' :: after →
          Terminal.initial.run before = .initial ∨
            Terminal.initial.run before = .showing Block.headline := by
  intro s
  have h : s.reports[0]? = some (.ofRecords spillingRecords) := rfl
  have hname : '\x1b' ∉ wideText.name.toList := by decide
  have hsource : '\x1b' ∉ wideText.source.toList := by decide
  have hmessage : ∀ r ∈ (Report.ofRecords spillingRecords).records, '\x1b' ∉ r.message.toList := by
    intro r hr
    have hall : ∀ r ∈ spillingRecords, '\x1b' ∉ r.message.toList := by decide
    exact hall r ((Record.sort_perm spillingRecords).mem_iff.1 hr)
  obtain ⟨text, hwritten, -, hblocks, hfeeds⟩ := no_color_outlives_its_row h hname hsource hmessage
  refine ⟨h, hname, hsource, hmessage, text, hwritten .never, ?_, ?_⟩
  · obtain ⟨htext, hrun⟩ := hblocks _ [] (List.append_nil _).symm
    have hnone : Block.texts .ansi wideText [] = "" := rfl
    rw [htext, hnone, String.append_empty]
    exact hrun
  · intro before after hfeed
    exact (hfeeds before after hfeed).imp_right And.left

end SemanticDiagnostics
