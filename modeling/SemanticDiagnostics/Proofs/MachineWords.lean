import Mathlib.Algebra.Group.Nat.Defs
import SemanticDiagnostics.Proofs.BackAndForth

/-! # Offsets in machine words

A machine counts lines, columns and bytes in words of 64 bits. It halts where a result is no word, where
a position gets a zero coordinate, and where a text is cut inside a character or behind its end.
`WordFile` finds positions and spans by such calculations, from a table of lines that it has made of the
text. On a text of less than `2 ^ 63` bytes none of them halts, whatever words it is asked about, and
what they find is what is found with numbers of any size. -/
namespace SemanticDiagnostics

/-! ## Words -/

/-- What ends a calculation without a result. -/
inductive Halt where
  | overflow
  | underflow
  | fault (f : Fault)
  /-- The file does not have what is looked up. -/
  | misfit (m : Misfit)
  deriving DecidableEq

namespace Word

/-- A number as a word. -/
def of (n : Nat) : Except Halt UInt64 := if n < 2 ^ 64 then .ok (.ofNat n) else .error .overflow

def add (a b : UInt64) : Except Halt UInt64 := of (a.toNat + b.toNat)

def sub (a b : UInt64) : Except Halt UInt64 := if b ≤ a then .ok (a - b) else .error .underflow

theorem toNat_ofNat {n : Nat} (h : n < 2 ^ 64) : (UInt64.ofNat n).toNat = n :=
  UInt64.toNat_ofNat_of_lt' h

theorem of_eq {n : Nat} (h : n < 2 ^ 64) : of n = .ok (.ofNat n) := if_pos h

theorem add_ofNat {m n : Nat} (h : m + n < 2 ^ 64) :
    add (.ofNat m) (.ofNat n) = .ok (.ofNat (m + n)) := by
  rw [add, toNat_ofNat (by omega), toNat_ofNat (by omega), of_eq h]

theorem add_one {n : Nat} (h : n + 1 < 2 ^ 64) : add (.ofNat n) 1 = .ok (.ofNat (n + 1)) :=
  add_ofNat h

theorem sub_ofNat {m n : Nat} (hm : m < 2 ^ 64) (h : n ≤ m) :
    sub (.ofNat m) (.ofNat n) = .ok (.ofNat (m - n)) := by
  have hle : UInt64.ofNat n ≤ UInt64.ofNat m := by
    rwa [UInt64.le_iff_toNat_le, toNat_ofNat hm, toNat_ofNat (Nat.lt_of_le_of_lt h hm)]
  rw [sub, if_pos hle, UInt64.ofNat_sub h]

theorem sub_one {n : Nat} (hn : n < 2 ^ 64) (h : 1 ≤ n) : sub (.ofNat n) 1 = .ok (.ofNat (n - 1)) :=
  sub_ofNat hn h

theorem pred_eq {a : UInt64} (h : 1 ≤ a.toNat) : sub a 1 = .ok (.ofNat (a.toNat - 1)) := by
  have hpred := sub_one a.toNat_lt h
  rwa [UInt64.ofNat_toNat] at hpred

theorem min_ofNat {m n : Nat} (hm : m < 2 ^ 64) (hn : n < 2 ^ 64) :
    min (UInt64.ofNat m) (UInt64.ofNat n) = .ofNat (min m n) := by
  rw [← UInt64.toNat_inj, UInt64.toNat_min, toNat_ofNat hm, toNat_ofNat hn, toNat_ofNat (by omega)]

theorem max_ofNat {m n : Nat} (hm : m < 2 ^ 64) (hn : n < 2 ^ 64) :
    max (UInt64.ofNat m) (UInt64.ofNat n) = .ofNat (max m n) := by
  rw [← UInt64.toNat_inj, UInt64.toNat_max, toNat_ofNat hm, toNat_ofNat hn, toNat_ofNat (by omega)]

end Word

/-- A position with words for coordinates. -/
structure WordPosition where
  line : UInt64
  column : UInt64
  one_le_line : 1 ≤ line.toNat := by decide
  one_le_column : 1 ≤ column.toNat := by decide

namespace WordPosition

def ofCoordinates (line column : UInt64) : Except Halt WordPosition :=
  if h : 1 ≤ line.toNat ∧ 1 ≤ column.toNat then
    .ok { line, column, one_le_line := h.1, one_le_column := h.2 }
  else .error (.fault .coordinateBelowOne)

/-- The same position among those with coordinates of any size. -/
def unbounded (p : WordPosition) : Position :=
  { line := p.line.toNat
    column := p.column.toNat
    one_le_line := p.one_le_line
    one_le_column := p.one_le_column }

theorem ofCoordinates_ofNat {p : Position} (hline : p.line < 2 ^ 64) (hcolumn : p.column < 2 ^ 64) :
    (ofCoordinates (.ofNat p.line) (.ofNat p.column)).map unbounded = .ok p := by
  have hreal : 1 ≤ (UInt64.ofNat p.line).toNat ∧ 1 ≤ (UInt64.ofNat p.column).toNat := by
    rw [Word.toNat_ofNat hline, Word.toNat_ofNat hcolumn]
    exact ⟨p.one_le_line, p.one_le_column⟩
  rw [ofCoordinates, dif_pos hreal]
  exact congrArg Except.ok
    (Position.ext (Word.toNat_ofNat hline) (Word.toNat_ofNat hcolumn))

end WordPosition

/-- A range of bytes with words for offsets. -/
structure WordSpan where
  lo : UInt64
  hi : UInt64

namespace WordSpan

def ofNats (lo hi : Nat) : WordSpan := { lo := .ofNat lo, hi := .ofNat hi }

/-- The offsets that it is between. -/
def bounds (s : WordSpan) : Nat × Nat := (s.lo.toNat, s.hi.toNat)

theorem bounds_ofNats {lo hi : Nat} (hlo : lo < 2 ^ 64) (hhi : hi < 2 ^ 64) :
    (ofNats lo hi).bounds = (lo, hi) := by
  rw [bounds, ofNats, Word.toNat_ofNat hlo, Word.toNat_ofNat hhi]

end WordSpan

/-! ## Lookups -/

/-- A file with the offsets at which its lines start, in words. Of the file itself only the text is
read. -/
structure WordFile where
  file : SourceFile
  starts : Array UInt64

namespace WordFile

/-- The offsets behind the line feeds of a text that starts at an offset. -/
def behindFeeds : UInt64 → List Char → Except Halt (List UInt64)
  | _, [] => return []
  | offset, c :: cs => do
    let next ← Word.add offset (← Word.of c.utf8Size)
    let starts ← behindFeeds next cs
    return if c = '\n' then next :: starts else starts

/-- The table holds zero and the offset behind every line feed. -/
def ofFile (f : SourceFile) : Except Halt WordFile := do
  return { file := f, starts := (0 :: (← behindFeeds 0 f.source.toList)).toArray }

variable (w : WordFile)

def length : Except Halt UInt64 := Word.of (Text.byteLength w.file.source.toList)

/-- Whether a line of the table starts before the offset. -/
def startsBefore (offset : UInt64) (index : Nat) : Bool := w.starts[index]?.any (· < offset)

/-- The index at which an offset stands in the table, or else would have to be put in. -/
def place (offset : UInt64) : Nat :=
  SourceFile.firstFailing (w.startsBefore offset) 0 w.starts.size

/-- The index of the line that an offset lies on. It is that of the line that starts there or, if there
is none, the one before the place that the offset would take. -/
def lineIndex (offset : UInt64) : Except Halt UInt64 := do
  let place ← Word.of (w.place offset)
  if w.starts[w.place offset]? = some offset then return place else Word.sub place 1

def lineStart (index : UInt64) : Except Halt UInt64 :=
  match w.starts[index.toNat]? with
  | some start => return start
  | none => do
    if index.toNat = w.starts.size then w.length
    else
      let last ← Word.sub (← Word.of w.starts.size) 1
      throw (.misfit (.noSuchLine index.toNat last.toNat))

def lineRange (index : UInt64) : Except Halt WordSpan := do
  return { lo := ← w.lineStart index, hi := ← w.lineStart (← Word.add index 1) }

/-- How many of so many bytes from an offset on are the last ones of characters. -/
def countEnds (cs : List Char) : UInt64 → Nat → Except Halt UInt64
  | _, 0 => return 0
  | offset, bytes + 1 => do
    let next ← Word.add offset 1
    let more ← countEnds cs next bytes
    if Text.isBorder cs next.toNat then Word.add more 1 else return more

/-- How many characters of a line end at or before an offset. -/
def columnIndex (line : WordSpan) (offset : UInt64) : Except Halt UInt64 := do
  let stop := min offset (min line.hi (← w.length))
  countEnds w.file.source.toList line.lo (stop.toNat - line.lo.toNat)

def positionAt (offset : UInt64) : Except Halt WordPosition := do
  let index ← w.lineIndex offset
  let number ← Word.add index 1
  let column ← Word.add (← w.columnIndex (← w.lineRange index) offset) 1
  WordPosition.ofCoordinates number column

/-- The bytes of the character with an index in a text that starts at an offset, or no bytes at its end. -/
def charSpan (start : UInt64) (text : List Char) (index : UInt64) : Except Halt WordSpan :=
  match text[index.toNat]? with
  | some c => do
    let lo ← Word.add start (← Word.of (Text.byteLength (text.take index.toNat)))
    return { lo, hi := ← Word.add lo (← Word.of c.utf8Size) }
  | none => do
    let stop ← Word.add start (← Word.of (Text.byteLength text))
    return { lo := stop, hi := stop }

/-- What a position points at. Only a line that the file does not have is no reason to halt. -/
def charRange (p : WordPosition) : Except Halt (Option WordSpan) := do
  match w.lineRange (← Word.sub p.line 1) with
  | .error (.misfit (.noSuchLine ..)) => return none
  | .error halt => throw halt
  | .ok line =>
    let chars ← (w.file.cut line.lo.toNat line.hi.toNat).mapError Halt.misfit
    let text := Text.dropTrailing Line.isTerminator chars
    return some (← charSpan line.lo text (← Word.sub p.column 1))

/-- The bytes of its line that a span is shown under, at least one of them. -/
def label (s : WordSpan) : Except Halt WordSpan := do
  let first ← w.lineIndex s.lo
  let last ← w.lineIndex s.hi
  let line ← w.lineRange first
  let _ ← w.lineRange last
  if first = last then
    let lo ← Word.sub s.lo line.lo
    return { lo, hi := max (← Word.sub s.hi line.lo) (← Word.add lo 1) }
  else throw (.misfit (.severalLines first.toNat last.toNat))

/-- What is shown of what a position points at. -/
def labelAt (p : WordPosition) : Except Halt (Option WordSpan) := do
  match ← w.charRange p with
  | some s => return some (← w.label s)
  | none => return none

end WordFile

/-! ## The table of lines -/

/-- The file as words see it, if its lines start at words. -/
def SourceFile.words (f : SourceFile) : WordFile :=
  { file := f, starts := f.lines.map fun l => .ofNat l.start }

namespace WordFile

theorem behindFeeds_eq {start : Nat} {cs : List Char} (h : start + Text.byteLength cs < 2 ^ 64) :
    behindFeeds (.ofNat start) cs =
      .ok ((Line.layOut start (Line.split cs)).tail.map fun l => .ofNat l.start) := by
  induction cs generalizing start with
  | nil => rfl
  | cons c cs ih =>
    rw [Text.byteLength_cons, ← Nat.add_assoc] at h
    obtain ⟨l, ls, hl⟩ := List.exists_cons_of_ne_nil (Line.split_ne_nil cs)
    have hnext := Word.add_ofNat (show start + c.utf8Size < 2 ^ 64 by omega)
    simp only [behindFeeds, Word.of_eq (show c.utf8Size < 2 ^ 64 by omega), hnext, ih h, hl, bind,
      Except.bind]
    by_cases hc : c = '\n'
    · simp only [Line.split, if_pos hc, hl, Line.layOut, List.tail_cons, List.map_cons]
      rfl
    · simp only [Line.split, if_neg hc, hl, List.modifyHead_cons, Line.layOut, List.tail_cons,
        Text.byteLength_cons, Nat.add_assoc]
      rfl

theorem ofFile_eq {f : SourceFile} (h : Text.byteLength f.source.toList < 2 ^ 64) :
    ofFile f = .ok f.words := by
  have hzero : 0 + Text.byteLength f.source.toList < 2 ^ 64 := by omega
  obtain ⟨l, ls, hl⟩ := List.exists_cons_of_ne_nil (Line.split_ne_nil f.source.toList)
  have hfeeds : behindFeeds 0 f.source.toList = .ok _ := behindFeeds_eq hzero
  simp only [ofFile, hfeeds, SourceFile.words, f.lines_eq, Line.ofText, hl, Line.layOut, bind,
    Except.bind, List.map_toArray, List.map_cons, List.tail_cons]
  rfl

end WordFile

/-! ## Numbers that are words -/

namespace SourceFile

variable {f : SourceFile} {index offset : Nat} {l : Line}

theorem end_le_byteLength (hline : f.lines[index]? = some l) :
    l.start + Text.byteLength l.chars ≤ Text.byteLength f.source.toList := by
  rw [f.lines_eq, List.getElem?_toArray] at hline
  obtain ⟨front, back, hsource, hstart, -, -⟩ := Line.exists_of_getElem? hline
  have hlength := congrArg Text.byteLength hsource
  rw [Text.byteLength_append, Text.byteLength_append] at hlength
  omega

theorem textEnd_le_byteLength (hline : f.lines[index]? = some l) :
    l.start + Text.byteLength l.text ≤ Text.byteLength f.source.toList := by
  have hend := end_le_byteLength hline
  have htext := congrArg Text.byteLength l.text_append_terminators
  rw [Text.byteLength_append] at htext
  omega

theorem size_lines_le (f : SourceFile) : f.lines.size ≤ Text.byteLength f.source.toList + 1 := by
  have hcount := List.count_le_length (a := '\n') (l := f.source.toList)
  have hlength := Text.length_le_byteLength f.source.toList
  rw [size_lines]
  omega

/-- The line of an offset is the only one that starts by it and is followed by none that does. -/
theorem lineIndex_eq (hline : f.lines[index]? = some l) (hstart : l.start ≤ offset)
    (hnext : ∀ next, f.lines[index + 1]? = some next → offset < next.start) :
    f.lineIndex offset = index := by
  rw [f.lines_eq, List.getElem?_toArray] at hline
  simp only [f.lines_eq, List.getElem?_toArray] at hnext
  obtain ⟨hnumber, -⟩ := Line.after_passed hline hstart hnext
  exact Nat.succ.inj ((congrArg Position.line (f.positionAt_eq_after offset)).trans hnumber)

theorem columnIndex_le (f : SourceFile) (start past offset : Nat) :
    f.columnIndex start past offset ≤ past := by
  have hcount := List.countP_le_length (p := fun i => Text.isBorder f.source.toList (i + 1))
    (l := List.range' start (min offset (min past (Text.byteLength f.source.toList)) - start))
  rw [List.length_range'] at hcount
  rw [columnIndex]
  omega

end SourceFile

/-! ## Lookups do not halt -/

namespace WordFile

variable {f : SourceFile} {index : Nat} {l : Line}

theorem getElem?_starts (f : SourceFile) (index : Nat) :
    f.words.starts[index]? = f.lines[index]?.map fun l => .ofNat l.start := Array.getElem?_map

theorem size_starts (f : SourceFile) : f.words.starts.size = f.lines.size := Array.size_map

theorem place_le (f : SourceFile) (offset : UInt64) : f.words.place offset ≤ f.lines.size := by
  rw [← size_starts]
  exact SourceFile.firstFailing_le (Nat.zero_le _)

/-- Testing the bytes one by one counts in words what it counts in numbers of any size. -/
theorem countEnds_eq (cs : List Char) {offset bytes : Nat} (h : offset + bytes < 2 ^ 64) :
    countEnds cs (.ofNat offset) bytes =
      .ok (.ofNat ((List.range' offset bytes).countP fun i => Text.isBorder cs (i + 1))) := by
  induction bytes generalizing offset with
  | zero => rfl
  | succ bytes ih =>
    have hnext := Word.add_one (show offset + 1 < 2 ^ 64 by omega)
    have hmore := ih (show offset + 1 + bytes < 2 ^ 64 by omega)
    have hborder := Word.toNat_ofNat (show offset + 1 < 2 ^ 64 by omega)
    have hle : (List.range' (offset + 1) bytes).countP (fun i => Text.isBorder cs (i + 1)) ≤ bytes :=
      Nat.le_trans List.countP_le_length (Nat.le_of_eq List.length_range')
    rw [List.range'_succ, List.countP_cons]
    simp only [countEnds, hnext, hmore, hborder, bind, Except.bind]
    split
    · exact Word.add_one (by omega)
    · rfl

theorem charSpan_words (h : l.start + Text.byteLength l.text < 2 ^ 64) {column : Nat}
    (hcolumn : column < 2 ^ 64) :
    charSpan (.ofNat l.start) l.text (.ofNat (column - 1)) =
      .ok (.ofNats (l.charSpan column).lo (l.charSpan column).hi) := by
  have hbounds := l.charSpan_bounds column
  have hspan := (l.charSpan column).lo_le_hi
  have hlo : (l.charSpan column).lo = l.start + Text.byteLength (l.text.take (column - 1)) :=
    Line.lo_spanOf ..
  have hhi := l.hi_charSpan column
  rw [charSpan, Word.toNat_ofNat (by omega)]
  cases hc : l.text[column - 1]? with
  | some c =>
    rw [hc, Option.toList_some, Text.byteLength_cons, Text.byteLength_nil, Nat.add_zero] at hhi
    have hstart := Word.add_ofNat (show l.start + Text.byteLength (l.text.take (column - 1)) < 2 ^ 64 by
      omega)
    have hstop := Word.add_ofNat (show (l.charSpan column).lo + c.utf8Size < 2 ^ 64 by omega)
    simp only [Word.of_eq (show Text.byteLength (l.text.take (column - 1)) < 2 ^ 64 by omega), hstart,
      Word.of_eq (show c.utf8Size < 2 ^ 64 by omega), ← hlo, hstop, ← hhi, bind, Except.bind]
    rfl
  | none =>
    rw [List.take_of_length_le (List.getElem?_eq_none_iff.1 hc)] at hlo
    rw [hc, Option.toList_none, Text.byteLength_nil, Nat.add_zero] at hhi
    simp only [Word.of_eq (show Text.byteLength l.text < 2 ^ 64 by omega), Word.add_ofNat h, ← hlo,
      hhi, bind, Except.bind]
    rfl

variable (h : Text.byteLength f.source.toList < 2 ^ 63)

include h

theorem toNat_start (hline : f.lines[index]? = some l) : (UInt64.ofNat l.start).toNat = l.start := by
  have hend := SourceFile.end_le_byteLength hline
  exact Word.toNat_ofNat (by omega)

theorem startsBefore_iff {offset : UInt64} :
    f.words.startsBefore offset index = true ↔
      ∃ l, f.lines[index]? = some l ∧ l.start < offset.toNat := by
  rw [startsBefore, getElem?_starts]
  cases hline : f.lines[index]? with
  | none => simp
  | some l => simp [UInt64.lt_iff_toNat_lt, toNat_start h hline]

/-- An offset that is in the table lies on the line that starts there. -/
theorem lineIndex_of_found {offset : UInt64} (hfound : f.words.starts[index]? = some offset) :
    f.lineIndex offset.toNat = index := by
  rw [getElem?_starts, Option.map_eq_some_iff] at hfound
  obtain ⟨l, hline, rfl⟩ := hfound
  rw [toNat_start h hline]
  exact SourceFile.lineIndex_of_positionAt
    (SourceFile.positionAt_text hline (List.nil_append _).symm)

/-- Zero is in the table, so an offset that is not takes no place in front of the first line. -/
theorem place_pos {offset : UInt64}
    (hmissing : f.words.starts[f.words.place offset]? ≠ some offset) : 0 < f.words.place offset := by
  refine Nat.pos_of_ne_zero fun hzero => hmissing ?_
  have hsize : 0 < f.lines.size := by
    rw [f.size_lines]
    omega
  have hfirst := Array.getElem?_eq_getElem hsize
  have hstart := SourceFile.start_first hfirst
  have hfails : f.words.startsBefore offset 0 = false := by
    have hplace : f.words.place offset < f.words.starts.size := by rwa [hzero, size_starts]
    have hfails := SourceFile.at_firstFailing hplace
    rwa [← place, hzero] at hfails
  rw [Bool.eq_false_iff, ne_eq, startsBefore_iff h] at hfails
  have hoffset : ¬ 0 < offset.toNat := fun hpos =>
    hfails ⟨_, hfirst, Nat.lt_of_le_of_lt (Nat.le_of_eq hstart) hpos⟩
  rw [hzero, getElem?_starts, hfirst, Option.map_some, hstart, ← UInt64.ofNat_toNat (x := offset)]
  congr 2
  omega

/-- An offset that is not in the table lies on the line before its place. -/
theorem lineIndex_of_missing {offset : UInt64}
    (hmissing : f.words.starts[f.words.place offset]? ≠ some offset) :
    f.lineIndex offset.toNat = f.words.place offset - 1 := by
  have hpos := place_pos h hmissing
  have hbefore : f.words.startsBefore offset (f.words.place offset - 1) = true :=
    SourceFile.before_firstFailing hpos
  obtain ⟨l, hline, hstart⟩ := (startsBefore_iff h).1 hbefore
  refine SourceFile.lineIndex_eq hline (Nat.le_of_lt hstart) fun next hnext => ?_
  rw [Nat.sub_add_cancel hpos] at hnext
  have hplace : f.words.place offset < f.words.starts.size := by
    rw [size_starts]
    exact (Array.getElem?_eq_some_iff.1 hnext).1
  have hfails := SourceFile.at_firstFailing hplace
  rw [← place, Bool.eq_false_iff, ne_eq, startsBefore_iff h] at hfails
  have hle : offset.toNat ≤ next.start := Nat.le_of_not_lt fun hlt => hfails ⟨next, hnext, hlt⟩
  refine Nat.lt_of_le_of_ne hle fun heq => hmissing ?_
  rw [getElem?_starts, hnext, Option.map_some, ← heq, UInt64.ofNat_toNat]

theorem lineIndex_words (offset : UInt64) :
    f.words.lineIndex offset = .ok (.ofNat (f.lineIndex offset.toNat)) := by
  have hsize := f.size_lines_le
  have hle := place_le f offset
  have hplace : f.words.place offset < 2 ^ 64 := by omega
  rw [lineIndex, Word.of_eq hplace]
  by_cases hfound : f.words.starts[f.words.place offset]? = some offset
  · rw [lineIndex_of_found h hfound]
    exact if_pos hfound
  · rw [lineIndex_of_missing h hfound]
    exact (if_neg hfound).trans (Word.sub_one hplace (place_pos h hfound))

/-- The offset at which a line starts is a word, and nothing but the line can be missing. -/
theorem lineStart_words (hindex : index < 2 ^ 64) :
    f.words.lineStart (.ofNat index) =
      match f.lineStart index with
      | .ok start => .ok (.ofNat start)
      | .error m => .error (.misfit m) := by
  have hsize := f.size_lines_le
  rw [lineStart, SourceFile.lineStart, Word.toNat_ofNat hindex, getElem?_starts, size_starts]
  cases hline : f.lines[index]? with
  | some l => rfl
  | none =>
    by_cases hend : index = f.lines.size
    · simp only [if_pos hend, Option.map_none]
      exact Word.of_eq (show Text.byteLength f.source.toList < 2 ^ 64 by omega)
    · have hlast : Word.sub (.ofNat f.lines.size) 1 = .ok (.ofNat (f.lines.size - 1)) :=
        Word.sub_one (by omega) (by rw [f.size_lines]; omega)
      simp only [if_neg hend, Option.map_none, Word.of_eq (show f.lines.size < 2 ^ 64 by omega),
        hlast, bind, Except.bind, Word.toNat_ofNat (show f.lines.size - 1 < 2 ^ 64 by omega)]
      rfl

theorem lineRange_words (hline : f.lines[index]? = some l) :
    f.words.lineRange (.ofNat index) =
      .ok (.ofNats l.start (l.start + Text.byteLength l.chars)) := by
  have hsize := f.size_lines_le
  have hindex := (Array.getElem?_eq_some_iff.1 hline).1
  have hstart : f.lineStart index = .ok l.start := by rw [SourceFile.lineStart, hline]
  have hnext := Word.add_one (show index + 1 < 2 ^ 64 by omega)
  have hlo := lineStart_words h (show index < 2 ^ 64 by omega)
  have hhi := lineStart_words h (show index + 1 < 2 ^ 64 by omega)
  rw [hstart] at hlo
  rw [SourceFile.lineStart_next hline] at hhi
  simp only [lineRange, hlo, hnext, hhi, bind, Except.bind]
  rfl

/-- The end of the text alone makes no line, as for numbers of any size. -/
theorem lineRange_words_of_none (hindex : index + 1 < 2 ^ 64) (hline : f.lines[index]? = none) :
    ∃ m last, f.words.lineRange (.ofNat index) = .error (.misfit (.noSuchLine m last)) := by
  have hstart := lineStart_words h (Nat.lt_of_succ_lt hindex)
  have hnext := lineStart_words h hindex
  rcases Nat.lt_or_eq_of_le (Array.getElem?_eq_none_iff.1 hline) with hlt | rfl
  · rw [SourceFile.lineStart_of_size_lt hlt] at hstart
    simp only [lineRange, hstart]
    exact ⟨_, _, rfl⟩
  · have hend : f.lineStart f.lines.size = .ok (Text.byteLength f.source.toList) := by
      rw [SourceFile.lineStart, hline]
      exact if_pos rfl
    rw [hend] at hstart
    rw [SourceFile.lineStart_of_size_lt (Nat.lt_succ_self _)] at hnext
    simp only [lineRange, hstart, Word.add_one hindex, hnext, bind, Except.bind]
    exact ⟨_, _, rfl⟩

theorem columnIndex_words (hline : f.lines[index]? = some l) {offset : UInt64}
    (hstart : l.start ≤ offset.toNat) :
    ∃ n, f.words.columnIndex (.ofNats l.start (l.start + Text.byteLength l.chars)) offset =
        .ok (.ofNat n) ∧
      n + 1 = l.columnAt offset.toNat ∧ n < 2 ^ 63 := by
  have hend := SourceFile.end_le_byteLength hline
  have hoffset := offset.toNat_lt
  have hlength : f.words.length = .ok (.ofNat (Text.byteLength f.source.toList)) :=
    Word.of_eq (show Text.byteLength f.source.toList < 2 ^ 64 by omega)
  have hle := f.columnIndex_le l.start (l.start + Text.byteLength l.chars) offset.toNat
  refine ⟨f.columnIndex l.start (l.start + Text.byteLength l.chars) offset.toNat, ?_,
    SourceFile.columnIndex_eq hline hstart, by omega⟩
  rw [columnIndex, hlength, ← UInt64.ofNat_toNat (x := offset)]
  simp only [WordSpan.ofNats, bind, Except.bind]
  rw [Word.min_ofNat (by omega) (by omega), Word.min_ofNat (by omega) (by omega),
    Word.toNat_ofNat (by omega), Word.toNat_ofNat (by omega), UInt64.ofNat_toNat]
  exact countEnds_eq _ (by omega)

theorem positionAt_words (offset : UInt64) :
    (f.words.positionAt offset).map WordPosition.unbounded = .ok (f.positionAt offset.toNat) := by
  have hline := f.getElem?_lineIndex offset.toNat
  have hsize := f.size_lines_le
  have hlt := f.lineIndex_lt offset.toNat
  have hnumber := Word.add_one (show f.lineIndex offset.toNat + 1 < 2 ^ 64 by omega)
  obtain ⟨n, hindex, hcolumn, hn⟩ := columnIndex_words h hline (f.start_lineAt_le offset.toNat)
  have hadd := Word.add_one (show n + 1 < 2 ^ 64 by omega)
  simp only [positionAt, lineIndex_words h, lineRange_words h hline, hnumber, hindex, hadd, hcolumn,
    bind, Except.bind]
  exact WordPosition.ofCoordinates_ofNat (p := f.positionAt offset.toNat)
    (show f.lineIndex offset.toNat + 1 < 2 ^ 64 by omega)
    (show (f.lineAt offset.toNat).columnAt offset.toNat < 2 ^ 64 by omega)

theorem charRange_words (p : WordPosition) :
    f.words.charRange p = .ok ((f.charRange p.unbounded).map fun s => .ofNats s.lo s.hi) := by
  have hlines := p.line.toNat_lt
  have hone := p.one_le_line
  rw [charRange, Word.pred_eq p.one_le_line, Word.pred_eq p.one_le_column]
  simp only [bind, Except.bind]
  cases hline : f.lines[p.line.toNat - 1]? with
  | none =>
    obtain ⟨m, last, hrange⟩ := lineRange_words_of_none h (by omega) hline
    have hnone : f.charRange p.unbounded = none := congrArg (Option.map _) hline
    rw [hrange, hnone]
    rfl
  | some l =>
    have hend := SourceFile.end_le_byteLength hline
    have htext := SourceFile.textEnd_le_byteLength hline
    have hsome : f.charRange p.unbounded = some (l.charSpan p.column.toNat) :=
      congrArg (Option.map _) hline
    -- A line starts and ends between characters, so it can be cut out.
    have hcut : f.words.file.cut l.start (l.start + Text.byteLength l.chars) = .ok l.chars :=
      SourceFile.cut_line hline
    have hspan : charSpan (.ofNat l.start) (Text.dropTrailing Line.isTerminator l.chars)
        (.ofNat (p.column.toNat - 1)) = .ok _ := charSpan_words (by omega) p.column.toNat_lt
    rw [lineRange_words h hline, hsome]
    simp only [WordSpan.ofNats, Word.toNat_ofNat (show l.start < 2 ^ 64 by omega),
      Word.toNat_ofNat (show l.start + Text.byteLength l.chars < 2 ^ 64 by omega),
      hcut, Except.mapError, hspan]
    rfl

theorem label_words {s : Span} (hstart : (f.lineAt s.lo).start ≤ s.lo) (hend : s.hi < 2 ^ 63)
    (hlast : f.lineIndex s.hi = f.lineIndex s.lo) :
    let label := Snippet.Label.ofSpan (f.lineAt s.lo).start s
    ∃ shown, f.words.label (.ofNats s.lo s.hi) = .ok shown ∧
      shown.bounds = (label.first, label.past) := by
  intro label
  have hle := s.lo_le_hi
  have hline := f.getElem?_lineIndex s.lo
  have hfirst := lineIndex_words h (.ofNat s.lo)
  have hlast' := lineIndex_words h (.ofNat s.hi)
  rw [Word.toNat_ofNat (by omega)] at hfirst
  rw [Word.toNat_ofNat (by omega), hlast] at hlast'
  have hlo := Word.sub_ofNat (show s.lo < 2 ^ 64 by omega) hstart
  have hhi := Word.sub_ofNat (show s.hi < 2 ^ 64 by omega) (Nat.le_trans hstart hle)
  have hone := Word.add_one (show s.lo - (f.lineAt s.lo).start + 1 < 2 ^ 64 by omega)
  refine ⟨.ofNats label.first label.past, ?_, WordSpan.bounds_ofNats
    (show s.lo - (f.lineAt s.lo).start < 2 ^ 64 by omega)
    (show max (s.hi - _) (s.lo - (f.lineAt s.lo).start + 1) < 2 ^ 64 by omega)⟩
  simp only [WordFile.label, WordSpan.ofNats, hfirst, hlast', lineRange_words h hline, hlo, hhi, hone,
    bind, Except.bind, if_true]
  rw [Word.max_ofNat (by omega) (by omega)]
  rfl

end WordFile

/-- What a position points at lies on one line of the text. -/
theorem SourceFile.bounds_of_charRange {f : SourceFile} {p : Position} {s : Span}
    (hs : f.charRange p = some s) :
    (f.lineAt s.lo).start ≤ s.lo ∧ s.hi ≤ Text.byteLength f.source.toList ∧
      f.lineIndex s.hi = f.lineIndex s.lo := by
  obtain ⟨l, hline, rfl⟩ := Option.map_eq_some_iff.1 hs
  have htext := textEnd_le_byteLength hline
  obtain ⟨-, hhi⟩ := l.charSpan_bounds p.column
  refine ⟨f.start_lineAt_le _, by omega, ?_⟩
  rw [lineIndex_lo_charSpan hline, lineIndex_hi_charSpan hline]

/-- **Lookups in words never halt.** The table of lines can be made, and with it every offset has a
position, whose coordinates are not zero. For every position it is found what the position points at:
all results are words, no subtraction goes below zero, and the text is cut only between characters. So
it is for the bytes that are shown of it, which are counted from the start of the line. All that is
found is what numbers of any size would give. -/
theorem lookups_in_words_never_halt (f : SourceFile) (h : Text.byteLength f.source.toList < 2 ^ 63) :
    ∃ w, WordFile.ofFile f = .ok w ∧
      (∀ offset, (w.positionAt offset).map WordPosition.unbounded =
        .ok (f.positionAt offset.toNat)) ∧
      (∀ p, (w.charRange p).map (Option.map WordSpan.bounds) =
        .ok ((f.charRange p.unbounded).map fun s => (s.lo, s.hi))) ∧
      (∀ p, (w.labelAt p).map (Option.map WordSpan.bounds) =
        .ok ((f.charRange p.unbounded).map fun s =>
          let label := Snippet.Label.ofSpan (f.lineAt s.lo).start s
          (label.first, label.past))) := by
  refine ⟨f.words, WordFile.ofFile_eq (by omega), WordFile.positionAt_words h, ?_, ?_⟩
  · intro p
    rw [WordFile.charRange_words h]
    cases hs : f.charRange p.unbounded with
    | none => rfl
    | some s =>
      obtain ⟨-, hend, -⟩ := SourceFile.bounds_of_charRange hs
      have hle := s.lo_le_hi
      exact congrArg (Except.ok ∘ some) (WordSpan.bounds_ofNats (by omega) (by omega))
  · intro p
    rw [WordFile.labelAt, WordFile.charRange_words h]
    cases hs : f.charRange p.unbounded with
    | none => rfl
    | some s =>
      obtain ⟨hstart, hend, hlast⟩ := SourceFile.bounds_of_charRange hs
      obtain ⟨shown, hshown, hbounds⟩ := WordFile.label_words h hstart (by omega) hlast
      simp only [Option.map_some, hshown, bind, Except.bind]
      exact congrArg (Except.ok ∘ some) hbounds

/-- A text with a character of two bytes, a carriage return and an empty last line. -/
def acute : SourceFile := .ofText "input.asl" "é\r\n"

theorem lookups_in_words_never_halt_of_acute :
    Text.byteLength acute.source.toList < 2 ^ 63 ∧
    ∃ w, WordFile.ofFile acute = .ok w ∧
      (w.positionAt 18446744073709551615).map WordPosition.unbounded = .ok (.behind 1 0) ∧
      (w.charRange { line := 1, column := 1 }).map (Option.map WordSpan.bounds) =
        .ok (some (0, 2)) ∧
      (w.charRange { line := 18446744073709551615, column := 18446744073709551615 }).map
        (Option.map WordSpan.bounds) = .ok none ∧
      (w.labelAt { line := 1, column := 18446744073709551615 }).map (Option.map WordSpan.bounds) =
        .ok (some (2, 3)) := by
  have h : Text.byteLength acute.source.toList < 2 ^ 63 := by decide
  obtain ⟨w, hw, hposition, hrange, hlabel⟩ := lookups_in_words_never_halt acute h
  refine ⟨h, w, hw, (hposition _).trans ?_, (hrange _).trans ?_, (hrange _).trans ?_,
    (hlabel _).trans ?_⟩ <;> decide +kernel

end SemanticDiagnostics
