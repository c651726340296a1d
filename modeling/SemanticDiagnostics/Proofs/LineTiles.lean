import Mathlib.Data.List.FinRange
import SemanticDiagnostics.Proofs.BackAndForth

/-! # Characters tile the lines

Ask for one column of a line after the other: what they point at lies end to end, from the start of the
line up to the terminators at its end, one character in each. With the terminators of every line in
between, the characters of all lines tile the source: no byte is left out, and none belongs to two of
them. -/
namespace SemanticDiagnostics

/-! ## Tilings -/

namespace Span

/-- The span of so many bytes from an offset on. -/
def ofLength (lo length : Nat) : Span :=
  { lo, hi := lo + length, lo_le_hi := Nat.le_add_right lo length }

/-- Whether spans lie end to end: the first starts at `lo`, every other one where the one before it ends,
and the last ends at `hi`. -/
def Tile : Nat → List Span → Nat → Prop
  | lo, [], hi => lo = hi
  | lo, s :: ss, hi => s.lo = lo ∧ Tile s.hi ss hi

def holds (s : Span) (offset : Nat) : Bool := s.lo ≤ offset && offset < s.hi

variable {lo mid hi offset : Nat} {ss ts : List Span}

theorem Tile.append (h : Tile lo ss mid) (h' : Tile mid ts hi) : Tile lo (ss ++ ts) hi := by
  induction ss generalizing lo with
  | nil =>
    obtain rfl : lo = mid := h
    exact h'
  | cons s ss ih => exact ⟨h.1, ih h.2⟩

/-- Tilings of neighbours, one behind the other. -/
theorem Tile.flatMap {n : Nat} (bound : Nat → Nat) {tiles : Fin n → List Span}
    (h : ∀ i : Fin n, Tile (bound i) (tiles i) (bound (i + 1))) :
    Tile (bound 0) ((List.finRange n).flatMap tiles) (bound n) := by
  induction n generalizing bound with
  | zero => rfl
  | succ n ih =>
    have hrest := ih (fun i => bound (i + 1)) fun i => h i.succ
    rw [List.finRange_succ, List.flatMap_cons, List.flatMap_map]
    exact (h 0).append hrest

theorem countP_holds_of_lt (h : Tile lo ss hi) (hoffset : offset < lo) :
    ss.countP (·.holds offset) = 0 := by
  induction ss generalizing lo with
  | nil => rfl
  | cons s ss ih =>
    obtain ⟨rfl, hrest⟩ := h
    have hout : s.holds offset = false := by simp [holds, hoffset]
    rw [List.countP_cons, ih hrest (Nat.lt_of_lt_of_le hoffset s.lo_le_hi), hout]
    rfl

/-- Exactly one tile holds an offset. -/
theorem countP_holds (h : Tile lo ss hi) (hlo : lo ≤ offset) (hhi : offset < hi) :
    ss.countP (·.holds offset) = 1 := by
  induction ss generalizing lo with
  | nil =>
    obtain rfl : lo = hi := h
    exact absurd hhi (Nat.not_lt.2 hlo)
  | cons s ss ih =>
    obtain ⟨rfl, hrest⟩ := h
    by_cases hin : offset < s.hi
    · have hself : s.holds offset = true := by simp [holds, hlo, hin]
      rw [List.countP_cons, countP_holds_of_lt hrest hin, hself]
      rfl
    · have hout : s.holds offset = false := by simp [holds, hin]
      rw [List.countP_cons, ih hrest (Nat.le_of_not_lt hin), hout]
      rfl

end Span

namespace SourceFile

variable {f : SourceFile} {s : Span} {ss : List Span} {lo hi : Nat} {front rest : List Char}

/-- The text of a span stands behind what takes the bytes in front of the span. -/
theorem exists_of_slice? {text : String} (h : f.slice? s = some text)
    (hsource : f.source.toList = front ++ rest) (hfront : Text.byteLength front = s.lo) :
    ∃ back, rest = text.toList ++ back ∧ s.lo + Text.byteLength text.toList = s.hi := by
  have hdrop : Text.dropBytes f.source.toList s.lo = some rest :=
    Text.dropBytes_eq_some_iff.2 ⟨front, hsource, hfront⟩
  rw [slice?, hdrop, Option.bind_some, Option.map_eq_some_iff] at h
  obtain ⟨chars, htake, rfl⟩ := h
  obtain ⟨back, hrest, hlength⟩ := Text.takeBytes_eq_some_iff.1 htake
  have hle := s.lo_le_hi
  rw [String.toList_ofList]
  exact ⟨back, hrest, by omega⟩

/-- The texts of tiles, one behind the other, are the text that is tiled. -/
theorem exists_join_of_tile {texts : List String} (h : Span.Tile lo ss hi)
    (htexts : ss.map f.slice? = texts.map some) (hsource : f.source.toList = front ++ rest)
    (hfront : Text.byteLength front = lo) :
    ∃ back, rest = (String.join texts).toList ++ back ∧
      lo + Text.byteLength (String.join texts).toList = hi := by
  induction ss generalizing lo front rest texts with
  | nil =>
    obtain rfl : lo = hi := h
    obtain rfl : texts = [] := List.map_eq_nil_iff.1 htexts.symm
    exact ⟨rest, by simp, by simp⟩
  | cons s ss ih =>
    obtain ⟨rfl, htile⟩ := h
    obtain ⟨text, texts', rfl, htext, htexts'⟩ := List.map_eq_cons_iff.1 htexts.symm
    obtain ⟨more, rfl, hhi⟩ := exists_of_slice? htext.symm hsource hfront
    rw [← List.append_assoc] at hsource
    obtain ⟨back, rfl, hend⟩ := ih htile htexts'.symm hsource (by rw [Text.byteLength_append]; omega)
    refine ⟨back, ?_, ?_⟩
    · rw [String.join_cons, String.toList_append, List.append_assoc]
    · rw [String.join_cons, String.toList_append, Text.byteLength_append, ← hend]
      omega

/-- Tiles of the whole source give it back. -/
theorem join_eq_source {texts : List String}
    (h : Span.Tile 0 ss (Text.byteLength f.source.toList))
    (htexts : ss.map f.slice? = texts.map some) : String.join texts = f.source := by
  obtain ⟨back, hsource, hend⟩ := exists_join_of_tile h htexts (List.nil_append _).symm rfl
  have hlength := congrArg Text.byteLength hsource
  rw [Text.byteLength_append] at hlength
  obtain rfl : back = [] := Text.byteLength_eq_zero_iff.1 (by omega)
  rw [List.append_nil] at hsource
  exact String.toList_injective hsource.symm

end SourceFile

/-! ## Columns of a line -/

namespace Line

/-- The bytes of characters that stand one behind the other, the first from an offset on. -/
def charSpans : Nat → List Char → List Span
  | _, [] => []
  | offset, c :: cs => .ofLength offset c.utf8Size :: charSpans (offset + c.utf8Size) cs

theorem map_spanOf (offset : Nat) (cs : List Char) :
    (List.range cs.length).map (spanOf offset cs) = charSpans offset cs := by
  induction cs generalizing offset with
  | nil => rfl
  | cons c cs ih =>
    rw [List.length_cons, List.range_succ_eq_map, List.map_cons, List.map_map, charSpans, ← ih]
    rfl

theorem tile_charSpans (offset : Nat) (cs : List Char) :
    Span.Tile offset (charSpans offset cs) (offset + Text.byteLength cs) := by
  induction cs generalizing offset with
  | nil => rfl
  | cons c cs ih =>
    rw [Text.byteLength_cons, ← Nat.add_assoc]
    exact ⟨rfl, ih _⟩

theorem lt_of_mem_charSpans {offset : Nat} {cs : List Char} {s : Span}
    (h : s ∈ charSpans offset cs) : s.lo < s.hi := by
  induction cs generalizing offset with
  | nil => exact nomatch h
  | cons c cs ih =>
    rcases List.mem_cons.1 h with rfl | h
    · exact Nat.lt_add_of_pos_right c.utf8Size_pos
    · exact ih h

/-- Each of the spans holds one character. -/
theorem map_slice?_charSpans {f : SourceFile} {front cs back : List Char}
    (h : f.source.toList = front ++ (cs ++ back)) :
    (charSpans (Text.byteLength front) cs).map f.slice? =
      cs.map fun c => some (String.singleton c) := by
  induction cs generalizing front with
  | nil => rfl
  | cons c cs ih =>
    have hself : f.slice? (.ofLength (Text.byteLength front) c.utf8Size) =
        some (String.ofList [c]) := SourceFile.slice?_of_append h rfl rfl
    have hnext : f.source.toList = (front ++ [c]) ++ (cs ++ back) := by
      rw [h, List.append_assoc]
      rfl
    have hrest := ih hnext
    rw [Text.byteLength_append, Text.byteLength_cons, Text.byteLength_nil, Nat.add_zero] at hrest
    rw [charSpans, List.map_cons, List.map_cons, hself, hrest]
    rfl

end Line

/-! ## Lines of a text -/

namespace Line.Cut

variable {cs : List Char} {index : Nat} (cut : Line.Cut cs index)

/-- The bytes of the terminators at the end of the line. -/
def run : Span := .ofLength cut.textEnd (Text.byteLength cut.ending)

/-- What lies on the line: the characters of its text, one by one, and its terminators. -/
def tiles : List Span := charSpans cut.start cut.text ++ [cut.run]

theorem tile_tiles : Span.Tile cut.start cut.tiles cut.past :=
  (tile_charSpans cut.start cut.text).append ⟨rfl, rfl⟩

theorem start_first (first : Line.Cut cs 0) : first.start = 0 := by
  have hcount : ([] ++ first.front).count '\n' = [].count '\n' := first.count_front
  have hfront : first.front = [] := eq_nil_of_count_feed hcount first.front_ends
  rw [start, hfront, Text.byteLength_nil]

theorem count_eq : cs.count '\n' = index + (cut.ending.count '\n' + cut.back.count '\n') := by
  have htext : cut.text.count '\n' = 0 := List.count_eq_zero.2 cut.feed_not_mem_text
  rw [congrArg (List.count '\n') cut.whole]
  simp only [List.count_append, cut.count_front, htext, Nat.zero_add]

theorem byteLength_eq : Text.byteLength cs = cut.past + Text.byteLength cut.back := by
  rw [congrArg Text.byteLength cut.whole]
  simp only [Text.byteLength_append, past, textEnd, start, Nat.add_assoc]

/-- Behind the last line feed there is one line more, and nothing is behind it. -/
theorem past_last (hlast : cs.count '\n' = index) : cut.past = Text.byteLength cs := by
  have hcount := cut.count_eq
  rcases cut.ending_ends with ⟨returns, hending, -⟩ | ⟨-, hback⟩
  · rw [hending, List.count_append, List.count_singleton_self] at hcount
    omega
  · rw [cut.byteLength_eq, hback, Text.byteLength_nil, Nat.add_zero]

/-- In front of the next line stand the lines in front of this one, and this one. -/
theorem front_next (next : Line.Cut cs (index + 1)) :
    next.front = cut.front ++ (cut.text ++ cut.ending) := by
  have hcount := cut.count_eq
  have hcount' := next.count_eq
  have htext : cut.text.count '\n' = 0 := List.count_eq_zero.2 cut.feed_not_mem_text
  rcases cut.ending_ends with ⟨returns, hending, hreturns⟩ | ⟨hfeed, hback⟩
  · have hfeeds : (cut.front ++ (cut.text ++ cut.ending)).count '\n' = index + 1 := by
      simp only [List.count_append, cut.count_front, htext, hending, List.count_eq_zero.2 hreturns,
        List.count_singleton_self, Nat.zero_add]
    have hends : ∀ c ∈ (cut.front ++ (cut.text ++ cut.ending)).getLast?, c = '\n' := by
      intro c hc
      rw [hending, ← List.append_assoc, ← List.append_assoc, List.getLast?_concat] at hc
      exact (Option.some.inj hc).symm
    have hwhole : next.front ++ (next.text ++ (next.ending ++ next.back)) =
        (cut.front ++ (cut.text ++ cut.ending)) ++ cut.back := by
      rw [← next.whole, List.append_assoc, List.append_assoc]
      exact cut.whole
    -- Both end in the same line feed, counted from the start of the text.
    refine (eq_of_append_eq_append hwhole (fun more h _ => ?_) fun more h _ => ?_).1
    · exact eq_nil_of_count_feed (by rw [← h, hfeeds, next.count_front]) (h ▸ hends)
    · exact eq_nil_of_count_feed (by rw [← h, hfeeds, next.count_front]) (h ▸ next.front_ends)
  · rw [List.count_eq_zero.2 hfeed, hback, List.count_nil] at hcount
    omega

theorem start_next (next : Line.Cut cs (index + 1)) : next.start = cut.past := by
  rw [start, front_next cut next, Text.byteLength_append, Text.byteLength_append, ← Nat.add_assoc]
  rfl

/-- The terminators of a line are carriage returns with one line feed behind them, or with none. -/
theorem ending_eq : ∃ returns, (∀ c ∈ returns, c = '\r') ∧
    (cut.ending = returns ∨ cut.ending = returns ++ ['\n']) := by
  have hreturn {c : Char} (hc : c ∈ cut.ending) (hfeed : c ≠ '\n') : c = '\r' := by
    have hterminator := cut.terminators c hc
    simpa [isTerminator, hfeed] using hterminator
  rcases cut.ending_ends with ⟨returns, hending, hnone⟩ | ⟨hnone, -⟩
  · refine ⟨returns, fun c hc => hreturn ?_ fun h => hnone (h ▸ hc), .inr hending⟩
    rw [hending]
    exact List.mem_append_left _ hc
  · exact ⟨cut.ending, fun c hc => hreturn hc fun h => hnone (h ▸ hc), .inl rfl⟩

end Line.Cut

/-! ## Lines of a file -/

theorem SourceFile.exists_line (f : SourceFile) {index : Nat}
    (h : index < 1 + f.source.toList.count '\n') : ∃ l, f.lines[index]? = some l := by
  rw [Nat.add_comm, ← f.size_lines] at h
  exact ⟨_, Array.getElem?_eq_getElem h⟩

/-- Every line of a file can be cut out. -/
theorem SourceFile.nonempty_cut (f : SourceFile) {index : Nat}
    (h : index < 1 + f.source.toList.count '\n') : Nonempty (Line.Cut f.source.toList index) := by
  obtain ⟨l, hline⟩ := f.exists_line h
  obtain ⟨cut, -⟩ := exists_cut hline
  exact ⟨cut⟩

namespace Line.Cut

variable {f : SourceFile} {index : Nat} (cut : Line.Cut f.source.toList index)

/-- The columns of a line point at the characters of its text. -/
theorem charRange_eq (chars : Nat) :
    f.charRange (.behind index chars) = some (spanOf cut.start cut.text chars) := by
  have hcount := cut.count_eq
  obtain ⟨l, hline⟩ := f.exists_line (show index < 1 + f.source.toList.count '\n' by omega)
  obtain ⟨cut', hstart, htext, -⟩ := SourceFile.exists_cut hline
  obtain rfl : cut' = cut := Subsingleton.elim ..
  rw [hstart, htext]
  exact SourceFile.charRange_of_line (p := .behind index chars) hline

/-- The columns up to the last character of the text point at its characters, one by one. -/
theorem map_charRange :
    (List.range cut.text.length).map (fun chars => f.charRange (.behind index chars)) =
      (charSpans cut.start cut.text).map some := by
  rw [← map_spanOf, List.map_map]
  exact List.map_congr_left fun chars _ => cut.charRange_eq chars

theorem map_slice?_text :
    (charSpans cut.start cut.text).map f.slice? = cut.text.map fun c => some (String.singleton c) :=
  map_slice?_charSpans cut.whole

theorem slice?_run : f.slice? cut.run = some (String.ofList cut.ending) := by
  have hwhole : f.source.toList = (cut.front ++ cut.text) ++ (cut.ending ++ cut.back) := by
    rw [List.append_assoc]
    exact cut.whole
  exact SourceFile.slice?_of_append hwhole (Text.byteLength_append ..).symm rfl

/-- Everything that lies on a line has a text. -/
theorem map_slice?_tiles : cut.tiles.map f.slice? =
    (cut.text.map String.singleton ++ [String.ofList cut.ending]).map some := by
  rw [tiles, List.map_append, List.map_append, cut.map_slice?_text, List.map_singleton, cut.slice?_run,
    List.map_map]
  rfl

end Line.Cut

/-- The lines of a text lie end to end, and so do the tiles on them. -/
theorem Line.Cut.tile_flatMap {cs : List Char}
    (cuts : (index : Fin (1 + cs.count '\n')) → Line.Cut cs index) :
    Span.Tile 0 ((List.finRange _).flatMap fun index => (cuts index).tiles) (Text.byteLength cs) := by
  let bound (i : Nat) : Nat :=
    if h : i < 1 + cs.count '\n' then (cuts ⟨i, h⟩).start else Text.byteLength cs
  have hfirst : bound 0 = 0 := (dif_pos (Nat.lt_add_right _ Nat.one_pos)).trans (start_first _)
  have hlast : bound (1 + cs.count '\n') = Text.byteLength cs := dif_neg (Nat.lt_irrefl _)
  have htile (index : Fin (1 + cs.count '\n')) :
      Span.Tile (bound index) (cuts index).tiles (bound (index + 1)) := by
    have hstart : bound index = (cuts index).start := dif_pos index.isLt
    have hpast : bound (index + 1) = (cuts index).past := by
      by_cases hnext : index.val + 1 < 1 + cs.count '\n'
      · exact (dif_pos hnext).trans ((cuts index).start_next (cuts ⟨index + 1, hnext⟩))
      · have hcount : cs.count '\n' = index := by omega
        exact (dif_neg hnext).trans ((cuts index).past_last hcount).symm
    rw [hstart, hpast]
    exact (cuts index).tile_tiles
  have hall := Span.Tile.flatMap bound htile
  rwa [hfirst, hlast] at hall

/-- **Characters tile the lines, and lines tile the source.** Every line of a file can be cut out of its
source. The columns of the line point at the characters of its text, one column at one character, and
these lie end to end from the start of the line up to its terminators. The terminators are carriage
returns with at most one line feed behind them, and the next line starts where they end, or the source
ends there. Over all lines, characters and terminators tile the source: every byte is in exactly one
tile, and the texts of the tiles, one behind the other, are the source. -/
theorem character_ranges_tile_the_source (f : SourceFile) :
    ∃ cuts : (index : Fin (1 + f.source.toList.count '\n')) → Line.Cut f.source.toList index,
      (∀ index,
        let cut := cuts index
        let spans := Line.charSpans cut.start cut.text
        (List.range cut.text.length).map (fun chars => f.charRange (.behind index chars)) =
          spans.map some ∧
        (∀ s ∈ spans, s.lo < s.hi) ∧
        spans.map f.slice? = cut.text.map (fun c => some (String.singleton c)) ∧
        Span.Tile cut.start spans cut.textEnd ∧
        f.slice? cut.run = some (String.ofList cut.ending) ∧
        (∃ returns, (∀ c ∈ returns, c = '\r') ∧
          (cut.ending = returns ∨ cut.ending = returns ++ ['\n'])) ∧
        (∀ next : Fin _, next.val = index + 1 → (cuts next).start = cut.past) ∧
        (f.source.toList.count '\n' = index → cut.past = Text.byteLength f.source.toList)) ∧
      let all := (List.finRange _).flatMap fun index => (cuts index).tiles
      Span.Tile 0 all (Text.byteLength f.source.toList) ∧
      (∀ offset < Text.byteLength f.source.toList, all.countP (·.holds offset) = 1) ∧
      ∃ texts, all.map f.slice? = texts.map some ∧ String.join texts = f.source := by
  obtain ⟨cuts⟩ : Nonempty ((index : Fin (1 + f.source.toList.count '\n')) →
    Line.Cut f.source.toList index) := Classical.nonempty_pi.2 fun index => f.nonempty_cut index.isLt
  have htile := Line.Cut.tile_flatMap cuts
  have htexts : ((List.finRange _).flatMap fun index => (cuts index).tiles).map f.slice? =
      ((List.finRange _).flatMap fun index =>
        (cuts index).text.map String.singleton ++ [String.ofList (cuts index).ending]).map some := by
    rw [List.map_flatMap, List.map_flatMap]
    simp only [Line.Cut.map_slice?_tiles]
  refine ⟨cuts, fun index => ?_, htile, fun offset hoffset => ?_, _, htexts, ?_⟩
  · intro cut spans
    refine ⟨cut.map_charRange, fun s => Line.lt_of_mem_charSpans, cut.map_slice?_text,
      Line.tile_charSpans .., cut.slice?_run, cut.ending_eq, ?_, fun hlast => cut.past_last hlast⟩
    rintro ⟨next, hnext⟩ rfl
    exact cut.start_next _
  · exact Span.countP_holds htile (Nat.zero_le offset) hoffset
  · exact SourceFile.join_eq_source htile htexts

end SemanticDiagnostics
