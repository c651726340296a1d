import SemanticDiagnostics.Proofs.TrimmedLines

/-! # Line endings

Lines may end in a line feed or in a carriage return and a line feed. If the carriage returns of the
second kind are left out of a source, most offsets in it change, but neither does the place of a
character in the text of its line nor anything that rich output shows. -/
namespace SemanticDiagnostics
open Output

/-! ## Texts with unified endings -/

namespace Text

/-- The text with `"\n"` for every `"\r\n"`. -/
def unifyEnds : List Char → List Char
  | [] => []
  | '\r' :: '\n' :: cs => '\n' :: unifyEnds cs
  | c :: cs => c :: unifyEnds cs

/-- Of several carriage returns before a line feed the last is left out, and one elsewhere is kept. -/
example : unifyEnds "a\rb\r\r\n\r".toList = "a\rb\r\n\r".toList := by decide

theorem unifyEnds_cons {c : Char} {cs : List Char} (h : c = '\r' → cs.head? ≠ some '\n') :
    unifyEnds (c :: cs) = c :: unifyEnds cs := by
  rw [unifyEnds]
  intro rest hc hcs
  exact h hc (hcs ▸ rfl)

/-- Before a character other than a line feed the text can be cut. -/
theorem unifyEnds_append {as : List Char} {c : Char} (h : c ≠ '\n') (bs : List Char) :
    unifyEnds (as ++ c :: bs) = unifyEnds as ++ unifyEnds (c :: bs) := by
  fun_induction unifyEnds as with
  | case1 => rfl
  | case2 cs ih =>
    rw [List.cons_append, List.cons_append, unifyEnds, ih]
    rfl
  | case3 d cs hpair ih =>
    rw [List.cons_append, unifyEnds_cons, ih, List.cons_append]
    intro hd
    cases cs with
    | nil => exact fun hhead => h (Option.some.inj hhead)
    | cons e cs => exact fun hhead => hpair cs hd (congrArg (· :: cs) (Option.some.inj hhead))

theorem unifyEnds_of_not_mem {cs : List Char} (h : '\n' ∉ cs) : unifyEnds cs = cs := by
  induction cs with
  | nil => rfl
  | cons c cs ih =>
    obtain ⟨-, hcs⟩ := not_or.1 (mt List.mem_cons.2 h)
    rw [unifyEnds_cons, ih hcs]
    exact fun _ hhead => hcs (List.mem_of_head? hhead)

/-- A line loses at most one carriage return at its end. -/
theorem exists_unifyEnds_line {body : List Char} (h : '\n' ∉ body) :
    ∃ kept, (body = kept ∨ body = kept ++ ['\r']) ∧
      ∀ rest, unifyEnds (body ++ '\n' :: rest) = kept ++ '\n' :: unifyEnds rest := by
  induction body with
  | nil => exact ⟨[], .inl rfl, fun rest => unifyEnds_cons fun hc => absurd hc (by decide)⟩
  | cons c cs ih =>
    obtain ⟨-, hcs⟩ := not_or.1 (mt List.mem_cons.2 h)
    obtain ⟨kept, hkept, hrest⟩ := ih hcs
    by_cases hreturn : c = '\r' ∧ cs = []
    · obtain ⟨rfl, rfl⟩ := hreturn
      exact ⟨[], .inr rfl, fun rest => rfl⟩
    · refine ⟨c :: kept, ?_, ?_⟩
      · rcases hkept with rfl | rfl
        · exact .inl rfl
        · exact .inr rfl
      · intro rest
        rw [List.cons_append, unifyEnds_cons, hrest, List.cons_append]
        intro hc hhead
        cases cs with
        | nil => exact hreturn ⟨hc, rfl⟩
        | cons d cs => exact hcs (Option.some.inj hhead ▸ List.mem_cons_self)

end Text

/-- Reading both texts leads to the same place. -/
theorem Position.after_unifyEnds (p : Position) (cs : List Char) :
    p.after (Text.unifyEnds cs) = p.after cs := by
  fun_induction Text.unifyEnds cs generalizing p with
  | case1 => rfl
  | case2 cs ih => exact ih _
  | case3 c cs _ ih => exact ih _

/-! ## Lines with unified endings -/

theorem Line.trimmed_of_kept {body kept : List Char} (h : body = kept ∨ body = kept ++ ['\r'])
    (start start' : Nat) :
    (Line.mk start (kept ++ ['\n'])).trimmed = (Line.mk start' (body ++ ['\n'])).trimmed := by
  unfold trimmed text shown
  rcases h with rfl | rfl
  · rfl
  · simp only [Text.dropTrailing_concat, isTerminator, decide_true, Bool.or_true, Bool.true_or]

theorem Line.map_trimmed_unifyEnds (cs : List Char) (start start' : Nat) :
    (layOut start (split (Text.unifyEnds cs))).map trimmed =
      (layOut start' (split cs)).map trimmed := by
  induction cs using linewise generalizing start start' with
  | last cs hcs =>
    rw [Text.unifyEnds_of_not_mem hcs, split_of_not_mem hcs]
    rfl
  | more body rest hbody ih =>
    obtain ⟨kept, hkept, hrest⟩ := Text.exists_unifyEnds_line hbody
    have hfeed : '\n' ∉ kept := by
      rcases hkept with rfl | rfl
      · exact hbody
      · exact fun hmem => hbody (List.mem_append_left _ hmem)
    rw [hrest, split_append hfeed, split_append hbody, layOut, layOut, List.map_cons, List.map_cons,
      trimmed_of_kept hkept _ start', ih]

namespace SourceFile

/-- The file with unified line endings in its source. -/
def unifyEnds (f : SourceFile) : SourceFile :=
  ofText f.name (String.ofList (Text.unifyEnds f.source.toList))

@[simp] theorem toList_source_unifyEnds (f : SourceFile) :
    f.unifyEnds.source.toList = Text.unifyEnds f.source.toList := String.toList_ofList

@[simp] theorem name_unifyEnds (f : SourceFile) : f.unifyEnds.name = f.name := rfl

theorem map_trimmed_lines_unifyEnds (f : SourceFile) :
    f.unifyEnds.lines.toList.map Line.trimmed = f.lines.toList.map Line.trimmed := by
  rw [lines_eq, lines_eq, toList_source_unifyEnds]
  exact Line.map_trimmed_unifyEnds f.source.toList 0 0

/-- The offset lies in the text of its line and not in the terminators at the end of the line. -/
def InText (f : SourceFile) (offset : Nat) : Prop :=
  offset < (f.lineAt offset).start + Text.byteLength (f.lineAt offset).text

/-- Behind a character in the text of its line stand the rest of this text, the terminators of the
line, and the lines that follow. -/
theorem exists_text_of_inText {f : SourceFile} {as : List Char} {c : Char} {bs : List Char}
    (hsource : f.source.toList = as ++ c :: bs) (h : f.InText (Text.byteLength as)) :
    ∃ (index : Nat) (l : Line) (before after back : List Char),
      f.lines[index]? = some l ∧ l.text = before ++ c :: after ∧
        bs = after ++ (l.terminators ++ back) := by
  have hline := f.getElem?_lineIndex (Text.byteLength as)
  have hstart := f.start_lineAt_le (Text.byteLength as)
  unfold InText at h
  generalize f.lineAt (Text.byteLength as) = l at hline hstart h
  have hindex := hline
  rw [f.lines_eq, List.getElem?_toArray] at hindex
  obtain ⟨front, back, hcs, hfront, -, -⟩ := Line.exists_of_getElem? hindex
  rcases Text.le_or_inside l.text (Text.byteLength as - l.start) with
    hend | ⟨before, d, after, htext, hle, hlt⟩
  · omega
  · have hcut : as ++ c :: bs = (front ++ before) ++ d :: (after ++ (l.terminators ++ back)) := by
      rw [← hsource, hcs, ← l.text_append_terminators, htext]
      simp
    have hlength : Text.byteLength (front ++ before) = l.start + Text.byteLength before := by
      rw [Text.byteLength_append, hfront, Nat.zero_add]
    obtain ⟨-, rfl, hbs⟩ := Text.append_cons_inj hcut (by omega) (by omega)
    exact ⟨_, l, before, after, back, hline, htext, hbs⟩

/-- A character in the text of its line is no line feed, nor does it make one up with a line feed. -/
theorem not_ending_of_inText {f : SourceFile} {as : List Char} {c : Char} {bs : List Char}
    (hsource : f.source.toList = as ++ c :: bs) (h : f.InText (Text.byteLength as)) :
    c ≠ '\n' ∧ (c = '\r' → bs.head? ≠ some '\n') := by
  obtain ⟨index, l, before, after, back, hline, htext, rfl⟩ := exists_text_of_inText hsource h
  have hfeed := feed_not_mem_text hline
  rw [htext] at hfeed
  constructor
  · intro hc
    exact hfeed (by simp [hc])
  · intro hc hhead
    -- The character behind it is in the text as well, or it is the last one of the text.
    cases after with
    | nil =>
      have hlast : l.text.getLast? = some c := by rw [htext, List.getLast?_concat]
      have hkept := Text.getLast_dropTrailing hlast
      rw [hc] at hkept
      cases hkept
    | cons d after =>
      obtain rfl : d = '\n' := Option.some.inj hhead
      exact hfeed (by simp)

/-- A character in the text of its line stays where it is. -/
theorem positionAt_unifyEnds {f : SourceFile} {as : List Char} {c : Char} {bs : List Char}
    (hsource : f.source.toList = as ++ c :: bs) (h : f.InText (Text.byteLength as)) :
    f.unifyEnds.source.toList = Text.unifyEnds as ++ c :: Text.unifyEnds bs ∧
      ∀ n < c.utf8Size, f.unifyEnds.positionAt (Text.byteLength (Text.unifyEnds as) + n) =
        f.positionAt (Text.byteLength as + n) := by
  obtain ⟨hc, hnext⟩ := not_ending_of_inText hsource h
  have hunified : f.unifyEnds.source.toList = Text.unifyEnds as ++ c :: Text.unifyEnds bs := by
    rw [toList_source_unifyEnds, hsource, Text.unifyEnds_append hc, Text.unifyEnds_cons hnext]
  refine ⟨hunified, ?_⟩
  intro n hn
  rw [positionAt_eq_after, positionAt_eq_after, hunified, hsource,
    Text.passed_append (Nat.le_add_right ..) (by omega),
    Text.passed_append (Nat.le_add_right ..) (by omega), Position.after_unifyEnds]

end SourceFile

/-! ## Output -/

/-- **Line endings make no difference.** Whatever a report holds, it is emitted alike with a file and
with the file whose lines end in line feeds alone, in either style, by every writer and to standard
error. A character in the text of its line keeps its position, at each of its bytes. -/
theorem line_endings_do_not_matter (f : SourceFile) :
    (∀ (report : Report) (config : EmitConfig) (medium : Medium) (limit : Option Nat),
      (report.emit f.unifyEnds config medium limit).value = (report.emit f config medium limit).value ∧
        (report.emitToStandardError f.unifyEnds config).value =
          (report.emitToStandardError f config).value) ∧
    (∀ (as : List Char) (c : Char) (bs : List Char), f.source.toList = as ++ c :: bs →
      f.InText (Text.byteLength as) →
      f.unifyEnds.source.toList = Text.unifyEnds as ++ c :: Text.unifyEnds bs ∧
        ∀ n < c.utf8Size, f.unifyEnds.positionAt (Text.byteLength (Text.unifyEnds as) + n) =
          f.positionAt (Text.byteLength as + n)) := by
  refine ⟨?_, fun as c bs => SourceFile.positionAt_unifyEnds⟩
  intro report config medium limit
  have hblocks : report.blocks f.unifyEnds = report.blocks f :=
    Report.blocks_eq_of_trimmed f.name_unifyEnds f.map_trimmed_lines_unifyEnds report
  have hpieces : report.pieces f.unifyEnds config.style = report.pieces f config.style := by
    cases config.style with
    | plain => rfl
    | rich => exact congrArg (List.flatMap Block.pieces) hblocks
  have hchunks (medium : Medium) :
      report.chunks f.unifyEnds config.style medium = report.chunks f config.style medium :=
    congrArg (List.map _) hpieces
  exact ⟨congrArg (Output.write limit) (hchunks medium), congrArg String.join (hchunks _)⟩

end SemanticDiagnostics
