import SemanticDiagnostics.Proofs.Clamping

/-! # Colors

Pieces of output carry their styles beside the texts, so a medium with colors shows the texts of one
without, with escape sequences between them. The sequences can be told from the texts if no text has
the character that they start with; in rich output all texts but the name of the file, its lines and
the messages are known not to have it. -/
namespace SemanticDiagnostics
open Session Output

/-! ## Texts without escape sequences -/

namespace Output

/-- The text without all that stands between `ESC [` and the next `m`. The flag says whether the
text starts in such a stretch. -/
def dropSequences : Bool → List Char → List Char
  | _, [] => []
  | true, c :: cs => dropSequences (c ≠ 'm') cs
  | false, '\x1b' :: '[' :: cs => dropSequences true cs
  | false, c :: cs => c :: dropSequences false cs

example : dropSequences false "a\x1b[0m\x1b[38;5;9mbm[\x1b[0m".toList = "abm[".toList := by decide

variable {cs : List Char}

theorem dropSequences_append (h : '\x1b' ∉ cs) (rest : List Char) :
    dropSequences false (cs ++ rest) = cs ++ dropSequences false rest := by
  induction cs with
  | nil => rfl
  | cons c cs ih =>
    obtain ⟨hc, hcs⟩ := not_or.1 (mt List.mem_cons.2 h)
    rw [List.cons_append, dropSequences, ih hcs, List.cons_append]
    intro _ hescape
    exact absurd hescape.symm hc

theorem dropSequences_parameters (h : 'm' ∉ cs) (rest : List Char) :
    dropSequences true (cs ++ 'm' :: rest) = dropSequences false rest := by
  induction cs with
  | nil => rfl
  | cons c cs ih =>
    obtain ⟨hc, hcs⟩ := not_or.1 (mt List.mem_cons.2 h)
    rw [List.cons_append, dropSequences, decide_eq_true (Ne.symm hc), ih hcs]

theorem dropSequences_sequence {parameters : String} (h : 'm' ∉ parameters.toList)
    (rest : List Char) :
    dropSequences false ((sequence parameters).toList ++ rest) = dropSequences false rest := by
  have hsequence : (sequence parameters).toList ++ rest =
      '\x1b' :: '[' :: (parameters.toList ++ 'm' :: rest) := by
    simp [sequence, String.toList_append]
  rw [hsequence, dropSequences, dropSequences_parameters h]

theorem dropSequences_color (color : Color) (rest : List Char) :
    dropSequences false (color.escape.toList ++ rest) = dropSequences false rest := by
  cases color <;> exact dropSequences_sequence (by decide) rest

theorem dropSequences_style (style : Style) (rest : List Char) :
    dropSequences false (style.escape.toList ++ rest) = dropSequences false rest := by
  obtain ⟨bold, color⟩ := style
  rw [Style.escape, String.toList_append, String.toList_append, List.append_assoc,
    List.append_assoc, dropSequences_sequence (by decide)]
  have hcolor : dropSequences false (((color.map Color.escape).getD "").toList ++ rest) =
      dropSequences false rest := by
    cases color with
    | none => rfl
    | some color => exact dropSequences_color color rest
  cases bold with
  | false => exact hcolor
  | true => exact (dropSequences_sequence (by decide) _).trans hcolor

/-- If no text has the character that sequences start with, colors add nothing but sequences. -/
theorem dropSequences_textOf {ps : List Piece} (h : '\x1b' ∉ (textOf .plain ps).toList) :
    dropSequences false (textOf .ansi ps).toList = (textOf .plain ps).toList := by
  induction ps with
  | nil => rfl
  | cons p ps ih =>
    rw [textOf_cons, String.toList_append] at h
    obtain ⟨hp, hps⟩ := not_or.1 (mt List.mem_append.2 h)
    rw [textOf_cons, textOf_cons, String.toList_append, String.toList_append]
    cases p with
    | text s =>
      have hs : '\x1b' ∉ s.toList := hp
      exact (dropSequences_append hs _).trans (congrArg (s.toList ++ ·) (ih hps))
    | style s => exact (dropSequences_style s _).trans (ih hps)

end Output

/-! ## The character that sequences start with -/

/-- Whether a text can be told from the escape sequences around it. -/
def Text.IsClean (s : String) : Prop := '\x1b' ∉ s.toList

namespace Text

instance (s : String) : Decidable (IsClean s) := inferInstanceAs (Decidable ('\x1b' ∉ s.toList))

variable {s t : String}

@[simp] theorem isClean_append : IsClean (s ++ t) ↔ IsClean s ∧ IsClean t := by
  simp [IsClean, String.toList_append]

@[simp] theorem isClean_join {ss : List String} :
    IsClean (String.join ss) ↔ ∀ s ∈ ss, IsClean s := by
  simp [IsClean, String.toList_join]

theorem isClean_of_gutter (h : ∀ c ∈ s.toList, Snippet.isGutter c = true) : IsClean s :=
  fun hmem => absurd (Snippet.toNat_of_isGutter (h _ hmem)).1 (by decide)

@[simp] theorem isClean_repr (n : Nat) : IsClean n.repr :=
  isClean_of_gutter fun _ => Snippet.isGutter_of_mem_toString

@[simp] theorem isClean_repeated (width : Nat) : IsClean (Snippet.repeated ' ' width) :=
  isClean_of_gutter fun _ => Snippet.isGutter_of_mem_repeated

end Text

theorem Kind.isAlpha_of_mem_code (k : Kind) {c : Char} (h : c ∈ k.code.toList) : c.isAlpha = true := by
  have hletters : k.code.toList.all Char.isAlpha = true :=
    forall_code (P := fun code => code.toList.all Char.isAlpha = true) (by decide +kernel) k
  exact List.all_eq_true.1 hletters c h

theorem Kind.isClean_code (k : Kind) : Text.IsClean k.code :=
  fun hmem => absurd (k.isAlpha_of_mem_code hmem) (by decide)

theorem Position.isClean_render (p : Position) : Text.IsClean p.render := by
  have hpoint : Text.IsClean "." := by decide
  simp [render, hpoint]

theorem Record.isClean_lines {rs : List Record} (h : ∀ r ∈ rs, Text.IsClean r.message) :
    Text.IsClean (lines rs) := by
  have hcolon : Text.IsClean ": " := by decide
  have hfeed : Text.IsClean "\n" := by decide
  simpa [lines, render, Position.isClean_render, hcolon, hfeed] using h

theorem Snippet.isClean_caretsAt (shown : List Char) (index : Nat) :
    Text.IsClean (caretsAt shown index) := by
  have hcarets (width : Nat) : Text.IsClean (repeated '^' width) :=
    fun hmem => absurd (eq_of_mem_repeated hmem) (by decide)
  refine Text.isClean_append.2 ⟨Text.isClean_repeated _, ?_⟩
  split
  · exact hcarets _
  · split <;> decide

theorem Snippet.isClean_expand {cs : List Char} (h : '\x1b' ∉ cs) (column : Nat) :
    Text.IsClean (expand column cs) := by
  induction cs generalizing column with
  | nil => exact List.not_mem_nil
  | cons c cs ih =>
    obtain ⟨hc, hcs⟩ := not_or.1 (mt List.mem_cons.2 h)
    have hshow : Text.IsClean (showAt column c) := by
      intro hmem
      obtain hblank | ⟨hescape, -⟩ := of_mem_showAt hmem
      · exact absurd hblank (by decide)
      · exact hc hescape
    exact Text.isClean_append.2 ⟨hshow, ih hcs _⟩

theorem SourceFile.shown_subset {f : SourceFile} {number : Nat} {l : Line}
    (hline : f.line? number = some l) : l.shown ⊆ f.source.toList := by
  rw [line?, f.lines_eq, List.getElem?_toArray] at hline
  obtain ⟨front, back, hsource, -⟩ := Line.exists_of_getElem? hline
  have hshown : l.shown ⊆ l.chars := (Text.dropTrailing_isPrefix ..).subset
  intro c hc
  rw [hsource]
  exact List.mem_append_right _ (List.mem_append_left _ (hshown hc))

theorem Block.isClean_rows {f : SourceFile} {r : Record} (hname : Text.IsClean f.name)
    (hsource : Text.IsClean f.source) (hcode : Text.IsClean r.code)
    (hmessage : Text.IsClean r.message) :
    ∀ row ∈ (ofRecord f r).rows.map (textOf .plain), Text.IsClean row := by
  have hhead : Text.IsClean "error[" ∧ Text.IsClean "]: " ∧ Text.IsClean "" := by decide
  cases hline : f.line? r.position.line with
  | none =>
    have hnote : Text.IsClean " = at " := by decide
    rw [plain_rows_of_no_line hline]
    simp [hhead, hnote, hcode, hmessage, Position.isClean_render]
  | some l =>
    obtain ⟨hrows, -⟩ := plain_rows_of_line hline
    have hlocus : Text.IsClean " ┌─ " ∧ Text.IsClean ":" := by decide
    have hborder : Text.IsClean " │" ∧ Text.IsClean " │ " := by decide
    have hshown : '\x1b' ∉ l.shown := fun hmem => hsource (SourceFile.shown_subset hline hmem)
    rw [hrows]
    simp [hhead, hlocus, hborder, hcode, hmessage, hname, Snippet.isClean_expand hshown,
      Snippet.isClean_caretsAt]

/-- No text of rich output starts an escape sequence, if neither the file nor a message does. -/
theorem Block.isClean_texts {f : SourceFile} {rs : List Record} (hname : Text.IsClean f.name)
    (hsource : Text.IsClean f.source) (hcode : ∀ r ∈ rs, Text.IsClean r.code)
    (hmessage : ∀ r ∈ rs, Text.IsClean r.message) : Text.IsClean (texts .plain f rs) := by
  have hfeed : Text.IsClean "\n" := by decide
  refine Text.isClean_join.2 ?_
  intro text htext
  obtain ⟨r, hr, rfl⟩ := List.mem_map.1 htext
  rw [Block.text_eq_rows, Text.isClean_join]
  intro text htext
  obtain ⟨row, hrow, rfl⟩ := List.mem_map.1 htext
  have hclean := isClean_rows hname hsource (hcode r hr) (hmessage r hr)
  exact Text.isClean_append.2 ⟨hclean _ (List.mem_map_of_mem hrow), hfeed⟩

/-- **Colors do not change the text.** Whatever session a report comes from, if the character that
escape sequences start with is neither in the name nor in the source of the file nor in a message,
rich output with colors is, but for escape sequences, rich output without, and plain style is written
without escape sequences even where colors can be shown. The same goes for standard error. -/
theorem colors_do_not_change_text {steps : List Step} {index : Nat} {report : Report}
    {f : SourceFile} (h : (State.initial.run steps).2.reports[index]? = some report)
    (hname : '\x1b' ∉ f.name.toList) (hsource : '\x1b' ∉ f.source.toList)
    (hmessage : ∀ r ∈ report.records, '\x1b' ∉ r.message.toList) :
    let read (reading : ReportReading) : Answer :=
      ((State.initial.run steps).2.step (.readReport index reading)).1
    ∃ colored uncolored lines : String,
      String.ofList (dropSequences false colored.toList) = uncolored ∧
      '\x1b' ∉ uncolored.toList ∧ '\x1b' ∉ lines.toList ∧
      (∀ color, read (.emit f { style := .rich, color } .ansi none) =
        .written (.complete colored)) ∧
      (∀ color, read (.emit f { style := .rich, color } .plain none) =
        .written (.complete uncolored)) ∧
      (∀ color medium, read (.emit f { style := .plain, color } medium none) =
        .written (.complete lines)) ∧
      (∀ color ≠ .never, read (.emitToStandardError f { style := .rich, color }) =
        .standardError colored) ∧
      read (.emitToStandardError f { style := .rich, color := .never }) =
        .standardError uncolored ∧
      ∀ color, read (.emitToStandardError f { style := .plain, color }) = .standardError lines := by
  intro read
  have hread (reading : ReportReading) : read reading = (reading.answer report).value :=
    State.step_readReport h reading
  have hcode : ∀ r ∈ report.records, Text.IsClean r.code := by
    intro r hr
    obtain ⟨kind, p, rfl⟩ := exists_ofKind_of_mem (List.mem_of_getElem? h) hr
    exact kind.isClean_code
  have hclean : Text.IsClean (textOf .plain (report.pieces f .rich)) := by
    have htexts := Block.isClean_texts hname hsource hcode hmessage
    rwa [← Report.join_chunks_rich] at htexts
  have hlines (medium : Medium) :
      String.join (report.chunks f .plain medium) = Record.lines report.records := by
    rw [Report.chunks_plain, Record.join_plainChunks]
  refine ⟨textOf .ansi (report.pieces f .rich), textOf .plain (report.pieces f .rich),
    Record.lines report.records, ?_, hclean, Record.isClean_lines hmessage, ?_, ?_, ?_, ?_, ?_, ?_⟩
  · rw [dropSequences_textOf hclean, String.ofList_toList]
  · exact fun color => hread _
  · exact fun color => hread _
  · intro color medium
    rw [hread, ← hlines medium]
    rfl
  · intro color hcolor
    cases color with
    | never => exact absurd rfl hcolor
    | always => exact hread _
    | alwaysAnsi => exact hread _
  · exact hread _
  · intro color
    rw [hread, ← hlines color.medium]
    rfl

/-- A text whose second line has a tab and a character of two columns. -/
def wideText : SourceFile := .ofText "input.asl" "a\n\té字\r\n"

/-- An error in a line that the text does not have, one behind the end of its second line, and one at
the wide character there. -/
def scattered : List Step :=
  [.append (.atNode .noMainProperlyDeclared (.position 9 1)),
    .append (.atNode .booleanRequired (.position 2 7)),
    .append (.atNode .undeclaredIdent (.token "字" 2 3)), .finish]

def scatteredRecords : List Record :=
  [.ofKind .noMainProperlyDeclared (.behind 8 0), .ofKind .booleanRequired (.behind 1 6),
    .ofKind (.undeclaredIdent "字") (.behind 1 2)]

theorem colors_do_not_change_text_of_scattered :
    let s := (State.initial.run scattered).2
    s.reports[0]? = some (.ofRecords scatteredRecords) ∧
      '\x1b' ∉ wideText.name.toList ∧ '\x1b' ∉ wideText.source.toList ∧
      (∀ r ∈ (Report.ofRecords scatteredRecords).records, '\x1b' ∉ r.message.toList) ∧
      ∃ colored uncolored : String,
        (s.step (.readReport 0 (.emit wideText { style := .rich } .ansi none))).1 =
          .written (.complete colored) ∧
        (s.step (.readReport 0 (.emit wideText { style := .rich } .plain none))).1 =
          .written (.complete uncolored) ∧
        String.ofList (dropSequences false colored.toList) = uncolored := by
  intro s
  have h : s.reports[0]? = some (.ofRecords scatteredRecords) := rfl
  have hname : '\x1b' ∉ wideText.name.toList := by decide
  have hsource : '\x1b' ∉ wideText.source.toList := by decide
  have hmessage : ∀ r ∈ (Report.ofRecords scatteredRecords).records,
      '\x1b' ∉ r.message.toList := by
    intro r hr
    have hall : ∀ r ∈ scatteredRecords, '\x1b' ∉ r.message.toList := by decide
    exact hall r ((Record.sort_perm scatteredRecords).mem_iff.1 hr)
  obtain ⟨colored, uncolored, -, hdrop, -, -, hansi, hplain, -⟩ :=
    colors_do_not_change_text h hname hsource hmessage
  exact ⟨h, hname, hsource, hmessage, colored, uncolored, hansi .never, hplain .never, hdrop⟩

end SemanticDiagnostics
