import SemanticDiagnostics.Proofs.Appending
import SemanticDiagnostics.Proofs.Reading
import SemanticDiagnostics.Proofs.Rendering

/-! # The order of the source

Errors come out by line and column. For errors that are reported at places in one text this is the
order of those places in the text: two offsets compare by position exactly as the starts of the
characters that hold them do. -/
namespace SemanticDiagnostics
open Session Output

/-! ## The start of the character at an offset -/

/-- Where the character starts that holds the byte at an offset; where the text ends, if the offset
is not in it. -/
def Text.floor : List Char → Nat → Nat
  | [], _ => 0
  | c :: cs, n => if n < c.utf8Size then 0 else c.utf8Size + floor cs (n - c.utf8Size)

theorem Text.floor_eq (cs : List Char) (n : Nat) : floor cs n = byteLength (passed cs n) := by
  induction cs generalizing n with
  | nil => rfl
  | cons c cs ih =>
    by_cases h : c.utf8Size ≤ n
    · rw [floor, if_neg (by omega), passed, if_pos h, ih, byteLength_cons]
    · rw [floor, if_pos (by omega), passed, if_neg h, byteLength_nil]

def SourceFile.floor (f : SourceFile) (offset : Nat) : Nat := Text.floor f.source.toList offset

/-- Two offsets lie in one character of the text or both behind its end. -/
def SourceFile.Together (f : SourceFile) (m n : Nat) : Prop :=
  (∃ as c bs, f.source.toList = as ++ c :: bs ∧
    (Text.byteLength as ≤ m ∧ m < Text.byteLength as + c.utf8Size) ∧
    (Text.byteLength as ≤ n ∧ n < Text.byteLength as + c.utf8Size)) ∨
  (Text.byteLength f.source.toList ≤ m ∧ Text.byteLength f.source.toList ≤ n)

namespace SourceFile

theorem floor_of_inside {f : SourceFile} {as : List Char} {c : Char} {bs : List Char} {n : Nat}
    (hsource : f.source.toList = as ++ c :: bs) (h : Text.byteLength as ≤ n)
    (h' : n < Text.byteLength as + c.utf8Size) : f.floor n = Text.byteLength as := by
  rw [floor, Text.floor_eq, hsource, Text.passed_append h h']

theorem floor_of_le {f : SourceFile} {n : Nat} (h : Text.byteLength f.source.toList ≤ n) :
    f.floor n = Text.byteLength f.source.toList := by
  rw [floor, Text.floor_eq, Text.passed_of_le h]

theorem floor_lt_of_inside {f : SourceFile} {as : List Char} {c : Char} {bs : List Char} {n : Nat}
    (hsource : f.source.toList = as ++ c :: bs) (h : Text.byteLength as ≤ n)
    (h' : n < Text.byteLength as + c.utf8Size) :
    f.floor n < Text.byteLength f.source.toList := by
  have hc := c.utf8Size_pos
  rw [floor_of_inside hsource h h', hsource, Text.byteLength_append, Text.byteLength_cons]
  omega

theorem floor_eq_iff_together (f : SourceFile) (m n : Nat) :
    f.floor m = f.floor n ↔ f.Together m n := by
  constructor
  · intro h
    rcases Text.le_or_inside f.source.toList m with hm | ⟨as, c, bs, hcs, hm, hm'⟩ <;>
      rcases Text.le_or_inside f.source.toList n with hn | ⟨ds, d, es, hds, hn, hn'⟩
    · exact .inr ⟨hm, hn⟩
    · have hlt := floor_lt_of_inside hds hn hn'
      rw [floor_of_le hm] at h
      omega
    · have hlt := floor_lt_of_inside hcs hm hm'
      rw [floor_of_le hn] at h
      omega
    · rw [floor_of_inside hcs hm hm', floor_of_inside hds hn hn'] at h
      have hd := d.utf8Size_pos
      obtain ⟨rfl, rfl, rfl⟩ := Text.append_cons_inj (hcs.symm.trans hds) (by omega) (by omega)
      exact .inl ⟨as, c, bs, hcs, ⟨hm, hm'⟩, hn, hn'⟩
  · intro h
    rcases h with ⟨as, c, bs, hcs, ⟨hm, hm'⟩, hn, hn'⟩ | ⟨hm, hn⟩
    · rw [floor_of_inside hcs hm hm', floor_of_inside hcs hn hn']
    · rw [floor_of_le hm, floor_of_le hn]

end SourceFile

/-! ## Reading goes forward -/

namespace Position

theorem le_advance (p : Position) (c : Char) : p.le (p.advance c) = true := by
  rw [le_iff, advance]
  split
  · exact .inl (Nat.lt_succ_self _)
  · exact .inr ⟨rfl, Nat.le_succ _⟩

theorem le_after (p : Position) (cs : List Char) : p.le (p.after cs) = true := by
  induction cs generalizing p with
  | nil => exact le_refl p
  | cons c cs ih => exact le_trans (le_advance p c) (ih (p.advance c))

theorem advance_not_le (p : Position) (c : Char) : (p.advance c).le p = false := by
  rw [Bool.eq_false_iff, ne_eq, le_iff, advance]
  split
  · simp only [lineStart, behind]
    omega
  · simp only [true_and]
    omega

theorem after_not_le (p : Position) {cs : List Char} (h : cs ≠ []) : (p.after cs).le p = false := by
  obtain ⟨c, rest, rfl⟩ := List.exists_cons_of_ne_nil h
  rw [Bool.eq_false_iff]
  intro hle
  have hback := le_trans (le_after (p.advance c) rest) hle
  rw [advance_not_le] at hback
  cases hback

end Position

/-- Offsets compare by position as the starts of their characters do. -/
theorem SourceFile.positionAt_le_iff (f : SourceFile) (m n : Nat) :
    (f.positionAt m).le (f.positionAt n) = true ↔ f.floor m ≤ f.floor n := by
  rw [f.positionAt_eq_after, f.positionAt_eq_after, floor, floor, Text.floor_eq, Text.floor_eq]
  rcases List.prefix_or_prefix_of_prefix (Text.passed_isPrefix f.source.toList m)
    (Text.passed_isPrefix f.source.toList n) with ⟨rest, hrest⟩ | ⟨rest, hrest⟩
  · rw [← hrest, Position.after_append, Text.byteLength_append]
    exact iff_of_true (Position.le_after ..) (Nat.le_add_right ..)
  · rw [← hrest, Position.after_append, Text.byteLength_append]
    cases rest with
    | nil => exact iff_of_true (Position.le_refl _) (Nat.le_refl _)
    | cons c rest =>
      have hc := c.utf8Size_pos
      rw [Position.after_not_le _ (List.cons_ne_nil c rest), Text.byteLength_cons]
      exact iff_of_false Bool.false_ne_true (by omega)

theorem SourceFile.positionAt_eq_iff (f : SourceFile) (m n : Nat) :
    f.positionAt m = f.positionAt n ↔ f.Together m n := by
  rw [← floor_eq_iff_together]
  constructor
  · intro h
    refine Nat.le_antisymm ((f.positionAt_le_iff m n).1 ?_) ((f.positionAt_le_iff n m).1 ?_)
    · rw [h]
      exact Position.le_refl _
    · rw [h]
      exact Position.le_refl _
  · intro h
    refine Position.le_antisymm ((f.positionAt_le_iff m n).2 ?_) ((f.positionAt_le_iff n m).2 ?_)
    · exact Nat.le_of_eq h
    · exact Nat.le_of_eq h.symm

/-! ## The order in which errors come out -/

/-- The records of operations that are reported over spans of a file, each with the offset at which
the character starts that its span starts in. -/
def SourceFile.reported (f : SourceFile) (placed : List (Sink.Operation × Span)) :
    List (Record × Nat) :=
  placed.filterMap fun x => x.1.record.toOption.map fun r => (r, f.floor x.2.lo)

/-- Records in the stable order of the offsets beside them. -/
def Record.byOffset (rs : List (Record × Nat)) : List Record :=
  (rs.mergeSort fun a b => a.2 ≤ b.2).map Prod.fst

theorem SourceFile.exists_of_mem_reported {f : SourceFile}
    {placed : List (Sink.Operation × Span)} (h : ∀ x ∈ placed, x.1.anchor.IsOver f x.2)
    {x : Record × Nat} (hx : x ∈ f.reported placed) :
    ∃ offset, x.1.position = f.positionAt offset ∧ x.2 = f.floor offset := by
  obtain ⟨y, hy, hr⟩ := List.mem_filterMap.1 hx
  cases hrecord : y.1.record with
  | error fault => simp [hrecord, Except.toOption] at hr
  | ok r =>
    simp only [hrecord, Except.toOption, Option.map_some, Option.some.injEq] at hr
    obtain rfl := hr
    exact ⟨y.2.lo, Sink.Operation.position_of_isOver (h y hy) hrecord, rfl⟩

/-- Sorting by position is sorting by place in the text. -/
theorem SourceFile.sort_reported {f : SourceFile} {placed : List (Sink.Operation × Span)}
    (h : ∀ x ∈ placed, x.1.anchor.IsOver f x.2) :
    Record.sort ((f.reported placed).map Prod.fst) = Record.byOffset (f.reported placed) := by
  refine (List.map_mergeSort fun a ha b hb => ?_).symm
  obtain ⟨m, hm, hm'⟩ := exists_of_mem_reported h ha
  obtain ⟨n, hn, hn'⟩ := exists_of_mem_reported h hb
  rw [Bool.eq_iff_iff, decide_eq_true_iff, Record.le, hm, hn, hm', hn', positionAt_le_iff]

theorem SourceFile.records_reported (f : SourceFile) (placed : List (Sink.Operation × Span)) :
    (State.initial.run (placed.map fun x => .append x.1)).2.sink.records =
      (f.reported placed).map Prod.fst := by
  have hsteps : (placed.map fun x => Step.append x.1) = (placed.map Prod.fst).map .append := by
    rw [List.map_map]
    rfl
  have hrecord (x : Sink.Operation × Span) :
      (x.1.record.toOption.map fun r => (r, f.floor x.2.lo)).map Prod.fst =
        x.1.record.toOption := by
    cases x.1.record <;> rfl
  rw [hsteps, State.sink_run_append, reported, List.map_filterMap, List.filterMap_map]
  simp only [hrecord]
  rfl

/-- **Errors come out in the order of the source.** Operations are reported over spans of a file, in
any order. The sorted sink, the finished report, plain output and rich output all list the records
in the stable order of the offsets at which the characters start that the spans start in. Comparing
positions is comparing these offsets, and spans tie exactly if they start in one character or both
behind the end of the text. No operation fails but one that names a call of which no node can be
made. -/
theorem output_follows_source {f : SourceFile} {placed : List (Sink.Operation × Span)}
    (h : ∀ x ∈ placed, x.1.anchor.IsOver f x.2) :
    let sink := (State.initial.run (placed.map fun x => .append x.1)).2.sink
    let report := sink.finish.value
    let inOrder := Record.byOffset (f.reported placed)
    sink.records = (f.reported placed).map Prod.fst ∧
    sink.sorted = inOrder ∧
    report.records = inOrder ∧
    sink.write none = .complete (Record.lines inOrder) ∧
    report.write none = .complete (Record.lines inOrder) ∧
    (∀ (file : SourceFile) (color : ColorChoice) (medium : Medium),
      (report.emit file { style := .plain, color } medium none).value =
          .complete (Record.lines inOrder) ∧
        (report.emit file { style := .rich, color } medium none).value =
          .complete (Block.texts medium file inOrder)) ∧
    (∀ m n, (f.positionAt m).le (f.positionAt n) = true ↔ f.floor m ≤ f.floor n) ∧
    (∀ s t : Span, f.positionOf s = f.positionOf t ↔ f.Together s.lo t.lo) ∧
    (∀ x ∈ placed, (∀ call ∈ x.1.call?, ∃ node, call.build = .ok node) →
      ∃ r, x.1.record = .ok r ∧ (r, f.floor x.2.lo) ∈ f.reported placed) := by
  intro sink report inOrder
  have hrecords : sink.records = (f.reported placed).map Prod.fst := f.records_reported placed
  have hsorted : sink.sorted = inOrder := by
    rw [Sink.sorted, hrecords, SourceFile.sort_reported h]
  have hreport : report.records = inOrder := hsorted
  have hwrite (rs : List Record) :
      Output.write none (Record.plainChunks rs) = .complete (Record.lines rs) := by
    rw [Output.write, Record.join_plainChunks]
  refine ⟨hrecords, hsorted, hreport, ?_, ?_, ?_, f.positionAt_le_iff, ?_, ?_⟩
  · rw [Sink.write, hsorted, hwrite]
  · rw [Report.write, hreport, hwrite]
  · intro file color medium
    rw [report.emit_plain, report.emit_rich, hreport]
    exact ⟨rfl, rfl⟩
  · intro s t
    exact f.positionAt_eq_iff s.lo t.lo
  · intro x hx hcall
    obtain ⟨r, hr⟩ := Sink.Operation.exists_record_of_isOver (h x hx) hcall
    refine ⟨r, hr, List.mem_filterMap.2 ⟨x, hx, ?_⟩⟩
    rw [hr]
    rfl

/-- A text of two lines, the first of one character of two bytes. -/
def twoLines : SourceFile := .ofText "input.asl" "é\nx"

/-- An error behind the end of the text, found before one inside its first character. -/
def twoReports : List (Sink.Operation × Span) :=
  [(.atNode .booleanRequired (.span twoLines 9 12), ⟨9, 12, by decide⟩),
    (.atNode .incompatibleReturn (.forwarded (.span twoLines 1 2)), ⟨1, 2, by decide⟩)]

theorem output_follows_source_of_two :
    (∀ x ∈ twoReports, x.1.anchor.IsOver twoLines x.2) ∧
      (State.initial.run (twoReports.map fun x => .append x.1)).2.sink.sorted =
        [.ofKind .incompatibleReturn (.behind 0 0), .ofKind .booleanRequired (.behind 1 1)] := by
  have h : ∀ x ∈ twoReports, x.1.anchor.IsOver twoLines x.2 := by
    refine List.forall_mem_cons.2 ⟨.span, List.forall_mem_cons.2 ⟨.forwarded .span, ?_⟩⟩
    exact fun x hx => nomatch hx
  have hlate : twoLines.positionAt 9 = .behind 1 1 := by
    rw [SourceFile.positionAt_eq_after]
    rfl
  have hearly : twoLines.positionAt 1 = .behind 0 0 := by
    rw [SourceFile.positionAt_eq_after]
    rfl
  have hlateRecord : (Sink.Operation.atNode .booleanRequired (.span twoLines 9 12)).record =
      .ok (.ofKind .booleanRequired (twoLines.positionAt 9)) :=
    Sink.Operation.record_atNode_of_isOver (h _ List.mem_cons_self)
  have hearlyRecord :
      (Sink.Operation.atNode .incompatibleReturn (.forwarded (.span twoLines 1 2))).record =
        .ok (.ofKind .incompatibleReturn (twoLines.positionAt 1)) :=
    Sink.Operation.record_atNode_of_isOver (h _ (List.mem_cons_of_mem _ List.mem_cons_self))
  have hreported : twoLines.reported twoReports =
      [(.ofKind .booleanRequired (twoLines.positionAt 9), 4),
        (.ofKind .incompatibleReturn (twoLines.positionAt 1), 0)] := by
    simp only [SourceFile.reported, twoReports, List.filterMap_cons, hlateRecord, hearlyRecord]
    rfl
  refine ⟨h, (output_follows_source h).2.1.trans ?_⟩
  rw [hreported, hlate, hearly]
  simp [Record.byOffset, List.mergeSort]

end SemanticDiagnostics
