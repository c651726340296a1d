import Mathlib.Data.List.Basic
import SemanticDiagnostics.Proofs.History
import SemanticDiagnostics.Proofs.Reading
import SemanticDiagnostics.Proofs.Rendering

/-! # Reading plain output back

A line of plain output is a line number, a point, a column, a colon, a blank and a message. A reader
who knows no more than this gets the records of a report back from its plain output, unless a message
has a line feed in it: then there are more lines than records. -/
namespace SemanticDiagnostics
open Session Output

/-! ## The reader -/

/-- The lines of a text without the line feeds that end them. What follows the last line feed is a
line if it is not empty. -/
def Line.bodies (cs : List Char) : List (List Char) :=
  ((split cs).filter (· ≠ [])).map fun l => l.takeWhile (· ≠ '\n')

/-- What a line of plain output says. -/
structure Entry where
  line : Nat
  column : Nat
  message : String
  deriving DecidableEq, Repr

namespace Entry

/-- The number at the front of a text, and what follows its digits. -/
def readNumber? (cs : List Char) : Option (Nat × List Char) :=
  match cs.takeWhile Char.isDigit with
  | [] => none
  | digits => some (Nat.ofDigitChars 10 digits 0, cs.dropWhile Char.isDigit)

def ofLine? (cs : List Char) : Option Entry := do
  let (line, cs) ← readNumber? cs
  let cs ← ['.'].isPrefixOf? cs
  let (column, cs) ← readNumber? cs
  let cs ← [':', ' '].isPrefixOf? cs
  return { line, column, message := String.ofList cs }

/-- Reads a text line by line. -/
def ofText (text : String) : List (Option Entry) := (Line.bodies text.toList).map ofLine?

end Entry

def Record.entry (r : Record) : Entry :=
  { line := r.position.line, column := r.position.column, message := r.message }

/-! ## One line -/

theorem isPrefixOf?_append (as bs : List Char) : as.isPrefixOf? (as ++ bs) = some bs :=
  List.isPrefixOf?_eq_some_iff_append_eq.2 rfl

theorem Record.toList_render (r : Record) : r.render.toList =
    (toString r.position.line).toList ++
      (['.'] ++ ((toString r.position.column).toList ++ ([':', ' '] ++ r.message.toList))) := by
  simp [render, Position.render]

namespace Entry

/-- A number is read off if what follows is no digit. -/
theorem readNumber?_toString {n : Nat} {cs : List Char} (h : ∀ c ∈ cs.head?, c.isDigit = false) :
    readNumber? ((toString n).toList ++ cs) = some (n, cs) := by
  have hdigits : (toString n).toList = Nat.toDigits 10 n := by
    rw [Nat.toString_eq_repr, Nat.toList_repr]
  have htake := takeWhile_isDigit_toString n h
  rw [hdigits] at htake
  have hdrop : (Nat.toDigits 10 n ++ cs).dropWhile Char.isDigit = cs := by
    have hsplit := List.takeWhile_append_dropWhile (p := Char.isDigit) (l := Nat.toDigits 10 n ++ cs)
    rw [htake] at hsplit
    exact List.append_cancel_left hsplit
  unfold readNumber?
  rw [hdigits, htake, hdrop]
  split
  · exact absurd ‹_› Nat.toDigits_ne_nil
  · rw [Nat.ofDigitChars_ten_toDigits]

/-- A message is read back whatever it looks like, for it is all that follows the first blank. -/
theorem ofLine?_render (r : Record) : ofLine? r.render.toList = some r.entry := by
  have hpoint (cs : List Char) : ∀ c ∈ (['.'] ++ cs).head?, c.isDigit = false :=
    head_not_isDigit rfl cs
  have hcolon (cs : List Char) : ∀ c ∈ ([':', ' '] ++ cs).head?, c.isDigit = false :=
    head_not_isDigit rfl (' ' :: cs)
  simp only [ofLine?, r.toList_render, readNumber?_toString (hpoint _),
    readNumber?_toString (hcolon _), isPrefixOf?_append, Option.bind_eq_bind, Option.bind_some,
    String.ofList_toList]
  rfl

/-- A message may look like a line of its own. -/
example : ofLine? "3.14: 1.5: 2.6".toList = some ⟨3, 14, "1.5: 2.6"⟩ := by decide

end Entry

/-! ## All lines -/

namespace Line

theorem bodies_append {body : List Char} (h : '\n' ∉ body) (rest : List Char) :
    bodies (body ++ '\n' :: rest) = body :: bodies rest := by
  have hbody : (body ++ ['\n']).takeWhile (· ≠ '\n') = body := by
    rw [List.takeWhile_append_of_pos]
    · simp
    · intro c hc
      exact decide_eq_true fun heq => h (heq ▸ hc)
  unfold bodies
  rw [split_append h, List.filter_cons_of_pos (by simp), List.map_cons, hbody]

theorem count_le_length_bodies (cs : List Char) : cs.count '\n' ≤ (bodies cs).length := by
  induction cs using linewise with
  | last cs hcs =>
    rw [List.count_eq_zero_of_not_mem hcs]
    exact Nat.zero_le _
  | more body rest hbody ih =>
    rw [bodies_append hbody, List.count_append, List.count_eq_zero_of_not_mem hbody,
      List.count_cons_self, List.length_cons]
    omega

end Line

namespace Record

theorem toList_lines_cons (r : Record) (rs : List Record) :
    (lines (r :: rs)).toList = r.render.toList ++ '\n' :: (lines rs).toList := by
  simp [lines]

theorem feed_not_mem_toString (n : Nat) : '\n' ∉ (toString n).toList := by
  rw [Nat.toString_eq_repr, Nat.toList_repr]
  intro h
  exact absurd (Nat.isDigit_of_mem_toDigits (by decide) (by decide) h) (by decide)

/-- A line has the line feeds of its message. -/
theorem count_feed_render (r : Record) :
    r.render.toList.count '\n' = r.message.toList.count '\n' := by
  have hline := List.count_eq_zero_of_not_mem (feed_not_mem_toString r.position.line)
  have hcolumn := List.count_eq_zero_of_not_mem (feed_not_mem_toString r.position.column)
  have hpoint : ['.'].count '\n' = 0 := by decide
  have hcolon : [':', ' '].count '\n' = 0 := by decide
  simp only [toList_render, List.count_append, hline, hpoint, hcolumn, hcolon, Nat.zero_add]

theorem count_feed_lines (rs : List Record) :
    (lines rs).toList.count '\n' =
      rs.length + (rs.flatMap fun r => r.message.toList).count '\n' := by
  induction rs with
  | nil => rfl
  | cons r rs ih =>
    rw [toList_lines_cons, List.count_append, List.count_cons_self, ih, count_feed_render,
      List.flatMap_cons, List.count_append, List.length_cons]
    omega

end Record

/-- The records come back from their lines exactly if no message has a line feed in it. -/
theorem Entry.ofText_lines_iff (rs : List Record) :
    ofText (Record.lines rs) = rs.map (fun r => some r.entry) ↔
      ∀ r ∈ rs, '\n' ∉ r.message.toList := by
  constructor
  · intro h
    have hlength := congrArg List.length h
    have hcount := Line.count_le_length_bodies (Record.lines rs).toList
    rw [ofText, List.length_map, List.length_map] at hlength
    rw [Record.count_feed_lines, hlength] at hcount
    intro r hr hfeed
    have hmem : '\n' ∈ rs.flatMap fun r => r.message.toList := List.mem_flatMap.2 ⟨r, hr, hfeed⟩
    have hpos := List.count_pos_iff.2 hmem
    omega
  · intro h
    induction rs with
    | nil => rfl
    | cons r rs ih =>
      have hrender : '\n' ∉ r.render.toList := by
        have hmessage := h r List.mem_cons_self
        rw [← List.count_eq_zero] at hmessage ⊢
        rw [Record.count_feed_render, hmessage]
      have hrest := ih fun x hx => h x (List.mem_cons_of_mem r hx)
      unfold ofText at hrest ⊢
      rw [Record.toList_lines_cons, Line.bodies_append hrender, List.map_cons, ofLine?_render, hrest]
      rfl

/-! ## Payloads -/

namespace Kind

/-- The texts among the data of the kind. -/
def texts (k : Kind) : List String :=
  k.payload.filterMap fun d =>
    match d.2 with
    | .text s => some s
    | .number _ => none

theorem feed_not_mem_wording : ∀ k ∈ all, '\n' ∉ k.opening.toList ∧ '\n' ∉ k.middle.toList ∧
    '\n' ∉ k.closing.toList := by
  decide +kernel

theorem feed_not_mem_number (k : Kind) : '\n' ∉ k.number.toList := by
  cases k with
  | incompatibleParameter index | referenceableParameter index => exact Record.feed_not_mem_toString index
  | _ => exact List.not_mem_nil

theorem exists_texts_iff_subject {k : Kind} {c : Char} :
    (∃ s ∈ k.texts, c ∈ s.toList) ↔ c ∈ k.subject.toList := by
  cases k <;> simp [texts, payload, subject]

/-- A message has a line feed in it exactly if a text among the data has one. -/
theorem feed_mem_message_iff (k : Kind) :
    '\n' ∈ k.message.toList ↔ ∃ s ∈ k.texts, '\n' ∈ s.toList := by
  obtain ⟨hopening, hmiddle, hclosing⟩ := feed_not_mem_wording k.bare k.bare_mem_all
  rw [opening_bare] at hopening
  rw [middle_bare] at hmiddle
  rw [closing_bare] at hclosing
  rw [exists_texts_iff_subject, toList_message]
  simp only [List.mem_append, hopening, k.feed_not_mem_number, hmiddle, hclosing, false_or, or_false]

end Kind

/-! ## Reports -/

namespace Session

/-- No text that was reported has a line feed in it. -/
def OneLine (found : List (Kind × Position)) : Prop := ∀ x ∈ found, ∀ s ∈ x.1.texts, '\n' ∉ s.toList

theorem oneLine_findings_iff {operations : List Sink.Operation} :
    OneLine (findings operations) ↔ ∀ r ∈ (reportOf operations).records, '\n' ∉ r.message.toList := by
  constructor
  · intro h r hr
    obtain ⟨x, hx, rfl⟩ := mem_reportOf_iff.1 hr
    intro hfeed
    obtain ⟨s, hs, hfeed⟩ := x.1.feed_mem_message_iff.1 hfeed
    exact h x hx s hs hfeed
  · intro h x hx s hs hfeed
    exact h _ (mem_reportOf_iff.2 ⟨x, hx, rfl⟩) (x.1.feed_mem_message_iff.2 ⟨s, hs, hfeed⟩)

/-- What a line says of an error is all there is to say, the code included. -/
theorem entry_ofKind_injective :
    Function.Injective fun x : Kind × Position => (Record.ofKind x.1 x.2).entry := by
  intro x y h
  obtain ⟨hline, hcolumn, hmessage⟩ := Entry.mk.inj h
  exact Prod.ext (Kind.message_injective hmessage) (Position.ext hline hcolumn)

theorem reportOf_eq_of_entries_eq {xs ys : List Sink.Operation}
    (h : (reportOf xs).records.map (fun r => some r.entry) =
      (reportOf ys).records.map fun r => some r.entry) : reportOf xs = reportOf ys := by
  rw [records_reportOf, records_reportOf, List.map_map, List.map_map] at h
  have hfound := (List.map_inj_right ?_).1 h
  · apply Report.ext
    rw [records_reportOf, records_reportOf, hfound]
  · intro x y hxy
    exact entry_ofKind_injective (Option.some.inj hxy)

/-- **Plain output can be read back.** What is written of a report that a sink was finished into is a
text whose lines say the line, column and message of each record in order, exactly if no message has
a line feed in it, that is, if no text that was reported has one. Two such reports are written alike
only if they are the same report, error codes included. The reports of all sessions are meant, for
each is made of some operations. -/
theorem plain_output_reads_back (operations others : List Sink.Operation) :
    let report := reportOf operations
    (∃ text, report.write none = .complete text ∧
      (Entry.ofText text = report.records.map (fun r => some r.entry) ↔
        ∀ r ∈ report.records, '\n' ∉ r.message.toList)) ∧
    ((∀ r ∈ report.records, '\n' ∉ r.message.toList) ↔ OneLine (findings operations)) ∧
    (OneLine (findings operations) → OneLine (findings others) →
      (report.write none = (reportOf others).write none ↔ report = reportOf others)) ∧
    ∀ r : Report, (∃ steps, r ∈ (State.initial.run steps).2.reports) ↔
      ∃ operations, r = reportOf operations := by
  intro report
  have hwrite (r : Report) : r.write none = .complete (Record.lines r.records) := by
    rw [Report.write, Output.write, Record.join_plainChunks]
  refine ⟨⟨_, hwrite report, Entry.ofText_lines_iff report.records⟩, oneLine_findings_iff.symm, ?_,
    fun r => exists_mem_reports_iff⟩
  intro hone hother
  constructor
  · intro h
    rw [hwrite, hwrite, Written.complete.injEq] at h
    have hreport := (Entry.ofText_lines_iff _).2 (oneLine_findings_iff.1 hone)
    have hothers := (Entry.ofText_lines_iff _).2 (oneLine_findings_iff.1 hother)
    rw [h, hothers] at hreport
    exact reportOf_eq_of_entries_eq hreport.symm
  · intro h
    rw [h]

end Session
end SemanticDiagnostics
