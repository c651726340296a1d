import SemanticDiagnostics.Proofs.Conservation

/-! # Where records come from

A sink takes records from operations only, and a report takes them from a sink. An operation makes its
record of a kind of error and of the coordinates of its anchor, which it has checked. So every record
of a session is of a kind and at a place, and if the anchor was over a part of a file, the file has the
place. -/
namespace SemanticDiagnostics
open Session

/-! ## The record of an operation -/

/-- Positions in a file are on a line that the file has, the place behind its last character included. -/
theorem SourceFile.exists_line_positionOf (f : SourceFile) (span : Span) :
    ∃ l, f.line? (f.positionOf span).line = some l ∧
      (f.positionOf span).column ≤ l.chars.length + 1 := by
  let l := f.lineAt span.lo
  refine ⟨l, f.getElem?_lineIndex span.lo, ?_⟩
  have hended : (Line.charEnds l.start l.chars).countP (· ≤ span.lo) ≤ l.chars.length :=
    Nat.le_trans List.countP_le_length (Nat.le_of_eq (Line.length_charEnds l.start l.chars))
  exact Nat.succ_le_succ hended

namespace Sink.Operation

/-- What the record of an operation has from the operation. -/
structure Gives (operation : Operation) (r : Record) : Prop where
  kind : ∃ kind, operation.finding = .ok (kind, r.position) ∧ r = .ofKind kind r.position
  node : ∃ node, operation.anchor.build = .ok node ∧
    node.line = r.position.line ∧ node.column = r.position.column
  line : ∀ file span, operation.anchor.IsOver file span →
    ∃ l, file.line? r.position.line = some l ∧ r.position.column ≤ l.chars.length + 1

theorem gives_of_record {operation : Operation} {r : Record} (h : operation.record = .ok r) :
    operation.Gives r := by
  obtain ⟨⟨kind, p⟩, hfinding, rfl⟩ := exists_of_map_eq_ok h
  obtain ⟨node, hnode, hposition⟩ := exists_of_finding hfinding
  obtain ⟨hline, hcolumn⟩ := Position.coordinates_of_ofCoordinates hposition
  refine ⟨⟨kind, hfinding, rfl⟩, ⟨node, hnode, hline, hcolumn⟩, ?_⟩
  intro file span hover
  rw [position_of_isOver hover h]
  exact file.exists_line_positionOf span

/-- An operation whose anchor has a zero coordinate has no record. -/
theorem exists_record_eq_error {operation : Operation} {node : Node}
    (h : operation.anchor.build = .ok node) (hzero : node.line = 0 ∨ node.column = 0) :
    ∃ f, operation.record = .error f := by
  cases hrecord : operation.record with
  | error f => exact ⟨f, rfl⟩
  | ok r =>
    obtain ⟨made, hmade, hline, hcolumn⟩ := (gives_of_record hrecord).node
    obtain rfl := Except.ok.inj (h.symm.trans hmade)
    have hone := r.position.one_le_line
    have hone' := r.position.one_le_column
    omega

end Sink.Operation

/-! ## The records of a session -/

namespace Session

/-- The records of the sink and of the reports. -/
def State.collected (s : State) : List Record := s.sink.records ++ s.reports.flatMap Report.records

theorem Step.exists_of_record? {x : Step} {r : Record} (h : x.record? = some r) :
    ∃ operation, x = .append operation ∧ operation.record = .ok r := by
  cases x with
  | append operation =>
    rw [record?_append] at h
    cases hrecord : operation.record with
    | error f =>
      rw [hrecord] at h
      cases h
    | ok made =>
      rw [hrecord] at h
      exact ⟨operation, rfl, hrecord.trans (congrArg Except.ok (Option.some.inj h))⟩
  | _ => cases h

/-- A step collects no record but its own. -/
theorem State.mem_collected_step {s : State} {x : Step} {r : Record}
    (h : r ∈ (s.step x).2.collected) : r ∈ s.collected ∨ x.record? = some r := by
  have hkept (hsink : r ∈ s.sink.records) : r ∈ s.collected := List.mem_append_left _ hsink
  rw [collected, sink_step, reports_step, List.flatMap_append] at h
  obtain hsink | hreport := List.mem_append.1 h
  · split at hsink
    · cases hsink
    · obtain hold | hnew := List.mem_append.1 hsink
      · exact .inl (hkept hold)
      · exact .inr (Option.mem_toList.1 hnew)
  · obtain hold | hnew := List.mem_append.1 hreport
    · exact .inl (List.mem_append_right _ hold)
    -- A new report holds what the sink held.
    · split at hnew
      · rw [List.flatMap_singleton] at hnew
        exact .inl (hkept ((Record.sort_perm s.sink.records).mem_iff.1 hnew))
      · cases hnew

/-- A session collects no records but those of its steps. -/
theorem State.mem_collected_run {s : State} {steps : List Step} {r : Record}
    (h : r ∈ (s.run steps).2.collected) : r ∈ s.collected ∨ ∃ x ∈ steps, x.record? = some r := by
  induction steps generalizing s with
  | nil => exact .inl h
  | cons x xs ih =>
    obtain hmem | ⟨y, hy, hr⟩ := ih h
    · obtain hmem | hr := mem_collected_step hmem
      · exact .inl hmem
      · exact .inr ⟨x, List.mem_cons_self, hr⟩
    · exact .inr ⟨y, List.mem_cons_of_mem x hy, hr⟩

/-- **Every collected record was found.** After every session, each record of the sink and of every
report is that of an operation of the session. It is made of a kind of error and a place: it has the
code of the kind, which is not empty, and the message of the kind, so no record with a message of the
caller's own is among them. The coordinates are at least one, and they are those of the anchor of every
operation that the record is of; if the anchor is over a span of a file, then the file has the line, and
the column is at most one past the last character of the line, terminators included. A node with a zero
coordinate leaves the session as it was. -/
theorem collected_records_were_found (steps : List Step) :
    let s := (State.initial.run steps).2
    (∀ r ∈ s.collected,
      (∃ operation, Step.append operation ∈ steps ∧ operation.record = .ok r) ∧
      (∃ kind p, r = .ofKind kind p ∧ r.code = kind.code ∧ r.message = kind.message ∧
        1 ≤ p.line ∧ 1 ≤ p.column) ∧
      r.code ≠ "" ∧ (∀ p message, r ≠ .ofMessage p message) ∧
      ∀ operation : Sink.Operation, operation.record = .ok r → operation.Gives r) ∧
    ∀ (t : State) (operation : Sink.Operation) (node : Node), operation.anchor.build = .ok node →
      node.line = 0 ∨ node.column = 0 →
      ∃ f, t.step (.append operation) = (.fault f, t) := by
  intro s
  constructor
  · intro r hr
    obtain hempty | ⟨x, hx, hadded⟩ := State.mem_collected_run hr
    · cases hempty
    obtain ⟨operation, rfl, hrecord⟩ := Step.exists_of_record? hadded
    obtain ⟨kind, -, hkind⟩ := (Sink.Operation.gives_of_record hrecord).kind
    have hcode : r.code = kind.code := congrArg Record.code hkind
    have hne : r.code ≠ "" := fun hempty => kind.code_ne_empty (hcode.symm.trans hempty)
    refine ⟨⟨operation, hx, hrecord⟩, ⟨kind, r.position, hkind, hcode, congrArg Record.message hkind,
      r.position.one_le_line, r.position.one_le_column⟩, hne, ?_,
      fun _ => Sink.Operation.gives_of_record⟩
    intro p message hmessage
    exact hne (congrArg Record.code hmessage)
  · intro t operation node hnode hzero
    obtain ⟨f, hf⟩ := Sink.Operation.exists_record_eq_error hnode hzero
    exact ⟨f, State.step_append_of_error hf⟩

end Session

end SemanticDiagnostics
