import SemanticDiagnostics.Proofs.Appending

/-! # When reporting fails

An operation makes its nodes, the anchor before the call, and then takes the position of its anchor.
Positions, tokens and spans are checked while the nodes are made; a bare node is only checked when
its position is taken, and the position of a call never is. An operation that fails has done
nothing, and every other one adds one record and one event. -/
namespace SemanticDiagnostics
open Session

theorem map_eq_error_iff {ε α β : Type} {x : Except ε α} {f : α → β} {e : ε} :
    x.map f = .error e ↔ x = .error e := by
  cases x <;> simp [Except.map]

theorem bind_eq_error_iff {ε α β : Type} {x : Except ε α} {f : α → Except ε β} {e : ε} :
    x.bind f = .error e ↔ x = .error e ∨ ∃ a, x = .ok a ∧ f a = .error e := by
  cases x <;> simp [Except.bind]

/-! ## Nodes that cannot be made, and nodes that start nowhere -/

namespace Node.Shape

/-- No node can be made of the shape, for the given reason. -/
inductive Rejected : Shape → Fault → Prop
  | position {line column : Nat} (h : line = 0 ∨ column = 0) :
      Rejected (.position line column) .coordinateBelowOne
  | token {text : String} {line column : Nat} (h : line = 0 ∨ column = 0) :
      Rejected (.token text line column) .coordinateBelowOne
  | span {file : SourceFile} {lo hi : Nat} (h : hi < lo) :
      Rejected (.span file lo hi) .reversedSpan
  | forwarded {inner : Shape} {f : Fault} (h : Rejected inner f) : Rejected (.forwarded inner) f

/-- The shape hands over a bare node with these coordinates, directly or through other nodes. -/
inductive IsBare (line column : Nat) : Shape → Prop
  | bare {text : String} : IsBare line column (.bare text line column)
  | forwarded {inner : Shape} (h : IsBare line column inner) : IsBare line column (.forwarded inner)

/-- The shape hands over a bare node that starts nowhere. -/
def Unplaced (shape : Shape) : Prop :=
  ∃ line column, shape.IsBare line column ∧ (line = 0 ∨ column = 0)

theorem build_eq_error_iff {shape : Shape} {f : Fault} :
    shape.build = .error f ↔ shape.Rejected f := by
  induction shape with
  | position line column =>
    rw [build, map_eq_error_iff, Position.ofCoordinates_eq_error_iff]
    constructor
    · rintro ⟨rfl, h⟩
      exact .position h
    · intro h
      cases h with
      | position h => exact ⟨rfl, h⟩
  | token text line column =>
    rw [build, map_eq_error_iff, Token.ofCoordinates, map_eq_error_iff,
      Position.ofCoordinates_eq_error_iff]
    constructor
    · rintro ⟨rfl, h⟩
      exact .token h
    · intro h
      cases h with
      | token h => exact ⟨rfl, h⟩
  | bare text line column =>
    rw [build]
    constructor
    · intro h
      cases h
    · intro h
      cases h
  | span file lo hi =>
    rw [build, map_eq_error_iff]
    constructor
    · intro h
      by_cases hle : lo ≤ hi
      · rw [Span.ofBounds_of_le hle] at h
        cases h
      · rw [Span.ofBounds_of_lt (Nat.not_le.1 hle)] at h
        cases h
        exact .span (Nat.not_le.1 hle)
    · intro h
      cases h with
      | span h => exact Span.ofBounds_of_lt h
  | forwarded inner ih =>
    rw [build, map_eq_error_iff, ih]
    constructor
    · exact .forwarded
    · intro h
      cases h with
      | forwarded h => exact h

theorem exists_build_iff {shape : Shape} :
    (∃ node, shape.build = .ok node) ↔ ∀ f, ¬ shape.Rejected f := by
  simp only [← build_eq_error_iff]
  cases shape.build <;> simp

/-- A bare node can always be made. -/
theorem IsBare.exists_build {shape : Shape} {line column : Nat} (h : shape.IsBare line column) :
    ∃ node, shape.build = .ok node := by
  induction h with
  | bare => exact ⟨_, rfl⟩
  | forwarded _ ih =>
    obtain ⟨node, hbuild⟩ := ih
    refine ⟨node, ?_⟩
    rw [build, hbuild]
    rfl

theorem IsBare.not_rejected {shape : Shape} {line column : Nat} (h : shape.IsBare line column)
    (f : Fault) : ¬ shape.Rejected f :=
  exists_build_iff.1 h.exists_build f

theorem unplaced_forwarded_iff {inner : Shape} : (forwarded inner).Unplaced ↔ inner.Unplaced := by
  constructor
  · rintro ⟨line, column, hbare, hzero⟩
    cases hbare with
    | forwarded hbare => exact ⟨line, column, hbare, hzero⟩
  · rintro ⟨line, column, hbare, hzero⟩
    exact ⟨line, column, .forwarded hbare, hzero⟩

/-- Of the nodes that can be made, only bare ones can start nowhere. -/
theorem position_eq_error_iff {shape : Shape} {node : Node} {f : Fault}
    (h : shape.build = .ok node) :
    node.position = .error f ↔ f = .coordinateBelowOne ∧ shape.Unplaced := by
  induction shape generalizing node with
  | position line column =>
    obtain ⟨p, -, rfl⟩ := exists_of_map_eq_ok h
    rw [position_ofPosition]
    refine iff_of_false (by simp) ?_
    rintro ⟨-, _, _, hbare, -⟩
    cases hbare
  | token text line column =>
    obtain ⟨t, -, rfl⟩ := exists_of_map_eq_ok h
    rw [position_ofToken]
    refine iff_of_false (by simp) ?_
    rintro ⟨-, _, _, hbare, -⟩
    cases hbare
  | bare text line column =>
    obtain rfl := Except.ok.inj h
    rw [Node.position, Position.ofCoordinates_eq_error_iff, and_congr_right_iff]
    intro _
    constructor
    · intro hzero
      exact ⟨line, column, .bare, hzero⟩
    · rintro ⟨_, _, hbare, hzero⟩
      cases hbare with
      | bare => exact hzero
  | span file lo hi =>
    obtain ⟨span, -, rfl⟩ := exists_of_map_eq_ok h
    rw [position_ofSpan]
    refine iff_of_false (by simp) ?_
    rintro ⟨-, _, _, hbare, -⟩
    cases hbare
  | forwarded inner ih =>
    obtain ⟨node, hinner, rfl⟩ := exists_of_map_eq_ok h
    rw [forward_eq, ih hinner, unplaced_forwarded_iff]

end Node.Shape

/-! ## Operations -/

namespace Sink.Operation

/-- The operation fails for the first reason that there is: its anchor cannot be made, the node of
its call cannot be made, or its anchor starts nowhere. -/
inductive Fails (operation : Operation) : Fault → Prop
  | anchor {f : Fault} (h : operation.anchor.Rejected f) : Fails operation f
  | call {call : Node.Shape} {f : Fault} (hanchor : ∀ g, ¬ operation.anchor.Rejected g)
      (hcall : call ∈ operation.call?) (h : call.Rejected f) : Fails operation f
  | place (hcall : ∀ call ∈ operation.call?, ∀ g, ¬ call.Rejected g)
      (h : operation.anchor.Unplaced) : Fails operation .coordinateBelowOne

theorem record_eq_error_iff_finding {operation : Operation} {f : Fault} :
    operation.record = .error f ↔
      operation.anchor.build = .error f ∨ ∃ node, operation.anchor.build = .ok node ∧
        ((∃ call ∈ operation.call?, call.build = .error f) ∨
          (∀ call ∈ operation.call?, ∃ callee, call.build = .ok callee) ∧
            node.position = .error f) := by
  cases operation with
  | atNode operation shape =>
    simp only [record, finding, map_eq_error_iff, bind_eq_error_iff, anchor, call?, Option.mem_def,
      reduceCtorEq, false_and, exists_false, false_or, false_imp_iff, implies_true, true_and]
  | atArgument operation shape index call =>
    simp only [record, finding, map_eq_error_iff, bind_eq_error_iff, anchor, call?, Option.mem_def,
      Option.some.injEq, exists_eq_left', forall_eq', exists_and_right]

theorem record_eq_error_iff {operation : Operation} {f : Fault} :
    operation.record = .error f ↔ operation.Fails f := by
  rw [record_eq_error_iff_finding]
  constructor
  · intro h
    rcases h with h | ⟨node, hnode, ⟨call, hcall, h⟩ | ⟨hcall, h⟩⟩
    · exact .anchor (Node.Shape.build_eq_error_iff.1 h)
    · have hanchor := Node.Shape.exists_build_iff.1 ⟨node, hnode⟩
      exact .call hanchor hcall (Node.Shape.build_eq_error_iff.1 h)
    · obtain ⟨rfl, hplace⟩ := (Node.Shape.position_eq_error_iff hnode).1 h
      exact .place (fun call hmem => Node.Shape.exists_build_iff.1 (hcall call hmem)) hplace
  · intro h
    cases h with
    | anchor h => exact .inl (Node.Shape.build_eq_error_iff.2 h)
    | call hanchor hcall h =>
      obtain ⟨node, hnode⟩ := Node.Shape.exists_build_iff.2 hanchor
      exact .inr ⟨node, hnode, .inl ⟨_, hcall, Node.Shape.build_eq_error_iff.2 h⟩⟩
    | place hcall h =>
      have hplace := h
      obtain ⟨line, column, hbare, -⟩ := hplace
      obtain ⟨node, hnode⟩ := hbare.exists_build
      refine .inr ⟨node, hnode, .inr ⟨?_, (Node.Shape.position_eq_error_iff hnode).2 ⟨rfl, h⟩⟩⟩
      intro call hmem
      exact Node.Shape.exists_build_iff.2 (hcall call hmem)

/-- The reasons, without their order. -/
theorem exists_fails_iff {operation : Operation} :
    (∃ f, operation.Fails f) ↔
      (∃ f, operation.anchor.Rejected f) ∨
      (∃ call ∈ operation.call?, ∃ f, call.Rejected f) ∨
      operation.anchor.Unplaced := by
  constructor
  · intro ⟨f, h⟩
    cases h with
    | anchor h => exact .inl ⟨f, h⟩
    | call _ hcall h => exact .inr (.inl ⟨_, hcall, f, h⟩)
    | place _ h => exact .inr (.inr h)
  · intro h
    by_cases hanchor : ∃ f, operation.anchor.Rejected f
    · obtain ⟨f, hanchor⟩ := hanchor
      exact ⟨f, .anchor hanchor⟩
    · by_cases hcall : ∃ call ∈ operation.call?, ∃ f, call.Rejected f
      · obtain ⟨call, hmem, f, hcall⟩ := hcall
        exact ⟨f, .call (not_exists.1 hanchor) hmem hcall⟩
      · have hplace : operation.anchor.Unplaced := (h.resolve_left hanchor).resolve_left hcall
        exact ⟨_, .place (fun call hmem g hg => hcall ⟨call, hmem, g, hg⟩) hplace⟩

end Sink.Operation

/-! ## Steps -/

namespace Session

theorem State.step_append_eq_fault_iff {s : State} {operation : Sink.Operation} {f : Fault} :
    (s.step (.append operation)).1 = .fault f ↔ operation.Fails f := by
  rw [← Sink.Operation.record_eq_error_iff]
  cases h : operation.record with
  | error g =>
    rw [step_append_of_error h, Answer.fault.injEq, Except.error.injEq]
  | ok r =>
    rw [step_append_of_ok h]
    exact iff_of_false nofun nofun

/-- **An appending step does everything or nothing.** It fails exactly if a node of its operation
cannot be made or its anchor starts nowhere, with the first fault that there is; where the call
starts makes no difference. If it fails, the session is as before. Otherwise one record has been
added at the end of the sink, and one event of the least level that shows the code, the line and the
column of this record. -/
theorem append_all_or_nothing (s : State) (operation : Sink.Operation) :
    let answer := (s.step (.append operation)).1
    let after := (s.step (.append operation)).2
    ((∃ f, answer = .fault f) ↔
      (∃ f, operation.anchor.Rejected f) ∨
      (∃ call ∈ operation.call?, ∃ f, call.Rejected f) ∨
      operation.anchor.Unplaced) ∧
    (∀ f, answer = .fault f ↔ operation.Fails f) ∧
    (∀ f, answer = .fault f → after = s) ∧
    ((∀ f, answer ≠ .fault f) →
      ∃ r : Record, ∃ event : Event,
        answer = .appended (s.sink.count + 1) (some r) ∧
        after = { sink := ⟨s.sink.records ++ [r]⟩
                  reports := s.reports
                  pending := s.pending ++ [event] } ∧
        event.level = .trace ∧
        event.fields =
          [("code", .text r.code), ("line", .number r.position.line),
            ("column", .number r.position.column)]) ∧
    (∀ call ∈ operation.call?, ∀ line column, call.IsBare line column →
      ((∃ f, answer = .fault f) ↔
        (∃ f, operation.anchor.Rejected f) ∨ operation.anchor.Unplaced)) := by
  intro answer after
  have hfault (f : Fault) : answer = .fault f ↔ operation.Fails f := State.step_append_eq_fault_iff
  have hfails : (∃ f, answer = .fault f) ↔ _ :=
    (exists_congr hfault).trans Sink.Operation.exists_fails_iff
  refine ⟨hfails, hfault, ?_, ?_, ?_⟩
  · intro f hf
    have hrecord := Sink.Operation.record_eq_error_iff.2 ((hfault f).1 hf)
    exact congrArg Prod.snd (State.step_append_of_error hrecord)
  · intro hok
    cases hrecord : operation.record with
    | error f => exact absurd ((hfault f).2 (Sink.Operation.record_eq_error_iff.1 hrecord)) (hok f)
    | ok r =>
      have hstep := State.step_append_of_ok (s := s) hrecord
      exact ⟨r, .recorded r.code r.position, congrArg Prod.fst hstep, congrArg Prod.snd hstep, rfl, rfl⟩
  · intro call hcall line column hbare
    rw [hfails]
    have hmade : ¬ ∃ call ∈ operation.call?, ∃ f, call.Rejected f := by
      intro ⟨other, hother, f, hf⟩
      obtain rfl := Option.mem_unique hother hcall
      exact hbare.not_rejected f hf
    rw [or_iff_right hmade]

end Session
end SemanticDiagnostics
