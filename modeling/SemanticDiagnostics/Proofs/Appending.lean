import SemanticDiagnostics.Session

/-! # What an operation appends

An operation makes its nodes, takes the position of its anchor and appends one record. The record
depends on the operation alone and not on the sink, so it can be given beforehand: `Operation.run_eq`
says that running an operation is appending its record, or failing with its fault. -/
namespace SemanticDiagnostics

theorem exists_of_bind_eq_ok {ε α β : Type} {x : Except ε α} {f : α → Except ε β} {b : β}
    (h : x.bind f = .ok b) : ∃ a, x = .ok a ∧ f a = .ok b := by
  cases x with
  | error e => cases h
  | ok a => exact ⟨a, rfl, h⟩

theorem exists_of_map_eq_ok {ε α β : Type} {x : Except ε α} {f : α → β} {b : β}
    (h : x.map f = .ok b) : ∃ a, x = .ok a ∧ f a = b := by
  cases x with
  | error e => cases h
  | ok a => exact ⟨a, rfl, Except.ok.inj h⟩

/-! ## Nodes over a span -/

namespace Node.Shape

/-- The shape hands over a node over a span of a file, directly or through other nodes. -/
inductive IsOver (file : SourceFile) (span : Span) : Node.Shape → Prop
  | span : IsOver file span (.span file span.lo span.hi)
  | forwarded {inner : Node.Shape} : IsOver file span inner → IsOver file span (.forwarded inner)

theorem IsOver.build_eq {file : SourceFile} {span : Span} {shape : Node.Shape}
    (h : shape.IsOver file span) : shape.build = .ok (ofSpan file span) := by
  induction h with
  | span =>
    rw [build, Span.ofBounds_of_le span.lo_le_hi]
    rfl
  | forwarded _ ih =>
    rw [build, ih]
    rfl

end Node.Shape

/-! ## Operations -/

namespace Sink

/-- The kind of error that an operation reports at a node. -/
def NodeOperation.kind (node : Node) : NodeOperation → Kind
  | report kind => kind
  | declaredIdent => .declaredIdent node.text
  | undeclaredIdent => .undeclaredIdent node.text
  | incompatibleAssignment => .incompatibleAssignment
  | nonReferenceableLeftExpr => .nonReferenceableLeftExpr
  | incompatibleOperator => .incompatibleOperator node.text
  | nonArrayInArrayAccess => .nonArrayInArrayAccess
  | nonIntegerIndexInArrayAccess => .nonIntegerIndexInArrayAccess
  | booleanRequired => .booleanRequired
  | isNotCallable => .isNotCallable node.text
  | isNotProcedure => .isNotProcedure node.text
  | isNotFunction => .isNotFunction node.text
  | numberOfParameters => .numberOfParameters node.text
  | incompatibleReturn => .incompatibleReturn
  | readWriteRequireBasic => .readWriteRequireBasic
  | nonReferenceableExpression => .nonReferenceableExpression
  | noMainProperlyDeclared => .noMainProperlyDeclared

theorem NodeOperation.run_eq (s : Sink) (node : Node) (operation : NodeOperation) :
    operation.run s node = s.report (operation.kind node) node := by
  cases operation <;> rfl

def ParameterOperation.kind (index : Nat) (call : Node) : ParameterOperation → Kind
  | incompatibleParameter => .incompatibleParameter index call.text
  | referenceableParameter => .referenceableParameter index call.text

theorem ParameterOperation.run_eq (s : Sink) (argument : Node) (index : Nat) (call : Node)
    (operation : ParameterOperation) :
    operation.run s argument index call = s.report (operation.kind index call) argument := by
  cases operation <;> rfl

namespace Operation

def anchor : Operation → Node.Shape
  | atNode _ node => node
  | atArgument _ argument _ _ => argument

/-- The call that the error is about, if it is one of those on parameters. -/
def call? : Operation → Option Node.Shape
  | atNode _ _ => none
  | atArgument _ _ _ call => some call

/-- The kind and the place of the error that the operation finds, or the fault that keeps it from
having a place. -/
def finding : Operation → Except Fault (Kind × Position)
  | atNode operation node =>
    node.build.bind fun node => node.position.map fun p => (operation.kind node, p)
  | atArgument operation argument index call =>
    argument.build.bind fun argument => call.build.bind fun call =>
      argument.position.map fun p => (operation.kind index call, p)

/-- The record that the operation appends. -/
def record (operation : Operation) : Except Fault Record :=
  operation.finding.map fun x => .ofKind x.1 x.2

theorem finding_atNode {operation : NodeOperation} {shape : Node.Shape} {node : Node}
    (h : shape.build = .ok node) :
    (atNode operation shape).finding = node.position.map fun p => (operation.kind node, p) := by
  rw [finding, h]
  rfl

theorem finding_atArgument {operation : ParameterOperation} {shape call : Node.Shape} {index : Nat}
    {argument callee : Node} (h : shape.build = .ok argument) (hcall : call.build = .ok callee) :
    (atArgument operation shape index call).finding =
      argument.position.map fun p => (operation.kind index callee, p) := by
  rw [finding, h, hcall]
  rfl

/-- An operation appends its record and nothing else, or fails with its fault. -/
theorem run_eq (s : Sink) (operation : Operation) :
    operation.run s = operation.record.map s.append := by
  cases operation with
  | atNode operation shape =>
    cases hnode : shape.build with
    | error f => simp [run, record, finding, hnode, bind, Except.bind, Except.map]
    | ok node =>
      have hrun : (atNode operation shape).run s = operation.run s node := by
        rw [run, hnode]
        rfl
      rw [hrun, NodeOperation.run_eq, report_eq, record, finding_atNode hnode]
      cases node.position <;> rfl
  | atArgument operation shape index call =>
    cases hargument : shape.build with
    | error f => simp [run, record, finding, hargument, bind, Except.bind, Except.map]
    | ok argument =>
      cases hcall : call.build with
      | error f => simp [run, record, finding, hargument, hcall, bind, Except.bind, Except.map]
      | ok callee =>
        have hrun : (atArgument operation shape index call).run s =
            operation.run s argument index callee := by
          rw [run, hargument, hcall]
          rfl
        rw [hrun, ParameterOperation.run_eq, report_eq, record, finding_atArgument hargument hcall]
        cases argument.position <;> rfl

/-- An error is found where the anchor starts. -/
theorem exists_of_finding {operation : Operation} {kind : Kind} {p : Position}
    (h : operation.finding = .ok (kind, p)) :
    ∃ node, operation.anchor.build = .ok node ∧ node.position = .ok p := by
  cases operation with
  | atNode operation shape =>
    obtain ⟨node, hnode, hposition⟩ := exists_of_bind_eq_ok h
    obtain ⟨q, hq, hpair⟩ := exists_of_map_eq_ok hposition
    obtain ⟨-, rfl⟩ := Prod.mk.inj hpair
    exact ⟨node, hnode, hq⟩
  | atArgument operation shape index call =>
    obtain ⟨argument, hargument, hcall⟩ := exists_of_bind_eq_ok h
    obtain ⟨callee, -, hposition⟩ := exists_of_bind_eq_ok hcall
    obtain ⟨q, hq, hpair⟩ := exists_of_map_eq_ok hposition
    obtain ⟨-, rfl⟩ := Prod.mk.inj hpair
    exact ⟨argument, hargument, hq⟩

theorem record_atNode_of_isOver {operation : NodeOperation} {shape : Node.Shape}
    {file : SourceFile} {span : Span} (h : shape.IsOver file span) :
    (atNode operation shape).record =
      .ok (.ofKind (operation.kind (.ofSpan file span)) (file.positionOf span)) := by
  rw [record, finding_atNode h.build_eq, Node.position_ofSpan]
  rfl

theorem exists_record_of_isOver {operation : Operation} {file : SourceFile} {span : Span}
    (h : operation.anchor.IsOver file span)
    (hcall : ∀ call ∈ operation.call?, ∃ node, call.build = .ok node) :
    ∃ r, operation.record = .ok r := by
  cases operation with
  | atNode operation shape => exact ⟨_, record_atNode_of_isOver h⟩
  | atArgument operation shape index call =>
    obtain ⟨callee, hcallee⟩ := hcall call rfl
    have hargument : shape.build = .ok (.ofSpan file span) := h.build_eq
    rw [record, finding_atArgument hargument hcallee, Node.position_ofSpan]
    exact ⟨_, rfl⟩

/-- The record of an operation over a span stands where the span starts. -/
theorem position_of_isOver {operation : Operation} {file : SourceFile} {span : Span} {r : Record}
    (h : operation.anchor.IsOver file span) (hr : operation.record = .ok r) :
    r.position = file.positionOf span := by
  obtain ⟨⟨kind, p⟩, hfinding, rfl⟩ := exists_of_map_eq_ok hr
  obtain ⟨node, hnode, hp⟩ := exists_of_finding hfinding
  obtain rfl := Except.ok.inj (h.build_eq.symm.trans hnode)
  rw [Node.position_ofSpan] at hp
  exact (Except.ok.inj hp).symm

end Operation

end Sink

/-! ## Steps of a session -/

namespace Session

/-- The record that a step adds to the sink, if it adds one. -/
def Step.record? : Step → Option Record
  | .append operation => operation.record.toOption
  | _ => none

theorem Step.record?_append (operation : Sink.Operation) :
    (Step.append operation).record? = operation.record.toOption := rfl

/-- Whether the sink is a new one after the step. -/
def Step.startsSink : Step → Bool
  | .discard | .finish => true
  | _ => false

def Step.isFinish : Step → Bool
  | .finish => true
  | _ => false

theorem Step.isFinish_of_startsSink {x : Step} (h : x.startsSink = false) : x.isFinish = false := by
  cases x with
  | finish => cases h
  | _ => rfl

namespace State

theorem step_append_of_ok {s : State} {operation : Sink.Operation} {r : Record}
    (h : operation.record = .ok r) :
    s.step (.append operation) =
      (.appended (s.sink.count + 1) (some r),
        { s with sink := ⟨s.sink.records ++ [r]⟩
                 pending := s.pending ++ [.recorded r.code r.position] }) := by
  have hrun : operation.run s.sink = .ok (s.sink.append r) := by
    rw [Sink.Operation.run_eq, h]
    rfl
  rw [step, append_of_ok hrun]
  simp [Sink.append, Sink.count, Sink.last?, log]

theorem step_append_of_error {s : State} {operation : Sink.Operation} {f : Fault}
    (h : operation.record = .error f) : s.step (.append operation) = (.fault f, s) := by
  refine append_of_error ?_
  rw [Sink.Operation.run_eq, h]
  rfl

theorem sink_step (s : State) (x : Step) :
    (s.step x).2.sink.records =
      if x.startsSink then [] else s.sink.records ++ x.record?.toList := by
  cases x with
  | append operation =>
    cases h : operation.record with
    | error f => simp [step_append_of_error h, Step.startsSink, Step.record?, h, Except.toOption]
    | ok r => simp [step_append_of_ok h, Step.startsSink, Step.record?, h, Except.toOption]
  | readReport index reading =>
    simp only [step, readReport]
    split <;> simp [Step.startsSink, Step.record?, log]
  | compareReports first second =>
    simp only [step, compareReports]
    split <;> simp [Step.startsSink, Step.record?]
  | readSink | discard | finish | fetchEvents =>
    simp [step, readSink, finish, log, Step.startsSink, Step.record?, Sink.empty]

theorem reports_step (s : State) (x : Step) :
    (s.step x).2.reports =
      s.reports ++ if x.isFinish then [.ofRecords s.sink.records] else [] := by
  cases x with
  | append operation =>
    cases h : operation.record with
    | error f => simp [step_append_of_error h, Step.isFinish]
    | ok r => simp [step_append_of_ok h, Step.isFinish]
  | readReport index reading =>
    simp only [step, readReport]
    split <;> simp [Step.isFinish, log]
  | compareReports first second =>
    simp only [step, compareReports]
    split <;> simp [Step.isFinish]
  | readSink | discard | finish | fetchEvents =>
    simp [step, readSink, finish, log, Step.isFinish, Sink.finish]

theorem step_readReport {s : State} {index : Nat} {r : Report} (h : s.reports[index]? = some r)
    (reading : ReportReading) :
    (s.step (.readReport index reading)).1 = (reading.answer r).value := by
  rw [step, readReport, h]

/-! ## Runs -/

theorem run_cons (s : State) (x : Step) (xs : List Step) :
    (s.run (x :: xs)).2 = ((s.step x).2.run xs).2 := rfl

theorem run_concat (s : State) (xs : List Step) (x : Step) :
    (s.run (xs ++ [x])).2 = ((s.run xs).2.step x).2 := by
  rw [run_append]
  rfl

/-- Until the next sink starts, the sink gains the records of the steps. -/
theorem sink_run (s : State) {xs : List Step} (h : ∀ x ∈ xs, x.startsSink = false) :
    (s.run xs).2.sink.records = s.sink.records ++ xs.filterMap Step.record? := by
  induction xs generalizing s with
  | nil => exact (List.append_nil _).symm
  | cons x xs ih =>
    have hx := h x List.mem_cons_self
    rw [run_cons, ih _ fun y hy => h y (List.mem_cons_of_mem x hy), sink_step, hx]
    cases hr : x.record? <;> simp [hr]

theorem startsSink_append (operations : List Sink.Operation) :
    ∀ x ∈ operations.map Step.append, x.startsSink = false := by
  intro x hx
  obtain ⟨operation, -, rfl⟩ := List.mem_map.1 hx
  rfl

theorem sink_run_append (s : State) (operations : List Sink.Operation) :
    (s.run (operations.map .append)).2.sink.records =
      s.sink.records ++ operations.filterMap fun operation => operation.record.toOption := by
  rw [sink_run s (startsSink_append operations), List.filterMap_map]
  rfl

theorem reports_run (s : State) {xs : List Step} (h : ∀ x ∈ xs, x.isFinish = false) :
    (s.run xs).2.reports = s.reports := by
  induction xs generalizing s with
  | nil => rfl
  | cons x xs ih =>
    rw [run_cons, ih _ fun y hy => h y (List.mem_cons_of_mem x hy), reports_step,
      h x List.mem_cons_self]
    simp

/-- A sink that is finished after some steps becomes the next report. -/
theorem report_of_run (s : State) {xs : List Step} (h : ∀ x ∈ xs, x.startsSink = false) :
    (s.run (xs ++ [.finish])).2.reports[s.reports.length]? =
      some (.ofRecords (s.sink.records ++ xs.filterMap Step.record?)) := by
  rw [run_concat, reports_step, sink_run s h,
    reports_run s fun x hx => Step.isFinish_of_startsSink (h x hx)]
  exact List.getElem?_concat_length

end State

end Session

end SemanticDiagnostics
