import Mathlib.Logic.Function.Iterate
import SemanticDiagnostics.Proofs.Faults
import SemanticDiagnostics.Proofs.FrozenErrors

/-! # Typed operations

Every kind of error has an operation of its own, whose name says in words what the code of the kind
says in one word. No such operation does more than the general one: it is as if the kind of that name
had been reported, with the text of the node for data or, at an argument, with the index and the text
of the call. -/
namespace SemanticDiagnostics
open Session

/-! ## Names -/

/-- A name in words with underscores between them, as one word in which every further word begins
with a capital. -/
def camelCase (name : String) : String := String.ofList (join name.toList)
where
  join : List Char → List Char
    | '_' :: c :: cs => c.toUpper :: join cs
    | c :: cs => c :: join cs
    | [] => []

example : camelCase "non_array_in_array_access" = "nonArrayInArrayAccess" := by decide

namespace Sink

/-- The name under which callers know a typed operation. -/
def NodeOperation.name? : NodeOperation → Option String
  | report _ => none
  | declaredIdent => some "declared_ident"
  | undeclaredIdent => some "undeclared_ident"
  | incompatibleAssignment => some "incompatible_assignment"
  | nonReferenceableLeftExpr => some "non_referenceable_left_expr"
  | incompatibleOperator => some "incompatible_operator"
  | nonArrayInArrayAccess => some "non_array_in_array_access"
  | nonIntegerIndexInArrayAccess => some "non_integer_index_in_array_access"
  | booleanRequired => some "boolean_required"
  | isNotCallable => some "is_not_callable"
  | isNotProcedure => some "is_not_procedure"
  | isNotFunction => some "is_not_function"
  | numberOfParameters => some "number_of_parameters"
  | incompatibleReturn => some "incompatible_return"
  | readWriteRequireBasic => some "read_write_require_basic"
  | nonReferenceableExpression => some "non_referenceable_expression"
  | noMainProperlyDeclared => some "no_main_properly_declared"

/-- The typed operations on a single node. -/
def NodeOperation.typed : List NodeOperation :=
  [declaredIdent, undeclaredIdent, incompatibleAssignment, nonReferenceableLeftExpr,
    incompatibleOperator, nonArrayInArrayAccess, nonIntegerIndexInArrayAccess, booleanRequired,
    isNotCallable, isNotProcedure, isNotFunction, numberOfParameters, incompatibleReturn,
    readWriteRequireBasic, nonReferenceableExpression, noMainProperlyDeclared]

def ParameterOperation.all : List ParameterOperation := [incompatibleParameter, referenceableParameter]

def ParameterOperation.name : ParameterOperation → String
  | incompatibleParameter => "incompatible_parameter"
  | referenceableParameter => "referenceable_parameter"

namespace Operation

/-- The name of a typed operation. The general one has none. -/
def name? : Operation → Option String
  | atNode operation _ => operation.name?
  | atArgument operation _ _ _ => some operation.name

/-- The node whose text the message names: the call, if there is one. -/
def subject (operation : Operation) : Node.Shape := operation.call?.getD operation.anchor

def index? : Operation → Option Nat
  | atNode _ _ => none
  | atArgument _ _ index _ => some index

end Operation

end Sink

/-! ## The kind of a name -/

namespace Kind

theorem eq_of_code_eq : ∀ a ∈ all, ∀ b ∈ all, a.code = b.code → a = b := by decide +kernel

/-- The kind has this code, and the data that it has are this index and this text. -/
structure Tells (code : String) (index? : Option Nat) (text : String) (k : Kind) : Prop where
  code_eq : k.code = code
  datum_eq : ∀ d ∈ k.payload, d.2 = .text text ∨ ∃ index ∈ index?, d.2 = .number index

theorem Tells.withData_bare {code text : String} {index? : Option Nat} {k : Kind}
    (h : k.Tells code index? text) : k.bare.withData (index?.getD 0) text = k := by
  obtain ⟨-, hdatum⟩ := h
  cases k <;> simp_all [payload, bare, withData]

/-- The code, the index and the text leave no choice. -/
theorem Tells.unique {code text : String} {index? : Option Nat} {a b : Kind}
    (ha : a.Tells code index? text) (hb : b.Tells code index? text) : a = b := by
  have hcode : a.bare.code = b.bare.code := by
    rw [code_bare, code_bare, ha.code_eq, hb.code_eq]
  have hbare : a.bare = b.bare := eq_of_code_eq _ a.bare_mem_all _ b.bare_mem_all hcode
  rw [← ha.withData_bare, hbare, hb.withData_bare]

end Kind

namespace Sink

theorem NodeOperation.tells_kind {operation : NodeOperation} {name : String}
    (h : operation.name? = some name) (node : Node) :
    (operation.kind node).Tells (camelCase name) none node.text := by
  cases operation with
  | report => cases h
  | _ =>
    cases h
    constructor
    · simp [kind, Kind.code, Kind.name, camelCase, camelCase.join]
    · simp [kind, Kind.payload]

theorem ParameterOperation.tells_kind (operation : ParameterOperation) (index : Nat) (call : Node) :
    (operation.kind index call).Tells (camelCase operation.name) (some index) call.text := by
  cases operation <;>
    constructor <;>
    simp [kind, name, Kind.code, Kind.name, Kind.payload, camelCase, camelCase.join]

end Sink

/-- An anchor, or a call, without text. -/
def mute : Node := { line := 1, column := 1, text := "" }

theorem isSome_name?_typed : ∀ operation ∈ Sink.NodeOperation.typed, operation.name?.isSome := by
  decide

theorem exists_kind_eq_of_mem_all : ∀ k ∈ Kind.all,
    (∃ operation ∈ Sink.NodeOperation.typed, operation.kind mute = k) ∨
      ∃ operation ∈ Sink.ParameterOperation.all, operation.kind 0 mute = k := by
  decide +kernel

/-- Every kind has a typed operation. -/
theorem Kind.exists_name (k : Kind) : ∃ operation name,
    Sink.Operation.name? operation = some name ∧ camelCase name = k.code := by
  let node : Node.Shape := .position 1 1
  rw [← code_bare]
  rcases exists_kind_eq_of_mem_all k.bare k.bare_mem_all with
    ⟨operation, htyped, hkind⟩ | ⟨operation, -, hkind⟩
  · obtain ⟨name, hname⟩ := Option.isSome_iff_exists.1 (isSome_name?_typed operation htyped)
    have htells := operation.tells_kind hname mute
    exact ⟨.atNode operation node, name, hname, by rw [← hkind, htells.code_eq]⟩
  · have htells := operation.tells_kind 0 mute
    exact ⟨.atArgument operation node 0 node, operation.name, rfl, by rw [← hkind, htells.code_eq]⟩

/-! ## Nodes behind nodes -/

namespace Node.Shape

theorem build_forwarded (inner : Shape) : (forwarded inner).build = inner.build := by
  rw [build]
  cases inner.build <;> rfl

theorem build_iterate_forwarded (n : Nat) (shape : Shape) :
    (forwarded^[n] shape).build = shape.build := by
  induction n with
  | zero => rfl
  | succ n ih => rw [Function.iterate_succ_apply', build_forwarded, ih]

end Node.Shape

namespace Sink.Operation

/-- The operation with its anchor handed over through `m` other nodes, and its call through `n`. -/
def forwardedBy (m n : Nat) : Operation → Operation
  | atNode operation node => atNode operation (.forwarded^[m] node)
  | atArgument operation argument index call =>
    atArgument operation (.forwarded^[m] argument) index (.forwarded^[n] call)

theorem record_forwardedBy (m n : Nat) (operation : Operation) :
    (operation.forwardedBy m n).record = operation.record := by
  cases operation <;>
    simp only [forwardedBy, record, finding, Node.Shape.build_iterate_forwarded]

/-! ## What is found -/

variable {operation : Operation} {anchor subject : Node}

/-- Once its nodes are made, a typed operation finds the kind of its name where its anchor starts. -/
theorem exists_finding_eq {name : String} (h : operation.name? = some name)
    (hanchor : operation.anchor.build = .ok anchor)
    (hsubject : operation.subject.build = .ok subject) :
    ∃ kind : Kind, kind.Tells (camelCase name) operation.index? subject.text ∧
      operation.finding = anchor.position.map fun p => (kind, p) := by
  cases operation with
  | atNode operation shape =>
    obtain rfl : anchor = subject := Except.ok.inj (hanchor.symm.trans hsubject)
    exact ⟨operation.kind anchor, operation.tells_kind h anchor, finding_atNode hanchor⟩
  | atArgument operation shape index call =>
    obtain rfl := Option.some.inj h
    exact ⟨operation.kind index subject, operation.tells_kind index subject,
      finding_atArgument hanchor hsubject⟩

theorem record_of_anchor_error {f : Fault} (h : operation.anchor.build = .error f) :
    operation.record = .error f :=
  record_eq_error_iff_finding.2 (.inl h)

theorem record_of_subject_error {f : Fault} (hanchor : operation.anchor.build = .ok anchor)
    (h : operation.subject.build = .error f) : operation.record = .error f := by
  cases operation with
  | atNode operation shape =>
    have hshape : shape.build = .error f := h
    cases hshape.symm.trans hanchor
  | atArgument operation shape index call =>
    exact record_eq_error_iff_finding.2 (.inr ⟨anchor, hanchor, .inl ⟨call, rfl, h⟩⟩)

end Sink.Operation

namespace Session

theorem State.step_append_congr (s : State) {a b : Sink.Operation} (h : a.record = b.record) :
    s.step (.append a) = s.step (.append b) := by
  have hrun : a.run s.sink = b.run s.sink := by
    rw [Sink.Operation.run_eq, Sink.Operation.run_eq, h]
  rw [step, step, append, append, hrun]

/-- **A typed operation is the general one, told its kind.** Every kind has a typed operation of its
name. It makes no difference through how many other nodes its own are handed over. If one of them
cannot be made, nothing happens. Otherwise it does exactly what the general operation does at its
anchor with the kind of its name, whose data are the text of its node or, at an argument, the index
and the text of the call: it fails if the anchor starts nowhere, and else it appends the record that
has this position, the name of the operation for a code, and the message of the kind. -/
theorem typed_operation_is_general (s : State) :
    (∀ k : Kind, ∃ operation name, Sink.Operation.name? operation = some name ∧
      camelCase name = k.code) ∧
    ∀ (operation : Sink.Operation) (name : String), operation.name? = some name →
      let code := camelCase name
      let after := s.step (.append operation)
      (∀ m n, s.step (.append (operation.forwardedBy m n)) = after) ∧
      (∀ f, operation.anchor.build = .error f → after = (.fault f, s)) ∧
      (∀ anchor f, operation.anchor.build = .ok anchor → operation.subject.build = .error f →
        after = (.fault f, s)) ∧
      ∀ anchor subject, operation.anchor.build = .ok anchor →
        operation.subject.build = .ok subject →
        ∃ kind : Kind, kind.Tells code operation.index? subject.text ∧
          (∀ other : Kind, other.Tells code operation.index? subject.text → other = kind) ∧
          operation.run s.sink = s.sink.report kind anchor ∧
          after = s.step (.append (.atNode (.report kind) operation.anchor)) ∧
          (∀ f, anchor.position = .error f → after = (.fault f, s)) ∧
          ∀ p, anchor.position = .ok p →
            let r : Record := { position := p, code, message := kind.message }
            after = (.appended (s.sink.count + 1) (some r),
              { sink := ⟨s.sink.records ++ [r]⟩
                reports := s.reports
                pending := s.pending ++ [.recorded code p] }) := by
  refine ⟨Kind.exists_name, ?_⟩
  intro operation name hname code after
  refine ⟨?_, ?_, ?_, ?_⟩
  · intro m n
    exact s.step_append_congr (operation.record_forwardedBy m n)
  · intro f hf
    exact State.step_append_of_error (Sink.Operation.record_of_anchor_error hf)
  · intro anchor f hanchor hf
    exact State.step_append_of_error (Sink.Operation.record_of_subject_error hanchor hf)
  · intro anchor subject hanchor hsubject
    obtain ⟨kind, hkind, hfinding⟩ := Sink.Operation.exists_finding_eq hname hanchor hsubject
    have hgeneral : operation.record = (Sink.Operation.atNode (.report kind) operation.anchor).record := by
      rw [Sink.Operation.record, hfinding, Sink.Operation.record,
        Sink.Operation.finding_atNode hanchor]
      rfl
    have hrecord : operation.record = anchor.position.map (.ofKind kind) := by
      rw [Sink.Operation.record, hfinding]
      cases anchor.position <;> rfl
    refine ⟨kind, hkind, fun other hother => hother.unique hkind, ?_, s.step_append_congr hgeneral,
      ?_, ?_⟩
    · rw [Sink.Operation.run_eq, hrecord, Sink.report_eq]
    · intro f hf
      exact State.step_append_of_error (by rw [hrecord, hf]; rfl)
    · intro p hp r
      have hr : r = .ofKind kind p := by
        show Record.mk p code kind.message = Record.mk p kind.code kind.message
        rw [hkind.code_eq]
      exact State.step_append_of_ok (by rw [hrecord, hp, hr]; rfl)

end Session
end SemanticDiagnostics
