import SemanticDiagnostics.Sink

/-!
The operations by which the checks of names and types report errors: one for every kind of error, and
the general one that takes the kind. All but two work on a single node, which is where the error is
and, for kinds that name something, what it is about. The two on parameters are placed at the
argument and name the call.
-/

namespace SemanticDiagnostics.Sink

/-! ## Names -/

/-- The identifier of a declaration is already taken. -/
def declaredIdent (s : Sink) (ident : Node) : Except Fault (Logged Sink) :=
  s.report (.declaredIdent ident.text) ident

/-- The identifier of an expression was never declared. -/
def undeclaredIdent (s : Sink) (ident : Node) : Except Fault (Logged Sink) :=
  s.report (.undeclaredIdent ident.text) ident

/-- The identifier of a call cannot be called. -/
def isNotCallable (s : Sink) (ident : Node) : Except Fault (Logged Sink) :=
  s.report (.isNotCallable ident.text) ident

/-- The identifier of a call statement is no procedure. -/
def isNotProcedure (s : Sink) (ident : Node) : Except Fault (Logged Sink) :=
  s.report (.isNotProcedure ident.text) ident

/-- The identifier of a call in an expression is no function. -/
def isNotFunction (s : Sink) (ident : Node) : Except Fault (Logged Sink) :=
  s.report (.isNotFunction ident.text) ident

/-- The program has no proper entry point. -/
def noMainProperlyDeclared (s : Sink) (program : Node) : Except Fault (Logged Sink) :=
  s.report .noMainProperlyDeclared program

/-! ## Expressions and statements -/

/-- The sides of an assignment do not fit together. -/
def incompatibleAssignment (s : Sink) (assign : Node) : Except Fault (Logged Sink) :=
  s.report .incompatibleAssignment assign

/-- The left side of an assignment cannot be assigned to. -/
def nonReferenceableLeftExpr (s : Sink) (left : Node) : Except Fault (Logged Sink) :=
  s.report .nonReferenceableLeftExpr left

/-- An operator does not fit its operands. -/
def incompatibleOperator (s : Sink) (op : Node) : Except Fault (Logged Sink) :=
  s.report (.incompatibleOperator op.text) op

/-- Something that is no array is indexed. -/
def nonArrayInArrayAccess (s : Sink) (access : Node) : Except Fault (Logged Sink) :=
  s.report .nonArrayInArrayAccess access

/-- An index is no integer. -/
def nonIntegerIndexInArrayAccess (s : Sink) (index : Node) : Except Fault (Logged Sink) :=
  s.report .nonIntegerIndexInArrayAccess index

/-- A condition is not boolean. -/
def booleanRequired (s : Sink) (condition : Node) : Except Fault (Logged Sink) :=
  s.report .booleanRequired condition

/-- A return statement does not fit its function. -/
def incompatibleReturn (s : Sink) (ret : Node) : Except Fault (Logged Sink) :=
  s.report .incompatibleReturn ret

/-- Something that is not of a basic type is read or written. -/
def readWriteRequireBasic (s : Sink) (statement : Node) : Except Fault (Logged Sink) :=
  s.report .readWriteRequireBasic statement

/-- Something that cannot be assigned to is read. -/
def nonReferenceableExpression (s : Sink) (statement : Node) : Except Fault (Logged Sink) :=
  s.report .nonReferenceableExpression statement

/-! ## Calls -/

/-- A call has too many or too few arguments. -/
def numberOfParameters (s : Sink) (callee : Node) : Except Fault (Logged Sink) :=
  s.report (.numberOfParameters callee.text) callee

/-- An argument does not fit its parameter. -/
def incompatibleParameter (s : Sink) (argument : Node) (index : Nat) (call : Node) :
    Except Fault (Logged Sink) :=
  s.report (.incompatibleParameter index call.text) argument

/-- An argument to a parameter by reference cannot be assigned to. -/
def referenceableParameter (s : Sink) (argument : Node) (index : Nat) (call : Node) :
    Except Fault (Logged Sink) :=
  s.report (.referenceableParameter index call.text) argument

/-! ## Operations as data -/

inductive NodeOperation where
  | report (kind : Kind)
  | declaredIdent
  | undeclaredIdent
  | incompatibleAssignment
  | nonReferenceableLeftExpr
  | incompatibleOperator
  | nonArrayInArrayAccess
  | nonIntegerIndexInArrayAccess
  | booleanRequired
  | isNotCallable
  | isNotProcedure
  | isNotFunction
  | numberOfParameters
  | incompatibleReturn
  | readWriteRequireBasic
  | nonReferenceableExpression
  | noMainProperlyDeclared
  deriving DecidableEq

def NodeOperation.run (s : Sink) (node : Node) : NodeOperation → Except Fault (Logged Sink)
  | report kind => s.report kind node
  | declaredIdent => s.declaredIdent node
  | undeclaredIdent => s.undeclaredIdent node
  | incompatibleAssignment => s.incompatibleAssignment node
  | nonReferenceableLeftExpr => s.nonReferenceableLeftExpr node
  | incompatibleOperator => s.incompatibleOperator node
  | nonArrayInArrayAccess => s.nonArrayInArrayAccess node
  | nonIntegerIndexInArrayAccess => s.nonIntegerIndexInArrayAccess node
  | booleanRequired => s.booleanRequired node
  | isNotCallable => s.isNotCallable node
  | isNotProcedure => s.isNotProcedure node
  | isNotFunction => s.isNotFunction node
  | numberOfParameters => s.numberOfParameters node
  | incompatibleReturn => s.incompatibleReturn node
  | readWriteRequireBasic => s.readWriteRequireBasic node
  | nonReferenceableExpression => s.nonReferenceableExpression node
  | noMainProperlyDeclared => s.noMainProperlyDeclared node

inductive ParameterOperation where
  | incompatibleParameter
  | referenceableParameter
  deriving DecidableEq

def ParameterOperation.run (s : Sink) (argument : Node) (index : Nat) (call : Node) :
    ParameterOperation → Except Fault (Logged Sink)
  | incompatibleParameter => s.incompatibleParameter argument index call
  | referenceableParameter => s.referenceableParameter argument index call

/-- An operation, with its nodes in the form in which the caller hands them over. -/
inductive Operation where
  | atNode (operation : NodeOperation) (node : Node.Shape)
  | atArgument (operation : ParameterOperation) (argument : Node.Shape) (index : Nat)
      (call : Node.Shape)

/-- Makes the nodes, that of the call last, and carries the operation out. -/
def Operation.run (s : Sink) : Operation → Except Fault (Logged Sink)
  | atNode operation node => do
    operation.run s (← node.build)
  | atArgument operation argument index call => do
    let argument ← argument.build
    let call ← call.build
    operation.run s argument index call

end SemanticDiagnostics.Sink
