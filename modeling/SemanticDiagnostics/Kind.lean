import SemanticDiagnostics.Text.CodePoints

/-!
The semantic errors that the checks of names and types can find, each with the data that its message
needs. A kind has a name, a code derived from the name, and a message.
-/

namespace SemanticDiagnostics

/-- Named data that kinds of errors and events carry. -/
inductive Datum where
  | text (s : String)
  | number (n : Nat)
  deriving DecidableEq, Repr

/-- The form in which an inspected value shows a datum: texts in quotes, numbers in decimal. -/
def Datum.inspect : Datum → String
  | .text s => Text.Quoted.quote s
  | .number n => toString n

/-- A semantic error. The index of a parameter is counted from one by callers, but not checked. -/
inductive Kind where
  | declaredIdent (ident : String)
  | undeclaredIdent (ident : String)
  | incompatibleAssignment
  | nonReferenceableLeftExpr
  | incompatibleOperator (op : String)
  | nonArrayInArrayAccess
  | nonIntegerIndexInArrayAccess
  | booleanRequired
  | isNotCallable (ident : String)
  | isNotProcedure (ident : String)
  | isNotFunction (ident : String)
  | numberOfParameters (callee : String)
  | incompatibleParameter (index : Nat) (callee : String)
  | referenceableParameter (index : Nat) (callee : String)
  | incompatibleReturn
  | readWriteRequireBasic
  | nonReferenceableExpression
  | noMainProperlyDeclared
  deriving DecidableEq, Repr

namespace Kind

def name : Kind → String
  | declaredIdent _ => "DeclaredIdent"
  | undeclaredIdent _ => "UndeclaredIdent"
  | incompatibleAssignment => "IncompatibleAssignment"
  | nonReferenceableLeftExpr => "NonReferenceableLeftExpr"
  | incompatibleOperator _ => "IncompatibleOperator"
  | nonArrayInArrayAccess => "NonArrayInArrayAccess"
  | nonIntegerIndexInArrayAccess => "NonIntegerIndexInArrayAccess"
  | booleanRequired => "BooleanRequired"
  | isNotCallable _ => "IsNotCallable"
  | isNotProcedure _ => "IsNotProcedure"
  | isNotFunction _ => "IsNotFunction"
  | numberOfParameters _ => "NumberOfParameters"
  | incompatibleParameter _ _ => "IncompatibleParameter"
  | referenceableParameter _ _ => "ReferenceableParameter"
  | incompatibleReturn => "IncompatibleReturn"
  | readWriteRequireBasic => "ReadWriteRequireBasic"
  | nonReferenceableExpression => "NonReferenceableExpression"
  | noMainProperlyDeclared => "NoMainProperlyDeclared"

/-- The data of the kind, by name. -/
def payload : Kind → List (String × Datum)
  | declaredIdent ident => [("ident", .text ident)]
  | undeclaredIdent ident => [("ident", .text ident)]
  | incompatibleOperator op => [("op", .text op)]
  | isNotCallable ident => [("ident", .text ident)]
  | isNotProcedure ident => [("ident", .text ident)]
  | isNotFunction ident => [("ident", .text ident)]
  | numberOfParameters callee => [("callee", .text callee)]
  | incompatibleParameter index callee => [("index", .number index), ("callee", .text callee)]
  | referenceableParameter index callee => [("index", .number index), ("callee", .text callee)]
  | incompatibleAssignment | nonReferenceableLeftExpr | nonArrayInArrayAccess
  | nonIntegerIndexInArrayAccess | booleanRequired | incompatibleReturn | readWriteRequireBasic
  | nonReferenceableExpression | noMainProperlyDeclared => []

/-- The error code of the kind: its name, beginning in lower case. -/
def code (k : Kind) : String :=
  match k.name.toList with
  | [] => ""
  | c :: cs => String.ofList (c.toLower :: cs)

/-- No kind has the empty code. -/
theorem code_ne_empty (k : Kind) : k.code ≠ "" := by
  cases k <;> simp [code, name]

def message : Kind → String
  | declaredIdent ident => "identifier `" ++ ident ++ "` already declared"
  | undeclaredIdent ident => "identifier `" ++ ident ++ "` is undeclared"
  | incompatibleAssignment => "assignment with incompatible types"
  | nonReferenceableLeftExpr => "left expression of assignment is not referenceable"
  | incompatibleOperator op => "operator `" ++ op ++ "` with incompatible types"
  | nonArrayInArrayAccess => "array access to a non array operand"
  | nonIntegerIndexInArrayAccess => "array access with non integer index"
  | booleanRequired => "boolean condition required"
  | isNotCallable ident => "identifier `" ++ ident ++ "` is not callable"
  | isNotProcedure ident => "identifier `" ++ ident ++ "` is not a procedure"
  | isNotFunction ident => "identifier `" ++ ident ++ "` is not a function"
  | numberOfParameters callee =>
    "the number of parameters in the call to `" ++ callee ++ "` does not match"
  | incompatibleParameter index callee =>
    "parameter #" ++ toString index ++ " with incompatible types in call to `" ++ callee ++ "`"
  | referenceableParameter index callee =>
    "parameter #" ++ toString index ++ " is expected to be referenceable in call to `" ++ callee ++ "`"
  | incompatibleReturn => "return with incompatible type"
  | readWriteRequireBasic => "basic type required in read/write instruction"
  | nonReferenceableExpression => "referenceable expression required"
  | noMainProperlyDeclared => "there is no `main` function properly declared"

/-- The form in which an inspected value shows a kind: its name, and its data if it has any. -/
def inspect (k : Kind) : String :=
  match k.payload with
  | [] => k.name
  | data =>
    k.name ++ " \x7b " ++ ", ".intercalate (data.map fun d => d.1 ++ ": " ++ d.2.inspect) ++ " \x7d"

end Kind

end SemanticDiagnostics
