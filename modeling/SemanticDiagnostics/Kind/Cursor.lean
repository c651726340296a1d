import SemanticDiagnostics.Kind

/-!
The list of all kinds, and walking over it from both ends. The list holds every kind without its data,
and a kind is made again from it with the data. Names and codes do not depend on the data, so what the
list says of them is so for every kind.
-/

namespace SemanticDiagnostics.Kind

/-! ## Kinds and their data -/

/-- Every kind once, with empty texts and zeros for data. -/
def all : List Kind :=
  [declaredIdent "", undeclaredIdent "", incompatibleAssignment, nonReferenceableLeftExpr,
    incompatibleOperator "", nonArrayInArrayAccess, nonIntegerIndexInArrayAccess, booleanRequired,
    isNotCallable "", isNotProcedure "", isNotFunction "", numberOfParameters "",
    incompatibleParameter 0 "", referenceableParameter 0 "", incompatibleReturn,
    readWriteRequireBasic, nonReferenceableExpression, noMainProperlyDeclared]

/-- The same error with other data, as far as it has any. -/
def withData (index : Nat) (subject : String) : Kind → Kind
  | declaredIdent _ => declaredIdent subject
  | undeclaredIdent _ => undeclaredIdent subject
  | incompatibleOperator _ => incompatibleOperator subject
  | isNotCallable _ => isNotCallable subject
  | isNotProcedure _ => isNotProcedure subject
  | isNotFunction _ => isNotFunction subject
  | numberOfParameters _ => numberOfParameters subject
  | incompatibleParameter _ _ => incompatibleParameter index subject
  | referenceableParameter _ _ => referenceableParameter index subject
  | k => k

def index : Kind → Nat
  | incompatibleParameter index _ | referenceableParameter index _ => index
  | _ => 0

def subject : Kind → String
  | declaredIdent subject | undeclaredIdent subject | incompatibleOperator subject
  | isNotCallable subject | isNotProcedure subject | isNotFunction subject
  | numberOfParameters subject | incompatibleParameter _ subject
  | referenceableParameter _ subject => subject
  | _ => ""

/-- The kind without its data, as it stands in the list of all kinds. -/
def bare (k : Kind) : Kind := k.withData 0 ""

/-- The list leaves no kind out. -/
theorem bare_mem_all (k : Kind) : k.bare ∈ all := by
  cases k <;> simp [bare, withData, all]

theorem withData_bare (k : Kind) : k.bare.withData k.index k.subject = k := by
  cases k <;> rfl

theorem eq_of_bare_eq {a b : Kind} (h : a.bare = b.bare) (hindex : a.index = b.index)
    (hsubject : a.subject = b.subject) : a = b := by
  rw [← a.withData_bare, h, hindex, hsubject, b.withData_bare]

theorem name_bare (k : Kind) : k.bare.name = k.name := by cases k <;> rfl

theorem code_bare (k : Kind) : k.bare.code = k.code := by rw [code, code, name_bare]

/-- What is true of the codes in the list is true of all codes. -/
theorem forall_code {P : String → Prop} (h : ∀ d ∈ all, P d.code) (k : Kind) : P k.code := by
  rw [← k.code_bare]
  exact h k.bare k.bare_mem_all

/-! ## Cursors -/

/-- The kinds not yet visited. -/
structure Cursor where
  remaining : List Kind
  deriving DecidableEq, Repr

namespace Cursor

def start : Cursor := ⟨all⟩

inductive Move where
  | next
  | nextBack
  /-- Passes over `n` kinds and visits the one after them. -/
  | nth (n : Nat)
  | length
  deriving DecidableEq, Repr

/-- What a cursor answers: the kind that was visited, if one was left, or how many are left. -/
inductive Reply where
  | visited (kind : Option Kind)
  | left (count : Nat)
  deriving DecidableEq, Repr

/-- Answers one request. If fewer kinds are left than are passed over, none is left afterwards. -/
def move (c : Cursor) : Move → Reply × Cursor
  | .next => (.visited c.remaining.head?, ⟨c.remaining.tail⟩)
  | .nextBack => (.visited c.remaining.getLast?, ⟨c.remaining.dropLast⟩)
  | .nth n => (.visited c.remaining[n]?, ⟨c.remaining.drop (n + 1)⟩)
  | .length => (.left c.remaining.length, c)

def replies (c : Cursor) : List Move → List Reply
  | [] => []
  | m :: ms => (c.move m).1 :: replies (c.move m).2 ms

end Cursor

end SemanticDiagnostics.Kind
