import SemanticDiagnostics.Kind
import SemanticDiagnostics.Position

/-!
Records: one collected error each, with the place it was found at. The message is made when the
record is made and never changes.
-/

namespace SemanticDiagnostics

/-- A stable sort keeps the order of elements of which none comes before another. -/
theorem filter_mergeSort {α : Type} {le : α → α → Bool}
    (trans : ∀ a b c, le a b = true → le b c = true → le a c = true)
    (total : ∀ a b, (le a b || le b a) = true) {p : α → Bool}
    (tied : ∀ a b, p a = true → p b = true → le a b = true) (xs : List α) :
    (xs.mergeSort le).filter p = xs.filter p := by
  have hle : (xs.filter p).Pairwise (fun a b => le a b = true) := by
    refine List.Pairwise.imp_of_mem ?_ (List.pairwise_of_forall (R := fun _ _ => True) fun _ _ => trivial)
    intro a b ha hb _
    exact tied a b (List.mem_filter.1 ha).2 (List.mem_filter.1 hb).2
  have hsub := (List.sublist_mergeSort trans total hle List.filter_sublist).filter p
  rw [List.filter_filter, List.filter_congr (q := p) (by simp)] at hsub
  exact (hsub.eq_of_length ((List.mergeSort_perm xs le).filter _).length_eq.symm).symm

/-- Where an error is, the code of its kind, and what it says. -/
@[ext]
structure Record where
  position : Position
  code : String
  message : String
  deriving DecidableEq

namespace Record

/-- A record with a message of the caller's own, and so without a code. -/
def ofMessage (position : Position) (message : String) : Record :=
  { position, code := "", message }

def ofKind (kind : Kind) (position : Position) : Record :=
  { position, code := kind.code, message := kind.message }

/-- The line of a record in plain output: the place, a colon and the message. -/
def render (r : Record) : String := r.position.render ++ ": " ++ r.message

def inspect (r : Record) : String :=
  "DiagnosticRecord(" ++ r.position.render ++ ", " ++ Text.Quoted.quote r.code ++ ", " ++
    Text.Quoted.quote r.message ++ ")"

def inspectList (rs : List Record) : String := "[" ++ ", ".intercalate (rs.map inspect) ++ "]"

/-! ## Order -/

/-- Whether a record comes no later in the text than another. -/
def le (a b : Record) : Bool := a.position.le b.position

theorem le_trans (a b c : Record) (h : a.le b = true) (h' : b.le c = true) : a.le c = true :=
  Position.le_trans h h'

theorem le_total (a b : Record) : (a.le b || b.le a) = true := Position.le_total ..

/-- Records by place; those at the same place stay in the order in which they were given. -/
def sort (rs : List Record) : List Record := rs.mergeSort le

theorem sort_perm (rs : List Record) : (sort rs).Perm rs := List.mergeSort_perm ..

theorem pairwise_sort (rs : List Record) : (sort rs).Pairwise (fun a b => a.le b = true) :=
  List.pairwise_mergeSort le_trans le_total rs

@[simp] theorem length_sort (rs : List Record) : (sort rs).length = rs.length :=
  (sort_perm rs).length_eq

/-- Sorting keeps the order of the records at each place. -/
theorem filter_sort (rs : List Record) (p : Position) :
    (sort rs).filter (·.position = p) = rs.filter (·.position = p) := by
  refine filter_mergeSort le_trans le_total (fun a b ha hb => ?_) rs
  rw [decide_eq_true_eq] at ha hb
  rw [le, ha, hb]
  exact Position.le_refl p

/-- What plain output writes for a list of records, call by call. -/
def plainChunks (rs : List Record) : List String := rs.flatMap fun r => [r.render, "\n"]

end Record

end SemanticDiagnostics
